import MessageBus.Bus.Progress
import MessageBus.Distributor.Failures

/-!
# The bus at rest

In a state where the bus left alone does nothing, either the event loop has stopped, or it
waits in `Interactor.Dispose` for a read task that waits for its client, or every event has
been handled and every message delivered: what the applications asked their clients to send
has been handled, and what was sent to a client has been raised there.
-/

namespace MessageBus
open Base Common Messages Adapters Distributor

namespace Streams

private theorem act_of_actOn {streams : Streams} {i : Guid} {o : Option StreamAction}
    {stream : Stream} (h : actOn (streams i) o = some stream) :
    ∃ streams', streams.act (o.map (i, ·)) = some streams' := by
  cases o with
  | none => exact ⟨streams, rfl⟩
  | some action =>
    refine ⟨Function.update streams i stream, ?_⟩
    rw [Option.map_some, act, ← actOn, h, Option.map_some]

end Streams

namespace Bus

variable {settings : Settings}

/-! ### When a step is enabled -/

private theorem enabled_task {b : Bus} {i : Guid} {action : Distributor.Action}
    (ha : action.task = some i) {o : Interactor} {up down : Stream}
    (ho : (b.system.server.objects i).taskStep action = some o)
    (hu : Streams.actOn (b.upstream i) (interactorReads action) = some up)
    (hd : Streams.actOn (b.downstream i)
      (interactorWrites (b.system.server.objects i) action) = some down) :
    b.step settings (.distributor action) ≠ none := by
  obtain ⟨upstream, hu⟩ := Streams.act_of_actOn hu
  obtain ⟨downstream, hd⟩ := Streams.act_of_actOn hd
  rw [Option.ne_none_iff_exists']
  refine ⟨{ b with system := b.system.afterTask i o (action.posts settings), upstream, downstream },
    step_eq_some_iff.mpr ⟨?_, ?_, rfl, rfl, ?_, ?_⟩⟩
  · cases action with
    | accept j => cases ha
    | _ => trivial
  · rw [onSystem, System.step_task settings b.system ha, ho, Option.map_some]
  · rw [onUpstream, distributorReads, ha, Option.bind_some, hu]
  · rw [onDownstream, distributorWrites_of_task ha, hd]

private theorem enabled_client {b : Bus} {i : Guid} (hi : i ∈ b.clients) {action : Client.Action}
    {c : Client} {up down : Stream} (hc : (b.client i).step action = some c)
    (hu : Streams.actOn (b.upstream i) (clientWrites (b.client i) action) = some up)
    (hd : Streams.actOn (b.downstream i) (clientReads action) = some down) :
    b.step settings (.client i action) ≠ none := by
  obtain ⟨upstream, hu⟩ := Streams.act_of_actOn hu
  obtain ⟨downstream, hd⟩ := Streams.act_of_actOn hd
  rw [Option.ne_none_iff_exists']
  refine ⟨{ b with client := Function.update b.client i c, upstream, downstream },
    step_eq_some_iff.mpr ⟨hi, rfl, rfl, ?_, hu, hd⟩⟩
  rw [onClient, hc, Option.map_some]

private theorem enabled_distributorPut {b : Bus} {i : Guid} {count : Nat} {down : Stream}
    (ht : (b.system.server.objects i).writeTask = .writing)
    (hd : (b.downstream i).step Message.codec (.put count) = some down) :
    b.step settings (.distributorPut i count) ≠ none := by
  obtain ⟨downstream, hd⟩ := Streams.act_of_actOn (o := some (.put count)) hd
  rw [Option.ne_none_iff_exists']
  exact ⟨{ b with downstream }, step_eq_some_iff.mpr ⟨ht, rfl, rfl, rfl, rfl, hd⟩⟩

private theorem enabled_process {b : Bus} {e : Event} {es : List Event}
    (hq : b.system.eventQueue = e :: es) (hr : b.system.isRunning = true)
    (hc : b.system.CanProcess e) : b.step settings (.distributor .process) ≠ none := by
  have hd : ∃ downstream, b.downstream.act (distributorWrites b.system .process) =
      some downstream := by
    rw [distributorWrites, hq, List.head?_cons, Option.bind_some]
    cases e.disposes with
    | none => exact ⟨_, rfl⟩
    | some i => exact ⟨_, rfl⟩
  obtain ⟨downstream, hd⟩ := hd
  rw [Option.ne_none_iff_exists']
  refine ⟨{ b with system := b.system.handle settings e es, downstream },
    step_eq_some_iff.mpr ⟨trivial, ?_, rfl, rfl, rfl, hd⟩⟩
  rw [onSystem, System.step, hq]
  exact if_pos ⟨hr, hc⟩

/-! ### Tasks at rest -/

-- A stream on which a message has arrived can be read.
private theorem actOn_receive {stream : Stream} {m : Message} {rest : List UInt8}
    (hn : stream.next Message.codec = some (m, rest)) :
    ∃ stream', Streams.actOn stream (some (.receive m)) = some stream' := by
  simp [Streams.actOn, Channel.step, hn]

/-- The tasks of an interactor in a state at rest: each waits for its client or has ended. -/
structure TasksWait (o : Interactor) (up : Stream) : Prop where
  read : o.readTask = .unstarted ∨ o.readTask = .completed ∨
    o.readTask = .reading ∧ up.next Message.codec = none
  write : o.writeTask = .unstarted ∨ o.writeTask = .completed ∨
    o.writeTask = .checking ∧ o.tokenSource = .live ∧ o.writeQueue = []

/-- The tasks of a client in a state at rest; one that was disposed while it wrote a message
waits for its stream to fail. -/
structure ClientWaits (c : Client) (down : Stream) : Prop where
  read : c.readTask = .running → down.next Message.codec = none
  write : c.writeTask = .checking → c.writeQueue = []

section rest

variable {h : History Bus Action} {b : Bus}

/-- At rest the tasks of an interactor wait. -/
theorem tasksWait_of_atRest (hr : Runs settings h b)
    (hrest : AtRest (step settings) Internal b) (i : Guid) :
    TasksWait (b.system.server.objects i) (b.upstream i) := by
  have hw := (Runs.written hr i).1
  have hsound := System.Runs.sound settings (Runs.system hr) i
  constructor
  · cases ht : (b.system.server.objects i).readTask with
    | unstarted => exact .inl rfl
    | completed => exact .inr (.inl rfl)
    | checking =>
      exact absurd (hrest (.distributor (.checkRead i)) rfl)
        (enabled_task rfl (if_pos ht) rfl rfl)
    | ending =>
      exact absurd (hrest (.distributor (.endRead i)) rfl)
        (enabled_task rfl (if_pos ht) rfl rfl)
    | reading =>
      refine .inr (.inr ⟨rfl, ?_⟩)
      rw [Option.eq_none_iff_forall_ne_some]
      rintro ⟨m, rest⟩ hn
      obtain ⟨up, hu⟩ := actOn_receive hn
      exact absurd (hrest (.distributor (.receive i m)) rfl)
        (enabled_task rfl (if_pos ht) hu rfl)
  · cases ht : (b.system.server.objects i).writeTask with
    | unstarted => exact .inl rfl
    | completed => exact .inr (.inl rfl)
    | ending =>
      exact absurd (hrest (.distributor (.endWrite i)) rfl)
        (enabled_task rfl (if_pos ht) rfl rfl)
    | writing =>
      exfalso
      by_cases hp : (b.downstream i).pending = []
      · exact absurd (hrest (.distributor (.wrote i)) rfl)
          (enabled_task rfl (if_pos ht) rfl (if_pos hp))
      · -- The stream is open, since the interactor is not disposed before its task ends.
        have hopen : (b.downstream i).isClosed = false := by
          rw [Bool.eq_false_iff]
          intro hc
          cases (hsound.disposed (hw.closed hc)).2.symm.trans ht
        have hpos : 0 < 1 ∧ 1 ≤ (b.downstream i).pending.length ∧
            (b.downstream i).isClosed = false :=
          ⟨Nat.one_pos, List.length_pos_of_ne_nil hp, hopen⟩
        exact absurd (hrest (.distributorPut i 1) rfl) (enabled_distributorPut ht (if_pos hpos))
    | checking =>
      refine .inr (.inr ⟨rfl, ?_⟩)
      have hidle : (b.downstream i).pending = [] := hw.idle (.inr ht)
      have hdisabled := hrest (.distributor (.checkWrite i)) rfl
      cases hk : (b.system.server.objects i).tokenSource with
      | live =>
        refine ⟨rfl, ?_⟩
        cases hq : (b.system.server.objects i).writeQueue with
        | nil => rfl
        | cons m ms =>
          have ho : ∃ o, (b.system.server.objects i).taskStep (.checkWrite i) = some o := by
            simp [Interactor.taskStep, ht, hk, hq]
          have hd : ∃ down, Streams.actOn (b.downstream i)
              (interactorWrites (b.system.server.objects i) (.checkWrite i)) = some down := by
            simp [interactorWrites, hk, hq, Streams.actOn, Channel.step, hidle]
          exact absurd hdisabled (enabled_task rfl ho.choose_spec rfl hd.choose_spec)
      | _ =>
        have ho : ∃ o, (b.system.server.objects i).taskStep (.checkWrite i) = some o := by
          simp [Interactor.taskStep, ht, hk]
        have hd : ∃ down, Streams.actOn (b.downstream i)
            (interactorWrites (b.system.server.objects i) (.checkWrite i)) = some down := by
          simp [interactorWrites, hk, Streams.actOn]
        exact absurd hdisabled (enabled_task rfl ho.choose_spec rfl hd.choose_spec)

private theorem clientWaits_of_atRest (hr : Runs settings h b)
    (hrest : AtRest (step settings) Internal b) {i : Guid} (hi : i ∈ b.clients) :
    ClientWaits (b.client i) (b.downstream i) := by
  constructor
  · intro ht
    rw [Option.eq_none_iff_forall_ne_some]
    rintro ⟨m, rest⟩ hn
    obtain ⟨down, hd⟩ := actOn_receive hn
    have hc : ∃ c, (b.client i).step (.receive m) = some c := by
      simp only [Client.step, if_pos ht]
      cases Client.onMessage m <;> exact ⟨_, rfl⟩
    exact absurd (hrest (.client i (.receive m)) rfl)
      (enabled_client hi hc.choose_spec rfl hd)
  · intro ht
    have hidle : (b.upstream i).pending = [] := (Runs.written hr i).2.idle (.inr ht)
    cases hq : (b.client i).writeQueue with
    | nil => rfl
    | cons m ms =>
      have hc : ∃ c, (b.client i).step .checkWrite = some c := by
        cases hk : (b.client i).isCancelled <;> simp [Client.step, ht, hk, hq]
      have hu : ∃ up, Streams.actOn (b.upstream i) (clientWrites (b.client i) .checkWrite) =
          some up := by
        cases hk : (b.client i).isCancelled <;>
          simp [clientWrites, hk, hq, Streams.actOn, Channel.step, hidle]
      exact absurd (hrest (.client i .checkWrite) rfl)
        (enabled_client hi hc.choose_spec hu.choose_spec rfl)

/-! ### An idle bus -/

/-- Nothing is on its way on a connection, and each of its tasks waits for something. -/
structure Idle (b : Bus) (i : Guid) : Prop where
  read : (b.system.server.objects i).readTask = .reading
  upstream : (b.upstream i).next Message.codec = none
  write : (b.system.server.objects i).writeTask = .checking
  token : (b.system.server.objects i).tokenSource = .live
  writeQueue : (b.system.server.objects i).writeQueue = []
  clientRead : (b.client i).readTask = .running
  downstream : (b.downstream i).next Message.codec = none
  clientWrite : (b.client i).writeTask = .checking
  isCancelled : (b.client i).isCancelled = false
  clientQueue : (b.client i).writeQueue = []

/-- Whether a connection is idle can be computed. -/
instance (b : Bus) (i : Guid) : Decidable (b.Idle i) :=
  decidable_of_iff
    ((b.system.server.objects i).readTask = .reading ∧
      (b.upstream i).next Message.codec = none ∧
      (b.system.server.objects i).writeTask = .checking ∧
      (b.system.server.objects i).tokenSource = .live ∧
      (b.system.server.objects i).writeQueue = [] ∧
      (b.client i).readTask = .running ∧
      (b.downstream i).next Message.codec = none ∧
      (b.client i).writeTask = .checking ∧
      (b.client i).isCancelled = false ∧ (b.client i).writeQueue = [])
    ⟨fun ⟨h1, h2, h3, h4, h5, h6, h7, h8, h9, h10⟩ => ⟨h1, h2, h3, h4, h5, h6, h7, h8, h9, h10⟩,
      fun ⟨h1, h2, h3, h4, h5, h6, h7, h8, h9, h10⟩ => ⟨h1, h2, h3, h4, h5, h6, h7, h8, h9, h10⟩⟩

private theorem not_receive {stream stream' : Stream} {m : Message}
    (hn : stream.next Message.codec = none) :
    stream.step Message.codec (.receive m) ≠ some stream' := by
  simp [Channel.step, hn]

/-- Each task of a connection has ended, or waits with nothing to do. -/
structure Waits (b : Bus) (i : Guid) : Prop where
  read : (b.system.server.objects i).readTask = .completed ∨
    (b.system.server.objects i).readTask = .reading ∧ (b.upstream i).next Message.codec = none
  write : (b.system.server.objects i).writeTask = .completed ∨
    (b.system.server.objects i).writeTask = .checking ∧
      (b.system.server.objects i).tokenSource = .live ∧
      (b.system.server.objects i).writeQueue = []
  clientRead : (b.client i).readTask = .completed ∨
    (b.client i).readTask = .running ∧ (b.downstream i).next Message.codec = none
  clientWrite : (b.client i).writeTask = .completed ∨
    (b.client i).writeTask = .checking ∧ (b.client i).isCancelled = false ∧
      (b.client i).writeQueue = []

/-- Whether a connection waits can be computed. -/
instance (b : Bus) (i : Guid) : Decidable (b.Waits i) :=
  decidable_of_iff
    (((b.system.server.objects i).readTask = .completed ∨
        (b.system.server.objects i).readTask = .reading ∧
          (b.upstream i).next Message.codec = none) ∧
      ((b.system.server.objects i).writeTask = .completed ∨
        (b.system.server.objects i).writeTask = .checking ∧
          (b.system.server.objects i).tokenSource = .live ∧
          (b.system.server.objects i).writeQueue = []) ∧
      ((b.client i).readTask = .completed ∨
        (b.client i).readTask = .running ∧ (b.downstream i).next Message.codec = none) ∧
      ((b.client i).writeTask = .completed ∨
        (b.client i).writeTask = .checking ∧ (b.client i).isCancelled = false ∧
          (b.client i).writeQueue = []))
    ⟨fun ⟨h1, h2, h3, h4⟩ => ⟨h1, h2, h3, h4⟩, fun ⟨h1, h2, h3, h4⟩ => ⟨h1, h2, h3, h4⟩⟩

/-- A connection that is idle waits. -/
theorem Idle.waits {i : Guid} (h : b.Idle i) : b.Waits i :=
  ⟨.inr ⟨h.read, h.upstream⟩, .inr ⟨h.write, h.token, h.writeQueue⟩,
    .inr ⟨h.clientRead, h.downstream⟩, .inr ⟨h.clientWrite, h.isCancelled, h.clientQueue⟩⟩

/-- A bus whose connections all wait or have ended is at rest. -/
theorem atRest_of_waits (hr : Runs settings h b) (hq : b.system.eventQueue = [])
    (hi : ∀ i ∈ b.clients, b.Waits i) : AtRest (step settings) Internal b := by
  intro a ha
  rw [Option.eq_none_iff_forall_ne_some]
  intro b' hs
  have hs := step_eq_some_iff.mp hs
  cases a with
  | connect i => cases ha
  | clientPut i count =>
    have hrunning : (b.client i).writeTask = .running := hs.admits
    rcases (hi i (Runs.mem_clients hr hs rfl)).clientWrite with hw | ⟨hw, -⟩
    · cases hw.symm.trans hrunning
    · cases hw.symm.trans hrunning
  | distributorPut i count =>
    have hwriting : (b.system.server.objects i).writeTask = .writing := hs.admits
    rcases (hi i (Runs.mem_clients hr hs rfl)).write with hw | ⟨hw, -⟩
    · cases hw.symm.trans hwriting
    · cases hw.symm.trans hwriting
  | client i action =>
    have hwaits := hi i (Runs.mem_clients hr hs rfl)
    obtain ⟨hc, -, hd, -⟩ := hs.client_at
    cases action with
    | checkWrite =>
      rcases hwaits.clientWrite with hw | ⟨hw, hopen, hempty⟩
      · simp [Client.step, hw] at hc
      · simp [Client.step, hw, hopen, hempty] at hc
    | wrote => rcases hwaits.clientWrite with hw | ⟨hw, -⟩ <;> simp [Client.step, hw] at hc
    | checkRead => rcases hwaits.clientRead with hw | ⟨hw, -⟩ <;> simp [Client.step, hw] at hc
    | receive m =>
      rcases hwaits.clientRead with hw | ⟨-, hnext⟩
      · simp [Client.step, hw] at hc
      · exact not_receive hnext hd
    | _ => cases ha
  | distributor action =>
    cases ht : action.task with
    | some i =>
      have hwaits := hi i (Runs.mem_clients hr hs ht)
      obtain ⟨ho, hu, -, -, -⟩ := hs.distributor_at ht
      cases action with
      | checkRead j =>
        rcases hwaits.read with hw | ⟨hw, -⟩ <;> simp [Interactor.taskStep, hw] at ho
      | receive j m =>
        rcases hwaits.read with hw | ⟨-, hnext⟩
        · simp [Interactor.taskStep, hw] at ho
        · exact not_receive hnext hu
      | endRead j =>
        rcases hwaits.read with hw | ⟨hw, -⟩ <;> simp [Interactor.taskStep, hw] at ho
      | checkWrite j =>
        rcases hwaits.write with hw | ⟨hw, hlive, hempty⟩
        · simp [Interactor.taskStep, hw] at ho
        · simp [Interactor.taskStep, hw, hlive, hempty] at ho
      | wrote j =>
        rcases hwaits.write with hw | ⟨hw, -⟩ <;> simp [Interactor.taskStep, hw] at ho
      | endWrite j =>
        rcases hwaits.write with hw | ⟨hw, -⟩ <;> simp [Interactor.taskStep, hw] at ho
      | process => cases ht
      | _ => cases ha
    | none =>
      cases action with
      | process =>
        have hp := hs.system
        rw [onSystem, System.step, hq] at hp
        cases hp
      | accept j => cases ha
      | heartbeat => cases ha
      | _ => cases ht

/-- A bus whose connections are all idle is at rest. -/
theorem atRest_of_idle (hr : Runs settings h b) (hq : b.system.eventQueue = [])
    (hi : ∀ i ∈ b.clients, b.Idle i) : AtRest (step settings) Internal b :=
  atRest_of_waits hr hq fun i h => (hi i h).waits

/-! ### The bus at rest -/

/-- The requests of an interactor that the event loop has handled. -/
def handledFrom (i : Guid) (h : History Bus Action) : List Message :=
  (System.handledEvents (distributed h)).filterMap (System.messageFrom i)

/-- Both ways of a connection are done: the requests have been handled if the client still
writes, and the events raised if it still reads. -/
structure Settled (h : History Bus Action) (b : Bus) (i : Guid) : Prop where
  live : (b.system.server.objects i).tokenSource = .live
  handled : (b.client i).writeTask = .checking → (∀ m ∈ requested i h, m.Fits) →
    handledFrom i h = (requested i h).map Message.received
  raised : (b.client i).readTask = .running →
    (∀ m ∈ (b.system.server.objects i).queued, m.sent.Fits) →
    (b.system.server.objects i).queued.map (fun m => Client.onMessage m.sent.received) =
      (b.client i).answers.map .ok

/-- An interactor that is not reported waits for its client, with nothing on its streams. -/
theorem settled_of_unreported (hr : Runs settings h b)
    (hrest : AtRest (step settings) Internal b) (hq : b.system.eventQueue = []) {i : Guid}
    (hi : i ∈ b.system.accepted)
    (hd : (b.system.server.objects i).tokenSource ≠ .disposed) : Settled h b i := by
  have hsys := Runs.system hr
  have hl := System.Runs.lifecycle settings hsys
  have htasks := tasksWait_of_atRest hr hrest i
  have hclient := clientWaits_of_atRest hr hrest ((Runs.connected hr).accepted i hi)
  obtain ⟨hup, hdown⟩ := Runs.written hr i
  have hstarted : (b.system.server.objects i).readTask ≠ .unstarted := by
    intro hu
    have hc := System.Runs.awaits settings hsys i hi hu
    rw [hq] at hc
    cases hc
  have hgoes : ¬ (b.system.server.objects i).HasEnded := by
    intro he
    rcases (System.Runs.sound settings hsys i).reported he with hx | ⟨e, he, -⟩
    · exact hd hx
    · rw [hq] at he
      cases he
  obtain ⟨hread, hnext⟩ := htasks.read.resolve_left hstarted |>.resolve_left fun hc =>
    hgoes (.inl (.inr hc))
  obtain ⟨hwrite, hlive, hempty⟩ := htasks.write.resolve_left
    (fun hu => hstarted ((hl.unstarted i).mpr hu)) |>.resolve_left fun hc =>
      hgoes (.inr (.inr hc))
  have hbeat : i ≠ settings.heartbeat := fun hb => hl.heartbeat (hb ▸ hi)
  refine ⟨hlive, ?_, ?_⟩
  · intro hc hf
    have hposted : handledFrom i h = receivedFrom settings i h := by
      have hp := System.Runs.posted_eq settings hsys
      rw [hq, List.append_nil] at hp
      rw [handledFrom, receivedFrom, hp]
    have htaken : (b.upstream i).sent = requested i h := by
      rw [hdown.sent, ← Runs.requested hr i, Client.queued, hclient.write hc, List.append_nil]
    rw [hposted, ← Runs.receivedFrom hr hbeat, ← htaken]
    rw [← htaken] at hf
    exact ((Runs.reachable hr i).1.received_of_rest hf (hdown.idle (.inr hc)) hnext).1
  · intro hc hf
    have htaken : (b.downstream i).sent = (b.system.server.objects i).queued.map .sent := by
      rw [hup.sent, Interactor.queued, hempty, List.append_nil]
    have hf' : ∀ m ∈ (b.downstream i).sent, Message.codec.Fits m := by
      rw [htaken]
      intro m hm
      obtain ⟨x, hx, rfl⟩ := List.mem_map.mp hm
      exact hf x hx
    have hall := ((Runs.reachable hr i).2.received_of_rest hf' (hup.idle (.inr hwrite))
      (hclient.read hc)).1
    rw [← (Runs.raised hr i hf).2, hall, htaken, List.map_map, List.map_map]
    rfl

/-- At rest the event loop has no event to handle, or it waits for a read task. -/
theorem stalled_of_queued (hr : Runs settings h b) (hrest : AtRest (step settings) Internal b)
    (hrun : b.system.isRunning = true) (hne : b.system.eventQueue ≠ []) :
    ∃ i, b.system.Stalled i := by
  obtain ⟨e, es, hq⟩ := List.exists_cons_of_ne_nil hne
  have hc : ¬ b.system.CanProcess e := fun hc =>
    enabled_process hq hrun hc (hrest (.distributor .process) rfl)
  simp only [System.CanProcess, not_forall] at hc
  obtain ⟨i, hd, hc⟩ := hc
  have hsys := Runs.system hr
  have hl := System.Runs.lifecycle settings hsys
  have hsound := System.Runs.sound settings hsys i
  have htasks := tasksWait_of_atRest hr hrest i
  refine ⟨i, by rw [hq, List.head?_cons, Option.bind_some, hd], ?_⟩
  rcases htasks.read with hr | hr | hr
  · exact absurd ⟨.inl hr, .inl ((hl.unstarted i).mp hr)⟩ hc
  · -- The read task has cancelled the token, and so the write task has ended too.
    have hlive : (b.system.server.objects i).tokenSource ≠ .live := fun hk =>
      (hsound.live hk).1 hr
    rcases htasks.write with hw | hw | ⟨-, hk, -⟩
    · exact absurd ⟨.inr hr, .inl hw⟩ hc
    · exact absurd ⟨.inr hr, .inr hw⟩ hc
    · exact absurd hk hlive
  · exact hr.1

/-- In a state at rest the event loop has stopped, or it waits to dispose an interactor that
waits for its client, or all events are handled and each connection is closed or done. -/
theorem settled_of_atRest (hr : Runs settings h b)
    (hrest : AtRest (step settings) Internal b) (hrun : b.system.isRunning = true) :
    (∃ i, b.system.Stalled i) ∨
      b.system.eventQueue = [] ∧ ∀ i ∈ b.system.accepted,
        (b.system.server.objects i).tokenSource = .disposed ∨ Settled h b i := by
  by_cases hq : b.system.eventQueue = []
  · refine .inr ⟨hq, fun i hi => ?_⟩
    by_cases hd : (b.system.server.objects i).tokenSource = .disposed
    · exact .inl hd
    · exact .inr (settled_of_unreported hr hrest hq hi hd)
  · exact .inl (stalled_of_queued hr hrest hrun hq)

/-- Where the event loop runs and is not stalled, all events are handled at rest. -/
theorem handled_of_running (hr : Runs settings h b) (hrest : AtRest (step settings) Internal b)
    (hrun : b.system.isRunning = true) (hs : ∀ i, ¬ b.system.Stalled i) :
    b.system.eventQueue = [] := by
  by_contra hne
  obtain ⟨i, hi⟩ := stalled_of_queued hr hrest hrun hne
  exact hs i hi

/-- What is not closed is then settled. -/
theorem settled_of_running (hr : Runs settings h b)
    (hrest : AtRest (step settings) Internal b) (hrun : b.system.isRunning = true)
    (hs : ∀ i, ¬ b.system.Stalled i) {c : Guid} (hc : c ∈ b.system.accepted)
    (hl : (b.system.server.objects c).tokenSource ≠ .disposed) : Settled h b c :=
  settled_of_unreported hr hrest (handled_of_running hr hrest hrun hs) hc hl

end rest

/-- A bus that has carried a publication is at rest, and is done. -/
theorem settled_of_atRest_of_publication :
    ∃ h b, Runs (.permissive false) h b ∧ AtRest (step (.permissive false)) Internal b ∧
      b.system.accepted = [⟨2⟩, ⟨1⟩] ∧
      ((∃ i, b.system.Stalled i) ∨
        b.system.eventQueue = [] ∧ ∀ i ∈ b.system.accepted,
          (b.system.server.objects i).tokenSource = .disposed ∨ Settled h b i) := by
  obtain ⟨h, b, hr, hobs⟩ := exists_run_of_exec (step (.permissive false)) init onePublication
    (fun x => (x.2.system.isRunning, decide (x.2.system.eventQueue = []),
      decide (∀ i ∈ x.2.clients, x.2.Idle i), x.2.system.accepted))
    (true, true, true, [⟨2⟩, ⟨1⟩]) (by decide +kernel)
  simp only [Prod.mk.injEq, decide_eq_true_eq] at hobs
  obtain ⟨hrun, hq, hi, ha⟩ := hobs
  have hrest := atRest_of_idle hr hq hi
  exact ⟨h, b, hr, hrest, ha, settled_of_atRest hr hrest hrun⟩

end Bus

end MessageBus

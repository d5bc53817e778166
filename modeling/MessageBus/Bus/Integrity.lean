import MessageBus.Bus.Connections
import MessageBus.Distributor.Sends

/-!
# Integrity of the connections

A connection carries the messages of one side to the other in order and once each. What the
application asked its client to send is what the distributor puts on the event queue, and
what is queued to an interactor is what its client raises events for, up to some message;
only a stream that is closed inside a message can turn it into another.
-/

namespace MessageBus
open Base Common Messages Adapters Distributor

/-! ### The two halves of the protocol -/

namespace Messages.Message

/-- The classes that a client sends, and `OnMessage` handles. -/
def isRequest {ς : Type} : Message ς → Bool
  | multicastData _ => true
  | unicastData _ => true
  | notificationRequest _ => true
  | subscriptionRequest _ => true
  | authorizationResponse _ => true
  | _ => false

/-- The classes that the distributor sends, and `Client.Read` raises an event for. -/
def isForwarded {ς : Type} (m : Message ς) : Bool := !m.isRequest

private theorem isRequest_received (m : Message (Option String)) :
    m.received.isRequest = m.isRequest := by
  cases m <;> rfl

private theorem isRequest_sent (m : Message) : m.sent.isRequest = m.isRequest := by
  cases m <;> rfl

private theorem isRequest_of_guess {m : Message (Option String)} {m' : Message}
    (h : m.guess = some m') : m'.isRequest = m.isRequest := by
  obtain ⟨-, ⟨⟩⟩ := Option.ite_none_right_eq_some.mp h
  cases m <;> rfl

/-- A guess is a request with a flag. -/
theorem request_of_guess {m : Message (Option String)} {m' : Message} (h : m.guess = some m') :
    (∃ r, m' = .subscriptionRequest r) ∨ (∃ r, m' = .notificationRequest r) ∨
      ∃ r, m' = .forwardedSubscriptionRequest r := by
  obtain ⟨hb, ⟨⟩⟩ := Option.ite_none_right_eq_some.mp h
  cases m with
  | subscriptionRequest m => exact .inl ⟨_, rfl⟩
  | notificationRequest m => exact .inr (.inl ⟨_, rfl⟩)
  | forwardedSubscriptionRequest m => exact .inr (.inr ⟨_, rfl⟩)
  | _ => cases hb

private theorem onMessage_of_isForwarded {m : Message} (h : m.isForwarded = true) :
    ∃ e, Client.onMessage m = .ok e := by
  cases m with
  | authorizationRequest m => exact ⟨_, rfl⟩
  | forwardedMulticastData m => exact ⟨_, rfl⟩
  | forwardedUnicastData m => exact ⟨_, rfl⟩
  | forwardedSubscriptionRequest m => exact ⟨_, rfl⟩
  | _ => cases h

end Messages.Message

/-- A call sends a request. -/
theorem Adapters.Client.isRequest_of_message {a : Client.Action} {m : Message (Option String)}
    (h : a.message = some m) : m.isRequest = true := by
  cases a with
  | call call =>
    cases call <;>
      (obtain ⟨-, ⟨⟩⟩ := Option.ite_none_right_eq_some.mp h; rfl)
  | _ => cases h

/-- What the distributor queues is for a client to read. -/
theorem Distributor.System.Runs.isForwarded {settings : Settings} {c : Guid}
    {h : History System Distributor.Action} {s : System} (hr : System.Runs settings h s) :
    ∀ m ∈ (s.server.objects c).queued, m.isForwarded = true := by
  induction hr with
  | start => simp [System.init, Interactor.queued]
  | next hr ha ih =>
    intro m hm
    rw [System.queued_step settings ha, List.mem_append] at hm
    rcases hm with hm | hm
    · exact ih m hm
    · obtain ⟨e, -, -, -, hs⟩ := (System.mem_delivered settings).mp hm
      rcases Server.mem_sends_made settings hs with
        (⟨_, _, _, rfl⟩ | ⟨_, _, rfl⟩ | ⟨_, _, rfl⟩) | ⟨_, _, _, _, _, _, rfl⟩ |
          ⟨_, _, _, _, _, _, _, rfl⟩ <;> rfl

namespace Bus

variable {settings : Settings}

/-! ### One connection -/

/-- What a task of an interactor does to a stream, it does to that of the interactor. -/
theorem distributorWrites_of_task {s : System} {a : Distributor.Action} {i : Guid}
    (ha : a.task = some i) :
    distributorWrites s a = (interactorWrites (s.server.objects i) a).map (i, ·) := by
  cases a with
  | process => cases ha
  | _ => simp [distributorWrites, ha]

/-- What a step does to the stream to a client and to the interactor that writes it. -/
theorem Stepped.downstream_cases {b b' : Bus} {a : Action} (h : Stepped settings b a b')
    (hl : System.Lifecycle settings b.system) (i : Guid) :
    let o := b.system.server.objects i
    let o' := b'.system.server.objects i
    let stream := b.downstream i
    let stream' := b'.downstream i
    (∃ action, a = .distributor action ∧ o.taskStep action = some o' ∧
        Streams.actOn stream (interactorWrites o action) = some stream') ∨
      (System.SameTasks o.dispose o' ∧ stream.step Message.codec .close = some stream') ∨
      (System.SameTasks { o with readTask := .checking, writeTask := .checking } o' ∧
        o.writeTask = .unstarted ∧ stream' = stream) ∨
      System.SameTasks o o' ∧ (stream' = stream ∨
        (∃ m, a = .client i (.receive m) ∧
          stream.step Message.codec (.receive m) = some stream') ∨
        ∃ count, o.writeTask = .writing ∧
          stream.step Message.codec (.put count) = some stream') := by
  intro o o' stream stream'
  have hstream := Streams.act_apply h.downstream i
  rcases h.system_cases with ⟨hne, he⟩ | ⟨action, rfl, hs⟩
  · have hsame : System.SameTasks o o' := by
      have ho : o' = o := congrArg (fun s : System => s.server.objects i) he
      rw [ho]
      exact .refl _
    refine .inr (.inr (.inr ⟨hsame, ?_⟩))
    rcases hstream with ⟨-, hs⟩ | ⟨x, hx, hs⟩
    · exact .inl hs
    · cases a with
      | distributor action => exact absurd rfl (hne action)
      | connect j => cases hx
      | clientPut j count => cases hx
      | distributorPut j count =>
        cases hx
        exact .inr (.inr ⟨count, h.admits, hs⟩)
      | client j action =>
        obtain ⟨x', hx', he'⟩ := Option.map_eq_some_iff.mp hx
        cases he'
        cases action with
        | receive m =>
          cases hx'
          exact .inr (.inl ⟨m, rfl, hs⟩)
        | _ => cases hx'
  · rcases System.object_step settings hs hl i with
      ⟨ht, ho⟩ | ⟨e, hh, hd, -, ho⟩ | ⟨hh, ho⟩ | ⟨ht, hh, ho⟩
    · refine .inl ⟨action, rfl, ho, Streams.actOn_of_act ?_⟩
      rw [← distributorWrites_of_task ht]
      exact h.downstream
    · cases action with
      | process =>
        have hclose : b.onDownstream (.distributor .process) = some (i, .close) := by
          simp only [System.handled] at hh
          simp [onDownstream, distributorWrites, hh, hd]
        rw [hclose] at hstream
        rcases hstream with ⟨hne, -⟩ | ⟨x, hx, hs⟩
        · exact absurd rfl (hne .close)
        · cases hx
          exact .inr (.inl ⟨ho, hs⟩)
      | _ => cases hh
    · cases action with
      | process =>
        have hq := hl.connecting i (List.mem_of_head? hh)
        refine .inr (.inr (.inl ⟨ho, (hl.unstarted i).mp hq.2, Streams.act_of_ne h.downstream ?_⟩))
        simp only [System.handled] at hh
        simp [onDownstream, distributorWrites, hh, Event.disposes]
      | _ => cases hh
    · refine .inr (.inr (.inr ⟨ho, .inl (Streams.act_of_ne h.downstream ?_)⟩))
      intro x hx
      cases ht' : action.task with
      | some j =>
        rw [onDownstream, distributorWrites_of_task ht'] at hx
        obtain ⟨x', -, he⟩ := Option.map_eq_some_iff.mp hx
        cases he
        exact ht ht'
      | none =>
        cases action with
        | process =>
          obtain ⟨j, hj, he⟩ := Option.map_eq_some_iff.mp hx
          cases he
          obtain ⟨e, he, hd⟩ := Option.bind_eq_some_iff.mp hj
          exact (hh e he).1 hd
        | accept j => cases hx
        | heartbeat => cases hx
        | _ => cases ht'

/-- What a step does to the stream from a client and to the client that writes it. -/
theorem Stepped.upstream_cases {b b' : Bus} {a : Action} (h : Stepped settings b a b')
    (i : Guid) :
    let c := b.client i
    let c' := b'.client i
    let stream := b.upstream i
    let stream' := b'.upstream i
    (∃ action, a = .client i action ∧ c.step action = some c' ∧
        Streams.actOn stream (clientWrites c action) = some stream') ∨
      (∀ action, a ≠ .client i action) ∧ c' = c ∧ (stream' = stream ∨
        (∃ m, a = .distributor (.receive i m) ∧
          stream.step Message.codec (.receive m) = some stream') ∨
        ∃ count, c.writeTask = .running ∧
          stream.step Message.codec (.put count) = some stream') := by
  intro c c' stream stream'
  have hstream := Streams.act_apply h.upstream i
  rcases h.client_cases i with ⟨hne, he⟩ | ⟨action, rfl, hs⟩
  · refine .inr ⟨hne, he, ?_⟩
    rcases hstream with ⟨-, hs⟩ | ⟨x, hx, hs⟩
    · exact .inl hs
    · cases a with
      | client j action =>
        obtain ⟨x', -, he'⟩ := Option.map_eq_some_iff.mp hx
        cases he'
        exact absurd rfl (hne action)
      | connect j => cases hx
      | distributorPut j count => cases hx
      | clientPut j count =>
        cases hx
        exact .inr (.inr ⟨count, h.admits, hs⟩)
      | distributor action =>
        cases action with
        | receive j m =>
          cases hx
          exact .inr (.inl ⟨m, rfl, hs⟩)
        | _ => cases hx
  · exact .inl ⟨action, rfl, hs, Streams.actOn_of_act h.upstream⟩

/-! ### Both ends of a stream -/

/-- A stream and the task that writes it: the messages begun are those taken, none is half
written where the task is idle, and the stream is closed when the task is at its end. -/
structure Written (stream : Stream) (taken : List (Message (Option String)))
    (isIdle isEnded : Prop) : Prop where
  sent : stream.sent = taken
  idle : isIdle → stream.pending = []
  closed : stream.isClosed = true → isEnded

section written

variable {stream stream' : Stream} {taken : List (Message (Option String))}
  {isIdle isEnded : Prop}

private theorem Written.imp (hw : Written stream taken isIdle isEnded)
    {taken' : List (Message (Option String))} {isIdle' isEnded' : Prop} (ht : taken' = taken)
    (hi : isIdle' → isIdle) (he : isEnded → isEnded') :
    Written stream taken' isIdle' isEnded' :=
  ⟨hw.sent.trans ht.symm, fun h => hw.idle (hi h), fun h => he (hw.closed h)⟩

private theorem Written.start (hw : Written stream taken isIdle isEnded)
    {m : Message (Option String)} (h : stream.step Message.codec (.start m) = some stream') :
    Written stream' (taken ++ [m]) False isEnded := by
  obtain ⟨-, rfl⟩ := Channel.start_eq_some h
  exact ⟨congrArg (· ++ [m]) hw.sent, False.elim, hw.closed⟩

private theorem Written.put (hw : Written stream taken isIdle isEnded) {count : Nat}
    (h : stream.step Message.codec (.put count) = some stream') :
    Written stream' taken False isEnded := by
  obtain ⟨-, -, -, rfl⟩ := Channel.put_eq_some h
  exact ⟨hw.sent, False.elim, hw.closed⟩

private theorem Written.finish (hw : Written stream taken isIdle isEnded)
    (h : stream.step Message.codec .finish = some stream') :
    Written stream' taken True isEnded := by
  obtain ⟨hp, rfl⟩ := Channel.finish_eq_some h
  exact ⟨hw.sent, fun _ => hp, hw.closed⟩

private theorem Written.close (hw : Written stream taken isIdle isEnded)
    (h : stream.step Message.codec .close = some stream') :
    Written stream' taken isIdle True := by
  cases h
  exact ⟨hw.sent, hw.idle, fun _ => trivial⟩

private theorem Written.receive (hw : Written stream taken isIdle isEnded) {m : Message}
    (h : stream.step Message.codec (.receive m) = some stream') :
    Written stream' taken isIdle isEnded := by
  obtain ⟨rest, -, rfl⟩ := Channel.receive_eq_some h
  exact ⟨hw.sent, hw.idle, hw.closed⟩

end written

/-- The write task of an interactor is not in `Message.Write`. -/
def WriteIdle (o : Interactor) : Prop := o.writeTask = .unstarted ∨ o.writeTask = .checking

/-- `Write` is not in `Message.Write`. -/
def ClientIdle (c : Client) : Prop := c.writeTask = .unstarted ∨ c.writeTask = .checking

/-- A stream to a client, as the interactor writes it. -/
def WrittenBy (stream : Stream) (o : Interactor) : Prop :=
  Written stream (o.taken.map Message.sent) (WriteIdle o) (o.tokenSource = .disposed)

/-- A stream from a client, as the client writes it. -/
def WrittenByClient (stream : Stream) (c : Client) : Prop :=
  Written stream c.taken (ClientIdle c) (c.isCancelled = true)

private theorem writtenBy_taskStep {stream stream' : Stream} {o o' : Interactor}
    {a : Distributor.Action} (hw : WrittenBy stream o) (ho : o.taskStep a = some o')
    (hs : Streams.actOn stream (interactorWrites o a) = some stream') :
    WrittenBy stream' o' := by
  cases a with
  | accept i => cases ho
  | heartbeat => cases ho
  | process => cases ho
  | checkWrite i =>
    obtain ⟨ht, ho⟩ := Option.ite_none_right_eq_some.mp ho
    simp only [interactorWrites] at hs
    cases hk : o.tokenSource with
    | live =>
      cases hq : o.writeQueue with
      | nil => simp [hk, hq] at ho
      | cons m ms =>
        simp only [hk, hq, Option.some.injEq] at ho hs
        subst ho
        exact (Written.start hw hs).imp (by simp) (by simp [WriteIdle]) (by simp [hk])
    | _ =>
      simp only [hk, Option.some.injEq] at ho hs
      subst ho
      cases hs
      exact hw.imp rfl (by simp [WriteIdle]) (by simp [hk])
  | wrote i =>
    obtain ⟨ht, ⟨⟩⟩ := Option.ite_none_right_eq_some.mp ho
    exact (Written.finish hw hs).imp rfl (fun _ => trivial) id
  | endRead i =>
    obtain ⟨ht, ⟨⟩⟩ := Option.ite_none_right_eq_some.mp ho
    cases hs
    exact hw.imp rfl id fun hd => by simp [hd, TokenSource.cancel]
  | endWrite i =>
    obtain ⟨ht, ⟨⟩⟩ := Option.ite_none_right_eq_some.mp ho
    cases hs
    exact hw.imp rfl (by simp [WriteIdle]) fun hd => by simp [hd, TokenSource.cancel]
  | writeError i e =>
    obtain ⟨ht, ⟨⟩⟩ := Option.ite_none_right_eq_some.mp ho
    cases hs
    exact hw.imp rfl (by simp [WriteIdle]) id
  | _ =>
    obtain ⟨ht, ⟨⟩⟩ := Option.ite_none_right_eq_some.mp ho
    cases hs
    exact hw.imp rfl id id

private theorem writtenBy_step {b b' : Bus} {a : Action} (h : Stepped settings b a b')
    (hl : System.Lifecycle settings b.system) {i : Guid}
    (hw : WrittenBy (b.downstream i) (b.system.server.objects i)) :
    WrittenBy (b'.downstream i) (b'.system.server.objects i) := by
  rcases h.downstream_cases hl i with
    ⟨action, -, ho, hs⟩ | ⟨ho, hs⟩ | ⟨ho, hu, hs⟩ | ⟨ho, hs⟩
  · exact writtenBy_taskStep hw ho hs
  · have hidle : ¬ WriteIdle (b'.system.server.objects i) := by
      simp [WriteIdle, ho.writeTask, Interactor.dispose]
    exact (Written.close hw hs).imp (congrArg _ ho.taken) hidle.elim fun _ => ho.tokenSource
  · rw [hs]
    exact hw.imp (congrArg _ ho.taken) (fun _ => .inl hu) fun hd => ho.tokenSource.trans hd
  · have hidle : WriteIdle (b'.system.server.objects i) →
        WriteIdle (b.system.server.objects i) := by
      rw [WriteIdle, ho.writeTask]
      exact id
    have htaken := congrArg (List.map Message.sent) ho.taken
    have htoken (hd : (b.system.server.objects i).tokenSource = .disposed) :=
      ho.tokenSource.trans hd
    rcases hs with hs | ⟨m, -, hs⟩ | ⟨count, hwriting, hs⟩
    · rw [hs]
      exact hw.imp htaken hidle htoken
    · exact (Written.receive hw hs).imp htaken hidle htoken
    · refine (Written.put hw hs).imp htaken (fun hi => ?_) htoken
      have hidle' := hidle hi
      simp [WriteIdle, hwriting] at hidle'

private theorem writtenByClient_clientStep {stream stream' : Stream} {c c' : Client}
    {a : Client.Action} (hw : WrittenByClient stream c) (hc : c.step a = some c')
    (hs : Streams.actOn stream (clientWrites c a) = some stream') :
    WrittenByClient stream' c' := by
  cases a with
  | call call =>
    rw [Client.step_call] at hc
    cases hc
    cases hs
    exact hw
  | dispose =>
    cases hc
    exact (Written.close hw hs).imp rfl id fun _ => rfl
  | receive m =>
    obtain ⟨-, hc⟩ := Option.ite_none_right_eq_some.mp hc
    cases hs
    split at hc
    · cases hc
      exact hw
    · cases hc
      exact hw
  | checkWrite =>
    obtain ⟨ht, hc⟩ := Option.ite_none_right_eq_some.mp hc
    simp only [clientWrites] at hs
    cases hk : c.isCancelled with
    | false =>
      cases hq : c.writeQueue with
      | nil => simp [hk, hq] at hc
      | cons m ms =>
        simp only [hk, hq, Option.some.injEq] at hc hs
        subst hc
        exact (Written.start hw hs).imp rfl (by simp [ClientIdle]) (by simp [hk])
    | true =>
      simp only [hk, Option.some.injEq] at hc hs
      subst hc
      cases hs
      exact hw.imp rfl (by simp [ClientIdle]) fun _ => rfl
  | wrote =>
    obtain ⟨ht, ⟨⟩⟩ := Option.ite_none_right_eq_some.mp hc
    exact (Written.finish hw hs).imp rfl (fun _ => trivial) id
  | writeError e =>
    obtain ⟨ht, ⟨⟩⟩ := Option.ite_none_right_eq_some.mp hc
    cases hs
    exact hw.imp rfl (by simp [ClientIdle]) id
  | start =>
    obtain ⟨ht, ⟨⟩⟩ := Option.ite_none_right_eq_some.mp hc
    cases hs
    exact hw.imp rfl (fun _ => .inl ht.2) id
  | _ =>
    obtain ⟨ht, ⟨⟩⟩ := Option.ite_none_right_eq_some.mp hc
    cases hs
    exact hw.imp rfl id id

private theorem writtenByClient_step {b b' : Bus} {a : Action} (h : Stepped settings b a b')
    {i : Guid} (hw : WrittenByClient (b.upstream i) (b.client i)) :
    WrittenByClient (b'.upstream i) (b'.client i) := by
  rcases h.upstream_cases i with ⟨action, -, hc, hs⟩ | ⟨-, hc, hs⟩
  · exact writtenByClient_clientStep hw hc hs
  · rw [hc]
    rcases hs with hs | ⟨m, -, hs⟩ | ⟨count, hrunning, hs⟩
    · exact hs ▸ hw
    · exact Written.receive hw hs
    · refine (Written.put hw hs).imp rfl (fun hi => ?_) id
      simp [ClientIdle, hrunning] at hi

/-- In every run the streams are as the tasks at their ends write them. -/
theorem Runs.written {h : History Bus Action} {b : Bus} (hr : Runs settings h b) (i : Guid) :
    WrittenBy (b.downstream i) (b.system.server.objects i) ∧
      WrittenByClient (b.upstream i) (b.client i) := by
  induction hr with
  | start =>
    exact ⟨⟨rfl, fun _ => rfl, by simp [init]⟩, ⟨rfl, fun _ => rfl, by simp [init]⟩⟩
  | next hr ha ih =>
    have hs := step_eq_some_iff.mp ha
    have hl := System.Runs.lifecycle settings (Runs.system hr)
    exact ⟨writtenBy_step hs hl ih.1, writtenByClient_step hs ih.2⟩

/-! ### What was asked for and what was read -/

/-- The messages that the calls of a run ask a client to send, in order. -/
def requested (i : Guid) : History Bus Action → List (Message (Option String))
  | [] => []
  | (_, .client j action) :: h =>
    requested i h ++ if j = i then action.message.toList else []
  | _ :: h => requested i h

/-- The message that an action asks a client to send. -/
def Action.request : Action → Option (Message (Option String))
  | .client _ action => action.message
  | _ => none

/-- What was requested was the request of some step. -/
theorem request_of_requested {i : Guid} {h : History Bus Action}
    {m : Message (Option String)} (hm : m ∈ requested i h) : ∃ x ∈ h, m ∈ Action.request x.2 := by
  induction h with
  | nil => cases hm
  | cons x h ih =>
    obtain ⟨b, a⟩ := x
    have hrest (hm : m ∈ requested i h) : ∃ x ∈ (b, a) :: h, m ∈ Action.request x.2 := by
      obtain ⟨x, hx, hxm⟩ := ih hm
      exact ⟨x, List.mem_cons_of_mem _ hx, hxm⟩
    cases a with
    | client j action =>
      rw [requested, List.mem_append] at hm
      rcases hm with hm | hm
      · exact hrest hm
      · obtain ⟨-, hm⟩ := List.mem_ite_nil_right.mp hm
        exact ⟨_, List.mem_cons_self .., Option.mem_toList.mp hm⟩
    | _ => exact hrest hm

/-- The messages that the distributor has put on its event queue for an interactor. -/
def receivedFrom (settings : Settings) (i : Guid) (h : History Bus Action) : List Message :=
  (System.posted settings (distributed h)).filterMap (System.messageFrom i)

/-- A client has queued what its calls have requested. -/
theorem Runs.requested {h : History Bus Action} {b : Bus} (hr : Runs settings h b) (i : Guid) :
    (b.client i).queued = requested i h := by
  induction hr with
  | start => rfl
  | next hr ha ih =>
    next h b b' a =>
    rcases (step_eq_some_iff.mp ha).client_cases i with ⟨hne, he⟩ | ⟨action, rfl, hs⟩
    · rw [he, ih]
      cases a with
      | client j action =>
        have hj : j ≠ i := fun hj => hne action (hj ▸ rfl)
        simp [Bus.requested, hj]
      | _ => rfl
    · rw [Client.queued_step hs, ih]
      simp [Bus.requested]

private theorem readOn_clientWrites (i j : Guid) (c : Client) (a : Client.Action) :
    Streams.readOn i ((clientWrites c a).map (j, ·)) = [] := by
  cases a with
  | checkWrite =>
    simp only [clientWrites]
    split <;> simp [Streams.readOn, Channel.Action.reads]
  | _ => simp [clientWrites, Streams.readOn, Channel.Action.reads]

private theorem readOn_distributorWrites (i : Guid) (s : System) (a : Distributor.Action) :
    Streams.readOn i (distributorWrites s a) = [] := by
  cases a with
  | process =>
    simp only [distributorWrites]
    cases s.eventQueue.head?.bind Event.disposes <;>
      simp [Streams.readOn, Channel.Action.reads]
  | checkWrite j =>
    simp only [distributorWrites, Action.task, Option.bind_some, interactorWrites]
    split <;> simp [Streams.readOn, Channel.Action.reads]
  | _ => simp [distributorWrites, Action.task, interactorWrites, Streams.readOn,
      Channel.Action.reads]

/-- What is read from a client goes on the event queue. -/
theorem Runs.receivedFrom {h : History Bus Action} {b : Bus} (hr : Runs settings h b)
    {i : Guid} (hi : i ≠ settings.heartbeat) :
    (b.upstream i).received = receivedFrom settings i h := by
  induction hr with
  | start => rfl
  | next hr ha ih =>
    next h b b' a =>
    rw [Streams.received_of_act (step_eq_some_iff.mp ha).upstream, ih, onUpstream.eq_def]
    cases a with
    | distributor action =>
      rw [Bus.receivedFrom, Bus.receivedFrom, distributed, System.posted, List.filterMap_append]
      congr 1
      cases action with
      | receive j m =>
        by_cases hj : j = i <;> simp [distributorReads, Action.task, interactorReads,
          Streams.readOn, Channel.Action.reads, Action.posts, System.messageFrom, hj]
      | heartbeat =>
        simp [distributorReads, Action.task, Streams.readOn, Action.posts, System.messageFrom,
          Ne.symm hi]
      | _ => simp [distributorReads, Action.task, interactorReads, Streams.readOn, Action.posts,
          System.messageFrom]
    | client j action =>
      simp only [readOn_clientWrites, List.append_nil]
      rfl
    | clientPut j count =>
      simp [Streams.readOn, Channel.Action.reads, Bus.receivedFrom, distributed]
    | _ => simp [Streams.readOn, Bus.receivedFrom, distributed]

/-- Every message that a client reads it answers with an event, or with its end. -/
theorem Runs.answers {h : History Bus Action} {b : Bus} (hr : Runs settings h b) (i : Guid) :
    (b.client i).answers =
      (b.downstream i).received.filterMap fun m => (Client.onMessage m).toOption := by
  induction hr with
  | start => rfl
  | next hr ha ih =>
    next h b b' a =>
    have hs := step_eq_some_iff.mp ha
    rw [Streams.received_of_act hs.downstream, List.filterMap_append, ← ih]
    rcases hs.client_cases i with ⟨hne, he⟩ | ⟨action, rfl, hc⟩
    · rw [he]
      suffices hnil : Streams.readOn i (b.onDownstream a) = [] by rw [hnil]; simp
      cases a with
      | client j action =>
        have hj : j ≠ i := fun hj => hne action (hj ▸ rfl)
        cases action <;> simp [onDownstream, clientReads, Streams.readOn, hj]
      | distributor action => exact readOn_distributorWrites i b.system action
      | _ => simp [onDownstream, Streams.readOn, Channel.Action.reads]
    · rw [Client.answers_step hc]
      congr 1
      cases action with
      | receive m =>
        simp only [onDownstream, clientReads, Option.map_some, Streams.readOn, if_pos,
          Channel.Action.reads, Client.Action.answer, List.filterMap_cons, List.filterMap_nil]
        cases (Client.onMessage m).toOption <;> rfl
      | _ => simp [onDownstream, clientReads, Streams.readOn, Client.Action.answer]

/-! ### Delivery -/

/-- What was received of what was sent: the messages in order and once each, up to some
message. Where the stream is at its end the next message may have arrived without its last
byte, a boolean, which is read as true. -/
def Delivered (sent : List (Message (Option String))) (received : List Message)
    (isEnded : Prop) : Prop :=
  ∃ read unread, sent = read ++ unread ∧
    (received = read.map Message.received ∨
      isEnded ∧ ∃ m rest m', unread = m :: rest ∧ m.guess = some m' ∧
        received = read.map Message.received ++ [m'])

/-- Of the classes that cannot be guessed, everything received was sent, in order and once
each, up to some message. -/
theorem Delivered.filter_initial {sent : List (Message (Option String))}
    {received : List Message} {isEnded : Prop} (hd : Delivered sent received isEnded)
    {p : Message → Bool} (hp : ∀ m m', Message.guess m = some m' → p m' = false) :
    received.filter p <+: (sent.map Message.received).filter p := by
  obtain ⟨read, unread, rfl, hrec⟩ := hd
  have hread : (read.map Message.received).filter p <+:
      ((read ++ unread).map Message.received).filter p := by
    rw [List.map_append, List.filter_append]
    exact List.prefix_append ..
  rcases hrec with rfl | ⟨-, m, rest, m', -, hg, rfl⟩
  · exact hread
  · rw [List.filter_append, List.filter_singleton, hp m m' hg]
    simp

private theorem delivered_of_written {stream : Stream}
    (hr : stream.Reachable Message.codec) {taken : List (Message (Option String))}
    {isIdle isEnded : Prop} (hw : Written stream taken isIdle isEnded)
    (hf : ∀ m ∈ taken, m.Fits) (rest : List (Message (Option String))) :
    Delivered (taken ++ rest) stream.received isEnded := by
  have hf' : ∀ m ∈ stream.sent, Message.codec.Fits m := fun m hm => hf m (hw.sent ▸ hm)
  rcases hr.intact_or_guessed hf' with ⟨read, unread, hs, hrec, -⟩ |
    ⟨hc, -, -, read, m, m', hs, hg, hrec⟩
  · refine ⟨read, unread ++ rest, ?_, .inl hrec⟩
    rw [← hw.sent, hs, List.append_assoc]
  · refine ⟨read, m :: rest, ?_, .inr ⟨hw.closed hc, m, rest, m', rfl, hg, hrec⟩⟩
    rw [← hw.sent, hs, List.append_assoc, List.singleton_append]

/-- What the distributor puts on its event queue for a client is what the application asked
the client to send, up to some message. -/
theorem Runs.heard {h : History Bus Action} {b : Bus} (hr : Runs settings h b)
    {i : Guid} (hi : i ≠ settings.heartbeat) (hf : ∀ m ∈ Bus.requested i h, m.Fits) :
    Delivered (Bus.requested i h) (Bus.receivedFrom settings i h)
      ((b.client i).isCancelled = true) := by
  rw [← Runs.receivedFrom hr hi]
  rw [← Runs.requested hr i] at hf ⊢
  exact delivered_of_written (Runs.reachable hr i).1 (Runs.written hr i).2
    (fun m hm => hf m (List.mem_append_left _ hm)) _

private theorem Delivered.isRequest {sent : List (Message (Option String))}
    {received : List Message} {isEnded : Prop} (hd : Delivered sent received isEnded) (b : Bool)
    (hs : ∀ m ∈ sent, m.isRequest = b) : ∀ m ∈ received, m.isRequest = b := by
  obtain ⟨read, unread, rfl, hrec⟩ := hd
  have hread : ∀ m ∈ read.map Message.received, m.isRequest = b := by
    intro m hm
    obtain ⟨x, hx, rfl⟩ := List.mem_map.mp hm
    rw [Message.isRequest_received]
    exact hs x (List.mem_append_left _ hx)
  rcases hrec with rfl | ⟨-, m, rest, m', rfl, hg, rfl⟩
  · exact hread
  · intro x hx
    rw [List.mem_append, List.mem_singleton] at hx
    rcases hx with hx | rfl
    · exact hread x hx
    · rw [Message.isRequest_of_guess hg]
      exact hs m (by simp)

private theorem isRequest_requested (i : Guid) (h : History Bus Action) :
    ∀ m ∈ requested i h, m.isRequest = true := by
  induction h with
  | nil => simp [requested]
  | cons x h ih =>
    obtain ⟨b, a⟩ := x
    intro m hm
    cases a with
    | client j action =>
      rw [requested, List.mem_append] at hm
      rcases hm with hm | hm
      · exact ih m hm
      · obtain ⟨-, hm⟩ := List.mem_ite_nil_right.mp hm
        exact Client.isRequest_of_message (Option.mem_toList.mp hm)
    | _ => exact ih m hm

/-- In every run, what the distributor puts on its event queue for a client is what the
application asked the client to send, in order and once each, up to some message; a last
message may be cut off by the `Dispose` of the client. All of it is of the classes that the
event loop handles. -/
theorem upstream_delivered {h : History Bus Action} {b : Bus} (hr : Runs settings h b)
    {i : Guid} (hi : i ≠ settings.heartbeat) (hf : ∀ m ∈ requested i h, m.Fits) :
    Delivered (requested i h) (receivedFrom settings i h) ((b.client i).isCancelled = true) ∧
      ∀ m ∈ receivedFrom settings i h, m.isRequest = true := by
  have hd := Runs.heard hr hi hf
  exact ⟨hd, hd.isRequest true (isRequest_requested i h)⟩

/-- A publication reaches the event queue. -/
theorem upstream_delivered_of_publication :
    ∃ h b, Runs (.permissive false) h b ∧
      receivedFrom (.permissive false) ⟨2⟩ h = [.multicastData ⟨"F", "T", "text", none⟩] ∧
      Delivered (requested ⟨2⟩ h) (receivedFrom (.permissive false) ⟨2⟩ h)
        ((b.client ⟨2⟩).isCancelled = true) ∧
      ∀ m ∈ receivedFrom (.permissive false) ⟨2⟩ h, m.isRequest = true := by
  obtain ⟨h, b, hr, hobs⟩ := exists_run_of_exec (step (.permissive false)) init onePublication
    (fun x => (decide (∀ m ∈ requested ⟨2⟩ x.1, m.Fits),
      receivedFrom (.permissive false) ⟨2⟩ x.1))
    (true, [.multicastData ⟨"F", "T", "text", none⟩]) (by decide +kernel)
  simp only [Prod.mk.injEq, decide_eq_true_eq] at hobs
  exact ⟨h, b, hr, hobs.2, upstream_delivered hr (by decide) hobs.1⟩

private theorem map_onMessage {seen : List Message} (hs : ∀ m ∈ seen, m.isForwarded = true) :
    seen.map Client.onMessage =
      (seen.filterMap fun m => (Client.onMessage m).toOption).map .ok := by
  induction seen with
  | nil => rfl
  | cons m seen ih =>
    obtain ⟨e, he⟩ := Message.onMessage_of_isForwarded (hs m (List.mem_cons_self ..))
    have ih := ih fun m hm => hs m (List.mem_cons_of_mem _ hm)
    rw [List.map_cons, List.filterMap_cons, ih, he]
    rfl

private theorem isForwarded_sent {h : History Bus Action} {b : Bus} (hr : Runs settings h b)
    (i : Guid) :
    ∀ m ∈ (b.system.server.objects i).queued.map Message.sent, m.isRequest = false := by
  intro m hm
  obtain ⟨x, hx, rfl⟩ := List.mem_map.mp hm
  have hfw := System.Runs.isForwarded (Runs.system hr) x hx
  rw [Message.isRequest_sent]
  simpa [Message.isForwarded] using hfw

/-- What a client reads is what was queued to its interactor, up to some message, and the
client raises an event for each message. -/
theorem Runs.raised {h : History Bus Action} {b : Bus} (hr : Runs settings h b)
    (i : Guid) (hf : ∀ m ∈ (b.system.server.objects i).queued, m.sent.Fits) :
    Delivered ((b.system.server.objects i).queued.map Message.sent)
        (b.downstream i).received ((b.system.server.objects i).tokenSource = .disposed) ∧
      (b.downstream i).received.map Client.onMessage = (b.client i).answers.map .ok := by
  have hd : Delivered ((b.system.server.objects i).queued.map Message.sent)
      (b.downstream i).received ((b.system.server.objects i).tokenSource = .disposed) := by
    rw [Interactor.queued, List.map_append]
    refine delivered_of_written (Runs.reachable hr i).2 (Runs.written hr i).1 ?_ _
    intro m hm
    obtain ⟨x, hx, rfl⟩ := List.mem_map.mp hm
    exact hf x (List.mem_append_left _ hx)
  refine ⟨hd, ?_⟩
  rw [Runs.answers hr, map_onMessage]
  intro m hm
  rw [Message.isForwarded, hd.isRequest false (isForwarded_sent hr i) m hm]
  rfl

/-- In every run, the events that a client raises for messages are those of the messages
queued to its interactor, in order and once each, up to some message; a last message may be
cut off as the interactor is disposed. -/
theorem downstream_delivered {h : History Bus Action} {b : Bus} (hr : Runs settings h b)
    (i : Guid) (hf : ∀ m ∈ (b.system.server.objects i).queued, m.sent.Fits) :
    ∃ seen, Delivered ((b.system.server.objects i).queued.map Message.sent) seen
        ((b.system.server.objects i).tokenSource = .disposed) ∧
      seen.map Client.onMessage = (b.client i).answers.map .ok :=
  ⟨_, Runs.raised hr i hf⟩

/-- A publication is raised at its subscriber. -/
theorem downstream_delivered_of_publication :
    ∃ h b, Runs (.permissive false) h b ∧
      (b.client ⟨1⟩).answers = [.dataReceived "user" "host" "F" "T" none "text"] ∧
      ∃ seen, Delivered ((b.system.server.objects ⟨1⟩).queued.map Message.sent) seen
          ((b.system.server.objects ⟨1⟩).tokenSource = .disposed) ∧
        seen.map Client.onMessage = (b.client ⟨1⟩).answers.map .ok := by
  obtain ⟨h, b, hr, hobs⟩ := exists_run_of_exec (step (.permissive false)) init onePublication
    (fun x => (decide (∀ m ∈ (x.2.system.server.objects ⟨1⟩).queued, m.sent.Fits),
      (x.2.client ⟨1⟩).answers))
    (true, [.dataReceived "user" "host" "F" "T" none "text"]) (by decide +kernel)
  simp only [Prod.mk.injEq, decide_eq_true_eq] at hobs
  exact ⟨h, b, hr, hobs.2, downstream_delivered hr ⟨1⟩ hobs.1⟩

end Bus

end MessageBus

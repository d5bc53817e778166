import Mathlib.Algebra.Order.BigOperators.Group.List
import Mathlib.Algebra.Order.Group.Nat
import MessageBus.Base.Rest
import MessageBus.Bus.Integrity

/-!
# Progress

A message goes through five stages: its client writes it, the distributor reads it and puts
an event on the event queue, the event loop handles the event, the distributor writes what
was sent, and the clients read that. A step of one stage makes work for later stages only,
so the bus, left alone, comes to rest, but for the reads that a closed stream has cut off inside
a buffer: these loop for ever.
-/

namespace MessageBus
open Base Common Messages Adapters Distributor

namespace Bus

variable {settings : Settings}

/-- The stage that an action belongs to; what applications, acceptors, the timer and failing
connections do belongs to none. -/
def Action.stage : Action → Option (Fin 5)
  | .client _ .checkWrite => some 0
  | .client _ .wrote => some 0
  | .clientPut _ _ => some 0
  | .distributor (.checkRead _) => some 1
  | .distributor (.receive _ _) => some 1
  | .distributor (.endRead _) => some 1
  | .distributor .process => some 2
  | .distributor (.checkWrite _) => some 3
  | .distributor (.wrote _) => some 3
  | .distributor (.endWrite _) => some 3
  | .distributorPut _ _ => some 3
  | .client _ .checkRead => some 4
  | .client _ (.receive _) => some 4
  | _ => none

/-- The action is one that the bus takes when it is left alone. A read that is cut off inside a
buffer goes on as well, and changes nothing: see `Spins`. -/
def Internal (a : Action) : Prop := a.stage.isSome = true

/-- The connection that an action belongs to. -/
def Action.connection : Action → Option Guid
  | .connect _ => none
  | .client i _ => some i
  | .clientPut i _ => some i
  | .distributor action => action.task
  | .distributorPut i _ => some i

/-! ### Steps of one connection -/

/-- A step of one connection leaves the others as they were. -/
theorem Stepped.frame {b b' : Bus} {a : Action} (h : Stepped settings b a b') {i j : Guid}
    (ha : a.connection = some i) (hj : j ≠ i) :
    b'.client j = b.client j ∧ b'.upstream j = b.upstream j ∧
      b'.downstream j = b.downstream j ∧
      b'.system.server.objects j = b.system.server.objects j := by
  have hup : ∀ x, b.onUpstream a ≠ some (j, x) := by
    intro x hx
    cases a with
    | connect k => cases ha
    | client k action =>
      obtain ⟨y, -, he⟩ := Option.map_eq_some_iff.mp hx
      cases he
      exact hj (Option.some.inj ha)
    | clientPut k count =>
      cases hx
      exact hj (Option.some.inj ha)
    | distributor action =>
      obtain ⟨k, hk, hx⟩ := Option.bind_eq_some_iff.mp hx
      obtain ⟨y, -, he⟩ := Option.map_eq_some_iff.mp hx
      cases he
      exact hj (Option.some.inj (hk.symm.trans ha))
    | distributorPut k count => cases hx
  have hdown : ∀ x, b.onDownstream a ≠ some (j, x) := by
    intro x hx
    cases a with
    | connect k => cases ha
    | client k action =>
      obtain ⟨y, -, he⟩ := Option.map_eq_some_iff.mp hx
      cases he
      exact hj (Option.some.inj ha)
    | clientPut k count => cases hx
    | distributor action =>
      rw [onDownstream, distributorWrites_of_task ha] at hx
      obtain ⟨y, -, he⟩ := Option.map_eq_some_iff.mp hx
      cases he
      exact hj rfl
    | distributorPut k count =>
      cases hx
      exact hj (Option.some.inj ha)
  refine ⟨?_, Streams.act_of_ne h.upstream hup, Streams.act_of_ne h.downstream hdown, ?_⟩
  · rcases h.client_cases j with ⟨-, hc⟩ | ⟨action, rfl, -⟩
    · exact hc
    · exact absurd (Option.some.inj ha) hj
  · rcases h.system_cases with ⟨-, hs⟩ | ⟨action, rfl, hs⟩
    · rw [hs]
    · rw [System.step_task settings b.system ha] at hs
      obtain ⟨o, -, he⟩ := Option.map_eq_some_iff.mp hs
      rw [← he, System.objects_afterTask, Function.update_of_ne hj]

/-- A step of a client, seen at its connection. -/
theorem Stepped.client_at {b b' : Bus} {i : Guid} {action : Client.Action}
    (h : Stepped settings b (.client i action) b') :
    (b.client i).step action = some (b'.client i) ∧
      Streams.actOn (b.upstream i) (clientWrites (b.client i) action) = some (b'.upstream i) ∧
      Streams.actOn (b.downstream i) (clientReads action) = some (b'.downstream i) ∧
      b'.system = b.system := by
  refine ⟨?_, Streams.actOn_of_act h.upstream, Streams.actOn_of_act h.downstream,
    (Option.some.inj h.system).symm⟩
  obtain ⟨client, hs, hu⟩ := Option.map_eq_some_iff.mp h.client
  rw [hs, ← hu, Function.update_self]

/-- A step of a task of the distributor, seen at its connection. -/
theorem Stepped.distributor_at {b b' : Bus} {i : Guid} {action : Distributor.Action}
    (h : Stepped settings b (.distributor action) b') (ha : action.task = some i) :
    (b.system.server.objects i).taskStep action = some (b'.system.server.objects i) ∧
      Streams.actOn (b.upstream i) (interactorReads action) = some (b'.upstream i) ∧
      Streams.actOn (b.downstream i) (interactorWrites (b.system.server.objects i) action) =
        some (b'.downstream i) ∧
      b'.client = b.client ∧
      b'.system.eventQueue = b.system.eventQueue ++ action.posts settings := by
  have hs : b.system.step settings action = some b'.system := h.system
  rw [System.step_task settings b.system ha] at hs
  obtain ⟨o, ho, he⟩ := Option.map_eq_some_iff.mp hs
  refine ⟨?_, ?_, ?_, (Option.some.inj h.client).symm, by rw [← he]; rfl⟩
  · rw [ho, ← he, System.objects_afterTask, Function.update_self]
  · apply Streams.actOn_of_act
    have hu := h.upstream
    rwa [onUpstream, distributorReads, ha, Option.bind_some] at hu
  · apply Streams.actOn_of_act
    have hd := h.downstream
    rwa [onDownstream, distributorWrites_of_task ha] at hd

/-- A step that puts bytes on a stream, seen at its connection. -/
theorem Stepped.clientPut_at {b b' : Bus} {i : Guid} {count : Nat}
    (h : Stepped settings b (.clientPut i count) b') :
    (b.upstream i).step Message.codec (.put count) = some (b'.upstream i) :=
  Streams.actOn_of_act (o := some (.put count)) h.upstream

private theorem Stepped.distributorPut_at {b b' : Bus} {i : Guid} {count : Nat}
    (h : Stepped settings b (.distributorPut i count) b') :
    (b.downstream i).step Message.codec (.put count) = some (b'.downstream i) :=
  Streams.actOn_of_act (o := some (.put count)) h.downstream

/-! ### The work of a connection -/

/-- The steps that a task which writes has left until it waits, less those for its queue. -/
def clientWriteRank : ClientTask → Nat
  | .checking => 1
  | .running => 2
  | _ => 0

/-- The steps that a write task has left until it waits, less those for its queue. -/
def writeRank : WriteTask → Nat
  | .checking => 2
  | .writing => 3
  | .ending => 1
  | _ => 0

/-- The steps that a task which reads has left until it waits. -/
def clientReadRank : ClientTask → Nat
  | .checking => 2
  | .running => 1
  | _ => 0

/-- The steps that a read task has left until it waits, less those for the bytes in flight. -/
def readRank : ReadTask → Nat
  | .unstarted => 2
  | .checking => 2
  | .reading => 1
  | .ending => 1
  | .completed => 0

/-- The steps for the messages on a write queue, and for the bytes that are to be written. -/
def toWrite (queue : List (Message (Option String))) (pending : List UInt8) : Nat :=
  (queue.map fun m => m.write.length + 2).sum + pending.length

/-- The work that a connection has at each stage. -/
def connectionLoad (b : Bus) (i : Guid) : Fin 5 → Nat
  | 0 => toWrite (b.client i).writeQueue (b.upstream i).pending +
    clientWriteRank (b.client i).writeTask
  | 1 => 2 * (b.upstream i).inFlight.length +
    readRank (b.system.server.objects i).readTask
  | 2 => 0
  | 3 => toWrite ((b.system.server.objects i).writeQueue.map Message.sent)
      (b.downstream i).pending + writeRank (b.system.server.objects i).writeTask
  | 4 => 2 * (b.downstream i).inFlight.length + clientReadRank (b.client i).readTask

/-- The work that the bus has at each stage. -/
def load (b : Bus) (k : Fin 5) : Nat :=
  if k = 2 then b.system.eventQueue.length
  else (b.clients.map fun i => b.connectionLoad i k).sum

-- Beginning a message makes as much work as the message was on the queue, less one step.
private theorem toWrite_start {stream stream' : Stream} {m : Message (Option String)}
    (h : stream.step Message.codec (.start m) = some stream')
    (queue : List (Message (Option String))) :
    toWrite queue stream'.pending + 2 = toWrite (m :: queue) stream.pending := by
  obtain ⟨hp, rfl⟩ := Channel.start_eq_some h
  simp only [toWrite, hp, List.map_cons, List.sum_cons, List.length_nil]
  have hw : (Message.codec.write m).length = m.write.length := rfl
  omega

private theorem toWrite_put {stream stream' : Stream} {count : Nat}
    (h : stream.step Message.codec (.put count) = some stream')
    (queue : List (Message (Option String))) :
    toWrite queue stream'.pending < toWrite queue stream.pending := by
  obtain ⟨hpos, hle, -, rfl⟩ := Channel.put_eq_some h
  simp only [toWrite, List.length_drop]
  omega

private theorem inFlight_receive {stream stream' : Stream} {m : Message}
    (h : stream.step Message.codec (.receive m) = some stream') :
    stream'.inFlight.length < stream.inFlight.length ∧ stream'.pending = stream.pending := by
  obtain ⟨rest, hn, rfl⟩ := Channel.receive_eq_some h
  exact ⟨Channel.length_lt_of_next hn, rfl⟩

private theorem load_clientWrite {b b' : Bus} {i : Guid}
    (h : Stepped settings b (.client i .checkWrite) b') :
    b'.connectionLoad i 0 < b.connectionLoad i 0 := by
  obtain ⟨hc, hu, -, -⟩ := h.client_at
  obtain ⟨ht, hc⟩ := Option.ite_none_right_eq_some.mp hc
  simp only [clientWrites] at hu
  cases hk : (b.client i).isCancelled with
  | false =>
    cases hq : (b.client i).writeQueue with
    | nil => simp [hk, hq] at hc
    | cons m ms =>
      simp only [hk, hq, Option.some.injEq] at hc hu
      have hw := toWrite_start hu ms
      simp only [connectionLoad, ← hc, hq, ht, clientWriteRank]
      omega
  | true =>
    simp only [hk, Option.some.injEq, Streams.actOn] at hc hu
    simp [connectionLoad, ← hc, ← hu, ht, clientWriteRank]

private theorem load_clientWrote {b b' : Bus} {i : Guid}
    (h : Stepped settings b (.client i .wrote) b') :
    b'.connectionLoad i 0 < b.connectionLoad i 0 := by
  obtain ⟨hc, hu, -, -⟩ := h.client_at
  obtain ⟨ht, hc⟩ := Option.ite_none_right_eq_some.mp hc
  have hu : (b.upstream i).step Message.codec .finish = some (b'.upstream i) := hu
  obtain ⟨-, hu⟩ := Channel.finish_eq_some hu
  simp [connectionLoad, ← Option.some.inj hc, hu, ht, clientWriteRank]

private theorem load_clientPut {b b' : Bus} {i : Guid} {count : Nat}
    (h : Stepped settings b (.clientPut i count) b') :
    b'.connectionLoad i 0 < b.connectionLoad i 0 := by
  have hc : b'.client = b.client := (Option.some.inj h.client).symm
  have hw := toWrite_put h.clientPut_at (b.client i).writeQueue
  simp only [connectionLoad, hc]
  omega

-- What the read task of an interactor does leaves the writing client alone.
private theorem load_read {b b' : Bus} {i : Guid} {action : Distributor.Action}
    (h : Stepped settings b (.distributor action) b') (ha : action.task = some i)
    (hk : Action.stage (.distributor action) = some 1) :
    b'.connectionLoad i 1 < b.connectionLoad i 1 ∧
      b'.connectionLoad i 0 = b.connectionLoad i 0 := by
  obtain ⟨ho, hu, -, hc, -⟩ := h.distributor_at ha
  cases action with
  | checkRead j =>
    obtain ⟨ht, ho⟩ := Option.ite_none_right_eq_some.mp ho
    have hu := Option.some.inj hu
    refine ⟨?_, by simp [connectionLoad, hc, ← hu]⟩
    have hrank : readRank (if (b.system.server.objects i).tokenSource = .live
        then .reading else .ending) = 1 := by split <;> rfl
    simp only [connectionLoad, ← hu, ← Option.some.inj ho, ht, hrank]
    simp [readRank]
  | receive j m =>
    obtain ⟨ht, ho⟩ := Option.ite_none_right_eq_some.mp ho
    obtain ⟨hlt, hp⟩ := inFlight_receive hu
    refine ⟨?_, by simp [connectionLoad, hc, hp]⟩
    simp only [connectionLoad, ← Option.some.inj ho, ht, readRank]
    omega
  | endRead j =>
    obtain ⟨ht, ho⟩ := Option.ite_none_right_eq_some.mp ho
    have hu := Option.some.inj hu
    refine ⟨?_, by simp [connectionLoad, hc, ← hu]⟩
    simp [connectionLoad, ← hu, ← Option.some.inj ho, ht, readRank]
  | _ => simp [Action.stage] at hk

private theorem load_write {b b' : Bus} {i : Guid} {action : Distributor.Action}
    (h : Stepped settings b (.distributor action) b') (ha : action.task = some i)
    (hk : Action.stage (.distributor action) = some 3) :
    b'.connectionLoad i 3 < b.connectionLoad i 3 ∧
      b'.connectionLoad i 0 = b.connectionLoad i 0 ∧
      b'.connectionLoad i 1 = b.connectionLoad i 1 := by
  obtain ⟨ho, hu, hd, hc, -⟩ := h.distributor_at ha
  cases action with
  | checkWrite j =>
    obtain ⟨ht, ho⟩ := Option.ite_none_right_eq_some.mp ho
    have hu := Option.some.inj hu
    simp only [interactorWrites] at hd
    cases hk : (b.system.server.objects i).tokenSource with
    | live =>
      cases hq : (b.system.server.objects i).writeQueue with
      | nil => simp [hk, hq] at ho
      | cons m ms =>
        simp only [hk, hq, Option.some.injEq] at ho hd
        have hw := toWrite_start hd (ms.map Message.sent)
        refine ⟨?_, by simp [connectionLoad, hc, ← hu], by simp [connectionLoad, ← hu, ← ho]⟩
        simp only [connectionLoad, ← ho, hq, ht, writeRank, List.map_cons]
        omega
    | _ =>
      simp only [hk, Option.some.injEq, Streams.actOn] at ho hd
      refine ⟨?_, by simp [connectionLoad, hc, ← hu], by simp [connectionLoad, ← hu, ← ho]⟩
      simp [connectionLoad, ← ho, ← hd, ht, writeRank]
  | wrote j =>
    obtain ⟨ht, ho⟩ := Option.ite_none_right_eq_some.mp ho
    have hu := Option.some.inj hu
    have ho := Option.some.inj ho
    have hd : (b.downstream i).step Message.codec .finish = some (b'.downstream i) := hd
    obtain ⟨-, hd⟩ := Channel.finish_eq_some hd
    refine ⟨?_, by simp [connectionLoad, hc, ← hu], by simp [connectionLoad, ← hu, ← ho]⟩
    simp [connectionLoad, ← ho, hd, ht, writeRank]
  | endWrite j =>
    obtain ⟨ht, ho⟩ := Option.ite_none_right_eq_some.mp ho
    have hu := Option.some.inj hu
    have ho := Option.some.inj ho
    have hd := Option.some.inj hd
    refine ⟨?_, by simp [connectionLoad, hc, ← hu], by simp [connectionLoad, ← hu, ← ho]⟩
    simp [connectionLoad, ← ho, ← hd, ht, writeRank]
  | _ => simp [Action.stage] at hk

private theorem load_distributorPut {b b' : Bus} {i : Guid} {count : Nat}
    (h : Stepped settings b (.distributorPut i count) b') :
    b'.connectionLoad i 3 < b.connectionLoad i 3 ∧
      b'.connectionLoad i 0 = b.connectionLoad i 0 ∧
      b'.connectionLoad i 1 = b.connectionLoad i 1 := by
  have hc : b'.client = b.client := (Option.some.inj h.client).symm
  have hs : b'.system = b.system := (Option.some.inj h.system).symm
  have hu : b'.upstream = b.upstream := (Option.some.inj h.upstream).symm
  have hw := toWrite_put h.distributorPut_at
    ((b.system.server.objects i).writeQueue.map Message.sent)
  refine ⟨?_, by simp [connectionLoad, hc, hu], by simp [connectionLoad, hs, hu]⟩
  simp only [connectionLoad, hs]
  omega

private theorem load_clientRead {b b' : Bus} {i : Guid} {action : Client.Action}
    (h : Stepped settings b (.client i action) b')
    (hk : Action.stage (.client i action) = some 4) :
    b'.connectionLoad i 4 < b.connectionLoad i 4 ∧
      b'.connectionLoad i 0 = b.connectionLoad i 0 ∧
      b'.connectionLoad i 1 = b.connectionLoad i 1 ∧
      b'.connectionLoad i 3 = b.connectionLoad i 3 := by
  obtain ⟨hc, hu, hd, hs⟩ := h.client_at
  cases action with
  | checkRead =>
    obtain ⟨ht, hc⟩ := Option.ite_none_right_eq_some.mp hc
    have hc := Option.some.inj hc
    have hu := Option.some.inj hu
    have hd := Option.some.inj hd
    refine ⟨?_, by simp [connectionLoad, ← hc, ← hu], by simp [connectionLoad, hs, ← hu],
      by simp [connectionLoad, hs, ← hd]⟩
    have hrank : clientReadRank (if (b.client i).isCancelled = true
        then .completed else .running) ≤ 1 := by split <;> simp [clientReadRank]
    simp only [connectionLoad, ← hc, ← hd, ht]
    simp only [clientReadRank] at hrank ⊢
    omega
  | receive m =>
    obtain ⟨ht, hc⟩ := Option.ite_none_right_eq_some.mp hc
    have hu := Option.some.inj hu
    obtain ⟨hlt, hp⟩ := inFlight_receive hd
    split at hc
    · have hc := Option.some.inj hc
      refine ⟨?_, by simp [connectionLoad, ← hc, ← hu], by simp [connectionLoad, hs, ← hu],
        by simp [connectionLoad, hs, hp]⟩
      simp only [connectionLoad, ← hc, ht, clientReadRank]
      omega
    · have hc := Option.some.inj hc
      refine ⟨?_, by simp [connectionLoad, ← hc, ← hu], by simp [connectionLoad, hs, ← hu],
        by simp [connectionLoad, hs, hp]⟩
      simp only [connectionLoad, ← hc, ht, clientReadRank]
      omega
  | _ => simp [Action.stage] at hk

private theorem load_process {b b' : Bus} (h : Stepped settings b (.distributor .process) b')
    (hl : System.Lifecycle settings b.system) (i : Guid) :
    b'.connectionLoad i 0 = b.connectionLoad i 0 ∧
      b'.connectionLoad i 1 ≤ b.connectionLoad i 1 := by
  have hs : b.system.step settings .process = some b'.system := h.system
  have hc : b'.client = b.client := (Option.some.inj h.client).symm
  have hu : b'.upstream = b.upstream := (Option.some.inj h.upstream).symm
  refine ⟨by simp [connectionLoad, hc, hu], ?_⟩
  simp only [connectionLoad, hu, Nat.add_le_add_iff_left]
  rcases System.object_step settings hs hl i with
    ⟨ht, -⟩ | ⟨e, -, -, -, ho⟩ | ⟨hh, ho⟩ | ⟨-, -, ho⟩
  · cases ht
  · simp [ho.readTask, Interactor.dispose, readRank]
  · have hq := hl.connecting i (List.mem_of_head? hh)
    simp [ho.readTask, hq.2, readRank]
  · rw [ho.readTask]

/-! ### The clients of a run -/

/-- Only clients that have connected do anything, and only those are accepted. -/
structure Connected (settings : Settings) (b : Bus) : Prop where
  heartbeat : settings.heartbeat ∉ b.clients
  accepted : ∀ i ∈ b.system.accepted, i ∈ b.clients
  idle : ∀ i, i ∉ b.clients → b.client i = {}

/-- In every state of the bus the interactors and the clients are connected. -/
theorem Runs.connected {h : History Bus Action} {b : Bus} (hr : Runs settings h b) :
    Connected settings b := by
  induction hr with
  | start => exact ⟨by simp [init], by simp [init], fun _ _ => rfl⟩
  | next hr ha ih =>
    next h b b' a =>
    have hs := step_eq_some_iff.mp ha
    have hsub : ∀ i ∈ b.clients, i ∈ b'.clients := by
      intro i hi
      rw [hs.clients]
      cases a with
      | connect j => exact List.mem_cons_of_mem _ hi
      | _ => exact hi
    refine ⟨?_, ?_, ?_⟩
    · rw [hs.clients]
      cases a with
      | connect j =>
        rw [onClients, List.mem_cons, not_or]
        exact ⟨Ne.symm hs.admits.1, ih.heartbeat⟩
      | _ => exact ih.heartbeat
    · intro i hi
      rcases hs.system_cases with ⟨-, he⟩ | ⟨action, rfl, hd⟩
      · exact hsub i (ih.accepted i (he ▸ hi))
      · rcases System.accepted_step settings hd hi with hi | rfl
        · exact hsub i (ih.accepted i hi)
        · exact hsub i hs.admits
    · intro i hi
      have hi' : i ∉ b.clients := fun h => hi (hsub i h)
      rcases hs.client_cases i with ⟨-, hc⟩ | ⟨action, rfl, -⟩
      · rw [hc]
        exact ih.idle i hi'
      · exact absurd hs.admits hi'

-- A task that has started belongs to a client that has connected.
private theorem mem_clients_of_task {h : History Bus Action} {b : Bus} (hr : Runs settings h b)
    {i : Guid} {action : Distributor.Action} {o : Interactor} (ha : action.task = some i)
    (ho : (b.system.server.objects i).taskStep action = some o) : i ∈ b.clients := by
  have hl := System.Runs.lifecycle settings (Runs.system hr)
  refine (Runs.connected hr).accepted i (hl.accepted i fun hu => ?_)
  have hw := (hl.unstarted i).mp hu
  cases action with
  | accept j => cases ha
  | heartbeat => cases ha
  | process => cases ha
  | _ =>
    obtain ⟨ht, -⟩ := Option.ite_none_right_eq_some.mp ho
    simp [hu, hw] at ht

/-- The connection of a step is that of a client that has connected. -/
theorem Runs.mem_clients {h : History Bus Action} {b b' : Bus} {a : Action} {i : Guid}
    (hr : Runs settings h b) (hs : Stepped settings b a b') (ha : a.connection = some i) :
    i ∈ b.clients := by
  cases a with
  | connect j => cases ha
  | client j action => exact Option.some.inj ha ▸ hs.admits
  | clientPut j count =>
    obtain rfl := Option.some.inj ha
    by_contra hi
    have hwrite : (b.client j).writeTask = .running := hs.admits
    rw [(Runs.connected hr).idle j hi] at hwrite
    cases hwrite
  | distributor action => exact mem_clients_of_task hr ha (hs.distributor_at ha).1
  | distributorPut j count =>
    obtain rfl := Option.some.inj ha
    have hl := System.Runs.lifecycle settings (Runs.system hr)
    refine (Runs.connected hr).accepted j (hl.accepted j fun hu => ?_)
    cases ((hl.unstarted j).mp hu).symm.trans hs.admits

private theorem load_lt {b b' : Bus} {i : Guid} {k : Fin 5} (hk : k ≠ 2)
    (hclients : b'.clients = b.clients) (hi : i ∈ b.clients)
    (hlt : b'.connectionLoad i k < b.connectionLoad i k)
    (hle : ∀ j, j ≠ i → b'.connectionLoad j k = b.connectionLoad j k) :
    b'.load k < b.load k := by
  simp only [load, if_neg hk, hclients]
  refine List.sum_lt_sum _ _ (fun j _ => ?_) ⟨i, hi, hlt⟩
  by_cases hj : j = i
  · exact hj ▸ Nat.le_of_lt hlt
  · exact Nat.le_of_eq (hle j hj)

private theorem load_le {b b' : Bus} {k : Fin 5} (hk : k ≠ 2)
    (hclients : b'.clients = b.clients)
    (hle : ∀ j, b'.connectionLoad j k ≤ b.connectionLoad j k) : b'.load k ≤ b.load k := by
  simp only [load, if_neg hk, hclients]
  exact List.sum_le_sum fun j _ => hle j

-- A step of one connection that has less work at a stage, and no other work before it, advances.
private theorem advances_of_connection {b b' : Bus} {a : Action} (h : Stepped settings b a b')
    {i : Guid} (ha : a.connection = some i) (hi : i ∈ b.clients) {k : Fin 5} (hk : k ≠ 2)
    (hlt : b'.connectionLoad i k < b.connectionLoad i k)
    (heq : ∀ l < k, l ≠ 2 → b'.connectionLoad i l = b.connectionLoad i l)
    (hq : 2 < k → b'.system.eventQueue = b.system.eventQueue) : Advances b'.load b.load := by
  have hclients : b'.clients = b.clients := by
    rw [h.clients]
    cases a with
    | connect j => cases ha
    | _ => rfl
  have hframe : ∀ j, j ≠ i → ∀ l, b'.connectionLoad j l = b.connectionLoad j l := by
    intro j hj l
    obtain ⟨hc, hu, hd, ho⟩ := h.frame ha hj
    unfold connectionLoad
    simp only [hc, hu, hd, ho]
  refine ⟨k, load_lt hk hclients hi hlt fun j hj => hframe j hj k, ?_⟩
  intro l hl
  by_cases hl2 : l = 2
  · subst hl2
    simp only [load, if_true, hq hl, Nat.le_refl]
  · apply load_le hl2 hclients
    intro j
    by_cases hj : j = i
    · exact hj ▸ Nat.le_of_eq (heq l hl hl2)
    · exact Nat.le_of_eq (hframe j hj l)

private theorem before_three : ∀ l : Fin 5, l < 3 → l ≠ 2 → l = 0 ∨ l = 1 := by decide

private theorem before_four : ∀ l : Fin 5, l < 4 → l ≠ 2 → l = 0 ∨ l = 1 ∨ l = 3 := by decide

private theorem advances_process {b b' : Bus} (h : Stepped settings b (.distributor .process) b')
    (hl : System.Lifecycle settings b.system) : Advances b'.load b.load := by
  have hload := load_process h hl
  have hs : b.system.step settings .process = some b'.system := h.system
  refine ⟨2, ?_, ?_⟩
  · rcases System.step_cases settings hs with ⟨e, es, -, hq, -, -, he⟩ | ⟨hne, -⟩
    · simp [load, he, hq, System.handle]
    · exact absurd rfl hne
  · intro l hl
    have hl' : l = 0 ∨ l = 1 := by
      revert l
      decide
    rcases hl' with rfl | rfl
    · exact load_le (by decide) h.clients fun j => Nat.le_of_eq (hload j).1
    · exact load_le (by decide) h.clients fun j => (hload j).2

private theorem advances_task {b b' : Bus} {action : Distributor.Action}
    (h : Stepped settings b (.distributor action) b') {i : Guid} (ht : action.task = some i)
    (hi : i ∈ b.clients) (hint : Internal (.distributor action)) : Advances b'.load b.load := by
  have hst : Action.stage (.distributor action) = some 1 ∨
      Action.stage (.distributor action) = some 3 := by
    cases action <;> first | exact .inl rfl | exact .inr rfl | cases ht; done | cases hint
  rcases hst with hst | hst
  · obtain ⟨hlt, h0⟩ := load_read h ht hst
    refine advances_of_connection h ht hi (by decide) hlt ?_ fun hk => absurd hk (by decide)
    intro l hl _
    have hl' : l = 0 := by
      revert l
      decide
    exact hl' ▸ h0
  · obtain ⟨hlt, h0, h1⟩ := load_write h ht hst
    refine advances_of_connection h ht hi (by decide) hlt ?_ fun _ => ?_
    · intro l hl hl2
      rcases before_three l hl hl2 with rfl | rfl <;> assumption
    · have hp : action.posts settings = [] := by
        cases action <;> first | rfl | cases hst
      rw [(h.distributor_at ht).2.2.2.2, hp, List.append_nil]

/-- Every internal step advances the work of the bus. -/
theorem staged (settings : Settings) : Staged (step settings) init Internal load := by
  intro h b a b' hr hint ha
  have hs := step_eq_some_iff.mp ha
  have hl := System.Runs.lifecycle settings (Runs.system hr)
  cases a with
  | connect i => cases hint
  | client i action =>
    have hi : i ∈ b.clients := hs.admits
    cases action with
    | checkWrite =>
      exact advances_of_connection hs rfl hi (by decide) (load_clientWrite hs)
        (fun l hl => absurd hl (by simp)) fun hk => absurd hk (by decide)
    | wrote =>
      exact advances_of_connection hs rfl hi (by decide) (load_clientWrote hs)
        (fun l hl => absurd hl (by simp)) fun hk => absurd hk (by decide)
    | checkRead =>
      obtain ⟨hlt, h0, h1, h3⟩ := load_clientRead hs rfl
      refine advances_of_connection hs rfl hi (by decide) hlt ?_ fun _ => by
        rw [hs.client_at.2.2.2]
      intro l hl hl2
      rcases before_four l hl hl2 with rfl | rfl | rfl <;> assumption
    | receive m =>
      obtain ⟨hlt, h0, h1, h3⟩ := load_clientRead hs rfl
      refine advances_of_connection hs rfl hi (by decide) hlt ?_ fun _ => by
        rw [hs.client_at.2.2.2]
      intro l hl hl2
      rcases before_four l hl hl2 with rfl | rfl | rfl <;> assumption
    | _ => cases hint
  | clientPut i count =>
    exact advances_of_connection hs rfl (Runs.mem_clients hr hs rfl) (by decide) (load_clientPut hs)
      (fun l hl => absurd hl (by simp)) fun hk => absurd hk (by decide)
  | distributorPut i count =>
    obtain ⟨hlt, h0, h1⟩ := load_distributorPut hs
    refine advances_of_connection hs rfl (Runs.mem_clients hr hs rfl) (by decide) hlt ?_ fun _ => by
      rw [← Option.some.inj hs.system]
    intro l hl hl2
    rcases before_three l hl hl2 with rfl | rfl <;> assumption
  | distributor action =>
    cases ht : action.task with
    | some i => exact advances_task hs ht (Runs.mem_clients hr hs ht) hint
    | none =>
      cases action with
      | process => exact advances_process hs hl
      | accept j => cases hint
      | heartbeat => cases hint
      | _ => cases ht

/-! ### Coming to rest -/

/-- A task that reads. -/
inductive Reading where
  | distributor (i : Guid)
  | client (i : Guid)
  deriving DecidableEq

/-- The read is cut off inside a buffer: the other side has closed the stream, `Stream.Read`
returns 0, and the loop of `ReadFully` does not end, `DataReader.cs:142–148`. -/
def Spins (b : Bus) : Reading → Prop
  | .distributor i => (b.system.server.objects i).readTask = .reading ∧
      (b.upstream i).IsCutOff Message.codec
  | .client i => (b.client i).readTask = .running ∧ (b.upstream i).isClosed = false ∧
      (b.downstream i).IsCutOff Message.codec

/-- Whether a read spins can be computed. -/
instance (b : Bus) : (r : Reading) → Decidable (b.Spins r)
  | .distributor _ => inferInstanceAs (Decidable (_ ∧ _))
  | .client _ => inferInstanceAs (Decidable (_ ∧ _ ∧ _))

/-- What the bus does when it is left alone: an internal action, or another turn of the loop of
a read that is cut off. -/
inductive Turn where
  | act (action : Action)
  | spin (reading : Reading)

/-- What the bus, left alone, may become. -/
inductive GoesOn (settings : Settings) (b : Bus) : Turn → Bus → Prop
  | act {a : Action} {b' : Bus} : Internal a → b.step settings a = some b' →
      GoesOn settings b (.act a) b'
  | spin {r : Reading} : b.Spins r → GoesOn settings b (.spin r) b

/-- Left alone, the bus does not go on for ever but by reads that are cut off: from some point
on nothing changes, and only such reads turn in their loops. And every run can be continued to
a state in which only applications, acceptors, the timer and failing connections can do
anything, and the reads that are cut off in it. -/
theorem comes_to_rest {h : History Bus Action} {b : Bus} (hr : Runs settings h b) :
    (∀ (states : Nat → Bus) (turns : Nat → Turn), states 0 = b →
      (∀ k, GoesOn settings (states k) (turns k) (states (k + 1))) →
      ∃ n, ∀ k, n ≤ k → states k = states n ∧ ∃ r, turns k = .spin r ∧ (states n).Spins r) ∧
    ∃ h' b', Runs settings (h' ++ h) b' ∧ (∀ x ∈ h', Internal x.2) ∧
      ∀ turn b'', GoesOn settings b' turn b'' → b'' = b' ∧ ∃ r, turn = .spin r ∧ b'.Spins r := by
  constructor
  · rintro states turns rfl hk
    have hturns (k : Nat) :
        (∃ a, Internal a ∧ (states k).step settings a = some (states (k + 1))) ∨
          (∃ r, turns k = .spin r ∧ (states k).Spins r) ∧ states (k + 1) = states k := by
      have hgoes := hk k
      generalize turns k = turn, states (k + 1) = b' at hgoes ⊢
      cases hgoes with
      | act hint ha => exact .inl ⟨_, hint, ha⟩
      | spin hs => exact .inr ⟨⟨_, rfl, hs⟩, rfl⟩
    obtain ⟨n, hn⟩ := (staged settings).settles hr hturns
    refine ⟨n, fun k hle => ?_⟩
    obtain ⟨⟨r, hturn, hs⟩, hsame⟩ := hn k hle
    exact ⟨hsame, r, hturn, hsame ▸ hs⟩
  · obtain ⟨h', b', hr', hint, hrest⟩ := (staged settings).rests hr
    refine ⟨h', b', hr', hint, fun turn b'' hgoes => ?_⟩
    cases hgoes with
    | act hi ha =>
      rw [hrest _ hi] at ha
      cases ha
    | spin hs => exact ⟨rfl, _, rfl, hs⟩

/-- Once its application has asked for it, a publication is all that has to happen. -/
theorem comes_to_rest_of_publication :
    ∃ h b, Runs (.permissive false) h b ∧
      (b.client ⟨2⟩).writeQueue = [.multicastData ⟨some "F", some "T", some "text", none⟩] ∧
      (∀ (states : Nat → Bus) (turns : Nat → Turn), states 0 = b →
        (∀ k, GoesOn (.permissive false) (states k) (turns k) (states (k + 1))) →
        ∃ n, ∀ k, n ≤ k → states k = states n ∧ ∃ r, turns k = .spin r ∧ (states n).Spins r) ∧
      ∃ h' b', Runs (.permissive false) (h' ++ h) b' ∧ (∀ x ∈ h', Internal x.2) ∧
        ∀ turn b'', GoesOn (.permissive false) b' turn b'' →
          b'' = b' ∧ ∃ r, turn = .spin r ∧ b'.Spins r := by
  obtain ⟨h, b, hr, hobs⟩ := exists_run_of_exec (step (.permissive false)) init
    (onePublication.take 17) (fun x => (x.2.client ⟨2⟩).writeQueue)
    [.multicastData ⟨some "F", some "T", some "text", none⟩] (by decide +kernel)
  exact ⟨h, b, hr, hobs, comes_to_rest hr⟩

-- A client is disposed when it has written three bytes of a request: its interactor reads on.
example : ∃ h b, Runs (.permissive false) h b ∧ decide (b.Spins (.distributor ⟨1⟩)) = true :=
  exists_run_of_exec (step (.permissive false)) init
    [.connect ⟨1⟩, .distributor (.accept ⟨1⟩), .distributor .process, .client ⟨1⟩ .start,
      .client ⟨1⟩ (.call (.addSubscription (some "F") (some "T"))), .client ⟨1⟩ .checkWrite,
      .clientPut ⟨1⟩ 3, .client ⟨1⟩ .dispose, .distributor (.checkRead ⟨1⟩)]
    (fun x => decide (x.2.Spins (.distributor ⟨1⟩))) true (by decide +kernel)

end Bus

end MessageBus

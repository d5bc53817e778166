import MessageBus.Base.Run
import MessageBus.Distributor.Membership

/-!
# The event queue and the tasks

`core/src/JetBlack.MessageBus.Distributor/EventQueue.cs`, the acceptors, and the read and
write tasks of `Interactor.cs`. Tasks run beside the event loop and meet it at the event
queue, the write queues and the token sources; the event loop handles one event at a
time. A cancellation that falls inside a handler is taken to fall before or after it: it
only decides what is queued to an interactor that will write nothing more. `Dispose`
waits for both tasks, so its event is handled once they have ended; the token it would
cancel first is cancelled by the task that reported the error. That the event loop with
handlers that wait does nothing else to the server is `EventLoop.Runs.exists_system_run`.
The life of the process is not modelled: the token of the server is never cancelled. An `Id`
is a `Guid.NewGuid()`, taken never to repeat.
-/

namespace MessageBus.Distributor
open MessageBus.Base MessageBus.Common MessageBus.Messages

/-- The server, the event queue, whether the event loop still runs, and the interactors
that acceptors have made. -/
structure System where
  server : Server := {}
  eventQueue : List Event := []
  isRunning : Bool := true
  accepted : List Guid := []

/-- What may happen next. -/
inductive Action where
  /-- An acceptor makes an interactor, `Acceptor.cs:84–106`. -/
  | accept (interactor : Guid)
  /-- The read task tests its loop. -/
  | checkRead (interactor : Guid)
  /-- `Message.Read` returns. -/
  | receive (interactor : Guid) (message : Message)
  /-- `Message.Read` throws. -/
  | readError (interactor : Guid) (error : Exception)
  /-- The read task cancels the token and ends. -/
  | endRead (interactor : Guid)
  /-- The write task tests its loop and takes a message. -/
  | checkWrite (interactor : Guid)
  /-- `Message.Write` returns. -/
  | wrote (interactor : Guid)
  /-- `Message.Write` throws. -/
  | writeError (interactor : Guid) (error : Exception)
  /-- The write task cancels the token and ends. -/
  | endWrite (interactor : Guid)
  /-- The timer calls `HeartbeatCallback`, `Server.cs:190–197`. -/
  | heartbeat
  /-- The event loop takes an event and handles it, `EventQueue.cs:41–69`. -/
  | process
  deriving DecidableEq

/-- `CancellationTokenSource.Cancel`, where cancellation was not requested before. -/
def TokenSource.cancel : TokenSource → TokenSource
  | .live => .cancelled
  | tokenSource => tokenSource

/-- The message that the timer enqueues. -/
def heartbeatMessage : Message :=
  .multicastData
    { feed := "__admin__", topic := "heartbeat", contentType := "", dataPackets := none }

namespace System

variable (settings : Settings)

/-- Put an event on the event queue, `EventQueue.cs:29–34`. -/
def enqueue (s : System) (event : Event) : System :=
  { s with eventQueue := s.eventQueue ++ [event] }

/-- Change one interactor. -/
def modify (s : System) (i : Guid) (f : Interactor → Interactor) : System :=
  { s with server := { s.server with objects := s.server.objects.modify i f } }

/-- `Dispose` has nothing to wait for: a task that was never started is cancelled. -/
def CanDispose (s : System) (i : Guid) : Prop :=
  ((s.server.objects i).readTask = .unstarted ∨ (s.server.objects i).readTask = .completed) ∧
  ((s.server.objects i).writeTask = .unstarted ∨ (s.server.objects i).writeTask = .completed)

/-- Whether `Dispose` has nothing to wait for can be computed. -/
instance (s : System) (i : Guid) : Decidable (s.CanDispose i) :=
  inferInstanceAs (Decidable (_ ∧ _))

/-- The event loop can finish handling the event. -/
def CanProcess (s : System) (event : Event) : Prop :=
  ∀ i, event.disposes = some i → s.CanDispose i

/-- Whether the event can be handled can be computed. -/
instance (s : System) (event : Event) : Decidable (s.CanProcess event) :=
  match h : event.disposes with
  | none => isTrue (by simp [CanProcess, h])
  | some i => decidable_of_iff (s.CanDispose i) (by simp [CanProcess, h])

/-- Handle the event at the head of the queue; what is thrown ends the loop. -/
def handle (s : System) (event : Event) (events : List Event) : System :=
  { s with
    server := (s.server.onInteractorEvent settings event).1
    eventQueue := events
    isRunning := (s.server.onInteractorEvent settings event).2.isNone }

/-- The next state, if the action is enabled. -/
def step (s : System) : Action → Option System
  | .accept i =>
    if i = settings.heartbeat ∨ i ∈ s.accepted then none
    else some ({ s with accepted := i :: s.accepted }.enqueue (.connected i))
  | .checkRead i =>
    if (s.server.objects i).readTask = .checking then
      some (s.modify i fun o =>
        { o with readTask := if o.tokenSource = .live then .reading else .ending })
    else none
  | .receive i message =>
    if (s.server.objects i).readTask = .reading then
      some ((s.modify i fun o => { o with readTask := .checking }).enqueue (.message i message))
    else none
  | .readError i error =>
    if (s.server.objects i).readTask = .reading then
      some ((s.modify i fun o => { o with readTask := .ending }).enqueue (.error i error))
    else none
  | .endRead i =>
    if (s.server.objects i).readTask = .ending then
      some (s.modify i fun o =>
        { o with readTask := .completed, tokenSource := o.tokenSource.cancel })
    else none
  | .checkWrite i =>
    if (s.server.objects i).writeTask = .checking then
      match (s.server.objects i).tokenSource, (s.server.objects i).writeQueue with
      | .live, [] => none
      | .live, message :: messages =>
        some (s.modify i fun o =>
          { o with writeTask := .writing, writeQueue := messages, taken := o.taken ++ [message] })
      | _, _ => some (s.modify i fun o => { o with writeTask := .ending })
    else none
  | .wrote i =>
    if (s.server.objects i).writeTask = .writing then
      some (s.modify i fun o => { o with writeTask := .checking })
    else none
  | .writeError i error =>
    if (s.server.objects i).writeTask = .writing then
      some ((s.modify i fun o => { o with writeTask := .ending }).enqueue (.error i error))
    else none
  | .endWrite i =>
    if (s.server.objects i).writeTask = .ending then
      some (s.modify i fun o =>
        { o with writeTask := .completed, tokenSource := o.tokenSource.cancel })
    else none
  | .heartbeat => some (s.enqueue (.message settings.heartbeat heartbeatMessage))
  | .process =>
    match s.eventQueue with
    | [] => none
    | event :: events =>
      if s.isRunning = true ∧ s.CanProcess event then some (s.handle settings event events)
      else none

/-- The distributor before any client has connected. -/
def init : System := {}

/-- A run of the distributor. -/
abbrev Runs (h : History System Action) (s : System) : Prop := Run (step settings) init h s

/-! ### What a step can do -/

/-- The event that a step handles. -/
def handled (s : System) : Action → Option Event
  | .process => s.eventQueue.head?
  | _ => none

/-- A step of a task changes the tasks, the token and how much of its queue an
interactor has taken, and nothing else. -/
structure TaskStep (i i' : Interactor) : Prop where
  authorizations : i'.authorizations = i.authorizations
  queued : i'.queued = i.queued
  live : i'.tokenSource = .live → i.tokenSource = .live
  unread : i'.readTask = .unstarted ↔ i.readTask = .unstarted
  unwritten : i'.writeTask = .unstarted ↔ i.writeTask = .unstarted
  fresh : i.readTask = .unstarted → i.writeTask = .unstarted → i'.tokenSource = i.tokenSource

/-- To do nothing is a step of the tasks. -/
theorem TaskStep.refl (i : Interactor) : TaskStep i i :=
  ⟨rfl, rfl, id, Iff.rfl, Iff.rfl, fun _ _ => rfl⟩

/-- No repository changes, and no interactor but by its tasks. -/
structure Quiet (s s' : Server) : Prop where
  interactors : s'.interactorRepository = s.interactorRepository
  notifications : s'.notificationRepository = s.notificationRepository
  publishers : s'.publisherRepository = s.publisherRepository
  subscriptions : s'.subscriptionRepository = s.subscriptionRepository
  object : ∀ i, TaskStep (s.objects i) (s'.objects i)

/-- To do nothing is quiet. -/
theorem Quiet.refl (s : Server) : Quiet s s := ⟨rfl, rfl, rfl, rfl, fun _ => .refl _⟩

private theorem quiet_modify (s : System) (i : Guid) (f : Interactor → Interactor)
    (h : TaskStep (s.server.objects i) (f (s.server.objects i))) :
    Quiet s.server (s.modify i f).server := by
  refine ⟨rfl, rfl, rfl, rfl, ?_⟩
  intro c
  simp only [modify, Interactors.modify_apply]
  split
  · next hc =>
    subst hc
    exact h
  · exact .refl _

private theorem TokenSource.live_of_cancel {t : TokenSource} (h : t.cancel = .live) :
    t = .live := by
  cases t <;> cases h

/-- What a step does when it handles no event: it is quiet, and it may enqueue an event of
a started interactor, a heartbeat, or the connection of a new interactor. -/
structure TaskOnly (s s' : System) : Prop where
  quiet : Quiet s.server s'.server
  running : s'.isRunning = s.isRunning
  queue :
    (∃ i, i ≠ settings.heartbeat ∧ i ∉ s.accepted ∧ s'.accepted = i :: s.accepted ∧
      s'.eventQueue = s.eventQueue ++ [.connected i]) ∨
    s'.accepted = s.accepted ∧
      (s'.eventQueue = s.eventQueue ∨ ∃ e, s'.eventQueue = s.eventQueue ++ [e] ∧
        (e = .message settings.heartbeat heartbeatMessage ∨
          e ≠ .connected e.interactor ∧
            ((s.server.objects e.interactor).readTask ≠ .unstarted ∨
              (s.server.objects e.interactor).writeTask ≠ .unstarted)))

/-- A step handles the event at the head of the queue, or belongs to a task. -/
theorem step_cases {s s' : System} {a : Action} (h : step settings s a = some s') :
    (∃ event events, a = .process ∧ s.eventQueue = event :: events ∧ s.isRunning = true ∧
      s.CanProcess event ∧ s' = s.handle settings event events) ∨
    (a ≠ .process ∧ TaskOnly settings s s') := by
  cases a with
  | accept i =>
    obtain ⟨hn, h⟩ := Option.ite_none_left_eq_some.mp h
    cases h
    rw [not_or] at hn
    exact .inr ⟨by simp, .refl _, rfl, .inl ⟨i, hn.1, hn.2, rfl, rfl⟩⟩
  | checkRead i =>
    obtain ⟨ht, ⟨⟩⟩ := Option.ite_none_right_eq_some.mp h
    refine .inr ⟨by simp, quiet_modify s i _ ?_, rfl, .inr ⟨rfl, .inl rfl⟩⟩
    refine ⟨rfl, rfl, id, ?_, Iff.rfl, fun _ _ => rfl⟩
    simp only [ht]
    split <;> simp
  | receive i message =>
    obtain ⟨ht, ⟨⟩⟩ := Option.ite_none_right_eq_some.mp h
    refine .inr ⟨by simp, quiet_modify s i _ ?_, rfl, .inr ⟨rfl, .inr ⟨_, rfl, .inr ?_⟩⟩⟩
    · exact ⟨rfl, rfl, id, by simp [ht], Iff.rfl, fun _ _ => rfl⟩
    · exact ⟨by simp, .inl (by simp [Event.interactor, ht])⟩
  | readError i error =>
    obtain ⟨ht, ⟨⟩⟩ := Option.ite_none_right_eq_some.mp h
    refine .inr ⟨by simp, quiet_modify s i _ ?_, rfl, .inr ⟨rfl, .inr ⟨_, rfl, .inr ?_⟩⟩⟩
    · exact ⟨rfl, rfl, id, by simp [ht], Iff.rfl, fun _ _ => rfl⟩
    · exact ⟨by simp, .inl (by simp [Event.interactor, ht])⟩
  | endRead i =>
    obtain ⟨ht, ⟨⟩⟩ := Option.ite_none_right_eq_some.mp h
    refine .inr ⟨by simp, quiet_modify s i _ ?_, rfl, .inr ⟨rfl, .inl rfl⟩⟩
    exact ⟨rfl, rfl, TokenSource.live_of_cancel, by simp [ht], Iff.rfl, by simp [ht]⟩
  | checkWrite i =>
    obtain ⟨ht, h⟩ := Option.ite_none_right_eq_some.mp h
    split at h
    · cases h
    · next message messages hl hq =>
      cases h
      refine .inr ⟨by simp, quiet_modify s i _ ?_, rfl, .inr ⟨rfl, .inl rfl⟩⟩
      exact ⟨rfl, by simp [Interactor.queued, hq], id, Iff.rfl, by simp [ht], fun _ _ => rfl⟩
    · cases h
      refine .inr ⟨by simp, quiet_modify s i _ ?_, rfl, .inr ⟨rfl, .inl rfl⟩⟩
      exact ⟨rfl, rfl, id, Iff.rfl, by simp [ht], fun _ _ => rfl⟩
  | wrote i =>
    obtain ⟨ht, ⟨⟩⟩ := Option.ite_none_right_eq_some.mp h
    refine .inr ⟨by simp, quiet_modify s i _ ?_, rfl, .inr ⟨rfl, .inl rfl⟩⟩
    exact ⟨rfl, rfl, id, Iff.rfl, by simp [ht], fun _ _ => rfl⟩
  | writeError i error =>
    obtain ⟨ht, ⟨⟩⟩ := Option.ite_none_right_eq_some.mp h
    refine .inr ⟨by simp, quiet_modify s i _ ?_, rfl, .inr ⟨rfl, .inr ⟨_, rfl, .inr ?_⟩⟩⟩
    · exact ⟨rfl, rfl, id, Iff.rfl, by simp [ht], fun _ _ => rfl⟩
    · exact ⟨by simp, .inr (by simp [Event.interactor, ht])⟩
  | endWrite i =>
    obtain ⟨ht, ⟨⟩⟩ := Option.ite_none_right_eq_some.mp h
    refine .inr ⟨by simp, quiet_modify s i _ ?_, rfl, .inr ⟨rfl, .inl rfl⟩⟩
    exact ⟨rfl, rfl, TokenSource.live_of_cancel, Iff.rfl, by simp [ht], by simp [ht]⟩
  | heartbeat =>
    cases h
    exact .inr ⟨by simp, .refl _, rfl, .inr ⟨rfl, .inr ⟨_, rfl, .inl rfl⟩⟩⟩
  | process =>
    rw [step] at h
    split at h
    · cases h
    · next event events hq =>
      obtain ⟨⟨hr, hc⟩, ⟨⟩⟩ := Option.ite_none_right_eq_some.mp h
      exact .inl ⟨event, events, rfl, hq, hr, hc, rfl⟩

/-! ### The life of an interactor -/

/-- The interactor that an event connects. -/
def connects : Event → Option Guid
  | .connected i => some i
  | _ => none

private theorem connects_eq_some_iff {e : Event} {i : Guid} :
    connects e = some i ↔ e = .connected i := by
  cases e <;> simp [connects]

/-- An interactor is accepted, connected once, started as it is registered, and heard of
only from then on; the heartbeat interactor only ever sends its message. -/
structure Lifecycle (s : System) : Prop where
  unstarted : ∀ i, (s.server.objects i).readTask = .unstarted ↔
    (s.server.objects i).writeTask = .unstarted
  fresh : ∀ i, (s.server.objects i).readTask = .unstarted →
    (s.server.objects i).tokenSource = .live
  accepted : ∀ i, (s.server.objects i).readTask ≠ .unstarted → i ∈ s.accepted
  heartbeat : settings.heartbeat ∉ s.accepted
  connecting : ∀ i, .connected i ∈ s.eventQueue →
    i ∈ s.accepted ∧ (s.server.objects i).readTask = .unstarted
  once : (s.eventQueue.filterMap connects).Nodup
  sender : ∀ e ∈ s.eventQueue, e = .connected e.interactor ∨
    e = .message settings.heartbeat heartbeatMessage ∨
    (s.server.objects e.interactor).readTask ≠ .unstarted
  registered : ∀ i, s.server.IsRegistered i → (s.server.objects i).readTask ≠ .unstarted

/-- The start respects the life of the interactors. -/
theorem lifecycle_init : Lifecycle settings init := by
  constructor <;> simp [init, Server.IsRegistered]

/-- The tasks and the token of an interactor after an event that does not concern them. -/
theorem tasks_of_other (s : Server) {e : Event} {c : Guid} (hd : e.disposes ≠ some c)
    (hc : e ≠ .connected c) :
    let o := (s.onInteractorEvent settings e).1.objects c
    o.readTask = (s.objects c).readTask ∧ o.writeTask = (s.objects c).writeTask ∧
      o.tokenSource = (s.objects c).tokenSource := by
  obtain ⟨a, ha⟩ := Server.object_update settings s e c hd hc
  simp [Server.onInteractorEvent_eq, Server.deliver, ha]

/-- The tasks and the token of an interactor after the event that closes it. -/
theorem tasks_of_disposes (s : Server) {e : Event} {c : Guid} (hd : e.disposes = some c) :
    let o := (s.onInteractorEvent settings e).1.objects c
    o.readTask = .completed ∧ o.writeTask = .completed ∧ o.tokenSource = .disposed := by
  simp [Server.onInteractorEvent_eq, Server.deliver,
    Server.object_update_of_disposes settings s hd, Interactor.dispose]

/-- The tasks and the token of an interactor after the event that connects it. -/
theorem tasks_of_connected {s : System} (hs : Lifecycle settings s) {c : Guid}
    (hc : .connected c ∈ s.eventQueue) :
    let o := (s.server.onInteractorEvent settings (.connected c)).1.objects c
    o.readTask = .checking ∧ o.writeTask = .checking ∧ o.tokenSource = .live := by
  have hread := (hs.connecting c hc).2
  have hr : ¬ s.server.IsRegistered c := fun h => hs.registered c h hread
  have ho := (Server.object_update_of_connected settings s.server hr (hs.fresh c hread) hread
    ((hs.unstarted c).mp hread)).1
  simp [Server.onInteractorEvent_eq, Server.deliver, ho, hs.fresh c hread]

/-- A started interactor stays started. -/
theorem started_of_started {s : System} (hs : Lifecycle settings s) {e : Event}
    (he : e ∈ s.eventQueue) {c : Guid} (hc : (s.server.objects c).readTask ≠ .unstarted) :
    ((s.server.onInteractorEvent settings e).1.objects c).readTask ≠ .unstarted := by
  by_cases hd : e.disposes = some c
  · simp [(tasks_of_disposes settings s.server hd).1]
  · by_cases hcon : e = .connected c
    · subst hcon
      simp [(tasks_of_connected settings hs he).1]
    · rw [(tasks_of_other settings s.server hd hcon).1]
      exact hc

/-- A handler respects the life of the interactors. -/
theorem lifecycle_handle {s : System} (hs : Lifecycle settings s) {e : Event} {es : List Event}
    (hq : s.eventQueue = e :: es) : Lifecycle settings (s.handle settings e es) := by
  have he : e ∈ s.eventQueue := hq ▸ List.mem_cons_self ..
  have htail : ∀ e' ∈ es, e' ∈ s.eventQueue := fun e' h => hq ▸ List.mem_cons_of_mem _ h
  have honce := hs.once
  rw [hq, List.filterMap_cons] at honce
  have hother : ∀ c, Event.connected c ∈ es → e ≠ .connected c := by
    rintro c hc rfl
    simp only [connects, List.nodup_cons] at honce
    exact honce.1 (List.mem_filterMap.mpr ⟨_, hc, rfl⟩)
  have hdisposed : ∀ c, e.disposes = some c → (s.server.objects c).readTask ≠ .unstarted := by
    intro c hc
    rcases hs.sender e he with h | h | h
    · rw [h] at hc; cases hc
    · rw [h] at hc; cases hc
    · cases e with
      | error i x => cases hc; exact h
      | closed i => cases hc; exact h
      | _ => cases hc
  constructor
  · intro c
    by_cases hd : e.disposes = some c
    · obtain ⟨hr, hw, -⟩ := tasks_of_disposes settings s.server hd
      simp [handle, hr, hw]
    · by_cases hc : e = .connected c
      · subst hc
        obtain ⟨hr, hw, -⟩ := tasks_of_connected settings hs he
        simp [handle, hr, hw]
      · obtain ⟨hr, hw, -⟩ := tasks_of_other settings s.server hd hc
        simp [handle, hr, hw, hs.unstarted c]
  · intro c hread
    by_cases hd : e.disposes = some c
    · simp [handle, (tasks_of_disposes settings s.server hd).1] at hread
    · by_cases hc : e = .connected c
      · subst hc
        simp [handle, (tasks_of_connected settings hs he).1] at hread
      · obtain ⟨hr, -, ht⟩ := tasks_of_other settings s.server hd hc
        simp only [handle, hr, ht] at hread ⊢
        exact hs.fresh c hread
  · intro c hread
    by_cases hc : e = .connected c
    · subst hc
      exact (hs.connecting c he).1
    · by_cases hd : e.disposes = some c
      · exact hs.accepted c (hdisposed c hd)
      · simp only [handle, (tasks_of_other settings s.server hd hc).1] at hread
        exact hs.accepted c hread
  · exact hs.heartbeat
  · intro c hc
    obtain ⟨ha, hread⟩ := hs.connecting c (htail _ hc)
    have hd : e.disposes ≠ some c := fun hd => hdisposed c hd hread
    refine ⟨ha, ?_⟩
    simp only [handle, (tasks_of_other settings s.server hd (hother c hc)).1]
    exact hread
  · split at honce
    · exact honce
    · exact (List.nodup_cons.mp honce).2
  · intro e' he'
    rcases hs.sender e' (htail e' he') with h | h | h
    · exact .inl h
    · exact .inr (.inl h)
    · exact .inr (.inr (started_of_started settings hs he h))
  · intro c hc
    simp only [handle, Server.IsRegistered, Server.onInteractorEvent_eq] at hc
    have hc' := (Server.isRegistered_update settings s.server e c).mp hc
    rcases hc'.2 with rfl | hr
    · simp [handle, (tasks_of_connected settings hs he).1]
    · exact started_of_started settings hs he (hs.registered c hr)

/-- The tasks respect the life of the interactors. -/
theorem lifecycle_taskOnly {s s' : System} (hs : Lifecycle settings s)
    (h : TaskOnly settings s s') : Lifecycle settings s' := by
  have hobj := h.quiet.object
  have hreg : ∀ i, s'.server.IsRegistered i ↔ s.server.IsRegistered i := by
    intro i
    rw [Server.IsRegistered, Server.IsRegistered, h.quiet.interactors]
  have hsub : ∀ i ∈ s.accepted, i ∈ s'.accepted := by
    rcases h.queue with ⟨j, -, -, ha, -⟩ | ⟨ha, -⟩
    · exact fun i hi => ha ▸ List.mem_cons_of_mem _ hi
    · exact fun i hi => ha ▸ hi
  have hunstarted : ∀ i, (s'.server.objects i).readTask = .unstarted ↔
      (s'.server.objects i).writeTask = .unstarted := by
    intro i
    rw [(hobj i).unread, (hobj i).unwritten]
    exact hs.unstarted i
  have hnew : ∀ e ∈ s'.eventQueue, e ∈ s.eventQueue ∨
      (∃ i, i ∉ s.accepted ∧ s'.accepted = i :: s.accepted ∧ e = .connected i) ∨
      e = .message settings.heartbeat heartbeatMessage ∨
      e ≠ .connected e.interactor ∧ (s.server.objects e.interactor).readTask ≠ .unstarted := by
    intro e he
    rcases h.queue with ⟨j, -, hj, ha, hq⟩ | ⟨-, hq | ⟨e', hq, hm⟩⟩
    · rw [hq, List.mem_append, List.mem_singleton] at he
      rcases he with he | rfl
      · exact .inl he
      · exact .inr (.inl ⟨j, hj, ha, rfl⟩)
    · exact .inl (hq ▸ he)
    · rw [hq, List.mem_append, List.mem_singleton] at he
      rcases he with he | rfl
      · exact .inl he
      · rcases hm with hm | ⟨hm, hr | hw⟩
        · exact .inr (.inr (.inl hm))
        · exact .inr (.inr (.inr ⟨hm, hr⟩))
        · exact .inr (.inr (.inr ⟨hm, fun hr => hw ((hs.unstarted _).mp hr)⟩))
  constructor
  · exact hunstarted
  · intro i hi
    have hi' := (hobj i).unread.mp hi
    rw [(hobj i).fresh hi' ((hs.unstarted i).mp hi')]
    exact hs.fresh i hi'
  · intro i hi
    exact hsub i (hs.accepted i fun hr => hi ((hobj i).unread.mpr hr))
  · rcases h.queue with ⟨j, hj, -, ha, -⟩ | ⟨ha, -⟩
    · rw [ha, List.mem_cons, not_or]
      exact ⟨Ne.symm hj, hs.heartbeat⟩
    · exact ha ▸ hs.heartbeat
  · intro i hi
    rcases hnew _ hi with hq | ⟨j, hj, ha, he⟩ | he | ⟨hne, -⟩
    · obtain ⟨ha, hr⟩ := hs.connecting i hq
      exact ⟨hsub i ha, (hobj i).unread.mpr hr⟩
    · cases he
      refine ⟨ha ▸ List.mem_cons_self .., (hobj i).unread.mpr ?_⟩
      exact Classical.byContradiction fun hr => hj (hs.accepted i hr)
    · cases he
    · exact absurd rfl hne
  · rcases h.queue with ⟨j, -, hj, -, hq⟩ | ⟨-, hq | ⟨e, hq, hm⟩⟩
    · rw [hq, List.filterMap_append, List.nodup_append]
      refine ⟨hs.once, by simp [connects], ?_⟩
      intro a ha b hb
      obtain ⟨e, he, hea⟩ := List.mem_filterMap.mp ha
      rw [connects_eq_some_iff] at hea
      subst hea
      have hb' : b = j := by simpa [connects] using hb
      rintro rfl
      exact hj (hb' ▸ (hs.connecting a he).1)
    · exact hq ▸ hs.once
    · have hc : connects e = none := by
        rcases hm with rfl | ⟨hm, -⟩
        · rfl
        · cases e with
          | connected i => exact absurd rfl hm
          | _ => rfl
      rw [hq, List.filterMap_append]
      simpa [hc] using hs.once
  · intro e he
    rcases hnew e he with hq | ⟨j, -, -, rfl⟩ | he | ⟨-, hr⟩
    · rcases hs.sender e hq with hc | hc | hc
      · exact .inl hc
      · exact .inr (.inl hc)
      · exact .inr (.inr fun hr => hc ((hobj _).unread.mp hr))
    · exact .inl rfl
    · exact .inr (.inl he)
    · exact .inr (.inr fun hr' => hr ((hobj _).unread.mp hr'))
  · intro i hi hr
    exact hs.registered i ((hreg i).mp hi) ((hobj i).unread.mp hr)

/-- Every state of every run respects the life of its interactors. -/
theorem Runs.lifecycle {h : History System Action} {s : System} (hr : Runs settings h s) :
    Lifecycle settings s := by
  refine hr.invariant (lifecycle_init settings) ?_
  intro r a t hi ha
  rcases step_cases settings ha with ⟨e, es, -, hq, -, -, rfl⟩ | ⟨-, hq⟩
  · exact lifecycle_handle settings hi hq
  · exact lifecycle_taskOnly settings hi hq

end System

end MessageBus.Distributor

import MessageBus.Distributor.Steps

/-!
# The tasks of an interactor

What a step of the distributor does to the tasks, the token and the taken messages of one
interactor: one of its tasks steps, or an event starts it or disposes it, or nothing. From
this, how the tasks, the token and the event queue hang together in every state.
-/

namespace MessageBus.Distributor
open MessageBus.Base MessageBus.Common MessageBus.Messages

/-- The interactor whose task an action belongs to. -/
def Action.task : Action → Option Guid
  | .checkRead i => some i
  | .receive i _ => some i
  | .readError i _ => some i
  | .endRead i => some i
  | .checkWrite i => some i
  | .wrote i => some i
  | .writeError i _ => some i
  | .endWrite i => some i
  | _ => none

/-- The events that an action puts on the event queue. -/
def Action.posts (settings : Settings) : Action → List Event
  | .accept i => [.connected i]
  | .receive i message => [.message i message]
  | .readError i error => [.error i error]
  | .writeError i error => [.error i error]
  | .heartbeat => [.message settings.heartbeat heartbeatMessage]
  | _ => []

/-- A step of one of the tasks of an interactor, as the interactor sees it. -/
def Interactor.taskStep (o : Interactor) : Action → Option Interactor
  | .checkRead _ =>
    if o.readTask = .checking then
      some { o with readTask := if o.tokenSource = .live then .reading else .ending }
    else none
  | .receive _ _ => if o.readTask = .reading then some { o with readTask := .checking } else none
  | .readError _ _ => if o.readTask = .reading then some { o with readTask := .ending } else none
  | .endRead _ =>
    if o.readTask = .ending then
      some { o with readTask := .completed, tokenSource := o.tokenSource.cancel }
    else none
  | .checkWrite _ =>
    if o.writeTask = .checking then
      match o.tokenSource, o.writeQueue with
      | .live, [] => none
      | .live, message :: messages =>
        some { o with
          writeTask := .writing, writeQueue := messages, taken := o.taken ++ [message] }
      | _, _ => some { o with writeTask := .ending }
    else none
  | .wrote _ => if o.writeTask = .writing then some { o with writeTask := .checking } else none
  | .writeError _ _ =>
    if o.writeTask = .writing then some { o with writeTask := .ending } else none
  | .endWrite _ =>
    if o.writeTask = .ending then
      some { o with writeTask := .completed, tokenSource := o.tokenSource.cancel }
    else none
  | _ => none

namespace System

variable (settings : Settings)

/-- The distributor after a task has left its interactor as `o` and posted events. -/
def afterTask (s : System) (c : Guid) (o : Interactor) (events : List Event) : System :=
  { s with
    server := { s.server with objects := Function.update s.server.objects c o }
    eventQueue := s.eventQueue ++ events }

/-- A task changes its own interactor. -/
@[simp] theorem objects_afterTask (s : System) (c : Guid) (o : Interactor)
    (events : List Event) :
    (s.afterTask c o events).server.objects = Function.update s.server.objects c o := rfl

/-- What changes one interactor does what a task does that posts nothing. -/
theorem modify_eq_afterTask (s : System) (c : Guid) (f : Interactor → Interactor) :
    s.modify c f = s.afterTask c (f (s.server.objects c)) [] := by
  have hobj : s.server.objects.modify c f =
      Function.update s.server.objects c (f (s.server.objects c)) := by
    funext j
    rw [Interactors.modify_apply, Function.update_apply]
    split
    · next hj => rw [hj]
    · rfl
  rw [modify, afterTask, hobj, List.append_nil]

/-- A task that leaves its interactor as it is and posts nothing does nothing. -/
@[simp] theorem afterTask_self (s : System) (c : Guid) :
    s.afterTask c (s.server.objects c) [] = s := by
  rw [afterTask, Function.update_eq_self, List.append_nil]

private theorem enqueue_afterTask (s : System) (c : Guid) (o : Interactor) (es : List Event)
    (e : Event) : (s.afterTask c o es).enqueue e = s.afterTask c o (es ++ [e]) := by
  simp only [enqueue, afterTask, List.append_assoc]

/-- A task steps as its interactor sees it, and posts its events. -/
theorem step_task (s : System) {a : Action} {c : Guid} (ha : a.task = some c) :
    s.step settings a =
      ((s.server.objects c).taskStep a).map fun o => s.afterTask c o (a.posts settings) := by
  cases a with
  | checkWrite i =>
    obtain rfl := Option.some.inj ha
    simp only [step, Interactor.taskStep, modify_eq_afterTask, Action.posts]
    split
    · cases ht : (s.server.objects i).tokenSource with
      | live => cases hq : (s.server.objects i).writeQueue <;> rfl
      | _ => rfl
    · rfl
  | accept i => cases ha
  | heartbeat => cases ha
  | process => cases ha
  | _ =>
    obtain rfl := Option.some.inj ha
    simp only [step, Interactor.taskStep, modify_eq_afterTask, enqueue_afterTask, Action.posts]
    split <;> rfl

/-- The tasks, the token and the taken messages of an interactor are as they were. -/
structure SameTasks (o o' : Interactor) : Prop where
  taken : o'.taken = o.taken
  readTask : o'.readTask = o.readTask
  writeTask : o'.writeTask = o.writeTask
  tokenSource : o'.tokenSource = o.tokenSource

/-- The tasks of an interactor are as they are. -/
theorem SameTasks.refl (o : Interactor) : SameTasks o o := ⟨rfl, rfl, rfl, rfl⟩

private theorem sameTasks_deliver (objects : Interactors) (sends : List (Guid × Message))
    (c : Guid) : SameTasks (objects c) (objects.deliver sends c) := by
  rw [Interactors.deliver_apply]
  split
  · exact ⟨rfl, rfl, rfl, rfl⟩
  · exact .refl _

/-- What handling an event does to the tasks of an interactor: the event disposes it, or
connects it, or leaves its tasks alone. -/
theorem object_onInteractorEvent {s : System} (hs : Lifecycle settings s) {e : Event}
    (he : e ∈ s.eventQueue) (c : Guid) :
    e.disposes = some c ∧
        SameTasks (s.server.objects c).dispose
          ((s.server.onInteractorEvent settings e).1.objects c) ∨
      e = .connected c ∧
        SameTasks { s.server.objects c with readTask := .checking, writeTask := .checking }
          ((s.server.onInteractorEvent settings e).1.objects c) ∨
      e.disposes ≠ some c ∧ e ≠ .connected c ∧
        SameTasks (s.server.objects c)
          ((s.server.onInteractorEvent settings e).1.objects c) := by
  rw [Server.onInteractorEvent_eq]
  have hsends := sameTasks_deliver (Server.update settings s.server e).objects
    (Server.sends settings s.server e) c
  by_cases hd : e.disposes = some c
  · rw [Server.object_update_of_disposes settings s.server hd] at hsends
    exact .inl ⟨hd, hsends⟩
  · by_cases hc : e = .connected c
    · subst hc
      have hread := (hs.connecting c he).2
      have hr : ¬ s.server.IsRegistered c := fun h => hs.registered c h hread
      rw [(Server.object_update_of_connected settings s.server hr (hs.fresh c hread) hread
        ((hs.unstarted c).mp hread)).1] at hsends
      exact .inr (.inl ⟨rfl, hsends⟩)
    · obtain ⟨authorizations, ho⟩ := Server.object_update settings s.server e c hd hc
      rw [ho] at hsends
      exact .inr (.inr ⟨hd, hc, hsends.taken, hsends.readTask, hsends.writeTask,
        hsends.tokenSource⟩)

/-- What a step does to the tasks of an interactor: one of them steps, or the event that is
handled disposes or connects the interactor, or nothing. -/
theorem object_step {s s' : System} {a : Action} (h : step settings s a = some s')
    (hs : Lifecycle settings s) (c : Guid) :
    a.task = some c ∧ (s.server.objects c).taskStep a = some (s'.server.objects c) ∨
      (∃ e, s.handled a = some e ∧ e.disposes = some c ∧ s.CanDispose c ∧
        SameTasks (s.server.objects c).dispose (s'.server.objects c)) ∨
      s.handled a = some (.connected c) ∧
        SameTasks { s.server.objects c with readTask := .checking, writeTask := .checking }
          (s'.server.objects c) ∨
      a.task ≠ some c ∧
        (∀ e, s.handled a = some e → e.disposes ≠ some c ∧ e ≠ .connected c) ∧
        SameTasks (s.server.objects c) (s'.server.objects c) := by
  cases ht : a.task with
  | some i =>
    rw [step_task settings s ht] at h
    obtain ⟨o, ho, rfl⟩ := Option.map_eq_some_iff.mp h
    have hn : s.handled a = none := by
      cases a with
      | process => cases ht
      | _ => rfl
    by_cases hi : i = c
    · subst hi
      exact .inl ⟨rfl, by rw [ho, objects_afterTask, Function.update_self]⟩
    · refine .inr (.inr (.inr ⟨fun hic => hi (Option.some.inj hic), by simp [hn], ?_⟩))
      rw [objects_afterTask, Function.update_of_ne (Ne.symm hi)]
      exact .refl _
  | none =>
    rcases step_cases settings h with ⟨e, es, rfl, hq, -, hc, rfl⟩ | ⟨hne, -⟩
    · have he : e ∈ s.eventQueue := hq ▸ List.mem_cons_self ..
      have hh : s.handled .process = some e := by rw [handled, hq, List.head?_cons]
      rcases object_onInteractorEvent settings hs he c with
        ⟨hd, hsame⟩ | ⟨rfl, hsame⟩ | ⟨hd, hcon, hsame⟩
      · exact .inr (.inl ⟨e, hh, hd, hc c hd, hsame⟩)
      · exact .inr (.inr (.inl ⟨hh, hsame⟩))
      · refine .inr (.inr (.inr ⟨by simp, ?_, hsame⟩))
        intro e' he'
        rw [hh, Option.some.injEq] at he'
        exact he' ▸ ⟨hd, hcon⟩
    · have hobj : s'.server.objects c = s.server.objects c := by
        cases a with
        | accept i =>
          obtain ⟨-, h⟩ := Option.ite_none_left_eq_some.mp h
          cases h
          rfl
        | heartbeat =>
          cases h
          rfl
        | process => exact absurd rfl hne
        | _ => cases ht
      have hn : s.handled a = none := by
        cases a with
        | process => exact absurd rfl hne
        | _ => rfl
      rw [hobj]
      exact .inr (.inr (.inr ⟨by simp, by simp [hn], .refl _⟩))

/-- The event queue loses the event that a step handles, and gains those that it posts. -/
theorem eventQueue_step {s s' : System} {a : Action} (h : step settings s a = some s') :
    s.eventQueue ++ a.posts settings = (s.handled a).toList ++ s'.eventQueue := by
  cases ht : a.task with
  | some i =>
    rw [step_task settings s ht] at h
    obtain ⟨o, -, rfl⟩ := Option.map_eq_some_iff.mp h
    cases a with
    | process => cases ht
    | _ => rfl
  | none =>
    rcases step_cases settings h with ⟨e, es, rfl, hq, -, -, rfl⟩ | ⟨hne, -⟩
    · simp [handled, hq, handle, Action.posts]
    · cases a with
      | accept i =>
        obtain ⟨-, h⟩ := Option.ite_none_left_eq_some.mp h
        cases h
        rfl
      | heartbeat =>
        cases h
        rfl
      | process => exact absurd rfl hne
      | _ => cases ht

/-- An interactor is accepted by its acceptor only. -/
theorem accepted_step {s s' : System} {a : Action} (h : step settings s a = some s') {i : Guid}
    (hi : i ∈ s'.accepted) : i ∈ s.accepted ∨ a = .accept i := by
  cases ht : a.task with
  | some j =>
    rw [step_task settings s ht] at h
    obtain ⟨o, -, rfl⟩ := Option.map_eq_some_iff.mp h
    exact .inl hi
  | none =>
    rcases step_cases settings h with ⟨e, es, -, -, -, -, rfl⟩ | ⟨hne, -⟩
    · exact .inl hi
    · cases a with
      | accept j =>
        obtain ⟨-, ⟨⟩⟩ := Option.ite_none_left_eq_some.mp h
        rcases List.mem_cons.mp hi with rfl | hi
        · exact .inr rfl
        · exact .inl hi
      | heartbeat =>
        cases h
        exact .inl hi
      | process => exact absurd rfl hne
      | _ => cases ht

/-! ### The event queue over a run -/

/-- The events that the steps of a run put on the event queue, in order. -/
def posted : History System Action → List Event
  | [] => []
  | (_, a) :: h => posted h ++ a.posts settings

/-- The events that the steps of a run handle, in order. -/
def handledEvents : History System Action → List Event
  | [] => []
  | (s, a) :: h => handledEvents h ++ (s.handled a).toList

/-- An event was handled if some step has handled it. -/
theorem mem_handledEvents {h : History System Action} {e : Event} :
    e ∈ handledEvents h ↔ ∃ x ∈ h, x.1.handled x.2 = some e := by
  induction h with
  | nil => simp [handledEvents]
  | cons x h ih =>
    rw [handledEvents, List.mem_append, ih, Option.mem_toList]
    simp only [List.mem_cons, exists_eq_or_imp]
    exact or_comm

/-- Events are handled in the order in which they were posted, each once. -/
theorem Runs.posted_eq {h : History System Action} {s : System} (hr : Runs settings h s) :
    posted settings h = handledEvents h ++ s.eventQueue := by
  induction hr with
  | start => rfl
  | next hr ha ih =>
    rw [posted, handledEvents, ih, List.append_assoc, List.append_assoc,
      eventQueue_step settings ha]

/-- The message of an event of an interactor. -/
def messageFrom (i : Guid) : Event → Option Message
  | .message j message => if j = i then some message else none
  | _ => none

end System

/-! ### How the tasks hang together -/

namespace Interactor

/-- One of the tasks has left its loop. -/
def HasEnded (o : Interactor) : Prop :=
  (o.readTask = .ending ∨ o.readTask = .completed) ∨
    (o.writeTask = .ending ∨ o.writeTask = .completed)

/-- The token is cancelled by the first task that completes, and disposed when both have;
the first task that leaves its loop has reported an error, which is on the event queue
until the interactor is disposed. -/
structure Sound (o : Interactor) (isReported : Prop) : Prop where
  live : o.tokenSource = .live → o.readTask ≠ .completed ∧ o.writeTask ≠ .completed
  cancelled : o.tokenSource ≠ .live → o.readTask = .completed ∨ o.writeTask = .completed
  disposed : o.tokenSource = .disposed → o.readTask = .completed ∧ o.writeTask = .completed
  reported : o.HasEnded → o.tokenSource = .disposed ∨ isReported
  reports : isReported → o.HasEnded

private theorem sound_unstarted : Sound {} False := by
  constructor <;> simp [HasEnded]

private theorem sound_disposed (o : Interactor) (isReported : Prop)
    (hr : o.readTask = .completed) (hw : o.writeTask = .completed)
    (ht : o.tokenSource = .disposed) : o.Sound isReported := by
  constructor <;> simp [HasEnded, hr, hw, ht]

private theorem Sound.congr {o o' : Interactor} {p q : Prop} (hs : o.Sound p)
    (ho : System.SameTasks o o') (hpq : p ↔ q) : o'.Sound q := by
  obtain ⟨-, hr, hw, ht⟩ := ho
  obtain ⟨hl, hc, hd, hrep, hreps⟩ := hs
  simp only [HasEnded, ← hr, ← hw, ← ht] at hl hc hd hrep hreps
  exact ⟨hl, hc, hd, fun h => (hrep h).imp_right hpq.mp, fun h => hreps (hpq.mpr h)⟩

private theorem Sound.taskStep {o o' : Interactor} {isReported : Prop} {a : Action}
    (hs : o.Sound isReported) (h : o.taskStep a = some o') :
    o'.Sound (isReported ∨ ∃ i error, a = .readError i error ∨ a = .writeError i error) := by
  obtain ⟨hl, hc, hd, hr, hrs⟩ := hs
  simp only [HasEnded] at hr hrs
  cases a with
  | accept i => cases h
  | heartbeat => cases h
  | process => cases h
  | checkWrite i =>
    obtain ⟨ht, h⟩ := Option.ite_none_right_eq_some.mp h
    split at h
    · cases h
    · cases h
      constructor <;> simp only [HasEnded] <;> grind
    · cases h
      have hlive : o.tokenSource ≠ .live := by
        intro hk
        cases hq : o.writeQueue <;> grind
      constructor <;> simp only [HasEnded] <;> grind
  | endRead i =>
    obtain ⟨ht, ⟨⟩⟩ := Option.ite_none_right_eq_some.mp h
    cases hk : o.tokenSource <;> constructor <;> simp only [HasEnded, TokenSource.cancel] <;> grind
  | endWrite i =>
    obtain ⟨ht, ⟨⟩⟩ := Option.ite_none_right_eq_some.mp h
    cases hk : o.tokenSource <;> constructor <;> simp only [HasEnded, TokenSource.cancel] <;> grind
  | _ =>
    obtain ⟨ht, ⟨⟩⟩ := Option.ite_none_right_eq_some.mp h
    constructor <;> simp only [HasEnded] <;> grind

end Interactor

namespace System

variable (settings : Settings)

/-- An event that disposes the interactor is on the event queue. -/
def IsReported (s : System) (c : Guid) : Prop := ∃ e ∈ s.eventQueue, e.disposes = some c

private theorem isReported_step {s s' : System} {a : Action} (h : step settings s a = some s')
    (c : Guid) (hd : ∀ e, s.handled a = some e → e.disposes ≠ some c) :
    s'.IsReported c ↔ s.IsReported c ∨ ∃ e ∈ a.posts settings, e.disposes = some c := by
  have hq := eventQueue_step settings h
  have hmem : ∀ e, e ∈ s.eventQueue ∨ e ∈ a.posts settings ↔
      e ∈ (s.handled a).toList ∨ e ∈ s'.eventQueue := by
    intro e
    rw [← List.mem_append, hq, List.mem_append]
  constructor
  · rintro ⟨e, he, hdc⟩
    exact ((hmem e).mpr (.inr he)).imp (fun he => ⟨e, he, hdc⟩) fun he => ⟨e, he, hdc⟩
  · have hsub : ∀ e, e ∈ s.eventQueue ∨ e ∈ a.posts settings → e.disposes = some c →
        s'.IsReported c := by
      intro e he hdc
      rcases (hmem e).mp he with hh | he'
      · exact absurd hdc (hd e (Option.mem_toList.mp hh))
      · exact ⟨e, he', hdc⟩
    rintro (⟨e, he, hdc⟩ | ⟨e, he, hdc⟩)
    · exact hsub e (.inl he) hdc
    · exact hsub e (.inr he) hdc

private theorem posts_disposes {a : Action} {c : Guid} :
    (∃ e ∈ a.posts settings, e.disposes = some c) ↔
      a.task = some c ∧ ∃ i error, a = .readError i error ∨ a = .writeError i error := by
  cases a <;> simp [Action.posts, Event.disposes, Action.task]

/-- The tasks of every interactor hang together. -/
def Sound (s : System) : Prop := ∀ c, (s.server.objects c).Sound (s.IsReported c)

private theorem sound_step {s s' : System} {a : Action} (h : step settings s a = some s')
    (hl : Lifecycle settings s) (hs : s.Sound) : s'.Sound := by
  intro c
  rcases object_step settings h hl c with
    ⟨ht, ho⟩ | ⟨e, -, -, -, ho⟩ | ⟨hh, ho⟩ | ⟨ht, hh, ho⟩
  · have hn : s.handled a = none := by
      cases a with
      | process => cases ht
      | _ => rfl
    refine ((hs c).taskStep ho).congr (.refl _) ?_
    rw [isReported_step settings h c (by simp [hn]), posts_disposes settings]
    simp only [ht, true_and]
  · exact Interactor.sound_disposed _ _ ho.readTask ho.writeTask ho.tokenSource
  · have hq : .connected c ∈ s.eventQueue := by
      cases a with
      | process => exact List.mem_of_head? hh
      | _ => cases hh
    have hread := (hl.connecting c hq).2
    have hwrite := (hl.unstarted c).mp hread
    have hn : ¬ s.IsReported c := by
      intro hr
      have he := (hs c).reports hr
      simp [Interactor.HasEnded, hread, hwrite] at he
    have hn' : ¬ s'.IsReported c := by
      rw [isReported_step settings h c (by simp [hh, Event.disposes]), posts_disposes settings]
      rintro (hr | ⟨ht, -⟩)
      · exact hn hr
      · cases a with
        | process => cases ht
        | _ => cases hh
    have ht' := ho.tokenSource.trans (hl.fresh c hread)
    constructor <;> simp [Interactor.HasEnded, ho.readTask, ho.writeTask, ht', hn']
  · refine (hs c).congr ho ?_
    rw [isReported_step settings h c fun e he => (hh e he).1, posts_disposes settings]
    simp [ht]

/-- In every run the tasks hang together. -/
theorem Runs.sound {h : History System Action} {s : System} (hr : Runs settings h s) :
    s.Sound := by
  induction hr with
  | start =>
    intro c
    exact Interactor.sound_unstarted.congr (.refl _) (by simp [IsReported, init])
  | next hr ha ih => exact sound_step settings ha (Runs.lifecycle settings hr) ih

/-- An interactor that was accepted and not started waits on the event queue. -/
theorem Runs.awaits {h : History System Action} {s : System} (hr : Runs settings h s) :
    ∀ c ∈ s.accepted, (s.server.objects c).readTask = .unstarted →
      .connected c ∈ s.eventQueue := by
  induction hr with
  | start => simp [init]
  | next hr ha ih =>
    intro c hc hu
    rcases step_cases settings ha with ⟨e, es, rfl, hq, -, -, rfl⟩ | ⟨-, hq⟩
    · have he := List.mem_of_head? (a := e) (congrArg List.head? hq)
      rcases object_onInteractorEvent settings (Runs.lifecycle settings hr) he c with
        ⟨-, hsame⟩ | ⟨-, hsame⟩ | ⟨-, hcon, hsame⟩
      · cases hsame.readTask.symm.trans hu
      · cases hsame.readTask.symm.trans hu
      · have hm := ih c hc (hsame.readTask.symm.trans hu)
        rw [hq, List.mem_cons] at hm
        exact hm.resolve_left (Ne.symm hcon)
    · have hu' := (hq.quiet.object c).unread.mp hu
      rcases hq.queue with ⟨i, -, -, hacc, hq⟩ | ⟨hacc, hq⟩
      · rw [hacc, List.mem_cons] at hc
        rw [hq, List.mem_append, List.mem_singleton]
        rcases hc with rfl | hc
        · exact .inr rfl
        · exact .inl (ih c hc hu')
      · have hm := ih c (hacc ▸ hc) hu'
        rcases hq with hq | ⟨e, hq, -⟩
        · exact hq ▸ hm
        · exact hq ▸ List.mem_append_left _ hm

end System

end MessageBus.Distributor

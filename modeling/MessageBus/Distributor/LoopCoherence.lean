import MessageBus.Distributor.EventLoop

/-!
# How the event loop and the tasks hang together

In every state of the event loop its phase, the status of the tasks in the thread pool and the
system fit each other, and every task whose token was cancelled before it was started has been
canceled.
-/

namespace MessageBus.Distributor
open MessageBus.Base MessageBus.Common MessageBus.Messages

/-- The interactor whose task steps. -/
theorem Action.task_of_worker {a : Action} {kind : TaskKind} {i : Guid}
    (h : a.worker = some (kind, i)) : a.task = some i := by
  cases a <;> cases h <;> rfl

namespace EventLoop

variable (settings : Settings)

/-! ### What hangs together -/

/-- Tasks and phase fit the system: no interactor is started but by its connection, a canceled
task is over, and what is disposed is named by the event at the head of the queue. -/
structure Coherent (s : EventLoop) : Prop where
  lifecycle : System.Lifecycle settings s.system
  fresh : ∀ kind i, (s.object i).readTask = .unstarted → s.status kind i = .created
  created : ∀ kind i, s.status kind i = .created →
    (s.object i).readTask = .unstarted ∨ kind = .write ∧ s.phase = .starting i
  canceled : ∀ kind i, s.status kind i = .canceled →
    (s.object i).stage kind = .completed ∧ (s.object i).tokenSource ≠ .live
  starting : ∀ i, s.phase = .starting i → (s.object i).readTask ≠ .unstarted ∧
    (s.status .write i = .created ∨ s.status .write i = .canceled)
  disposing : ∀ i, s.phase.disposes = some i →
    s.system.eventQueue.head?.bind Event.disposes = some i ∧ (s.object i).tokenSource ≠ .live
  passed : ∀ kind i, s.phase.HasPassed kind i → (s.object i).stage kind = .completed

/-- No task waits to be started whose token is not live. -/
def Notified (s : EventLoop) : Prop :=
  ∀ kind i, s.status kind i = .created → (s.object i).tokenSource = .live

/-- All hangs together at the start. -/
theorem coherent_init : Coherent settings init := by
  refine ⟨System.lifecycle_init settings, fun _ _ _ => rfl, fun _ _ _ => .inl rfl, ?_, ?_, ?_, ?_⟩
  · rintro kind i ⟨⟩
  · rintro i ⟨⟩
  · rintro i ⟨⟩
  · rintro kind i h
    cases kind <;> cases h

variable {settings}

/-- What a task does to the system keeps it all together, where no task that is over comes
back. -/
theorem Coherent.of_taskOnly {s : EventLoop} (hs : Coherent settings s) {t : System}
    (ht : System.TaskOnly settings s.system t)
    (hover : ∀ kind i, (s.object i).stage kind = .completed →
      (t.server.objects i).stage kind = .completed) :
    Coherent settings { s with system := t } := by
  have hdead (i : Guid) (h : (s.object i).tokenSource ≠ .live) :
      (t.server.objects i).tokenSource ≠ .live := fun hl => h ((ht.quiet.object i).live hl)
  have hhead (e : Event) (h : s.system.eventQueue.head? = some e) :
      t.eventQueue.head? = some e := by
    cases hq : s.system.eventQueue with
    | nil =>
      rw [hq] at h
      cases h
    | cons e' es =>
      rw [hq] at h
      rcases ht.queue with ⟨_, -, -, -, hq'⟩ | ⟨-, hq' | ⟨_, hq', -⟩⟩ <;> rw [hq', hq] <;> exact h
  constructor
  · exact System.lifecycle_taskOnly settings hs.lifecycle ht
  · exact fun kind i h => hs.fresh kind i ((ht.quiet.object i).unread.mp h)
  · exact fun kind i h => (hs.created kind i h).imp_left (ht.quiet.object i).unread.mpr
  · intro kind i h
    obtain ⟨hstage, htoken⟩ := hs.canceled kind i h
    exact ⟨hover kind i hstage, hdead i htoken⟩
  · exact fun i h => ⟨fun hr => (hs.starting i h).1 ((ht.quiet.object i).unread.mp hr),
      (hs.starting i h).2⟩
  · intro i h
    obtain ⟨hq, htoken⟩ := hs.disposing i h
    obtain ⟨e, he, hd⟩ := Option.bind_eq_some_iff.mp hq
    exact ⟨Option.bind_eq_some_iff.mpr ⟨e, hhead e he, hd⟩, hdead i htoken⟩
  · exact fun kind i h => hover kind i (hs.passed kind i h)

private theorem modify_taskOnly (s : System) (i : Guid) (f : Interactor → Interactor)
    (h : System.TaskStep (s.server.objects i) (f (s.server.objects i))) :
    System.TaskOnly settings s (s.modify i f) := by
  refine ⟨⟨rfl, rfl, rfl, rfl, fun c => ?_⟩, rfl, .inr ⟨rfl, .inl rfl⟩⟩
  simp only [System.modify, Interactors.modify_apply]
  split
  · next hc =>
    subst hc
    exact h
  · exact .refl _

/-- A status that a task is given keeps it all together, where the task was started. -/
theorem Coherent.setStatus {s : EventLoop} (hs : Coherent settings s) {kind : TaskKind} {i : Guid}
    {status : TaskStatus} (hstarted : (s.object i).readTask ≠ .unstarted)
    (hnew : status ≠ .created)
    (hcanceled : status = .canceled →
      (s.object i).stage kind = .completed ∧ (s.object i).tokenSource ≠ .live)
    (hstarting : s.phase = .starting i → kind = .read ∨ status = .canceled) :
    Coherent settings (s.setStatus kind i status) := by
  constructor
  · exact hs.lifecycle
  · intro kind' c h
    rw [status_setStatus, if_neg]
    · exact hs.fresh kind' c h
    · rintro ⟨-, rfl⟩
      exact hstarted h
  · intro kind' c h
    rw [status_setStatus] at h
    split at h
    · exact absurd h hnew
    · exact hs.created kind' c h
  · intro kind' c h
    rw [status_setStatus] at h
    split at h
    · next hk =>
      obtain ⟨rfl, rfl⟩ := hk
      exact hcanceled h
    · exact hs.canceled kind' c h
  · intro c h
    refine ⟨(hs.starting c h).1, ?_⟩
    rw [status_setStatus]
    split
    · next hk =>
      obtain ⟨rfl, rfl⟩ := hk
      exact .inr ((hstarting h).resolve_left (by simp))
    · exact (hs.starting c h).2
  · exact hs.disposing
  · exact hs.passed

/-- A task of a started interactor may be canceled, where the token is not live. -/
theorem Coherent.abandon {s : EventLoop} (hs : Coherent settings s) {kind : TaskKind} {i : Guid}
    (hstarted : (s.object i).readTask ≠ .unstarted) (ht : (s.object i).tokenSource ≠ .live) :
    Coherent settings (s.abandon kind i) := by
  have hwrite : (s.object i).writeTask ≠ .unstarted :=
    fun h => hstarted ((hs.lifecycle.unstarted i).mpr h)
  have htask : System.TaskOnly settings s.system (s.system.modify i (·.complete kind)) := by
    apply modify_taskOnly
    refine ⟨?_, ?_, fun h => ?_, ?_, ?_, fun h => absurd h hstarted⟩
    · cases kind <;> rfl
    · cases kind <;> rfl
    · rwa [tokenSource_complete] at h
    · refine iff_of_false ?_ hstarted
      cases kind
      · simp [Interactor.complete]
      · exact hstarted
    · refine iff_of_false ?_ hwrite
      cases kind
      · exact hwrite
      · simp [Interactor.complete]
  have hmodified : Coherent settings
      { s with system := s.system.modify i (·.complete kind) } := by
    refine hs.of_taskOnly htask fun kind' c h => ?_
    have hc := stage_abandon s kind kind' i c
    rw [h, ite_self] at hc
    exact hc
  refine hmodified.setStatus ?_ (by simp) (fun _ => ⟨?_, ?_⟩) fun _ => .inr rfl
  · exact fun h => hstarted ((htask.quiet.object i).unread.mp h)
  · have hc := stage_abandon s kind kind i i
    rwa [if_pos ⟨rfl, rfl⟩] at hc
  · exact fun h => ht ((htask.quiet.object i).live h)

private theorem Coherent.callback {s : EventLoop} (hs : Coherent settings s) (kind : TaskKind)
    (i : Guid) : Coherent settings (s.callback kind i) := by
  unfold EventLoop.callback
  split
  · next h => exact hs.abandon (fun hr => h.2 (hs.lifecycle.fresh i hr)) h.2
  · exact hs

/-- The callbacks of a token keep it all together. -/
theorem Coherent.callbacks {s : EventLoop} (hs : Coherent settings s) (i : Guid) :
    Coherent settings (s.callbacks i) := (hs.callback .read i).callback .write i

/-- The callbacks notify the tasks of their interactor. -/
theorem notified_callbacks {s : EventLoop} {i : Guid}
    (h : ∀ kind j, j ≠ i → s.status kind j = .created → (s.object j).tokenSource = .live) :
    Notified (s.callbacks i) := by
  intro kind j hstatus
  rw [tokenSource_callbacks]
  rw [status_callbacks] at hstatus
  by_cases hj : j = i
  · subst hj
    by_contra hl
    by_cases hc : s.status kind j = .created
    · rw [if_pos ⟨rfl, hc, hl⟩] at hstatus
      cases hstatus
    · rw [if_neg fun h => hc h.2.1] at hstatus
      exact hc hstatus
  · rw [if_neg fun h => hj h.1] at hstatus
    exact h kind j hj hstatus

/-- Tasks that are as they were have come as far. -/
theorem SameTasks.stage {o o' : Interactor} (h : System.SameTasks o o')
    (kind : TaskKind) : o'.stage kind = o.stage kind := by
  cases kind
  · simp only [Interactor.stage, h.readTask]
  · simp only [Interactor.stage, h.writeTask]

/-- The tasks of what is disposed are over. -/
theorem stage_dispose (o : Interactor) (kind : TaskKind) :
    o.dispose.stage kind = .completed := by
  cases kind <;> rfl

/-- An event of the queue that disposes an interactor is about one that was started. -/
theorem Coherent.started_of_disposes {s : EventLoop} (hs : Coherent settings s) {e : Event}
    (he : e ∈ s.system.eventQueue) {i : Guid} (hd : e.disposes = some i) :
    (s.object i).readTask ≠ .unstarted := by
  have hi : e.interactor = i := by
    cases e <;> cases hd <;> rfl
  rintro h
  rcases hs.lifecycle.event_of_unstarted settings he (hi ▸ h) with h | h
  · rw [h] at hd
    cases hd
  · rw [h] at hd
    cases hd

/-- What a handler does to the tasks and the token of an interactor. -/
theorem Coherent.object_handle {s : EventLoop} (hs : Coherent settings s) {e : Event}
    {es : List Event} (hq : s.system.eventQueue = e :: es) (hc : ∀ i, e ≠ .connected i) (c : Guid) :
    (e.disposes = some c ∧
        System.SameTasks (s.object c).dispose ((s.handle settings e es).object c)) ∨
      e.disposes ≠ some c ∧ System.SameTasks (s.object c) ((s.handle settings e es).object c) := by
  have he : e ∈ s.system.eventQueue := hq ▸ List.mem_cons_self ..
  rcases System.object_onInteractorEvent settings hs.lifecycle he c with h | ⟨h, -⟩ | ⟨hd, -, h⟩
  · exact .inl h
  · exact absurd h (hc c)
  · exact .inr ⟨hd, h⟩

/-- The handler of an event that connects no one leaves it all together. -/
theorem Coherent.handle {s : EventLoop} (hs : Coherent settings s) {e : Event} {es : List Event}
    (hq : s.system.eventQueue = e :: es) (hp : ∀ i, s.phase ≠ .starting i)
    (hc : ∀ i, e ≠ .connected i) : Coherent settings (s.handle settings e es) := by
  have hobj := hs.object_handle hq hc
  have he : e ∈ s.system.eventQueue := hq ▸ List.mem_cons_self ..
  constructor
  · exact System.lifecycle_handle settings hs.lifecycle hq
  · intro kind c h
    rcases hobj c with ⟨-, hsame⟩ | ⟨-, hsame⟩
    · rw [hsame.readTask] at h
      cases h
    · exact hs.fresh kind c (hsame.readTask ▸ h)
  · intro kind c h
    have hu := (hs.created kind c h).resolve_right fun hx => hp c hx.2
    rcases hobj c with ⟨hd, -⟩ | ⟨-, hsame⟩
    · exact absurd hu (hs.started_of_disposes he hd)
    · exact .inl (hsame.readTask.trans hu)
  · intro kind c h
    obtain ⟨hstage, htoken⟩ := hs.canceled kind c h
    rcases hobj c with ⟨-, hsame⟩ | ⟨-, hsame⟩
    · rw [SameTasks.stage hsame, stage_dispose, hsame.tokenSource]
      exact ⟨rfl, by simp [Interactor.dispose]⟩
    · rw [SameTasks.stage hsame, hsame.tokenSource]
      exact ⟨hstage, htoken⟩
  · rintro c ⟨⟩
  · rintro c ⟨⟩
  · intro kind c h
    cases kind <;> cases h

/-- The handler of an event that connects no one leaves the tasks notified. -/
theorem Notified.handle {s : EventLoop} (hn : Notified s) (hs : Coherent settings s) {e : Event}
    {es : List Event} (hq : s.system.eventQueue = e :: es) (hp : ∀ i, s.phase ≠ .starting i)
    (hc : ∀ i, e ≠ .connected i) : Notified (s.handle settings e es) := by
  intro kind c h
  have he : e ∈ s.system.eventQueue := hq ▸ List.mem_cons_self ..
  rcases hs.object_handle hq hc c with ⟨hd, -⟩ | ⟨-, hsame⟩
  · have hu := (hs.created kind c h).resolve_right fun hx => hp c hx.2
    exact absurd hu (hs.started_of_disposes he hd)
  · exact hsame.tokenSource.trans (hn kind c h)

/-- `Dispose` goes on to another phase. -/
theorem Coherent.withPhase {s : EventLoop} (hs : Coherent settings s) {p : Phase}
    (hold : ∀ i, s.phase ≠ .starting i) (hnew : ∀ i, p ≠ .starting i)
    (hd : ∀ i, p.disposes = some i → s.phase.disposes = some i)
    (hpassed : ∀ kind i, p.HasPassed kind i → (s.object i).stage kind = .completed) :
    Coherent settings { s with phase := p } := by
  refine ⟨hs.lifecycle, hs.fresh, ?_, hs.canceled, ?_, ?_, hpassed⟩
  · exact fun kind i h => .inl ((hs.created kind i h).resolve_right fun hx => hold i hx.2)
  · exact fun i h => absurd h (hnew i)
  · exact fun i h => hs.disposing i (hd i h)

/-- `Dispose` goes on after a task that is over. -/
theorem Coherent.after {s : EventLoop} (hs : Coherent settings s) {kind : TaskKind} {i : Guid}
    (hp : s.phase = .testing kind i ∨ s.phase = .waiting kind i)
    (hover : (s.object i).stage kind = .completed) :
    Coherent settings { s with phase := .after kind i } := by
  refine hs.withPhase ?_ ?_ ?_ ?_
  · rcases hp with hp | hp <;> simp [hp]
  · cases kind <;> simp [Phase.after]
  · intro j hj
    rcases hp with hp | hp <;> rw [hp] <;> cases kind <;> exact hj
  · intro kind' j hj
    obtain ⟨rfl, hk⟩ := Phase.hasPassed_after.mp hj
    by_cases hkind : kind' = kind
    · rw [hkind]
      exact hover
    · have hread : kind' = .read := by
        rw [hk.resolve_left hkind] at hkind
        cases kind' <;> simp_all
      refine hs.passed kind' i ?_
      rcases hp with hp | hp <;> rw [hp, hk.resolve_left hkind, hread] <;> rfl

/-- Both tasks of an interactor are begun with the first. -/
theorem Coherent.stage_ne_unstarted {s : EventLoop} (hs : Coherent settings s) {i : Guid}
    (h : (s.object i).readTask ≠ .unstarted) (kind : TaskKind) :
    (s.object i).stage kind ≠ .unstarted := by
  intro hstage
  cases kind with
  | read => exact h (Interactor.readTask_of_stage hstage)
  | write => exact h ((hs.lifecycle.unstarted i).mpr (Interactor.writeTask_of_stage hstage))

/-- A task that waits for a worker was started. -/
theorem Coherent.started_of_waiting {s : EventLoop} (hs : Coherent settings s) {kind : TaskKind}
    {i : Guid} (h : s.status kind i = .waitingToRun) : (s.object i).readTask ≠ .unstarted := by
  intro hr
  cases (hs.fresh kind i hr).symm.trans h

/-- A handler that throws ends the loop. -/
theorem Coherent.fault {s : EventLoop} (hs : Coherent settings s)
    (hp : ∀ i, s.phase = .starting i → s.status .write i = .canceled) :
    Coherent settings s.fault := by
  obtain ⟨h1, h2, h3, h4, h5, h6, h7, h8⟩ := hs.lifecycle
  refine ⟨⟨h1, h2, h3, h4, h5, h6, h7, h8⟩, hs.fresh, ?_, hs.canceled, ?_, ?_, ?_⟩
  · intro kind i h
    refine .inl ((hs.created kind i h).resolve_right ?_)
    rintro ⟨rfl, hx⟩
    exact absurd (h.symm.trans (hp i hx)) (by simp)
  · rintro i ⟨⟩
  · rintro i ⟨⟩
  · intro kind i h
    cases kind <;> cases h

-- The write task is started.
private theorem coherent_startWrite {s : EventLoop} (hs : Coherent settings s) {i : Guid}
    (hp : s.phase = .starting i) (hc : s.status .write i ≠ .canceled) :
    Coherent settings { s.setStatus .write i .waitingToRun with phase := .taking } := by
  refine ⟨hs.lifecycle, ?_, ?_, ?_, ?_, ?_, ?_⟩
  · intro kind c h
    simp only [status_setStatus]
    rw [if_neg]
    · exact hs.fresh kind c h
    · rintro ⟨-, rfl⟩
      exact (hs.starting c hp).1 h
  · intro kind c h
    simp only [status_setStatus] at h
    split at h
    · cases h
    · next hne =>
      refine .inl ((hs.created kind c h).resolve_right ?_)
      rintro ⟨rfl, hx⟩
      rw [hp] at hx
      cases hx
      exact hne ⟨rfl, rfl⟩
  · intro kind c h
    simp only [status_setStatus] at h
    split at h
    · cases h
    · exact hs.canceled kind c h
  · rintro c ⟨⟩
  · rintro c ⟨⟩
  · intro kind c h
    cases kind <;> cases h

/-! ### One turn -/

/-- The handler of the event that connects an interactor throws nothing, and starts its read
task. -/
theorem Coherent.connected {s : EventLoop} (hs : Coherent settings s) (hn : Notified s)
    {i : Guid} {es : List Event} (hq : s.system.eventQueue = .connected i :: es)
    (hp : s.phase = .taking) :
    (s.handle settings (.connected i) es).system.isRunning = true ∧
      s.status .write i = .created ∧
      Coherent settings ((s.handle settings (.connected i) es).startRead i) ∧
      Notified ((s.handle settings (.connected i) es).startRead i) := by
  have he : .connected i ∈ s.system.eventQueue := hq ▸ List.mem_cons_self ..
  have hread := (hs.lifecycle.connecting i he).2
  have hcreated : s.status .write i = .created := hs.fresh .write i hread
  have hthrown : (s.system.server.onInteractorEvent settings (.connected i)).2 = none :=
    (hs.lifecycle.throws_none_iff he).mpr (by simp)
  have hnew := System.tasks_of_connected settings hs.lifecycle he
  have hold (c : Guid) (hc : c ≠ i) :
      System.SameTasks (s.object c) ((s.handle settings (.connected i) es).object c) := by
    rcases System.object_onInteractorEvent settings hs.lifecycle he c with ⟨hd, -⟩ | ⟨h, -⟩ |
      ⟨-, -, h⟩
    · cases hd
    · exact absurd (Event.connected.inj h).symm hc
    · exact h
  refine ⟨Option.isNone_iff_eq_none.mpr hthrown, hcreated, ?_, ?_⟩
  · constructor
    · exact System.lifecycle_handle settings hs.lifecycle hq
    · intro kind c h
      have hc : c ≠ i := by
        rintro rfl
        exact absurd (hnew.1.symm.trans h) (by simp)
      have hstatus := hs.fresh kind c ((hold c hc).readTask ▸ h)
      simpa [hc] using hstatus
    · intro kind c h
      by_cases hc : c = i
      · subst hc
        cases kind with
        | read => simp at h
        | write => exact .inr ⟨rfl, rfl⟩
      · have hstatus : s.status kind c = .created := by simpa [hc] using h
        refine .inl ((hold c hc).readTask.trans ((hs.created kind c hstatus).resolve_right ?_))
        rintro ⟨-, hx⟩
        rw [hp] at hx
        cases hx
    · intro kind c h
      have hc : c ≠ i := by
        rintro rfl
        cases kind with
        | read => simp at h
        | write =>
          have hx : s.status .write c = .canceled := by simpa using h
          rw [hcreated] at hx
          cases hx
      obtain ⟨hstage, htoken⟩ := hs.canceled kind c (by simpa [hc] using h)
      exact ⟨(SameTasks.stage (hold c hc) kind).trans hstage,
        fun hl => htoken ((hold c hc).tokenSource.symm.trans hl)⟩
    · rintro c ⟨⟩
      refine ⟨?_, .inl (by simpa using hcreated)⟩
      intro hx
      exact absurd (hnew.1.symm.trans hx) (by simp)
    · rintro c ⟨⟩
    · intro kind c h
      cases kind <;> cases h
  · intro kind c h
    by_cases hc : c = i
    · subst hc
      exact hnew.2.2
    · have hstatus : s.status kind c = .created := by simpa [hc] using h
      exact (hold c hc).tokenSource.trans (hn kind c hstatus)

-- The event that disposes an interactor cancels its token.
private theorem coherent_disposing {s : EventLoop} (hs : Coherent settings s) (hn : Notified s)
    {e : Event} {es : List Event} {i : Guid} (hq : s.system.eventQueue = e :: es)
    (hd : e.disposes = some i) (hp : s.phase = .taking) :
    Coherent settings ((s.cancel i).callbacks i) ∧ Notified ((s.cancel i).callbacks i) := by
  have he : e ∈ s.system.eventQueue := hq ▸ List.mem_cons_self ..
  have hstarted := hs.started_of_disposes he hd
  have htask : System.TaskOnly settings s.system
      (s.system.modify i fun o => { o with tokenSource := o.tokenSource.cancel }) := by
    apply modify_taskOnly
    refine ⟨rfl, rfl, fun h => ?_, Iff.rfl, Iff.rfl, fun h => absurd h hstarted⟩
    exact absurd h (cancel_ne_live _)
  have hcancelled := hs.of_taskOnly htask fun kind c h => by
    simp only [System.modify, Interactors.modify_apply]
    split
    · next hc =>
      subst hc
      rw [← h]
      cases kind <;> rfl
    · exact h
  have hcancel : Coherent settings (s.cancel i) := by
    refine ⟨hcancelled.lifecycle, hcancelled.fresh, ?_, hcancelled.canceled, ?_, ?_, ?_⟩
    · intro kind c h
      refine .inl ((hcancelled.created kind c h).resolve_right ?_)
      rintro ⟨-, hx⟩
      rw [hp] at hx
      cases hx
    · rintro c ⟨⟩
    · rintro c ⟨⟩
      refine ⟨by simp [cancel, System.modify, hq, hd], ?_⟩
      rw [object_cancel, if_pos rfl]
      exact cancel_ne_live _
    · intro kind c h
      cases kind <;> cases h
  refine ⟨hcancel.callbacks i, notified_callbacks fun kind j hj h => ?_⟩
  rw [object_cancel, if_neg hj]
  exact hn kind j h

/-- An acceptor and the timer put an event on the queue, and change no interactor. -/
theorem objects_of_no_worker {s t : System} {action : Action} (hw : action.worker = none)
    (hne : action ≠ .process) (h : s.step settings action = some t) :
    t.server = s.server ∧ t.isRunning = s.isRunning := by
  cases action with
  | accept i =>
    obtain ⟨-, ⟨⟩⟩ := Option.ite_none_left_eq_some.mp h
    exact ⟨rfl, rfl⟩
  | heartbeat =>
    cases h
    exact ⟨rfl, rfl⟩
  | process => exact absurd rfl hne
  | _ => cases hw

-- A step of a task, an acceptor or the timer, before the callbacks.
private theorem coherent_act {s : EventLoop} (hs : Coherent settings s) {action : Action}
    {t : System} (hne : action ≠ .process) (h : s.system.step settings action = some t) :
    Coherent settings { s with system := t } ∧
      ∀ j, action.task ≠ some j → t.server.objects j = s.object j := by
  have htask : System.TaskOnly settings s.system t := by
    rcases System.step_cases settings h with ⟨_, _, rfl, -⟩ | ⟨-, h⟩
    · exact absurd rfl hne
    · exact h
  cases hw : action.worker with
  | none =>
    have hobj : t.server.objects = s.system.server.objects :=
      congrArg Server.objects (objects_of_no_worker hw hne h).1
    refine ⟨hs.of_taskOnly htask fun kind c hc => ?_, fun j _ => congrFun hobj j⟩
    rw [hobj]
    exact hc
  | some w =>
    obtain ⟨kind, i⟩ := w
    have hi := Action.task_of_worker hw
    rw [System.step_task settings _ hi] at h
    obtain ⟨o, ho, rfl⟩ := Option.map_eq_some_iff.mp h
    constructor
    · refine hs.of_taskOnly htask fun kind' c hc => ?_
      rw [System.objects_afterTask, Function.update_apply]
      split
      · next hci =>
        subst hci
        by_cases hk : kind' = kind
        · subst hk
          rcases Interactor.stage_taskStep hw ho with ⟨hx, -⟩ | ⟨hx, -⟩ | ⟨hx, -⟩
          · cases hc.symm.trans hx
          · cases hc.symm.trans hx
          · cases hc.symm.trans hx
        · rw [Interactor.stage_taskStep_of_ne hw ho hk]
          exact hc
      · exact hc
    · intro j hj
      rw [System.objects_afterTask, Function.update_of_ne]
      · rfl
      · rintro rfl
        exact hj hi

/-- Every turn keeps it all together. -/
theorem Coherent.step {s t : EventLoop} {a : Turn} (hs : Coherent settings s) (hn : Notified s)
    (h : step settings s a = some t) : Coherent settings t ∧ Notified t := by
  cases turned_of_step settings h with
  | @task action kind i u hw _ hu =>
    obtain ⟨hc, hobj⟩ := coherent_act hs (by rintro rfl; cases hw) hu
    refine ⟨hc.callbacks i, notified_callbacks fun kind' j hj hstatus => ?_⟩
    rw [object, hobj j (by
      rw [Action.task_of_worker hw]
      exact fun h => hj (Option.some.inj h).symm)]
    exact hn kind' j hstatus
  | @other action u hw hne hu =>
    obtain ⟨hc, hobj⟩ := coherent_act hs hne hu
    refine ⟨hc, fun kind j hstatus => ?_⟩
    rw [object, hobj j (by cases action <;> simp_all [Action.worker, Action.task])]
    exact hn kind j hstatus
  | @run kind i hw _ =>
    refine ⟨hs.setStatus (hs.started_of_waiting hw) (by simp) (by simp) fun hp => ?_,
      fun kind' j hj => ?_⟩
    · cases kind with
      | read => exact .inl rfl
      | write => rcases (hs.starting i hp).2 with h | h <;> rw [h] at hw <;> cases hw
    · rw [status_setStatus] at hj
      split at hj
      · cases hj
      · exact hn kind' j hj
  | @abandon kind i hw hl =>
    refine ⟨hs.abandon (hs.started_of_waiting hw) hl, fun kind' j hj => ?_⟩
    rw [tokenSource_abandon]
    refine hn kind' j ?_
    simp only [EventLoop.abandon, status_setStatus] at hj
    split at hj
    · cases hj
    · exact hj
  | connect _ hp hq =>
    obtain ⟨hrun, -, hc, hn⟩ := hs.connected hn hq hp
    rw [take, if_pos hrun]
    exact ⟨hc, hn⟩
  | dispose _ hp hq hd => exact coherent_disposing hs hn hq hd hp
  | message _ hp hq =>
    have hstarting : ∀ i, s.phase ≠ .starting i := by simp [hp]
    exact ⟨hs.handle hq hstarting (by simp), hn.handle hs hq hstarting (by simp)⟩
  | startFault _ hp hc =>
    refine ⟨hs.fault fun j hj => ?_, hn⟩
    rw [hp] at hj
    cases hj
    exact hc
  | startWrite _ hp hc =>
    refine ⟨coherent_startWrite hs hp hc, fun kind c hx => ?_⟩
    simp only [status_setStatus] at hx
    split at hx
    · cases hx
    · exact hn kind c hx
  | skip _ hp hc => exact ⟨hs.after (.inl hp) (hs.canceled _ _ hc).1, hn⟩
  | @wait kind i _ hp _ =>
    refine ⟨hs.withPhase (by simp [hp]) (by simp) (by rw [hp]; exact fun _ => id) ?_, hn⟩
    intro kind' j hj
    refine hs.passed kind' j ?_
    rw [hp]
    cases kind <;> cases kind' <;> exact hj
  | waitFault _ hp _ _ => exact ⟨hs.fault (by simp [hp]), hn⟩
  | pass _ hp hover _ => exact ⟨hs.after (.inr hp) hover, hn⟩
  | @close i e es _ hp hq =>
    have hne : ∀ j, e ≠ .connected j := by
      rintro j rfl
      have hd := (hs.disposing i (by rw [hp]; rfl)).1
      rw [hq] at hd
      cases hd
    exact ⟨hs.handle hq (by simp [hp]) hne, hn.handle hs hq (by simp [hp]) hne⟩

end EventLoop

end MessageBus.Distributor

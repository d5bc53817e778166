import MessageBus.Distributor.Handlers

/-!
# The event loop refines the distributor

In a run of the event loop, whose handlers take many turns, the distributor goes through one of
the runs in which a handler takes one step. While the event loop disposes an interactor it may
have cancelled the token before the task that reported the error did: in the matching run this
task has then ended. A task that is canceled has run there, to no effect.
-/

namespace MessageBus.Distributor
open MessageBus.Base MessageBus.Common MessageBus.Messages

namespace EventLoop

variable {settings : Settings}

/-! ### Tasks that have not begun -/

/-- A task that has not begun is at the test of its loop, if its interactor was started. -/
def Untaken (s : EventLoop) : Prop :=
  ∀ kind i, s.status kind i = .created ∨ s.status kind i = .waitingToRun →
    (s.object i).stage kind = .unstarted ∨ (s.object i).stage kind = .checking

-- A turn that takes no task back keeps the tasks that have not begun where they were.
private theorem Untaken.of_same {s t : EventLoop} (hu : Untaken s)
    (h : ∀ kind i, t.status kind i = .created ∨ t.status kind i = .waitingToRun →
      (s.status kind i = .created ∨ s.status kind i = .waitingToRun) ∧
        (t.object i).stage kind = (s.object i).stage kind) : Untaken t := by
  intro kind i hstatus
  obtain ⟨hold, hstage⟩ := h kind i hstatus
  rw [hstage]
  exact hu kind i hold

private theorem Untaken.callbacks {s : EventLoop} (hu : Untaken s) (i : Guid) :
    Untaken (s.callbacks i) := by
  refine hu.of_same fun kind j hstatus => ?_
  rw [status_callbacks] at hstatus
  rw [stage_callbacks]
  split at hstatus
  · rcases hstatus with h | h <;> cases h
  · next hc => exact ⟨hstatus, if_neg hc⟩

private theorem Untaken.act {s : EventLoop} (hu : Untaken s) {action : Action} {kind : TaskKind}
    {i : Guid} (hw : action.worker = some (kind, i)) (hb : s.status kind i = .begun) {t : System}
    (ht : s.system.step settings action = some t) : Untaken { s with system := t } := by
  obtain ⟨ho, hother, -⟩ := object_act hw ht
  refine hu.of_same fun kind' j hstatus => ⟨hstatus, ?_⟩
  by_cases hj : j = i
  · subst hj
    have hne : kind' ≠ kind := by
      rintro rfl
      rcases hstatus with h | h <;> cases hb.symm.trans h
    exact Interactor.stage_taskStep_of_ne hw ho hne
  · exact congrArg (·.stage kind') (hother j hj)

private theorem Untaken.handle {s : EventLoop} (hu : Untaken s) (hs : Coherent settings s)
    {e : Event} {es : List Event} (hq : s.system.eventQueue = e :: es)
    (hp : ∀ i, e.disposes = some i → ∀ kind, (s.object i).stage kind = .completed) :
    Untaken (s.handle settings e es) := by
  have he : e ∈ s.system.eventQueue := hq ▸ List.mem_cons_self ..
  intro kind c hstatus
  have hold := hu kind c hstatus
  rcases System.object_onInteractorEvent settings hs.lifecycle he c with ⟨hd, -⟩ | ⟨-, h⟩ |
    ⟨-, -, h⟩
  · rcases hold with h | h <;> cases (hp c hd kind).symm.trans h
  · refine .inr ((SameTasks.stage h kind).trans ?_)
    cases kind <;> rfl
  · have hstage : ((s.handle settings e es).object c).stage kind = (s.object c).stage kind :=
      SameTasks.stage h kind
    rw [hstage]
    exact hold

/-- Every turn leaves the tasks that have not begun at the test of their loops. -/
theorem Untaken.step {s t : EventLoop} {a : Turn} (hu : Untaken s) (hs : Coherent settings s)
    (hn : Notified s) (h : EventLoop.step settings s a = some t) : Untaken t := by
  cases turned_of_step settings h with
  | @task action kind i u hw hb ht => exact (hu.act hw hb ht).callbacks i
  | @other action u hw hne ht =>
    refine hu.of_same fun kind j hstatus => ⟨hstatus, ?_⟩
    rw [object, (objects_of_no_worker hw hne ht).1]
    rfl
  | @run kind i hw _ =>
    refine hu.of_same fun kind' j hstatus => ⟨?_, rfl⟩
    rw [status_setStatus] at hstatus
    split at hstatus
    · rcases hstatus with h | h <;> cases h
    · exact hstatus
  | @abandon kind i hw hl =>
    refine hu.of_same fun kind' j hstatus => ?_
    rw [stage_abandon]
    simp only [EventLoop.abandon, status_setStatus] at hstatus
    split at hstatus
    · rcases hstatus with h | h <;> cases h
    · next hne => exact ⟨hstatus, if_neg hne⟩
  | @connect i es _ hp hq =>
    obtain ⟨hrun, -⟩ := hs.connected hn hq hp
    rw [take, if_pos hrun]
    have hread := (hs.lifecycle.connecting i (hq ▸ List.mem_cons_self ..)).2
    have hhandled := hu.handle hs hq (by rintro j ⟨⟩)
    intro kind j hstatus
    rw [status_startRead] at hstatus
    split at hstatus
    · next hk =>
      obtain ⟨rfl, rfl⟩ := hk
      exact hhandled .read j (.inl (hs.fresh .read j hread))
    · exact hhandled kind j hstatus
  | @dispose e es i _ hp hq hd =>
    have hcancel : Untaken (s.cancel i) := by
      refine hu.of_same fun kind j hstatus => ⟨hstatus, ?_⟩
      rw [object_cancel]
      split
      · cases kind <;> rfl
      · rfl
    exact hcancel.callbacks i
  | message _ hp hq => exact hu.handle hs hq (by rintro j ⟨⟩)
  | startWrite _ hp hc =>
    refine hu.of_same fun kind j hstatus => ⟨?_, rfl⟩
    simp only [status_setStatus] at hstatus
    split at hstatus
    · next hk =>
      obtain ⟨rfl, rfl⟩ := hk
      exact .inl ((hs.starting _ hp).2.resolve_right hc)
    · exact hstatus
  | @close i e es _ hp hq =>
    refine hu.handle hs hq fun j hj kind => ?_
    have hd := (hs.disposing i (by rw [hp]; rfl)).1
    rw [hq, List.head?_cons, Option.bind_some, hj] at hd
    obtain rfl := Option.some.inj hd
    exact hs.passed kind j (by rw [hp]; rfl)
  | _ => exact hu

/-! ### The matching state -/

/-- An interactor of the matching state is as the event loop has it, or, while it is disposed or
when the loop has ended then, the task that reported the error has ended already. -/
def Matches (s : EventLoop) (i : Guid) (o : Interactor) : Prop :=
  o = s.object i ∨
    (s.phase.disposes = some i ∨ s.system.isRunning = false) ∧
      (s.object i).tokenSource ≠ .live ∧
      ∃ kind, (s.object i).stage kind = .ending ∧ o = (s.object i).complete kind

/-- The distributor with one step for each handler is where the event loop has it. -/
structure Follows (s : EventLoop) (t : System) : Prop where
  running : s.system.isRunning = true → t.isRunning = true
  eventQueue : t.eventQueue = s.system.eventQueue
  accepted : t.accepted = s.system.accepted
  server : t.server = { s.system.server with objects := t.server.objects }
  objects : ∀ i, s.Matches i (t.server.objects i)

/-- The event whose handler changes the repositories in a turn. -/
def handled (s : EventLoop) : Turn → Option Event
  | .goOn =>
    match s.phase with
    | .taking => s.system.eventQueue.head?.filter fun e => e.disposes.isNone
    | .closing _ => s.system.eventQueue.head?
    | _ => none
  | _ => none

/-- The events that the handlers of a run have handled, in order. -/
def handledEvents : History EventLoop Turn → List Event
  | [] => []
  | (s, a) :: h => handledEvents h ++ (s.handled a).toList

private theorem follows_of_eq {s : EventLoop} {t : System}
    (hr : s.system.isRunning = true → t.isRunning = true)
    (hq : t.eventQueue = s.system.eventQueue) (ha : t.accepted = s.system.accepted)
    (hserver : t.server = s.system.server) : Follows s t :=
  ⟨hr, hq, ha, by rw [hserver], fun i => .inl (congrFun (congrArg Server.objects hserver) i)⟩

-- Where nothing lags, the servers are one.
private theorem Follows.server_eq {s : EventLoop} {t : System} (hf : Follows s t)
    (h : ∀ i, t.server.objects i = s.object i) : t.server = s.system.server := by
  have hobjects : t.server.objects = s.system.server.objects := funext h
  rw [hf.server, hobjects]

private theorem Follows.server_of_taking {s : EventLoop} {t : System} (hf : Follows s t)
    (hr : s.system.isRunning = true) (hd : s.phase.disposes = none) :
    t.server = s.system.server := by
  refine hf.server_eq fun i => (hf.objects i).resolve_right ?_
  rintro ⟨h | h, -⟩
  · cases hd.symm.trans h
  · cases hr.symm.trans h

-- What changes neither the system nor what is disposed.
private theorem Follows.of_same {s s' : EventLoop} {t : System} (hf : Follows s t)
    (hsystem : s'.system = s.system) (hd : s'.phase.disposes = s.phase.disposes) :
    Follows s' t := by
  refine ⟨?_, ?_, ?_, ?_, fun i => ?_⟩
  · rw [hsystem]
    exact hf.running
  · rw [hsystem]
    exact hf.eventQueue
  · rw [hsystem]
    exact hf.accepted
  · rw [hsystem]
    exact hf.server
  · have hobject := hf.objects i
    unfold Matches object at hobject ⊢
    rw [hsystem, hd]
    exact hobject

-- A handler that throws ends the loop, and leaves the rest.
private theorem Follows.fault {s : EventLoop} {t : System} (hf : Follows s t) :
    Follows s.fault t := by
  refine ⟨fun h => (by cases h), hf.eventQueue, hf.accepted, hf.server, fun i => ?_⟩
  exact (hf.objects i).imp_right fun h => ⟨.inr rfl, h.2⟩

/-! ### Steps of the tasks -/

end EventLoop

namespace Interactor

-- A task that is over takes no part in the steps of the other.
private theorem taskStep_complete {o : Interactor} {a : Action} {kind other : TaskKind} {i : Guid}
    (ha : a.worker = some (kind, i)) (hne : other ≠ kind) :
    (o.complete other).taskStep a = (o.taskStep a).map (·.complete other) := by
  cases kind with
  | read =>
    obtain rfl : other = .write := by cases other <;> simp_all
    cases a <;> cases ha <;>
      simp only [taskStep, apply_ite (Option.map _), Option.map_some, Option.map_none] <;> rfl
  | write =>
    obtain rfl : other = .read := by cases other <;> simp_all
    cases a with
    | checkWrite j =>
      by_cases hc : o.writeTask = .checking
      · simp only [taskStep, complete, hc, ↓reduceIte]
        cases o.tokenSource with
        | live => cases o.writeQueue <;> rfl
        | _ => rfl
      · simp only [taskStep, complete, hc, ↓reduceIte, Option.map_none]
    | _ =>
      cases ha <;>
        simp only [taskStep, apply_ite (Option.map _), Option.map_some, Option.map_none] <;> rfl

private theorem complete_comm (o : Interactor) (kind kind' : TaskKind) :
    (o.complete kind).complete kind' = (o.complete kind').complete kind := by
  cases kind <;> cases kind' <;> rfl

end Interactor

namespace EventLoop

/-- The distributor goes on from the history `k`, handling the events, to where the event loop
is. -/
def LeadsOn (settings : Settings) (k : History System Action) (events : List Event)
    (s : EventLoop) : Prop :=
  ∃ k' t, System.Runs settings k' t ∧
    System.handledEvents k' = System.handledEvents k ++ events ∧ Follows s t

variable {k : History System Action} {t : System}

-- Nothing happens there.
private theorem LeadsOn.stutter (hk : System.Runs settings k t) {s : EventLoop}
    (hf : Follows s t) : LeadsOn settings k [] s := ⟨k, t, hk, (List.append_nil _).symm, hf⟩

-- One step that handles no event.
private theorem LeadsOn.next (hk : System.Runs settings k t) {a : Action} {t' : System}
    (ha : t.step settings a = some t') (hne : a ≠ .process) {s : EventLoop}
    (hf : Follows s t') : LeadsOn settings k [] s := by
  have hn : t.handled a = none := by
    cases a with
    | process => exact absurd rfl hne
    | _ => rfl
  refine ⟨_, t', hk.next ha, ?_, hf⟩
  rw [System.handledEvents, hn]
  rfl

-- What follows is reached from there.
private theorem LeadsOn.bind {s s' : EventLoop} {events : List Event}
    (h : LeadsOn settings k [] s)
    (h' : ∀ {k' t'}, System.Runs settings k' t' → Follows s t' → LeadsOn settings k' events s') :
    LeadsOn settings k events s' := by
  obtain ⟨k', t', hk', hevents, hf⟩ := h
  obtain ⟨k'', t'', hk'', hevents', hf'⟩ := h' hk' hf
  refine ⟨k'', t'', hk'', ?_, hf'⟩
  rw [hevents', hevents, List.append_nil]

-- A turn that leaves the system and what is disposed needs no step.
private theorem LeadsOn.of_same {s s' : EventLoop} {events : List Event}
    (h : LeadsOn settings k events s) (hsystem : s'.system = s.system)
    (hd : s'.phase.disposes = s.phase.disposes) : LeadsOn settings k events s' := by
  obtain ⟨k', t', hk', hevents, hf⟩ := h
  exact ⟨k', t', hk', hevents, hf.of_same hsystem hd⟩

-- A change to one interactor on both sides.
private theorem Follows.afterTask {s : EventLoop} (hf : Follows s t) {i : Guid}
    {o o' : Interactor} {es : List Event} {phase : Phase} {status : TaskKind → Guid → TaskStatus}
    (hd : ∀ j, s.phase.disposes = some j → phase.disposes = some j)
    (ho : o' = o ∨ (phase.disposes = some i ∨ s.system.isRunning = false) ∧
      o.tokenSource ≠ .live ∧ ∃ kind, o.stage kind = .ending ∧ o' = o.complete kind) :
    Follows ⟨s.system.afterTask i o es, phase, status⟩ (t.afterTask i o' es) := by
  refine ⟨hf.running, congrArg (· ++ es) hf.eventQueue, hf.accepted, ?_, fun j => ?_⟩
  · rw [System.afterTask, hf.server]
    rfl
  · have hobject := hf.objects j
    unfold Matches object at hobject ⊢
    rw [System.objects_afterTask, System.objects_afterTask, Function.update_apply,
      Function.update_apply]
    split
    · next hj =>
      subst hj
      exact ho
    · exact hobject.imp_right fun h => ⟨h.1.imp_left (hd j), h.2⟩

-- A task that is canceled has run in the matching state.
private theorem Follows.abandon {s : EventLoop} (hf : Follows s t)
    (hk : System.Runs settings k t) {kind : TaskKind} {i : Guid}
    (hstage : (s.object i).stage kind = .checking) (htoken : (s.object i).tokenSource ≠ .live) :
    LeadsOn settings k [] (s.abandon kind i) := by
  -- The matching interactor is at the test of this loop too, whatever it is ahead in.
  have hobject : (t.server.objects i).stage kind = .checking ∧
      (t.server.objects i).tokenSource ≠ .live := by
    rcases hf.objects i with h | ⟨-, -, kind', hk', h⟩
    · rw [h]
      exact ⟨hstage, htoken⟩
    · have hne : kind ≠ kind' := by
        rintro rfl
        cases hstage.symm.trans hk'
      rw [h, stage_complete, if_neg hne, tokenSource_complete]
      exact ⟨hstage, htoken⟩
  obtain ⟨o', h1, h2⟩ := Interactor.exists_taskStep_complete hobject.1 hobject.2 i
  have hfirst : t.step settings (kind.checks i) = some (t.afterTask i o' []) := by
    rw [System.step_task settings t (Action.task_of_worker (worker_checks kind i)), h1,
      posts_checks]
    rfl
  have hsecond : (t.afterTask i o' []).step settings (kind.ends i) =
      some (t.afterTask i ((t.server.objects i).complete kind) []) := by
    rw [System.step_task settings _ (Action.task_of_worker (worker_ends kind i)),
      System.objects_afterTask, Function.update_self, h2, posts_ends, Option.map_some]
    simp only [System.afterTask, Function.update_idem, List.append_nil]
  have hfollows : Follows (s.abandon kind i)
      (t.afterTask i ((t.server.objects i).complete kind) []) := by
    rw [EventLoop.abandon, System.modify_eq_afterTask]
    refine hf.afterTask (fun _ => id) ((hf.objects i).imp ?_ ?_)
    · exact fun h => congrArg (Interactor.complete · kind) h
    · rintro ⟨hd, -, kind', hk', h⟩
      refine ⟨hd, by rwa [tokenSource_complete], kind', ?_, ?_⟩
      · have hne : kind' ≠ kind := by
          rintro rfl
          cases hstage.symm.trans hk'
        rw [stage_complete, if_neg hne]
        exact hk'
      · rw [h, Interactor.complete_comm]
        rfl
  obtain ⟨k', t', hk', hevents, hf'⟩ : LeadsOn settings _ [] (s.abandon kind i) :=
    .next (hk.next hfirst) hsecond (by cases kind <;> simp [TaskKind.ends]) hfollows
  refine ⟨k', t', hk', hevents.trans ?_, hf'⟩
  have hnone : t.handled (kind.checks i) = none := by cases kind <;> rfl
  rw [System.handledEvents, hnone, Option.toList_none, List.append_nil]

-- The callback of a task that was not started, where its interactor was.
private theorem Follows.callback {s : EventLoop} (hf : Follows s t)
    (hk : System.Runs settings k t) {kind : TaskKind} {i : Guid}
    (hstage : s.status kind i = .created → (s.object i).stage kind = .checking) :
    LeadsOn settings k [] (s.callback kind i) := by
  unfold EventLoop.callback
  split
  · next h => exact hf.abandon hk (hstage h.1) h.2
  · exact .stutter hk hf

-- A task steps in the matching state, unless it has taken that step already.
private theorem Follows.task {s : EventLoop} (hf : Follows s t) (hk : System.Runs settings k t)
    {a : Action} {kind : TaskKind} {i : Guid} (hw : a.worker = some (kind, i)) {u : System}
    (hu : s.system.step settings a = some u) :
    LeadsOn settings k [] { s with system := u } := by
  have htask := Action.task_of_worker hw
  have hne : a ≠ .process := by
    rintro rfl
    cases hw
  rw [System.step_task settings _ htask] at hu
  obtain ⟨o, ho, rfl⟩ := Option.map_eq_some_iff.mp hu
  have hsame (o' : Interactor) (ho' : (t.server.objects i).taskStep a = some o')
      (hm : o' = o ∨ (s.phase.disposes = some i ∨ s.system.isRunning = false) ∧
        o.tokenSource ≠ .live ∧ ∃ kind, o.stage kind = .ending ∧ o' = o.complete kind) :
      LeadsOn settings k [] { s with system := s.system.afterTask i o (a.posts settings) } := by
    have hstep : t.step settings a = some (t.afterTask i o' (a.posts settings)) := by
      rw [System.step_task settings t htask, ho']
      rfl
    exact .next hk hstep hne (hf.afterTask (fun _ => id) hm)
  rcases hf.objects i with h | ⟨hd, htoken, kind', hk', h⟩
  · exact hsame o (h ▸ ho) (.inl rfl)
  · by_cases hkind : kind' = kind
    · subst hkind
      -- The task is ahead: this is the step that it has taken.
      rcases Interactor.stage_taskStep hw ho with ⟨hx, -⟩ | ⟨hx, -⟩ | ⟨-, rfl, -⟩
      · cases hk'.symm.trans hx
      · cases hk'.symm.trans hx
      · have hover : t.server.objects i = o := by
          have hends := Interactor.taskStep_ends hk' i
          rw [Interactor.cancel_of_ne_live htoken] at hends
          rw [h, ← Option.some.inj (hends.symm.trans ho)]
          cases kind' <;> rfl
        have hf' : Follows { s with system := s.system.afterTask i o [] }
            (t.afterTask i (t.server.objects i) []) := hf.afterTask (fun _ => id) (.inl hover)
        rw [System.afterTask_self] at hf'
        rw [posts_ends]
        exact .stutter hk hf'
    · have hstep : (t.server.objects i).taskStep a = some (o.complete kind') := by
        rw [h, Interactor.taskStep_complete hw hkind]
        exact congrArg (Option.map _) ho
      refine hsame _ hstep (.inr ⟨hd, ?_, kind', ?_, rfl⟩)
      · rcases Interactor.stage_taskStep hw ho with ⟨-, hx, -⟩ | ⟨-, hx, -⟩ | ⟨-, -, hx, -⟩
        · rwa [hx]
        · rwa [hx]
        · rw [hx]
          exact cancel_ne_live _
      · exact (Interactor.stage_taskStep_of_ne hw ho hkind).trans hk'

-- A handler that is over is one step.
private theorem Follows.process {s : EventLoop} (hf : Follows s t)
    (hk : System.Runs settings k t) (hserver : t.server = s.system.server)
    (hr : s.system.isRunning = true) {e : Event} {es : List Event}
    (hq : s.system.eventQueue = e :: es)
    (hover : ∀ i, e.disposes = some i → ∀ kind, (s.object i).stage kind = .completed) :
    LeadsOn settings k [e] (s.handle settings e es) := by
  have hq' := hf.eventQueue.trans hq
  have hcan : t.CanProcess e := by
    intro i hi
    rw [System.CanDispose, hserver]
    refine ⟨.inr ?_, .inr ?_⟩
    · exact Interactor.readTask_of_stage (hover i hi .read)
    · exact Interactor.writeTask_of_stage (hover i hi .write)
  have hstep : t.step settings .process = some (t.handle settings e es) := by
    simp only [System.step, hq']
    rw [if_pos ⟨hf.running hr, hcan⟩]
  refine ⟨_, _, hk.next hstep, ?_, follows_of_eq ?_ rfl hf.accepted ?_⟩
  · rw [System.handledEvents, System.handled, hq']
    rfl
  · intro hrun
    rw [System.handle, hserver]
    exact hrun
  · rw [System.handle, hserver]
    rfl

-- The event loop begins to dispose an interactor whose task has reported an error.
private theorem Follows.cancel {s : EventLoop} (hf : Follows s t) (hk : System.Runs settings k t)
    (hserver : t.server = s.system.server) (hp : s.phase = .taking) {e : Event}
    {es : List Event} {i : Guid} (hq : s.system.eventQueue = e :: es)
    (hd : e.disposes = some i) : LeadsOn settings k [] (s.cancel i) := by
  have hphase : ∀ j, s.phase.disposes = some j → (Phase.testing .read i).disposes = some j := by
    rw [hp]
    rintro j ⟨⟩
  have hobject : t.server.objects i = s.object i := by rw [hserver, object]
  rw [EventLoop.cancel, System.modify_eq_afterTask]
  change LeadsOn settings k [] ⟨s.system.afterTask i
    { s.object i with tokenSource := (s.object i).tokenSource.cancel } [], .testing .read i,
    s.status⟩
  by_cases hlive : (s.object i).tokenSource = .live
  · have hreported : t.IsReported i := by
      refine ⟨e, ?_, hd⟩
      rw [hf.eventQueue, hq]
      exact List.mem_cons_self ..
    have hsound := System.Runs.sound settings hk i
    obtain ⟨kind, hkind⟩ : ∃ kind, (s.object i).stage kind = .ending := by
      have hended := hsound.reports hreported
      obtain ⟨hr, hw⟩ := hsound.live (by rw [hobject, hlive])
      rw [hobject] at hended hr hw
      rcases hended with h | h
      · exact ⟨.read, by rw [Interactor.stage, h.resolve_right hr]⟩
      · exact ⟨.write, by rw [Interactor.stage, h.resolve_right hw]⟩
    have hstep : t.step settings (kind.ends i) = some (t.afterTask i
        { (s.object i).complete kind with tokenSource := (s.object i).tokenSource.cancel } []) := by
      rw [System.step_task settings t (Action.task_of_worker (worker_ends kind i)), hobject,
        Interactor.taskStep_ends hkind, posts_ends]
      rfl
    refine .next hk hstep (by cases kind <;> simp [TaskKind.ends]) (hf.afterTask hphase ?_)
    refine .inr ⟨.inl rfl, cancel_ne_live _, kind, ?_, ?_⟩
    · rw [← hkind]
      cases kind <;> rfl
    · cases kind <;> rfl
  · have hf' : Follows ⟨s.system.afterTask i
        { s.object i with tokenSource := (s.object i).tokenSource.cancel } [],
        .testing .read i, s.status⟩ (t.afterTask i (t.server.objects i) []) := by
      refine hf.afterTask hphase (.inl ?_)
      rw [hobject, Interactor.cancel_of_ne_live hlive]
    rw [System.afterTask_self] at hf'
    exact .stutter hk hf'

-- The callbacks of a started interactor are those of its write task.
private theorem callbacks_eq {s : EventLoop} {i : Guid} (h : s.status .read i ≠ .created) :
    s.callbacks i = s.callback .write i := by
  have hread : s.callback .read i = s := if_neg fun hx => h hx.1
  rw [callbacks, hread]

-- A task that has not begun is at the test of its loop where its interactor was started.
private theorem Untaken.checking {s : EventLoop} (hu : Untaken s) (hs : Coherent settings s)
    {kind : TaskKind} {i : Guid} (hread : (s.object i).readTask ≠ .unstarted)
    (h : s.status kind i = .created ∨ s.status kind i = .waitingToRun) :
    (s.object i).stage kind = .checking :=
  (hu kind i h).resolve_left (hs.stage_ne_unstarted hread kind)

-- A read task that is created was not started with its interactor.
private theorem Coherent.read_ne_created {s : EventLoop} (hs : Coherent settings s) {i : Guid}
    (hread : (s.object i).readTask ≠ .unstarted) : s.status .read i ≠ .created := by
  intro hc
  rcases hs.created .read i hc with hr | ⟨hk, -⟩
  · exact hread hr
  · cases hk

/-- Each turn is matched by steps of the distributor that handle the event whose handler is over
with it. -/
theorem Follows.step {s s' : EventLoop} {a : Turn} (hf : Follows s t)
    (hk : System.Runs settings k t) (hs : Coherent settings s) (hn : Notified s) (hu : Untaken s)
    (h : EventLoop.step settings s a = some s') :
    LeadsOn settings k (s.handled a).toList s' := by
  cases turned_of_step settings h with
  | @task action kind i u hw hb hstep =>
    have hread : (s.object i).readTask ≠ .unstarted := by
      intro hr
      cases hb.symm.trans (hs.fresh kind i hr)
    have hcallbacks : callbacks { s with system := u } i =
        EventLoop.callback { s with system := u } .write i :=
      callbacks_eq (hs.read_ne_created hread)
    rw [hcallbacks]
    refine (hf.task hk hw hstep).bind fun hk' hf' => hf'.callback hk' fun hc => ?_
    have hne : TaskKind.write ≠ kind := by
      rintro rfl
      cases hb.symm.trans hc
    exact (Interactor.stage_taskStep_of_ne hw (object_act hw hstep).1 hne).trans
      (hu.checking hs hread (.inl hc))
  | @other action u hw hne hstep =>
    have hstep' : ∃ t', t.step settings action = some t' ∧ Follows { s with system := u } t' := by
      cases action with
      | accept i =>
        obtain ⟨hi, ⟨⟩⟩ := Option.ite_none_left_eq_some.mp hstep
        refine ⟨_, if_neg (hf.accepted ▸ hi), hf.running, congrArg (· ++ _) hf.eventQueue,
          congrArg (i :: ·) hf.accepted, hf.server, hf.objects⟩
      | heartbeat =>
        cases hstep
        exact ⟨_, rfl, hf.running, congrArg (· ++ _) hf.eventQueue, hf.accepted, hf.server,
          hf.objects⟩
      | process => exact absurd rfl hne
      | _ => cases hw
    obtain ⟨t', ht', hf'⟩ := hstep'
    exact .next hk ht' hne hf'
  | @run kind i hw _ => exact .stutter hk (hf.of_same rfl rfl)
  | @abandon kind i hw hl =>
    exact hf.abandon hk (hu.checking hs (hs.started_of_waiting hw) (.inr hw)) hl
  | @connect i es hr hp hq =>
    obtain ⟨hrun, -⟩ := hs.connected hn hq hp
    have hserver := hf.server_of_taking hr (by rw [hp]; rfl)
    rw [take, if_pos hrun, handled, hp, hq]
    exact (hf.process hk hserver hr hq (by rintro j ⟨⟩)).of_same rfl rfl
  | @dispose e es i hr hp hq hd =>
    have hserver := hf.server_of_taking hr (by rw [hp]; rfl)
    have hread := hs.started_of_disposes (hq ▸ List.mem_cons_self ..) hd
    have hcallbacks : (s.cancel i).callbacks i = s.cancel i := by
      have hcreated : (s.cancel i).status .read i ≠ .created := hs.read_ne_created hread
      rw [callbacks_eq hcreated]
      refine if_neg fun hx => ?_
      rcases hs.created .write i hx.1 with hr' | ⟨-, hp'⟩
      · exact hread hr'
      · cases hp.symm.trans hp'
    have hnone : s.handled .goOn = none := by
      rw [handled, hp, hq]
      cases e <;> first | rfl | cases hd
    rw [hcallbacks, hnone]
    exact hf.cancel hk hserver hp hq hd
  | message hr hp hq =>
    have hserver := hf.server_of_taking hr (by rw [hp]; rfl)
    rw [handled, hp, hq]
    exact hf.process hk hserver hr hq (by rintro j ⟨⟩)
  | startFault _ hp _ =>
    rw [handled, hp]
    exact .stutter hk hf.fault
  | startWrite _ hp _ =>
    rw [handled, hp]
    exact .stutter hk (hf.of_same rfl (by rw [hp]; rfl))
  | @skip kind i _ hp _ =>
    rw [handled, hp]
    exact .stutter hk (hf.of_same rfl (by rw [hp]; cases kind <;> rfl))
  | wait _ hp _ =>
    rw [handled, hp]
    exact .stutter hk (hf.of_same rfl (by rw [hp]; rfl))
  | waitFault _ hp _ _ =>
    rw [handled, hp]
    exact .stutter hk hf.fault
  | @pass kind i _ hp _ _ =>
    rw [handled, hp]
    exact .stutter hk (hf.of_same rfl (by rw [hp]; cases kind <;> rfl))
  | @close i e es hr hp hq =>
    have hd := (hs.disposing i (by rw [hp]; rfl)).1
    rw [hq, List.head?_cons, Option.bind_some] at hd
    have hover (kind : TaskKind) : (s.object i).stage kind = .completed :=
      hs.passed kind i (by rw [hp]; rfl)
    have hserver : t.server = s.system.server := by
      refine hf.server_eq fun j => (hf.objects j).resolve_right ?_
      rintro ⟨h | h, -, kind, hending, -⟩
      · rw [hp] at h
        cases h
        cases hending.symm.trans (hover kind)
      · cases hr.symm.trans h
    rw [handled, hp, hq]
    refine hf.process hk hserver hr hq fun j hj => ?_
    rw [hd] at hj
    cases hj
    exact hover

/-- In every run of the event loop the distributor goes through a run with one step for each
handler, in which the same events are handled, in order. -/
theorem Runs.exists_system_run {h : History EventLoop Turn} {s : EventLoop}
    (hr : Runs settings h s) :
    ∃ k t, System.Runs settings k t ∧ System.handledEvents k = handledEvents h ∧
      Follows s t := by
  have hboth : ∃ k t, System.Runs settings k t ∧
      (System.handledEvents k = handledEvents h ∧ Follows s t ∧ Coherent settings s ∧
        Notified s ∧ Untaken s) := by
    refine Run.exists_simulating (R := fun h s k t => System.handledEvents k = handledEvents h ∧
      Follows s t ∧ Coherent settings s ∧ Notified s ∧ Untaken s) hr ?_ ?_
    · refine ⟨rfl, follows_of_eq id rfl rfl rfl, coherent_init settings, ?_, ?_⟩
      · exact fun _ _ _ => rfl
      · exact fun kind _ _ => .inl (by cases kind <;> rfl)
    · rintro h s a s' k t - ha hk ⟨hevents, hf, hs, hn, hu⟩
      obtain ⟨k', t', hk', hevents', hf'⟩ := hf.step hk hs hn hu ha
      obtain ⟨hs', hn'⟩ := hs.step hn ha
      refine ⟨k', t', hk', ?_, hf', hs', hn', hu.step hs hn ha⟩
      rw [hevents', hevents]
      rfl
  obtain ⟨k, t, hk, hevents, hf, -⟩ := hboth
  exact ⟨k, t, hk, hevents, hf⟩

end EventLoop

end MessageBus.Distributor

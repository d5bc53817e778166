import MessageBus.Distributor.Handlers

/-!
# The event loop runs on

A handler that is clear comes to its end by the turns that it needs: each brings the event loop
or the task that it waits for one step on. Where it is not clear, the event loop ends or waits
for a client.
-/

namespace MessageBus.Distributor
open MessageBus.Base MessageBus.Common MessageBus.Messages

/-- The steps that a task has to its end, where its token is not live. -/
def Stage.rank : Stage → Nat
  | .checking => 2
  | .ending => 1
  | _ => 0

/-- The turns that the event loop has to the end of the handler. -/
def Phase.rank : Phase → Nat
  | .taking => 0
  | .starting _ => 1
  | .testing .read _ => 5
  | .waiting .read _ => 4
  | .testing .write _ => 3
  | .waiting .write _ => 2
  | .closing _ => 1

namespace Interactor

-- A task that is held takes none of the steps that do not wait for the client.
private theorem taskStep_of_held {o : Interactor} {kind : TaskKind} (h : o.stage kind = .held)
    (i : Guid) : o.taskStep (kind.checks i) = none ∧ o.taskStep (kind.ends i) = none := by
  cases kind with
  | read =>
    have hr : o.readTask = .reading := readTask_of_stage h
    simp [TaskKind.checks, TaskKind.ends, taskStep, hr]
  | write =>
    have hw : o.writeTask = .writing := writeTask_of_stage h
    simp [TaskKind.checks, TaskKind.ends, taskStep, hw]

end Interactor

namespace EventLoop

/-- The turns and steps to the end of the handler. -/
def rank (s : EventLoop) : Nat :=
  s.phase.rank +
    match s.phase.disposes with
    | some i => ((s.object i).stage .read).rank + ((s.object i).stage .write).rank
    | none => 0

variable {settings : Settings}

/-! ### A clear handler returns -/

-- Both tasks of what is disposed were started.
private theorem Coherent.started {s : EventLoop} (hs : Coherent settings s) {i : Guid}
    (hd : s.phase.disposes = some i) (kind : TaskKind) :
    s.status kind i ≠ .created ∧ (s.object i).stage kind ≠ .unstarted := by
  obtain ⟨e, he, hdisposes⟩ := Option.bind_eq_some_iff.mp (hs.disposing i hd).1
  have hread := hs.started_of_disposes (List.mem_of_head? he) hdisposes
  constructor
  · intro hstatus
    rcases hs.created kind i hstatus with h | ⟨-, h⟩
    · exact hread h
    · rw [h] at hd
      cases hd
  · exact hs.stage_ne_unstarted hread kind

-- The task that is waited for is free.
private theorem IsClear.isFree {s : EventLoop} (hc : s.IsClear) {kind : TaskKind} {i : Guid}
    (hp : s.phase = .waiting kind i) : s.IsFree kind i := by
  have hself : ¬ (Phase.waiting kind i).HasPassed kind i := by
    cases kind <;> exact id
  refine (hc.waits kind i (by rw [hp]; rfl) (by rwa [hp])).resolve_right ?_
  exact fun hx => hx.2 hp

-- A step of the task that is waited for brings it on.
private theorem rank_act_lt {s : EventLoop} (hs : Coherent settings s) (hc : s.IsClear)
    {kind : TaskKind} {i : Guid} (hp : s.phase = .waiting kind i) {action : Action}
    (hw : action.worker = some (kind, i)) {t : System}
    (ht : s.system.step settings action = some t) :
    (callbacks { s with system := t } i).rank < s.rank := by
  have hd : s.phase.disposes = some i := by
    rw [hp]
    rfl
  have hstarted := hs.started hd
  have hkind : (((callbacks { s with system := t } i).object i).stage kind).rank <
      ((s.object i).stage kind).rank := by
    rw [stage_callbacks, if_neg fun h => (hstarted kind).1 h.2.1]
    change ((t.server.objects i).stage kind).rank < _
    obtain ⟨ho, -, -⟩ := object_act hw ht
    rcases Interactor.stage_taskStep hw ho with ⟨hx, -, ⟨hl, -⟩ | ⟨-, hx'⟩⟩ | ⟨hx, -⟩ |
      ⟨hx, -, -, hx'⟩
    · exact absurd hl (hs.disposing i hd).2
    · rw [hx, hx']
      decide
    · exact absurd hx (hc.isFree hp).2
    · rw [hx, hx']
      decide
  have hother (kind' : TaskKind) (hne : kind' ≠ kind) :
      ((callbacks { s with system := t } i).object i).stage kind' = (s.object i).stage kind' :=
    (stage_act hw ht (hstarted kind').1 fun h => absurd h hne).2
  have hrank (u : EventLoop) (hu : u.phase = s.phase) : u.rank = s.phase.rank +
      (((u.object i).stage .read).rank + ((u.object i).stage .write).rank) := by
    rw [rank, hu, hd]
  rw [hrank (callbacks { s with system := t } i) (phase_callbacks _ _), hrank s rfl]
  cases kind with
  | read =>
    rw [hother .write (by simp)]
    omega
  | write =>
    rw [hother .read (by simp)]
    omega

/-- Each turn that a clear handler needs brings it nearer to its end. -/
theorem rank_lt_of_needs {s t : EventLoop} {a : Turn} (hs : Coherent settings s) (hc : s.IsClear)
    (ha : s.phase.Needs a) (h : step settings s a = some t) : t.rank < s.rank := by
  have hgoOn (h : step settings s .goOn = some t) : s.goOn settings = some t :=
    (Option.ite_none_right_eq_some.mp h).2
  cases hp : s.phase with
  | taking =>
    rw [hp] at ha
    cases ha
  | starting i =>
    rw [hp] at ha
    obtain rfl := ha
    have h := hgoOn h
    simp only [goOn, hp] at h
    rw [if_neg (hc.starts i hp)] at h
    cases h
    simp [rank, hp, Phase.rank, Phase.disposes]
  | testing kind i =>
    rw [hp] at ha
    obtain rfl := ha
    have h := hgoOn h
    simp only [goOn, hp] at h
    cases h
    split <;> cases kind <;> simp [rank, hp, Phase.after, Phase.rank, Phase.disposes, object]
  | closing i =>
    rw [hp] at ha
    obtain rfl := ha
    have h := hgoOn h
    simp only [goOn, hp] at h
    split at h
    · cases h
    · cases h
      simp only [rank, hp, handle, Phase.rank, Phase.disposes]
      omega
  | waiting kind i =>
    have hbegun := (hc.isFree hp).1
    rw [hp] at ha
    rcases ha with rfl | rfl | rfl | rfl
    · have h := hgoOn h
      simp only [goOn, hp] at h
      obtain ⟨-, h⟩ := Option.ite_none_right_eq_some.mp h
      rw [hbegun, if_neg (by simp)] at h
      cases h
      cases kind <;> simp [rank, hp, Phase.after, Phase.rank, Phase.disposes, object]
    · rw [step, hbegun, if_neg (by simp)] at h
      cases h
    · simp only [step, worker_checks] at h
      obtain ⟨-, h⟩ := Option.ite_none_right_eq_some.mp h
      obtain ⟨t0, ht, rfl⟩ := Option.map_eq_some_iff.mp h
      exact rank_act_lt hs hc hp (worker_checks kind i) ht
    · simp only [step, worker_ends] at h
      obtain ⟨-, h⟩ := Option.ite_none_right_eq_some.mp h
      obtain ⟨t0, ht, rfl⟩ := Option.map_eq_some_iff.mp h
      exact rank_act_lt hs hc hp (worker_ends kind i) ht

-- A step of a task that has begun is possible where its interactor can take it.
private theorem isSome_act {s : EventLoop} {action : Action} {kind : TaskKind} {i : Guid}
    (hw : action.worker = some (kind, i)) (hb : s.status kind i = .begun)
    (h : ((s.object i).taskStep action).isSome) : (step settings s (.act action)).isSome := by
  simp only [step, hw]
  rw [if_pos hb, Option.isSome_map, System.step_task settings _ (Action.task_of_worker hw),
    Option.isSome_map]
  exact h

/-- Some turn that a clear handler needs is possible. -/
theorem exists_needs {s : EventLoop} (hs : Coherent settings s) (hc : s.IsClear)
    (hp : s.phase ≠ .taking) : ∃ a, s.phase.Needs a ∧ (step settings s a).isSome := by
  have hgoOn (h : (s.goOn settings).isSome) : (step settings s .goOn).isSome := by
    rwa [step, if_pos hc.running]
  cases hphase : s.phase with
  | taking => exact absurd hphase hp
  | starting i =>
    refine ⟨.goOn, rfl, hgoOn ?_⟩
    simp only [goOn, hphase]
    split <;> rfl
  | testing kind i =>
    refine ⟨.goOn, rfl, hgoOn ?_⟩
    simp only [goOn, hphase]
    rfl
  | closing i =>
    refine ⟨.goOn, rfl, hgoOn ?_⟩
    obtain ⟨e, he, -⟩ := Option.bind_eq_some_iff.mp (hs.disposing i (by rw [hphase]; rfl)).1
    simp only [goOn, hphase]
    cases hq : s.system.eventQueue with
    | nil =>
      rw [hq] at he
      cases he
    | cons e' es => rfl
  | waiting kind i =>
    have hd : s.phase.disposes = some i := by
      rw [hphase]
      rfl
    obtain ⟨hb, hheld⟩ := hc.isFree hphase
    cases hstage : (s.object i).stage kind with
    | unstarted => exact absurd hstage (hs.started hd kind).2
    | held => exact absurd hstage hheld
    | checking =>
      refine ⟨.act (kind.checks i), .inr (.inr (.inl rfl)), isSome_act (worker_checks ..) hb ?_⟩
      obtain ⟨o, ho, -⟩ :=
        Interactor.exists_taskStep_complete hstage (hs.disposing i hd).2 i
      rw [ho]
      rfl
    | ending =>
      refine ⟨.act (kind.ends i), .inr (.inr (.inr rfl)), isSome_act (worker_ends ..) hb ?_⟩
      rw [Interactor.taskStep_ends hstage]
      rfl
    | completed =>
      refine ⟨.goOn, .inl rfl, hgoOn ?_⟩
      simp only [goOn, hphase]
      rw [if_pos hstage]
      split <;> rfl

/-- A clear handler returns. -/
theorem IsClear.returns {s : EventLoop} (hs : Coherent settings s) (hn : Notified s)
    (hc : s.IsClear) : Returns settings s := by
  by_cases hp : s.phase = .taking
  · exact .taking hc.running hp
  · refine .turn (exists_needs hs hc hp) fun a t ha h => ?_
    have hlt := rank_lt_of_needs hs hc ha h
    obtain ⟨hs', hn'⟩ := hs.step hn h
    exact IsClear.returns hs' hn' ((isClear_step_iff hs hn hc h).mpr (undisturbed_of_needs ha))
termination_by s.rank

/-! ### A handler that returns is clear -/

section next

variable {s : EventLoop} (hs : Coherent settings s)
  (hnext : ∀ a t, s.phase.Needs a → step settings s a = some t → t.IsClear)
include hnext

private theorem running_of_next {a : Turn} {t : EventLoop} (ha : s.phase.Needs a)
    (h : step settings s a = some t) : s.system.isRunning = true := by
  have hrun := (hnext a t ha h).running
  cases a with
  | goOn => exact (Option.ite_none_right_eq_some.mp h).1
  | begin kind i =>
    obtain ⟨-, h⟩ := Option.ite_none_right_eq_some.mp h
    split at h <;> cases h <;> exact hrun
  | act action =>
    have hsame {u : System} (hne : action ≠ .process)
        (hu : s.system.step settings action = some u) : u.isRunning = s.system.isRunning := by
      rcases System.step_cases settings hu with ⟨_, _, rfl, -⟩ | ⟨-, htask⟩
      · exact absurd rfl hne
      · exact htask.running
    rw [step] at h
    split at h
    · next hw =>
      obtain ⟨-, h⟩ := Option.ite_none_right_eq_some.mp h
      obtain ⟨u, hu, rfl⟩ := Option.map_eq_some_iff.mp h
      rw [isRunning_callbacks] at hrun
      exact (hsame (by rintro rfl; cases hw) hu).symm.trans hrun
    · obtain ⟨hne, h⟩ := Option.ite_none_left_eq_some.mp h
      obtain ⟨u, hu, rfl⟩ := Option.map_eq_some_iff.mp h
      exact (hsame hne hu).symm.trans hrun

-- Before the wait for a task.
private theorem clear_of_testing {kind : TaskKind} {i : Guid} (hp : s.phase = .testing kind i)
    (hrun : s.system.isRunning = true) : s.IsClear := by
  have ht : step settings s .goOn = some { s with
      phase := if s.status kind i = .canceled then .after kind i else .waiting kind i } := by
    simp only [step, goOn, hp, if_pos hrun]
  have hc := hnext .goOn _ (by rw [hp]; rfl) ht
  refine ⟨hrun, by simp [hp], fun kind' j hd hx => ?_⟩
  rw [hp] at hd hx ⊢
  obtain rfl := Option.some.inj hd
  by_cases hcanceled : s.status kind' i = .canceled
  · exact .inr ⟨hcanceled, by simp⟩
  · refine .inl ((hc.waits kind' i ?_ ?_).resolve_right fun h => hcanceled h.1)
    · dsimp only
      split
      · cases kind <;> rfl
      · rfl
    · dsimp only
      split
      · next hk =>
        rw [Phase.hasPassed_after]
        rintro ⟨-, rfl | rfl⟩
        · exact hcanceled hk
        · cases kind' with
          | read => exact hx rfl
          | write => exact hcanceled hk
      · cases kind <;> cases kind' <;> exact hx

include hs

-- The task that is waited for has begun: a worker that takes it now cancels it.
private theorem begun_of_waiting {kind : TaskKind} {i : Guid} (hp : s.phase = .waiting kind i)
    (hrun : s.system.isRunning = true) : s.status kind i = .begun := by
  have hd : s.phase.disposes = some i := by
    rw [hp]
    rfl
  have hneeds {a : Turn} (ha : (Phase.waiting kind i).Needs a) : s.phase.Needs a := by rwa [hp]
  cases hstatus : s.status kind i with
  | begun => rfl
  | created => exact absurd hstatus (hs.started hd kind).1
  | canceled =>
    have ht : step settings s .goOn = some s.fault := by
      simp only [step, goOn, hp, if_pos hrun, if_pos (hs.canceled kind i hstatus).1,
        if_pos hstatus]
    cases (hnext _ _ (hneeds (.inl rfl)) ht).running
  | waitingToRun =>
    have ht : step settings s (.begin kind i) = some (s.abandon kind i) := by
      simp only [step, if_pos hstatus, if_neg (hs.disposing i hd).2]
    have hfree := (hnext _ _ (hneeds (.inr (.inl rfl))) ht).isFree hp
    have hself : (s.abandon kind i).status kind i = .canceled := if_pos ⟨rfl, rfl⟩
    cases hself.symm.trans hfree.1

-- In the wait for a task.
private theorem clear_of_waiting {kind : TaskKind} {i : Guid} (hp : s.phase = .waiting kind i)
    (hrun : s.system.isRunning = true)
    (hex : ∃ a, s.phase.Needs a ∧ (step settings s a).isSome) : s.IsClear := by
  have hd : s.phase.disposes = some i := by
    rw [hp]
    rfl
  have hstarted := hs.started hd
  have hbegun := begun_of_waiting hs hnext hp hrun
  obtain ⟨a, ha, hsome⟩ := hex
  obtain ⟨t, ht⟩ := Option.isSome_iff_exists.mp hsome
  have hc := hnext a t ha ht
  -- The task is not held, and the turn leaves the other task alone.
  have hstep : (s.object i).stage kind ≠ .held ∧ t.phase.disposes = some i ∧
      (kind = .read → ¬ t.phase.HasPassed .write i ∧ t.status .write i = s.status .write i ∧
        (t.object i).stage .write = (s.object i).stage .write) := by
    have hact {action : Action} (hw : action.worker = some (kind, i))
        (hheld : (s.object i).stage kind = .held → (s.object i).taskStep action = none)
        (ht : step settings s (.act action) = some t) :
        (s.object i).stage kind ≠ .held ∧ t.phase.disposes = some i ∧
          (kind = .read → ¬ t.phase.HasPassed .write i ∧ t.status .write i = s.status .write i ∧
            (t.object i).stage .write = (s.object i).stage .write) := by
      simp only [step, hw] at ht
      obtain ⟨-, ht⟩ := Option.ite_none_right_eq_some.mp ht
      obtain ⟨u, hu, rfl⟩ := Option.map_eq_some_iff.mp ht
      obtain ⟨ho, -, -⟩ := object_act hw hu
      refine ⟨fun h => ?_, ?_, ?_⟩
      · rw [hheld h] at ho
        cases ho
      · rw [phase_callbacks]
        exact hd
      · rintro rfl
        refine ⟨?_, stage_act hw hu (hstarted .write).1 (by simp)⟩
        rw [phase_callbacks, hp]
        exact id
    rw [hp] at ha
    rcases ha with rfl | rfl | rfl | rfl
    · simp only [step, goOn, hp, if_pos hrun, hbegun] at ht
      obtain ⟨hover, ht⟩ := Option.ite_none_right_eq_some.mp ht
      rw [if_neg (by simp)] at ht
      cases ht
      refine ⟨by simp [hover], by cases kind <;> rfl, ?_⟩
      rintro rfl
      exact ⟨id, rfl, rfl⟩
    · rw [step, hbegun, if_neg (by simp)] at ht
      cases ht
    · exact hact (worker_checks kind i) (fun h => (Interactor.taskStep_of_held h i).1) ht
    · exact hact (worker_ends kind i) (fun h => (Interactor.taskStep_of_held h i).2) ht
  obtain ⟨hheld, hdisposes, hwrite⟩ := hstep
  refine ⟨hrun, by simp [hp], fun kind' j hj hx => ?_⟩
  rw [hd] at hj
  obtain rfl := Option.some.inj hj
  by_cases hk : kind' = kind
  · subst hk
    exact .inl ⟨hbegun, hheld⟩
  · obtain ⟨rfl, rfl⟩ : kind = .read ∧ kind' = .write := by
      rw [hp] at hx
      cases kind <;> cases kind' <;> simp_all [Phase.HasPassed]
    obtain ⟨hpassed, hstatus, hstage⟩ := hwrite rfl
    rcases hc.waits .write i hdisposes hpassed with hf | ⟨hcanceled, -⟩
    · exact .inl ⟨hstatus.symm.trans hf.1, fun h => hf.2 (hstage.trans h)⟩
    · exact .inr ⟨hstatus.symm.trans hcanceled, by simp [hp]⟩

end next

private theorem clear_of_returns {s : EventLoop} (h : Returns settings s)
    (hs : Coherent settings s) (hn : Notified s) : s.IsClear := by
  induction h with
  | taking hr hp =>
    refine ⟨hr, fun i h => ?_, fun kind i h => ?_⟩
    · rw [hp] at h
      cases h
    · rw [hp] at h
      cases h
  | @turn s hex _ ih =>
    -- What every turn that the handler needs leads to is clear.
    have hnext (a : Turn) (t : EventLoop) (ha : s.phase.Needs a)
        (h : step settings s a = some t) : t.IsClear :=
      ih a t ha h (hs.step hn h).1 (hs.step hn h).2
    have hrun : s.system.isRunning = true := by
      obtain ⟨a, ha, hsome⟩ := hex
      obtain ⟨t, ht⟩ := Option.isSome_iff_exists.mp hsome
      exact running_of_next hnext ha ht
    cases hp : s.phase with
    | taking =>
      obtain ⟨a, ha, -⟩ := hex
      rw [hp] at ha
      cases ha
    | starting i =>
      refine ⟨hrun, fun j hj hcanceled => ?_, by simp [hp, Phase.disposes]⟩
      rw [hp] at hj
      cases hj
      have ht : step settings s .goOn = some s.fault := by
        simp only [step, goOn, hp, if_pos hrun, if_pos hcanceled]
      cases (hnext _ _ (by rw [hp]; rfl) ht).running
    | testing kind i => exact clear_of_testing hnext hp hrun
    | waiting kind i => exact clear_of_waiting hs hnext hp hrun hex
    | closing i =>
      refine ⟨hrun, by simp [hp], fun kind j hd hx => ?_⟩
      rw [hp] at hd hx
      obtain rfl := Option.some.inj hd
      exact absurd rfl hx

/-- The handler that is running returns exactly if it is clear. -/
theorem returns_iff_isClear {s : EventLoop} (hs : Coherent settings s) (hn : Notified s) :
    Returns settings s ↔ s.IsClear :=
  ⟨fun h => clear_of_returns h hs hn, IsClear.returns hs hn⟩

/-! ### Runs -/

/-- Every state of a run hangs together. -/
theorem Runs.coherent {h : History EventLoop Turn} {s : EventLoop} (hr : Runs settings h s) :
    Coherent settings s ∧ Notified s :=
  hr.invariant (P := fun s => Coherent settings s ∧ Notified s)
    ⟨coherent_init settings, fun _ _ _ => rfl⟩ fun _ _ _ hs ha => hs.1.step hs.2 ha

variable (settings) in
/-- The event loop runs on, and every handler returns, throughout a run exactly if no turn
disturbs a handler. -/
theorem loop_runs_iff {h : History EventLoop Turn} {s : EventLoop} (hr : Runs settings h s) :
    Always (fun _ s => s.system.isRunning = true ∧ Returns settings s) h s ↔
      Throughout (fun _ s a => Undisturbed settings s a) h := by
  have hclear {h : History EventLoop Turn} {s : EventLoop} (hr : Runs settings h s) :
      s.system.isRunning = true ∧ Returns settings s ↔ s.IsClear := by
    obtain ⟨hs, hn⟩ := Runs.coherent hr
    rw [returns_iff_isClear hs hn]
    exact and_iff_right_of_imp IsClear.running
  apply hr.always_iff_throughout_of_step ⟨rfl, .taking rfl rfl⟩
  intro h r a t hr hp ha
  obtain ⟨hs, hn⟩ := Runs.coherent hr
  rw [hclear (hr.next ha)]
  exact isClear_step_iff hs hn ((hclear hr).mp hp) ha

-- Whether a turn lets the write task be started, and whether what it disposes has free tasks.
private def startsOrWaits (x : EventLoop × Turn) : Bool :=
  (match x.1.phase with
    | .starting i => decide (x.2 ≠ .act (.endRead i))
    | _ => true) &&
  (match (x.1.taken x.2).bind Event.disposes with
    | some i => [.read, .write].all fun kind =>
      decide (x.1.status kind i = .begun ∧ (x.1.object i).stage kind ≠ .held)
    | none => true)

private theorem undisturbed_of_startsOrWaits {s : EventLoop} {a : Turn}
    (hd : settings.isDebugEnabled = false) (h : startsOrWaits (s, a) = true) :
    Undisturbed settings s a := by
  obtain ⟨hstarts, hwaits⟩ := Bool.and_eq_true_iff.mp h
  refine ⟨fun i request _ hf => ?_, fun i hi => ?_, fun e i he hi kind => .inr ?_⟩
  · rw [hf.debug] at hd
    cases hd
  · simpa [hi] using hstarts
  · simp only [he, Option.bind_some, hi, List.all_eq_true, decide_eq_true_eq] at hwaits
    exact hwaits kind (by cases kind <;> simp)

/-- The handlers return where a client connects and closes its connection. -/
theorem loop_runs_to_close :
    ∃ h s, Runs (.permissive false) h s ∧ h.filterMap (fun x => x.1.taken x.2) =
        [.error ⟨1⟩ .endOfStream, .connected ⟨1⟩] ∧ s.phase = .taking ∧
      Always (fun _ s => s.system.isRunning = true ∧ Returns (.permissive false) s) h s := by
  obtain ⟨h, s, hr, hobs⟩ := exists_run_of_exec (step (.permissive false)) init
    [.act (.accept ⟨1⟩), .goOn, .goOn, .begin .read ⟨1⟩, .act (.checkRead ⟨1⟩),
      .begin .write ⟨1⟩, .act (.readError ⟨1⟩ .endOfStream), .act (.endRead ⟨1⟩),
      .act (.checkWrite ⟨1⟩), .goOn, .goOn, .goOn, .goOn, .act (.endWrite ⟨1⟩), .goOn, .goOn]
    (fun x => (x.1.filterMap fun y => y.1.taken y.2, x.2.phase, x.1.all startsOrWaits))
    ([.error ⟨1⟩ .endOfStream, .connected ⟨1⟩], .taking, true) rfl
  simp only [Prod.mk.injEq, List.all_eq_true] at hobs
  obtain ⟨htaken, hphase, hgood⟩ := hobs
  refine ⟨h, s, hr, htaken, hphase, (loop_runs_iff (.permissive false) hr).mpr ?_⟩
  exact throughout_of_forall_mem (G := Undisturbed (.permissive false)) fun x hx =>
    undisturbed_of_startsOrWaits rfl (hgood x hx)

/-- A request to be notified that was still on the queue when its sender was closed stops
the event loop. -/
theorem loop_stops_after_close :
    ¬ ∀ (settings : Settings) h s, Runs settings h s →
      Always (fun _ s => s.system.isRunning = true ∧ Returns settings s) h s := by
  intro hclaim
  obtain ⟨h, s, hr, hobs⟩ := exists_run_of_exec (step .debugging) init
    [.act (.accept ⟨1⟩), .act (.accept ⟨2⟩), .goOn, .goOn, .goOn, .goOn, .begin .read ⟨1⟩,
      .act (.checkRead ⟨1⟩), .act (.receive ⟨1⟩ (.subscriptionRequest ⟨"F", "T", true⟩)), .goOn,
      .begin .read ⟨2⟩, .begin .write ⟨2⟩, .act (.checkRead ⟨2⟩),
      .act (.receive ⟨2⟩ (.authorizationResponse ⟨⟨2⟩, "F", "T", true, none⟩)), .goOn,
      .act (.checkRead ⟨2⟩), .act (.checkWrite ⟨2⟩), .act (.writeError ⟨2⟩ (.io true)),
      .act (.receive ⟨2⟩ (.notificationRequest ⟨"F", true⟩)), .act (.endWrite ⟨2⟩),
      .act (.checkRead ⟨2⟩), .act (.endRead ⟨2⟩), .goOn, .goOn, .goOn, .goOn, .goOn, .goOn,
      .goOn]
    (fun x => x.2.system.isRunning) false rfl
  have hrunning : s.system.isRunning = true := (hclaim .debugging h s hr).last.1
  rw [hobs] at hrunning
  cases hrunning

end EventLoop

end MessageBus.Distributor

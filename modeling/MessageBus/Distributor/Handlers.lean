import MessageBus.Distributor.LoopCoherence

/-!
# Handlers that return

When the handler that is running comes to its end. It throws where a failed send is not
logged, where the write task was canceled before it is started, and where the task that it
waits for is canceled then; it waits for ever where a task is in `Message.Read` or
`Message.Write` and its client does nothing.
-/

namespace MessageBus.Distributor
open MessageBus.Base MessageBus.Common MessageBus.Messages

namespace Phase

/-- The turns that the event loop needs where it stands: its own, and where it waits for a task
those of the task that do not wait for the client. -/
def Needs : Phase → Turn → Prop
  | .taking, _ => False
  | .waiting kind i, a => a = .goOn ∨ a = .begin kind i ∨ a = .act (kind.checks i) ∨
      a = .act (kind.ends i)
  | _, a => a = .goOn

end Phase

namespace EventLoop

variable (settings : Settings)

/-- The handler that is running, if any, returns normally: the loop still runs and stands
between two events, or some turn that it needs is possible, and whichever is taken the handler
returns. -/
inductive Returns : EventLoop → Prop
  | taking {s : EventLoop} : s.system.isRunning = true → s.phase = .taking → Returns s
  | turn {s : EventLoop} : (∃ a, s.phase.Needs a ∧ (step settings s a).isSome) →
      (∀ a t, s.phase.Needs a → step settings s a = some t → Returns t) → Returns s

/-- The event that a turn takes from the queue. -/
def taken (s : EventLoop) (a : Turn) : Option Event :=
  if s.phase = .taking ∧ a = .goOn then s.system.eventQueue.head? else none

/-- The task has begun, and is not in `Message.Read` or `Message.Write`. -/
def IsFree (s : EventLoop) (kind : TaskKind) (i : Guid) : Prop :=
  s.status kind i = .begun ∧ (s.object i).stage kind ≠ .held

/-- No request to be notified is taken whose failed send is not logged; the read task of an
interactor does not cancel the token before the write task is started; and no event is taken
that disposes an interactor with a task that has not begun or is in `Message.Read` or
`Message.Write`. -/
structure Undisturbed (s : EventLoop) (a : Turn) : Prop where
  logs : ∀ i request, s.taken a = some (.message i (.notificationRequest request)) →
    ¬ s.system.server.FailsToLog settings i request
  starts : ∀ i, s.phase = .starting i → a ≠ .act (.endRead i)
  waits : ∀ e i, s.taken a = some e → e.disposes = some i →
    ∀ kind, s.status kind i = .canceled ∨ s.IsFree kind i

/-! ### Where the handler returns -/

variable {settings}

/-- The handler returns from where it stands: the write task can be started, and the tasks that
it has still to wait for are free. -/
structure IsClear (s : EventLoop) : Prop where
  running : s.system.isRunning = true
  starts : ∀ i, s.phase = .starting i → s.status .write i ≠ .canceled
  waits : ∀ kind i, s.phase.disposes = some i → ¬ s.phase.HasPassed kind i →
    s.IsFree kind i ∨ s.status kind i = .canceled ∧ s.phase ≠ .waiting kind i

-- Between two events there is no handler.
private theorem isClear_taking {s : EventLoop} (hr : s.system.isRunning = true)
    (hp : s.phase = .taking) : s.IsClear := by
  refine ⟨hr, fun i h => ?_, fun kind i h => ?_⟩
  · rw [hp] at h
    cases h
  · rw [hp] at h
    cases h

-- A turn that takes no event and lets the write task be started disturbs nothing.
private theorem undisturbed_of_taken_none {s : EventLoop} {a : Turn} (hn : s.taken a = none)
    (hstarts : ∀ i, s.phase = .starting i → a ≠ .act (.endRead i)) :
    Undisturbed settings s a := by
  refine ⟨fun i request h => ?_, hstarts, fun e i h => ?_⟩
  · rw [hn] at h
    cases h
  · rw [hn] at h
    cases h

/-- What a handler needs disturbs nothing. -/
theorem undisturbed_of_needs {s : EventLoop} {a : Turn} (ha : s.phase.Needs a) :
    Undisturbed settings s a := by
  have hp : s.phase ≠ .taking := by
    intro hp
    rw [hp] at ha
    exact ha
  refine undisturbed_of_taken_none (if_neg fun h => hp h.1) fun i hi => ?_
  rw [hi] at ha
  rw [ha]
  simp

section act

variable {s : EventLoop} {action : Action} {kind : TaskKind} {i : Guid}
  (hw : action.worker = some (kind, i)) {t : System}
  (ht : s.system.step settings action = some t)
include hw ht

/-- The step of a task is seen by its interactor, and by no other. -/
theorem object_act : (s.object i).taskStep action = some (t.server.objects i) ∧
    (∀ j, j ≠ i → t.server.objects j = s.object j) ∧ t.isRunning = s.system.isRunning := by
  rw [System.step_task settings _ (Action.task_of_worker hw)] at ht
  obtain ⟨o, ho, rfl⟩ := Option.map_eq_some_iff.mp ht
  refine ⟨by rw [System.objects_afterTask, Function.update_self]; exact ho, fun j hj => ?_, rfl⟩
  rw [System.objects_afterTask, Function.update_of_ne hj]
  rfl

/-- The task that steps is the only one that goes on, and the callbacks cancel no task that was
started. -/
theorem stage_act {kind' : TaskKind} {j : Guid} (hc : s.status kind' j ≠ .created)
    (hne : kind' = kind → j ≠ i) :
    (callbacks { s with system := t } i).status kind' j = s.status kind' j ∧
      ((callbacks { s with system := t } i).object j).stage kind' =
        (s.object j).stage kind' := by
  obtain ⟨ho, hother, -⟩ := object_act hw ht
  rw [status_callbacks, stage_callbacks, if_neg, if_neg]
  · refine ⟨rfl, ?_⟩
    by_cases hj : j = i
    · subst hj
      exact Interactor.stage_taskStep_of_ne hw ho fun hk => hne hk rfl
    · exact congrArg (·.stage kind') (hother j hj)
  · rintro ⟨rfl, hx, -⟩
    exact hc hx
  · rintro ⟨rfl, hx, -⟩
    exact hc hx

-- A free task whose token is not live stays free.
private theorem isFree_act {kind' : TaskKind} {j : Guid} (hf : s.IsFree kind' j)
    (hl : (s.object j).tokenSource ≠ .live) :
    (callbacks { s with system := t } i).IsFree kind' j := by
  have hc : s.status kind' j ≠ .created := by
    rw [hf.1]
    simp
  by_cases hne : kind' = kind → j ≠ i
  · obtain ⟨hstatus, hstage⟩ := stage_act hw ht hc hne
    exact ⟨hstatus.trans hf.1, hstage ▸ hf.2⟩
  · obtain ⟨rfl, rfl⟩ : kind' = kind ∧ j = i := by simpa using hne
    obtain ⟨ho, -, -⟩ := object_act hw ht
    constructor
    · rw [status_callbacks, if_neg fun h => hc h.2.1]
      exact hf.1
    · rw [stage_callbacks, if_neg fun h => hc h.2.1]
      change (t.server.objects j).stage kind' ≠ .held
      rcases Interactor.stage_taskStep hw ho with ⟨-, -, ⟨hlive, -⟩ | ⟨-, hx⟩⟩ | ⟨hx, -⟩ |
        ⟨-, -, -, hx⟩
      · exact absurd hlive hl
      · rw [hx]
        simp
      · exact absurd hx hf.2
      · rw [hx]
        simp

end act

-- The step of a task leaves the handler clear, unless the read task cancels the token of an
-- interactor whose write task is to be started.
private theorem isClear_act_iff {s : EventLoop} (hs : Coherent settings s) (hn : Notified s)
    (hc : s.IsClear) {action : Action} {kind : TaskKind} {i : Guid}
    (hw : action.worker = some (kind, i)) (hb : s.status kind i = .begun) {t : System}
    (ht : s.system.step settings action = some t) :
    (callbacks { s with system := t } i).IsClear ↔
      Undisturbed settings s (.act action) := by
  obtain ⟨ho, -, hr⟩ := object_act hw ht
  have hwaits (kind' : TaskKind) (j : Guid) (hd : s.phase.disposes = some j)
      (hp : ¬ s.phase.HasPassed kind' j) :
      (callbacks { s with system := t } i).IsFree kind' j ∨
        (callbacks { s with system := t } i).status kind' j = .canceled ∧
          s.phase ≠ .waiting kind' j := by
    refine (hc.waits kind' j hd hp).imp (isFree_act hw ht · (hs.disposing j hd).2) ?_
    rintro ⟨hx, hne⟩
    have hcreated : s.status kind' j ≠ .created := by
      rw [hx]
      simp
    refine ⟨(stage_act hw ht hcreated ?_).1.trans hx, hne⟩
    rintro rfl rfl
    exact absurd (hb.symm.trans hx) (by simp)
  constructor
  · intro ht'
    refine undisturbed_of_taken_none (if_neg (by simp)) ?_
    rintro j hp hact
    cases hact
    cases hw
    have hcreated := (hs.starting i hp).2.resolve_right (hc.starts i hp)
    obtain ⟨-, hx⟩ := Option.ite_none_right_eq_some.mp ho
    refine ht'.starts i ((phase_callbacks _ _).trans hp) ?_
    rw [status_callbacks, if_pos]
    refine ⟨rfl, hcreated, ?_⟩
    change (t.server.objects i).tokenSource ≠ .live
    rw [← Option.some.inj hx]
    exact cancel_ne_live _
  · intro hg
    refine ⟨(isRunning_callbacks _ _).trans (hr.trans hc.running), ?_, ?_⟩
    · intro j hp
      rw [phase_callbacks] at hp
      have hcreated := (hs.starting j hp).2.resolve_right (hc.starts j hp)
      rw [status_callbacks, if_neg]
      · exact hc.starts j hp
      · rintro ⟨rfl, -, hdead⟩
        have hlive := hn .write j hcreated
        rcases Interactor.stage_taskStep hw ho with ⟨-, hx, -⟩ | ⟨-, hx, -⟩ | ⟨-, rfl, -⟩
        · exact hdead (hx.trans hlive)
        · exact hdead (hx.trans hlive)
        · cases kind with
          | read => exact hg.starts j hp rfl
          | write => exact absurd (hb.symm.trans hcreated) (by simp)
    · rw [phase_callbacks]
      exact hwaits

-- An acceptor and the timer do nothing that a handler depends on.
private theorem isClear_of_no_worker {s : EventLoop} (hc : s.IsClear) {action : Action}
    (hw : action.worker = none) (hne : action ≠ .process) {t : System}
    (ht : s.system.step settings action = some t) : IsClear { s with system := t } := by
  obtain ⟨hserver, hrun⟩ := objects_of_no_worker hw hne ht
  refine ⟨hrun.trans hc.running, hc.starts, fun kind i hd hp => ?_⟩
  refine (hc.waits kind i hd hp).imp_left fun hf => ⟨hf.1, ?_⟩
  rw [object, hserver]
  exact hf.2

-- A worker takes no task that the handler depends on.
private theorem isClear_begin {s t : EventLoop} (hs : Coherent settings s) (hc : s.IsClear)
    {kind : TaskKind} {i : Guid} (h : step settings s (.begin kind i) = some t) : t.IsClear := by
  obtain ⟨hw, h⟩ := Option.ite_none_right_eq_some.mp h
  have hother : t.system.isRunning = s.system.isRunning ∧ t.phase = s.phase ∧
      ∀ kind' j, s.status kind' j ≠ .waitingToRun → t.status kind' j = s.status kind' j ∧
        (t.object j).stage kind' = (s.object j).stage kind' := by
    have hne (kind' : TaskKind) (j : Guid) (hx : s.status kind' j ≠ .waitingToRun) :
        ¬ (kind' = kind ∧ j = i) := by
      rintro ⟨rfl, rfl⟩
      exact hx hw
    split at h
    · cases h
      exact ⟨rfl, rfl, fun kind' j hx => ⟨if_neg (hne kind' j hx), rfl⟩⟩
    · cases h
      refine ⟨rfl, rfl, fun kind' j hx => ⟨if_neg (hne kind' j hx), ?_⟩⟩
      rw [stage_abandon, if_neg (hne kind' j hx)]
  obtain ⟨hr, hp, hsame⟩ := hother
  refine ⟨hr.trans hc.running, fun j hj => ?_, fun kind' j hd hx => ?_⟩
  · rw [hp] at hj
    have hcreated := (hs.starting j hj).2.resolve_right (hc.starts j hj)
    rw [(hsame .write j (by rw [hcreated]; simp)).1]
    exact hc.starts j hj
  · rw [hp] at hd hx ⊢
    rcases hc.waits kind' j hd hx with hf | ⟨hcanceled, hne⟩
    · obtain ⟨hstatus, hstage⟩ := hsame kind' j (by rw [hf.1]; simp)
      exact .inl ⟨hstatus.trans hf.1, hstage ▸ hf.2⟩
    · exact .inr ⟨(hsame kind' j (by rw [hcanceled]; simp)).1.trans hcanceled, hne⟩

-- The event loop takes an event.
private theorem isClear_take_iff {s : EventLoop} (hs : Coherent settings s) (hn : Notified s)
    (hc : s.IsClear) {e : Event} {es : List Event} (hq : s.system.eventQueue = e :: es)
    (hp : s.phase = .taking) :
    (s.take settings e es).IsClear ↔ Undisturbed settings s .goOn := by
  have he : e ∈ s.system.eventQueue := hq ▸ List.mem_cons_self ..
  have htaken : s.taken .goOn = some e := by
    rw [taken, if_pos ⟨hp, rfl⟩, hq, List.head?_cons]
  have hguard : Undisturbed settings s .goOn ↔
      (∀ i request, e = .message i (.notificationRequest request) →
        ¬ s.system.server.FailsToLog settings i request) ∧
      ∀ i, e.disposes = some i → ∀ kind, s.status kind i = .canceled ∨ s.IsFree kind i := by
    constructor
    · intro hg
      exact ⟨fun i request hx => hg.logs i request (hx ▸ htaken),
        fun i hd => hg.waits e i htaken hd⟩
    · rintro ⟨hlogs, hwaits⟩
      refine ⟨fun i request hx => hlogs i request ?_, by simp, fun e' i hx hd => ?_⟩
      · exact Option.some.inj (htaken.symm.trans hx)
      · rw [htaken, Option.some.injEq] at hx
        subst hx
        exact hwaits i hd
  have hdispose {i : Guid} (hd : e.disposes = some i) :
      ((s.cancel i).callbacks i).IsClear ↔ Undisturbed settings s .goOn := by
    have hcreated (kind : TaskKind) : s.status kind i ≠ .created := by
      intro h
      rcases hs.created kind i h with h | ⟨-, h⟩
      · exact hs.started_of_disposes he hd h
      · rw [hp] at h
        cases h
    have hphase : ((s.cancel i).callbacks i).phase = .testing .read i := phase_callbacks _ _
    have hstatus (kind : TaskKind) : ((s.cancel i).callbacks i).status kind i = s.status kind i :=
      (status_callbacks ..).trans (if_neg fun h => hcreated kind h.2.1)
    have hfree (kind : TaskKind) : ((s.cancel i).callbacks i).IsFree kind i ↔ s.IsFree kind i := by
      have hstage : (((s.cancel i).callbacks i).object i).stage kind =
          (s.object i).stage kind := by
        rw [stage_callbacks, if_neg fun h => hcreated kind h.2.1, object_cancel, if_pos rfl]
        cases kind <;> rfl
      rw [IsFree, IsFree, hstatus, hstage]
    have hmessage : ∀ j request, e = .message j (.notificationRequest request) →
        ¬ s.system.server.FailsToLog settings j request := by
      rintro j request rfl
      cases hd
    rw [hguard, and_iff_right hmessage]
    constructor
    · rintro h j hj kind
      cases hd.symm.trans hj
      rcases h.waits kind i (by rw [hphase]; rfl) (by rw [hphase]; cases kind <;> exact id) with
        hf | ⟨hx, -⟩
      · exact .inr ((hfree kind).mp hf)
      · exact .inl ((hstatus kind).symm.trans hx)
    · intro h
      refine ⟨(isRunning_callbacks _ _).trans hc.running, fun j hj => ?_, fun kind j hj _ => ?_⟩
      · rw [hphase] at hj
        cases hj
      · rw [hphase] at hj ⊢
        cases hj
        rcases h i hd kind with hx | hf
        · exact .inr ⟨(hstatus kind).trans hx, by simp⟩
        · exact .inl ((hfree kind).mpr hf)
  cases e with
  | connected i =>
    obtain ⟨hrun, hcreated, -⟩ := hs.connected hn hq hp
    rw [hguard, take, if_pos hrun]
    refine iff_of_true ⟨hrun, fun j hj => ?_, fun kind j hj => ?_⟩ ⟨by simp, by rintro j ⟨⟩⟩
    · cases hj
      simp [hcreated]
    · cases hj
  | error i x => exact hdispose rfl
  | closed i => exact hdispose rfl
  | message i m =>
    rw [hguard, take, and_iff_left (by rintro j ⟨⟩), ← hs.lifecycle.throws_none_iff he]
    constructor
    · exact fun h => Option.isNone_iff_eq_none.mp h.running
    · exact fun h => isClear_taking (Option.isNone_iff_eq_none.mpr h) rfl

-- The event loop goes on inside a handler.
private theorem isClear_goOn {s t : EventLoop} (hs : Coherent settings s) (hc : s.IsClear)
    (hp : s.phase ≠ .taking) (h : s.goOn settings = some t) : t.IsClear := by
  unfold goOn at h
  cases hphase : s.phase with
  | taking => exact absurd hphase hp
  | starting i =>
    simp only [hphase] at h
    rw [if_neg (hc.starts i hphase)] at h
    cases h
    exact isClear_taking hc.running rfl
  | testing kind i =>
    simp only [hphase] at h
    cases h
    have hwaits (kind' : TaskKind) (hx : ¬ (Phase.testing kind i).HasPassed kind' i) :
        s.IsFree kind' i ∨ s.status kind' i = .canceled :=
      (hc.waits kind' i (by rw [hphase]; rfl) (by rwa [hphase])).imp_right And.left
    refine ⟨hc.running, fun j hj => ?_, fun kind' j hd hx => ?_⟩
    · split at hj
      · cases kind <;> cases hj
      · cases hj
    · dsimp only at hd hx ⊢
      split at hd
      · next hcanceled =>
        rw [if_pos hcanceled] at hx ⊢
        obtain rfl : i = j := by cases kind <;> exact Option.some.inj hd
        refine (hwaits kind' fun hp => hx (Phase.hasPassed_after.mpr ⟨rfl, ?_⟩)).imp id fun h => ?_
        · cases kind with
          | read => cases kind' <;> cases hp
          | write => exact .inr rfl
        · exact ⟨h, by cases kind <;> simp [Phase.after]⟩
      · next hcanceled =>
        rw [if_neg hcanceled] at hx ⊢
        obtain rfl := Option.some.inj hd
        refine (hwaits kind' fun hp => hx ?_).imp id fun h => ⟨h, ?_⟩
        · cases kind <;> cases kind' <;> exact hp
        · rintro ⟨⟩
          exact hcanceled h
  | waiting kind i =>
    simp only [hphase] at h
    obtain ⟨-, h⟩ := Option.ite_none_right_eq_some.mp h
    have hself : ¬ (Phase.waiting kind i).HasPassed kind i := by
      cases kind <;> exact id
    have hfree : s.IsFree kind i := by
      refine (hc.waits kind i (by rw [hphase]; rfl) (by rwa [hphase])).resolve_right ?_
      exact fun hx => hx.2 hphase
    rw [hfree.1, if_neg (by simp)] at h
    cases h
    refine ⟨hc.running, fun j hj => ?_, fun kind' j hd hx => ?_⟩
    · cases kind <;> cases hj
    · obtain rfl : i = j := by cases kind <;> exact Option.some.inj hd
      refine (hc.waits kind' i (by rw [hphase]; rfl) fun hp => ?_).imp id fun h => ⟨h.1, ?_⟩
      · refine hx (Phase.hasPassed_after.mpr ⟨rfl, ?_⟩)
        rw [hphase] at hp
        cases kind with
        | read => cases kind' <;> cases hp
        | write => exact .inr rfl
      · cases kind <;> simp [Phase.after]
  | closing i =>
    simp only [hphase] at h
    obtain ⟨e, he, hd⟩ := Option.bind_eq_some_iff.mp (hs.disposing i (by rw [hphase]; rfl)).1
    cases hq : s.system.eventQueue with
    | nil =>
      rw [hq] at he
      cases he
    | cons e' es =>
      rw [hq] at he h
      cases he
      obtain rfl := Option.some.inj h
      refine isClear_taking (Option.isNone_iff_eq_none.mpr ?_) rfl
      refine (hs.lifecycle.throws_none_iff (hq ▸ List.mem_cons_self ..)).mpr ?_
      rintro j request rfl
      cases hd

/-- A turn leaves the handler clear exactly if it disturbs nothing. -/
theorem isClear_step_iff {s t : EventLoop} {a : Turn} (hs : Coherent settings s)
    (hn : Notified s) (hc : s.IsClear) (h : step settings s a = some t) :
    t.IsClear ↔ Undisturbed settings s a := by
  cases a with
  | act action =>
    rw [step] at h
    split at h
    · next kind i hw =>
      obtain ⟨hb, h⟩ := Option.ite_none_right_eq_some.mp h
      obtain ⟨t0, ht, rfl⟩ := Option.map_eq_some_iff.mp h
      exact isClear_act_iff hs hn hc hw hb ht
    · next hw =>
      obtain ⟨hne, h⟩ := Option.ite_none_left_eq_some.mp h
      obtain ⟨t0, ht, rfl⟩ := Option.map_eq_some_iff.mp h
      refine iff_of_true (isClear_of_no_worker hc hw hne ht) ?_
      refine undisturbed_of_taken_none (if_neg (by simp)) ?_
      rintro i - hact
      cases hact
      cases hw
  | begin kind i =>
    refine iff_of_true (isClear_begin hs hc h) ?_
    exact undisturbed_of_taken_none (if_neg (by simp)) (by simp)
  | goOn =>
    obtain ⟨-, h⟩ := Option.ite_none_right_eq_some.mp h
    by_cases hp : s.phase = .taking
    · simp only [goOn, hp] at h
      cases hq : s.system.eventQueue with
      | nil =>
        rw [hq] at h
        cases h
      | cons e es =>
        rw [hq] at h
        obtain rfl := Option.some.inj h
        exact isClear_take_iff hs hn hc hq hp
    · refine iff_of_true (isClear_goOn hs hc hp h) ?_
      exact undisturbed_of_taken_none (if_neg fun hx => hp hx.1) (by simp)

end EventLoop

end MessageBus.Distributor

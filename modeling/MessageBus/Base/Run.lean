import Mathlib.Logic.Basic

/-!
# Runs of a partial step function

A system is a partial step function on its states: `step s a` is `none` where the
action `a` is not enabled. A run carries its history newest step first, each item
being the state a step left and the action it took, so that a ghost quantity of the
history is a plain recursion. `Always` speaks of every state a run reaches and
`Throughout` of every step it takes; the rules below turn a step lemma into a
statement about whole runs.
-/

namespace MessageBus.Base

universe u v

variable {σ : Type u} {α : Type v}

/-- The steps of a run, newest first: the state left and the action taken. -/
abbrev History (σ : Type u) (α : Type v) := List (σ × α)

/-- `Run step init h s`: the steps of `h` lead from `init` to `s`. -/
inductive Run (step : σ → α → Option σ) (init : σ) : History σ α → σ → Prop
  | start : Run step init [] init
  | next {h : History σ α} {s s' : σ} {a : α} :
      Run step init h s → step s a = some s' → Run step init ((s, a) :: h) s'

/-- `P` holds at every point of the run that has history `h` and ends in `s`. -/
def Always (P : History σ α → σ → Prop) : History σ α → σ → Prop
  | [], s => P [] s
  | (r, a) :: h, s => Always P h r ∧ P ((r, a) :: h) s

/-- `G` holds of every step of the history, each judged where it was taken. -/
def Throughout (G : History σ α → σ → α → Prop) : History σ α → Prop
  | [] => True
  | (r, a) :: h => Throughout G h ∧ G h r a

/-- Take the listed actions in order; `none` as soon as one is not enabled. -/
def exec (step : σ → α → Option σ) : History σ α → σ → List α → Option (History σ α × σ)
  | h, s, [] => some (h, s)
  | h, s, a :: as =>
    match step s a with
    | none => none
    | some s' => exec step ((s, a) :: h) s' as

variable {step : σ → α → Option σ} {init : σ} {h h' : History σ α} {s s' : σ}

/-- What executing a list of enabled actions builds is a run. -/
theorem Run.of_exec (as : List α) (hr : Run step init h s)
    (he : exec step h s as = some (h', s')) : Run step init h' s' := by
  induction as generalizing h s with
  | nil =>
    cases he
    exact hr
  | cons a as ih =>
    rw [exec] at he
    split at he
    · cases he
    · next t ht => exact ih (hr.next ht) he

/-- Executing a list of actions from the start shows what some run reaches. -/
theorem exists_run_of_exec {β : Type*} (step : σ → α → Option σ) (init : σ) (as : List α)
    (observe : History σ α × σ → β) (b : β)
    (he : (exec step [] init as).map observe = some b) :
    ∃ h s, Run step init h s ∧ observe (h, s) = b := by
  obtain ⟨⟨h, s⟩, hs, hb⟩ := Option.map_eq_some_iff.mp he
  exact ⟨h, s, .of_exec as .start hs, hb⟩

/-- A property of the start that every step preserves holds at the end of every run. -/
theorem Run.invariant {P : σ → Prop} (hr : Run step init h s) (h0 : P init)
    (hs : ∀ r a t, P r → step r a = some t → P t) : P s := by
  induction hr with
  | start => exact h0
  | next _ ha ih => exact hs _ _ _ ih ha

/-- A simulation that may stutter: when a run of another system answers each step, every run has
a run of that system to match. -/
theorem Run.exists_simulating {τ : Type*} {β : Type*} {step' : τ → β → Option τ} {init' : τ}
    {R : History σ α → σ → History τ β → τ → Prop} (hr : Run step init h s)
    (h0 : R [] init [] init')
    (hs : ∀ h r a s k t, Run step init h r → step r a = some s → Run step' init' k t →
      R h r k t → ∃ k' t', Run step' init' k' t' ∧ R ((r, a) :: h) s k' t') :
    ∃ k t, Run step' init' k t ∧ R h s k t := by
  induction hr with
  | start => exact ⟨[], init', .start, h0⟩
  | next hr ha ih =>
    obtain ⟨k, t, hk, hR⟩ := ih
    exact hs _ _ _ _ k t hr ha hk hR

/-- The last point is one of the points a run goes through. -/
theorem Always.last {P : History σ α → σ → Prop} (ha : Always P h s) : P h s := by
  cases h with
  | nil => exact ha
  | cons x h => exact ha.2

/-- What holds at the end of every run holds at every point of a run. -/
theorem Run.always {P : History σ α → σ → Prop} (hr : Run step init h s)
    (hp : ∀ h s, Run step init h s → P h s) : Always P h s := by
  induction hr with
  | start => exact hp _ _ .start
  | next hr ha ih => exact ⟨ih, hp _ _ (hr.next ha)⟩

/-- What holds at every point, and so where each step is taken, bears on every step. -/
theorem Always.throughout {P : History σ α → σ → Prop} {G : History σ α → σ → α → Prop}
    (hp : Always P h s) (hs : ∀ h r a, P h r → G h r a) : Throughout G h := by
  induction h generalizing s with
  | nil => trivial
  | cons x h ih => exact ⟨ih hp.1, hs _ _ _ hp.1.last⟩

/-- A weaker guard holds throughout where a stronger one does. -/
theorem Throughout.imp {G G' : History σ α → σ → α → Prop}
    (hi : ∀ h r a, G h r a → G' h r a) (ht : Throughout G h) : Throughout G' h := by
  induction h with
  | nil => trivial
  | cons x h ih => exact ⟨ih ht.1, hi _ _ _ ht.2⟩

/-- Two guards that hold throughout hold together. -/
theorem Throughout.and {G G' : History σ α → σ → α → Prop} (hg : Throughout G h)
    (hg' : Throughout G' h) : Throughout (fun h r a => G h r a ∧ G' h r a) h := by
  induction h with
  | nil => trivial
  | cons x h ih => exact ⟨ih hg.1 hg'.1, hg.2, hg'.2⟩

/-- What holds at every point bears on every step that meets a guard. -/
theorem Always.throughout_of {P : History σ α → σ → Prop} {G G' : History σ α → σ → α → Prop}
    (hp : Always P h s) (hg : Throughout G h)
    (hs : ∀ h r a, P h r → G h r a → G' h r a) : Throughout G' h := by
  have hboth := (hp.throughout (G := fun h r _ => P h r) fun _ _ _ hr => hr).and hg
  exact hboth.imp fun h r a hx => hs h r a hx.1 hx.2

/-- A guard that does not look back at the history holds throughout if it holds of every
item. -/
theorem throughout_of_forall_mem {G : σ → α → Prop} (hg : ∀ x ∈ h, G x.1 x.2) :
    Throughout (fun _ r a => G r a) h := by
  induction h with
  | nil => trivial
  | cons x h ih =>
    exact ⟨ih fun y hy => hg y (List.mem_cons_of_mem _ hy), hg x (List.mem_cons_self ..)⟩

/-- A guard that holds throughout holds of every item. -/
theorem Throughout.forall_mem {G : σ → α → Prop} (hg : Throughout (fun _ r a => G r a) h) :
    ∀ x ∈ h, G x.1 x.2 := by
  induction h with
  | nil => simp
  | cons x h ih =>
    intro y hy
    rcases List.mem_cons.mp hy with rfl | hy
    · exact hg.2
    · exact ih hg.1 y hy

/-- Guarded invariance: when each step that meets the guard keeps `P`, a run whose
steps all meet the guard satisfies `P` in every state it reaches. -/
theorem Run.always_of_throughout {P : History σ α → σ → Prop}
    {G : History σ α → σ → α → Prop} (hr : Run step init h s) (h0 : P [] init)
    (hs : ∀ h r a t, Run step init h r → P h r → G h r a → step r a = some t →
      P ((r, a) :: h) t)
    (hg : Throughout G h) : Always P h s := by
  induction hr with
  | start => exact h0
  | next hr ha ih =>
    have hp := ih hg.1
    exact ⟨hp, hs _ _ _ _ hr hp.last hg.2 ha⟩

/-- Exact guards: when a step from a state with `P` keeps `P` exactly if it meets the
guard, a run satisfies `P` throughout exactly if all its steps meet the guard. The steps
may be restricted by `H`, and an invariant `I` that guarded steps keep may be used. -/
theorem Run.always_iff_throughout {P I : History σ α → σ → Prop}
    {G H : History σ α → σ → α → Prop} (hr : Run step init h s) (h0 : P [] init)
    (hi0 : I [] init)
    (hs : ∀ h r a t, Run step init h r → I h r → P h r → H h r a → step r a = some t →
      (P ((r, a) :: h) t ↔ G h r a))
    (hi : ∀ h r a t, Run step init h r → I h r → P h r → H h r a → G h r a →
      step r a = some t → I ((r, a) :: h) t)
    (hH : Throughout H h) : Always P h s ↔ Throughout G h := by
  suffices hboth : (Always P h s ↔ Throughout G h) ∧ (Throughout G h → I h s) from hboth.1
  induction hr with
  | start => exact ⟨iff_of_true h0 trivial, fun _ => hi0⟩
  | next hr ha ih =>
    obtain ⟨hpg, hgi⟩ := ih hH.1
    refine ⟨⟨?_, ?_⟩, ?_⟩
    · rintro ⟨hp, hq⟩
      have hg := hpg.mp hp
      exact ⟨hg, (hs _ _ _ _ hr (hgi hg) hp.last hH.2 ha).mp hq⟩
    · rintro ⟨ht, hg⟩
      have hp := hpg.mpr ht
      exact ⟨hp, (hs _ _ _ _ hr (hgi ht) hp.last hH.2 ha).mpr hg⟩
    · rintro ⟨ht, hg⟩
      exact hi _ _ _ _ hr (hgi ht) (hpg.mpr ht).last hH.2 hg ha

/-- The same rule without an invariant or a restriction on the steps. -/
theorem Run.always_iff_throughout_of_step {P : History σ α → σ → Prop}
    {G : History σ α → σ → α → Prop} (hr : Run step init h s) (h0 : P [] init)
    (hs : ∀ h r a t, Run step init h r → P h r → step r a = some t →
      (P ((r, a) :: h) t ↔ G h r a)) : Always P h s ↔ Throughout G h := by
  apply Run.always_iff_throughout (I := fun _ _ => True) (H := fun _ _ _ => True) hr h0 trivial
  · exact fun h r a t hr _ hp _ ha => hs h r a t hr hp ha
  · exact fun _ _ _ _ _ _ _ _ _ _ => trivial
  · exact throughout_of_forall_mem (G := fun _ _ => True) fun _ _ => trivial

end MessageBus.Base

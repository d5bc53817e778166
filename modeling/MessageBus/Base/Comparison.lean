import Mathlib.Data.List.Forall2
import Mathlib.Data.Set.Basic

/-!
# Comparisons that may throw

A comparison of two values returns a Boolean or throws. It decides a relation if it
returns, and returns true exactly where the relation holds; it is sound if it is not wrong
where it returns. The rules below say what a conjunction that stops at the first false,
and with it the comparison of two lists element by element, decides.
-/

namespace MessageBus.Base.Comparison

universe u v

variable {ε : Type u} {α : Type v} {P Q : Prop} {c d : Except ε Bool}

/-- The comparison returns, and what it returns tells whether `P` holds. -/
def Decides (c : Except ε Bool) (P : Prop) : Prop := ∃ b, c = .ok b ∧ (b = true ↔ P)

/-- What the comparison returns, if it does, tells whether `P` holds. -/
def Sound (c : Except ε Bool) (P : Prop) : Prop := ∀ b, c = .ok b → (b = true ↔ P)

/-- The operator `&&`. -/
def andThen (c d : Except ε Bool) : Except ε Bool :=
  match c with
  | .ok true => d
  | .ok false => .ok false
  | .error e => .error e

/-- A comparison that returns decides what its value says. -/
theorem decides_ok {b : Bool} : Decides (.ok b : Except ε Bool) P ↔ (b = true ↔ P) := by
  constructor
  · rintro ⟨_, ⟨⟩, h⟩
    exact h
  · exact fun h => ⟨b, rfl, h⟩

/-- A comparison that throws decides nothing. -/
theorem not_decides_error {e : ε} : ¬ Decides (.error e) P := by
  rintro ⟨b, hb, -⟩
  cases hb

/-- A comparison that decides is sound. -/
theorem Decides.sound (h : Decides c P) : Sound c P := by
  obtain ⟨b, rfl, hb⟩ := h
  rintro _ ⟨⟩
  exact hb

/-- A comparison that throws is sound: it never says `true`. -/
theorem sound_error {e : ε} : Sound (.error e) P := by
  rintro b ⟨⟩

/-- A conjunction decides if its second operand does where the first one holds. -/
theorem decides_andThen_iff (hc : Sound c P) :
    Decides (andThen c d) (P ∧ Q) ↔ Decides c P ∧ (P → Decides d Q) := by
  cases c with
  | error e => exact iff_of_false not_decides_error fun h => not_decides_error h.1
  | ok b =>
    have hb := hc b rfl
    cases b with
    | false =>
      have hp : ¬ P := fun hp => Bool.false_ne_true (hb.mpr hp)
      refine iff_of_true ?_ ⟨decides_ok.mpr hb, fun h => absurd h hp⟩
      exact decides_ok.mpr (iff_of_false Bool.false_ne_true fun h => hp h.1)
    | true =>
      have hp : P := hb.mp rfl
      have hpq : (P ∧ Q) = Q := propext (and_iff_right hp)
      rw [hpq]
      exact ⟨fun h => ⟨decides_ok.mpr hb, fun _ => h⟩, fun h => h.2 hp⟩

/-- Two sound comparisons in a row are sound for both. -/
theorem sound_andThen (hc : Sound c P) (hd : P → Sound d Q) : Sound (andThen c d) (P ∧ Q) := by
  cases c with
  | error e => exact sound_error
  | ok b =>
    have hb := hc b rfl
    cases b with
    | false =>
      have hp : ¬ P := fun hp => Bool.false_ne_true (hb.mpr hp)
      exact (decides_ok.mpr (iff_of_false Bool.false_ne_true fun h => hp h.1)).sound
    | true =>
      have hp : P := hb.mp rfl
      have hpq : (P ∧ Q) = Q := propext (and_iff_right hp)
      rw [hpq]
      exact hd hp

/-- A test made before a comparison. -/
theorem decides_ite_iff {H : Prop} [Decidable H] :
    Decides (if H then c else .ok false) (H ∧ Q) ↔ (H → Decides c Q) := by
  by_cases hh : H
  · have hq : (H ∧ Q) = Q := propext (and_iff_right hh)
    rw [if_pos hh, hq]
    exact ⟨fun h _ => h, fun h => h hh⟩
  · rw [if_neg hh]
    refine iff_of_true ?_ fun h => absurd h hh
    exact decides_ok.mpr (iff_of_false Bool.false_ne_true fun h => hh h.1)

/-- A comparison that decides says `true` exactly where it should. -/
theorem Decides.eq_ok_true_iff (h : Decides c P) : c = .ok true ↔ P := by
  obtain ⟨b, rfl, hb⟩ := h
  rw [Except.ok.injEq, hb]

/-- A comparison that decides whether values are equal is an equivalence. -/
theorem equivalence_of_decides {β : Type*} {equals : α → α → Except ε Bool} {value : α → β}
    {s : Set α} (h : ∀ a ∈ s, ∀ b ∈ s, Decides (equals a b) (value a = value b)) :
    Equivalence fun a b : s => equals a b = .ok true := by
  have hiff (a b : s) : equals a b = .ok true ↔ value a = value b :=
    (h a a.2 b b.2).eq_ok_true_iff
  constructor
  · exact fun a => (hiff a a).mpr rfl
  · exact fun {a b} hab => (hiff b a).mpr ((hiff a b).mp hab).symm
  · exact fun {a b c} hab hbc => (hiff a c).mpr (((hiff a b).mp hab).trans ((hiff b c).mp hbc))

/-! ### Lists -/

variable {R C : α → α → Prop} {equals : α → α → Except ε Bool}

/-- Compare element by element up to the first that differs. -/
def elementsEqual (equals : α → α → Except ε Bool) : List α → List α → Except ε Bool
  | [], [] => .ok true
  | x :: xs, y :: ys => andThen (equals x y) (elementsEqual equals xs ys)
  | _, _ => .ok false

/-- `C` holds of every pair of elements up to the first that `R` does not relate. -/
def UpToFirst (R C : α → α → Prop) : List α → List α → Prop
  | x :: xs, y :: ys => C x y ∧ (R x y → UpToFirst R C xs ys)
  | _, _ => True

/-- What holds of all pairs holds of those up to the first that differs. -/
theorem UpToFirst.of_forall (h : ∀ x y, C x y) (xs ys : List α) : UpToFirst R C xs ys := by
  induction xs generalizing ys with
  | nil => trivial
  | cons x xs ih =>
    cases ys with
    | nil => trivial
    | cons y ys => exact ⟨h x y, fun _ => ih ys⟩

/-- Elements that are compared soundly make lists that are. -/
theorem sound_elementsEqual (h : ∀ x y, Sound (equals x y) (R x y)) (xs ys : List α) :
    Sound (elementsEqual equals xs ys) (List.Forall₂ R xs ys) := by
  induction xs generalizing ys with
  | nil =>
    cases ys with
    | nil => exact (decides_ok.mpr (by simp)).sound
    | cons y ys => exact (decides_ok.mpr (by simp)).sound
  | cons x xs ih =>
    cases ys with
    | nil => exact (decides_ok.mpr (by simp)).sound
    | cons y ys =>
      rw [List.forall₂_cons]
      exact sound_andThen (h x y) fun _ => ih ys

/-- Lists are compared if their elements are, up to the first that differs. -/
theorem decides_elementsEqual_iff (h : ∀ x y, Sound (equals x y) (R x y)) (xs ys : List α) :
    Decides (elementsEqual equals xs ys) (List.Forall₂ R xs ys) ↔
      UpToFirst R (fun x y => Decides (equals x y) (R x y)) xs ys := by
  induction xs generalizing ys with
  | nil =>
    cases ys with
    | nil => exact iff_of_true (decides_ok.mpr (by simp)) trivial
    | cons y ys => exact iff_of_true (decides_ok.mpr (by simp)) trivial
  | cons x xs ih =>
    cases ys with
    | nil => exact iff_of_true (decides_ok.mpr (by simp)) trivial
    | cons y ys =>
      rw [List.forall₂_cons, UpToFirst, elementsEqual, decides_andThen_iff (h x y), ih ys]

/-- Elements compared by their own equality. -/
theorem decides_elementsEqual_beq [DecidableEq α] (xs ys : List α) :
    Decides (elementsEqual (ε := ε) (fun x y => .ok (x == y)) xs ys) (xs = ys) := by
  have hdecides (x y : α) : Decides (ε := ε) (.ok (x == y)) (x = y) :=
    decides_ok.mpr beq_iff_eq
  have hlists := (decides_elementsEqual_iff (fun x y => (hdecides x y).sound) xs ys).mpr
    (UpToFirst.of_forall hdecides xs ys)
  rwa [List.forall₂_eq_eq_eq] at hlists

end MessageBus.Base.Comparison

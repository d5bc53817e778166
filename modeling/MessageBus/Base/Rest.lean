import Mathlib.Data.DFinsupp.WellFounded
import MessageBus.Base.Run

/-!
# Coming to rest

A system is left alone when it takes only its internal actions. Its work passes through
stages, each step finishing some work of one stage and making work for later stages only:
then it cannot go on for ever (`Staged.settles`), and every run can be continued by internal
actions to a state where none is enabled (`Staged.rests`).
-/

namespace MessageBus.Base

universe u v

/-- Some stage has less work than before, and no earlier stage has more. -/
def Advances {n : Nat} (load' load : Fin n → Nat) : Prop :=
  ∃ k, load' k < load k ∧ ∀ j < k, load' j ≤ load j

private theorem lex_of_advances {n : Nat} {load' load : Fin n → Nat}
    (h : Advances load' load) : Pi.Lex (· < ·) (· < ·) load' load := by
  obtain ⟨k, hk, hle⟩ := h
  -- The first stage whose work changes has less, and it is not after `k`.
  by_cases hex : ∃ j, load' j ≠ load j ∧ ∀ i < j, load' i = load i
  · obtain ⟨j, hj, hfirst⟩ := hex
    refine ⟨j, hfirst, ?_⟩
    rcases lt_trichotomy j k with hjk | rfl | hkj
    · exact Nat.lt_of_le_of_ne (hle j hjk) hj
    · exact hk
    · exact absurd (hfirst k hkj) (Nat.ne_of_lt hk)
  · have hall : ∀ j, load' j = load j := by
      intro j
      induction j using WellFoundedLT.induction with
      | ind j ih => exact by_contra fun hj => hex ⟨j, hj, ih⟩
    exact absurd (hall k) (Nat.ne_of_lt hk)

/-- Work does not advance for ever. -/
theorem wellFounded_advances {n : Nat} : WellFounded (Advances (n := n)) :=
  Subrelation.wf lex_of_advances (Pi.Lex.wellFounded (· < ·) fun _ => Nat.lt_wfRel.wf)

variable {σ : Type u} {α : Type v} {step : σ → α → Option σ} {init : σ}

/-- Every internal step of a reachable state advances the work. -/
def Staged (step : σ → α → Option σ) (init : σ) (internal : α → Prop) {n : Nat}
    (load : σ → Fin n → Nat) : Prop :=
  ∀ h s a s', Run step init h s → internal a → step s a = some s' →
    Advances (load s') (load s)

/-- No internal action is enabled. -/
def AtRest (step : σ → α → Option σ) (internal : α → Prop) (s : σ) : Prop :=
  ∀ a, internal a → step s a = none

variable {internal : α → Prop} {n : Nat} {load : σ → Fin n → Nat}

/-- A system whose work is staged does not take internal actions for ever: of a sequence of
states in which each is reached by an internal action or is the one before it, all are the same
from some point on, and no internal action is taken then. -/
theorem Staged.settles (hs : Staged step init internal load) {h : History σ α}
    {states : Nat → σ} {idle : Nat → Prop} (hr : Run step init h (states 0))
    (hk : ∀ k, (∃ a, internal a ∧ step (states k) a = some (states (k + 1))) ∨
      idle k ∧ states (k + 1) = states k) :
    ∃ n, ∀ k, n ≤ k → idle k ∧ states k = states n := by
  have hruns : ∀ k, ∃ h, Run step init h (states k) := by
    intro k
    induction k with
    | zero => exact ⟨h, hr⟩
    | succ k ih =>
      obtain ⟨h, hr⟩ := ih
      rcases hk k with ⟨a, -, ha⟩ | ⟨-, hsame⟩
      · exact ⟨_, hr.next ha⟩
      · exact ⟨h, hsame ▸ hr⟩
  -- From a state with the least work no internal action is taken.
  obtain ⟨l, ⟨n, rfl⟩, hmin⟩ :=
    wellFounded_advances.has_min (Set.range fun k => load (states k)) ⟨_, 0, rfl⟩
  have hidle {k : Nat} (hsame : states k = states n) :
      idle k ∧ states (k + 1) = states k := by
    refine (hk k).resolve_left ?_
    rintro ⟨a, hint, ha⟩
    obtain ⟨h, hr⟩ := hruns k
    have hless := hs h _ _ _ hr hint ha
    rw [hsame] at hless
    exact hmin _ ⟨k + 1, rfl⟩ hless
  have hsame : ∀ k, n ≤ k → states k = states n := by
    intro k hle
    induction k, hle using Nat.le_induction with
    | base => rfl
    | succ k _ ih => exact (hidle ih).2.trans ih
  exact ⟨n, fun k hle => ⟨(hidle (hsame k hle)).1, hsame k hle⟩⟩

/-- Left alone, a system whose work is staged comes to rest. -/
theorem Staged.rests (hs : Staged step init internal load) {h : History σ α} {s : σ}
    (hr : Run step init h s) :
    ∃ h' s', Run step init (h' ++ h) s' ∧ (∀ x ∈ h', internal x.2) ∧
      AtRest step internal s' := by
  induction hl : load s using wellFounded_advances.induction generalizing h s with
  | _ l ih =>
    by_cases hrest : AtRest step internal s
    · exact ⟨[], s, hr, by simp, hrest⟩
    · simp only [AtRest, not_forall] at hrest
      obtain ⟨a, ha, hne⟩ := hrest
      obtain ⟨t, ht⟩ := Option.ne_none_iff_exists'.mp hne
      obtain ⟨h', s', hr', hint, hrest⟩ :=
        ih (load t) (hl ▸ hs h s a t hr ha ht) (hr.next ht) rfl
      refine ⟨h' ++ [(s, a)], s', by simpa using hr', ?_, hrest⟩
      intro x hx
      rw [List.mem_append, List.mem_singleton] at hx
      rcases hx with hx | rfl
      · exact hint x hx
      · exact ha

end MessageBus.Base

import Mathlib.Data.Set.Insert
import MessageBus.Common.TwoWaySet

/-!
# The maps of a two-way set

The two dictionaries of `TwoWaySet.cs` as the methods leave them, with nothing known about
them: the indexer inside `Remove` may miss. Over any sequence of calls on empty maps it never
does, as the maps stay those of a `TwoWaySet`, and both hold one relation: that of the pairs
added and not removed since.
-/

namespace MessageBus.Common
open MessageBus.Base

universe u v

/-- The fields of `TwoWaySet`, `TwoWaySet.cs:12–13`. -/
structure TwoWayMaps (α : Type u) (β : Type v) [DecidableEq α] [DecidableEq β] where
  firstToSeconds : Dictionary α (HashSet β) := ∅
  secondToFirsts : Dictionary β (HashSet α) := ∅

namespace TwoWayMaps

variable {α : Type u} {β : Type v} [DecidableEq α] [DecidableEq β]

/-! ### The methods -/

/-- `Add(first, second)`, `TwoWaySet.cs:20–31`. -/
def add (m : TwoWayMaps α β) (first : α) (second : β) : TwoWayMaps α β where
  firstToSeconds := TwoWaySet.link m.firstToSeconds first second
  secondToFirsts := TwoWaySet.link m.secondToFirsts second first

/-- `Add(second, first)`, `TwoWaySet.cs:38–41`. -/
def addSecond (m : TwoWayMaps α β) (second : β) (first : α) : TwoWayMaps α β := m.add first second

/-- `Remove(first)`, `TwoWaySet.cs:90–111`: the maps and the report; `none` where the indexer
throws. -/
def removeFirst (m : TwoWayMaps α β) (first : α) :
    Option (TwoWayMaps α β × Option (HashSet β)) :=
  match m.firstToSeconds.lookup first with
  | none => some (m, none)
  | some seconds =>
    match TwoWaySet.removeLoop first seconds.toList m.secondToFirsts ∅ with
    | none => none
    | some (secondToFirsts, secondsWithoutFirsts) =>
      some (⟨m.firstToSeconds.erase first, secondToFirsts⟩, some secondsWithoutFirsts)

/-- `Remove(second)`, `TwoWaySet.cs:119–140`. -/
def removeSecond (m : TwoWayMaps α β) (second : β) :
    Option (TwoWayMaps α β × Option (HashSet α)) :=
  match m.secondToFirsts.lookup second with
  | none => some (m, none)
  | some firsts =>
    match TwoWaySet.removeLoop second firsts.toList m.firstToSeconds ∅ with
    | none => none
    | some (firstToSeconds, firstsWithoutSeconds) =>
      some (⟨firstToSeconds, m.secondToFirsts.erase second⟩, some firstsWithoutSeconds)

/-- The methods that change the maps. -/
inductive Call (α : Type u) (β : Type v) where
  | add (first : α) (second : β)
  | addSecond (second : β) (first : α)
  | removeFirst (first : α)
  | removeSecond (second : β)

/-- The maps after a call, unless it throws. -/
def call (m : TwoWayMaps α β) : Call α β → Option (TwoWayMaps α β)
  | .add first second => some (m.add first second)
  | .addSecond second first => some (m.addSecond second first)
  | .removeFirst first => (m.removeFirst first).map Prod.fst
  | .removeSecond second => (m.removeSecond second).map Prod.fst

/-- The maps after calls one after another, unless one throws. -/
def calls (m : TwoWayMaps α β) (cs : List (Call α β)) : Option (TwoWayMaps α β) :=
  cs.foldlM call m

/-! ### The relation -/

/-- What a call makes of a relation. -/
def Call.relate (r : Set (α × β)) : Call α β → Set (α × β)
  | .add first second => insert (first, second) r
  | .addSecond second first => insert (first, second) r
  | .removeFirst first => {p ∈ r | p.1 ≠ first}
  | .removeSecond second => {p ∈ r | p.2 ≠ second}

/-- The relation of the pairs added and not removed since. -/
def related (cs : List (Call α β)) : Set (α × β) := cs.foldl Call.relate ∅

/-! ### The maps of a set that carries its invariant -/

/-- The maps of a two-way set. -/
def ofSet (t : TwoWaySet α β) : TwoWayMaps α β := ⟨t.firstToSeconds, t.secondToFirsts⟩

/-- `Remove(first)` on the maps of a two-way set does not miss, and does what it does on the
set. -/
theorem removeFirst_ofSet (t : TwoWaySet α β) (first : α) :
    (ofSet t).removeFirst first =
      some (ofSet (t.removeFirst first).1, (t.removeFirst first).2) := by
  unfold removeFirst TwoWaySet.removeFirst
  cases hl : t.firstToSeconds.lookup first with
  | none => simp [ofSet, hl]
  | some seconds =>
    have hv : valuesOf t.firstToSeconds first = seconds := by rw [valuesOf, hl, Option.getD_some]
    have hloop : TwoWaySet.removeLoop first seconds.toList t.secondToFirsts ∅ =
        some (t.removeResult first) := by
      rw [← hv, TwoWaySet.removeResult, Option.some_get]
    simp [ofSet, hl, hloop]

/-- The maps in the other order. -/
def swap (m : TwoWayMaps α β) : TwoWayMaps β α := ⟨m.secondToFirsts, m.firstToSeconds⟩

/-- The two overloads of `Remove` are one method on the maps in either order. -/
theorem removeSecond_eq_swap (m : TwoWayMaps α β) (second : β) :
    m.removeSecond second = (m.swap.removeFirst second).map fun r => (r.1.swap, r.2) := by
  unfold removeSecond removeFirst swap
  cases m.secondToFirsts.lookup second with
  | none => rfl
  | some firsts =>
    simp only
    cases TwoWaySet.removeLoop second firsts.toList m.firstToSeconds ∅ <;> rfl

private theorem removeSecond_ofSet (t : TwoWaySet α β) (second : β) :
    (ofSet t).removeSecond second =
      some (ofSet (t.removeSecond second).1, (t.removeSecond second).2) := by
  have hswap : (ofSet t).swap = ofSet t.swap := rfl
  rw [removeSecond_eq_swap, hswap, removeFirst_ofSet]
  rfl

/-- A call on a two-way set, which cannot throw. -/
def onSet (t : TwoWaySet α β) : Call α β → TwoWaySet α β
  | .add first second => t.add first second
  | .addSecond second first => t.add first second
  | .removeFirst first => (t.removeFirst first).1
  | .removeSecond second => (t.removeSecond second).1

private theorem call_ofSet (t : TwoWaySet α β) (c : Call α β) :
    (ofSet t).call c = some (ofSet (onSet t c)) := by
  cases c with
  | add first second => rfl
  | addSecond second first => rfl
  | removeFirst first => rw [call, removeFirst_ofSet]; rfl
  | removeSecond second => rw [call, removeSecond_ofSet]; rfl

/-- A call does to the pairs of a two-way set what it does to a relation. -/
theorem contains_onSet {t : TwoWaySet α β} {r : Set (α × β)}
    (h : ∀ a b, t.Contains a b ↔ (a, b) ∈ r) (c : Call α β) (a : α) (b : β) :
    (onSet t c).Contains a b ↔ (a, b) ∈ c.relate r := by
  cases c with
  | add first second =>
    rw [onSet, TwoWaySet.contains_add, h, Call.relate, Set.mem_insert_iff, Prod.mk.injEq]
  | addSecond second first =>
    rw [onSet, TwoWaySet.contains_add, h, Call.relate, Set.mem_insert_iff, Prod.mk.injEq]
  | removeFirst first =>
    rw [onSet, TwoWaySet.contains_removeFirst, h, and_comm]
    rfl
  | removeSecond second =>
    rw [onSet, TwoWaySet.contains_removeSecond, h, and_comm]
    rfl

/-- Calls on the maps of a two-way set leave the maps of one, which holds the relation that
the calls make. -/
theorem calls_ofSet (cs : List (Call α β)) {t : TwoWaySet α β} {r : Set (α × β)}
    (h : ∀ a b, t.Contains a b ↔ (a, b) ∈ r) :
    ∃ t', (ofSet t).calls cs = some (ofSet t') ∧
      ∀ a b, t'.Contains a b ↔ (a, b) ∈ cs.foldl Call.relate r := by
  induction cs generalizing t r with
  | nil => exact ⟨t, rfl, h⟩
  | cons c cs ih =>
    obtain ⟨t', ht', hcontains⟩ := ih (contains_onSet h c)
    refine ⟨t', ?_, hcontains⟩
    rw [calls, List.foldlM_cons, call_ofSet]
    exact ht'

/-! ### What both maps hold -/

/-- The second value is stored under the first. -/
def Contains (m : TwoWayMaps α β) (a : α) (b : β) : Prop := b ∈ valuesOf m.firstToSeconds a

/-- A value is stored under another exactly where that one is stored under it. -/
def Mirrored (m : TwoWayMaps α β) : Prop :=
  ∀ a b, b ∈ valuesOf m.firstToSeconds a ↔ a ∈ valuesOf m.secondToFirsts b

/-- No stored set is empty. -/
def NoneEmpty (m : TwoWayMaps α β) : Prop :=
  (∀ a s, m.firstToSeconds.lookup a = some s → ∃ b, b ∈ s) ∧
    ∀ b s, m.secondToFirsts.lookup b = some s → ∃ a, a ∈ s

private theorem noneEmpty_ofSet (t : TwoWaySet α β) : (ofSet t).NoneEmpty :=
  ⟨fun a s hs => HashSet.isEmpty_eq_false_iff.mp (t.seconds_nonempty a s hs),
    fun b s hs => HashSet.isEmpty_eq_false_iff.mp (t.firsts_nonempty b s hs)⟩

/-- The report of `Remove(first)` is null exactly where the key is absent. -/
theorem removeFirst_report_eq_none_iff {t : TwoWaySet α β} {first : α} :
    (t.removeFirst first).2 = none ↔ ∀ b, ¬ t.Contains first b := by
  unfold TwoWaySet.removeFirst TwoWaySet.Contains valuesOf
  cases hl : t.firstToSeconds.lookup first with
  | none => simp
  | some seconds =>
    obtain ⟨b, hb⟩ := HashSet.isEmpty_eq_false_iff.mp (t.seconds_nonempty first seconds hl)
    simpa using ⟨b, hb⟩

private theorem removeSecond_report_eq_none_iff {t : TwoWaySet α β} {second : β} :
    (t.removeSecond second).2 = none ↔ ∀ a, ¬ t.Contains a second := by
  rw [TwoWaySet.removeSecond, removeFirst_report_eq_none_iff]
  simp only [TwoWaySet.contains_swap]

/-- After any calls on an empty two-way set: no indexer has missed, the maps mirror each other,
no stored set is empty, and the maps hold the pairs added and not removed since. Removing a key
then does not miss either; it takes out the pairs with the key, and returns the partners for
which it was the only one, or null where the key is absent. -/
theorem calls_hold_relation (cs : List (Call α β)) :
    ∃ m, ({} : TwoWayMaps α β).calls cs = some m ∧ m.Mirrored ∧ m.NoneEmpty ∧
      (∀ a b, m.Contains a b ↔ (a, b) ∈ related cs) ∧
      (∀ first, ∃ m' report, m.removeFirst first = some (m', report) ∧
        (∀ a b, m'.Contains a b ↔ a ≠ first ∧ m.Contains a b) ∧
        (report = none ↔ ∀ b, ¬ m.Contains first b) ∧
        ∀ seconds, report = some seconds → ∀ b, b ∈ seconds ↔
          m.Contains first b ∧ ∀ a, m.Contains a b → a = first) ∧
      ∀ second, ∃ m' report, m.removeSecond second = some (m', report) ∧
        (∀ a b, m'.Contains a b ↔ b ≠ second ∧ m.Contains a b) ∧
        (report = none ↔ ∀ a, ¬ m.Contains a second) ∧
        ∀ firsts, report = some firsts → ∀ a, a ∈ firsts ↔
          m.Contains a second ∧ ∀ b, m.Contains a b → b = second := by
  have hempty : ∀ a b, (TwoWaySet.empty : TwoWaySet α β).Contains a b ↔
      (a, b) ∈ (∅ : Set (α × β)) :=
    fun a b => iff_of_false (HashSet.notMem_empty b) (Set.notMem_empty _)
  obtain ⟨t, ht, hcontains⟩ := calls_ofSet cs hempty
  refine ⟨ofSet t, ht, t.mirror, noneEmpty_ofSet t, hcontains, fun first => ?_, fun second => ?_⟩
  · refine ⟨_, _, removeFirst_ofSet t first, fun a b => TwoWaySet.contains_removeFirst,
      removeFirst_report_eq_none_iff, fun seconds hreport b => ?_⟩
    have hmem : b ∈ (t.removeFirst first).2.getD ∅ ↔ _ := TwoWaySet.mem_removeFirst_report
    rw [hreport] at hmem
    exact hmem
  · refine ⟨_, _, removeSecond_ofSet t second, fun a b => TwoWaySet.contains_removeSecond,
      removeSecond_report_eq_none_iff, fun firsts hreport a => ?_⟩
    have hmem : a ∈ (t.removeSecond second).2.getD ∅ ↔ _ := TwoWaySet.mem_removeSecond_report
    rw [hreport] at hmem
    exact hmem

end TwoWayMaps

end MessageBus.Common

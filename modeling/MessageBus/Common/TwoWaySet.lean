import MessageBus.Base.Collections

/-!
# Two-way sets

`core/src/JetBlack.MessageBus.Common/Collections/Generic/TwoWaySet.cs`. A value carries
that its two maps mirror each other, so the indexer inside `Remove` never misses. The
two overloads of each method are one method on the maps in either order.
-/

namespace MessageBus.Common
open MessageBus.Base

universe u v

/-- The values stored under a key. -/
def valuesOf {α : Type u} {β : Type v} [DecidableEq α] (d : Dictionary α (HashSet β)) (a : α) :
    HashSet β := (d.lookup a).getD ∅

/-- `TwoWaySet`, `TwoWaySet.cs:10–13`: every pair is in both maps, no stored set is empty. -/
structure TwoWaySet (α : Type u) (β : Type v) [DecidableEq α] [DecidableEq β] where
  firstToSeconds : Dictionary α (HashSet β)
  secondToFirsts : Dictionary β (HashSet α)
  mirror : ∀ a b, b ∈ valuesOf firstToSeconds a ↔ a ∈ valuesOf secondToFirsts b
  seconds_nonempty : ∀ a s, firstToSeconds.lookup a = some s → s.isEmpty = false
  firsts_nonempty : ∀ b s, secondToFirsts.lookup b = some s → s.isEmpty = false

namespace TwoWaySet

variable {α : Type u} {β : Type v} [DecidableEq α] [DecidableEq β]

/-- One half of `Add`, `TwoWaySet.cs:22–25` and `27–30`. -/
def link (d : Dictionary α (HashSet β)) (a : α) (b : β) : Dictionary α (HashSet β) :=
  d.insert a ((valuesOf d a).add b)

/-- An iteration of `Remove(first)`, `TwoWaySet.cs:99–105`: the map and the report it
leaves; `none` where the indexer finds no key. -/
def removeOne (first : α) (second : β) (secondToFirsts : Dictionary β (HashSet α))
    (secondsWithoutFirsts : HashSet β) : Option (Dictionary β (HashSet α) × HashSet β) :=
  match secondToFirsts.lookup second with
  | none => none
  | some firsts =>
    let firsts := firsts.remove first
    if firsts.isEmpty then
      some (secondToFirsts.erase second, secondsWithoutFirsts.add second)
    else some (secondToFirsts.insert second firsts, secondsWithoutFirsts)

/-- The loop of `Remove(first)` over the values stored under the key. -/
def removeLoop (first : α) : List β → Dictionary β (HashSet α) → HashSet β →
    Option (Dictionary β (HashSet α) × HashSet β)
  | [], secondToFirsts, secondsWithoutFirsts => some (secondToFirsts, secondsWithoutFirsts)
  | second :: seconds, secondToFirsts, secondsWithoutFirsts =>
    match removeOne first second secondToFirsts secondsWithoutFirsts with
    | none => none
    | some (secondToFirsts, secondsWithoutFirsts) =>
      removeLoop first seconds secondToFirsts secondsWithoutFirsts

/-- The pair is in the set. -/
def Contains (t : TwoWaySet α β) (a : α) (b : β) : Prop := b ∈ valuesOf t.firstToSeconds a

/-- Whether a pair is contained can be computed. -/
instance (t : TwoWaySet α β) (a : α) (b : β) : Decidable (t.Contains a b) :=
  inferInstanceAs (Decidable (b ∈ valuesOf t.firstToSeconds a))

/-- A set without pairs. -/
def empty : TwoWaySet α β :=
  ⟨∅, ∅, by simp [valuesOf], by simp, by simp⟩

/-- The set seen from the other type. -/
def swap (t : TwoWaySet α β) : TwoWaySet β α :=
  ⟨t.secondToFirsts, t.firstToSeconds, fun b a => (t.mirror a b).symm, t.firsts_nonempty,
    t.seconds_nonempty⟩

/-- A link adds one value to one key. -/
theorem valuesOf_link (d : Dictionary α (HashSet β)) (a a' : α) (b : β) :
    valuesOf (link d a b) a' = if a' = a then (valuesOf d a).add b else valuesOf d a' := by
  rw [link, valuesOf, Dictionary.lookup_insert]
  split <;> rfl

private theorem mem_valuesOf_link {d : Dictionary α (HashSet β)} {a a' : α} {b b' : β} :
    b' ∈ valuesOf (link d a b) a' ↔ a' = a ∧ b' = b ∨ b' ∈ valuesOf d a' := by
  rw [valuesOf_link]
  by_cases ha : a' = a
  · subst ha
    simp [HashSet.mem_add]
  · simp [ha]

private theorem nonempty_link {d : Dictionary α (HashSet β)} {a : α} {b : β}
    (h : ∀ a s, d.lookup a = some s → s.isEmpty = false) :
    ∀ a' s, (link d a b).lookup a' = some s → s.isEmpty = false := by
  intro a' s hs
  rw [link, Dictionary.lookup_insert] at hs
  split at hs
  · obtain rfl := Option.some.inj hs
    exact HashSet.isEmpty_add _ b
  · exact h a' s hs

/-- `Add`, `TwoWaySet.cs:20–31`. -/
def add (t : TwoWaySet α β) (first : α) (second : β) : TwoWaySet α β where
  firstToSeconds := link t.firstToSeconds first second
  secondToFirsts := link t.secondToFirsts second first
  mirror a b := by rw [mem_valuesOf_link, mem_valuesOf_link, t.mirror, and_comm]
  seconds_nonempty := nonempty_link t.seconds_nonempty
  firsts_nonempty := nonempty_link t.firsts_nonempty

/-- Adding a pair adds it and no other. -/
theorem contains_add {t : TwoWaySet α β} {a a' : α} {b b' : β} :
    (t.add a b).Contains a' b' ↔ a' = a ∧ b' = b ∨ t.Contains a' b' := mem_valuesOf_link

/-- What the loop of `Remove` leaves and reports, on maps in which it never misses. -/
structure Removed (first : α) (seconds : List β) (before : Dictionary β (HashSet α))
    (reported : HashSet β) (after : Dictionary β (HashSet α)) (result : HashSet β) : Prop where
  values : ∀ b a, a ∈ valuesOf after b ↔
    ¬ (a = first ∧ b ∈ seconds) ∧ a ∈ valuesOf before b
  nonempty : (∀ b s, before.lookup b = some s → s.isEmpty = false) →
    ∀ b s, after.lookup b = some s → s.isEmpty = false
  reports : ∀ b, b ∈ result ↔
    b ∈ reported ∨ b ∈ seconds ∧ ∀ a ∈ valuesOf before b, a = first

-- An iteration finds its key when the key has `first` stored under it.
private theorem removeOne_finds {first : α} {b : β} {m : Dictionary β (HashSet α)}
    (reported : HashSet β) (h : first ∈ valuesOf m b) :
    ∃ m' result, removeOne first b m reported = some (m', result) ∧
      Removed first [b] m reported m' result := by
  cases hl : m.lookup b with
  | none =>
    rw [valuesOf, hl, Option.getD_none] at h
    exact absurd h (HashSet.notMem_empty _)
  | some firsts =>
    have hv : valuesOf m b = firsts := by rw [valuesOf, hl, Option.getD_some]
    simp only [removeOne, hl]
    split
    · next he =>
      have honly : ∀ a ∈ firsts, a = first := by
        intro a ha
        by_contra hne
        exact HashSet.isEmpty_iff.mp he a (HashSet.mem_remove.mpr ⟨hne, ha⟩)
      refine ⟨_, _, rfl, ?_, ?_, ?_⟩
      · intro b' a
        rw [valuesOf, Dictionary.lookup_erase]
        by_cases hb : b' = b
        · subst hb
          simpa [hv] using fun hne ha => hne (honly a ha)
        · simp [hb, valuesOf]
      · intro hne b' s hs
        rw [Dictionary.lookup_erase] at hs
        split at hs
        · cases hs
        · exact hne b' s hs
      · intro b'
        rw [HashSet.mem_add, List.mem_singleton, or_comm]
        by_cases hb : b' = b
        · subst hb
          simpa [hv] using .inr honly
        · simp [hb]
    · next he =>
      have hstay : ¬ ∀ a ∈ firsts, a = first := by
        intro hall
        refine he (HashSet.isEmpty_iff.mpr ?_)
        intro a ha
        obtain ⟨hne, ha⟩ := HashSet.mem_remove.mp ha
        exact hne (hall a ha)
      refine ⟨_, _, rfl, ?_, ?_, ?_⟩
      · intro b' a
        rw [valuesOf, Dictionary.lookup_insert]
        by_cases hb : b' = b
        · subst hb
          simp [hv, HashSet.mem_remove]
        · simp [hb, valuesOf]
      · intro hne b' s hs
        rw [Dictionary.lookup_insert] at hs
        split at hs
        · obtain rfl := Option.some.inj hs
          exact Bool.eq_false_iff.mpr he
        · exact hne b' s hs
      · intro b'
        by_cases hb : b' = b
        · subst hb
          simp [hv, hstay]
        · simp [hb]

omit [DecidableEq α] in
private theorem Removed.cons {first : α} {b : β} {seconds : List β}
    {m m' m'' : Dictionary β (HashSet α)} {reported reported' reported'' : HashSet β}
    (hb : b ∉ seconds) (h : Removed first [b] m reported m' reported')
    (h' : Removed first seconds m' reported' m'' reported'') :
    Removed first (b :: seconds) m reported m'' reported'' := by
  have hother : ∀ b' ∈ seconds, ∀ a, a ∈ valuesOf m' b' ↔ a ∈ valuesOf m b' := by
    intro b' hb' a
    have hne : b' ≠ b := fun he => hb (he ▸ hb')
    rw [h.values]
    simp [hne]
  constructor
  · intro b' a
    rw [h'.values, h.values, List.mem_singleton, List.mem_cons, and_or_left, not_or, ← and_assoc,
      and_comm (a := ¬ (a = first ∧ b' ∈ seconds))]
  · exact fun hne => h'.nonempty (h.nonempty hne)
  · intro b'
    rw [h'.reports, h.reports, List.mem_singleton, List.mem_cons, or_assoc]
    refine or_congr_right ?_
    by_cases hbs : b' ∈ seconds
    · have hne : b' ≠ b := fun he => hb (he ▸ hbs)
      simp [hbs, hne, hother b' hbs]
    · simp [hbs]

/-- Every key the loop looks up is there when each value has `first` stored under it. -/
theorem removeLoop_finds (first : α) (seconds : List β) (hn : seconds.Nodup)
    (m : Dictionary β (HashSet α)) (reported : HashSet β)
    (hs : ∀ b ∈ seconds, first ∈ valuesOf m b) :
    ∃ m' result, removeLoop first seconds m reported = some (m', result) ∧
      Removed first seconds m reported m' result := by
  induction seconds generalizing m reported with
  | nil =>
    refine ⟨m, reported, rfl, ?_, fun h => h, ?_⟩
    · intro b a
      simp
    · intro b
      simp
  | cons b seconds ih =>
    obtain ⟨hb, hn'⟩ := List.nodup_cons.mp hn
    obtain ⟨m', reported', hr, h⟩ := removeOne_finds reported (hs b (List.mem_cons_self ..))
    obtain ⟨m'', result, hr', h'⟩ := ih hn' m' reported' (by
      intro b' hb'
      have hne : b' ≠ b := fun he => hb (he ▸ hb')
      refine (h.values b' first).mpr ⟨?_, hs b' (List.mem_cons_of_mem _ hb')⟩
      simp [hne])
    exact ⟨m'', result, by rw [removeLoop, hr]; exact hr', h.cons hb h'⟩

private theorem removeLoop_isSome (t : TwoWaySet α β) (first : α) :
    ∃ m' result, removeLoop first (valuesOf t.firstToSeconds first).toList t.secondToFirsts ∅ =
      some (m', result) ∧ Removed first (valuesOf t.firstToSeconds first).toList
        t.secondToFirsts ∅ m' result :=
  removeLoop_finds first _ (valuesOf t.firstToSeconds first).nodup _ _
    fun b hb => (t.mirror first b).mp hb

/-- The map and the report of the loop of `Remove(first)`. -/
def removeResult (t : TwoWaySet α β) (first : α) : Dictionary β (HashSet α) × HashSet β :=
  (removeLoop first (valuesOf t.firstToSeconds first).toList t.secondToFirsts ∅).get (by
    obtain ⟨m', result, h, -⟩ := removeLoop_isSome t first
    rw [h]
    rfl)

private theorem removed_removeResult (t : TwoWaySet α β) (first : α) :
    Removed first (valuesOf t.firstToSeconds first).toList t.secondToFirsts ∅
      (t.removeResult first).1 (t.removeResult first).2 := by
  obtain ⟨m', result, h, hr⟩ := removeLoop_isSome t first
  have he : t.removeResult first = (m', result) := by
    simp only [removeResult, h, Option.get_some]
  rw [he]
  exact hr

omit [DecidableEq β] in
private theorem valuesOf_erase (d : Dictionary α (HashSet β)) (a a' : α) :
    valuesOf (d.erase a) a' = if a' = a then ∅ else valuesOf d a' := by
  rw [valuesOf, Dictionary.lookup_erase]
  split <;> rfl

/-- `Remove(first)`, `TwoWaySet.cs:90–111`: the set left, and the values that `first` was
the last key of, or nothing if the key is absent. -/
def removeFirst (t : TwoWaySet α β) (first : α) : TwoWaySet α β × Option (HashSet β) :=
  match t.firstToSeconds.lookup first with
  | none => (t, none)
  | some _ =>
    ({ firstToSeconds := t.firstToSeconds.erase first
       secondToFirsts := (t.removeResult first).1
       mirror := by
         intro a b
         rw [(t.removed_removeResult first).values, valuesOf_erase, ← t.mirror]
         by_cases ha : a = first
         · subst ha
           simp
         · simp [ha]
       seconds_nonempty := by
         intro a s hs
         rw [Dictionary.lookup_erase] at hs
         split at hs
         · cases hs
         · exact t.seconds_nonempty a s hs
       firsts_nonempty := (t.removed_removeResult first).nonempty t.firsts_nonempty },
      some (t.removeResult first).2)

/-- `Remove(second)`, `TwoWaySet.cs:119–140`: the same on the maps in the other order. -/
def removeSecond (t : TwoWaySet α β) (second : β) : TwoWaySet α β × Option (HashSet α) :=
  let (swapped, firstsWithoutSeconds) := t.swap.removeFirst second
  (swapped.swap, firstsWithoutSeconds)

/-- Removing a key removes its pairs and no others. -/
theorem contains_removeFirst {t : TwoWaySet α β} {first a : α} {b : β} :
    (t.removeFirst first).1.Contains a b ↔ a ≠ first ∧ t.Contains a b := by
  unfold removeFirst Contains
  split
  · next hl =>
    constructor
    · intro h
      refine ⟨?_, h⟩
      rintro rfl
      rw [valuesOf, hl] at h
      exact HashSet.notMem_empty _ h
    · exact And.right
  · rw [valuesOf_erase]
    by_cases ha : a = first
    · simp [ha]
    · simp [ha]

/-- The other way round a set has the same pairs. -/
theorem contains_swap {t : TwoWaySet α β} {a : α} {b : β} :
    t.swap.Contains b a ↔ t.Contains a b := (t.mirror a b).symm

/-- What is removed takes its pairs along, and no others. -/
theorem contains_removeSecond {t : TwoWaySet α β} {second b : β} {a : α} :
    (t.removeSecond second).1.Contains a b ↔ b ≠ second ∧ t.Contains a b := by
  rw [removeSecond, contains_swap, contains_removeFirst, contains_swap]

/-- Removing a key reports the values that were stored under it and under no other. -/
theorem mem_removeFirst_report {t : TwoWaySet α β} {first : α} {b : β} :
    b ∈ (t.removeFirst first).2.getD ∅ ↔
      t.Contains first b ∧ ∀ a, t.Contains a b → a = first := by
  unfold removeFirst
  split
  · next hl =>
    have hn : ¬ t.Contains first b := by
      rw [Contains, valuesOf, hl, Option.getD_none]
      exact HashSet.notMem_empty b
    simp [hn]
  · rw [Option.getD_some, (t.removed_removeResult first).reports, HashSet.mem_toList]
    simp only [HashSet.notMem_empty, false_or, Contains, t.mirror]

/-- The report names what was linked to nothing else. -/
theorem mem_removeSecond_report {t : TwoWaySet α β} {second : β} {a : α} :
    a ∈ (t.removeSecond second).2.getD ∅ ↔
      t.Contains a second ∧ ∀ b, t.Contains a b → b = second := by
  rw [removeSecond, mem_removeFirst_report]
  simp only [contains_swap]

end TwoWaySet

end MessageBus.Common

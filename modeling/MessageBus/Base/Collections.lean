import Mathlib.Data.List.AList
import Mathlib.Algebra.BigOperators.Group.List.Basic

/-!
# Dictionaries and hash sets

A dictionary is Mathlib's association list with distinct keys; a hash set is a list
without repetitions that keeps the order of insertion. The order of entries stands for
the order of enumeration, which .NET leaves open. Only the operations and the lookup
laws missing there are added: an update seen through a lookup is one `if`.
-/

namespace MessageBus.Base

universe u v w

/-! ### Hash sets -/

/-- A finite set with the order in which its elements are enumerated. -/
structure HashSet (α : Type u) where
  toList : List α
  nodup : toList.Nodup
  deriving DecidableEq

namespace HashSet

variable {α : Type u}

/-- A set has the elements that it lists. -/
instance : Membership α (HashSet α) := ⟨fun s a => a ∈ s.toList⟩

/-- The set with no element. -/
instance : EmptyCollection (HashSet α) := ⟨⟨[], List.nodup_nil⟩⟩

/-- Whether a set has an element can be computed. -/
instance [DecidableEq α] (a : α) (s : HashSet α) : Decidable (a ∈ s) :=
  inferInstanceAs (Decidable (a ∈ s.toList))

/-- Whether the set has no element. -/
def isEmpty (s : HashSet α) : Bool := s.toList.isEmpty

/-- Subset, as a decidable check of every element. -/
def subset [DecidableEq α] (s t : HashSet α) : Bool := s.toList.all (fun a => decide (a ∈ t))

/-- The list of a set has its elements. -/
@[simp] theorem mem_toList {s : HashSet α} {a : α} : a ∈ s.toList ↔ a ∈ s := Iff.rfl

/-- The empty set lists nothing. -/
@[simp] theorem toList_empty : (∅ : HashSet α).toList = [] := rfl

/-- The empty set has no element. -/
@[simp] theorem notMem_empty (a : α) : a ∉ (∅ : HashSet α) := List.not_mem_nil

/-- A set is empty if nothing is in it. -/
theorem isEmpty_iff {s : HashSet α} : s.isEmpty = true ↔ ∀ a, a ∉ s := by
  rw [isEmpty, List.isEmpty_iff, List.eq_nil_iff_forall_not_mem]
  rfl

/-- A set is not empty if something is in it. -/
theorem isEmpty_eq_false_iff {s : HashSet α} : s.isEmpty = false ↔ ∃ a, a ∈ s := by
  rw [Bool.eq_false_iff, ne_eq, isEmpty_iff]
  exact not_forall_not

variable [DecidableEq α]

/-- Insert an element at the end; a present element stays where it is. -/
def add (s : HashSet α) (a : α) : HashSet α :=
  if h : a ∈ s.toList then s
  else ⟨s.toList ++ [a], List.nodup_append.mpr ⟨s.nodup, by simp, by
    intro b hb c hc hbc
    rw [List.mem_singleton] at hc
    exact h (hc ▸ hbc ▸ hb)⟩⟩

/-- Delete an element. -/
def remove (s : HashSet α) (a : α) : HashSet α :=
  ⟨s.toList.erase a, s.nodup.erase a⟩

/-- Insert the elements of a list in order. -/
def addAll (s : HashSet α) (xs : List α) : HashSet α := xs.foldl add s

/-- Membership after an insertion. -/
@[simp] theorem mem_add {s : HashSet α} {a b : α} : b ∈ s.add a ↔ b = a ∨ b ∈ s := by
  unfold add
  split
  · next h =>
    constructor
    · exact Or.inr
    · rintro (rfl | hb)
      · exact h
      · exact hb
  · change b ∈ s.toList ++ [a] ↔ b = a ∨ b ∈ s.toList
    rw [List.mem_append, List.mem_singleton, or_comm]

/-- A set that something was added to is not empty. -/
theorem isEmpty_add (s : HashSet α) (a : α) : (s.add a).isEmpty = false :=
  isEmpty_eq_false_iff.mpr ⟨a, mem_add.mpr (.inl rfl)⟩

/-- Membership after a deletion. -/
@[simp] theorem mem_remove {s : HashSet α} {a b : α} : b ∈ s.remove a ↔ b ≠ a ∧ b ∈ s :=
  s.nodup.mem_erase_iff

/-- A new element makes the set longer by one. -/
theorem length_add {s : HashSet α} {a : α} (h : a ∉ s) :
    (s.add a).toList.length = s.toList.length + 1 := by
  have hn : a ∉ s.toList := h
  simp only [add, dif_neg hn, List.length_append, List.length_singleton]

/-- An element taken out makes the set shorter by one. -/
theorem length_remove {s : HashSet α} {a : α} (h : a ∈ s) :
    (s.remove a).toList.length + 1 = s.toList.length :=
  List.length_erase_add_one h

/-- Taking out an absent element changes nothing. -/
theorem remove_of_notMem {s : HashSet α} {a : α} (h : a ∉ s) : s.remove a = s := by
  have hl : s.toList.erase a = s.toList := List.erase_of_not_mem h
  cases s
  simp only [remove, hl]

/-- What an insertion adds to the elements that satisfy a test. -/
theorem filter_toList_add (s : HashSet α) (a : α) (q : α → Bool) :
    (s.add a).toList.filter q = s.toList.filter q ++ if q a = true ∧ a ∉ s then [a] else [] := by
  by_cases ha : a ∈ s
  · simp [add, ha]
  · by_cases hq : q a = true
    · simp [add, ha, hq]
    · simp [add, ha, hq]

/-- The test for a subset tests every element. -/
theorem subset_iff {s t : HashSet α} : s.subset t = true ↔ ∀ a ∈ s, a ∈ t := by
  simp [subset]

/-- Inserting the elements of a set in order onto a disjoint prefix appends them. -/
theorem toList_addAll (s : HashSet α) (xs : List α) (h : (s.toList ++ xs).Nodup) :
    (s.addAll xs).toList = s.toList ++ xs := by
  induction xs generalizing s with
  | nil => simp [addAll]
  | cons x xs ih =>
    have hx : x ∉ s.toList := by
      intro hm
      exact (List.nodup_append.mp h).2.2 x hm x (List.mem_cons_self ..) rfl
    have hl : (s.add x).toList = s.toList ++ [x] := by simp only [add, dif_neg hx]
    have hs : addAll s (x :: xs) = addAll (s.add x) xs := rfl
    rw [hs, ih (s.add x) (by rw [hl]; simpa using h), hl, List.append_assoc,
      List.singleton_append]

/-- A set is rebuilt, order included, by inserting its elements one by one. -/
theorem addAll_toList (s : HashSet α) : addAll ∅ s.toList = s := by
  have h := toList_addAll ∅ s.toList (by simpa using s.nodup)
  cases hs : addAll ∅ s.toList
  cases s
  simp_all

end HashSet

/-! ### Dictionaries -/

/-- Key–value pairs with distinct keys. -/
abbrev Dictionary (κ : Type u) (ν : Type v) := AList (fun _ : κ => ν)

namespace Dictionary

variable {κ : Type u} {ν : Type v} {ν' : Type w}

/-- Whether no key is present. -/
def isEmpty (d : Dictionary κ ν) : Bool := d.entries.isEmpty

/-- Apply a function to every value. -/
def mapValues (f : κ → ν → ν') (d : Dictionary κ ν) : Dictionary κ ν' :=
  ⟨d.entries.map (fun e => ⟨e.1, f e.1 e.2⟩), by
    have h := d.nodupKeys
    rw [List.NodupKeys, List.keys] at h ⊢
    simpa [List.map_map, Function.comp_def] using h⟩

/-- Keep the entries that satisfy a test. -/
def filterEntries (p : κ → ν → Bool) (d : Dictionary κ ν) : Dictionary κ ν :=
  ⟨d.entries.filter (fun e => p e.1 e.2), by
    have h := d.nodupKeys
    rw [List.NodupKeys, List.keys] at h ⊢
    exact h.sublist (List.filter_sublist.map _)⟩

/-- A dictionary without entries is the empty one. -/
theorem eq_empty_of_isEmpty {d : Dictionary κ ν} (h : d.isEmpty = true) : d = ∅ :=
  AList.ext (List.isEmpty_iff.mp h)

variable [DecidableEq κ]

/-- A lookup after an insertion. -/
theorem lookup_insert (d : Dictionary κ ν) (a b : κ) (v : ν) :
    (d.insert b v).lookup a = if a = b then some v else d.lookup a := by
  split
  · next h => rw [h, AList.lookup_insert]
  · next h => exact AList.lookup_insert_ne h

/-- A lookup after a deletion. -/
theorem lookup_erase (d : Dictionary κ ν) (a b : κ) :
    (d.erase b).lookup a = if a = b then none else d.lookup a := by
  split
  · next h => rw [h, AList.lookup_erase]
  · next h => exact AList.lookup_erase_ne h

/-- What a lookup finds is an entry. -/
theorem lookup_eq_some_iff {d : Dictionary κ ν} {a : κ} {v : ν} :
    d.lookup a = some v ↔ (⟨a, v⟩ : Sigma fun _ : κ => ν) ∈ d.entries :=
  AList.mem_lookup_iff

/-- A lookup after a function was applied to every value. -/
theorem lookup_mapValues (f : κ → ν → ν') (d : Dictionary κ ν) (a : κ) :
    (d.mapValues f).lookup a = (d.lookup a).map (f a) := by
  apply Option.ext
  intro v
  rw [lookup_eq_some_iff, Option.map_eq_some_iff]
  constructor
  · intro h
    obtain ⟨⟨b, w⟩, hm, he⟩ := List.mem_map.mp h
    cases he
    exact ⟨w, lookup_eq_some_iff.mpr hm, rfl⟩
  · rintro ⟨w, hw, rfl⟩
    exact List.mem_map.mpr ⟨⟨a, w⟩, lookup_eq_some_iff.mp hw, rfl⟩

/-- A lookup after the entries were filtered. -/
theorem lookup_filterEntries (p : κ → ν → Bool) (d : Dictionary κ ν) (a : κ) :
    (d.filterEntries p).lookup a = (d.lookup a).filter (p a) := by
  apply Option.ext
  intro v
  rw [lookup_eq_some_iff, Option.filter_eq_some_iff, lookup_eq_some_iff]
  exact List.mem_filter

/-- Keep an inner dictionary under its key, or drop the key once it is empty. -/
def store {ι : Type w} (d : Dictionary κ (Dictionary ι ν)) (a : κ) (inner : Dictionary ι ν) :
    Dictionary κ (Dictionary ι ν) :=
  if inner.isEmpty then d.erase a else d.insert a inner

/-- A lookup after an inner dictionary was kept or dropped. -/
theorem lookup_store {ι : Type w} (d : Dictionary κ (Dictionary ι ν)) (a b : κ)
    (inner : Dictionary ι ν) : (d.store b inner).lookup a =
      if a = b then (if inner.isEmpty then none else some inner) else d.lookup a := by
  unfold store
  split
  · exact lookup_erase d a b
  · exact lookup_insert d a b inner

/-- An absent inner dictionary and an empty one are the same to a reader. -/
theorem getD_lookup_store {ι : Type w} (d : Dictionary κ (Dictionary ι ν)) (a b : κ)
    (inner : Dictionary ι ν) :
    ((d.store b inner).lookup a).getD ∅ = if a = b then inner else (d.lookup a).getD ∅ := by
  unfold store
  split
  · next h =>
    rw [lookup_erase]
    split
    · exact (eq_empty_of_isEmpty h).symm
    · rfl
  · rw [lookup_insert]
    split
    · rfl
    · rfl

/-- The keys of a dictionary are those with a successful lookup. -/
theorem mem_entries_iff {d : Dictionary κ ν} {e : Sigma fun _ : κ => ν} :
    e ∈ d.entries ↔ d.lookup e.1 = some e.2 := lookup_eq_some_iff.symm

/-- An empty dictionary is one without a successful lookup. -/
theorem isEmpty_iff {d : Dictionary κ ν} :
    d.isEmpty = true ↔ ∀ a, d.lookup a = none := by
  rw [isEmpty, List.isEmpty_iff]
  constructor
  · intro h a
    have hd : d = ∅ := AList.ext h
    rw [hd, AList.lookup_empty]
  · intro h
    rw [List.eq_nil_iff_forall_not_mem]
    rintro ⟨a, v⟩ hm
    have := lookup_eq_some_iff.mpr hm
    rw [h a] at this
    cases this

/-- A dictionary that something was stored in is not empty. -/
theorem isEmpty_insert (d : Dictionary κ ν) (a : κ) (v : ν) : isEmpty (d.insert a v) = false := by
  rw [Bool.eq_false_iff, ne_eq, isEmpty_iff]
  intro h
  have hnone := h a
  rw [AList.lookup_insert] at hnone
  cases hnone

/-- What is kept of an inner dictionary is not empty. -/
theorem isEmpty_of_lookup_store {ι : Type w} {d : Dictionary κ (Dictionary ι ν)} {a b : κ}
    {inner stored : Dictionary ι ν} (h : (d.store b inner).lookup a = some stored)
    (hd : ∀ a stored, d.lookup a = some stored → stored.isEmpty = false) :
    stored.isEmpty = false := by
  rw [lookup_store] at h
  split at h
  · split at h
    · cases h
    · next hinner =>
      cases h
      exact Bool.eq_false_iff.mpr hinner
  · exact hd a stored h

/-! ### Sums over a dictionary -/

variable {M : Type w} [AddCommMonoid M]

/-- The sum of what each entry contributes. -/
def sumBy (g : κ → ν → M) (d : Dictionary κ ν) : M := (d.entries.map fun e => g e.1 e.2).sum

/-- What a dictionary without the key still sums up to. -/
theorem sumBy_erase (g : κ → ν → M) (d : Dictionary κ ν) (a : κ) :
    sumBy g (d.erase a) + (d.lookup a).elim 0 (g a) = sumBy g d := by
  unfold sumBy
  change ((List.kerase a d.entries).map fun e => g e.1 e.2).sum +
    (List.dlookup a d.entries).elim 0 (g a) = _
  induction d.entries with
  | nil => simp
  | cons e es ih =>
    by_cases ha : a = e.1
    · subst ha
      rw [List.kerase_cons_eq rfl, List.dlookup_cons_eq, List.map_cons, List.sum_cons, add_comm]
      rfl
    · rw [List.kerase_cons_ne ha, List.dlookup_cons_ne _ _ ha, List.map_cons, List.map_cons,
        List.sum_cons, List.sum_cons, add_assoc, ih]

/-- The new entry takes the place of the old one in the sum. -/
theorem sumBy_insert (g : κ → ν → M) (d : Dictionary κ ν) (a : κ) (v : ν) :
    sumBy g (d.insert a v) + (d.lookup a).elim 0 (g a) = sumBy g d + g a v := by
  have hinsert : sumBy g (d.insert a v) = g a v + sumBy g (d.erase a) := by
    rw [sumBy, AList.entries_insert, List.map_cons, List.sum_cons]
    rfl
  rw [hinsert, add_assoc, sumBy_erase, add_comm]

/-- An inner dictionary kept under its key, or dropped with nothing to contribute. -/
theorem sumBy_store {ι : Type*} (g : κ → Dictionary ι ν → M) (d : Dictionary κ (Dictionary ι ν))
    (a : κ) (inner : Dictionary ι ν) (hg : g a ∅ = 0) :
    sumBy g (d.store a inner) + (d.lookup a).elim 0 (g a) = sumBy g d + g a inner := by
  unfold store
  split
  · next h => rw [sumBy_erase, eq_empty_of_isEmpty h, hg, add_zero]
  · exact sumBy_insert ..

end Dictionary

/-! ### Results -/

/-- One step after another returns exactly if both do. -/
theorem bind_eq_ok_iff {ε α β : Type} {x : Except ε α} {f : α → Except ε β} {b : β} :
    x >>= f = .ok b ↔ ∃ a, x = .ok a ∧ f a = .ok b := by
  cases x with
  | error e => exact ⟨nofun, nofun⟩
  | ok a => exact ⟨fun h => ⟨a, rfl, h⟩, fun ⟨_, ha, h⟩ => (Except.ok.inj ha) ▸ h⟩

/-! ### Lists -/

/-- A list without repetitions has at most one element for which something is listed. -/
theorem flatMap_ite_eq {α : Type u} {β : Type v} [DecidableEq α] {xs : List α} (hn : xs.Nodup)
    (a : α) (b : β) : (xs.flatMap fun x => if x = a then [b] else []) =
      if a ∈ xs then [b] else [] := by
  induction xs with
  | nil => rfl
  | cons x xs ih =>
    obtain ⟨hx, hn⟩ := List.nodup_cons.mp hn
    rw [List.flatMap_cons, ih hn]
    by_cases hxa : x = a
    · subst hxa
      simp [hx]
    · simp [hxa, Ne.symm hxa]

/-- The second list is the first with elements that satisfy `P` put in. -/
inductive Interspersed {α : Type u} (P : α → Prop) : List α → List α → Prop
  | nil : Interspersed P [] []
  | keep {x : α} {xs ys : List α} : Interspersed P xs ys → Interspersed P (x :: xs) (x :: ys)
  | insert {y : α} {xs ys : List α} : P y → Interspersed P xs ys → Interspersed P xs (y :: ys)

namespace Interspersed

variable {α : Type u} {P : α → Prop} {xs xs' ys ys' : List α}

/-- A list is itself with nothing put in. -/
theorem refl (xs : List α) : Interspersed P xs xs := by
  induction xs with
  | nil => exact .nil
  | cons x xs ih => exact .keep ih

/-- What may be put in may be put into the empty list. -/
theorem of_forall (h : ∀ y ∈ ys, P y) : Interspersed P [] ys := by
  induction ys with
  | nil => exact .nil
  | cons y ys ih =>
    exact .insert (h y (List.mem_cons_self ..)) (ih fun z hz => h z (List.mem_cons_of_mem _ hz))

/-- Elements may be put into two lists that are put together. -/
theorem append (h : Interspersed P xs ys) (h' : Interspersed P xs' ys') :
    Interspersed P (xs ++ xs') (ys ++ ys') := by
  induction h with
  | nil => exact h'
  | keep _ ih => exact .keep ih
  | insert hp _ ih => exact .insert hp ih

end Interspersed

end MessageBus.Base

import Mathlib.Data.List.Infix

/-!
# Glob patterns

A pattern is a list of tokens over any alphabet: a token for one element, a token for any
sequence, and literals, which match up to a given relation. `Matches` is the reference
relation between patterns and whole texts; nothing here runs a matcher.
-/

namespace MessageBus.Base.Glob

universe u v

/-- One element, any sequence of elements, or an element related to the literal. -/
inductive Token (α : Type u) where
  | one
  | many
  | literal (a : α)
  deriving DecidableEq

variable {α : Type u} {β : Type v}

/-- The pattern matches the whole text. -/
inductive Matches (R : α → β → Prop) : List (Token α) → List β → Prop
  | nil : Matches R [] []
  | one {p : List (Token α)} {text : List β} (b : β) :
      Matches R p text → Matches R (.one :: p) (b :: text)
  | many {p : List (Token α)} {text : List β} (skipped : List β) :
      Matches R p text → Matches R (.many :: p) (skipped ++ text)
  | literal {p : List (Token α)} {text : List β} {a : α} {b : β} :
      R a b → Matches R p text → Matches R (.literal a :: p) (b :: text)

variable {R : α → β → Prop} {p q : List (Token α)} {text : List β}

/-! ### One token at a time -/

/-- The empty pattern matches the empty text only. -/
theorem matches_nil_iff : Matches R [] text ↔ text = [] := by
  constructor
  · intro h
    cases h
    rfl
  · rintro rfl
    exact .nil

/-- A single wildcard does not match the end of the text. -/
theorem not_matches_one_nil : ¬ Matches R (.one :: p) [] := by
  intro h
  cases h

/-- A literal does not match the end of the text. -/
theorem not_matches_literal_nil {a : α} : ¬ Matches R (.literal a :: p) [] := by
  intro h
  cases h

/-- A single wildcard matches any element. -/
theorem matches_one_cons_iff {b : β} : Matches R (.one :: p) (b :: text) ↔ Matches R p text := by
  constructor
  · intro h
    cases h with
    | one _ h => exact h
  · exact .one b

/-- A literal matches the elements that it is related to. -/
theorem matches_literal_cons_iff {a : α} {b : β} :
    Matches R (.literal a :: p) (b :: text) ↔ R a b ∧ Matches R p text := by
  constructor
  · intro h
    cases h with
    | literal hab h => exact ⟨hab, h⟩
  · exact fun h => .literal h.1 h.2

/-- After a token for any sequence, the rest of the pattern matches some suffix. -/
theorem matches_many_iff :
    Matches R (.many :: p) text ↔ ∃ rest, rest <:+ text ∧ Matches R p rest := by
  constructor
  · intro h
    cases h with
    | many skipped h => exact ⟨_, List.suffix_append skipped _, h⟩
  · rintro ⟨rest, ⟨skipped, rfl⟩, h⟩
    exact .many skipped h

/-! ### Parts of a pattern -/

/-- A pattern in two parts matches a text exactly if the parts match two parts of it. -/
theorem matches_append_iff :
    Matches R (p ++ q) text ↔
      ∃ front back, text = front ++ back ∧ Matches R p front ∧ Matches R q back := by
  constructor
  · intro h
    induction p generalizing text with
    | nil => exact ⟨[], text, rfl, .nil, h⟩
    | cons token p ih =>
      rw [List.cons_append] at h
      cases h with
      | one b h =>
        obtain ⟨front, back, rfl, hp, hq⟩ := ih h
        exact ⟨b :: front, back, rfl, .one b hp, hq⟩
      | many skipped h =>
        obtain ⟨front, back, rfl, hp, hq⟩ := ih h
        exact ⟨skipped ++ front, back, (List.append_assoc ..).symm, .many skipped hp, hq⟩
      | literal hab h =>
        obtain ⟨front, back, rfl, hp, hq⟩ := ih h
        exact ⟨_ :: front, back, rfl, .literal hab hp, hq⟩
  · rintro ⟨front, back, rfl, hp, hq⟩
    induction hp with
    | nil => exact hq
    | one b _ ih => exact .one b ih
    | many skipped _ ih =>
      rw [List.append_assoc]
      exact .many skipped ih
    | literal hab _ ih => exact .literal hab ih

/-- A pattern that matches a prefix of a text, and the text with something before it,
matches the text. -/
theorem Matches.between {front whole : List β} (hfront : Matches R p front)
    (hwhole : Matches R p whole) (hstart : front <+: text) (hsuffix : text <:+ whole) :
    Matches R p text := by
  induction hfront generalizing text whole with
  | nil =>
    obtain rfl := matches_nil_iff.mp hwhole
    obtain rfl := List.suffix_nil.mp hsuffix
    exact .nil
  | one b hfront ih =>
    obtain ⟨back, rfl⟩ := hstart
    cases hwhole with
    | one c hwhole =>
      rcases List.suffix_cons_iff.mp hsuffix with heq | hsuffix
      · rw [heq]
        exact .one c hwhole
      · exact .one b (ih hwhole (List.prefix_append ..) ((List.suffix_cons ..).trans hsuffix))
  | literal hab hfront ih =>
    obtain ⟨back, rfl⟩ := hstart
    cases hwhole with
    | literal hac hwhole =>
      rcases List.suffix_cons_iff.mp hsuffix with heq | hsuffix
      · rw [heq]
        exact .literal hac hwhole
      · exact .literal hab
          (ih hwhole (List.prefix_append ..) ((List.suffix_cons ..).trans hsuffix))
  | many skipped hfront ih =>
    obtain ⟨back, rfl⟩ := hstart
    obtain ⟨rest, hrest, hmatches⟩ := matches_many_iff.mp hwhole
    rw [List.append_assoc] at hsuffix ⊢
    -- Of two suffixes of the whole one is a suffix of the other.
    rcases List.suffix_or_suffix_of_suffix hrest ((List.suffix_append ..).trans hsuffix) with
      hshort | hlong
    · exact matches_many_iff.mpr ⟨rest, hshort.trans (List.suffix_append ..), hmatches⟩
    · exact .many skipped (ih hmatches (List.prefix_append ..) hlong)

end MessageBus.Base.Glob

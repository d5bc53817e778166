import MessageBus.Base.Collections

/-!
# Programs over bytes in memory

A `MemoryStream` is a position in a list of bytes; a `StreamReader` is a program that moves it
and may fail. `Reads` says that a program takes exactly these bytes wherever they come next,
`ReadsToEnd` the same of the last bytes only, and `Ensures` that whatever the program returns
has a property. Each has a rule for one program after another.
-/

namespace MessageBus.Base

/-- The bytes before the position, last first, and those from it on. -/
structure MemoryStream where
  before : List UInt8
  remaining : List UInt8

/-- A program that moves a position, with failures of type `ε`. -/
abbrev StreamReader (ε : Type) := StateT MemoryStream (Except ε)

namespace StreamReader

variable {ε α β : Type} {r : StreamReader ε α} {f : α → StreamReader ε β}
variable {xs ys : List UInt8} {a : α} {b : β} {P : α → Prop} {Q : β → Prop}

/-- Wherever the bytes come next, the program takes them, and returns the value. -/
def Reads (r : StreamReader ε α) (bytes : List UInt8) (a : α) : Prop :=
  ∀ before rest, r ⟨before, bytes ++ rest⟩ = .ok (a, ⟨bytes.reverse ++ before, rest⟩)

/-- With the bytes left in the stream, the program returns the value. -/
def ReadsToEnd (r : StreamReader ε α) (bytes : List UInt8) (a : α) : Prop :=
  ∀ before, Prod.fst <$> r ⟨before, bytes⟩ = .ok a

/-- What the program returns has the property. -/
def Ensures (r : StreamReader ε α) (P : α → Prop) : Prop :=
  ∀ s a s', r s = .ok (a, s') → P a

/-! ### Bytes that are taken -/

/-- To return a value reads nothing. -/
theorem reads_pure (a : α) : Reads (pure a : StreamReader ε α) [] a := fun _ _ => rfl

/-- One program after another takes what they take. -/
theorem Reads.bind (hr : Reads r xs a) (hf : Reads (f a) ys b) : Reads (r >>= f) (xs ++ ys) b := by
  intro before rest
  have hfirst := hr before (ys ++ rest)
  have hsecond := hf (xs.reverse ++ before) rest
  change (r ⟨before, xs ++ ys ++ rest⟩ >>= fun x => f x.1 x.2) = _
  rw [List.append_assoc, hfirst, List.reverse_append, List.append_assoc]
  exact hsecond

/-- A program after which no more is taken. -/
theorem Reads.bind_nil (hr : Reads r xs a) (hf : Reads (f a) [] b) : Reads (r >>= f) xs b := by
  have h := hr.bind hf
  rwa [List.append_nil] at h

/-- What is made of a value reads what was read for it. -/
theorem Reads.then {g : α → β} (hr : Reads r xs a) :
    Reads (r >>= fun a => pure (g a)) xs (g a) :=
  hr.bind_nil (reads_pure (g a))

/-- What reads its bytes wherever they stand reads them at the end of a stream. -/
theorem Reads.toEnd (hr : Reads r xs a) : ReadsToEnd r xs a := by
  intro before
  have h := hr before []
  rw [List.append_nil] at h
  rw [h]
  rfl

/-- What one program leaves is what another finds. -/
theorem Reads.bind_toEnd (hr : Reads r xs a) (hf : ReadsToEnd (f a) ys b) :
    ReadsToEnd (r >>= f) (xs ++ ys) b := by
  intro before
  change Prod.fst <$> (r ⟨before, xs ++ ys⟩ >>= fun x => f x.1 x.2) = _
  rw [hr before ys]
  exact hf _

/-- A reader of a whole stream returns its value. -/
theorem ReadsToEnd.run'_eq (hr : ReadsToEnd r xs a) : r.run' ⟨[], xs⟩ = .ok a := hr []

/-! ### Values that are returned -/

/-- A value that is returned ensures what it meets. -/
theorem ensures_pure (h : P a) : Ensures (pure a : StreamReader ε α) P := by
  intro s b s' hb
  cases hb
  exact h

/-- A result that is lifted ensures what its value meets. -/
theorem ensures_lift {x : Except ε α} (h : ∀ a, x = .ok a → P a) :
    Ensures (StateT.lift x : StreamReader ε α) P := by
  intro s b s' hb
  obtain ⟨a, ha, hb⟩ := bind_eq_ok_iff.mp hb
  cases hb
  exact h _ ha

/-- Every reader ensures what always holds. -/
theorem ensures_true (r : StreamReader ε α) : Ensures r fun _ => True :=
  fun _ _ _ _ => trivial

/-- Two readers in a row return if the first does and the second does on what is left. -/
theorem apply_bind_eq_ok_iff {s s' : MemoryStream} :
    (r >>= f) s = .ok (b, s') ↔ ∃ a t, r s = .ok (a, t) ∧ f a t = .ok (b, s') := by
  refine bind_eq_ok_iff.trans ?_
  rw [Prod.exists]

/-- What the first program ensures, the second may use. -/
theorem Ensures.bind (hr : Ensures r P) (hf : ∀ a, P a → Ensures (f a) Q) :
    Ensures (r >>= f) Q := by
  intro s b s' h
  obtain ⟨a, t, hfirst, hsecond⟩ := apply_bind_eq_ok_iff.mp h
  exact hf a (hr s a t hfirst) t b s' hsecond

/-- A test decides which program goes on. -/
theorem ensures_ite {c : Prop} [Decidable c] {r' : StreamReader ε α} (h : Ensures r P)
    (h' : Ensures r' P) : Ensures (if c then r else r') P := by
  split
  · exact h
  · exact h'

/-- What a reader ensures, its value on any stream meets. -/
theorem Ensures.of_run' (hr : Ensures r P) {s : MemoryStream} (h : r.run' s = .ok a) : P a := by
  obtain ⟨x, hresult, hx⟩ := bind_eq_ok_iff.mp h
  cases hx
  exact hr s x.1 x.2 hresult

end StreamReader

end MessageBus.Base

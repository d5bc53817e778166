import Mathlib.Data.List.Basic

/-!
# Base64

Bytes as text over an alphabet of 64 characters, three bytes by four characters, the last
group filled up with the padding character. The decoder ignores white space and the bits that
padding leaves over, and rejects every other character.
-/

namespace MessageBus.Base.Base64

/-- The character of a number below 64. -/
def digit (n : Nat) : Char :=
  if n < 26 then Char.ofNat (65 + n)
  else if n < 52 then Char.ofNat (97 + (n - 26))
  else if n < 62 then Char.ofNat (48 + (n - 52))
  else if n = 62 then '+' else '/'

/-- The number of a character of the alphabet. -/
def digitValue (c : Char) : Option Nat :=
  if 65 ≤ c.toNat ∧ c.toNat ≤ 90 then some (c.toNat - 65)
  else if 97 ≤ c.toNat ∧ c.toNat ≤ 122 then some (c.toNat - 97 + 26)
  else if 48 ≤ c.toNat ∧ c.toNat ≤ 57 then some (c.toNat - 48 + 52)
  else if c = '+' then some 62
  else if c = '/' then some 63
  else none

/-- The text of bytes. -/
def encode : List UInt8 → List Char
  | [] => []
  | [a] => [digit (a.toNat / 4), digit (a.toNat % 4 * 16), '=', '=']
  | [a, b] => [digit (a.toNat / 4), digit (a.toNat % 4 * 16 + b.toNat / 16),
      digit (b.toNat % 16 * 4), '=']
  | a :: b :: c :: bytes => digit (a.toNat / 4) :: digit (a.toNat % 4 * 16 + b.toNat / 16) ::
      digit (b.toNat % 16 * 4 + c.toNat / 64) :: digit (c.toNat % 64) :: encode bytes

/-- The bytes of groups of four characters. -/
def decodeGroups : List Char → Option (List UInt8)
  | [] => some []
  | a :: b :: c :: d :: rest => do
    let x ← digitValue a
    let y ← digitValue b
    let first := UInt8.ofNat (x * 4 + y / 16)
    if rest = [] ∧ c = '=' ∧ d = '=' then return [first]
    let z ← digitValue c
    let second := UInt8.ofNat (y % 16 * 16 + z / 4)
    if rest = [] ∧ d = '=' then return [first, second]
    let w ← digitValue d
    let bytes ← decodeGroups rest
    return first :: second :: UInt8.ofNat (z % 4 * 64 + w) :: bytes
  | _ => none

/-- The characters that a decoder passes over. -/
def isWhiteSpace (c : Char) : Bool := c == ' ' || c == '\t' || c == '\n' || c == '\r'

/-- The bytes of a text. -/
def decode (text : List Char) : Option (List UInt8) :=
  decodeGroups (text.filter fun c => !isWhiteSpace c)

/-- The characters that occur in a text of bytes. -/
def IsTextChar (c : Char) : Prop := c = '=' ∨ ∃ n < 64, c = digit n

/-- A digit has the value that it was made of. -/
theorem digitValue_digit {n : Nat} (h : n < 64) : digitValue (digit n) = some n := by
  revert n
  decide

/-- No digit is the padding. -/
theorem digit_ne_pad {n : Nat} (h : n < 64) : digit n ≠ '=' := by
  revert n
  decide

/-- What neither the padding nor a digit has, no character of an encoding has. -/
theorem IsTextChar.eq_false {p : Char → Bool} (hpad : p '=' = false)
    (hdigit : ∀ n < 64, p (digit n) = false) {c : Char} (h : IsTextChar c) : p c = false := by
  obtain rfl | ⟨n, hn, rfl⟩ := h
  · exact hpad
  · exact hdigit n hn

/-- An encoding has digits and padding only. -/
theorem isTextChar_of_mem_encode {bytes : List UInt8} : ∀ c ∈ encode bytes, IsTextChar c := by
  have hof {n : Nat} (h : n < 64) : IsTextChar (digit n) := .inr ⟨n, h, rfl⟩
  have hpad : IsTextChar '=' := .inl rfl
  fun_induction encode bytes with
  | case1 => simp
  | case2 a =>
    have := a.toNat_lt
    simp only [List.forall_mem_cons]
    exact ⟨hof (by omega), hof (by omega), hpad, hpad, by simp⟩
  | case3 a b =>
    have := a.toNat_lt
    have := b.toNat_lt
    simp only [List.forall_mem_cons]
    exact ⟨hof (by omega), hof (by omega), hof (by omega), hpad, by simp⟩
  | case4 a b c bytes ih =>
    have := a.toNat_lt
    have := b.toNat_lt
    have := c.toNat_lt
    simp only [List.forall_mem_cons]
    exact ⟨hof (by omega), hof (by omega), hof (by omega), hof (by omega), ih⟩

private theorem ofNat_eq {a : UInt8} {n : Nat} (h : n = a.toNat) : UInt8.ofNat n = a := by
  rw [h, UInt8.ofNat_toNat]

/-- The groups of an encoding are decoded to what was encoded. -/
theorem decodeGroups_encode (bytes : List UInt8) : decodeGroups (encode bytes) = some bytes := by
  fun_induction encode bytes with
  | case1 => rfl
  | case2 a =>
    have := a.toNat_lt
    rw [decodeGroups, digitValue_digit (by omega), digitValue_digit (by omega)]
    simp only [Option.bind_eq_bind, Option.bind_some, and_self, if_true]
    rw [ofNat_eq (a := a) (by omega)]
    rfl
  | case3 a b =>
    have := a.toNat_lt
    have := b.toNat_lt
    rw [decodeGroups, digitValue_digit (by omega), digitValue_digit (by omega),
      digitValue_digit (by omega)]
    simp only [Option.bind_eq_bind, Option.bind_some, true_and, and_true,
      digit_ne_pad (n := b.toNat % 16 * 4) (by omega), if_false, if_true]
    rw [ofNat_eq (a := a) (by omega), ofNat_eq (a := b) (by omega)]
    rfl
  | case4 a b c bytes ih =>
    have := a.toNat_lt
    have := b.toNat_lt
    have := c.toNat_lt
    rw [decodeGroups, digitValue_digit (by omega), digitValue_digit (by omega),
      digitValue_digit (by omega), digitValue_digit (by omega), ih]
    simp only [Option.bind_eq_bind, Option.bind_some,
      digit_ne_pad (n := c.toNat % 64) (by omega), and_false, if_false]
    rw [ofNat_eq (a := a) (by omega), ofNat_eq (a := b) (by omega), ofNat_eq (a := c) (by omega)]
    rfl

/-- The bytes of the text of bytes are these bytes. -/
theorem decode_encode (bytes : List UInt8) : decode (encode bytes) = some bytes := by
  have hall : (encode bytes).filter (fun c => !isWhiteSpace c) = encode bytes := by
    apply List.filter_eq_self.mpr
    intro c hc
    rw [(isTextChar_of_mem_encode c hc).eq_false (p := isWhiteSpace) (by decide) (by decide)]
    rfl
  rw [decode, hall, decodeGroups_encode]

end MessageBus.Base.Base64

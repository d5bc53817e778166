import Mathlib.Data.Nat.Digits.Lemmas

/-!
# Big-endian numbers and their DER encoding

Numbers as bytes, most significant first and without a leading zero, and the encoding of
lengths, INTEGER, OCTET STRING and SEQUENCE by the distinguished encoding rules.
-/

namespace MessageBus.Base.Der

/-! ### Big-endian bytes -/

/-- The big-endian bytes of a number, without a leading zero. -/
def bigEndian (n : Nat) : List UInt8 := ((Nat.digits 256 n).map UInt8.ofNat).reverse

/-- The number that has the bytes, most significant first. -/
def value (bytes : List UInt8) : Nat := Nat.ofDigits 256 (bytes.reverse.map UInt8.toNat)

/-- The big-endian bytes of a number have its value. -/
theorem value_bigEndian (n : Nat) : value (bigEndian n) = n := by
  have hdigits : ((Nat.digits 256 n).map UInt8.ofNat).map UInt8.toNat = Nat.digits 256 n := by
    rw [List.map_map]
    refine (List.map_congr_left fun d hd => ?_).trans (List.map_id _)
    have := Nat.digits_lt_base (by decide) hd
    simp only [Function.comp_apply, UInt8.toNat_ofNat', id_eq]
    omega
  rw [value, bigEndian, List.reverse_reverse, hdigits, Nat.ofDigits_digits]

/-- Bytes without a leading zero are those of their number. -/
theorem bigEndian_value {bytes : List UInt8} (h : bytes.head? ≠ some 0) :
    bigEndian (value bytes) = bytes := by
  have hdigits : Nat.digits 256 (value bytes) = bytes.reverse.map UInt8.toNat := by
    apply Nat.digits_ofDigits 256 (by decide)
    · intro d hd
      obtain ⟨b, -, rfl⟩ := List.mem_map.mp hd
      exact b.toNat_lt
    · intro hne hlast
      apply h
      have hbytes : bytes ≠ [] := by simpa using hne
      rw [List.getLast_map, List.getLast_reverse] at hlast
      rw [List.head?_eq_some_head hbytes]
      exact congrArg some (UInt8.toNat_inj.mp hlast)
  rw [bigEndian, hdigits, List.map_map, List.map_reverse, List.reverse_reverse]
  refine (List.map_congr_left fun b _ => ?_).trans (List.map_id _)
  exact UInt8.ofNat_toNat

/-- The shortest bytes of a number begin with no zero. -/
theorem head?_bigEndian (n : Nat) : (bigEndian n).head? ≠ some 0 := by
  rw [bigEndian, List.head?_reverse, List.getLast?_map]
  intro h
  obtain ⟨d, hd, hzero⟩ := Option.map_eq_some_iff.mp h
  have hn : n ≠ 0 := by
    rintro rfl
    simp at hd
  have hne : Nat.digits 256 n ≠ [] := Nat.digits_ne_nil_iff_ne_zero.mpr hn
  rw [List.getLast?_eq_some_getLast hne, Option.some_inj] at hd
  have hlt : d < 256 := hd ▸ Nat.digits_lt_base (by decide) (List.getLast_mem hne)
  have hd0 : d ≠ 0 := hd ▸ Nat.getLast_digit_ne_zero 256 hn
  have hd256 : d % 256 = 0 := by
    have := congrArg UInt8.toNat hzero
    rwa [UInt8.toNat_ofNat'] at this
  omega

/-- The bytes of a number are more than `k` exactly if it is no less than `256 ^ k`. -/
theorem lt_length_bigEndian_iff {k n : Nat} : k < (bigEndian n).length ↔ 256 ^ k ≤ n := by
  rw [bigEndian, List.length_reverse, List.length_map]
  exact Nat.lt_digits_length_iff (by decide) n

/-- A greater number has no fewer bytes. -/
theorem length_bigEndian_mono {m n : Nat} (h : m ≤ n) :
    (bigEndian m).length ≤ (bigEndian n).length := by
  by_contra hlt
  have hpow := lt_length_bigEndian_iff.mp (Nat.not_le.mp hlt)
  exact Nat.lt_irrefl _ (lt_length_bigEndian_iff.mpr (hpow.trans h))

/-- A number above zero has bytes. -/
theorem bigEndian_ne_nil {n : Nat} (h : 0 < n) : bigEndian n ≠ [] := by
  rw [← List.length_pos_iff, lt_length_bigEndian_iff]
  exact h

/-- A number that fits a byte is one byte. -/
theorem bigEndian_of_lt {n : Nat} (h0 : 0 < n) (h : n < 256) : bigEndian n = [UInt8.ofNat n] := by
  rw [bigEndian, Nat.digits_of_lt 256 n (by omega) h]
  rfl

/-- A number of two bytes. -/
theorem bigEndian_two {n : Nat} (hl : 256 ≤ n) (hu : n < 65536) :
    bigEndian n = [UInt8.ofNat (n / 256), UInt8.ofNat (n % 256)] := by
  have hhigh : 0 < n / 256 := by omega
  have hdigits : Nat.digits 256 n = [n % 256, n / 256] := by
    rw [Nat.digits_def' (by decide) (by omega), Nat.digits_of_lt 256 (n / 256) (by omega)
      (by omega)]
  rw [bigEndian, hdigits]
  rfl

/-! ### Encodings -/

/-- The octets that give the length of a content. -/
def lengthOctets (n : Nat) : List UInt8 :=
  if n < 128 then [UInt8.ofNat n]
  else UInt8.ofNat (128 + (bigEndian n).length) :: bigEndian n

/-- A tag, the length of a content, and the content. -/
def tlv (tag : UInt8) (content : List UInt8) : List UInt8 :=
  tag :: (lengthOctets content.length ++ content)

/-- The content of an INTEGER that is not negative: a zero goes before a first bit that is
set, and stands for zero. -/
def integerContent (n : Nat) : List UInt8 :=
  match bigEndian n with
  | [] => [0]
  | b :: bytes => if b < 128 then b :: bytes else 0 :: b :: bytes

/-- An INTEGER. -/
def integer (n : Nat) : List UInt8 := tlv 0x02 (integerContent n)

/-- An OCTET STRING. -/
def octetString (content : List UInt8) : List UInt8 := tlv 0x04 content

/-- A SEQUENCE of the encodings of its elements. -/
def sequence (elements : List UInt8) : List UInt8 := tlv 0x30 elements

/-- The content of a positive INTEGER is its bytes, perhaps after one zero. -/
theorem integerContent_eq {n : Nat} (h : 0 < n) : ∃ b bytes, b ≠ 0 ∧ bigEndian n = b :: bytes ∧
    (integerContent n = b :: bytes ∨ integerContent n = 0 :: b :: bytes) := by
  have hhead := head?_bigEndian n
  unfold integerContent
  cases hn : bigEndian n with
  | nil => exact absurd hn (bigEndian_ne_nil h)
  | cons b bytes =>
    rw [hn, List.head?_cons, ne_eq, Option.some_inj] at hhead
    refine ⟨b, bytes, hhead, rfl, ?_⟩
    simp only
    split
    · exact .inl rfl
    · exact .inr rfl

/-- A length below 64 kB takes one octet, or one octet that counts one or two more. -/
theorem lengthOctets_cases {n : Nat} (h : n < 65536) :
    (n < 128 ∧ lengthOctets n = [UInt8.ofNat n]) ∨
      (128 ≤ n ∧ n < 256 ∧ lengthOctets n = [0x81, UInt8.ofNat n]) ∨
      (256 ≤ n ∧ lengthOctets n = [0x82, UInt8.ofNat (n / 256), UInt8.ofNat (n % 256)]) := by
  obtain hshort | hlong := Nat.lt_or_ge n 128
  · exact .inl ⟨hshort, if_pos hshort⟩
  right
  rw [lengthOctets, if_neg (Nat.not_lt.mpr hlong)]
  obtain hone | htwo := Nat.lt_or_ge n 256
  · left
    rw [bigEndian_of_lt (by omega) hone]
    exact ⟨hlong, hone, rfl⟩
  · right
    rw [bigEndian_two htwo h]
    exact ⟨htwo, rfl⟩

/-- An encoding is longer than its content. -/
theorem length_lt_tlv (tag : UInt8) (content : List UInt8) :
    content.length < (tlv tag content).length := by
  rw [tlv, List.length_cons, List.length_append]
  omega

end MessageBus.Base.Der

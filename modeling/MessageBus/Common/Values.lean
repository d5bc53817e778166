import Mathlib.Data.List.Basic
import MessageBus.Base.Collections

/-!
# Values that messages carry

The .NET types behind the message fields: `Guid`, UTF-8 text, the data packet of
`core/src/JetBlack.MessageBus.Common/IO/DataPacket.cs`, and the exceptions that the
modelled code raises. Strings are Lean's, that is well-formed Unicode text. The runtime
limits how long an array or a string is.
-/

namespace MessageBus.Common
open MessageBus.Base

/-- The exceptions the modelled code raises or observes. -/
inductive Exception where
  | endOfStream
  | indexOutOfRange
  | overflow
  | outOfMemory
  | invalidData (message : String)
  | io (connectionReset : Bool)
  | objectDisposed
  | format
  | argument
  | invalidArgument (message : String)
  | invalidOperation
  | security
  deriving DecidableEq, Repr

/-! ### Arrays and strings -/

/-- `Array.MaxLength`: a longer array cannot be allocated, whatever memory there is. -/
def arrayMaxLength : Nat := 0x7FFFFFC7

/-- `string.MaxLength` of the runtime, in UTF-16 code units. -/
def stringMaxLength : Nat := 0x3FFFFFDF

/-- The UTF-16 code units of a string. -/
def codeUnits (s : String) : List UInt16 :=
  s.toList.flatMap fun c =>
    if c.toNat < 0x10000 then [UInt16.ofNat c.toNat]
    else
      let offset := c.toNat - 0x10000
      [UInt16.ofNat (0xD800 + offset / 0x400), UInt16.ofNat (0xDC00 + offset % 0x400)]

/-! ### Guid -/

/-- A 128-bit identifier, numbered so that its byte array is little-endian. -/
structure Guid where
  value : BitVec 128
  deriving DecidableEq, Repr

private def natBytes : Nat → Nat → List UInt8
  | 0, _ => []
  | width + 1, n => UInt8.ofNat n :: natBytes width (n / 256)

private def bytesNat (bytes : List UInt8) : Nat := bytes.foldr (fun b n => b.toNat + 256 * n) 0

private theorem length_natBytes (width n : Nat) : (natBytes width n).length = width := by
  induction width generalizing n with
  | zero => rfl
  | succ width ih => simp [natBytes, ih]

private theorem bytesNat_natBytes (width n : Nat) :
    bytesNat (natBytes width n) = n % 256 ^ width := by
  induction width generalizing n with
  | zero => simp [natBytes, bytesNat, Nat.mod_one]
  | succ width ih =>
    have hi := ih (n / 256)
    have hb : bytesNat (natBytes (width + 1) n) =
        (UInt8.ofNat n).toNat + 256 * bytesNat (natBytes width (n / 256)) := rfl
    have hn : (UInt8.ofNat n).toNat = n % 256 := UInt8.toNat_ofNat'
    rw [hb, hi, hn, Nat.pow_succ', Nat.mod_mul]

/-- `Guid.ToByteArray`. -/
def Guid.toByteArray (g : Guid) : List UInt8 := natBytes 16 g.value.toNat

/-- `new Guid(byte[])` on a buffer of sixteen bytes. -/
def Guid.ofByteArray (buf : List UInt8) : Guid := ⟨BitVec.ofNat 128 (bytesNat buf)⟩

/-- An identifier is 16 bytes. -/
theorem Guid.length_toByteArray (g : Guid) : g.toByteArray.length = 16 := length_natBytes _ _

/-- A Guid is rebuilt from its byte array. -/
theorem Guid.ofByteArray_toByteArray (g : Guid) : Guid.ofByteArray g.toByteArray = g := by
  have h := g.value.isLt
  unfold ofByteArray toByteArray
  rw [bytesNat_natBytes, Nat.mod_eq_of_lt (by omega), BitVec.ofNat_toNat, BitVec.setWidth_eq]

/-! ### UTF-8 -/

namespace UTF8

/-- `Encoding.UTF8.GetBytes`. -/
def getBytes (s : String) : List UInt8 := s.toByteArray.data.toList

private def replacement : Char := Char.ofNat 0xFFFD

-- Follow the byte ranges a lead byte allows; a mismatch ends the ill-formed part there.
private def continuation (code : Nat) : List (Nat × Nat) → Nat → List UInt8 → Char × Nat
  | [], used, _ => (Char.ofNat code, used)
  | _ :: _, used, [] => (replacement, used)
  | (lo, hi) :: ranges, used, b :: rest =>
    if lo ≤ b.toNat ∧ b.toNat ≤ hi then
      continuation (code * 64 + b.toNat % 64) ranges (used + 1) rest
    else (replacement, used)

private def nextChar (lead : Nat) (rest : List UInt8) : Char × Nat :=
  let tail := (0x80, 0xBF)
  if lead < 0x80 then (Char.ofNat lead, 0)
  else if 0xC2 ≤ lead ∧ lead ≤ 0xDF then continuation (lead % 32) [tail] 0 rest
  else if lead = 0xE0 then continuation (lead % 16) [(0xA0, 0xBF), tail] 0 rest
  else if lead = 0xED then continuation (lead % 16) [(0x80, 0x9F), tail] 0 rest
  else if 0xE1 ≤ lead ∧ lead ≤ 0xEF then continuation (lead % 16) [tail, tail] 0 rest
  else if lead = 0xF0 then continuation (lead % 8) [(0x90, 0xBF), tail, tail] 0 rest
  else if 0xF1 ≤ lead ∧ lead ≤ 0xF3 then continuation (lead % 8) [tail, tail, tail] 0 rest
  else if lead = 0xF4 then continuation (lead % 8) [(0x80, 0x8F), tail, tail] 0 rest
  else (replacement, 0)

private def replaceInvalid : Nat → List UInt8 → List Char
  | 0, _ => []
  | _ + 1, [] => []
  | fuel + 1, lead :: rest =>
    let next := nextChar lead.toNat rest
    next.1 :: replaceInvalid fuel (rest.drop next.2)

/-- `Encoding.UTF8.GetString`: the replacement fallback puts U+FFFD in the place of
every maximal ill-formed part. -/
def getString (buf : List UInt8) : String :=
  match String.fromUTF8? ⟨buf.toArray⟩ with
  | some s => s
  | none => String.ofList (replaceInvalid buf.length buf)

/-- Decoding inverts encoding. -/
theorem getString_getBytes (s : String) : getString (getBytes s) = s := by
  have hb : (⟨(getBytes s).toArray⟩ : ByteArray) = s.toByteArray := by
    simp [getBytes]
  have hs : String.fromUTF8? s.toByteArray = some s := by
    rw [String.fromUTF8?, dif_pos s.isValidUTF8]
    rfl
  simp only [getString, hb, hs]

end UTF8

/-! ### Data packets -/

/-- `DataPacket`: optional entitlements and optional bytes, `DataPacket.cs:10–31`. -/
structure DataPacket where
  entitlements : Option (HashSet Int32)
  data : Option (List UInt8)
  deriving DecidableEq

/-- `DataPacket.IsAuthorized`, `DataPacket.cs:55–58`. -/
def DataPacket.isAuthorized (packet : DataPacket) (allEntitlements : HashSet Int32) : Bool :=
  match packet.entitlements with
  | none => false
  | some entitlements => entitlements.subset allEntitlements

/-- A packet is authorized exactly if its entitlements exist and are all held. -/
theorem DataPacket.isAuthorized_iff {packet : DataPacket} {all : HashSet Int32} :
    packet.isAuthorized all = true ↔
      ∃ entitlements, packet.entitlements = some entitlements ∧ ∀ e ∈ entitlements, e ∈ all := by
  unfold isAuthorized
  cases packet.entitlements with
  | none => simp
  | some entitlements => simp [HashSet.subset_iff]

end MessageBus.Common

import MessageBus.Common.DataReader
import MessageBus.Common.DataWriter

/-!
# Writers and readers of the primitive fields agree

Each reader method of `DataReader.cs` frames what the writer method of the same type in
`DataWriter.cs` appends: it takes exactly those bytes, and none of their proper prefixes
makes it return. `ReadBoolean` is the exception, as it takes the end of the stream for
a true value. Null and empty are written alike, and empty fields are read as null
where the reader has a null to return.
-/

namespace MessageBus.Common
open MessageBus.Base DataReader DataWriter
open MessageBus.Base.Reader (Frames FramesButLast Decoded decode_bind)

/-! ### Int32 -/

private theorem low_byte_of_shift (v : BitVec 32) (k : Nat) (hk : k ≤ 24) :
    (v.sshiftRight k &&& 255#32).setWidth 8 = v.extractLsb' k 8 := by
  apply BitVec.eq_of_getLsbD_eq
  intro i hi
  have hmask : (255#32).getLsbD i = true := by
    have : i = 0 ∨ i = 1 ∨ i = 2 ∨ i = 3 ∨ i = 4 ∨ i = 5 ∨ i = 6 ∨ i = 7 := by omega
    rcases this with rfl | rfl | rfl | rfl | rfl | rfl | rfl | rfl <;> rfl
  have hk' : k + i < 32 := by omega
  have hi' : ¬ 32 ≤ i := by omega
  simp only [BitVec.getLsbD_setWidth, BitVec.getLsbD_and, BitVec.getLsbD_sshiftRight,
    BitVec.getLsbD_extractLsb', hmask]
  simp [hk', hi', hi]

private theorem toNat_toByte (value s : Int32) (k : Nat) (hk : k ≤ 24)
    (hs : s.toBitVec.smod 32 = BitVec.ofNat 32 k) :
    (toByte ((value >>> s) &&& 0xFF)).toNat = value.toBitVec.toNat / 2 ^ k % 256 := by
  have hshift : (value >>> s).toBitVec = value.toBitVec.sshiftRight k := by
    rw [Int32.toBitVec_shiftRight, hs, BitVec.sshiftRight', BitVec.toNat_ofNat,
      Nat.mod_eq_of_lt (by omega)]
  have hb : (toByte ((value >>> s) &&& 0xFF)).toBitVec = value.toBitVec.extractLsb' k 8 := by
    rw [← low_byte_of_shift _ _ hk, ← hshift]
    rfl
  rw [← UInt8.toNat_toBitVec, hb, BitVec.extractLsb'_toNat, Nat.shiftRight_eq_div_pow]

private theorem toNat_toInt32_shift (b : UInt8) (s : Int32) (k : Nat) (hk : k ≤ 24)
    (hs : s.toBitVec.smod 32 = BitVec.ofNat 32 k) :
    (toInt32 b <<< s).toBitVec.toNat = b.toNat * 2 ^ k := by
  have hb := b.toNat_lt
  have hp : 2 ^ k ≤ 2 ^ 24 := Nat.pow_le_pow_right (by decide) hk
  have hn : (toInt32 b).toBitVec.toNat = b.toNat := by simp [toInt32]
  rw [Int32.toBitVec_shiftLeft, hs, BitVec.shiftLeft_eq', BitVec.toNat_shiftLeft, hn,
    Nat.shiftLeft_eq, BitVec.toNat_ofNat, Nat.mod_eq_of_lt (by omega : k < 2 ^ 32)]
  apply Nat.mod_eq_of_lt
  calc b.toNat * 2 ^ k ≤ b.toNat * 2 ^ 24 := Nat.mul_le_mul_left _ hp
    _ < 2 ^ 32 := by omega

private theorem toNat_combine (b0 b1 b2 b3 : UInt8) :
    ((toInt32 b0 <<< 24) + (toInt32 b1 <<< 16) + (toInt32 b2 <<< 8) +
      (toInt32 b3 <<< 0)).toBitVec.toNat =
    b0.toNat * 2 ^ 24 + b1.toNat * 2 ^ 16 + b2.toNat * 2 ^ 8 + b3.toNat := by
  have h0 := b0.toNat_lt
  have h1 := b1.toNat_lt
  have h2 := b2.toNat_lt
  have h3 := b3.toNat_lt
  simp only [Int32.toBitVec_add, BitVec.toNat_add]
  rw [toNat_toInt32_shift b0 24 24 (by decide) (by decide),
    toNat_toInt32_shift b1 16 16 (by decide) (by decide),
    toNat_toInt32_shift b2 8 8 (by decide) (by decide),
    toNat_toInt32_shift b3 0 0 (by decide) (by decide)]
  omega

/-- The shifts of `ReadInt32` invert those of `Write(int)` for every value, sign included. -/
theorem combine_writeInt32 (value : Int32) :
    (toInt32 (toByte ((value >>> 24) &&& 0xFF)) <<< 24) +
      (toInt32 (toByte ((value >>> 16) &&& 0xFF)) <<< 16) +
      (toInt32 (toByte ((value >>> 8) &&& 0xFF)) <<< 8) +
      (toInt32 (toByte ((value >>> 0) &&& 0xFF)) <<< 0) = value := by
  apply Int32.toBitVec_inj.mp
  apply BitVec.eq_of_toNat_eq
  rw [toNat_combine, toNat_toByte value 24 24 (by decide) (by decide),
    toNat_toByte value 16 16 (by decide) (by decide),
    toNat_toByte value 8 8 (by decide) (by decide),
    toNat_toByte value 0 0 (by decide) (by decide)]
  have := value.toBitVec.isLt
  omega

private theorem frames_readFully (bytes : List UInt8) :
    Frames (readFully bytes.length) bytes bytes := Frames.readFully bytes

private theorem frames_readInt32 (value : Int32) : Frames readInt32 (writeInt32 value) value := by
  have hf : Frames (readFully 4) (writeInt32 value) (writeInt32 value) :=
    frames_readFully (writeInt32 value)
  rw [← List.append_nil (writeInt32 value)]
  refine hf.bind ?_
  change Frames (pure _) [] value
  rw [combine_writeInt32]
  exact Frames.pure value

/-- A zero count is followed by nothing where the reader then returns at once. -/
theorem frames_countZero {α : Type} {f : Int32 → Reader Exception α} {a : α}
    (hf : f 0 = pure a) : Frames (readInt32 >>= f) (writeInt32 0) a := by
  have hr : Frames (f 0) [] a := hf ▸ Frames.pure a
  simpa only [List.append_nil] using (frames_readInt32 0).bind hr

/-- No reader that begins with an `int` returns at the end of the stream. -/
theorem decode_readInt32_bind_nil {α : Type} (f : Int32 → Reader Exception α) :
    (readInt32 >>= f).decode [] = .starved := by
  rw [decode_bind]
  rfl

/-! ### Lengths -/

/-- The size of a length-prefixed field that a signed 32-bit length can announce. -/
def FitsInt32 (length : Nat) : Prop := length < 2 ^ 31

/-- Whether a length fits can be computed. -/
instance : DecidablePred FitsInt32 := fun length => inferInstanceAs (Decidable (length < 2 ^ 31))

private theorem toInt_ofNat {n : Nat} (h : FitsInt32 n) : (Int32.ofNat n).toInt = n :=
  Int32.toInt_ofNat_of_lt h

private theorem toNat_toInt_ofNat {n : Nat} (h : FitsInt32 n) :
    (Int32.ofNat n).toInt.toNat = n := by
  rw [toInt_ofNat h, Int.toNat_natCast]

private theorem not_ofNat_lt_zero {n : Nat} (h : FitsInt32 n) : ¬ Int32.ofNat n < 0 := by
  rw [Int32.lt_iff_toInt_lt, toInt_ofNat h, Int32.toInt_zero]
  omega

private theorem ofNat_eq_zero_iff {n : Nat} (h : FitsInt32 n) : Int32.ofNat n = 0 ↔ n = 0 := by
  rw [← Int32.toInt_inj, toInt_ofNat h, Int32.toInt_zero]
  omega

private theorem writeLength_zero : writeLength 0 = writeInt32 0 := rfl

/-- The length of an array of .NET. -/
def FitsArray (length : Nat) : Prop := length ≤ arrayMaxLength

/-- Whether a length is that of an array can be computed. -/
instance : DecidablePred FitsArray := fun length =>
  inferInstanceAs (Decidable (length ≤ arrayMaxLength))

/-- The length of an array is announced by an `int`. -/
theorem FitsArray.fitsInt32 {length : Nat} (h : FitsArray length) : FitsInt32 length :=
  Nat.lt_of_le_of_lt h (by decide)

/-- An array of a length that fits is allocated. -/
theorem newArray_ofNat {length : Nat} (h : FitsArray length) :
    newArray (Int32.ofNat length) = pure length := by
  rw [newArray, if_neg (not_ofNat_lt_zero h.fitsInt32), toNat_toInt_ofNat h.fitsInt32,
    if_neg (Nat.not_lt.mpr h)]

private theorem frames_readBuffer (bytes : List UInt8) (h : FitsArray bytes.length) :
    Frames (readBuffer (Int32.ofNat bytes.length)) bytes bytes := by
  rw [readBuffer, newArray_ofNat h, pure_bind]
  exact frames_readFully bytes

/-! ### Strings and byte arrays -/

/-- The text is one of a .NET string, and its UTF-8 form one of a .NET array. -/
def StringFits (value : Option String) : Prop :=
  (codeUnits (value.getD "")).length ≤ stringMaxLength ∧
    FitsArray (UTF8.getBytes (value.getD "")).length

/-- Whether a string fits its fields can be computed. -/
instance : DecidablePred StringFits := fun _ => inferInstanceAs (Decidable (_ ∧ FitsArray _))

private theorem getBytes_empty : UTF8.getBytes "" = [] := rfl

/-- A string is read back; null is read back as the empty string. -/
theorem frames_readString (value : Option String) (h : StringFits value) :
    Frames readString (writeString value) (value.getD "") := by
  have hw : writeString value = writeInt32 (Int32.ofNat (UTF8.getBytes (value.getD "")).length) ++
      UTF8.getBytes (value.getD "") := by
    cases value with
    | none => simp [writeString, getBytes_empty]
    | some value => rfl
  have hr : Frames (newString (UTF8.getString (UTF8.getBytes (value.getD "")))) []
      (value.getD "") := by
    rw [UTF8.getString_getBytes, newString, if_neg (Nat.not_lt.mpr h.1)]
    exact Frames.pure _
  have hbuffer := (frames_readBuffer _ h.2).bind (f := fun buf => newString (UTF8.getString buf)) hr
  rw [List.append_nil] at hbuffer
  rw [hw]
  exact (frames_readInt32 _).bind hbuffer

/-- What a byte array is read back as. -/
def receivedByteArray (value : Option (List UInt8)) : Option (List UInt8) :=
  value.filter fun bytes => !bytes.isEmpty

/-- The bytes are those of a .NET array. -/
def ByteArrayFits (value : Option (List UInt8)) : Prop := FitsArray (value.getD []).length

/-- Whether a byte array fits its fields can be computed. -/
instance : DecidablePred ByteArrayFits := fun _ => inferInstanceAs (Decidable (FitsArray _))

private theorem frames_readByteArray (value : Option (List UInt8)) (h : ByteArrayFits value) :
    Frames readByteArray (writeByteArray value) (receivedByteArray value) := by
  have hnull : Frames readByteArray (writeInt32 0) none :=
    frames_countZero (if_pos rfl)
  cases value with
  | none => exact hnull
  | some bytes =>
    cases bytes with
    | nil => exact hnull
    | cons b bytes =>
      have hl : FitsArray (b :: bytes).length := h
      have hz : Int32.ofNat (b :: bytes).length ≠ 0 := fun hz => by
        simpa using (ofNat_eq_zero_iff hl.fitsInt32).mp hz
      apply (frames_readInt32 _).bind
      rw [if_neg hz]
      exact (frames_readBuffer _ hl).map some

/-! ### Entitlement sets -/

private theorem frames_readInt32s (values : List Int32) (set : HashSet Int32) :
    Frames (readInt32s values.length set) (values.flatMap writeInt32) (set.addAll values) := by
  induction values generalizing set with
  | nil => exact Frames.pure set
  | cons value values ih => exact (frames_readInt32 value).bind (ih (set.add value))

/-- What an entitlement set is read back as. -/
def receivedInt32Set (value : Option (HashSet Int32)) : Option (HashSet Int32) :=
  value.filter fun set => !set.isEmpty

/-- The size of an entitlement set is announced by its `int` prefix. -/
def Int32SetFits (value : Option (HashSet Int32)) : Prop :=
  FitsInt32 (value.getD ∅).toList.length

/-- Whether a set fits its fields can be computed. -/
instance : DecidablePred Int32SetFits := fun _ => inferInstanceAs (Decidable (FitsInt32 _))

/-- The bytes of a set are read back, the missing one as empty. -/
theorem frames_readInt32Set (value : Option (HashSet Int32)) (h : Int32SetFits value) :
    Frames readInt32Set (writeInt32Set value) (receivedInt32Set value) := by
  have hnull : Frames readInt32Set (writeInt32 0) none :=
    frames_countZero (if_pos rfl)
  cases value with
  | none => exact hnull
  | some set =>
    have hl : FitsInt32 set.toList.length := h
    by_cases he : set.toList = []
    · have hr : receivedInt32Set (some set) = none := by
        simp [receivedInt32Set, HashSet.isEmpty, he]
      have hw : writeInt32Set (some set) = writeInt32 0 := by
        simp [writeInt32Set, he, writeLength_zero]
      rw [hr, hw]
      exact hnull
    · have hr : receivedInt32Set (some set) = some set := by
        simp [receivedInt32Set, HashSet.isEmpty, he]
      have hz : Int32.ofNat set.toList.length ≠ 0 := fun hz => by
        exact he (List.eq_nil_of_length_eq_zero ((ofNat_eq_zero_iff hl).mp hz))
      have hs := frames_readInt32s set.toList ∅
      rw [HashSet.addAll_toList] at hs
      rw [hr]
      apply (frames_readInt32 _).bind
      rw [if_neg hz, toNat_toInt_ofNat hl]
      exact hs.map some

/-! ### Guids, packets and booleans -/

/-- The bytes of an identifier are read back. -/
theorem frames_readGuid (value : Guid) : Frames readGuid (writeGuid value) value := by
  have hf : Frames (readFully 16) value.toByteArray value.toByteArray := by
    simpa only [Guid.length_toByteArray] using frames_readFully value.toByteArray
  have hr := hf.map Guid.ofByteArray
  rw [Guid.ofByteArray_toByteArray] at hr
  exact hr

/-- What a data packet is read back as. -/
def DataPacket.received (packet : DataPacket) : DataPacket :=
  ⟨receivedInt32Set packet.entitlements, receivedByteArray packet.data⟩

namespace DataPacket

/-- Before the wire the empty set of entitlements is always held; after it never. -/
theorem isAuthorized_received (packet : DataPacket) (all : HashSet Int32) :
    packet.received.isAuthorized all =
      (packet.isAuthorized all && decide (packet.entitlements ≠ some ∅)) := by
  obtain ⟨entitlements, data⟩ := packet
  cases entitlements with
  | none => rfl
  | some set =>
    obtain ⟨l, hl⟩ := set
    cases l with
    | nil => exact (Bool.and_false _).symm
    | cons e l =>
      have hne : some (⟨e :: l, hl⟩ : HashSet Int32) ≠ some ∅ := nofun
      rw [decide_eq_true hne, Bool.and_true]
      rfl

/-- The wire keeps every answer about a packet, except where its set of entitlements is
there and empty. -/
theorem isAuthorized_received_iff {packet : DataPacket} :
    (∀ all, packet.received.isAuthorized all = packet.isAuthorized all) ↔
      packet.entitlements ≠ some ∅ := by
  constructor
  · intro h he
    have hall := h ∅
    rw [isAuthorized_received, he, isAuthorized, he] at hall
    cases hall
  · intro he all
    rw [isAuthorized_received, decide_eq_true he, Bool.and_true]

end DataPacket

/-- Both fields of a packet are of sizes that .NET has. -/
def DataPacket.Fits (packet : DataPacket) : Prop :=
  Int32SetFits packet.entitlements ∧ ByteArrayFits packet.data

/-- Whether a packet fits its fields can be computed. -/
instance : DecidablePred DataPacket.Fits := fun _ => inferInstanceAs (Decidable (_ ∧ _))

/-- The bytes of a packet are read back. -/
theorem frames_readBinaryDataPacket (packet : DataPacket) (h : packet.Fits) :
    Frames readBinaryDataPacket (writeDataPacket packet) packet.received :=
  (frames_readInt32Set _ h.1).bind
    ((frames_readByteArray _ h.2).map (DataPacket.mk (receivedInt32Set packet.entitlements)))

private theorem frames_readBinaryDataPackets (packets : List DataPacket)
    (h : ∀ packet ∈ packets, packet.Fits) :
    Frames (readBinaryDataPackets packets.length) (packets.flatMap writeDataPacket)
      (packets.map DataPacket.received) := by
  induction packets with
  | nil => exact Frames.pure []
  | cons packet packets ih =>
    apply (frames_readBinaryDataPacket packet (h packet (List.mem_cons_self ..))).bind
    exact (ih fun p hp => h p (List.mem_cons_of_mem _ hp)).map (packet.received :: ·)

/-- What an array of packets is read back as. -/
def receivedDataPackets (packets : Option (List DataPacket)) : Option (List DataPacket) :=
  (packets.filter fun packets => !packets.isEmpty).map (List.map DataPacket.received)

/-- The packets that are received are those that were sent, each as it is received. -/
theorem getD_receivedDataPackets (packets : Option (List DataPacket)) :
    (receivedDataPackets packets).getD [] = (packets.getD []).map DataPacket.received := by
  cases packets with
  | none => rfl
  | some packets =>
    cases packets with
    | nil => rfl
    | cons packet packets => rfl

/-- An array of packets and all its fields are of sizes that .NET has. -/
def DataPacketsFit (packets : Option (List DataPacket)) : Prop :=
  FitsArray (packets.getD []).length ∧ ∀ packet ∈ packets.getD [], packet.Fits

/-- Whether packets fit their fields can be computed. -/
instance : DecidablePred DataPacketsFit := fun _ => inferInstanceAs (Decidable (_ ∧ _))

/-- The bytes of an array of packets are read back. -/
theorem frames_readBinaryDataPacketArray (packets : Option (List DataPacket))
    (h : DataPacketsFit packets) :
    Frames readBinaryDataPacketArray (writeDataPacketArray packets)
      (receivedDataPackets packets) := by
  have hnull : Frames readBinaryDataPacketArray (writeInt32 0) none :=
    frames_countZero (if_pos rfl)
  cases packets with
  | none => exact hnull
  | some packets =>
    cases packets with
    | nil => exact hnull
    | cons packet packets =>
      have hl : FitsArray (packet :: packets).length := h.1
      have hz : Int32.ofNat (packet :: packets).length ≠ 0 := fun hz => by
        simpa using (ofNat_eq_zero_iff hl.fitsInt32).mp hz
      apply (frames_readInt32 _).bind
      rw [if_neg hz, newArray_ofNat hl, pure_bind]
      exact (frames_readBinaryDataPackets _ h.2).map some

/-- `ReadBoolean` reads a written value back, and reads true at the end of the stream. -/
theorem framesButLast_readBoolean (value : Bool) :
    FramesButLast readBoolean (writeBoolean value) value true := by
  constructor
  · intro rest
    cases value <;> rfl
  · intro p q h hq
    have hp : p = [] := by
      apply List.eq_nil_of_length_eq_zero
      have hl := congrArg List.length h
      rw [List.length_append, hq] at hl
      simpa [writeBoolean] using hl.symm
    subst hp
    rfl
  · intro p q h hq
    have hl := congrArg List.length h
    rw [List.length_append] at hl
    simp only [writeBoolean, List.length_singleton] at hl
    omega

/-- `ReadByte` reads a written byte back and throws at the end of the stream. -/
theorem frames_readByte (value : UInt8) : Frames readByte (writeByte value) value := by
  constructor
  · intro rest
    have hn : ¬ (value.toNat : Int) < 0 := by omega
    have hb : UInt8.ofNat (value.toNat : Int).toNat = value := by simp
    have hs : streamReadByte.decode (writeByte value ++ rest) = .done (value.toNat : Int) rest :=
      rfl
    rw [readByte, Reader.decode_bind_of_done hs, if_neg hn, hb]
    rfl
  · intro p q h hq
    have hp : p = [] := by
      apply List.eq_nil_of_length_eq_zero
      have hl := congrArg List.length h
      have := List.length_pos_of_ne_nil hq
      rw [List.length_append] at hl
      simp only [writeByte, List.length_singleton] at hl
      omega
    subst hp
    intro b rest hd
    cases hd

/-! ### Reading back -/

/-- A reader method returns a value from bytes and leaves none, however the stream splits
them and given as many reads as there are bytes. -/
def ReadsBack {α : Type} (r : Reader Exception α) (bytes : List UInt8) (a : α) : Prop :=
  ∀ (split : Nat → Nat) (fuel : Nat), bytes.length ≤ fuel →
    ∃ s, run fuel r (Stream.ofBytes split bytes) = .returned a s ∧ s.remaining = []

/-- What is framed is read back from a stream that hands the bytes out as it likes. -/
theorem readsBack_of_frames {α : Type} {r : Reader Exception α} {bytes : List UInt8} {a : α}
    (h : Reader.Frames r bytes a) : ReadsBack r bytes a := by
  intro split fuel hf
  exact run_of_decode h.exact split hf

/-- What is read back is determined. -/
theorem ReadsBack.unique {α : Type} {r : Reader Exception α} {bytes : List UInt8} {a b : α}
    (ha : ReadsBack r bytes a) (hb : ReadsBack r bytes b) : a = b := by
  obtain ⟨s, hs, -⟩ := ha (fun _ => 0) bytes.length (Nat.le_refl _)
  obtain ⟨s', hs', -⟩ := hb (fun _ => 0) bytes.length (Nat.le_refl _)
  rw [hs] at hs'
  cases hs'
  rfl

end MessageBus.Common

import Mathlib.Data.Finset.Empty
import MessageBus.Messages.Layout

/-!
# Which fields survive being written again

A field that was read is written again when its message is relayed. Whether the next
reader finds in it what the first one did is decided by the bytes that were read: by the
number that an entitlement set announces, and by the size of a string once its
ill-formed parts are replaced.
-/

namespace MessageBus.Messages
open MessageBus.Base MessageBus.Common DataReader DataWriter
open MessageBus.Base.Reader (Decoded decode_bind_eq_done_iff)

/-! ### The values of fields -/

private theorem coe_nodup (set : HashSet Int32) : (set.toList : Multiset Int32).Nodup :=
  Multiset.coe_nodup.mpr set.nodup

/-- The members of an entitlement set. -/
def members (set : HashSet Int32) : Finset Int32 := ⟨set.toList, coe_nodup set⟩

/-- An entitlement set as a set, null and empty distinguished. -/
def viewInt32Set (value : Option (HashSet Int32)) : Option (Finset Int32) := value.map members

/-- A packet, its entitlements as a set. -/
def viewDataPacket (packet : DataPacket) : Option (Finset Int32) × Option (List UInt8) :=
  (viewInt32Set packet.entitlements, packet.data)

/-- An array of packets, null and empty distinguished. -/
def viewDataPackets (packets : Option (List DataPacket)) :
    Option (List (Option (Finset Int32) × Option (List UInt8))) :=
  packets.map (List.map viewDataPacket)

/-- An entitlement set can be written, and is read back as the same set. -/
def Int32SetSurvives (value : Option (HashSet Int32)) : Prop :=
  Int32SetFits value ∧ viewInt32Set (receivedInt32Set value) = viewInt32Set value

/-- A packet can be written, and is read back as the same packet. -/
def DataPacketSurvives (packet : DataPacket) : Prop :=
  packet.Fits ∧ viewDataPacket packet.received = viewDataPacket packet

/-- An array of packets can be written, and is read back as the same array. -/
def DataPacketsSurvive (packets : Option (List DataPacket)) : Prop :=
  DataPacketsFit packets ∧ viewDataPackets (receivedDataPackets packets) = viewDataPackets packets

/-- Of the entitlement sets that fit, those survive that are null or have a member. -/
theorem int32SetSurvives_iff {value : Option (HashSet Int32)} :
    Int32SetSurvives value ↔ Int32SetFits value ∧ ∀ set, value = some set → set.toList ≠ [] := by
  apply and_congr_right
  intro _
  cases value with
  | none => simp [receivedInt32Set]
  | some set =>
    by_cases he : set.toList = []
    · simp [receivedInt32Set, viewInt32Set, HashSet.isEmpty, he]
    · simp [receivedInt32Set, HashSet.isEmpty, Option.filter_some, he]

private theorem receivedByteArray_eq {value : Option (List UInt8)} (h : value ≠ some []) :
    receivedByteArray value = value := by
  cases value with
  | none => rfl
  | some bytes =>
    cases bytes with
    | nil => exact absurd rfl h
    | cons b bytes => rfl

/-- A packet that was read with bytes that fit survives if its entitlements do. -/
theorem dataPacketSurvives_iff {packet : DataPacket} (hf : ByteArrayFits packet.data)
    (hn : packet.data ≠ some []) :
    DataPacketSurvives packet ↔ Int32SetSurvives packet.entitlements := by
  simp only [DataPacketSurvives, Int32SetSurvives, DataPacket.Fits, hf, and_true, viewDataPacket,
    DataPacket.received, receivedByteArray_eq hn, Prod.mk.injEq]

/-- An array of packets that has some, as many as fit, survives if all of them do. -/
theorem dataPacketsSurvive_iff {packets : List DataPacket} (hf : FitsArray packets.length)
    (hn : packets ≠ []) :
    DataPacketsSurvive (some packets) ↔ ∀ packet ∈ packets, DataPacketSurvives packet := by
  have hreceived : receivedDataPackets (some packets) = some (packets.map DataPacket.received) := by
    simp [receivedDataPackets, Option.filter_some, hn]
  simp only [DataPacketsSurvive, DataPacketsFit, Option.getD_some, hf, true_and, hreceived,
    viewDataPackets, Option.map_some, Option.some.injEq, List.map_map, List.map_inj_left,
    Function.comp_apply, DataPacketSurvives, ← forall₂_and]

/-! ### What the bytes say -/

/-- A field: its layout, and whether the bytes at its start let it survive. -/
structure Field where
  layout : Layout
  keeps : List UInt8 → Bool

namespace Field

/-- One field after another. -/
def seq (first second : Field) : Field where
  layout := Layout.seq first.layout second.layout
  keeps bytes := first.keeps bytes &&
    match first.layout bytes with
    | .ends rest => second.keeps rest
    | _ => true

/-- The same field a number of times. -/
def times (item : Field) : Nat → Field
  | 0 => ⟨Layout.empty, fun _ => true⟩
  | count + 1 => seq item (times item count)

/-- A field that always survives: a Guid, a boolean or a byte array. -/
def plain (layout : Layout) : Field := ⟨layout, fun _ => true⟩

/-- A string survives if its UTF-8 form fits, with every ill-formed part replaced. -/
def text : Field where
  layout := Layout.text
  keeps bytes := decide (FitsArray (UTF8.getBytes (UTF8.getString
    ((bytes.drop 4).take (Layout.announced bytes).toInt.toNat))).length)

/-- An entitlement set survives if the number that it announces is not negative. -/
def int32Set : Field where
  layout := Layout.int32Set
  keeps bytes := decide (0 ≤ Layout.announced bytes)

/-- A packet is an entitlement set and a byte array. -/
def dataPacket : Field := seq int32Set (plain Layout.sized)

/-- An array of packets survives if its packets do. -/
def dataPackets : Field where
  layout := Layout.dataPacketArray
  keeps bytes := (times dataPacket (Layout.announced bytes).toInt.toNat).keeps (bytes.drop 4)

end Field

/-! ### Readers judged by the bytes -/

variable {α β : Type}

/-- Of the values that a reader returns, given `context`, those are good that it returns
from bytes that let the field survive. -/
def Judges (context : Prop) (r : Reader Exception α) (field : Field) (good : α → Prop) : Prop :=
  ∀ bytes a rest, r.decode bytes = .done a rest → (good a ↔ context ∧ field.keeps bytes = true)

/-- A field judges what is made of a value as it judges the value. -/
theorem Judges.map {context : Prop} {r : Reader Exception α} {field : Field} {P : α → Prop}
    {Q : β → Prop} (hr : Judges True r field P) (f : α → β)
    (hf : ∀ a, Q (f a) ↔ context ∧ P a) :
    Judges context (r >>= fun a => pure (f a)) field Q := by
  intro bytes b rest hd
  obtain ⟨a, _, ha, ⟨⟩⟩ := decode_bind_eq_done_iff.mp hd
  rw [hf a, hr bytes a rest ha, true_and]

/-- A sequence judges its first value, and its second in the context of the first. -/
theorem Judges.bind {context : Prop} {r : Reader Exception α} {f : α → Reader Exception β}
    {first second : Field} {good : α → Prop} {good' : β → Prop}
    (hl : Layout.Follows r first.layout) (hr : Judges True r first good)
    (hf : ∀ a, Judges (context ∧ good a) (f a) second good') :
    Judges context (r >>= f) (first.seq second) good' := by
  intro bytes b rest hd
  obtain ⟨a, rest', ha, hb⟩ := decode_bind_eq_done_iff.mp hd
  have hlayout := hl bytes
  have hfirst := hr bytes a rest' ha
  rw [ha, Layout.extentOf] at hlayout
  rw [true_and] at hfirst
  rw [hf a rest' b rest hb, hfirst, Field.seq]
  simp only [← hlayout, Bool.and_eq_true, and_assoc]

/-- Every `bool` survives. -/
theorem judges_readBoolean : Judges True readBoolean (.plain Layout.boolean) fun _ => True :=
  fun _ _ _ _ => iff_of_true trivial ⟨trivial, rfl⟩

/-- Every identifier survives. -/
theorem judges_readGuid : Judges True readGuid (.plain Layout.guid) fun _ => True :=
  fun _ _ _ _ => iff_of_true trivial ⟨trivial, rfl⟩

-- A reader that begins with an `int` returns only where the stream has four bytes.
private theorem decode_readInt32_bind {f : Int32 → Reader Exception α} {bytes rest : List UInt8}
    {a : α} (h : (readInt32 >>= f).decode bytes = .done a rest) :
    (f (Layout.announced bytes)).decode (bytes.drop 4) = .done a rest := by
  by_cases hl : bytes.length < 4
  · rw [readInt32, readFully, Reader.decode_bind, Reader.decode_bind, Reader.decode,
      if_pos hl] at h
    cases h
  · rw [Reader.decode_bind_of_done (Layout.decode_readInt32 bytes hl)] at h
    exact h

-- An array is allocated only where its length is one that an array has.
private theorem decode_newArray_bind {f : Nat → Reader Exception α} {length : Int32}
    {bytes rest : List UInt8} {a : α} (h : (newArray length >>= f).decode bytes = .done a rest) :
    0 ≤ length ∧ FitsArray length.toInt.toNat ∧
      (f length.toInt.toNat).decode bytes = .done a rest := by
  unfold newArray at h
  split at h
  · cases h
  · next hlength =>
    split at h
    · cases h
    · next hmax => exact ⟨Int32.not_lt.mp hlength, Nat.not_lt.mp hmax, h⟩

private theorem decode_readBuffer_bind {f : List UInt8 → Reader Exception α} {length : Int32}
    {bytes rest : List UInt8} {a : α} (h : (readBuffer length >>= f).decode bytes = .done a rest) :
    0 ≤ length ∧ FitsArray length.toInt.toNat ∧ length.toInt.toNat ≤ bytes.length ∧
      (f (bytes.take length.toInt.toNat)).decode (bytes.drop length.toInt.toNat) =
        .done a rest := by
  rw [readBuffer, bind_assoc] at h
  obtain ⟨hlength, hmax, hd⟩ := decode_newArray_bind h
  rw [Reader.decode_bind, readFully, Reader.decode] at hd
  split at hd
  · cases hd
  · next hl => exact ⟨hlength, hmax, Nat.le_of_not_lt hl, hd⟩

/-- A string survives if it fits. -/
theorem judges_readString : Judges True readString .text fun value => StringFits (some value) := by
  intro bytes value rest hd
  obtain ⟨-, -, -, hd⟩ := decode_readBuffer_bind (decode_readInt32_bind hd)
  unfold newString at hd
  split at hd
  · cases hd
  · next hunits =>
    cases hd
    rw [true_and, Field.text]
    exact Iff.trans (and_iff_right (Nat.not_lt.mp hunits)) decide_eq_true_iff.symm

private theorem fits_toNat {count : Int32} : FitsInt32 count.toInt.toNat := by
  have hlt := count.toInt_lt
  unfold FitsInt32
  omega

/-- A byte array that is read fits, and is not empty. -/
theorem byteArrayFits_of_decode {bytes rest : List UInt8} {value : Option (List UInt8)}
    (hd : readByteArray.decode bytes = .done value rest) :
    ByteArrayFits value ∧ value ≠ some [] := by
  have hd := decode_readInt32_bind hd
  split at hd
  · cases hd
    exact ⟨by decide, by simp⟩
  · next hz =>
    obtain ⟨hpos, hmax, hle, hd⟩ := decode_readBuffer_bind hd
    cases hd
    have hlength : ((bytes.drop 4).take (Layout.announced bytes).toInt.toNat).length =
        (Layout.announced bytes).toInt.toNat := by
      rw [List.length_take]
      omega
    constructor
    · rw [ByteArrayFits, Option.getD_some, hlength]
      exact hmax
    · intro hnil
      rw [Option.some.inj hnil, List.length_nil] at hlength
      rw [Int32.le_iff_toInt_le, Int32.toInt_zero] at hpos
      exact hz (Int32.toInt_inj.mp (by rw [Int32.toInt_zero]; omega))

/-- The loop of `ReadInt32Set` adds to the set, at most a member for each iteration. -/
theorem length_of_decode_readInt32s {count : Nat} {set set' : HashSet Int32}
    {bytes rest : List UInt8} (hd : (readInt32s count set).decode bytes = .done set' rest) :
    set'.toList.length ≤ set.toList.length + count ∧
      (set'.toList = [] → set.toList = [] ∧ count = 0) := by
  induction count generalizing set bytes with
  | zero =>
    cases hd
    exact ⟨Nat.le_refl _, fun h => ⟨h, rfl⟩⟩
  | succ count ih =>
    obtain ⟨hle, hnil⟩ := ih (decode_readInt32_bind hd)
    have hadd : (set.add (Layout.announced bytes)).toList.length ≤ set.toList.length + 1 := by
      by_cases hm : Layout.announced bytes ∈ set
      · have hm' : Layout.announced bytes ∈ set.toList := hm
        simp [HashSet.add, hm']
      · exact Nat.le_of_eq (HashSet.length_add hm)
    refine ⟨by omega, fun h => ?_⟩
    have hmem : Layout.announced bytes ∈ (set.add (Layout.announced bytes)).toList :=
      HashSet.mem_add.mpr (.inl rfl)
    rw [(hnil h).1] at hmem
    cases hmem

/-- A set survives if its count does. -/
theorem judges_readInt32Set : Judges True readInt32Set .int32Set Int32SetSurvives := by
  intro bytes value rest hd
  have hd := decode_readInt32_bind hd
  rw [int32SetSurvives_iff, true_and, Field.int32Set, decide_eq_true_iff]
  split at hd
  · next hz =>
    cases hd
    rw [hz]
    exact iff_of_true ⟨by decide, by simp⟩ (by decide)
  · next hz =>
    obtain ⟨set, _, hs, ⟨⟩⟩ := decode_bind_eq_done_iff.mp hd
    obtain ⟨hle, hnil⟩ := length_of_decode_readInt32s hs
    rw [HashSet.toList_empty, List.length_nil, Nat.zero_add] at hle
    have hfits : Int32SetFits (some set) := Nat.lt_of_le_of_lt hle fits_toNat
    have hcount : set.toList ≠ [] ↔ 0 ≤ Layout.announced bytes := by
      rw [Int32.le_iff_toInt_le, Int32.toInt_zero]
      constructor
      · intro hne
        have hpos := List.length_pos_of_ne_nil hne
        omega
      · intro hge h
        have hzero := (hnil h).2
        exact hz (Int32.toInt_inj.mp (by rw [Int32.toInt_zero]; omega))
    rw [← hcount]
    constructor
    · exact fun h => h.2 set rfl
    · intro hne
      refine ⟨hfits, ?_⟩
      rintro _ ⟨⟩
      exact hne

-- The byte array of a packet that is read always survives.
private theorem judges_readByteArray {entitlements : Option (HashSet Int32)} {context : Prop}
    (hc : context ↔ Int32SetSurvives entitlements) :
    Judges context (readByteArray >>= fun data => pure (DataPacket.mk entitlements data))
      (.plain Layout.sized) DataPacketSurvives := by
  intro bytes packet rest hd
  obtain ⟨data, _, ha, ⟨⟩⟩ := decode_bind_eq_done_iff.mp hd
  obtain ⟨hf, hn⟩ := byteArrayFits_of_decode ha
  rw [dataPacketSurvives_iff hf hn, hc]
  exact (and_iff_left rfl).symm

private theorem judges_readBinaryDataPacket :
    Judges True readBinaryDataPacket .dataPacket DataPacketSurvives :=
  .bind Layout.follows_readInt32Set judges_readInt32Set fun _ =>
    judges_readByteArray (iff_of_eq (true_and _))

private theorem judges_readBinaryDataPackets (count : Nat) :
    Judges True (readBinaryDataPackets count) (.times .dataPacket count) fun packets =>
      ∀ packet ∈ packets, DataPacketSurvives packet := by
  induction count with
  | zero =>
    intro bytes packets rest hd
    cases hd
    exact iff_of_true (by simp) ⟨trivial, rfl⟩
  | succ count ih =>
    refine .bind Layout.follows_readBinaryDataPacket judges_readBinaryDataPacket fun packet => ?_
    exact ih.map (packet :: ·) fun packets => by simp

/-- The loop of `ReadBinaryDataPacketArray` reads as many packets as are asked for. -/
theorem length_of_decode_readBinaryDataPackets {count : Nat} {packets : List DataPacket}
    {bytes rest : List UInt8}
    (hd : (readBinaryDataPackets count).decode bytes = .done packets rest) :
    packets.length = count := by
  induction count generalizing bytes packets rest with
  | zero =>
    cases hd
    rfl
  | succ count ih =>
    obtain ⟨packet, _, -, hd⟩ := decode_bind_eq_done_iff.mp hd
    obtain ⟨packets', _, hps, ⟨⟩⟩ := decode_bind_eq_done_iff.mp hd
    rw [List.length_cons, ih hps]

/-- Packets survive if their counts do. -/
theorem judges_readBinaryDataPacketArray :
    Judges True readBinaryDataPacketArray .dataPackets DataPacketsSurvive := by
  intro bytes value rest hd
  have hd := decode_readInt32_bind hd
  simp only [Field.dataPackets]
  split at hd
  · next hz =>
    cases hd
    rw [hz]
    exact iff_of_true ⟨by decide, rfl⟩ ⟨trivial, rfl⟩
  · next hz =>
    obtain ⟨hpos, hmax, hd⟩ := decode_newArray_bind hd
    obtain ⟨packets, _, hs, ⟨⟩⟩ := decode_bind_eq_done_iff.mp hd
    have hlength := length_of_decode_readBinaryDataPackets hs
    have hne : packets ≠ [] := by
      rintro rfl
      rw [Int32.le_iff_toInt_le, Int32.toInt_zero] at hpos
      rw [List.length_nil] at hlength
      exact hz (Int32.toInt_inj.mp (by rw [Int32.toInt_zero]; omega))
    rw [dataPacketsSurvive_iff (hlength ▸ hmax) hne]
    exact judges_readBinaryDataPackets _ _ _ _ hs

end MessageBus.Messages

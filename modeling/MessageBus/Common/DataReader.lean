import MessageBus.Base.Reader
import MessageBus.Common.Values

/-!
# The data reader

`core/src/JetBlack.MessageBus.Common/IO/DataReader.cs`. A reader method is a program
over the two operations it makes on the stream, `ReadByte` and `ReadFully`; the loop
of `ReadFully` over short reads is `readFullyLoop`. Arrays and strings have the maximum
lengths of the runtime; memory is not bounded otherwise.
-/

namespace MessageBus.Common
open MessageBus.Base

namespace DataReader

/-- `Stream.ReadByte` as .NET documents it: the byte, or -1 at the end of the stream. -/
def streamReadByte : Reader Exception Int :=
  .readByte fun b => .ret (match b with
    | none => -1
    | some b => b.toNat)

/-- `ReadBoolean`, `DataReader.cs:31–34`. -/
def readBoolean : Reader Exception Bool := do
  let ch ← streamReadByte
  return ch != 0

/-- `ReadByte`, `DataReader.cs:40–46`. -/
def readByte : Reader Exception UInt8 := do
  let ch ← streamReadByte
  if ch < 0 then .fail .endOfStream else return UInt8.ofNat ch.toNat

/-- `ReadFully(byte[])` into a new buffer, `DataReader.cs:131–134`. -/
def readFully (length : Nat) : Reader Exception (List UInt8) := .readFully length .ret

/-- `new T[length]`, as the number of its elements; a negative length cannot be allocated,
nor one above the maximum. -/
def newArray (length : Int32) : Reader Exception Nat :=
  if length < 0 then .fail .overflow
  else if arrayMaxLength < length.toInt.toNat then .fail .outOfMemory
  else return length.toInt.toNat

/-- `new byte[length]` filled by `ReadFully`. -/
def readBuffer (length : Int32) : Reader Exception (List UInt8) := do
  let size ← newArray length
  readFully size

/-- The string that `Encoding.UTF8.GetString` allocates. -/
def newString (value : String) : Reader Exception String :=
  if stringMaxLength < (codeUnits value).length then .fail .outOfMemory else return value

/-- The promotion of a `byte` to an `int`. -/
def toInt32 (value : UInt8) : Int32 := value.toUInt32.toInt32

/-- `ReadInt32`, `DataReader.cs:52–60`. -/
def readInt32 : Reader Exception Int32 := do
  let buf ← readFully 4
  match buf with
  | [b0, b1, b2, b3] =>
    return (toInt32 b0 <<< 24) + (toInt32 b1 <<< 16) + (toInt32 b2 <<< 8) + (toInt32 b3 <<< 0)
  | _ => .fail .indexOutOfRange

/-- `ReadString`, `DataReader.cs:66–71`. -/
def readString : Reader Exception String := do
  let len ← readInt32
  let buf ← readBuffer len
  newString (UTF8.getString buf)

/-- The loop of `ReadInt32Set` with `count` iterations left. -/
def readInt32s : Nat → HashSet Int32 → Reader Exception (HashSet Int32)
  | 0, set => return set
  | count + 1, set => do
    let value ← readInt32
    readInt32s count (set.add value)

/-- `ReadInt32Set`, `DataReader.cs:73–82`; a negative count runs no iteration. -/
def readInt32Set : Reader Exception (Option (HashSet Int32)) := do
  let count ← readInt32
  if count = 0 then return none
  else
    let set ← readInt32s count.toInt.toNat ∅
    return some set

/-- `ReadByteArray`, `DataReader.cs:88–99`. -/
def readByteArray : Reader Exception (Option (List UInt8)) := do
  let count ← readInt32
  if count = 0 then return none
  else
    let data ← readBuffer count
    return some data

/-- `ReadGuid`, `DataReader.cs:105–110`. -/
def readGuid : Reader Exception Guid := do
  let buf ← readFully 16
  return Guid.ofByteArray buf

/-- `ReadBinaryDataPacket`, `DataReader.cs:112–117`. -/
def readBinaryDataPacket : Reader Exception DataPacket := do
  let entitlements ← readInt32Set
  let data ← readByteArray
  return ⟨entitlements, data⟩

/-- The loop of `ReadBinaryDataPacketArray` with `count` iterations left. -/
def readBinaryDataPackets : Nat → Reader Exception (List DataPacket)
  | 0 => return []
  | count + 1 => do
    let packet ← readBinaryDataPacket
    let packets ← readBinaryDataPackets count
    return packet :: packets

/-- `ReadBinaryDataPacketArray`, `DataReader.cs:119–129`. -/
def readBinaryDataPacketArray : Reader Exception (Option (List DataPacket)) := do
  let count ← readInt32
  if count = 0 then return none
  else
    let size ← newArray count
    let packets ← readBinaryDataPackets size
    return some packets

/-! ### The loop of `ReadFully` -/

/-- `ReadFully(byte[], int, int)`, `DataReader.cs:136–151`, after `buf.length` of the
`len` bytes have been read. The guard compares the count of a read with zero from
below, and a .NET read at the end of the stream delivers zero bytes. -/
def readFullyLoop (len : Nat) :
    (fuel : Nat) → (buf : List UInt8) → Stream → Reader.Outcome Exception (List UInt8)
  | fuel, buf, s =>
    if buf.length < len then
      match fuel with
      | 0 => .unfinished
      | fuel + 1 =>
        let (bytes, s') := s.read (len - buf.length)
        if (bytes.length : Int) < 0 then .threw .endOfStream
        else readFullyLoop len fuel (buf ++ bytes) s'
    else .returned buf s

/-- Run a reader method on a stream, each `ReadFully` making at most `fuel` reads. -/
def run {α : Type} (fuel : Nat) (r : Reader Exception α) (s : Stream) :
    Reader.Outcome Exception α :=
  r.run (fun len s => readFullyLoop len fuel [] s) s

private theorem readFullyLoop_done (len fuel : Nat) (buf : List UInt8) (s : Stream)
    (h : len ≤ buf.length) : readFullyLoop len fuel buf s = .returned buf s := by
  unfold readFullyLoop
  rw [if_neg (by omega)]

private theorem readFullyLoop_succ (len fuel : Nat) (buf : List UInt8) (s : Stream)
    (h : buf.length < len) : readFullyLoop len (fuel + 1) buf s =
      readFullyLoop len fuel (buf ++ (s.read (len - buf.length)).1)
        (s.read (len - buf.length)).2 := by
  conv_lhs => unfold readFullyLoop
  rw [if_pos h]
  simp only
  rw [if_neg (by omega)]

private theorem readFullyLoop_zero (len : Nat) (buf : List UInt8) (s : Stream)
    (h : buf.length < len) : readFullyLoop len 0 buf s = .unfinished := by
  unfold readFullyLoop
  rw [if_pos h]

/-- However many reads it may make, the loop fills the buffer with exactly the next
bytes of the stream or is still running. -/
theorem readFullyLoop_short (len fuel : Nat) (buf : List UInt8) (s : Stream)
    (hb : buf.length ≤ len) (hs : len ≤ buf.length + s.remaining.length) :
    readFullyLoop len fuel buf s = .unfinished ∨
      ∃ s', readFullyLoop len fuel buf s =
          .returned (buf ++ s.remaining.take (len - buf.length)) s' ∧
        s'.remaining = s.remaining.drop (len - buf.length) := by
  induction fuel generalizing buf s with
  | zero =>
    by_cases hl : buf.length < len
    · exact .inl (readFullyLoop_zero _ _ _ hl)
    · have he : len - buf.length = 0 := by omega
      refine .inr ⟨s, ?_, by simp [he]⟩
      rw [readFullyLoop_done _ _ _ _ (by omega), he]
      simp
  | succ fuel ih =>
    by_cases hl : buf.length < len
    · have hle := s.length_read_le (len - buf.length)
      have happ := s.read_append (len - buf.length)
      have hlen := congrArg List.length happ
      rw [List.length_append] at hlen
      have hsub : len - (buf ++ (s.read (len - buf.length)).1).length =
          len - buf.length - (s.read (len - buf.length)).1.length := by
        rw [List.length_append]; omega
      rw [readFullyLoop_succ _ _ _ _ hl]
      rcases ih (buf ++ (s.read (len - buf.length)).1) (s.read (len - buf.length)).2
        (by rw [List.length_append]; omega) (by rw [List.length_append]; omega) with
        hu | ⟨s', hr, hd⟩
      · exact .inl hu
      · refine .inr ⟨s', ?_, ?_⟩
        · rw [hr, hsub, ← happ, List.append_assoc, List.take_append,
            List.take_of_length_le hle]
        · rw [hd, hsub, ← happ, List.drop_append, List.drop_of_length_le hle,
            List.nil_append]
    · have he : len - buf.length = 0 := by omega
      refine .inr ⟨s, ?_, by simp [he]⟩
      rw [readFullyLoop_done _ _ _ _ (by omega), he]
      simp

/-- Each iteration makes progress while bytes remain, so as many iterations as bytes
are missing end the loop. -/
theorem readFullyLoop_finishes (len fuel : Nat) (buf : List UInt8) (s : Stream)
    (hs : len ≤ buf.length + s.remaining.length) (hf : len ≤ buf.length + fuel) :
    readFullyLoop len fuel buf s ≠ .unfinished := by
  induction fuel generalizing buf s with
  | zero =>
    rw [readFullyLoop_done _ _ _ _ (by omega)]
    simp
  | succ fuel ih =>
    by_cases hl : buf.length < len
    · have hne : s.remaining ≠ [] := by
        intro h
        rw [h, List.length_nil] at hs
        omega
      have hpos := s.length_read_pos (len - buf.length) (by omega) hne
      have hlen := congrArg List.length (s.read_append (len - buf.length))
      rw [List.length_append] at hlen
      rw [readFullyLoop_succ _ _ _ _ hl]
      apply ih
      · rw [List.length_append]; omega
      · rw [List.length_append]; omega
    · rw [readFullyLoop_done _ _ _ _ (by omega)]
      simp

/-- At the end of the stream no iteration makes progress: a buffer that the stream
cannot fill is never filled, and no exception ends the loop. -/
theorem readFullyLoop_starves (len fuel : Nat) (buf : List UInt8) (s : Stream)
    (hs : buf.length + s.remaining.length < len) :
    readFullyLoop len fuel buf s = .unfinished := by
  induction fuel generalizing buf s with
  | zero => exact readFullyLoop_zero _ _ _ (by omega)
  | succ fuel ih =>
    rw [readFullyLoop_succ _ _ _ _ (by omega)]
    have hlen := congrArg List.length (s.read_append (len - buf.length))
    rw [List.length_append] at hlen
    apply ih
    rw [List.length_append]
    omega

variable {α : Type}

/-- Given as many reads for each buffer as the stream has bytes, a reader method
reports what decoding the stream's bytes gives. -/
theorem run_agrees (r : Reader Exception α) (s : Stream) (fuel : Nat)
    (hf : s.remaining.length ≤ fuel) :
    Reader.Agrees (r.decode s.remaining) (run fuel r s) := by
  apply Reader.run_agrees _ fuel _ _ r s hf
  · intro len s hs hl
    have hl' : len ≤ ([] : List UInt8).length + s.remaining.length := by simpa using hl
    have hn := readFullyLoop_finishes len fuel [] s hl' (by simp; omega)
    simpa using (readFullyLoop_short len fuel [] s (by simp) hl').resolve_left hn
  · intro len s hl
    exact readFullyLoop_starves len fuel [] s (by simpa using hl)

/-- A value that decoding returns is the one that a reader method returns, however the
stream splits the bytes. -/
theorem run_of_decode {r : Reader Exception α} {bytes rest : List UInt8} {a : α}
    (h : r.decode bytes = .done a rest) (split : Nat → Nat) {fuel : Nat}
    (hf : bytes.length ≤ fuel) :
    ∃ s, run fuel r (Stream.ofBytes split bytes) = .returned a s ∧ s.remaining = rest := by
  have hr := run_agrees r (Stream.ofBytes split bytes) fuel hf
  have hremaining : (Stream.ofBytes split bytes).remaining = bytes := rfl
  rw [hremaining, h] at hr
  exact hr

/-- With any bound on its reads a reader method is unfinished or reports that. -/
theorem run_unfinished_or_agrees (r : Reader Exception α) (s : Stream) (fuel : Nat) :
    run fuel r s = .unfinished ∨ Reader.Agrees (r.decode s.remaining) (run fuel r s) := by
  apply Reader.run_unfinished_or_agrees
  · intro len s hl
    simpa using readFullyLoop_short len fuel [] s (by simp) (by simpa using hl)
  · intro len s hl
    exact readFullyLoop_starves len fuel [] s (by simpa using hl)

/-- A value that a reader method returns is the one that decoding returns. -/
theorem decode_of_run {r : Reader Exception α} {s s' : Stream} {fuel : Nat} {a : α}
    (h : run fuel r s = .returned a s') : r.decode s.remaining = .done a s'.remaining := by
  have hr := run_unfinished_or_agrees r s fuel
  rw [h] at hr
  cases hd : r.decode s.remaining with
  | done b rest =>
    rw [hd] at hr
    obtain ⟨t, ht, rfl⟩ := hr.resolve_left (by simp)
    cases ht
    rfl
  | failed e => rw [hd] at hr; simp [Reader.Agrees] at hr
  | starved => rw [hd] at hr; simp [Reader.Agrees] at hr

/-- A reader method ends, by a value or an exception, exactly if it never fills a
buffer from fewer bytes than the buffer holds. -/
theorem run_ends_iff (r : Reader Exception α) (s : Stream) :
    (∃ fuel, run fuel r s ≠ .unfinished) ↔ ¬ r.Starves s.remaining := by
  rw [← Reader.decode_eq_starved_iff]
  constructor
  · rintro ⟨fuel, hf⟩ hs
    have hr := run_unfinished_or_agrees r s fuel
    rw [hs] at hr
    exact hf (hr.elim id id)
  · intro hs
    refine ⟨s.remaining.length, fun hu => hs ?_⟩
    have hr := run_agrees r s s.remaining.length (Nat.le_refl _)
    rw [hu] at hr
    cases hd : r.decode s.remaining with
    | done a rest => rw [hd] at hr; simp [Reader.Agrees] at hr
    | failed e => rw [hd] at hr; simp [Reader.Agrees] at hr
    | starved => rfl

end DataReader

end MessageBus.Common

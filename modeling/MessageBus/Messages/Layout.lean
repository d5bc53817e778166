import MessageBus.Common.Framing
import MessageBus.Messages.Message

/-!
# Where the fields of a message end

The layout of the wire format, apart from any reader: which bytes a field occupies is
decided by the sizes it announces. A stream of bytes may end after a field, inside one,
or announce what no message has. Reading gets stuck exactly where the layout is cut.
-/

namespace MessageBus.Messages
open MessageBus.Base MessageBus.Common DataReader DataWriter
open MessageBus.Base.Reader (Decoded)

/-! ### Layouts -/

/-- Where a field at the start of a stream of bytes ends. -/
inductive Extent where
  | ends (rest : List UInt8)
  | cut
  | illFormed
  deriving DecidableEq

/-- The extent of a field, for each stream of bytes. -/
abbrev Layout := List UInt8 → Extent

namespace Layout

/-- One field after another. -/
def seq (first second : Layout) : Layout := fun bytes =>
  match first bytes with
  | .ends rest => second rest
  | .cut => .cut
  | .illFormed => .illFormed

/-- No field at all. -/
def empty : Layout := .ends

/-- A field of a fixed size. -/
def fixed (size : Nat) : Layout := fun bytes =>
  if bytes.length < size then .cut else .ends (bytes.drop size)

/-- The number that four bytes announce, as `ReadInt32` puts them together. -/
def announced : List UInt8 → Int32
  | b0 :: b1 :: b2 :: b3 :: _ =>
    (toInt32 b0 <<< 24) + (toInt32 b1 <<< 16) + (toInt32 b2 <<< 8) + (toInt32 b3 <<< 0)
  | _ => 0

/-- A field whose first four bytes announce the rest of it. -/
def counted (body : Int32 → Layout) : Layout := fun bytes =>
  seq (fixed 4) (body (announced bytes)) bytes

/-- A field of as many items as an array has: not fewer than none, and not more than the
maximum. -/
def natural (body : Nat → Layout) (count : Int32) : Layout :=
  if count < 0 ∨ arrayMaxLength < count.toInt.toNat then fun _ => .illFormed
  else body count.toInt.toNat

/-- A fixed number of bytes whose text is not too long for a string. -/
def characters (size : Nat) : Layout := fun bytes =>
  if bytes.length < size then .cut
  else if stringMaxLength < (codeUnits (UTF8.getString (bytes.take size))).length then .illFormed
  else .ends (bytes.drop size)

/-- The same field a number of times. -/
def times (item : Layout) : Nat → Layout
  | 0 => empty
  | count + 1 => seq item (times item count)

/-- A boolean is one byte, or none at the end of the stream. -/
def boolean : Layout := fun bytes => .ends bytes.tail

/-- A Guid is sixteen bytes. -/
def guid : Layout := fixed 16

/-- A byte array is as many bytes as it announces. -/
def sized : Layout := counted (natural fixed)

/-- A string is the text of as many bytes as it announces. -/
def text : Layout := counted (natural characters)

/-- An entitlement set is four bytes for each member; a negative number announces none. -/
def int32Set : Layout := counted fun count => times (fixed 4) count.toInt.toNat

/-- The packets of an array are an entitlement set and a byte array each. -/
def dataPacketArray : Layout := counted (natural (times (seq int32Set sized)))

/-- The fields that follow the message type. -/
def body : MessageType → Layout
  | .multicastData => seq text (seq text (seq text dataPacketArray))
  | .unicastData => seq guid (seq text (seq text (seq text dataPacketArray)))
  | .forwardedSubscriptionRequest =>
    seq text (seq text (seq guid (seq text (seq text boolean))))
  | .notificationRequest => seq text boolean
  | .subscriptionRequest => seq text (seq text boolean)
  | .authorizationRequest => seq guid (seq text (seq text (seq text text)))
  | .authorizationResponse => seq guid (seq text (seq text (seq boolean int32Set)))
  | .forwardedMulticastData =>
    seq text (seq text (seq text (seq text (seq text dataPacketArray))))
  | .forwardedUnicastData =>
    seq text (seq text (seq guid (seq text (seq text (seq text dataPacketArray)))))

/-- The first message of a stream: the byte that names its class, and its fields. -/
def message : Layout
  | [] => .illFormed
  | messageType :: bytes =>
    match MessageType.ofByte? messageType with
    | none => .illFormed
    | some messageType => body messageType bytes

/-! ### Readers follow their layout -/

/-- What a decoding says of the extent of the field it decodes. -/
def extentOf {α : Type} : Decoded Exception α → Extent
  | .done _ rest => .ends rest
  | .failed _ => .illFormed
  | .starved => .cut

/-- A reader that ends where the layout does, fails where it is ill-formed, and is left
without bytes for a buffer where it is cut. -/
def Follows {α : Type} (r : Reader Exception α) (layout : Layout) : Prop :=
  ∀ bytes, extentOf (r.decode bytes) = layout bytes

variable {α β : Type}

private theorem follows_fail (e : Exception) :
    Follows (.fail e : Reader Exception α) fun _ => .illFormed := fun _ => rfl

private theorem follows_pure (a : α) : Follows (pure a : Reader Exception α) empty := fun _ => rfl

private theorem follows_bind {r : Reader Exception α} {f : α → Reader Exception β}
    {first second : Layout} (hr : Follows r first) (hf : ∀ a, Follows (f a) second) :
    Follows (r >>= f) (seq first second) := by
  intro bytes
  have h := hr bytes
  rw [Reader.decode_bind, seq, ← h]
  cases r.decode bytes with
  | done a rest => exact hf a rest
  | failed e => rfl
  | starved => rfl

private theorem follows_map {r : Reader Exception α} {layout : Layout} (hr : Follows r layout)
    (f : α → β) : Follows (r >>= fun a => pure (f a)) layout := by
  intro bytes
  rw [← hr bytes, Reader.decode_bind]
  cases r.decode bytes <;> rfl

private theorem follows_readFully (size : Nat) : Follows (readFully size) (fixed size) := by
  intro bytes
  simp only [readFully, Reader.decode, fixed]
  split
  · rfl
  · rfl

/-- Four bytes are read as the number that they announce. -/
theorem decode_readInt32 (bytes : List UInt8) (h : ¬ bytes.length < 4) :
    readInt32.decode bytes = .done (announced bytes) (bytes.drop 4) := by
  match bytes, h with
  | b0 :: b1 :: b2 :: b3 :: rest, h =>
    rw [readInt32, readFully, Reader.decode_bind, Reader.decode, if_neg h]
    rfl
  | [], h => simp at h
  | [_], h => simp at h
  | [_, _], h => simp at h
  | [_, _, _], h => simp at h

private theorem follows_readInt32_bind {f : Int32 → Reader Exception α}
    {body : Int32 → Layout} (hf : ∀ count, Follows (f count) (body count)) :
    Follows (readInt32 >>= f) (counted body) := by
  intro bytes
  rw [Reader.decode_bind]
  by_cases h : bytes.length < 4
  · simp [readInt32, readFully, Reader.decode, h, counted, seq, fixed, extentOf]
  · rw [decode_readInt32 bytes h]
    simp only [Reader.Decoded.done_andThen, counted, seq, fixed, if_neg h]
    exact hf _ _

private theorem follows_readInt32 : Follows readInt32 (fixed 4) := by
  intro bytes
  by_cases h : bytes.length < 4
  · simp [readInt32, readFully, Reader.decode, h, fixed, extentOf]
  · rw [decode_readInt32 bytes h, fixed, if_neg h, extentOf]

/-- The reader of a `bool` follows its layout. -/
theorem follows_readBoolean : Follows readBoolean boolean := by
  intro bytes
  cases bytes <;> rfl

/-- The reader of an identifier follows its layout. -/
theorem follows_readGuid : Follows readGuid guid := follows_map (follows_readFully 16) _

private theorem follows_newArray_bind {f : Nat → Reader Exception α} {body : Nat → Layout}
    (hf : ∀ size, Follows (f size) (body size)) (length : Int32) :
    Follows (newArray length >>= f) (natural body length) := by
  unfold newArray natural
  by_cases hneg : length < 0
  · rw [if_pos hneg, if_pos (.inl hneg)]
    exact follows_fail _
  · by_cases hmax : arrayMaxLength < length.toInt.toNat
    · rw [if_neg hneg, if_pos hmax, if_pos (.inr hmax)]
      exact follows_fail _
    · rw [if_neg hneg, if_neg hmax, if_neg (fun h => h.elim hneg hmax), pure_bind]
      exact hf _

private theorem follows_readBuffer (length : Int32) :
    Follows (readBuffer length) (natural fixed length) :=
  follows_newArray_bind follows_readFully length

private theorem follows_characters (size : Nat) :
    Follows (readFully size >>= fun buf => newString (UTF8.getString buf)) (characters size) := by
  intro bytes
  rw [Reader.decode_bind, readFully, Reader.decode, characters]
  split
  · rfl
  · rw [Reader.decode, Reader.Decoded.done_andThen, newString]
    split
    · rfl
    · rfl

/-- The reader of a string follows its layout. -/
theorem follows_readString : Follows readString text := by
  refine follows_readInt32_bind fun length => ?_
  rw [readBuffer, bind_assoc]
  exact follows_newArray_bind follows_characters length

-- A count of zero returns before the buffer is made: the buffer would have no bytes.
private theorem follows_readByteArray : Follows readByteArray sized := by
  refine follows_readInt32_bind fun count => ?_
  split
  · next h =>
    subst h
    exact fun _ => rfl
  · exact follows_map (follows_readBuffer count) _

private theorem follows_readInt32s (count : Nat) (set : HashSet Int32) :
    Follows (readInt32s count set) (times (fixed 4) count) := by
  induction count generalizing set with
  | zero => exact follows_pure _
  | succ count ih => exact follows_bind follows_readInt32 fun value => ih (set.add value)

/-- The reader of a set follows its layout. -/
theorem follows_readInt32Set : Follows readInt32Set int32Set := by
  refine follows_readInt32_bind fun count => ?_
  split
  · next h =>
    subst h
    exact fun _ => rfl
  · exact follows_map (follows_readInt32s _ _) _

/-- The reader of a packet follows its layout. -/
theorem follows_readBinaryDataPacket : Follows readBinaryDataPacket (seq int32Set sized) :=
  follows_bind follows_readInt32Set fun _ => follows_map follows_readByteArray _

private theorem follows_readBinaryDataPackets (count : Nat) :
    Follows (readBinaryDataPackets count) (times (seq int32Set sized) count) := by
  induction count with
  | zero => exact follows_pure _
  | succ count ih =>
    exact follows_bind follows_readBinaryDataPacket fun packet => follows_map ih (packet :: ·)

private theorem follows_readBinaryDataPacketArray :
    Follows readBinaryDataPacketArray dataPacketArray := by
  refine follows_readInt32_bind fun count => ?_
  split
  · next h =>
    subst h
    exact fun _ => rfl
  · exact follows_newArray_bind (fun size => follows_map (follows_readBinaryDataPackets size) _) _

/-! ### The messages -/

private theorem follows_readBody (t : MessageType) :
    Follows (Message.readBody t.toByte) (body t) := by
  unfold Message.readBody
  rw [MessageType.ofByte?_toByte]
  cases t with
  | multicastData =>
    refine follows_map (r := MulticastData.readBody) ?_ _
    exact follows_bind follows_readString fun _ => follows_bind follows_readString fun _ =>
      follows_bind follows_readString fun _ => follows_map follows_readBinaryDataPacketArray _
  | unicastData =>
    refine follows_map (r := UnicastData.readBody) ?_ _
    exact follows_bind follows_readGuid fun _ => follows_bind follows_readString fun _ =>
      follows_bind follows_readString fun _ => follows_bind follows_readString fun _ =>
      follows_map follows_readBinaryDataPacketArray _
  | forwardedSubscriptionRequest =>
    refine follows_map (r := ForwardedSubscriptionRequest.readBody) ?_ _
    exact follows_bind follows_readString fun _ => follows_bind follows_readString fun _ =>
      follows_bind follows_readGuid fun _ => follows_bind follows_readString fun _ =>
      follows_bind follows_readString fun _ => follows_map follows_readBoolean _
  | notificationRequest =>
    refine follows_map (r := NotificationRequest.readBody) ?_ _
    exact follows_bind follows_readString fun _ => follows_map follows_readBoolean _
  | subscriptionRequest =>
    refine follows_map (r := SubscriptionRequest.readBody) ?_ _
    exact follows_bind follows_readString fun _ => follows_bind follows_readString fun _ =>
      follows_map follows_readBoolean _
  | authorizationRequest =>
    refine follows_map (r := AuthorizationRequest.readBody) ?_ _
    exact follows_bind follows_readGuid fun _ => follows_bind follows_readString fun _ =>
      follows_bind follows_readString fun _ => follows_bind follows_readString fun _ =>
      follows_map follows_readString _
  | authorizationResponse =>
    refine follows_map (r := AuthorizationResponse.readBody) ?_ _
    exact follows_bind follows_readGuid fun _ => follows_bind follows_readString fun _ =>
      follows_bind follows_readString fun _ => follows_bind follows_readBoolean fun _ =>
      follows_map follows_readInt32Set _
  | forwardedMulticastData =>
    refine follows_map (r := ForwardedMulticastData.readBody) ?_ _
    exact follows_bind follows_readString fun _ => follows_bind follows_readString fun _ =>
      follows_bind follows_readString fun _ => follows_bind follows_readString fun _ =>
      follows_bind follows_readString fun _ => follows_map follows_readBinaryDataPacketArray _
  | forwardedUnicastData =>
    refine follows_map (r := ForwardedUnicastData.readBody) ?_ _
    exact follows_bind follows_readString fun _ => follows_bind follows_readString fun _ =>
      follows_bind follows_readGuid fun _ => follows_bind follows_readString fun _ =>
      follows_bind follows_readString fun _ => follows_bind follows_readString fun _ =>
      follows_map follows_readBinaryDataPacketArray _

/-- A member of the enumeration has the value that names it. -/
theorem toByte_of_ofByte? {b : UInt8} {t : MessageType}
    (h : MessageType.ofByte? b = some t) : t.toByte = b := by
  unfold MessageType.ofByte? at h
  split_ifs at h <;> cases h <;> simp_all [MessageType.toByte]

/-- `Message.Read` follows the layout of the message whose type the first byte names. -/
theorem follows_read : Follows Message.read message := by
  intro bytes
  cases bytes with
  | nil => rfl
  | cons b bytes =>
    have hread : Message.read.decode (b :: bytes) = (Message.readBody b).decode bytes := by
      have hb := (frames_readByte b).done bytes
      rw [writeByte, List.singleton_append] at hb
      rw [Message.read, Message.readHeader, Reader.decode_bind, hb,
        Reader.Decoded.done_andThen]
    rw [hread, message]
    cases ht : MessageType.ofByte? b with
    | none => simp only [Message.readBody, ht, Reader.decode_fail, extentOf]
    | some t =>
      obtain rfl := toByte_of_ofByte? ht
      exact follows_readBody t bytes

/-- Reading is left without bytes for a buffer exactly if the layout is cut. -/
theorem starves_read_iff (bytes : List UInt8) :
    Message.read.Starves bytes ↔ message bytes = .cut := by
  rw [← Reader.decode_eq_starved_iff, ← follows_read bytes]
  cases Message.read.decode bytes <;> simp [extentOf]

end Layout

end MessageBus.Messages

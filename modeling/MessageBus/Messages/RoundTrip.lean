import Mathlib.Data.Finset.Empty
import MessageBus.Messages.Framing

/-!
# The wire round trip

Reading a stream of written messages gives the messages back, whatever the sizes of the
stream's reads. The formats of `DataWriter.cs` cannot tell null from empty, so messages
are compared by their `contents`.
-/

namespace MessageBus.Messages
open MessageBus.Base MessageBus.Common

/-- What a field holds, null and empty identified and entitlements compared as a set. -/
inductive Content where
  | guid (value : Guid)
  | text (value : String)
  | flag (value : Bool)
  | entitlements (values : Finset Int32)
  | dataPackets (packets : List (Finset Int32 × List UInt8))
  deriving DecidableEq

namespace Content

/-- The members of an entitlement set. -/
def ofInt32Set (value : Option (HashSet Int32)) : Finset Int32 :=
  match value with
  | none => ∅
  | some set => ⟨set.toList, Multiset.coe_nodup.mpr set.nodup⟩

/-- The members of a packet's entitlements, and its bytes. -/
def ofDataPacket (packet : DataPacket) : Finset Int32 × List UInt8 :=
  (ofInt32Set packet.entitlements, packet.data.getD [])

/-- The packets of an array, in order. -/
def ofDataPackets (packets : Option (List DataPacket)) : List (Finset Int32 × List UInt8) :=
  (packets.getD []).map ofDataPacket

private theorem ofInt32Set_received (value : Option (HashSet Int32)) :
    ofInt32Set (receivedInt32Set value) = ofInt32Set value := by
  cases value with
  | none => rfl
  | some set =>
    simp only [receivedInt32Set, Option.filter_some]
    split
    · rfl
    · next h =>
      have hl : set.toList = [] := by simpa [HashSet.isEmpty] using h
      simp [ofInt32Set, hl]

private theorem ofDataPacket_received (packet : DataPacket) :
    ofDataPacket packet.received = ofDataPacket packet := by
  have hdata : (receivedByteArray packet.data).getD [] = packet.data.getD [] := by
    cases hd : packet.data with
    | none => rfl
    | some data => cases data <;> rfl
  simp only [ofDataPacket, DataPacket.received, ofInt32Set_received, hdata]

private theorem ofDataPackets_received (packets : Option (List DataPacket)) :
    ofDataPackets (receivedDataPackets packets) = ofDataPackets packets := by
  cases packets with
  | none => rfl
  | some packets =>
    cases packets with
    | nil => rfl
    | cons packet packets =>
      simp [ofDataPackets, receivedDataPackets, Option.filter_some, ofDataPacket_received]

end Content

namespace Message

/-- The class of a message and the contents of its fields, given the text that the
holder of its strings stands for. -/
def contents {ς : Type} (text : ς → String) : Message ς → MessageType × List Content
  | multicastData m => (.multicastData, [.text (text m.feed), .text (text m.topic),
    .text (text m.contentType), .dataPackets (Content.ofDataPackets m.dataPackets)])
  | unicastData m => (.unicastData, [.guid m.clientId, .text (text m.feed),
    .text (text m.topic), .text (text m.contentType),
    .dataPackets (Content.ofDataPackets m.dataPackets)])
  | forwardedSubscriptionRequest m => (.forwardedSubscriptionRequest, [.text (text m.user),
    .text (text m.host), .guid m.clientId, .text (text m.feed), .text (text m.topic),
    .flag m.isAdd])
  | notificationRequest m => (.notificationRequest, [.text (text m.feed), .flag m.isAdd])
  | subscriptionRequest m => (.subscriptionRequest, [.text (text m.feed),
    .text (text m.topic), .flag m.isAdd])
  | authorizationRequest m => (.authorizationRequest, [.guid m.clientId, .text (text m.host),
    .text (text m.user), .text (text m.feed), .text (text m.topic)])
  | authorizationResponse m => (.authorizationResponse, [.guid m.clientId,
    .text (text m.feed), .text (text m.topic), .flag m.isAuthorizationRequired,
    .entitlements (Content.ofInt32Set m.entitlements)])
  | forwardedMulticastData m => (.forwardedMulticastData, [.text (text m.user),
    .text (text m.host), .text (text m.feed), .text (text m.topic),
    .text (text m.contentType), .dataPackets (Content.ofDataPackets m.dataPackets)])
  | forwardedUnicastData m => (.forwardedUnicastData, [.text (text m.user),
    .text (text m.host), .guid m.clientId, .text (text m.feed), .text (text m.topic),
    .text (text m.contentType), .dataPackets (Content.ofDataPackets m.dataPackets)])

/-- The text that a sender's string stands for. -/
def sentText (value : Option String) : String := value.getD ""

/-- What a reader makes of a message has the contents of the message. -/
theorem contents_received (m : Message (Option String)) :
    m.received.contents id = m.contents sentText := by
  cases m <;> simp only [received, contents, sentText, id_eq, Content.ofDataPackets_received,
    Content.ofInt32Set_received]

/-- Repeated calls of `Message.Read`, as in the loop of `QueueReceivedMessages`. -/
def readMany : Nat → Reader Exception (List Message)
  | 0 => return []
  | count + 1 => do
    let m ← read
    let ms ← readMany count
    return m :: ms

/-- Reading as many messages as were written takes the written bytes and no others. -/
theorem decode_readMany (messages : List (Message (Option String)))
    (h : ∀ m ∈ messages, m.Fits) (rest : List UInt8) :
    (readMany messages.length).decode (messages.flatMap write ++ rest) =
      .done (messages.map received) rest := by
  induction messages with
  | nil => rfl
  | cons m messages ih =>
    have hm := decode_write m (h m (List.mem_cons_self ..))
    have ih' := ih fun m' hm' => h m' (List.mem_cons_of_mem _ hm')
    rw [List.flatMap_cons, List.append_assoc, List.length_cons, readMany,
      Reader.decode_bind, hm, Reader.Decoded.done_andThen, Reader.decode_bind, ih',
      Reader.Decoded.done_andThen, Reader.decode_pure, List.map_cons]

/-- However the stream splits the bytes of a sequence of messages, reading them returns
messages of the same classes and contents in the same order, and leaves nothing. -/
theorem run_readMany_write (messages : List (Message (Option String)))
    (h : ∀ m ∈ messages, m.Fits) (split : Nat → Nat) (fuel : Nat)
    (hfuel : (messages.flatMap write).length ≤ fuel) :
    ∃ read s, DataReader.run fuel (readMany messages.length)
        (Stream.ofBytes split (messages.flatMap write)) = .returned read s ∧
      read.map (contents id) = messages.map (contents sentText) ∧ s.remaining = [] := by
  have hd := decode_readMany messages h []
  rw [List.append_nil] at hd
  obtain ⟨s, hs, hrest⟩ := DataReader.run_of_decode hd split hfuel
  refine ⟨_, s, hs, ?_, hrest⟩
  rw [List.map_map]
  exact List.map_congr_left fun m _ => contents_received m

/-- A request and a response with a negative entitlement, delivered a byte at a time. -/
theorem run_readMany_request_response :
    ∃ read s, DataReader.run 60 (readMany 2) (Stream.ofBytes (fun _ => 1)
        (List.flatMap write [.subscriptionRequest ⟨some "LSE", none, true⟩,
          .authorizationResponse ⟨⟨7⟩, some "LSE", some "VOD", true,
            some (HashSet.add ∅ (-3))⟩])) = .returned read s ∧
      read.map (contents id) = [(.subscriptionRequest, [.text "LSE", .text "", .flag true]),
        (.authorizationResponse, [.guid ⟨7⟩, .text "LSE", .text "VOD", .flag true,
          .entitlements ⟨{-3}, by decide⟩])] ∧
      s.remaining = [] :=
  run_readMany_write [.subscriptionRequest ⟨some "LSE", none, true⟩,
    .authorizationResponse ⟨⟨7⟩, some "LSE", some "VOD", true, some (HashSet.add ∅ (-3))⟩]
    (by decide) (fun _ => 1) 60 (by decide)

end Message

end MessageBus.Messages

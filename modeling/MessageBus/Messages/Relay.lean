import MessageBus.Messages.Framing
import MessageBus.Messages.Survival

/-!
# Relaying a message

A message that was read is written again for the next hop. What the second reader returns
should be what the first one did, with null and empty distinguished. An entitlement set
that announces a negative number is read as empty, and an empty set is written as null is;
a string whose ill-formed parts were replaced may have become too long to write.
-/

namespace MessageBus.Messages
open MessageBus.Base MessageBus.Common DataReader DataWriter

/-- The value of a field, null and empty distinguished and entitlements compared as a
set. -/
inductive Value where
  | guid (value : Guid)
  | text (value : String)
  | flag (value : Bool)
  | entitlements (value : Option (Finset Int32))
  | dataPackets (packets : Option (List (Option (Finset Int32) × Option (List UInt8))))

namespace Message

/-- The class of a message and the values of its fields. -/
def fields : Message → MessageType × List Value
  | multicastData m => (.multicastData, [.text m.feed, .text m.topic, .text m.contentType,
    .dataPackets (viewDataPackets m.dataPackets)])
  | unicastData m => (.unicastData, [.guid m.clientId, .text m.feed, .text m.topic,
    .text m.contentType, .dataPackets (viewDataPackets m.dataPackets)])
  | forwardedSubscriptionRequest m => (.forwardedSubscriptionRequest, [.text m.user,
    .text m.host, .guid m.clientId, .text m.feed, .text m.topic, .flag m.isAdd])
  | notificationRequest m => (.notificationRequest, [.text m.feed, .flag m.isAdd])
  | subscriptionRequest m => (.subscriptionRequest, [.text m.feed, .text m.topic,
    .flag m.isAdd])
  | authorizationRequest m => (.authorizationRequest, [.guid m.clientId, .text m.host,
    .text m.user, .text m.feed, .text m.topic])
  | authorizationResponse m => (.authorizationResponse, [.guid m.clientId, .text m.feed,
    .text m.topic, .flag m.isAuthorizationRequired, .entitlements (viewInt32Set m.entitlements)])
  | forwardedMulticastData m => (.forwardedMulticastData, [.text m.user, .text m.host,
    .text m.feed, .text m.topic, .text m.contentType,
    .dataPackets (viewDataPackets m.dataPackets)])
  | forwardedUnicastData m => (.forwardedUnicastData, [.text m.user, .text m.host,
    .guid m.clientId, .text m.feed, .text m.topic, .text m.contentType,
    .dataPackets (viewDataPackets m.dataPackets)])

/-- The message as it is written again: a string that was read is not null. -/
def sent : Message → Message (Option String)
  | multicastData ⟨feed, topic, contentType, dataPackets⟩ =>
    multicastData ⟨some feed, some topic, some contentType, dataPackets⟩
  | unicastData ⟨clientId, feed, topic, contentType, dataPackets⟩ =>
    unicastData ⟨clientId, some feed, some topic, some contentType, dataPackets⟩
  | forwardedSubscriptionRequest ⟨user, host, clientId, feed, topic, isAdd⟩ =>
    forwardedSubscriptionRequest ⟨some user, some host, clientId, some feed, some topic, isAdd⟩
  | notificationRequest ⟨feed, isAdd⟩ => notificationRequest ⟨some feed, isAdd⟩
  | subscriptionRequest ⟨feed, topic, isAdd⟩ => subscriptionRequest ⟨some feed, some topic, isAdd⟩
  | authorizationRequest ⟨clientId, host, user, feed, topic⟩ =>
    authorizationRequest ⟨clientId, some host, some user, some feed, some topic⟩
  | authorizationResponse ⟨clientId, feed, topic, isAuthorizationRequired, entitlements⟩ =>
    authorizationResponse ⟨clientId, some feed, some topic, isAuthorizationRequired, entitlements⟩
  | forwardedMulticastData ⟨user, host, feed, topic, contentType, dataPackets⟩ =>
    forwardedMulticastData
      ⟨some user, some host, some feed, some topic, some contentType, dataPackets⟩
  | forwardedUnicastData ⟨user, host, clientId, feed, topic, contentType, dataPackets⟩ =>
    forwardedUnicastData
      ⟨some user, some host, clientId, some feed, some topic, some contentType, dataPackets⟩

/-- `Message.Write`, or nothing where `GetBytes` throws: the UTF-8 form of a string may be
longer than an array, where the strings, arrays and sets themselves are not too long. -/
def tryWrite (m : Message (Option String)) : Option (List UInt8) :=
  if m.Fits then some m.write else none

/-- The message can be written, and however the bytes are split, what is read back has the
values of the message. -/
def Relays (m : Message) : Prop :=
  ∃ bytes, m.sent.tryWrite = some bytes ∧ ∀ (split : Nat → Nat) (fuel : Nat),
    bytes.length ≤ fuel → ∃ m' s, DataReader.run fuel read (Stream.ofBytes split bytes) =
      .returned m' s ∧ m'.fields = m.fields ∧ s.remaining = []

/-- Every field of the message survives. -/
def Survives : Message → Prop
  | multicastData m => StringFits (some m.feed) ∧ StringFits (some m.topic) ∧
    StringFits (some m.contentType) ∧ DataPacketsSurvive m.dataPackets
  | unicastData m => StringFits (some m.feed) ∧ StringFits (some m.topic) ∧
    StringFits (some m.contentType) ∧ DataPacketsSurvive m.dataPackets
  | forwardedSubscriptionRequest m => StringFits (some m.user) ∧ StringFits (some m.host) ∧
    StringFits (some m.feed) ∧ StringFits (some m.topic)
  | notificationRequest m => StringFits (some m.feed)
  | subscriptionRequest m => StringFits (some m.feed) ∧ StringFits (some m.topic)
  | authorizationRequest m => StringFits (some m.host) ∧ StringFits (some m.user) ∧
    StringFits (some m.feed) ∧ StringFits (some m.topic)
  | authorizationResponse m => StringFits (some m.feed) ∧ StringFits (some m.topic) ∧
    Int32SetSurvives m.entitlements
  | forwardedMulticastData m => StringFits (some m.user) ∧ StringFits (some m.host) ∧
    StringFits (some m.feed) ∧ StringFits (some m.topic) ∧ StringFits (some m.contentType) ∧
    DataPacketsSurvive m.dataPackets
  | forwardedUnicastData m => StringFits (some m.user) ∧ StringFits (some m.host) ∧
    StringFits (some m.feed) ∧ StringFits (some m.topic) ∧ StringFits (some m.contentType) ∧
    DataPacketsSurvive m.dataPackets

private theorem survives_iff (m : Message) :
    m.Survives ↔ m.sent.Fits ∧ m.sent.received.fields = m.fields := by
  cases m <;> simp [Survives, sent, Fits, received, fields, DataPacketsSurvive,
    Int32SetSurvives, and_assoc]

/-- A message is relayed exactly if all its fields survive. -/
theorem relays_iff_survives (m : Message) : m.Relays ↔ m.Survives := by
  rw [survives_iff, Relays, tryWrite]
  by_cases hf : m.sent.Fits
  · have hd := decode_write m.sent hf []
    rw [List.append_nil] at hd
    simp only [hf, if_true, true_and, Option.some.injEq, exists_eq_left']
    constructor
    · intro hread
      obtain ⟨m', s, hm', hfields, -⟩ := hread (fun _ => 1) _ (Nat.le_refl _)
      obtain ⟨s', hs', -⟩ := run_of_decode hd (fun _ => 1) (Nat.le_refl _)
      rw [hs'] at hm'
      cases hm'
      exact hfields
    · intro hfields split fuel hfuel
      obtain ⟨s, hs, hrest⟩ := run_of_decode hd split hfuel
      exact ⟨_, s, hs, hfields, hrest⟩
  · simp [hf]

end Message

namespace Field

/-- The fields that follow the message type. -/
def body : MessageType → Field
  | .multicastData => seq text (seq text (seq text dataPackets))
  | .unicastData => seq (plain Layout.guid) (seq text (seq text (seq text dataPackets)))
  | .forwardedSubscriptionRequest => seq text (seq text (seq (plain Layout.guid)
    (seq text (seq text (plain Layout.boolean)))))
  | .notificationRequest => seq text (plain Layout.boolean)
  | .subscriptionRequest => seq text (seq text (plain Layout.boolean))
  | .authorizationRequest => seq (plain Layout.guid) (seq text (seq text (seq text text)))
  | .authorizationResponse =>
    seq (plain Layout.guid) (seq text (seq text (seq (plain Layout.boolean) int32Set)))
  | .forwardedMulticastData => seq text (seq text (seq text (seq text (seq text dataPackets))))
  | .forwardedUnicastData => seq text (seq text (seq (plain Layout.guid)
    (seq text (seq text (seq text dataPackets)))))

/-- The bytes at the start of a stream let every field of its first message survive: no
entitlement set announces a negative number, and every string fits. -/
def message : List UInt8 → Bool
  | [] => true
  | messageType :: bytes =>
    match MessageType.ofByte? messageType with
    | none => true
    | some messageType => (body messageType).keeps bytes

end Field

namespace Message
open Layout

private theorem judges_readBody (t : MessageType) :
    Judges True (readBody t.toByte) (.body t) Survives := by
  rw [readBody_toByte]
  cases t with
  | multicastData =>
    refine Judges.map (r := MulticastData.readBody)
      (P := fun m => Survives (.multicastData m)) ?_ _ fun m => by simp
    exact .bind follows_readString judges_readString fun _ =>
      .bind follows_readString judges_readString fun _ =>
      .bind follows_readString judges_readString fun _ =>
      judges_readBinaryDataPacketArray.map _ fun _ => by simp [Survives, and_assoc]
  | unicastData =>
    refine Judges.map (r := UnicastData.readBody)
      (P := fun m => Survives (.unicastData m)) ?_ _ fun m => by simp
    exact .bind follows_readGuid judges_readGuid fun _ =>
      .bind follows_readString judges_readString fun _ =>
      .bind follows_readString judges_readString fun _ =>
      .bind follows_readString judges_readString fun _ =>
      judges_readBinaryDataPacketArray.map _ fun _ => by simp [Survives, and_assoc]
  | forwardedSubscriptionRequest =>
    refine Judges.map (r := ForwardedSubscriptionRequest.readBody)
      (P := fun m => Survives (.forwardedSubscriptionRequest m)) ?_ _ fun m => by simp
    exact .bind follows_readString judges_readString fun _ =>
      .bind follows_readString judges_readString fun _ =>
      .bind follows_readGuid judges_readGuid fun _ =>
      .bind follows_readString judges_readString fun _ =>
      .bind follows_readString judges_readString fun _ =>
      judges_readBoolean.map _ fun _ => by simp [Survives, and_assoc]
  | notificationRequest =>
    refine Judges.map (r := NotificationRequest.readBody)
      (P := fun m => Survives (.notificationRequest m)) ?_ _ fun m => by simp
    exact .bind follows_readString judges_readString fun _ =>
      judges_readBoolean.map _ fun _ => by simp [Survives]
  | subscriptionRequest =>
    refine Judges.map (r := SubscriptionRequest.readBody)
      (P := fun m => Survives (.subscriptionRequest m)) ?_ _ fun m => by simp
    exact .bind follows_readString judges_readString fun _ =>
      .bind follows_readString judges_readString fun _ =>
      judges_readBoolean.map _ fun _ => by simp [Survives]
  | authorizationRequest =>
    refine Judges.map (r := AuthorizationRequest.readBody)
      (P := fun m => Survives (.authorizationRequest m)) ?_ _ fun m => by simp
    exact .bind follows_readGuid judges_readGuid fun _ =>
      .bind follows_readString judges_readString fun _ =>
      .bind follows_readString judges_readString fun _ =>
      .bind follows_readString judges_readString fun _ =>
      judges_readString.map _ fun _ => by simp [Survives, and_assoc]
  | authorizationResponse =>
    refine Judges.map (r := AuthorizationResponse.readBody)
      (P := fun m => Survives (.authorizationResponse m)) ?_ _ fun m => by simp
    exact .bind follows_readGuid judges_readGuid fun _ =>
      .bind follows_readString judges_readString fun _ =>
      .bind follows_readString judges_readString fun _ =>
      .bind follows_readBoolean judges_readBoolean fun _ =>
      judges_readInt32Set.map _ fun _ => by simp [Survives, and_assoc]
  | forwardedMulticastData =>
    refine Judges.map (r := ForwardedMulticastData.readBody)
      (P := fun m => Survives (.forwardedMulticastData m)) ?_ _ fun m => by simp
    exact .bind follows_readString judges_readString fun _ =>
      .bind follows_readString judges_readString fun _ =>
      .bind follows_readString judges_readString fun _ =>
      .bind follows_readString judges_readString fun _ =>
      .bind follows_readString judges_readString fun _ =>
      judges_readBinaryDataPacketArray.map _ fun _ => by simp [Survives, and_assoc]
  | forwardedUnicastData =>
    refine Judges.map (r := ForwardedUnicastData.readBody)
      (P := fun m => Survives (.forwardedUnicastData m)) ?_ _ fun m => by simp
    exact .bind follows_readString judges_readString fun _ =>
      .bind follows_readString judges_readString fun _ =>
      .bind follows_readGuid judges_readGuid fun _ =>
      .bind follows_readString judges_readString fun _ =>
      .bind follows_readString judges_readString fun _ =>
      .bind follows_readString judges_readString fun _ =>
      judges_readBinaryDataPacketArray.map _ fun _ => by simp [Survives, and_assoc]

/-- The fields of a message that was read survive exactly if the bytes let them. -/
theorem survives_of_decode {bytes rest : List UInt8} {m : Message}
    (hd : read.decode bytes = .done m rest) : m.Survives ↔ Field.message bytes = true := by
  cases bytes with
  | nil => cases hd
  | cons b bytes =>
    have hb := (frames_readByte b).done bytes
    rw [writeByte, List.singleton_append] at hb
    rw [read, readHeader, Reader.decode_bind_of_done hb] at hd
    cases ht : MessageType.ofByte? b with
    | none =>
      simp only [readBody, ht] at hd
      cases hd
    | some t =>
      obtain rfl := toByte_of_ofByte? ht
      have hjudged := judges_readBody t bytes m rest hd
      simpa only [Field.message, ht, true_and] using hjudged

/-- A message that is read from a stream is relayed exactly if no entitlement set in it
announces a negative number and every string fits. -/
theorem relayed_iff {fuel : Nat} {s s' : Stream} {m : Message}
    (h : DataReader.run fuel read s = .returned m s') :
    m.Relays ↔ Field.message s.remaining = true := by
  rw [relays_iff_survives]
  exact survives_of_decode (decode_of_run h)

/-- A response with a boolean of seven and a repeated entitlement is relayed. -/
theorem relayed_of_repeated_entitlement :
    Relays (.authorizationResponse ⟨⟨0⟩, "F", "", true, some (.add ∅ 3)⟩) := by
  let bytes : List UInt8 :=
    [7, 0, 0, 0, 0, 0, 0, 0, 0, 0, 0, 0, 0, 0, 0, 0, 0, 0, 0, 0, 1, 70, 0, 0, 0, 0, 7,
      0, 0, 0, 2, 0, 0, 0, 3, 0, 0, 0, 3]
  have hd : read.decode bytes =
      .done (.authorizationResponse ⟨⟨0⟩, "F", "", true, some (.add ∅ 3)⟩) [] := by
    decide +kernel
  obtain ⟨s, hs, -⟩ := run_of_decode hd (fun _ => 5) (Nat.le_refl _)
  exact (relayed_iff hs).mpr (by decide +kernel)

/-- A response whose entitlement set announces minus one member is read with an empty set,
and written with none. -/
theorem negative_count_relayed_as_null :
    ¬ ∀ (fuel : Nat) (s s' : Stream) (m : Message),
      DataReader.run fuel read s = .returned m s' → m.Relays := by
  intro hclaim
  have hrelays := hclaim 16 (Stream.ofBytes (fun _ => 16)
    [7, 0, 0, 0, 0, 0, 0, 0, 0, 0, 0, 0, 0, 0, 0, 0, 0, 0, 0, 0, 0, 0, 0, 0, 0, 1,
      255, 255, 255, 255]) ⟨[], 4, fun _ => 16⟩
    (.authorizationResponse ⟨⟨0⟩, "", "", true, some ∅⟩) (by rfl)
  obtain ⟨-, -, -, hview⟩ := (relays_iff_survives _).mp hrelays
  cases hview

end Message

end MessageBus.Messages

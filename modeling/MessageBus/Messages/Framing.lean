import MessageBus.Common.Framing
import MessageBus.Messages.Message

/-!
# Every message class is self-delimiting

`Message.Read` takes exactly the bytes that `Message.Write` appends for a message and
returns what `received` says, whatever follows in the stream. Six of the classes also
reject every proper prefix; the three whose last field is a boolean are read from all
but their last byte.
-/

namespace MessageBus.Messages
open MessageBus.Base MessageBus.Common DataReader DataWriter
open MessageBus.Base.Reader (Frames FramesButLast Decoded decode_bind decode_bind_ne_done)

namespace Message

/-- What a reader makes of a message: null strings become empty, and empty entitlement
sets, byte arrays and packet arrays become null. -/
def received : Message (Option String) → Message
  | multicastData m => .multicastData
    { feed := m.feed.getD "", topic := m.topic.getD "", contentType := m.contentType.getD ""
      dataPackets := receivedDataPackets m.dataPackets }
  | unicastData m => .unicastData
    { clientId := m.clientId, feed := m.feed.getD "", topic := m.topic.getD ""
      contentType := m.contentType.getD "", dataPackets := receivedDataPackets m.dataPackets }
  | forwardedSubscriptionRequest m => .forwardedSubscriptionRequest
    { user := m.user.getD "", host := m.host.getD "", clientId := m.clientId
      feed := m.feed.getD "", topic := m.topic.getD "", isAdd := m.isAdd }
  | notificationRequest m => .notificationRequest
    { feed := m.feed.getD "", isAdd := m.isAdd }
  | subscriptionRequest m => .subscriptionRequest
    { feed := m.feed.getD "", topic := m.topic.getD "", isAdd := m.isAdd }
  | authorizationRequest m => .authorizationRequest
    { clientId := m.clientId, host := m.host.getD "", user := m.user.getD ""
      feed := m.feed.getD "", topic := m.topic.getD "" }
  | authorizationResponse m => .authorizationResponse
    { clientId := m.clientId, feed := m.feed.getD "", topic := m.topic.getD ""
      isAuthorizationRequired := m.isAuthorizationRequired
      entitlements := receivedInt32Set m.entitlements }
  | forwardedMulticastData m => .forwardedMulticastData
    { user := m.user.getD "", host := m.host.getD "", feed := m.feed.getD ""
      topic := m.topic.getD "", contentType := m.contentType.getD ""
      dataPackets := receivedDataPackets m.dataPackets }
  | forwardedUnicastData m => .forwardedUnicastData
    { user := m.user.getD "", host := m.host.getD "", clientId := m.clientId
      feed := m.feed.getD "", topic := m.topic.getD "", contentType := m.contentType.getD ""
      dataPackets := receivedDataPackets m.dataPackets }

/-- The strings and arrays of the message are .NET strings and arrays, and so are the UTF-8 forms
of the strings; its set has fewer than `2 ^ 31` members. -/
def Fits : Message (Option String) → Prop
  | multicastData m => StringFits m.feed ∧ StringFits m.topic ∧ StringFits m.contentType ∧
    DataPacketsFit m.dataPackets
  | unicastData m => StringFits m.feed ∧ StringFits m.topic ∧ StringFits m.contentType ∧
    DataPacketsFit m.dataPackets
  | forwardedSubscriptionRequest m => StringFits m.user ∧ StringFits m.host ∧
    StringFits m.feed ∧ StringFits m.topic
  | notificationRequest m => StringFits m.feed
  | subscriptionRequest m => StringFits m.feed ∧ StringFits m.topic
  | authorizationRequest m => StringFits m.host ∧ StringFits m.user ∧ StringFits m.feed ∧
    StringFits m.topic
  | authorizationResponse m => StringFits m.feed ∧ StringFits m.topic ∧
    Int32SetFits m.entitlements
  | forwardedMulticastData m => StringFits m.user ∧ StringFits m.host ∧ StringFits m.feed ∧
    StringFits m.topic ∧ StringFits m.contentType ∧ DataPacketsFit m.dataPackets
  | forwardedUnicastData m => StringFits m.user ∧ StringFits m.host ∧ StringFits m.feed ∧
    StringFits m.topic ∧ StringFits m.contentType ∧ DataPacketsFit m.dataPackets

/-- Whether a message fits its fields can be computed. -/
instance : DecidablePred Fits
  | multicastData _ => inferInstanceAs (Decidable (_ ∧ _))
  | unicastData _ => inferInstanceAs (Decidable (_ ∧ _))
  | forwardedSubscriptionRequest _ => inferInstanceAs (Decidable (_ ∧ _))
  | notificationRequest _ => inferInstanceAs (Decidable (StringFits _))
  | subscriptionRequest _ => inferInstanceAs (Decidable (_ ∧ _))
  | authorizationRequest _ => inferInstanceAs (Decidable (_ ∧ _))
  | authorizationResponse _ => inferInstanceAs (Decidable (_ ∧ _))
  | forwardedMulticastData _ => inferInstanceAs (Decidable (_ ∧ _))
  | forwardedUnicastData _ => inferInstanceAs (Decidable (_ ∧ _))

/-- A message that .NET can hold: the lengths of its strings, arrays and sets are `int`s. -/
abbrev Sendable := { m : Message (Option String) // m.Fits }

/-- The classes whose last field is read by `ReadBoolean`. -/
def endsWithBoolean {ς : Type} : Message ς → Bool
  | forwardedSubscriptionRequest _ => true
  | notificationRequest _ => true
  | subscriptionRequest _ => true
  | _ => false

/-- The message whose last boolean is taken to be true. -/
def guessed {ς : Type} : Message ς → Message ς
  | forwardedSubscriptionRequest m => .forwardedSubscriptionRequest { m with isAdd := true }
  | notificationRequest m => .notificationRequest { m with isAdd := true }
  | subscriptionRequest m => .subscriptionRequest { m with isAdd := true }
  | m => m

/-- The body is read as the type of the message says. -/
theorem readBody_toByte (t : MessageType) : readBody t.toByte = match t with
    | .authorizationRequest => do
      return .authorizationRequest (← AuthorizationRequest.readBody)
    | .authorizationResponse => do
      return .authorizationResponse (← AuthorizationResponse.readBody)
    | .multicastData => do return .multicastData (← MulticastData.readBody)
    | .unicastData => do return .unicastData (← UnicastData.readBody)
    | .forwardedMulticastData => do
      return .forwardedMulticastData (← ForwardedMulticastData.readBody)
    | .forwardedUnicastData => do
      return .forwardedUnicastData (← ForwardedUnicastData.readBody)
    | .forwardedSubscriptionRequest => do
      return .forwardedSubscriptionRequest (← ForwardedSubscriptionRequest.readBody)
    | .notificationRequest => do
      return .notificationRequest (← NotificationRequest.readBody)
    | .subscriptionRequest => do
      return .subscriptionRequest (← SubscriptionRequest.readBody) := by
  rw [readBody, MessageType.ofByte?_toByte]
  cases t <;> rfl

-- `readInt32Set` returns nothing at the end of the stream, so the boolean before it that
-- the end of the stream is taken for does no harm.
private theorem readInt32Set_bind_nil {α : Type}
    (f : Option (HashSet Int32) → Reader Exception α) (a : α) (rest : List UInt8) :
    (readInt32Set >>= f).decode [] ≠ .done a rest := by
  refine decode_bind_ne_done ?_ f a rest
  intro set rest' h
  rw [readInt32Set, decode_readInt32_bind_nil] at h
  cases h

/-- The classes that do not end with a boolean reject every proper prefix. -/
theorem frames_read (m : Message (Option String)) (h : m.Fits)
    (hb : m.endsWithBoolean = false) : Frames read m.write m.received := by
  refine (frames_readByte m.messageType.toByte).bind ?_
  rw [readBody_toByte]
  cases m with
  | multicastData m =>
    obtain ⟨hfeed, htopic, htype, hdata⟩ := h
    refine Frames.map (r := MulticastData.readBody) ?_ Message.multicastData
    exact (frames_readString _ hfeed).bind ((frames_readString _ htopic).bind
      ((frames_readString _ htype).bind ((frames_readBinaryDataPacketArray _ hdata).map
        (MulticastData.mk (m.feed.getD "") (m.topic.getD "") (m.contentType.getD "")))))
  | unicastData m =>
    obtain ⟨hfeed, htopic, htype, hdata⟩ := h
    refine Frames.map (r := UnicastData.readBody) ?_ Message.unicastData
    exact (frames_readGuid _).bind ((frames_readString _ hfeed).bind
      ((frames_readString _ htopic).bind ((frames_readString _ htype).bind
        ((frames_readBinaryDataPacketArray _ hdata).map (UnicastData.mk m.clientId
          (m.feed.getD "") (m.topic.getD "") (m.contentType.getD ""))))))
  | forwardedSubscriptionRequest m => cases hb
  | notificationRequest m => cases hb
  | subscriptionRequest m => cases hb
  | authorizationRequest m =>
    obtain ⟨hhost, huser, hfeed, htopic⟩ := h
    refine Frames.map (r := AuthorizationRequest.readBody) ?_ Message.authorizationRequest
    exact (frames_readGuid _).bind ((frames_readString _ hhost).bind
      ((frames_readString _ huser).bind ((frames_readString _ hfeed).bind
        ((frames_readString _ htopic).map (AuthorizationRequest.mk m.clientId
          (m.host.getD "") (m.user.getD "") (m.feed.getD ""))))))
  | authorizationResponse m =>
    obtain ⟨hfeed, htopic, hset⟩ := h
    refine Frames.map (r := AuthorizationResponse.readBody) ?_ Message.authorizationResponse
    refine (frames_readGuid _).bind ((frames_readString _ hfeed).bind
      ((frames_readString _ htopic).bind ?_))
    refine (framesButLast_readBoolean m.isAuthorizationRequired).bind ?_
      (readInt32Set_bind_nil _)
    exact (frames_readInt32Set _ hset).map (AuthorizationResponse.mk m.clientId
      (m.feed.getD "") (m.topic.getD "") m.isAuthorizationRequired)
  | forwardedMulticastData m =>
    obtain ⟨huser, hhost, hfeed, htopic, htype, hdata⟩ := h
    refine Frames.map (r := ForwardedMulticastData.readBody) ?_ Message.forwardedMulticastData
    exact (frames_readString _ huser).bind ((frames_readString _ hhost).bind
      ((frames_readString _ hfeed).bind ((frames_readString _ htopic).bind
        ((frames_readString _ htype).bind ((frames_readBinaryDataPacketArray _ hdata).map
          (ForwardedMulticastData.mk (m.user.getD "") (m.host.getD "") (m.feed.getD "")
            (m.topic.getD "") (m.contentType.getD "")))))))
  | forwardedUnicastData m =>
    obtain ⟨huser, hhost, hfeed, htopic, htype, hdata⟩ := h
    refine Frames.map (r := ForwardedUnicastData.readBody) ?_ Message.forwardedUnicastData
    exact (frames_readString _ huser).bind ((frames_readString _ hhost).bind
      ((frames_readGuid _).bind ((frames_readString _ hfeed).bind
        ((frames_readString _ htopic).bind ((frames_readString _ htype).bind
          ((frames_readBinaryDataPacketArray _ hdata).map
            (ForwardedUnicastData.mk (m.user.getD "") (m.host.getD "") m.clientId
              (m.feed.getD "") (m.topic.getD "") (m.contentType.getD ""))))))))

private theorem append_ne_nil_right (xs : List UInt8) {ys : List UInt8} (h : ys ≠ []) :
    xs ++ ys ≠ [] :=
  List.append_ne_nil_of_right_ne_nil xs h

private theorem writeBoolean_ne_nil (b : Bool) : writeBoolean b ≠ [] := List.cons_ne_nil _ _

/-- The classes that end with a boolean are read, with the boolean true, from all but
their last byte, and from no shorter prefix. -/
theorem framesButLast_read (m : Message (Option String)) (h : m.Fits)
    (hb : m.endsWithBoolean = true) :
    FramesButLast read m.write m.received m.guessed.received := by
  have hn : m.writeBody ≠ [] := by
    cases m with
    | forwardedSubscriptionRequest m =>
      simp [writeBody, ForwardedSubscriptionRequest.write, writeBoolean]
    | notificationRequest m => simp [writeBody, NotificationRequest.write, writeBoolean]
    | subscriptionRequest m => simp [writeBody, SubscriptionRequest.write, writeBoolean]
    | _ => cases hb
  refine (frames_readByte m.messageType.toByte).bindButLast ?_ hn
  rw [readBody_toByte]
  cases m with
  | forwardedSubscriptionRequest m =>
    obtain ⟨huser, hhost, hfeed, htopic⟩ := h
    refine FramesButLast.map (r := ForwardedSubscriptionRequest.readBody) ?_
      Message.forwardedSubscriptionRequest
    have hne := append_ne_nil_right (writeString m.topic) (writeBoolean_ne_nil m.isAdd)
    have hne' := append_ne_nil_right (writeString m.feed) hne
    have hne'' := append_ne_nil_right (writeGuid m.clientId) hne'
    refine (frames_readString _ huser).bindButLast ?_ (append_ne_nil_right _ hne'')
    refine (frames_readString _ hhost).bindButLast ?_ hne''
    refine (frames_readGuid m.clientId).bindButLast ?_ hne'
    refine (frames_readString _ hfeed).bindButLast ?_ hne
    refine (frames_readString _ htopic).bindButLast ?_ (writeBoolean_ne_nil _)
    exact (framesButLast_readBoolean m.isAdd).map (ForwardedSubscriptionRequest.mk
      (m.user.getD "") (m.host.getD "") m.clientId (m.feed.getD "") (m.topic.getD ""))
  | notificationRequest m =>
    refine FramesButLast.map (r := NotificationRequest.readBody) ?_ Message.notificationRequest
    exact (frames_readString _ h).bindButLast
      ((framesButLast_readBoolean m.isAdd).map (NotificationRequest.mk (m.feed.getD "")))
      (writeBoolean_ne_nil _)
  | subscriptionRequest m =>
    obtain ⟨hfeed, htopic⟩ := h
    refine FramesButLast.map (r := SubscriptionRequest.readBody) ?_ Message.subscriptionRequest
    have hne := append_ne_nil_right (writeString m.topic) (writeBoolean_ne_nil m.isAdd)
    refine (frames_readString _ hfeed).bindButLast ?_ hne
    refine (frames_readString _ htopic).bindButLast ?_ (writeBoolean_ne_nil _)
    exact (framesButLast_readBoolean m.isAdd).map
      (SubscriptionRequest.mk (m.feed.getD "") (m.topic.getD ""))
  | _ => cases hb

/-- `Message.Read` takes the bytes of a message and nothing of what follows them. -/
theorem decode_write (m : Message (Option String)) (h : m.Fits) (rest : List UInt8) :
    read.decode (m.write ++ rest) = .done m.received rest := by
  cases hb : m.endsWithBoolean with
  | false => exact (frames_read m h hb).done rest
  | true => exact (framesButLast_read m h hb).done rest

end Message

end MessageBus.Messages

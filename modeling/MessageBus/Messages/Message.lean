import MessageBus.Common.DataReader
import MessageBus.Common.DataWriter

/-!
# The nine message classes

`core/src/JetBlack.MessageBus.Messages`. A class is generic in what holds its strings:
a sender may pass null where `Write(string?)` takes it, so it holds `Option String`,
and a reader always returns a string. `write` is the body of `Write` after the call of
`base.Write`, which writes the message type.
-/

namespace MessageBus.Messages
open MessageBus.Base MessageBus.Common DataReader DataWriter

/-- `MessageType`, `MessageType.cs:6–17`. -/
inductive MessageType where
  | multicastData
  | unicastData
  | forwardedSubscriptionRequest
  | notificationRequest
  | subscriptionRequest
  | authorizationRequest
  | authorizationResponse
  | forwardedMulticastData
  | forwardedUnicastData
  deriving DecidableEq, Repr

namespace MessageType

/-- The value of the enumeration member. -/
def toByte : MessageType → UInt8
  | multicastData => 1
  | unicastData => 2
  | forwardedSubscriptionRequest => 3
  | notificationRequest => 4
  | subscriptionRequest => 5
  | authorizationRequest => 6
  | authorizationResponse => 7
  | forwardedMulticastData => 8
  | forwardedUnicastData => 9

/-- The member with the given value, if there is one. -/
def ofByte? (b : UInt8) : Option MessageType :=
  if b = 1 then some multicastData
  else if b = 2 then some unicastData
  else if b = 3 then some forwardedSubscriptionRequest
  else if b = 4 then some notificationRequest
  else if b = 5 then some subscriptionRequest
  else if b = 6 then some authorizationRequest
  else if b = 7 then some authorizationResponse
  else if b = 8 then some forwardedMulticastData
  else if b = 9 then some forwardedUnicastData
  else none

/-- A message type has the byte that it is known by. -/
theorem ofByte?_toByte (t : MessageType) : ofByte? t.toByte = some t := by
  cases t <;> rfl

end MessageType

/-! ### Multicast and unicast data -/

/-- `MulticastData.cs`. -/
structure MulticastData (ς : Type := String) where
  feed : ς
  topic : ς
  contentType : ς
  dataPackets : Option (List DataPacket)
  deriving DecidableEq

/-- `MulticastData.ReadBody`. -/
def MulticastData.readBody : Reader Exception MulticastData := do
  let feed ← readString
  let topic ← readString
  let contentType ← readString
  let dataPackets ← readBinaryDataPacketArray
  return { feed, topic, contentType, dataPackets }

/-- `MulticastData.Write`. -/
def MulticastData.write (m : MulticastData (Option String)) : List UInt8 :=
  writeString m.feed ++ (writeString m.topic ++ (writeString m.contentType ++
    writeDataPacketArray m.dataPackets))

/-- `UnicastData.cs`. -/
structure UnicastData (ς : Type := String) where
  clientId : Guid
  feed : ς
  topic : ς
  contentType : ς
  dataPackets : Option (List DataPacket)
  deriving DecidableEq

/-- `UnicastData.ReadBody`. -/
def UnicastData.readBody : Reader Exception UnicastData := do
  let clientId ← readGuid
  let feed ← readString
  let topic ← readString
  let contentType ← readString
  let dataPackets ← readBinaryDataPacketArray
  return { clientId, feed, topic, contentType, dataPackets }

/-- `UnicastData.Write`. -/
def UnicastData.write (m : UnicastData (Option String)) : List UInt8 :=
  writeGuid m.clientId ++ (writeString m.feed ++ (writeString m.topic ++
    (writeString m.contentType ++ writeDataPacketArray m.dataPackets)))

/-- `ForwardedMulticastData.cs`. -/
structure ForwardedMulticastData (ς : Type := String) where
  user : ς
  host : ς
  feed : ς
  topic : ς
  contentType : ς
  dataPackets : Option (List DataPacket)
  deriving DecidableEq

/-- `ForwardedMulticastData.ReadBody`. -/
def ForwardedMulticastData.readBody : Reader Exception ForwardedMulticastData := do
  let user ← readString
  let host ← readString
  let feed ← readString
  let topic ← readString
  let contentType ← readString
  let dataPackets ← readBinaryDataPacketArray
  return { user, host, feed, topic, contentType, dataPackets }

/-- `ForwardedMulticastData.Write`. -/
def ForwardedMulticastData.write (m : ForwardedMulticastData (Option String)) : List UInt8 :=
  writeString m.user ++ (writeString m.host ++ (writeString m.feed ++ (writeString m.topic ++
    (writeString m.contentType ++ writeDataPacketArray m.dataPackets))))

/-- `ForwardedUnicastData.cs`. -/
structure ForwardedUnicastData (ς : Type := String) where
  user : ς
  host : ς
  clientId : Guid
  feed : ς
  topic : ς
  contentType : ς
  dataPackets : Option (List DataPacket)
  deriving DecidableEq

/-- `ForwardedUnicastData.ReadBody`. -/
def ForwardedUnicastData.readBody : Reader Exception ForwardedUnicastData := do
  let user ← readString
  let host ← readString
  let clientId ← readGuid
  let feed ← readString
  let topic ← readString
  let contentType ← readString
  let dataPackets ← readBinaryDataPacketArray
  return { user, host, clientId, feed, topic, contentType, dataPackets }

/-- `ForwardedUnicastData.Write`. -/
def ForwardedUnicastData.write (m : ForwardedUnicastData (Option String)) : List UInt8 :=
  writeString m.user ++ (writeString m.host ++ (writeGuid m.clientId ++ (writeString m.feed ++
    (writeString m.topic ++ (writeString m.contentType ++
      writeDataPacketArray m.dataPackets)))))

/-! ### Requests -/

/-- `ForwardedSubscriptionRequest.cs`. -/
structure ForwardedSubscriptionRequest (ς : Type := String) where
  user : ς
  host : ς
  clientId : Guid
  feed : ς
  topic : ς
  isAdd : Bool
  deriving DecidableEq

/-- `ForwardedSubscriptionRequest.ReadBody`. -/
def ForwardedSubscriptionRequest.readBody : Reader Exception ForwardedSubscriptionRequest := do
  let user ← readString
  let host ← readString
  let clientId ← readGuid
  let feed ← readString
  let topic ← readString
  let isAdd ← readBoolean
  return { user, host, clientId, feed, topic, isAdd }

/-- `ForwardedSubscriptionRequest.Write`. -/
def ForwardedSubscriptionRequest.write (m : ForwardedSubscriptionRequest (Option String)) :
    List UInt8 :=
  writeString m.user ++ (writeString m.host ++ (writeGuid m.clientId ++ (writeString m.feed ++
    (writeString m.topic ++ writeBoolean m.isAdd))))

/-- `NotificationRequest.cs`. -/
structure NotificationRequest (ς : Type := String) where
  feed : ς
  isAdd : Bool
  deriving DecidableEq

/-- `NotificationRequest.ReadBody`. -/
def NotificationRequest.readBody : Reader Exception NotificationRequest := do
  let feed ← readString
  let isAdd ← readBoolean
  return { feed, isAdd }

/-- `NotificationRequest.Write`. -/
def NotificationRequest.write (m : NotificationRequest (Option String)) : List UInt8 :=
  writeString m.feed ++ writeBoolean m.isAdd

/-- `SubscriptionRequest.cs`. -/
structure SubscriptionRequest (ς : Type := String) where
  feed : ς
  topic : ς
  isAdd : Bool
  deriving DecidableEq

/-- `SubscriptionRequest.ReadBody`. -/
def SubscriptionRequest.readBody : Reader Exception SubscriptionRequest := do
  let feed ← readString
  let topic ← readString
  let isAdd ← readBoolean
  return { feed, topic, isAdd }

/-- `SubscriptionRequest.Write`. -/
def SubscriptionRequest.write (m : SubscriptionRequest (Option String)) : List UInt8 :=
  writeString m.feed ++ (writeString m.topic ++ writeBoolean m.isAdd)

/-- `AuthorizationRequest.cs`. -/
structure AuthorizationRequest (ς : Type := String) where
  clientId : Guid
  host : ς
  user : ς
  feed : ς
  topic : ς
  deriving DecidableEq

/-- `AuthorizationRequest.ReadBody`. -/
def AuthorizationRequest.readBody : Reader Exception AuthorizationRequest := do
  let clientId ← readGuid
  let host ← readString
  let user ← readString
  let feed ← readString
  let topic ← readString
  return { clientId, host, user, feed, topic }

/-- `AuthorizationRequest.Write`. -/
def AuthorizationRequest.write (m : AuthorizationRequest (Option String)) : List UInt8 :=
  writeGuid m.clientId ++ (writeString m.host ++ (writeString m.user ++ (writeString m.feed ++
    writeString m.topic)))

/-- `AuthorizationResponse.cs`. -/
structure AuthorizationResponse (ς : Type := String) where
  clientId : Guid
  feed : ς
  topic : ς
  isAuthorizationRequired : Bool
  entitlements : Option (HashSet Int32)
  deriving DecidableEq

/-- `AuthorizationResponse.ReadBody`. -/
def AuthorizationResponse.readBody : Reader Exception AuthorizationResponse := do
  let clientId ← readGuid
  let feed ← readString
  let topic ← readString
  let isAuthorizationRequired ← readBoolean
  let entitlements ← readInt32Set
  return { clientId, feed, topic, isAuthorizationRequired, entitlements }

/-- `AuthorizationResponse.Write`. -/
def AuthorizationResponse.write (m : AuthorizationResponse (Option String)) : List UInt8 :=
  writeGuid m.clientId ++ (writeString m.feed ++ (writeString m.topic ++
    (writeBoolean m.isAuthorizationRequired ++ writeInt32Set m.entitlements)))

/-! ### Messages -/

/-- `Message.cs`: a message of one of the nine classes. -/
inductive Message (ς : Type := String) where
  | multicastData (m : MulticastData ς)
  | unicastData (m : UnicastData ς)
  | forwardedSubscriptionRequest (m : ForwardedSubscriptionRequest ς)
  | notificationRequest (m : NotificationRequest ς)
  | subscriptionRequest (m : SubscriptionRequest ς)
  | authorizationRequest (m : AuthorizationRequest ς)
  | authorizationResponse (m : AuthorizationResponse ς)
  | forwardedMulticastData (m : ForwardedMulticastData ς)
  | forwardedUnicastData (m : ForwardedUnicastData ς)
  deriving DecidableEq

namespace Message

variable {ς : Type}

/-- `Message.MessageType`, set by the constructor of each class. -/
def messageType : Message ς → MessageType
  | multicastData _ => .multicastData
  | unicastData _ => .unicastData
  | forwardedSubscriptionRequest _ => .forwardedSubscriptionRequest
  | notificationRequest _ => .notificationRequest
  | subscriptionRequest _ => .subscriptionRequest
  | authorizationRequest _ => .authorizationRequest
  | authorizationResponse _ => .authorizationResponse
  | forwardedMulticastData _ => .forwardedMulticastData
  | forwardedUnicastData _ => .forwardedUnicastData

/-- The fields that the class of the message writes. -/
def writeBody : Message (Option String) → List UInt8
  | multicastData m => m.write
  | unicastData m => m.write
  | forwardedSubscriptionRequest m => m.write
  | notificationRequest m => m.write
  | subscriptionRequest m => m.write
  | authorizationRequest m => m.write
  | authorizationResponse m => m.write
  | forwardedMulticastData m => m.write
  | forwardedUnicastData m => m.write

/-- `Message.Write`, `Message.cs:75–79`, and the override of the class. -/
def write (m : Message (Option String)) : List UInt8 :=
  writeByte m.messageType.toByte ++ m.writeBody

/-- `Message.ReadHeader`, `Message.cs:64–68`: any byte is a value of the enumeration. -/
def readHeader : Reader Exception UInt8 := DataReader.readByte

/-- The `switch` of `Message.Read`. -/
def readBody (messageType : UInt8) : Reader Exception Message :=
  match MessageType.ofByte? messageType with
  | some .authorizationRequest => do return .authorizationRequest (← AuthorizationRequest.readBody)
  | some .authorizationResponse => do
    return .authorizationResponse (← AuthorizationResponse.readBody)
  | some .multicastData => do return .multicastData (← MulticastData.readBody)
  | some .unicastData => do return .unicastData (← UnicastData.readBody)
  | some .forwardedMulticastData => do
    return .forwardedMulticastData (← ForwardedMulticastData.readBody)
  | some .forwardedUnicastData => do
    return .forwardedUnicastData (← ForwardedUnicastData.readBody)
  | some .forwardedSubscriptionRequest => do
    return .forwardedSubscriptionRequest (← ForwardedSubscriptionRequest.readBody)
  | some .notificationRequest => do return .notificationRequest (← NotificationRequest.readBody)
  | some .subscriptionRequest => do return .subscriptionRequest (← SubscriptionRequest.readBody)
  | none => .fail (.invalidData ("Unknown message type " ++ toString messageType.toNat))

/-- `Message.Read`, `Message.cs:30–57`. -/
def read : Reader Exception Message := do
  let messageType ← readHeader
  readBody messageType

end Message

end MessageBus.Messages

import MessageBus.Common.Values

/-!
# The data writer

`core/src/JetBlack.MessageBus.Common/IO/DataWriter.cs`. Each `Write` appends bytes to
the stream, so it is the list of the bytes it appends. Every length is written as an
`int`, big-endian.
-/

namespace MessageBus.Common.DataWriter
open MessageBus.Base

/-- The cast `(byte)` of an `int`, which keeps the low eight bits. -/
def toByte (value : Int32) : UInt8 := value.toUInt32.toUInt8

/-- `Write(bool)`, `DataWriter.cs:31–34`. -/
def writeBoolean (value : Bool) : List UInt8 := [if value then 1 else 0]

/-- `Write(byte)`, `DataWriter.cs:40–43`. -/
def writeByte (value : UInt8) : List UInt8 := [value]

/-- `Write(int)`, `DataWriter.cs:49–60`; the shifts are arithmetic. -/
def writeInt32 (value : Int32) : List UInt8 :=
  [toByte ((value >>> 24) &&& 0xFF), toByte ((value >>> 16) &&& 0xFF),
    toByte ((value >>> 8) &&& 0xFF), toByte ((value >>> 0) &&& 0xFF)]

/-- The bytes of a .NET `Length` or `Count`. -/
def writeLength (length : Nat) : List UInt8 := writeInt32 (Int32.ofNat length)

/-- `Write(string?)`, `DataWriter.cs:66–78`. -/
def writeString : Option String → List UInt8
  | none => writeInt32 0
  | some value => writeLength (UTF8.getBytes value).length ++ UTF8.getBytes value

/-- `Write(byte[]?)`, `DataWriter.cs:84–93`. -/
def writeByteArray : Option (List UInt8) → List UInt8
  | none => writeInt32 0
  | some value => writeLength value.length ++ value

/-- `Write(ISet<int>?)`, `DataWriter.cs:95–105`, in the order of enumeration. -/
def writeInt32Set : Option (HashSet Int32) → List UInt8
  | none => writeInt32 0
  | some value => writeLength value.toList.length ++ value.toList.flatMap writeInt32

/-- `Write(Guid)`, `DataWriter.cs:111–115`. -/
def writeGuid (value : Guid) : List UInt8 := value.toByteArray

/-- `Write(DataPacket)`, `DataWriter.cs:117–121`. -/
def writeDataPacket (dataPacket : DataPacket) : List UInt8 :=
  writeInt32Set dataPacket.entitlements ++ writeByteArray dataPacket.data

/-- `Write(DataPacket[]?)`, `DataWriter.cs:123–133`. -/
def writeDataPacketArray : Option (List DataPacket) → List UInt8
  | none => writeInt32 0
  | some dataPackets =>
    writeLength dataPackets.length ++ dataPackets.flatMap writeDataPacket

end MessageBus.Common.DataWriter

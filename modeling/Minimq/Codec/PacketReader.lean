import Minimq.Codec.ReceivedPacket

/-! Assembly of inbound packets from transport reads. -/

namespace Minimq

/-- The receive buffer, the bytes read into it, and the packet length once it is known. -/
structure PacketReader where
  buffer : Bytes
  /-- How much of the buffer belongs to the current packet. -/
  readBytes : Nat
  /-- The length of the current packet with its header, once known. -/
  packetLength : Option Nat
  deriving DecidableEq

namespace PacketReader

/-- A reader over one receive buffer. -/
def new (buffer : Bytes) : PacketReader := ⟨buffer, 0, none⟩

/-- The size of the receive buffer. -/
def capacity (reader : PacketReader) : Nat := reader.buffer.length

/-- Determine the packet length as soon as the length field is complete. -/
def probeFixedHeader : EStateM ProtocolError PacketReader Unit := do
  let reader ← get
  if reader.readBytes ≤ 1 then return ()
  set { reader with packetLength := none }
  match probeMqttU32Varint ((reader.buffer.take reader.readBytes).drop 1) with
  | .error _ => throw .malformedPacket
  | .ok none => return ()
  | .ok (some (packetLength, lengthSizeBytes)) =>
    set { reader with packetLength := some (1 + lengthSizeBytes + packetLength) }

/-- The size of the window up to the end of what is known to come. -/
def window (reader : PacketReader) : Except ProtocolError Nat :=
  let stop := match reader.packetLength with
    | some packetLength => packetLength
    | none => reader.readBytes + 1
  if stop ≤ reader.buffer.length then .ok (stop - reader.readBytes) else .error .malformedPacket

/-- The size of the window for the next read. -/
def receiveBuffer : EStateM ProtocolError PacketReader Nat := do
  if (← get).packetLength.isNone then probeFixedHeader
  match (← get).window with
  | .error error => throw error
  | .ok size => return size

/-- Place received bytes into the window. -/
def fill (reader : PacketReader) (chunk : Bytes) : PacketReader :=
  { reader with buffer := Arena.overwrite reader.buffer reader.readBytes chunk }

/-- Account for bytes placed into the window. -/
def commit (reader : PacketReader) (count : Nat) : PacketReader :=
  { reader with readBytes := reader.readBytes + count }

/-- Whether a complete packet is in the buffer. -/
def packetAvailable (reader : PacketReader) : Bool :=
  match reader.packetLength with
  | some length => length ≤ reader.readBytes
  | none => false

/-- Begin a new packet. -/
def reset (reader : PacketReader) : PacketReader :=
  { reader with readBytes := 0, packetLength := none }

/-- Hand out the complete packet and begin a new one, also if it does not decode. -/
def takePacket : EStateM ProtocolError PacketReader (Nat × ReceivedPacket) := do
  let reader ← get
  match reader.packetLength with
  | none => throw .malformedPacket
  | some packetLength =>
    set reader.reset
    match ReceivedPacket.fromBuffer (reader.buffer.take packetLength) with
    | .error error => throw error
    | .ok packet => return (packetLength, packet)

end PacketReader

end Minimq

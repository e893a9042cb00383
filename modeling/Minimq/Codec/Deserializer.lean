import Minimq.Codec.Packets

/-! The packet deserializer: fields are taken from the front of a byte slice. -/

namespace Minimq

/-- A byte slice, the position of the next byte, and the length of a block read ahead. -/
structure Deserializer where
  buf : Bytes
  /-- Where the next byte comes from. -/
  index : Nat
  /-- The length of the next binary field, if a sequence has announced it. -/
  nextBytesLen : Option Nat
  deriving DecidableEq

/-- A read from the slice; the position is kept when it fails. -/
abbrev Read := EStateM DeError Deserializer

namespace Deserializer

/-- A deserializer over a provided slice. -/
def new (buf : Bytes) : Deserializer := ⟨buf, 0, none⟩

/-- The number of remaining bytes. -/
def len (deserializer : Deserializer) : Nat := deserializer.buf.length - deserializer.index

/-- The remaining bytes. -/
def remainder (deserializer : Deserializer) : Bytes := deserializer.buf.drop deserializer.index

/-- Take `n` bytes. -/
def tryTakeN (n : Nat) : Read Bytes := do
  let deserializer ← get
  if deserializer.len < n then throw .insufficientData
  else
    set { deserializer with index := deserializer.index + n }
    return deserializer.remainder.take n

/-- Take a single byte. -/
def pop : Read UInt8 := do
  let deserializer ← get
  match deserializer.remainder with
  | [] => throw .insufficientData
  | byte :: _ =>
    set { deserializer with index := deserializer.index + 1 }
    return byte

/-- Read a 16-bit integer. -/
def readU16 : Read UInt16 := do
  let deserializer ← get
  match deserializer.remainder with
  | high :: low :: _ =>
    set { deserializer with index := deserializer.index + 2 }
    return (high.toUInt16 <<< 8) ||| low.toUInt16
  | _ => throw .insufficientData

/-- Read a 32-bit integer. -/
def readU32 : Read UInt32 := do
  let deserializer ← get
  match deserializer.remainder with
  | first :: second :: third :: fourth :: _ =>
    set { deserializer with index := deserializer.index + 4 }
    return (first.toUInt32 <<< 24) ||| (second.toUInt32 <<< 16) ||| (third.toUInt32 <<< 8) |||
      fourth.toUInt32
  | _ => throw .insufficientData

/-- Read the variable byte integer in front of a sequence or a property. -/
def readVarint : Read Nat := readMqttU32Varint pop .badVarint

/-- Read a variable byte integer that is a field of its own. -/
def varint : Read Nat := readMqttU32Varint pop .custom

/-- Read a boolean. -/
def bool : Read Bool := do
  let byte ← pop
  if byte = 0 then return false
  else if byte = 1 then return true
  else throw .badBool

/-- Read a string behind its 16-bit length. -/
def str : Read Utf8 := do
  let length ← readU16
  let bytes ← tryTakeN length.toNat
  match Utf8.fromBytes bytes with
  | some text => return text
  | none => throw .badString

/-- Read binary data behind its length, which is known already inside a sequence. -/
def bytes : Read Bytes := do
  let deserializer ← get
  set { deserializer with nextBytesLen := none }
  match deserializer.nextBytesLen with
  | some length => tryTakeN length
  | none =>
    let length ← readU16
    tryTakeN length.toNat

/-- Read an optional field, which is present if any byte remains. -/
def option {α : Type} (field : Read α) : Read (Option α) := do
  if (← get).len = 0 then return none else return some (← field)

/-- Read a property block as one piece. -/
def properties : Read Properties := do
  let length ← readVarint
  modify fun deserializer => { deserializer with nextBytesLen := some length }
  -- The sequence hands out its first element only if it is not empty.
  if length = 0 then return .encoded []
  else
    let original := (← get).len
    let block ← bytes
    if length < original - (← get).len then throw .insufficientData
    modify fun deserializer => { deserializer with nextBytesLen := none }
    return .encoded block

/-- Read a reason code. -/
def reasonCode : Read ReasonCode := do return .fromByte (← pop)

/-- Read the reason of an acknowledgement, as far as it is present. -/
def reason : Read Reason := do
  return ⟨← option do
    let code ← reasonCode
    return (code, ← option properties)⟩

/-- Read an acknowledgement of a publication. -/
def ack : Read Ack := do
  let packetId ← readU16
  return ⟨packetId, ← reason⟩

/-- Read an acknowledgement of a subscription request, up to its codes. -/
def subAck : Read SubAck := do
  let packetId ← readU16
  return ⟨packetId, ← properties, []⟩

/-- Read the answer to a connection request. -/
def connAck : Read ConnAck := do
  let sessionPresent ← bool
  let code ← reasonCode
  return ⟨sessionPresent, code, ← properties⟩

/-- Read the end of a connection. -/
def disconnect : Read Disconnect := do
  let code ← option reasonCode
  return ⟨code, ← option properties⟩

/-- Read the value of the property with a given identifier. -/
def propertyValue : Nat → Read Property
  | 0x01 => return .payloadFormatIndicator (← pop)
  | 0x02 => return .messageExpiryInterval (← readU32)
  | 0x03 => return .contentType (← str)
  | 0x08 => return .responseTopic (← str)
  | 0x09 => return .correlationData (← bytes)
  | 0x0B => return .subscriptionIdentifier (UInt32.ofNat (← varint))
  | 0x11 => return .sessionExpiryInterval (← readU32)
  | 0x12 => return .assignedClientIdentifier (← str)
  | 0x13 => return .serverKeepAlive (← readU16)
  | 0x15 => return .authenticationMethod (← str)
  | 0x16 => return .authenticationData (← bytes)
  | 0x17 => return .requestProblemInformation (← pop)
  | 0x18 => return .willDelayInterval (← readU32)
  | 0x19 => return .requestResponseInformation (← pop)
  | 0x1A => return .responseInformation (← str)
  | 0x1C => return .serverReference (← str)
  | 0x1F => return .reasonString (← str)
  | 0x21 => return .receiveMaximum (← readU16)
  | 0x22 => return .topicAliasMaximum (← readU16)
  | 0x23 => return .topicAlias (← readU16)
  | 0x24 => return .maximumQoS (← pop)
  | 0x25 => return .retainAvailable (← pop)
  | 0x26 => do
    let key ← str
    return .userProperty key (← str)
  | 0x27 => return .maximumPacketSize (← readU32)
  | 0x28 => return .wildcardSubscriptionAvailable (← pop)
  | 0x29 => return .subscriptionIdentifierAvailable (← pop)
  | 0x2A => return .sharedSubscriptionAvailable (← pop)
  | _ => throw .custom

/-- Read one property. -/
def property : Read Property := do
  let identifier ← readVarint
  propertyValue identifier

end Deserializer

namespace Properties

/-- Decode an encoded block lazily; a failed property is skipped as far as it was read. -/
def decodeBlock : (fuel : Nat) → Bytes → List (Except PeerError Property)
  | 0, _ => []
  -- Every attempt on a non-empty block takes at least one byte.
  | _ + 1, [] => []
  | fuel + 1, block =>
    match Deserializer.property.run (Deserializer.new block) with
    | .ok property rest => .ok property :: decodeBlock fuel rest.remainder
    | .error _ rest => .error .invalidPacket :: decodeBlock fuel rest.remainder

/-- What an iterator over an encoded block hands out next, and the bytes it has not taken yet. -/
def next : Bytes → Option (Except PeerError Property × Bytes)
  | [] => none
  | block =>
    match Deserializer.property.run (Deserializer.new block) with
    | .ok property rest => some (.ok property, rest.remainder)
    | .error _ rest => some (.error .invalidPacket, rest.remainder)

/-- The decoded properties in order. -/
def iter : Properties → List (Except PeerError Property)
  | .encoded block => decodeBlock block.length block
  | .slice properties => properties.map .ok
  | .withCorrelation correlation properties => (correlation :: properties).map .ok

/-- The first response topic. -/
def responseTopic (properties : Properties) : Option Utf8 :=
  properties.iter.findSome? fun
    | .ok (.responseTopic topic) => some topic
    | _ => none

/-- Whether every property decodes and may be sent in a packet of the given kind. -/
def validFor (properties : Properties) (context : PropertyContext) : Bool :=
  properties.iter.all fun
    | .ok property => property.isValidFor context
    | .error _ => false

end Properties

end Minimq

import Minimq.Codec.Varint

/-! Fixed headers: packet types, their required flags, and the flag bits of PUBLISH. -/

namespace Minimq

/-- The control packet types of MQTT. -/
inductive MessageType where
  | connect
  | connAck
  | publish
  | pubAck
  | pubRec
  | pubRel
  | pubComp
  | subscribe
  | subAck
  | unsubscribe
  | unsubAck
  | pingReq
  | pingResp
  | disconnect
  | auth
  deriving DecidableEq

namespace MessageType

/-- The number of a packet type in the upper half of the fixed header. -/
def toByte : MessageType → UInt8
  | .connect => 1
  | .connAck => 2
  | .publish => 3
  | .pubAck => 4
  | .pubRec => 5
  | .pubRel => 6
  | .pubComp => 7
  | .subscribe => 8
  | .subAck => 9
  | .unsubscribe => 10
  | .unsubAck => 11
  | .pingReq => 12
  | .pingResp => 13
  | .disconnect => 14
  | .auth => 15

/-- All packet types, in the order of their numbers. -/
def all : List MessageType :=
  [.connect, .connAck, .publish, .pubAck, .pubRec, .pubRel, .pubComp, .subscribe, .subAck,
    .unsubscribe, .unsubAck, .pingReq, .pingResp, .disconnect, .auth]

/-- Read a packet type number; zero is reserved. -/
def tryFrom (number : UInt8) : Option MessageType :=
  all.find? fun kind => kind.toByte == number

/-- The flags a packet type must carry. -/
def requiredFlags : MessageType → UInt8
  | .pubRel | .subscribe | .unsubscribe => 0b0010
  | _ => 0

/-- PUBLISH uses its flags freely; every other type has fixed ones. -/
def flagsValid (kind : MessageType) (flags : UInt8) : Bool :=
  kind == .publish || flags == kind.requiredFlags

end MessageType

/-- The first byte of a packet. -/
structure FixedHeader where
  /-- Packet type in the upper half, flags in the lower half. -/
  byte : UInt8
  deriving DecidableEq

namespace FixedHeader

/-- Combine a packet type with its flags. -/
def new (kind : MessageType) (flags : UInt8) : FixedHeader :=
  ⟨(kind.toByte <<< 4) ||| flags⟩

/-- The packet type, unless it is the reserved one. -/
def messageType (header : FixedHeader) : Option MessageType :=
  MessageType.tryFrom (header.byte >>> 4)

/-- The lower half of the byte. -/
def flags (header : FixedHeader) : UInt8 := header.byte &&& 0x0F

/-- Whether the flags are allowed for the packet type. -/
def flagsValid (header : FixedHeader) : Bool :=
  match header.messageType with
  | some kind => kind.flagsValid header.flags
  | none => false

/-- The quality of service of a PUBLISH; both bits set is malformed. -/
def publishQos (header : FixedHeader) : Option QoS :=
  QoS.tryFrom ((header.flags &&& 0b110) >>> 1)

/-- The retain flag of a PUBLISH. -/
def publishRetain (header : FixedHeader) : Retain :=
  if header.flags &&& 1 = 0 then .notRetained else .retained

/-- The DUP flag of a PUBLISH. -/
def publishDuplicate (header : FixedHeader) : Bool := header.flags &&& 0b1000 != 0

/-- The same header with the DUP flag set. -/
def withPublishDuplicate (header : FixedHeader) : FixedHeader := ⟨header.byte ||| 0b1000⟩

end FixedHeader

/-- Mark an encoded PUBLISH fixed header as a retransmission. -/
def markPublishDuplicate (fixedHeader : UInt8) : UInt8 :=
  (FixedHeader.mk fixedHeader).withPublishDuplicate.byte

end Minimq

import Minimq.Codec.ReceivedPacket

/-! The grammar of the packets a client accepts: which bytes stand for which fields. -/

namespace Minimq

/-- A string field: a 16-bit length and that many bytes of well-formed text. -/
def TextField (text : Utf8) (bytes : Bytes) : Prop :=
  text.len ≤ 65535 ∧ bytes = u16Bytes (UInt16.ofNat text.len) ++ text.bytes

/-- A property block: a canonical variable byte integer and that many bytes. -/
def PropertyBlock (properties : Properties) (bytes : Bytes) : Prop :=
  ∃ block len, properties = .encoded block ∧ writeMqttU32Varint block.length = some len ∧
    bytes = len ++ block

/-- The body of a CONNACK: the session-present byte, a reason code and a property block. -/
def ConnAckBody (ack : ConnAck) (body : Bytes) : Prop :=
  ∃ byte block, ack.reasonCode = .fromByte byte ∧ PropertyBlock ack.properties block ∧
    body = (if ack.sessionPresent then 1 else 0) :: byte :: block

/-- The packet identifier of a PUBLISH, which only QoS 0 does without. -/
def PublishId (qos : QoS) (packetId : Option UInt16) (bytes : Bytes) : Prop :=
  match packetId with
  | none => qos = .atMostOnce ∧ bytes = []
  | some packetId => qos ≠ .atMostOnce ∧ bytes = u16Bytes packetId

/-- The body of a PUBLISH: topic, identifier, properties, and the payload behind them. -/
def PublishBody (info : Publish) (body : Bytes) : Prop :=
  ∃ topic packetId block, TextField info.topic topic ∧ PublishId info.qos info.packetId packetId ∧
    PropertyBlock info.properties block ∧ body = topic ++ packetId ++ block ++ info.payload

/-- The first byte of a PUBLISH: its type and four free flags, but for one quality of service. -/
def PublishByte (info : Publish) (byte : UInt8) : Prop :=
  let dup : UInt8 := if info.dup then 8 else 0
  let retain : UInt8 := if info.retain = .retained then 1 else 0
  byte = (0x30 : UInt8) ||| dup ||| (info.qos.toByte <<< 1) ||| retain

/-- The body of an acknowledgement: the reason code may be missing, and the properties too. -/
def AckBody (ack : Ack) (body : Bytes) : Prop :=
  match ack.reason.reason with
  | none => body = u16Bytes ack.packetId
  | some (code, none) => ∃ byte, code = .fromByte byte ∧ body = u16Bytes ack.packetId ++ [byte]
  | some (code, some properties) => ∃ byte block, code = .fromByte byte ∧
    PropertyBlock properties block ∧ body = u16Bytes ack.packetId ++ byte :: block

/-- The body of a SUBACK or UNSUBACK: identifier, properties, and the codes behind them. -/
def SubAckBody (ack : SubAck) (body : Bytes) : Prop :=
  ∃ block, PropertyBlock ack.properties block ∧
    body = u16Bytes ack.packetId ++ block ++ ack.codes

/-- The body of a DISCONNECT: there are no properties without a reason code. -/
def DisconnectBody (disconnect : Disconnect) (body : Bytes) : Prop :=
  match disconnect.reasonCode, disconnect.properties with
  | none, none => body = []
  | some code, none => ∃ byte, code = .fromByte byte ∧ body = [byte]
  | some code, some properties => ∃ byte block, code = .fromByte byte ∧
    PropertyBlock properties block ∧ body = byte :: block
  | none, some _ => False

/-- The packets: each has its first byte and its body. -/
def ReceivedPacket.Spelled (byte : UInt8) (body : Bytes) : ReceivedPacket → Prop
  | .connAck ack => byte = 0x20 ∧ ConnAckBody ack body
  | .publish info => PublishByte info byte ∧ PublishBody info body
  | .pubAck ack => byte = 0x40 ∧ AckBody ack.toAck body
  | .pubRec rec => byte = 0x50 ∧ AckBody rec.toAck body
  | .pubRel rel => byte = 0x62 ∧ AckBody rel.toAck body
  | .pubComp comp => byte = 0x70 ∧ AckBody comp.toAck body
  | .subAck ack => byte = 0x90 ∧ SubAckBody ack body
  | .unsubAck ack => byte = 0xB0 ∧ SubAckBody ack body
  | .pingResp => byte = 0xD0 ∧ body = []
  | .disconnect reason => byte = 0xE0 ∧ DisconnectBody reason body

/-- A buffer that holds exactly one packet: a type byte, a canonical length and that many bytes. -/
def Framed (buf : Bytes) (byte : UInt8) (body : Bytes) : Prop :=
  ∃ len, writeMqttU32Varint body.length = some len ∧ buf = byte :: (len ++ body)

end Minimq

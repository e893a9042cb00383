import Minimq.Codec.Deserializer

/-! Decoding of a complete inbound packet. -/

namespace Minimq

/-- The packets a client accepts. -/
inductive ReceivedPacket where
  | connAck (ack : ConnAck)
  | publish (info : Publish)
  | pubAck (ack : PubAck)
  | subAck (ack : SubAck)
  | unsubAck (ack : SubAck)
  | pubRel (rel : PubRel)
  | pubRec (rec : PubRec)
  | pubComp (comp : PubComp)
  | disconnect (disconnect : Disconnect)
  | pingResp

namespace ReceivedPacket

/-- Read the header of a publication; the payload is what remains behind it. -/
def publishFields (header : FixedHeader) : Read Publish := do
  match header.publishQos with
  | none => throw .custom
  | some qos =>
    let topic ← Deserializer.str
    let packetId ← if qos = .atMostOnce then pure none else some <$> Deserializer.readU16
    let properties ← Deserializer.properties
    return ⟨topic, packetId, properties, [], header.publishRetain, qos, header.publishDuplicate⟩

/-- Read the fields of a packet of the given type. -/
def fields (header : FixedHeader) : MessageType → Read ReceivedPacket
  | .connAck => return .connAck (← Deserializer.connAck)
  | .publish => return .publish (← publishFields header)
  | .pubAck => return .pubAck ⟨← Deserializer.ack⟩
  | .subAck => return .subAck (← Deserializer.subAck)
  | .unsubAck => return .unsubAck (← Deserializer.subAck)
  | .pingResp => return .pingResp
  | .pubRec => return .pubRec ⟨← Deserializer.ack⟩
  | .pubRel => return .pubRel ⟨← Deserializer.ack⟩
  | .pubComp => return .pubComp ⟨← Deserializer.ack⟩
  | .disconnect => return .disconnect (← Deserializer.disconnect)
  | _ => throw .custom

/-- Read the fixed header, the remaining length and the fields. -/
def deserialize : Read ReceivedPacket := do
  let header := FixedHeader.mk (← Deserializer.pop)
  let _length ← Deserializer.varint
  match header.messageType with
  | none => throw .custom
  | some kind => if header.flagsValid then fields header kind else throw .custom

/-- Decode a packet; only some packets may have bytes behind their fields. -/
def fromBuffer (buf : Bytes) : Except ProtocolError ReceivedPacket :=
  match deserialize.run (Deserializer.new buf) with
  | .error error _ => .error (.deserialization error)
  | .ok packet rest =>
    if rest.remainder = [] then .ok packet
    else match packet with
      | .publish info => .ok (.publish { info with payload := rest.remainder })
      | .subAck ack => .ok (.subAck { ack with codes := rest.remainder })
      | .unsubAck ack => .ok (.unsubAck { ack with codes := rest.remainder })
      | _ => .error .malformedPacket

end ReceivedPacket

end Minimq

import Minimq.Proofs.Codec.Grammar

/-! Decoding undoes encoding: what the serializer writes is spelled as the grammar wants it. -/

namespace Minimq

open Grammar

variable {α π : Type} {buf bytes block : Bytes}

theorem ReasonCode.fromByte_toByte (code : ReasonCode) : fromByte code.toByte = code := by
  cases code <;> decide

namespace Property

/-- Only properties within the limits of their encodings have bytes. -/
theorem encodable_of_tokenBytes {property : Property} {bytes : Bytes}
    (encoded : tokenBytes property.tokens = some bytes) : property.Encodable := by
  -- Strings and binary data carry their length in two bytes.
  have text {value : Utf8} {bytes : Bytes} (encoded : tokenBytes (utf8Tokens value) = some bytes) :
      value.len ≤ 65535 := by
    rw [tokenBytes_utf8Tokens, counted] at encoded
    split at encoded
    · assumption
    · cases encoded
  have data {value bytes : Bytes} (encoded : tokenBytes (binaryTokens value) = some bytes) :
      value.length ≤ 65535 := by
    rw [tokenBytes_binaryTokens, counted] at encoded
    split at encoded
    · assumption
    · cases encoded
  rw [tokens, tokenBytes_append] at encoded
  simp only [Option.bind_eq_some_iff, Option.map_eq_some_iff] at encoded
  obtain ⟨-, -, value, encoded, -⟩ := encoded
  -- The identifier always has an encoding, so only the value can fail.
  cases property with
  | userProperty key value =>
    rw [valueTokens, tokenBytes_append] at encoded
    simp only [Option.bind_eq_some_iff, Option.map_eq_some_iff] at encoded
    obtain ⟨front, first, back, second, -⟩ := encoded
    exact ⟨text first, text second⟩
  | subscriptionIdentifier value =>
    rw [valueTokens, tokenBytes_varintTokens] at encoded
    refine Nat.le_of_not_lt fun large => ?_
    rw [writeMqttU32Varint_eq_none.mpr large] at encoded
    cases encoded
  | _ value =>
    first
    | trivial
    | exact text encoded
    | exact data encoded

end Property

namespace Properties

/-- What follows the length of a property block. -/
def content : Properties → List Token
  | .slice properties => properties.flatMap Property.tokens
  | .withCorrelation correlation properties =>
    correlation.tokens ++ properties.flatMap Property.tokens
  | .encoded block => block.map fun byte => .push [byte]

theorem tokens_eq (properties : Properties) :
    properties.tokens = varintTokens (properties.size % 2 ^ 32) ++ properties.content := by
  cases properties <;> rfl

/-- Only lists of properties within the limits of their encodings have bytes. -/
theorem encodable_of_listBytes {list : List Property}
    (encoded : listBytes list = some block) : ∀ property ∈ list, property.Encodable := by
  -- Each property is encoded on its own, one behind the other.
  induction list generalizing block with
  | nil => simp
  | cons first list ih =>
    rw [listBytes_cons] at encoded
    simp only [Option.bind_eq_some_iff, Option.map_eq_some_iff] at encoded
    obtain ⟨bytes, own, rest, others, -⟩ := encoded
    intro property member
    cases member with
    | head => exact Property.encodable_of_tokenBytes own
    | tail _ member => exact ih others property member

theorem size_of_listBytes {list : List Property}
    (encoded : listBytes list = some block) : (list.map Property.size).sum = block.length := by
  obtain ⟨other, same, size⟩ := listBytes_length (encodable_of_listBytes encoded)
  rw [encoded] at same
  cases same
  exact size

/-- The bytes behind the length are counted by the size and hand out the properties. -/
theorem content_bytes {properties : Properties}
    (encoded : tokenBytes properties.content = some block) :
    properties.size = block.length ∧ (Properties.encoded block).iter = properties.iter := by
  -- Correlation data are counted behind the list and written in front of it.
  cases properties with
  | slice list => exact ⟨size_of_listBytes encoded, iter_of_listBytes encoded⟩
  | withCorrelation correlation list =>
    have whole : listBytes (correlation :: list) = some block := encoded
    refine ⟨?_, iter_of_listBytes whole⟩
    rw [← size_of_listBytes whole, size, List.map_append, List.sum_append, List.map_cons,
      List.sum_cons, Nat.add_comm]
    rfl
  | encoded bytes =>
    rw [content, tokenBytes_bytes] at encoded
    cases encoded
    exact ⟨rfl, rfl⟩

/-- Written properties are a property block that hands them out again. -/
theorem spelled {properties : Properties} {bytes : Bytes}
    (encoded : tokenBytes properties.tokens = some bytes) (small : bytes.length < 2 ^ 32) :
    ∃ decoded : Properties, PropertyBlock decoded bytes ∧ decoded.iter = properties.iter := by
  rw [tokens_eq, tokenBytes_append, tokenBytes_varintTokens] at encoded
  simp only [Option.bind_eq_some_iff, Option.map_eq_some_iff] at encoded
  obtain ⟨len, written, block, content, rfl⟩ := encoded
  obtain ⟨size, same⟩ := content_bytes content
  rw [List.length_append] at small
  -- The size is not cut off, because the block itself is in the buffer.
  rw [size, Nat.mod_eq_of_lt (by omega)] at written
  exact ⟨.encoded block, ⟨block, len, rfl, written, rfl⟩, same⟩

end Properties

theorem framed_of_encoded {header : FixedHeader} {body bytes after : Bytes} {offset : Nat}
    (encoded : Encoded header body offset bytes after) (small : after.length < 2 ^ 32) :
    Framed bytes header.byte body ∧ body.length < 2 ^ 32 := by
  have fits := encoded.fits
  obtain ⟨len, written, rfl⟩ := Option.map_eq_some_iff.mp encoded.framed
  rw [Nat.mod_eq_of_lt (by omega)] at written
  exact ⟨⟨len, written, rfl⟩, by omega⟩

/-- The bytes of a packet are framed fields. -/
theorem framed_of_encode_ok [ControlPacket α] {packet : α}
    (encoded : encode buf packet = .ok bytes) (small : buf.length < 2 ^ 32) :
    ∃ body, tokenBytes (ControlPacket.tokens packet) = some body ∧
      Framed bytes (ControlPacket.fixedHeader packet).byte body ∧ body.length < 2 ^ 32 := by
  unfold encode at encoded
  rcases encodeWithOffset_cases buf packet with
    ⟨body, offset, packet, after, done, same, fields, whole⟩ | ⟨error, after, failed, -⟩
  · rw [done] at encoded
    cases encoded
    exact ⟨body, fields, framed_of_encoded whole (same ▸ small)⟩
  · rw [failed] at encoded
    cases encoded

/-- The code of a reason and what its properties hand out. -/
def Reason.content (reason : Reason) :
    Option (ReasonCode × Option (List (Except PeerError Property))) :=
  reason.reason.map fun (code, properties) => (code, properties.map Properties.iter)

/-- The code of a DISCONNECT and what its properties hand out. -/
def Disconnect.content (disconnect : Disconnect) :
    Option ReasonCode × Option (List (Except PeerError Property)) :=
  (disconnect.reasonCode, disconnect.properties.map Properties.iter)

/-- A decoded acknowledgement that has the fields of an encoded one. -/
def Ack.Same (decoded ack : Ack) : Prop :=
  decoded.packetId = ack.packetId ∧ decoded.reason.content = ack.reason.content

/-- A decoded publication that has the fields of a header and the bytes of a payload. -/
structure Publish.Carries (info : Publish) (header : PublishHeader) (data : Bytes) : Prop where
  /-- The topic is the same. -/
  topic : info.topic = header.topic
  /-- The packet identifier is the same. -/
  packetId : info.packetId = header.packetId
  /-- The properties iterate to the same list. -/
  properties : info.properties.iter = header.properties.iter
  /-- The retain flag is the same. -/
  retain : info.retain = header.retain
  /-- The quality of service is the same. -/
  qos : info.qos = header.qos
  /-- The duplicate flag is the same. -/
  dup : info.dup = header.dup
  /-- The payload is the data. -/
  payload : info.payload = data

/-- The fields of an acknowledgement spell an acknowledgement with the same fields. -/
theorem Ack.spelled {ack : Ack} {body : Bytes} (encoded : tokenBytes ack.tokens = some body)
    (small : body.length < 2 ^ 32) : ∃ decoded : Ack, AckBody decoded body ∧ decoded.Same ack := by
  obtain ⟨packetId, ⟨reason⟩⟩ := ack
  -- The reason is missing, a code, or a code with properties.
  rcases reason with _ | ⟨code, _ | properties⟩
  · refine ⟨⟨packetId, ⟨none⟩⟩, ?_, rfl, rfl⟩
    rw [Ack.tokens, tokenBytes_push] at encoded
    exact (Option.some.inj encoded).symm
  · refine ⟨⟨packetId, ⟨some (code, none)⟩⟩, ?_, rfl, rfl⟩
    simp only [Ack.tokens, tokenBytes, Option.map_some, Option.some.injEq, List.append_nil]
      at encoded
    exact ⟨code.toByte, code.fromByte_toByte.symm, encoded.symm⟩
  · simp only [Ack.tokens, tokenBytes, Option.map_map, Option.map_eq_some_iff,
      Function.comp_apply] at encoded
    obtain ⟨block, written, rfl⟩ := encoded
    simp only [List.length_append] at small
    obtain ⟨decoded, spelled, same⟩ := Properties.spelled written (by omega)
    refine ⟨⟨packetId, ⟨some (code, some decoded)⟩⟩, ⟨code.toByte, block,
      code.fromByte_toByte.symm, spelled, rfl⟩, rfl, ?_⟩
    simp only [Reason.content, Option.map_some, same]

theorem Disconnect.Built.reasonCode {disconnect : Disconnect} (built : disconnect.Built) :
    disconnect.reasonCode = none → disconnect.properties = none := by
  cases built with
  | success => exact fun _ => rfl
  | withReason => exact fun _ => rfl
  | withWill => exact fun _ => rfl
  | withProperties => exact nofun

theorem Disconnect.spelled {disconnect : Disconnect} {body : Bytes} (built : disconnect.Built)
    (encoded : tokenBytes (ControlPacket.tokens disconnect) = some body)
    (small : body.length < 2 ^ 32) :
    ∃ decoded : Disconnect, DisconnectBody decoded body ∧ decoded.content = disconnect.content := by
  have coded := built.reasonCode
  -- A DISCONNECT without a code has no properties either.
  obtain ⟨_ | code, properties⟩ := disconnect
  · obtain rfl : properties = none := coded rfl
    exact ⟨⟨none, none⟩, (Option.some.inj encoded).symm, rfl⟩
  · rcases properties with _ | properties
    · exact ⟨⟨some code, none⟩, ⟨code.toByte, code.fromByte_toByte.symm,
        (Option.some.inj encoded).symm⟩, rfl⟩
    · simp only [ControlPacket.tokens, List.singleton_append, tokenBytes,
        Option.map_eq_some_iff] at encoded
      obtain ⟨block, written, rfl⟩ := encoded
      rw [List.length_cons] at small
      obtain ⟨decoded, spelled, same⟩ := Properties.spelled written (by omega)
      refine ⟨⟨some code, some decoded⟩, ⟨code.toByte, block, code.fromByte_toByte.symm, spelled,
        rfl⟩, ?_⟩
      simp only [Disconnect.content, Option.map_some, same]

theorem PublishHeader.spelled_byte (header : PublishHeader) (info : Publish)
    (qos : info.qos = header.qos) (retain : info.retain = header.retain)
    (dup : info.dup = header.dup) : PublishByte info (ControlPacket.fixedHeader header).byte := by
  simp only [PublishByte, qos, retain, dup, ControlPacket.fixedHeader]
  cases header.qos <;> cases header.retain <;> cases header.dup <;> rfl

/-- The fields of a publication and its payload spell a publication that carries them. -/
theorem PublishHeader.spelled {header : PublishHeader} {fields : Bytes} (data : Bytes)
    (identified : header.packetId = none ↔ header.qos = .atMostOnce)
    (encoded : tokenBytes (ControlPacket.tokens header) = some fields)
    (small : fields.length < 2 ^ 32) :
    ∃ info : Publish, info.Carries header data ∧ PublishBody info (fields ++ data) := by
  simp only [ControlPacket.tokens, tokenBytes_append, tokenBytes_utf8Tokens, counted,
    Option.bind_eq_some_iff, Option.map_eq_some_iff] at encoded
  obtain ⟨front, ⟨topic, text, packetId, id, rfl⟩, block, properties, rfl⟩ := encoded
  simp only [List.length_append] at small
  obtain ⟨decoded, spelled, same⟩ := Properties.spelled properties (by omega)
  refine ⟨⟨header.topic, header.packetId, decoded, data, header.retain, header.qos, header.dup⟩,
    ⟨rfl, rfl, same, rfl, rfl, rfl, rfl⟩, topic, packetId, block, ?_, ?_, spelled, rfl⟩
  · -- The topic was written, so its length has an encoding.
    split at text
    · exact ⟨by assumption, (Option.some.inj text).symm⟩
    · cases text
  · -- The identifier is there exactly for the levels above zero.
    unfold PublishId
    cases known : header.packetId with
    | none =>
      rw [known] at id
      exact ⟨identified.mp known, (Option.some.inj id).symm⟩
    | some value =>
      rw [known, tokenBytes_push] at id
      refine ⟨fun none => ?_, (Option.some.inj id).symm⟩
      rw [identified.mpr none] at known
      cases known

/-- An acknowledgement of any of the four kinds is decoded into one with the same fields. -/
theorem Ack.round_trip [ControlPacket α] (toAck : α → Ack) (wrap : Ack → ReceivedPacket)
    {byte : UInt8} {packet : α}
    (fields : ∀ packet, ControlPacket.tokens packet = (toAck packet).tokens)
    (first : ∀ packet : α, (ControlPacket.fixedHeader packet).byte = byte)
    (body : ∀ ack body, (wrap ack).Spelled byte body ↔ AckBody ack body)
    (small : buf.length < 2 ^ 32) (encoded : encode buf packet = .ok bytes) :
    ∃ decoded, ReceivedPacket.fromBuffer bytes = .ok (wrap decoded) ∧
      decoded.Same (toAck packet) := by
  obtain ⟨content, written, framed, short⟩ := framed_of_encode_ok encoded small
  rw [fields] at written
  rw [first] at framed
  obtain ⟨decoded, spelled, same⟩ := Ack.spelled written short
  have spells := (body decoded content).mpr spelled
  exact ⟨decoded, (ReceivedPacket.fromBuffer_spelled framed _).mpr spells, same⟩

/-- A publication is decoded into one that carries its header and what its payload wrote. -/
theorem PublishHeader.round_trip {header : PublishHeader} {payload : Payload π} {offset : Nat}
    (small : buf.length < 2 ^ 32)
    (identified : header.packetId.isSome ↔ header.qos ≠ .atMostOnce)
    (encoded : (encodePublishWithOffset buf header payload).1 = .ok (offset, bytes)) :
    ∃ info data, ReceivedPacket.fromBuffer bytes = .ok (.publish info) ∧
      info.Carries header data ∧
      ∃ fields, tokenBytes (ControlPacket.tokens header) = some fields ∧
        payload.Fills (buf.drop (maxFixedHeaderSize + fields.length)) data := by
  rcases encodePublishWithOffset_cases buf header payload with
    ⟨body, offset, packet, after, done, same, whole, fields, data, written, fills, rfl⟩ |
    ⟨error, after, failed, -⟩
  · rw [done] at encoded
    cases encoded
    obtain ⟨framed, short⟩ := framed_of_encoded whole (same ▸ small)
    rw [List.length_append] at short
    -- The header is built with an identifier for exactly the levels above zero.
    have absent : header.packetId = none ↔ header.qos = .atMostOnce := by
      rw [← Option.not_isSome_iff_eq_none, identified, not_not]
    obtain ⟨info, carries, spelled⟩ := PublishHeader.spelled data absent written (by omega)
    have byte := header.spelled_byte info carries.qos carries.retain carries.dup
    exact ⟨info, data, (ReceivedPacket.fromBuffer_spelled framed _).mpr ⟨byte, spelled⟩, carries,
      fields, written, fills⟩
  · rw [failed] at encoded
    cases encoded

theorem Payload.fills_ofBytes {data space other : Bytes}
    (fills : (Payload.ofBytes data).Fills space other) : other = data := by
  obtain ⟨len, written, wrote, -, rfl⟩ := fills
  simp only [Payload.ofBytes] at wrote
  split at wrote
  · cases wrote
  · cases wrote
    rw [List.take_left]

/-- Decoding undoes encoding for every packet that is both sent and received. -/
theorem decode_encode :
    (∀ {π : Type} (buf bytes : Bytes) (header : PublishHeader) (payload : Payload π) (offset : Nat),
      buf.length < 2 ^ 32 → (header.packetId.isSome ↔ header.qos ≠ .atMostOnce) →
      (encodePublishWithOffset buf header payload).1 = .ok (offset, bytes) →
      ∃ info data, ReceivedPacket.fromBuffer bytes = .ok (.publish info) ∧
        info.Carries header data ∧
        ∃ fields, tokenBytes (ControlPacket.tokens header) = some fields ∧
          payload.Fills (buf.drop (maxFixedHeaderSize + fields.length)) data) ∧
    (∀ (buf bytes : Bytes) (header : PublishHeader) (data : Bytes) (offset : Nat),
      buf.length < 2 ^ 32 → (header.packetId.isSome ↔ header.qos ≠ .atMostOnce) →
      (encodePublishWithOffset buf header (.ofBytes data)).1 = .ok (offset, bytes) →
      ∃ info, ReceivedPacket.fromBuffer bytes = .ok (.publish info) ∧ info.Carries header data) ∧
    (∀ (buf bytes : Bytes) (ack : PubAck), buf.length < 2 ^ 32 → encode buf ack = .ok bytes →
      ∃ decoded : PubAck, ReceivedPacket.fromBuffer bytes = .ok (.pubAck decoded) ∧
        decoded.toAck.Same ack.toAck) ∧
    (∀ (buf bytes : Bytes) (rec : PubRec), buf.length < 2 ^ 32 → encode buf rec = .ok bytes →
      ∃ decoded : PubRec, ReceivedPacket.fromBuffer bytes = .ok (.pubRec decoded) ∧
        decoded.toAck.Same rec.toAck) ∧
    (∀ (buf bytes : Bytes) (rel : PubRel), buf.length < 2 ^ 32 → encode buf rel = .ok bytes →
      ∃ decoded : PubRel, ReceivedPacket.fromBuffer bytes = .ok (.pubRel decoded) ∧
        decoded.toAck.Same rel.toAck) ∧
    (∀ (buf bytes : Bytes) (comp : PubComp), buf.length < 2 ^ 32 → encode buf comp = .ok bytes →
      ∃ decoded : PubComp, ReceivedPacket.fromBuffer bytes = .ok (.pubComp decoded) ∧
        decoded.toAck.Same comp.toAck) ∧
    (∀ (buf bytes : Bytes) (disconnect : Disconnect), buf.length < 2 ^ 32 → disconnect.Built →
      encode buf disconnect = .ok bytes →
      ∃ decoded : Disconnect, ReceivedPacket.fromBuffer bytes = .ok (.disconnect decoded) ∧
        decoded.content = disconnect.content) := by
  refine ⟨fun buf bytes header payload offset small identified encoded =>
    header.round_trip small identified encoded, ?_, ?_, ?_, ?_, ?_, ?_⟩
  · intro buf bytes header data offset small identified encoded
    obtain ⟨info, other, decoded, carries, fields, -, fills⟩ :=
      header.round_trip small identified encoded
    rw [Payload.fills_ofBytes fills] at carries
    exact ⟨info, decoded, carries⟩
  · -- The acknowledgements differ in their first byte only.
    intro buf bytes ack small encoded
    obtain ⟨decoded, read, same⟩ := Ack.round_trip PubAck.toAck (fun ack => .pubAck ⟨ack⟩)
      (fun _ => rfl) (fun _ => rfl) (fun _ _ => and_iff_right rfl) small encoded
    exact ⟨⟨decoded⟩, read, same⟩
  · intro buf bytes rec small encoded
    obtain ⟨decoded, read, same⟩ := Ack.round_trip PubRec.toAck (fun ack => .pubRec ⟨ack⟩)
      (fun _ => rfl) (fun _ => rfl) (fun _ _ => and_iff_right rfl) small encoded
    exact ⟨⟨decoded⟩, read, same⟩
  · intro buf bytes rel small encoded
    obtain ⟨decoded, read, same⟩ := Ack.round_trip PubRel.toAck (fun ack => .pubRel ⟨ack⟩)
      (fun _ => rfl) (fun _ => rfl) (fun _ _ => and_iff_right rfl) small encoded
    exact ⟨⟨decoded⟩, read, same⟩
  · intro buf bytes comp small encoded
    obtain ⟨decoded, read, same⟩ := Ack.round_trip PubComp.toAck (fun ack => .pubComp ⟨ack⟩)
      (fun _ => rfl) (fun _ => rfl) (fun _ _ => and_iff_right rfl) small encoded
    exact ⟨⟨decoded⟩, read, same⟩
  · intro buf bytes disconnect small built encoded
    obtain ⟨content, written, framed, short⟩ := framed_of_encode_ok encoded small
    obtain ⟨decoded, spelled, same⟩ := Disconnect.spelled built written short
    have spells : (ReceivedPacket.disconnect decoded).Spelled _ content := ⟨rfl, spelled⟩
    exact ⟨decoded, (ReceivedPacket.fromBuffer_spelled framed _).mpr spells, same⟩

end Minimq

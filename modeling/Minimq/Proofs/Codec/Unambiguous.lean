import Minimq.Proofs.Codec.Footprint

/-! The packets a client sends: equal encodings are encodings of equal packets. -/

namespace Minimq

open Grammar

variable {front back rest rest' : Bytes} {packet : ClientPacket}

namespace Deserializer

theorem exists_start (input : Bytes) :
    ∃ deserializer : Deserializer, True ∧ deserializer.remainder = input :=
  ⟨⟨input, 0, none⟩, trivial, List.drop_zero⟩

theorem text_unambiguous : Unambiguous (code fun text => tokenBytes (utf8Tokens text)) :=
  (str_accepts (P := Anyhow)).unambiguous exists_start

theorem short_unambiguous : Unambiguous (code fun value => some (u16Bytes value)) :=
  (readU16_accepts (P := Anyhow)).unambiguous exists_start

theorem binary_unambiguous : Unambiguous (code counted) :=
  (counted_accepts (P := Anyhow)).unambiguous exists_start

theorem block_unambiguous : Unambiguous (spelled PropertyBlock) :=
  properties_accepts.unambiguous exists_start

end Deserializer

theorem Framed.inj {bytes body body' : Bytes} {byte byte' : UInt8} (framed : Framed bytes byte body)
    (again : Framed bytes byte' body') : byte = byte' ∧ body = body' := by
  obtain ⟨len, written, rfl⟩ := framed
  obtain ⟨len', written', same⟩ := again
  obtain ⟨rfl, tail⟩ := List.cons.inj same
  exact ⟨rfl, (ReceivedPacket.varint_append_inj written written' tail).2⟩

/-- The fields of a property block can be cancelled, and hand out the same properties. -/
theorem Properties.cancel {first second : Properties}
    (one : tokenBytes first.tokens = some front) (other : tokenBytes second.tokens = some back)
    (small : front.length < 2 ^ 32) (small' : back.length < 2 ^ 32)
    (same : front ++ rest = back ++ rest') : first.iter = second.iter ∧ rest = rest' := by
  obtain ⟨decoded, block, items⟩ := Properties.spelled one small
  obtain ⟨decoded', block', items'⟩ := Properties.spelled other small'
  obtain ⟨rfl, tail⟩ := Deserializer.block_unambiguous ⟨front, block, rfl⟩ ⟨back, block', same⟩
  exact ⟨items.symm.trans items', tail⟩

/-- The members of a list can be told apart by their fields, one after the other. -/
theorem flatMap_inj {β : Type} {fields : β → List Token} {list other : List β} {bytes : Bytes}
    (unique : Unambiguous (code fun member => tokenBytes (fields member)))
    (nonempty : ∀ member, tokenBytes (fields member) ≠ some [])
    (one : tokenBytes (list.flatMap fields) = some bytes)
    (same : tokenBytes (other.flatMap fields) = some bytes) : list = other := by
  -- A list that goes on has bytes where the other one has ended.
  induction list generalizing other bytes with
  | nil =>
    cases one
    cases other with
    | nil => rfl
    | cons first rest =>
      rw [List.flatMap_cons, tokenBytes_append] at same
      simp only [Option.bind_eq_some_iff, Option.map_eq_some_iff, List.append_eq_nil_iff] at same
      obtain ⟨front, own, tail, -, rfl, -⟩ := same
      exact absurd own (nonempty first)
  | cons first rest ih =>
    rw [List.flatMap_cons, tokenBytes_append] at one
    simp only [Option.bind_eq_some_iff, Option.map_eq_some_iff] at one
    obtain ⟨front, own, tail, others, rfl⟩ := one
    cases other with
    | nil =>
      obtain ⟨rfl, -⟩ := List.append_eq_nil_iff.mp (Option.some.inj same).symm
      exact absurd own (nonempty first)
    | cons second behind =>
      rw [List.flatMap_cons, tokenBytes_append] at same
      simp only [Option.bind_eq_some_iff, Option.map_eq_some_iff] at same
      obtain ⟨front', own', tail', others', split⟩ := same
      obtain ⟨rfl, rfl⟩ := unique.cancel own own' split.symm
      rw [ih others others']

theorem QoS.toByte_injective {first second : QoS} (same : first.toByte = second.toByte) :
    first = second := by
  revert same
  cases first <;> cases second <;> decide

theorem RetainHandling.toByte_injective {first second : RetainHandling}
    (same : first.toByte = second.toByte) : first = second := by
  revert same
  cases first <;> cases second <;> decide

/-- The options of a subscription are spread over the bits of one byte. -/
theorem SubscriptionOptions.toByte_injective {first second : SubscriptionOptions}
    (same : first.toByte = second.toByte) : first = second := by
  have bits (options : SubscriptionOptions) :
      options.maximumQos.toByte = options.toByte &&& 3 ∧
      options.noLocal = (options.toByte &&& 4 != 0) ∧
      options.retainAsPublished = (options.toByte &&& 8 != 0) ∧
      options.retainBehavior.toByte = options.toByte >>> 4 := by
    -- Each field has bits of its own, so all combinations are tried.
    obtain ⟨qos, noLocal, retain, handling⟩ := options
    cases qos <;> cases noLocal <;> cases retain <;> cases handling <;> decide
  obtain ⟨qos, noLocal, retain, handling⟩ := bits first
  obtain ⟨qos', noLocal', retain', handling'⟩ := bits second
  rw [same] at qos noLocal retain handling
  have level := QoS.toByte_injective (qos.trans qos'.symm)
  have replay := RetainHandling.toByte_injective (handling.trans handling'.symm)
  have own := noLocal.trans noLocal'.symm
  have kept := retain.trans retain'.symm
  cases first
  cases second
  dsimp only at level own kept replay
  rw [level, own, kept, replay]

/-- A filter and its options are found in one way. -/
theorem filter_unambiguous : Unambiguous (code fun filter : TopicFilter =>
    tokenBytes (utf8Tokens filter.topic ++ [.push [filter.options.toByte]])) := by
  rintro input first second rest rest' ⟨front, one, rfl⟩ ⟨back, other, same⟩
  simp only [tokenBytes_append, tokenBytes_push, Option.bind_eq_some_iff, Option.map_some,
    Option.some.injEq] at one other
  obtain ⟨text, own, rfl⟩ := one
  obtain ⟨text', own', rfl⟩ := other
  rw [List.append_assoc, List.append_assoc] at same
  -- The topic ends where its length says, and one byte follows.
  obtain ⟨topic, tail⟩ := Deserializer.text_unambiguous.cancel own own' same
  obtain ⟨options, rfl⟩ := List.cons.inj tail
  refine ⟨?_, rfl⟩
  have same := SubscriptionOptions.toByte_injective options
  cases first
  cases second
  dsimp only at topic same
  rw [topic, same]

/-- The flags of a connection request tell what follows: the Will with its level, and credentials. -/
theorem Connect.flags_eq (connect : Connect) :
    connect.cleanStart = (connect.flags &&& 0b10 != 0) ∧
    connect.will.isSome = (connect.flags &&& 0b100 != 0) ∧
    (∀ will, connect.will = some will → will.qos.toByte = (connect.flags >>> 3) &&& 3 ∧
      will.retained = if connect.flags &&& 0b100000 = 0 then .notRetained else .retained) ∧
    connect.auth.isSome = (connect.flags &&& 0b1000000 != 0) := by
  unfold flags
  generalize connect.auth.isSome = auth
  generalize connect.cleanStart = clean
  -- Every combination of the flags is tried.
  cases connect.will with
  | none =>
    refine ⟨?_, ?_, nofun, ?_⟩ <;> cases clean <;> cases auth <;> rfl
  | some will =>
    simp only [Option.isSome_some, Option.some.injEq, forall_eq']
    generalize will.qos = qos, will.retained = kept
    cases clean <;> cases auth <;> cases qos <;> cases kept <;> decide

/-- The fields of a Will can be cancelled, if its level and its retain flag are known. -/
theorem Will.cancel {first second : Will}
    (one : tokenBytes first.tokens = some front) (other : tokenBytes second.tokens = some back)
    (small : front.length < 2 ^ 32) (small' : back.length < 2 ^ 32) (qos : first.qos = second.qos)
    (kept : first.retained = second.retained) (same : front ++ rest = back ++ rest') :
    first = second ∧ rest = rest' := by
  simp only [tokens, tokenBytes_append, Option.bind_eq_some_iff, Option.map_eq_some_iff,
    tokenBytes_binaryTokens] at one other
  obtain ⟨_, ⟨block, properties, text, topic, rfl⟩, binary, data, rfl⟩ := one
  obtain ⟨_, ⟨block', properties', text', topic', rfl⟩, binary', data', rfl⟩ := other
  simp only [List.length_append] at small small'
  simp only [List.append_assoc] at same
  -- The fields are cancelled one by one, from the front.
  obtain ⟨items, same⟩ := Properties.cancel properties properties' (by omega) (by omega) same
  obtain ⟨topics, same⟩ := Deserializer.text_unambiguous.cancel topic topic' same
  obtain ⟨bytes, tail⟩ := Deserializer.binary_unambiguous.cancel data data' same
  have list : first.properties = second.properties :=
    List.map_injective_iff.mpr (fun _ _ => Except.ok.inj) items
  cases first
  cases second
  dsimp only at qos kept topics bytes list
  subst qos kept topics bytes list
  exact ⟨rfl, tail⟩

/-- The fields of credentials can be cancelled. -/
theorem Auth.cancel {first second : Auth}
    (one : tokenBytes (utf8Tokens first.userName ++ binaryTokens first.password) = some front)
    (other : tokenBytes (utf8Tokens second.userName ++ binaryTokens second.password) = some back)
    (same : front ++ rest = back ++ rest') : first = second ∧ rest = rest' := by
  simp only [tokenBytes_append, Option.bind_eq_some_iff, Option.map_eq_some_iff,
    tokenBytes_binaryTokens] at one other
  obtain ⟨text, user, binary, password, rfl⟩ := one
  obtain ⟨text', user', binary', password', rfl⟩ := other
  simp only [List.append_assoc] at same
  -- The fields are cancelled one by one, from the front.
  obtain ⟨names, same⟩ := Deserializer.text_unambiguous.cancel user user' same
  obtain ⟨secrets, tail⟩ := Deserializer.binary_unambiguous.cancel password password' same
  cases first
  cases second
  dsimp only at names secrets
  subst names secrets
  exact ⟨rfl, tail⟩

namespace Connect

/-- The fields of an optional Will. -/
def willTokens (connect : Connect) : List Token :=
  match connect.will with
  | some will => will.tokens
  | none => []

/-- The fields of optional credentials. -/
def authTokens (connect : Connect) : List Token :=
  match connect.auth with
  | some auth => utf8Tokens auth.userName ++ binaryTokens auth.password
  | none => []

/-- The body of a connection request is put together from its fields. -/
theorem body_eq {connect : Connect} {body : Bytes}
    (encoded : tokenBytes (ControlPacket.tokens connect) = some body) :
    ∃ block clientId will auth, tokenBytes connect.properties.tokens = some block ∧
      tokenBytes (utf8Tokens connect.clientId) = some clientId ∧
      tokenBytes connect.willTokens = some will ∧ tokenBytes connect.authTokens = some auth ∧
      body = [0, 4, 0x4D, 0x51, 0x54, 0x54, 5, connect.flags] ++ (u16Bytes connect.keepalive ++
        (block ++ (clientId ++ (will ++ auth)))) := by
  -- The protocol name and the version are the same in every request.
  have protocol : tokenBytes (utf8Tokens protocolName) = some [0, 4, 0x4D, 0x51, 0x54, 0x54] := by
    decide
  simp only [ControlPacket.tokens, tokenBytes_append, Option.bind_eq_some_iff,
    Option.map_eq_some_iff, protocol, Option.some.injEq] at encoded
  obtain ⟨_, ⟨_, ⟨_, ⟨_, ⟨_, rfl, fixed, pushed, rfl⟩, block, properties, rfl⟩, clientId, text, rfl⟩,
    will, last, rfl⟩, auth, credentials, rfl⟩ := encoded
  refine ⟨block, clientId, will, auth, properties, text, last, credentials, ?_⟩
  simp only [tokenBytes, Option.map_some, Option.some.injEq] at pushed
  subst pushed
  simp only [List.append_assoc, List.cons_append, List.nil_append]

/-- Connection requests with the same body are the same. -/
theorem eq_of_body {first second : Connect} {body : Bytes} (small : body.length < 2 ^ 32)
    (one : tokenBytes (ControlPacket.tokens first) = some body)
    (other : tokenBytes (ControlPacket.tokens second) = some body) :
    first.keepalive = second.keepalive ∧ first.properties.iter = second.properties.iter ∧
      first.clientId = second.clientId ∧ first.auth = second.auth ∧ first.will = second.will ∧
      first.cleanStart = second.cleanStart := by
  obtain ⟨block, text, will, auth, properties, clientId, last, credentials, rfl⟩ := body_eq one
  obtain ⟨block', text', will', auth', properties', clientId', last', credentials', same⟩ :=
    body_eq other
  have sizes := congrArg List.length same
  simp only [List.length_append] at small sizes
  -- The fields in front have fixed sizes; what follows depends on the flags among them.
  obtain ⟨front, same⟩ := List.append_inj same rfl
  have flags : first.flags = second.flags := by simpa using front
  obtain ⟨keepalive, same⟩ := Deserializer.short_unambiguous.cancel rfl rfl same
  obtain ⟨items, same⟩ := Properties.cancel properties properties' (by omega) (by omega) same
  obtain ⟨client, same⟩ := Deserializer.text_unambiguous.cancel clientId clientId' same
  obtain ⟨clean, present, level, known⟩ := first.flags_eq
  obtain ⟨clean', present', level', known'⟩ := second.flags_eq
  rw [flags] at clean present level known
  have wills : first.will = second.will ∧ auth = auth' := by
    have both := present.trans present'.symm
    unfold willTokens at last last'
    cases here : first.will with
    | none =>
      cases there : second.will with
      | none =>
        rw [here] at last
        rw [there] at last'
        cases last
        cases last'
        exact ⟨rfl, same⟩
      | some => simp [here, there] at both
    | some message =>
      cases there : second.will with
      | none => simp [here, there] at both
      | some message' =>
        rw [here] at last
        rw [there] at last'
        obtain ⟨qos, kept⟩ := level message here
        obtain ⟨qos', kept'⟩ := level' message' there
        obtain ⟨equal, tail⟩ := Will.cancel last last' (by omega) (by omega)
          (QoS.toByte_injective (qos.trans qos'.symm)) (kept.trans kept'.symm) same
        exact ⟨congrArg some equal, tail⟩
  have auths : first.auth = second.auth := by
    have both := known.trans known'.symm
    obtain rfl := wills.2
    unfold authTokens at credentials credentials'
    cases here : first.auth with
    | none =>
      cases there : second.auth with
      | none => rfl
      | some => simp [here, there] at both
    | some secret =>
      cases there : second.auth with
      | none => simp [here, there] at both
      | some secret' =>
        rw [here] at credentials
        rw [there] at credentials'
        have whole : auth ++ [] = auth ++ [] := rfl
        exact congrArg some (Auth.cancel credentials credentials' whole).1
  exact ⟨keepalive, items, client, auths, wills.1, clean.trans clean'.symm⟩

end Connect

/-- Requests with an identifier, properties and a list are the same if their bodies are. -/
theorem request_eq_of_body {β : Type} {fields : β → List Token} {packetId packetId' : UInt16}
    {properties properties' : Properties} {list other : List β} {body : Bytes}
    (unique : Unambiguous (code fun member => tokenBytes (fields member)))
    (nonempty : ∀ member, tokenBytes (fields member) ≠ some []) (small : body.length < 2 ^ 32)
    (one : tokenBytes ([.push (u16Bytes packetId)] ++ properties.tokens ++ list.flatMap fields) =
      some body)
    (same : tokenBytes ([.push (u16Bytes packetId')] ++ properties'.tokens ++
      other.flatMap fields) = some body) :
    packetId = packetId' ∧ properties.iter = properties'.iter ∧ list = other := by
  simp only [tokenBytes_append, tokenBytes_push, Option.bind_eq_some_iff, Option.map_eq_some_iff,
    Option.some.injEq] at one same
  obtain ⟨_, ⟨_, rfl, block, own, rfl⟩, tail, members, rfl⟩ := one
  obtain ⟨_, ⟨_, rfl, block', own', rfl⟩, tail', members', equal⟩ := same
  have sizes := congrArg List.length equal
  simp only [List.length_append] at small sizes
  simp only [List.append_assoc] at equal
  -- The fields are cancelled one by one, from the front.
  obtain ⟨ids, equal⟩ := Deserializer.short_unambiguous.cancel rfl rfl equal
  obtain ⟨items, rfl⟩ := Properties.cancel own' own (by omega) (by omega) equal
  exact ⟨ids.symm, items.symm, flatMap_inj unique nonempty members members'⟩

theorem tokenBytes_utf8Tokens_ne_nil (text : Utf8) : tokenBytes (utf8Tokens text) ≠ some [] := by
  rw [tokenBytes_utf8Tokens, counted]
  split <;> simp [u16Bytes]

theorem tokenBytes_filter_ne_nil (filter : TopicFilter) :
    tokenBytes (utf8Tokens filter.topic ++ [.push [filter.options.toByte]]) ≠ some [] := by
  rw [tokenBytes_append, tokenBytes_push]
  cases tokenBytes (utf8Tokens filter.topic) <;> simp

/-- A packet that a client sends to open a connection or on behalf of an application. -/
inductive ClientPacket where
  | connect (packet : Connect)
  | subscribe (packet : Subscribe)
  | unsubscribe (packet : Unsubscribe)
  | publish (header : PublishHeader) (payload : Bytes)

namespace ClientPacket

/-- Encode a packet; the result is the packet and its offset in the buffer. -/
def encode (buf : Bytes) : ClientPacket → Option (Nat × Bytes)
  | .connect packet => (encodeWithOffset buf packet).1.toOption
  | .subscribe packet => (encodeWithOffset buf packet).1.toOption
  | .unsubscribe packet => (encodeWithOffset buf packet).1.toOption
  | .publish header payload => (encodePublishWithOffset buf header (.ofBytes payload)).1.toOption

/-- The type of a packet. -/
def kind : ClientPacket → MessageType
  | .connect _ => .connect
  | .subscribe _ => .subscribe
  | .unsubscribe _ => .unsubscribe
  | .publish _ _ => .publish

/-- The first byte of a packet. -/
def fixedHeader : ClientPacket → FixedHeader
  | .connect packet => ControlPacket.fixedHeader packet
  | .subscribe packet => ControlPacket.fixedHeader packet
  | .unsubscribe packet => ControlPacket.fixedHeader packet
  | .publish header _ => ControlPacket.fixedHeader header

/-- The fields of a packet and the bytes behind them. -/
def body : ClientPacket → Option Bytes
  | .connect packet => tokenBytes (ControlPacket.tokens packet)
  | .subscribe packet => tokenBytes (ControlPacket.tokens packet)
  | .unsubscribe packet => tokenBytes (ControlPacket.tokens packet)
  | .publish header payload => (tokenBytes (ControlPacket.tokens header)).map (· ++ payload)

/-- The number of bytes behind the remaining length. -/
def bodyLength : ClientPacket → Nat
  | .connect packet =>
    10 + packet.properties.blockLength + (2 + packet.clientId.len) +
      (packet.will.elim 0 fun will => (Properties.slice will.properties).blockLength +
        (2 + will.topic.len) + (2 + will.data.length)) +
      packet.auth.elim 0 fun auth => (2 + auth.userName.len) + (2 + auth.password.length)
  | .subscribe packet =>
    2 + packet.properties.blockLength +
      (packet.topics.map fun filter => 2 + filter.topic.len + 1).sum
  | .unsubscribe packet =>
    2 + packet.properties.blockLength +
      (packet.topics.map fun topic => 2 + topic.len).sum
  | .publish header payload => header.fieldsLength + payload.length

/-- A packet within the limits of the protocol: short text and data, properties with an encoding,
at least one topic to subscribe to, and an identifier exactly for acknowledged publications. -/
def Admissible : ClientPacket → Prop
  | .connect packet => packet.properties.Encodable ∧ packet.clientId.len ≤ 65535 ∧
    (∀ will, packet.will = some will →
      (Properties.slice will.properties).Encodable ∧ will.data.length ≤ 65535) ∧
    ∀ auth, packet.auth = some auth → auth.userName.len ≤ 65535 ∧ auth.password.length ≤ 65535
  | .subscribe packet => packet.properties.Encodable ∧ packet.topics ≠ [] ∧
    ∀ filter ∈ packet.topics, filter.topic.len ≤ 65535
  | .unsubscribe packet => packet.properties.Encodable ∧ packet.topics ≠ [] ∧
    ∀ topic ∈ packet.topics, topic.len ≤ 65535
  | .publish header _ => header.topic.len ≤ 65535 ∧ header.properties.Encodable ∧
    (header.packetId.isSome ↔ header.qos ≠ .atMostOnce)

/-- Packets that agree in everything they carry; properties are compared as lists. -/
def Same : ClientPacket → ClientPacket → Prop
  | .connect first, .connect second => first.keepalive = second.keepalive ∧
    first.properties.iter = second.properties.iter ∧ first.clientId = second.clientId ∧
    first.auth = second.auth ∧ first.will = second.will ∧ first.cleanStart = second.cleanStart
  | .subscribe first, .subscribe second => first.packetId = second.packetId ∧
    first.properties.iter = second.properties.iter ∧ first.topics = second.topics
  | .unsubscribe first, .unsubscribe second => first.packetId = second.packetId ∧
    first.properties.iter = second.properties.iter ∧ first.topics = second.topics
  | .publish first data, .publish second data' => first.topic = second.topic ∧
    first.packetId = second.packetId ∧ first.properties.iter = second.properties.iter ∧
    first.retain = second.retain ∧ first.qos = second.qos ∧ first.dup = second.dup ∧ data = data'
  | _, _ => False

theorem toOption_eq_some {α ε : Type} {result : Except ε α} {value : α} :
    result.toOption = some value ↔ result = .ok value := by
  cases result <;> simp [Except.toOption]

/-- A packet is encoded exactly as its framed body. -/
theorem encode_eq_some_iff {buf bytes : Bytes} {offset : Nat} :
    packet.encode buf = some (offset, bytes) ↔
      ∃ content, packet.body = some content ∧
        Occupies buf.length packet.fixedHeader content offset bytes := by
  -- A publication has its payload behind the fields.
  cases packet with
  | publish header payload =>
    rw [encode, toOption_eq_some, encodePublishWithOffset_eq_ok_iff]
    simp only [body, Option.map_eq_some_iff]
    constructor
    · intro ⟨fields, written, occupies⟩
      exact ⟨_, ⟨fields, written, rfl⟩, occupies⟩
    · intro ⟨_, ⟨fields, written, same⟩, occupies⟩
      exact ⟨fields, written, same ▸ occupies⟩
  | _ packet => rw [encode, toOption_eq_some, encodeWithOffset_eq_ok_iff]; rfl

theorem framed_of_encode {buf bytes : Bytes} {offset : Nat}
    (small : buf.length < 2 ^ 32) (encoded : packet.encode buf = some (offset, bytes)) :
    ∃ content, packet.body = some content ∧ content.length < 2 ^ 32 ∧
      offset + bytes.length = maxFixedHeaderSize + content.length ∧
      Framed bytes packet.fixedHeader.byte content := by
  obtain ⟨content, written, occupies⟩ := encode_eq_some_iff.mp encoded
  have fits := occupies.fits
  have limit : content.length < 2 ^ 32 := by omega
  exact ⟨content, written, limit, occupies.ends, (frame_eq_some_iff limit).mp occupies.framed⟩

/-- The body of an admissible packet has the computed length, as far as a packet can hold it. -/
theorem length_body (admissible : packet.Admissible) :
    (∀ content, packet.body = some content → content.length < 2 ^ 32 →
      content.length = packet.bodyLength) ∧
    (packet.bodyLength ≤ mqttVarintMax → ∃ content, packet.body = some content ∧
      content.length = packet.bodyLength) := by
  have of_takes {tokens : List Token} {count : Nat} (takes : Takes tokens count) :
      (∀ content, tokenBytes tokens = some content → content.length < 2 ^ 32 →
        content.length = count) ∧
      (count ≤ mqttVarintMax → ∃ content, tokenBytes tokens = some content ∧
        content.length = count) :=
    ⟨takes.length, takes.written⟩
  -- Each packet takes what its fields take together.
  cases packet with
  | connect packet =>
    obtain ⟨properties, clientId, wills, auths⟩ := admissible
    have fixed : Takes (utf8Tokens protocolName ++ [.push [5], .push [packet.flags],
        .push (u16Bytes packet.keepalive)]) 10 := .of_tokensLength rfl
    refine of_takes ((((fixed.append (Properties.takes properties)).append
      (Takes.text clientId)).append ?_).append ?_)
    · cases known : packet.will with
      | none => exact .of_tokensLength rfl
      | some will =>
        obtain ⟨encodable, data⟩ := wills will known
        have topic : will.topic.len ≤ 65535 := Nat.le_trans will.topicFits (by decide)
        exact ((Properties.takes encodable).append (Takes.text topic)).append (Takes.binary data)
    · cases known : packet.auth with
      | none => exact .of_tokensLength rfl
      | some auth =>
        obtain ⟨user, password⟩ := auths auth known
        exact (Takes.text user).append (Takes.binary password)
  | subscribe packet =>
    obtain ⟨properties, -, topics⟩ := admissible
    exact of_takes (((Takes.push (u16Bytes packet.packetId)).append
      (Properties.takes properties)).append (Takes.flatMap fun filter member =>
        (Takes.text (topics filter member)).append (Takes.push [filter.options.toByte])))
  | unsubscribe packet =>
    obtain ⟨properties, -, topics⟩ := admissible
    exact of_takes (((Takes.push (u16Bytes packet.packetId)).append
      (Properties.takes properties)).append (Takes.flatMap fun topic member =>
        Takes.text (topics topic member)))
  | publish header payload =>
    obtain ⟨topic, properties, -⟩ := admissible
    have takes := PublishHeader.takes topic properties
    constructor
    · intro content written small
      obtain ⟨fields, own, rfl⟩ := Option.map_eq_some_iff.mp written
      rw [List.length_append] at small ⊢
      rw [takes.length fields own (by omega)]
      rfl
    · intro small
      obtain ⟨fields, own, size⟩ := takes.written (Nat.le_trans (Nat.le_add_right _ _) small)
      exact ⟨fields ++ payload, by rw [body, own]; rfl, by rw [List.length_append, size]; rfl⟩

/-- The kind of a packet is in its first byte. -/
theorem messageType_fixedHeader (packet : ClientPacket) :
    packet.fixedHeader.messageType = some packet.kind := by
  cases packet with
  | publish header payload =>
    simp only [fixedHeader, ControlPacket.fixedHeader, kind]
    generalize header.qos = qos, header.retain = retain, header.dup = dup
    cases qos <;> cases retain <;> cases dup <;> decide
  | _ =>
    simp only [fixedHeader, ControlPacket.fixedHeader, kind]
    decide

/-- Publications with the same bytes carry the same. -/
theorem publish_same {first second : PublishHeader} {data data' buf buf' bytes : Bytes}
    {offset offset' : Nat} (small : buf.length < 2 ^ 32) (small' : buf'.length < 2 ^ 32)
    (identified : first.packetId.isSome ↔ first.qos ≠ .atMostOnce)
    (identified' : second.packetId.isSome ↔ second.qos ≠ .atMostOnce)
    (one : (encodePublishWithOffset buf first (.ofBytes data)).1 = .ok (offset, bytes))
    (other : (encodePublishWithOffset buf' second (.ofBytes data')).1 = .ok (offset', bytes)) :
    Same (.publish first data) (.publish second data') := by
  -- The decoder makes one publication of the bytes, which carries both.
  obtain ⟨info, written, read, carries, fields, -, fills⟩ := first.round_trip small identified one
  obtain ⟨info', written', read', carries', fields', -, fills'⟩ :=
    second.round_trip small' identified' other
  rw [read, Except.ok.injEq, ReceivedPacket.publish.injEq] at read'
  subst read'
  have payload := Payload.fills_ofBytes fills
  have payload' := Payload.fills_ofBytes fills'
  subst payload payload'
  exact ⟨carries.topic.symm.trans carries'.topic, carries.packetId.symm.trans carries'.packetId,
    carries.properties.symm.trans carries'.properties, carries.retain.symm.trans carries'.retain,
    carries.qos.symm.trans carries'.qos, carries.dup.symm.trans carries'.dup,
    carries.payload.symm.trans carries'.payload⟩

/-- Admissible packets with the same bytes are the same. -/
theorem same_of_encode {first second : ClientPacket} {buf buf' bytes : Bytes}
    {offset offset' : Nat} (admissible : first.Admissible) (admissible' : second.Admissible)
    (small : buf.length < 2 ^ 32) (small' : buf'.length < 2 ^ 32)
    (one : first.encode buf = some (offset, bytes))
    (other : second.encode buf' = some (offset', bytes)) : first.Same second := by
  obtain ⟨content, written, limit, -, framed⟩ := framed_of_encode small one
  obtain ⟨content', written', -, -, framed'⟩ := framed_of_encode small' other
  obtain ⟨byte, rfl⟩ := framed.inj framed'
  have kinds : first.fixedHeader.messageType = second.fixedHeader.messageType := by
    unfold FixedHeader.messageType
    rw [byte]
  rw [messageType_fixedHeader, messageType_fixedHeader, Option.some.injEq] at kinds
  -- The kinds agree, so only the four pairs of one kind are left.
  cases first with
  | connect packet =>
    cases second with
    | connect packet' => exact Connect.eq_of_body limit written written'
    | _ => cases kinds
  | subscribe packet =>
    cases second with
    | subscribe packet' =>
      exact request_eq_of_body filter_unambiguous tokenBytes_filter_ne_nil limit written written'
    | _ => cases kinds
  | unsubscribe packet =>
    cases second with
    | unsubscribe packet' =>
      exact request_eq_of_body Deserializer.text_unambiguous tokenBytes_utf8Tokens_ne_nil limit
        written written'
    | _ => cases kinds
  | publish header payload =>
    cases second with
    | publish header' payload' =>
      exact publish_same small small' admissible.2.2 admissible'.2.2 (toOption_eq_some.mp one)
        (toOption_eq_some.mp other)
    | _ => cases kinds

end ClientPacket

/--
The packets a client sends are encoded unambiguously and with a predictable footprint.

Packets with the same bytes are the same. A packet is encoded exactly if its body fits behind five
bytes and is within the protocol's limit; then it ends where the body ends, and the length behind
its first byte is read as the length of the body.
-/
theorem clientPacket_encoding :
    (∀ (first second : ClientPacket) (buf buf' bytes : Bytes) (offset offset' : Nat),
      first.Admissible → second.Admissible → buf.length < 2 ^ 32 → buf'.length < 2 ^ 32 →
      first.encode buf = some (offset, bytes) → second.encode buf' = some (offset', bytes) →
      first.Same second) ∧
    (∀ (packet : ClientPacket) (buf : Bytes), packet.Admissible → buf.length < 2 ^ 32 →
      ((∃ offset bytes, packet.encode buf = some (offset, bytes)) ↔
        5 + packet.bodyLength ≤ buf.length ∧ packet.bodyLength ≤ 2 ^ 28 - 1) ∧
      ∀ offset bytes, packet.encode buf = some (offset, bytes) →
        offset + bytes.length = 5 + packet.bodyLength ∧
        ∃ len, probeMqttU32Varint bytes.tail = .ok (some (packet.bodyLength, len)) ∧
          bytes.length = 1 + len + packet.bodyLength) := by
  refine ⟨?_, ?_⟩
  · intro first second buf buf' bytes offset offset' admissible admissible' small small' one other
    exact ClientPacket.same_of_encode admissible admissible' small small' one other
  · -- The computed length decides, and framing adds the header in front.
    intro packet buf admissible small
    obtain ⟨length, exists_body⟩ := ClientPacket.length_body admissible
    constructor
    · constructor
      · intro ⟨offset, bytes, encoded⟩
        obtain ⟨content, written, occupies⟩ := ClientPacket.encode_eq_some_iff.mp encoded
        have fits := occupies.fits
        have limit : content.length < 2 ^ 32 := by omega
        have room := (exists_occupies_iff limit).mp ⟨offset, bytes, occupies⟩
        rw [length content written limit] at room
        exact room
      · intro ⟨fits, limit⟩
        obtain ⟨content, written, size⟩ := exists_body limit
        rw [← size] at fits limit
        obtain ⟨offset, bytes, occupies⟩ := (exists_occupies_iff (by omega)).mpr ⟨fits, limit⟩
        exact ⟨offset, bytes, ClientPacket.encode_eq_some_iff.mpr ⟨content, written, occupies⟩⟩
    · intro offset bytes encoded
      obtain ⟨content, written, limit, ends, framed⟩ := ClientPacket.framed_of_encode small encoded
      obtain ⟨len, probe, total⟩ := framed.probe
      rw [length content written limit] at ends probe total
      exact ⟨ends, len, probe, total⟩

end Minimq

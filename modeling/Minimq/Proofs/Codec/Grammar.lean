import Minimq.Codec.Grammar
import Minimq.Proofs.Codec.Properties

/-! The decoder accepts exactly the grammar of inbound packets. -/

namespace Minimq

open Hoare Grammar

variable {buf body : Bytes} {header : FixedHeader} {byte : UInt8} {packet : ReceivedPacket}
variable {parsed packet : ReceivedPacket}

theorem PropertyBlock.ne_nil {properties : Properties} {bytes : Bytes}
    (block : PropertyBlock properties bytes) : bytes ≠ [] := by
  obtain ⟨content, len, -, written, rfl⟩ := block
  have := (writeMqttU32Varint_length written).1
  rintro none
  rw [(List.append_eq_nil_iff.mp none).1] at this
  simp at this

namespace Deserializer

variable {P : Option Nat → Prop}

/-- A field that a relation spells out. -/
abbrev spelled {α : Type} (spells : α → Bytes → Prop) : Grammar UInt8 α :=
  fun input value rest => ∃ bytes, spells value bytes ∧ input = bytes ++ rest

/-- Any announced length will do. -/
abbrev Anyhow (_ : Option Nat) : Prop := True

theorem option_accepts {α : Type} {field : Read α} {grammar : Grammar UInt8 α}
    (reads : Accepts P field grammar) : Accepts P (option field) (optional grammar) where
  sound {s value s'} ok read := by
    unfold option at read
    simp only [bind_apply, get_apply] at read
    -- The field is missing exactly if no byte is left.
    by_cases done : s.len = 0
    · simp only [if_pos done, pure_apply, EStateM.Result.ok.injEq] at read
      obtain ⟨rfl, rfl⟩ := read
      have none : s.remainder = [] := by rw [← List.length_eq_zero_iff, length_remainder, done]
      exact ⟨⟨none, none⟩, ok⟩
    · simp only [if_neg done, bind_apply] at read
      cases inner : field s with
      | error error after => simp [inner] at read
      | ok found after =>
        simp only [inner, pure_apply, EStateM.Result.ok.injEq] at read
        obtain ⟨rfl, rfl⟩ := read
        obtain ⟨accepted, ok⟩ := reads.sound ok inner
        refine ⟨⟨?_, accepted⟩, ok⟩
        rw [ne_eq, ← List.length_eq_zero_iff, length_remainder]
        exact done
  complete {s value rest} ok accepted := by
    unfold option
    simp only [bind_apply, get_apply]
    cases value with
    | none =>
      obtain ⟨none, rfl⟩ := accepted
      have done : s.len = 0 := by rw [← length_remainder, none, List.length_nil]
      exact ⟨s, by rw [if_pos done, pure_apply], none⟩
    | some value =>
      obtain ⟨some, accepted⟩ := accepted
      have more : ¬ s.len = 0 := by
        rw [← length_remainder, List.length_eq_zero_iff]
        exact some
      obtain ⟨s', inner, left⟩ := reads.complete ok accepted
      exact ⟨s', by rw [if_neg more, bind_apply, inner]; rfl, left⟩

theorem bool_accepts : Accepts P bool (code fun value => some [if value then 1 else 0]) := by
  have byte := pop_accepts (P := P)
  refine (byte.bind fun byte => Reads.ite (fun _ => .pure _) fun _ =>
    Reads.ite (fun _ => .pure _) fun _ => .throw _).congr fun input value rest => ?_
  constructor
  · rintro ⟨byte, middle, front, decided⟩
    obtain rfl := code_total.mp front
    refine code_total.mpr ?_
    -- Two bytes are booleans, and all others are refused.
    by_cases zero : byte = 0
    · rw [if_pos zero] at decided
      obtain ⟨rfl, rfl⟩ := decided
      rw [zero]
      rfl
    rw [if_neg zero] at decided
    by_cases one : byte = 1
    · rw [if_pos one] at decided
      obtain ⟨rfl, rfl⟩ := decided
      rw [one]
      rfl
    rw [if_neg one] at decided
    exact decided.elim
  · intro accepted
    refine ⟨if value then 1 else 0, rest, code_total.mpr (code_total.mp accepted), ?_⟩
    cases value with
    | false => exact ⟨rfl, rfl⟩
    | true => exact ⟨rfl, rfl⟩

/-- A reason code. -/
theorem reasonCode_accepts : Accepts P reasonCode
    (spelled fun code bytes => ∃ byte, code = .fromByte byte ∧ bytes = [byte]) := by
  refine (pop_accepts.bind fun byte => Reads.pure (ReasonCode.fromByte byte)).congr
    fun input value rest => ?_
  rw [seq_unit]
  constructor
  · rintro ⟨byte, rfl, accepted⟩
    exact ⟨[byte], ⟨byte, rfl, rfl⟩, code_total.mp accepted⟩
  · rintro ⟨-, ⟨byte, rfl, rfl⟩, same⟩
    exact ⟨byte, rfl, code_total.mpr same⟩

/-- The part of a property block behind its length. -/
def block (length : Nat) : Read Properties := do
  modify fun deserializer => { deserializer with nextBytesLen := some length }
  if length = 0 then return .encoded []
  else
    let original := (← get).len
    let block ← bytes
    if length < original - (← get).len then throw .insufficientData
    modify fun deserializer => { deserializer with nextBytesLen := none }
    return .encoded block

/-- Behind its length, a block is taken as one piece. -/
theorem block_apply (length : Nat) (s : Deserializer) :
    block length s = if s.len < length then .error .insufficientData { s with nextBytesLen := none }
      else .ok (.encoded (s.remainder.take length))
        ⟨s.buf, s.index + length, if length = 0 then some 0 else none⟩ := by
  unfold block
  by_cases empty : length = 0
  · subst empty
    simp
  · simp only [bind_apply, modify_apply, if_neg empty, get_apply, bytes, set_apply, tryTakeN]
    have same : ({ s with nextBytesLen := none } : Deserializer).len = s.len := rfl
    by_cases short : s.len < length
    · simp [same, short]
    · -- A block takes no more than its length.
      have moved : ¬ length < ({ s with nextBytesLen := some length } : Deserializer).len -
          (Deserializer.mk s.buf (s.index + length) none).len := by
        simp only [len] at short ⊢
        omega
      simp only [same, if_neg short, bind_apply, set_apply, pure_apply]
      rw [if_neg moved]
      rfl

/-- Behind its length, a block is read as that many bytes. -/
theorem block_accepts (length : Nat) : Accepts Anyhow (block length)
    fun input properties rest => ∃ bytes, properties = .encoded bytes ∧ bytes.length = length ∧
      input = bytes ++ rest where
  sound {s value s'} _ read := by
    rw [block_apply] at read
    -- The block is taken if it is there, and refused otherwise.
    split at read
    · cases read
    · rename_i enough
      cases read
      refine ⟨⟨s.remainder.take length, rfl, ?_, ?_⟩, trivial⟩
      · rw [List.length_take, length_remainder]
        omega
      · rw [remainder, remainder, ← List.drop_drop, List.take_append_drop]
  complete {s value rest} _ := by
    rintro ⟨bytes, rfl, rfl, left⟩
    have enough : ¬ s.len < bytes.length := by
      rw [← length_remainder, left, List.length_append]
      omega
    refine ⟨⟨s.buf, s.index + bytes.length, if bytes.length = 0 then some 0 else none⟩, ?_, ?_⟩
    · rw [block_apply, if_neg enough, left, List.take_left]
    · rw [remainder, ← List.drop_drop]
      show s.remainder.drop bytes.length = rest
      rw [left, List.drop_left]

theorem properties_accepts : Accepts Anyhow properties (spelled PropertyBlock) := by
  have length := readVarint_accepts (P := Anyhow)
  refine (length.bind block_accepts).congr fun input value rest => ?_
  constructor
  · rintro ⟨length, middle, ⟨len, written, rfl⟩, bytes, rfl, rfl, rfl⟩
    exact ⟨len ++ bytes, ⟨bytes, len, rfl, written, rfl⟩, by rw [List.append_assoc]⟩
  · rintro ⟨-, ⟨bytes, len, rfl, written, rfl⟩, rfl⟩
    exact ⟨bytes.length, bytes ++ rest, ⟨len, written, by rw [List.append_assoc]⟩, bytes, rfl, rfl,
      rfl⟩

/-- The reason of an acknowledgement, as far as it is present; without properties, nothing is left
behind it. -/
def ReasonFields (reason : Reason) (input rest : Bytes) : Prop :=
  match reason.reason with
  | none => input = [] ∧ rest = []
  | some (code, none) => ∃ byte, code = .fromByte byte ∧ input = [byte] ∧ rest = []
  | some (code, some properties) => ∃ byte block, code = .fromByte byte ∧
    PropertyBlock properties block ∧ input = byte :: block ++ rest

theorem reason_accepts : Accepts Anyhow reason fun input reason rest =>
    ReasonFields reason input rest := by
  have code := reasonCode_accepts (P := Anyhow)
  have properties := option_accepts properties_accepts
  refine (Reads.bind (option_accepts (code.bind fun code => properties.bind fun properties =>
    .pure (code, properties))) fun found => .pure (Reason.mk found)).congr fun input reason rest => ?_
  rw [seq_unit]
  constructor
  · rintro ⟨found, rfl, accepted⟩
    -- The code may be missing, and behind it the properties.
    cases found with
    | none => exact accepted
    | some found =>
      obtain ⟨-, code, middle, ⟨-, ⟨byte, rfl, rfl⟩, rfl⟩, pair⟩ := accepted
      obtain ⟨properties, rfl, accepted⟩ := seq_unit.mp pair
      cases properties with
      | none =>
        obtain ⟨rfl, rfl⟩ := accepted
        exact ⟨byte, rfl, rfl, rfl⟩
      | some properties =>
        obtain ⟨-, block, spelled, rfl⟩ := accepted
        exact ⟨byte, block, rfl, spelled, rfl⟩
  · obtain ⟨found⟩ := reason
    intro fields
    refine ⟨found, rfl, ?_⟩
    match found with
    | none => exact fields
    | some (code, none) =>
      obtain ⟨byte, rfl, rfl, rfl⟩ := fields
      exact ⟨by simp, _, [], ⟨[byte], ⟨byte, rfl, rfl⟩, rfl⟩, seq_unit.mpr ⟨none, rfl, rfl, rfl⟩⟩
    | some (code, some properties) =>
      obtain ⟨byte, block, rfl, spelled, rfl⟩ := fields
      refine ⟨by simp, _, block ++ rest, ⟨[byte], ⟨byte, rfl, rfl⟩, rfl⟩,
        seq_unit.mpr ⟨some properties, rfl, ?_, block, spelled, rfl⟩⟩
      simp [spelled.ne_nil]

theorem ack_accepts : Accepts Anyhow ack fun input ack rest =>
    ∃ after, input = u16Bytes ack.packetId ++ after ∧ ReasonFields ack.reason after rest := by
  have packetId := readU16_accepts (P := Anyhow)
  refine (packetId.bind fun packetId => reason_accepts.bind fun reason =>
    .pure (Ack.mk packetId reason)).congr fun input ack rest => ?_
  -- The identifier is read first, and the rest is the reason.
  constructor
  · rintro ⟨packetId, middle, front, accepted⟩
    obtain rfl := code_total.mp front
    obtain ⟨reason, rfl, fields⟩ := seq_unit.mp accepted
    exact ⟨middle, rfl, fields⟩
  · rintro ⟨after, rfl, fields⟩
    exact ⟨ack.packetId, after, code_total.mpr rfl, seq_unit.mpr ⟨ack.reason, rfl, fields⟩⟩

/-- An acknowledgement of a subscription request, up to its codes. -/
theorem subAck_accepts : Accepts Anyhow subAck fun input ack rest =>
    ack.codes = [] ∧ ∃ block, PropertyBlock ack.properties block ∧
      input = u16Bytes ack.packetId ++ block ++ rest := by
  have packetId := readU16_accepts (P := Anyhow)
  refine (packetId.bind fun packetId => properties_accepts.bind fun properties =>
    .pure (SubAck.mk packetId properties [])).congr fun input ack rest => ?_
  -- The codes are what is left, so none are read as fields.
  constructor
  · rintro ⟨packetId, middle, front, accepted⟩
    obtain rfl := code_total.mp front
    obtain ⟨properties, rfl, block, spelled, rfl⟩ := seq_unit.mp accepted
    exact ⟨rfl, block, spelled, by rw [List.append_assoc]⟩
  · obtain ⟨packetId, properties, codes⟩ := ack
    rintro ⟨rfl, block, spelled, rfl⟩
    exact ⟨packetId, block ++ rest, code_total.mpr (by rw [List.append_assoc]),
      seq_unit.mpr ⟨properties, rfl, block, spelled, rfl⟩⟩

theorem connAck_accepts : Accepts Anyhow connAck (spelled ConnAckBody) := by
  have present := bool_accepts (P := Anyhow)
  have code := reasonCode_accepts (P := Anyhow)
  refine (present.bind fun present => code.bind fun code => properties_accepts.bind
    fun properties => .pure (ConnAck.mk present code properties)).congr fun input ack rest => ?_
  -- Three fields one behind the other, of which the code is a single byte.
  constructor
  · rintro ⟨present, middle, front, -, back, ⟨-, ⟨byte, rfl, rfl⟩, rfl⟩, accepted⟩
    obtain rfl := code_total.mp front
    obtain ⟨properties, rfl, block, spelled, rfl⟩ := seq_unit.mp accepted
    exact ⟨_, ⟨byte, block, rfl, spelled, rfl⟩, rfl⟩
  · rintro ⟨-, ⟨byte, block, code, spelled, rfl⟩, rfl⟩
    refine ⟨ack.sessionPresent, byte :: (block ++ rest), code_total.mpr rfl, ack.reasonCode,
      block ++ rest, ⟨[byte], ⟨byte, code, rfl⟩, rfl⟩, ?_⟩
    exact seq_unit.mpr ⟨ack.properties, rfl, block, spelled, rfl⟩

/-- The end of a connection, as far as its fields are present. -/
def DisconnectFields (disconnect : Disconnect) (input rest : Bytes) : Prop :=
  match disconnect.reasonCode, disconnect.properties with
  | none, none => input = [] ∧ rest = []
  | some code, none => ∃ byte, code = .fromByte byte ∧ input = [byte] ∧ rest = []
  | some code, some properties => ∃ byte block, code = .fromByte byte ∧
    PropertyBlock properties block ∧ input = byte :: block ++ rest
  | none, some _ => False

theorem disconnect_accepts : Accepts Anyhow disconnect fun input value rest =>
    DisconnectFields value input rest := by
  have code := option_accepts (reasonCode_accepts (P := Anyhow))
  have properties := option_accepts properties_accepts
  refine (code.bind fun code => properties.bind fun properties =>
    .pure (Disconnect.mk code properties)).congr fun input value rest => ?_
  obtain ⟨code, properties⟩ := value
  constructor
  · rintro ⟨code, middle, first, accepted⟩
    obtain ⟨properties, same, second⟩ := seq_unit.mp accepted
    cases same
    -- Without a code there is no byte left for properties.
    cases code with
    | none =>
      obtain ⟨rfl, rfl⟩ := first
      cases properties with
      | none => exact second
      | some properties => exact absurd rfl second.1
    | some code =>
      obtain ⟨-, -, ⟨byte, rfl, rfl⟩, rfl⟩ := first
      cases properties with
      | none =>
        obtain ⟨rfl, rfl⟩ := second
        exact ⟨byte, rfl, rfl, rfl⟩
      | some properties =>
        obtain ⟨-, block, spelled, rfl⟩ := second
        exact ⟨byte, block, rfl, spelled, rfl⟩
  · intro fields
    match code, properties with
    | none, none =>
      obtain ⟨rfl, rfl⟩ := fields
      exact ⟨none, [], ⟨rfl, rfl⟩, seq_unit.mpr ⟨none, rfl, rfl, rfl⟩⟩
    | some code, none =>
      obtain ⟨byte, rfl, rfl, rfl⟩ := fields
      exact ⟨some _, [], ⟨by simp, [byte], ⟨byte, rfl, rfl⟩, rfl⟩,
        seq_unit.mpr ⟨none, rfl, rfl, rfl⟩⟩
    | some code, some properties =>
      obtain ⟨byte, block, rfl, spelled, rfl⟩ := fields
      refine ⟨some _, block ++ rest, ⟨by simp, [byte], ⟨byte, rfl, rfl⟩, rfl⟩,
        seq_unit.mpr ⟨some properties, rfl, ?_, block, spelled, rfl⟩⟩
      simp [spelled.ne_nil]

theorem publishId_accepts (qos : QoS) : Accepts Anyhow
    (if qos = .atMostOnce then pure none else some <$> readU16)
    (spelled fun packetId bytes => PublishId qos packetId bytes) := by
  have packetId := readU16_accepts (P := Anyhow)
  -- Only the levels above zero have an identifier.
  by_cases none : qos = .atMostOnce
  · rw [if_pos none]
    refine (Reads.pure _).congr fun input value rest => ?_
    constructor
    · rintro ⟨rfl, rfl⟩
      exact ⟨[], ⟨none, rfl⟩, rfl⟩
    · rintro ⟨bytes, spelled, rfl⟩
      cases value with
      | none =>
        obtain ⟨-, rfl⟩ := spelled
        exact ⟨rfl, rfl⟩
      | some packetId => exact absurd none spelled.1
  · rw [if_neg none, map_eq_pure_bind]
    refine (packetId.bind fun packetId => .pure (some packetId)).congr fun input value rest => ?_
    rw [seq_unit]
    constructor
    · rintro ⟨packetId, rfl, accepted⟩
      exact ⟨_, ⟨none, rfl⟩, code_total.mp accepted⟩
    · rintro ⟨bytes, spelled, rfl⟩
      cases value with
      | none => exact absurd spelled.1 none
      | some packetId =>
        obtain ⟨-, rfl⟩ := spelled
        exact ⟨packetId, rfl, code_total.mpr rfl⟩

theorem text_spelled : Accepts P str (spelled TextField) := by
  refine str_accepts.congr fun input text rest => exists_congr fun bytes => and_congr_left fun _ => ?_
  show tokenBytes (utf8Tokens text) = some bytes ↔ _
  rw [tokenBytes_utf8Tokens, counted, TextField, Option.ite_none_right_eq_some, Option.some.injEq]
  exact and_congr_right fun _ => eq_comm

end Deserializer

namespace ReceivedPacket

open Deserializer

/-- What a publication of a given quality of service is read as, before its payload. -/
def PublishFields (header : FixedHeader) (qos : QoS) (info : Publish) (input rest : Bytes) : Prop :=
  ∃ topic packetId block, TextField info.topic topic ∧ PublishId qos info.packetId packetId ∧
    PropertyBlock info.properties block ∧ input = topic ++ packetId ++ block ++ rest ∧
    info = ⟨info.topic, info.packetId, info.properties, [], header.publishRetain, qos,
      header.publishDuplicate⟩

/-- The fields of a publication, once its quality of service is known. -/
theorem publishFields_eq {qos : QoS}
    (level : header.publishQos = some qos) : publishFields header =
      str >>= fun topic => (if qos = .atMostOnce then pure none else some <$> readU16) >>=
        fun packetId => properties >>= fun properties =>
          pure ⟨topic, packetId, properties, [], header.publishRetain, qos,
            header.publishDuplicate⟩ := by
  unfold publishFields
  rw [level]
  by_cases none : qos = .atMostOnce
  · simp only [if_pos none]
  · simp only [if_neg none]

theorem publishFields_accepts (header : FixedHeader) : Accepts Anyhow (publishFields header)
    fun input info rest => ∃ qos, header.publishQos = some qos ∧
      PublishFields header qos info input rest := by
  -- The level stands in the flags, and decides whether an identifier follows.
  cases level : header.publishQos with
  | none =>
    rw [publishFields, level]
    refine (Reads.throw _).congr fun input info rest => ⟨False.elim, ?_⟩
    rintro ⟨qos, none, -⟩
    cases none
  | some qos =>
    rw [publishFields_eq level]
    refine (text_spelled.bind fun topic => (publishId_accepts qos).bind fun packetId =>
      properties_accepts.bind fun properties => .pure (Publish.mk topic packetId properties []
        header.publishRetain qos header.publishDuplicate)).congr fun input info rest => ?_
    constructor
    · rintro ⟨topic, front, ⟨text, spelled, rfl⟩, packetId, back, ⟨bytes, identified, rfl⟩, accepted⟩
      obtain ⟨properties, rfl, block, listed, rfl⟩ := seq_unit.mp accepted
      exact ⟨qos, rfl, text, bytes, block, spelled, identified, listed, by
        simp only [List.append_assoc], rfl⟩
    · rintro ⟨_, same, text, bytes, block, spelled, identified, listed, rfl, whole⟩
      cases same
      refine ⟨info.topic, bytes ++ (block ++ rest), ⟨text, spelled, by
        simp only [List.append_assoc]⟩, info.packetId, block ++ rest, ⟨bytes, identified, rfl⟩, ?_⟩
      exact seq_unit.mpr ⟨info.properties, whole, block, listed, rfl⟩

/-- What the fields of each type are read as. -/
def FieldsOf (header : FixedHeader) (kind : MessageType) (input : Bytes) (packet : ReceivedPacket)
    (rest : Bytes) : Prop :=
  match kind, packet with
  | .connAck, .connAck value => ∃ body, ConnAckBody value body ∧ input = body ++ rest
  | .publish, .publish info => ∃ qos, header.publishQos = some qos ∧
    PublishFields header qos info input rest
  | .pubAck, .pubAck value => ∃ after, input = u16Bytes value.packetId ++ after ∧
    ReasonFields value.reason after rest
  | .pubRec, .pubRec value => ∃ after, input = u16Bytes value.packetId ++ after ∧
    ReasonFields value.reason after rest
  | .pubRel, .pubRel value => ∃ after, input = u16Bytes value.packetId ++ after ∧
    ReasonFields value.reason after rest
  | .pubComp, .pubComp value => ∃ after, input = u16Bytes value.packetId ++ after ∧
    ReasonFields value.reason after rest
  | .subAck, .subAck value | .unsubAck, .unsubAck value => value.codes = [] ∧
    ∃ block, PropertyBlock value.properties block ∧ input = u16Bytes value.packetId ++ block ++ rest
  | .pingResp, .pingResp => input = rest
  | .disconnect, .disconnect value => DisconnectFields value input rest
  | _, _ => False

/-- Fields that are wrapped into a packet. -/
theorem wrapped_accepts {α : Type} {reader : Read α} {grammar : Grammar UInt8 α}
    {wrap : α → ReceivedPacket} {kind : MessageType} (reads : Accepts Anyhow reader grammar)
    (same : fields header kind = do return wrap (← reader))
    (own : ∀ input value rest, FieldsOf header kind input (wrap value) rest ↔
      grammar input value rest)
    (only : ∀ {input packet rest}, FieldsOf header kind input packet rest →
      ∃ value, packet = wrap value) :
    Accepts Anyhow (fields header kind) (FieldsOf header kind) := by
  rw [same]
  refine (reads.bind fun value => Reads.pure (wrap value)).congr fun input packet rest => ?_
  rw [seq_unit]
  -- The wrapped value determines the packet, and the packet the value.
  constructor
  · rintro ⟨value, rfl, accepted⟩
    exact (own _ _ _).mpr accepted
  · intro fields
    obtain ⟨value, rfl⟩ := only fields
    exact ⟨value, rfl, (own _ _ _).mp fields⟩

theorem refused_accepts {kind : MessageType} (same : fields header kind = throw .custom)
    (none : ∀ input packet rest, ¬ FieldsOf header kind input packet rest) :
    Accepts Anyhow (fields header kind) (FieldsOf header kind) := by
  rw [same]
  exact (Reads.throw _).congr fun input packet rest => ⟨False.elim, none input packet rest⟩

theorem fields_accepts (header : FixedHeader) (kind : MessageType) :
    Accepts Anyhow (fields header kind) (FieldsOf header kind) := by
  -- Each type has one kind of packet, and what a client never receives is refused.
  cases kind with
  | connAck =>
    refine wrapped_accepts connAck_accepts rfl (fun _ _ _ => Iff.rfl) fun {_ packet _} fields => ?_
    cases packet with
    | connAck ack => exact ⟨ack, rfl⟩
    | _ => exact False.elim fields
  | publish =>
    refine wrapped_accepts (publishFields_accepts header) rfl (fun _ _ _ => Iff.rfl)
      fun {_ packet _} fields => ?_
    cases packet with
    | publish info => exact ⟨info, rfl⟩
    | _ => exact False.elim fields
  | pubAck =>
    refine wrapped_accepts ack_accepts rfl (fun _ _ _ => Iff.rfl) fun {_ packet _} fields => ?_
    cases packet with
    | pubAck ack => exact ⟨ack.toAck, rfl⟩
    | _ => exact False.elim fields
  | pubRec =>
    refine wrapped_accepts ack_accepts rfl (fun _ _ _ => Iff.rfl) fun {_ packet _} fields => ?_
    cases packet with
    | pubRec ack => exact ⟨ack.toAck, rfl⟩
    | _ => exact False.elim fields
  | pubRel =>
    refine wrapped_accepts ack_accepts rfl (fun _ _ _ => Iff.rfl) fun {_ packet _} fields => ?_
    cases packet with
    | pubRel ack => exact ⟨ack.toAck, rfl⟩
    | _ => exact False.elim fields
  | pubComp =>
    refine wrapped_accepts ack_accepts rfl (fun _ _ _ => Iff.rfl) fun {_ packet _} fields => ?_
    cases packet with
    | pubComp ack => exact ⟨ack.toAck, rfl⟩
    | _ => exact False.elim fields
  | subAck =>
    refine wrapped_accepts subAck_accepts rfl (fun _ _ _ => Iff.rfl) fun {_ packet _} fields => ?_
    cases packet with
    | subAck ack => exact ⟨ack, rfl⟩
    | _ => exact False.elim fields
  | unsubAck =>
    refine wrapped_accepts subAck_accepts rfl (fun _ _ _ => Iff.rfl) fun {_ packet _} fields => ?_
    cases packet with
    | unsubAck ack => exact ⟨ack, rfl⟩
    | _ => exact False.elim fields
  | pingResp =>
    refine (Reads.pure ReceivedPacket.pingResp).congr fun input packet rest => ?_
    cases packet with
    | pingResp => exact ⟨And.right, fun same => ⟨rfl, same⟩⟩
    | _ => exact ⟨fun accepted => (nomatch accepted.1), False.elim⟩
  | disconnect =>
    refine wrapped_accepts disconnect_accepts rfl (fun _ _ _ => Iff.rfl)
      fun {_ packet _} fields => ?_
    cases packet with
    | disconnect value => exact ⟨value, rfl⟩
    | _ => exact False.elim fields
  | _ => exact refused_accepts rfl fun _ _ _ => id

/-- What a whole buffer is read as, before the bytes behind its fields are looked at. -/
def PacketOf (input : Bytes) (packet : ReceivedPacket) (rest : Bytes) : Prop :=
  ∃ byte len body value kind, writeMqttU32Varint value = some len ∧ input = byte :: (len ++ body) ∧
    (FixedHeader.mk byte).messageType = some kind ∧ (FixedHeader.mk byte).flagsValid = true ∧
    FieldsOf (FixedHeader.mk byte) kind body packet rest

/-- The fields behind a fixed header, if its type and flags are known. -/
theorem body_accepts (header : FixedHeader) : Accepts Anyhow (match header.messageType with
    | none => throw .custom
    | some kind => if header.flagsValid then fields header kind else throw .custom)
    fun input packet rest => ∃ kind, header.messageType = some kind ∧ header.flagsValid = true ∧
      FieldsOf header kind input packet rest := by
  cases header.messageType with
  | none =>
    refine (Reads.throw _).congr fun input packet rest => ⟨False.elim, ?_⟩
    rintro ⟨kind, none, -⟩
    cases none
  | some kind =>
    refine (Reads.ite (fun _ => fields_accepts header kind) fun _ => .throw _).congr
      fun input packet rest => ?_
    -- Flags that are not valid are refused before any field is read.
    by_cases valid : header.flagsValid = true
    · simp [valid]
    · simp [valid, never]

/-- A packet up to the bytes behind its fields. -/
theorem deserialize_accepts : Accepts Anyhow deserialize PacketOf := by
  have byte := pop_accepts (P := Anyhow)
  have length := varint_accepts (P := Anyhow)
  refine (byte.bind fun byte => length.bind fun _ => body_accepts ⟨byte⟩).congr
    fun input packet rest => ?_
  -- The type byte and the length precede the fields.
  constructor
  · rintro ⟨byte, middle, front, value, body, ⟨len, written, rfl⟩, kind, known, valid, fields⟩
    exact ⟨byte, len, body, value, kind, written, code_total.mp front, known, valid, fields⟩
  · rintro ⟨byte, len, body, value, kind, written, rfl, known, valid, fields⟩
    exact ⟨byte, len ++ body, code_total.mpr rfl, value, body, ⟨len, written, rfl⟩, kind, known,
      valid, fields⟩

/-- Put the bytes behind the fields of a packet where they belong. -/
def attach (rest : Bytes) (parsed : ReceivedPacket) : Option ReceivedPacket :=
  if rest = [] then some parsed
  else match parsed with
    | .publish info => some (.publish { info with payload := rest })
    | .subAck value => some (.subAck { value with codes := rest })
    | .unsubAck value => some (.unsubAck { value with codes := rest })
    | _ => none

/-- Decoding reads the fields and attaches what is left. -/
theorem fromBuffer_eq_ok {buf : Bytes} :
    fromBuffer buf = .ok packet ↔
      ∃ parsed rest, PacketOf buf parsed rest ∧ attach rest parsed = some packet := by
  have whole : (Deserializer.new buf).remainder = buf := rfl
  unfold fromBuffer
  constructor
  · intro decoded
    split at decoded
    · cases decoded
    · rename_i parsed after read
      refine ⟨parsed, after.remainder, whole ▸ (deserialize_accepts.sound trivial read).1, ?_⟩
      unfold attach
      -- Behind the fields only some packets may have bytes left.
      split at decoded
      · rename_i none
        cases decoded
        rw [if_pos none]
      · rename_i some
        rw [if_neg some]
        split at decoded <;> cases decoded <;> rfl
  · rintro ⟨parsed, rest, accepted, attached⟩
    obtain ⟨after, read, rfl⟩ := deserialize_accepts.complete (s := .new buf) trivial accepted
    rw [EStateM.run, read]
    unfold attach at attached
    dsimp only
    split at attached
    · rename_i none
      rw [if_pos none]
      cases attached
      rfl
    · rename_i some
      rw [if_neg some]
      split at attached <;> cases attached <;> rfl

/-- A packet with a fixed number of fields has no bytes behind them. -/
def isClosed : ReceivedPacket → Bool
  | .publish _ | .subAck _ | .unsubAck _ => false
  | _ => true

/-- Nothing is attached to a closed packet. -/
theorem attach_closed {rest : Bytes} (closed : parsed.isClosed = true) :
    attach rest parsed = some packet ↔ rest = [] ∧ packet = parsed := by
  unfold attach
  -- Bytes left behind the fields belong to one of three packets.
  by_cases empty : rest = []
  · rw [if_pos empty, Option.some.injEq]
    exact ⟨fun same => ⟨empty, same.symm⟩, fun same => same.2.symm⟩
  · rw [if_neg empty]
    refine ⟨fun attached => ?_, fun same => absurd same.1 empty⟩
    cases parsed with
    | publish info => cases closed
    | subAck ack => cases closed
    | unsubAck ack => cases closed
    | _ => cases attached

/-- Two lengths in front of the same bytes are the same. -/
theorem varint_append_inj {value value' : Nat} {len len' body body' : Bytes}
    (written : writeMqttU32Varint value = some len)
    (written' : writeMqttU32Varint value' = some len') (same : len ++ body = len' ++ body') :
    len = len' ∧ body = body' := by
  have found := varintPrefix_eq_found.mpr ⟨len, written, ⟨body, rfl⟩, rfl⟩
  have found' := varintPrefix_eq_found.mpr ⟨len', written', ⟨body', rfl⟩, rfl⟩
  rw [same, found', VarintPrefix.found.injEq] at found
  exact List.append_inj same found.2.symm

/-- Of a framed buffer, the body is what the fields are read from. -/
theorem packetOf_framed {buf body rest : Bytes} {parsed : ReceivedPacket}
    (framed : Framed buf byte body) : PacketOf buf parsed rest ↔
      ∃ kind, (FixedHeader.mk byte).messageType = some kind ∧
        (FixedHeader.mk byte).flagsValid = true ∧
        FieldsOf (FixedHeader.mk byte) kind body parsed rest := by
  obtain ⟨len, written, rfl⟩ := framed
  constructor
  · rintro ⟨byte', len', body', value, kind, written', same, known, valid, fields⟩
    rw [List.cons.injEq] at same
    obtain ⟨rfl, same⟩ := same
    -- The length is a prefix code, so it ends at one place only.
    obtain ⟨rfl, rfl⟩ := varint_append_inj written written' same
    exact ⟨kind, known, valid, fields⟩
  · rintro ⟨kind, known, valid, fields⟩
    exact ⟨byte, len, body, _, kind, written, rfl, known, valid, fields⟩

/-- The types with fixed flags have one first byte each. -/
theorem plain_byte (byte : UInt8) (kind : MessageType) (other : kind ≠ .publish) :
    ((FixedHeader.mk byte).messageType = some kind ∧ (FixedHeader.mk byte).flagsValid = true) ↔
      byte = (plainHeader kind).byte := by
  have all : ∀ bits : Fin 256, ∀ kind ∈ MessageType.all, kind ≠ .publish →
      (((FixedHeader.mk (UInt8.ofNat bits)).messageType = some kind ∧
        (FixedHeader.mk (UInt8.ofNat bits)).flagsValid = true) ↔
          UInt8.ofNat bits = (plainHeader kind).byte) := by decide +kernel
  have := all ⟨byte.toNat, byte.toNat_lt⟩ kind (by cases kind <;> decide) other
  rwa [UInt8.ofNat_toNat] at this

/-- The first byte of a publication. -/
theorem publish_byte (byte : UInt8) (qos : QoS) (retain : Retain) (dup : Bool) :
    ((FixedHeader.mk byte).messageType = some .publish ∧
      (FixedHeader.mk byte).publishQos = some qos ∧ retain = (FixedHeader.mk byte).publishRetain ∧
      dup = (FixedHeader.mk byte).publishDuplicate) ↔
    byte = (0x30 : UInt8) ||| (if dup then 8 else 0 : UInt8) ||| (qos.toByte <<< 1) |||
      (if retain = .retained then 1 else 0 : UInt8) := by
  -- All bytes are tried, with each of the values the flags can have.
  have all : ∀ bits : Fin 256, ∀ qos ∈ [QoS.atMostOnce, .atLeastOnce, .exactlyOnce],
      ∀ retain ∈ [Retain.notRetained, .retained], ∀ dup,
      ((FixedHeader.mk (UInt8.ofNat bits)).messageType = some .publish ∧
        (FixedHeader.mk (UInt8.ofNat bits)).publishQos = some qos ∧
        retain = (FixedHeader.mk (UInt8.ofNat bits)).publishRetain ∧
        dup = (FixedHeader.mk (UInt8.ofNat bits)).publishDuplicate) ↔
      UInt8.ofNat bits = (0x30 : UInt8) ||| (if dup then 8 else 0 : UInt8) |||
        (qos.toByte <<< 1) ||| (if retain = .retained then 1 else 0 : UInt8) := by
    decide +kernel
  have := all ⟨byte.toNat, byte.toNat_lt⟩ qos (by cases qos <;> simp) retain
    (by cases retain <;> simp) dup
  rwa [UInt8.ofNat_toNat] at this

/-- The type of a packet. -/
def kind : ReceivedPacket → MessageType
  | .connAck _ => .connAck
  | .publish _ => .publish
  | .pubAck _ => .pubAck
  | .pubRec _ => .pubRec
  | .pubRel _ => .pubRel
  | .pubComp _ => .pubComp
  | .subAck _ => .subAck
  | .unsubAck _ => .unsubAck
  | .pingResp => .pingResp
  | .disconnect _ => .disconnect

theorem kind_of_fieldsOf {type : MessageType} {input rest : Bytes}
    (fields : FieldsOf header type input packet rest) :
    type = packet.kind := by
  cases type <;> cases packet <;> first | rfl | exact False.elim fields

theorem isClosed_congr (same : parsed.kind = packet.kind) : parsed.isClosed = packet.isClosed := by
  cases parsed <;> cases packet <;> first | rfl | cases same

theorem kind_of_attach {rest : Bytes}
    (attached : attach rest parsed = some packet) : parsed.kind = packet.kind := by
  unfold attach at attached
  split at attached
  · cases attached
    rfl
  · split at attached <;> cases attached <;> rfl

/-- Decoding a framed buffer: its first byte gives the type, and its body is read accordingly. -/
theorem fromBuffer_framed
    (framed : Framed buf byte body) : fromBuffer buf = .ok packet ↔
      (FixedHeader.mk byte).messageType = some packet.kind ∧
      (FixedHeader.mk byte).flagsValid = true ∧
      ∃ parsed rest, FieldsOf (FixedHeader.mk byte) packet.kind body parsed rest ∧
        attach rest parsed = some packet := by
  rw [fromBuffer_eq_ok]
  constructor
  · rintro ⟨parsed, rest, accepted, attached⟩
    obtain ⟨type, known, valid, fields⟩ := (packetOf_framed framed).mp accepted
    -- The packet that is read has the type that stands in front.
    have same := (kind_of_fieldsOf fields).trans (kind_of_attach attached)
    subst same
    exact ⟨known, valid, parsed, rest, fields, attached⟩
  · rintro ⟨known, valid, parsed, rest, fields, attached⟩
    exact ⟨parsed, rest, (packetOf_framed framed).mpr ⟨_, known, valid, fields⟩, attached⟩

/-- A closed packet has nothing behind its fields. -/
theorem fromBuffer_closed {spelled : Prop} {first : UInt8} (framed : Framed buf byte body)
    (closed : packet.isClosed = true) (type : MessageType) (kind : packet.kind = type)
    (known : (plainHeader type).byte = first)
    (same : FieldsOf (FixedHeader.mk byte) packet.kind body packet [] ↔ spelled) :
    fromBuffer buf = .ok packet ↔ byte = first ∧ spelled := by
  have plain : packet.kind ≠ .publish := by
    cases packet with
    | publish info => cases closed
    | _ => exact MessageType.noConfusion
  -- The first byte of a closed packet is fixed.
  rw [fromBuffer_framed framed, ← and_assoc, plain_byte byte packet.kind plain, kind, known,
    ← same, kind]
  refine and_congr_right fun _ => ⟨?_, fun fields => ⟨packet, [], fields, rfl⟩⟩
  rintro ⟨parsed, rest, fields, attached⟩
  have closed' := isClosed_congr (kind_of_attach attached)
  obtain ⟨rfl, rfl⟩ := (attach_closed (closed'.trans closed)).mp attached
  exact fields

/-- The body of an acknowledgement is its identifier and its reason. -/
theorem ackBody_iff {ack : Ack} {body : Bytes} : AckBody ack body ↔
    ∃ after, body = u16Bytes ack.packetId ++ after ∧ ReasonFields ack.reason after [] := by
  obtain ⟨packetId, ⟨reason⟩⟩ := ack
  -- The reason is missing, a code, or a code with properties.
  match reason with
  | none => simp [AckBody, ReasonFields]
  | some (code, none) =>
    constructor
    · rintro ⟨byte, rfl, rfl⟩
      exact ⟨[byte], rfl, byte, rfl, rfl, rfl⟩
    · rintro ⟨after, rfl, byte, rfl, rfl, -⟩
      exact ⟨byte, rfl, rfl⟩
  | some (code, some properties) =>
    constructor
    · rintro ⟨byte, block, rfl, spelled, rfl⟩
      exact ⟨byte :: block, rfl, byte, block, rfl, spelled, by simp⟩
    · rintro ⟨after, rfl, byte, block, rfl, spelled, rfl⟩
      exact ⟨byte, block, rfl, spelled, by simp⟩

theorem disconnectBody_iff {value : Disconnect} {body : Bytes} :
    DisconnectBody value body ↔ DisconnectFields value body [] := by
  obtain ⟨code, properties⟩ := value
  match code, properties with
  | none, none => simp [DisconnectBody, DisconnectFields]
  | some code, none => simp [DisconnectBody, DisconnectFields]
  | some code, some properties => simp [DisconnectBody, DisconnectFields]
  | none, some properties => rfl

theorem attach_subAck {parsed : SubAck} (rest : Bytes) (none : parsed.codes = []) :
    attach rest (.subAck parsed) = some (.subAck { parsed with codes := rest }) := by
  cases rest with
  | nil => rw [attach, if_pos rfl, ← none]
  | cons byte rest => rfl

theorem attach_unsubAck {parsed : SubAck} (rest : Bytes) (none : parsed.codes = []) :
    attach rest (.unsubAck parsed) = some (.unsubAck { parsed with codes := rest }) := by
  cases rest with
  | nil => rw [attach, if_pos rfl, ← none]
  | cons byte rest => rfl

theorem attach_publish {parsed : Publish} (rest : Bytes) (none : parsed.payload = []) :
    attach rest (.publish parsed) = some (.publish { parsed with payload := rest }) := by
  cases rest with
  | nil => rw [attach, if_pos rfl, ← none]
  | cons byte rest => rfl

/-- A framed buffer holds a SUBACK. -/
theorem fromBuffer_subAck {ack : SubAck} (framed : Framed buf byte body) :
    fromBuffer buf = .ok (.subAck ack) ↔ byte = 0x90 ∧ SubAckBody ack body := by
  rw [fromBuffer_framed framed, ← and_assoc, plain_byte byte (kind (.subAck ack)) (nomatch ·),
    show kind (.subAck ack) = .subAck from rfl, show (plainHeader .subAck).byte = 0x90 by decide]
  refine and_congr_right fun _ => ?_
  constructor
  · -- The codes are the bytes behind the properties.
    rintro ⟨parsed, rest, fields, attached⟩
    cases parsed with
    | subAck parsed =>
      obtain ⟨none, block, spelled, rfl⟩ := fields
      rw [attach_subAck rest none] at attached
      cases attached
      exact ⟨block, spelled, rfl⟩
    | _ => exact False.elim fields
  · rintro ⟨block, spelled, rfl⟩
    exact ⟨.subAck { ack with codes := [] }, ack.codes, ⟨rfl, block, spelled, rfl⟩,
      attach_subAck _ rfl⟩

/-- A framed buffer holds an UNSUBACK. -/
theorem fromBuffer_unsubAck {ack : SubAck} (framed : Framed buf byte body) :
    fromBuffer buf = .ok (.unsubAck ack) ↔ byte = 0xB0 ∧ SubAckBody ack body := by
  rw [fromBuffer_framed framed, ← and_assoc, plain_byte byte (kind (.unsubAck ack)) (nomatch ·),
    show kind (.unsubAck ack) = .unsubAck from rfl, show (plainHeader .unsubAck).byte = 0xB0 by decide]
  refine and_congr_right fun _ => ?_
  constructor
  · -- The codes are the bytes behind the properties.
    rintro ⟨parsed, rest, fields, attached⟩
    cases parsed with
    | unsubAck parsed =>
      obtain ⟨none, block, spelled, rfl⟩ := fields
      rw [attach_unsubAck rest none] at attached
      cases attached
      exact ⟨block, spelled, rfl⟩
    | _ => exact False.elim fields
  · rintro ⟨block, spelled, rfl⟩
    exact ⟨.unsubAck { ack with codes := [] }, ack.codes, ⟨rfl, block, spelled, rfl⟩,
      attach_unsubAck _ rfl⟩

theorem flagsValid_publish (known : header.messageType = some .publish) :
    header.flagsValid = true := by
  simp [FixedHeader.flagsValid, known, MessageType.flagsValid]

/-- A framed buffer holds a PUBLISH. -/
theorem fromBuffer_publish {info : Publish} (framed : Framed buf byte body) :
    fromBuffer buf = .ok (.publish info) ↔ PublishByte info byte ∧ PublishBody info body := by
  rw [fromBuffer_framed framed]
  constructor
  · -- The payload is what is left behind the fields.
    rintro ⟨known, -, parsed, rest, fields, attached⟩
    cases parsed with
    | publish parsed =>
      obtain ⟨qos, level, topic, packetId, block, named, identified, listed, rfl, whole⟩ := fields
      rw [attach_publish rest (by rw [whole])] at attached
      cases attached
      rw [whole]
      refine ⟨(publish_byte byte qos _ _).mp ⟨known, level, rfl, rfl⟩, ?_⟩
      exact ⟨topic, packetId, block, named, identified, listed, rfl⟩
    | _ => exact False.elim fields
  · rintro ⟨marked, topic, packetId, block, named, identified, listed, rfl⟩
    obtain ⟨known, level, retain, dup⟩ := (publish_byte byte info.qos info.retain info.dup).mpr marked
    refine ⟨known, flagsValid_publish known, .publish { info with payload := [] }, info.payload,
      ⟨info.qos, level, topic, packetId, block, named, identified, listed, rfl, ?_⟩,
      attach_publish _ rfl⟩
    rw [← retain, ← dup]

/-- Decoding a framed buffer succeeds exactly on the grammar, with the fields it assigns. -/
theorem fromBuffer_spelled (framed : Framed buf byte body)
    (packet : ReceivedPacket) : fromBuffer buf = .ok packet ↔ packet.Spelled byte body := by
  -- Three packets have bytes behind their fields, and the others are closed.
  cases packet with
  | publish info => exact fromBuffer_publish framed
  | subAck ack => exact fromBuffer_subAck framed
  | unsubAck ack => exact fromBuffer_unsubAck framed
  | connAck ack => exact fromBuffer_closed framed rfl .connAck rfl (by decide) (by simp [FieldsOf, kind])
  | pubAck ack => exact fromBuffer_closed framed rfl .pubAck rfl (by decide) ackBody_iff.symm
  | pubRec rec => exact fromBuffer_closed framed rfl .pubRec rfl (by decide) ackBody_iff.symm
  | pubRel rel => exact fromBuffer_closed framed rfl .pubRel rfl (by decide) ackBody_iff.symm
  | pubComp comp => exact fromBuffer_closed framed rfl .pubComp rfl (by decide) ackBody_iff.symm
  | pingResp => exact fromBuffer_closed framed rfl .pingResp rfl (by decide) Iff.rfl
  | disconnect value => exact fromBuffer_closed framed rfl .disconnect rfl (by decide) disconnectBody_iff.symm

end ReceivedPacket

/-- A packet the reader has assembled is framed. -/
theorem PacketReader.Assembles.framed {reader : PacketReader} {bytes : Bytes}
    (assembles : reader.Assembles bytes) (available : reader.packetAvailable = true) :
    reader.packetLength = some bytes.length ∧ reader.buffer.take bytes.length = bytes ∧
      ∃ byte body, Framed bytes byte body := by
  obtain ⟨known, complete⟩ := assembles.frameOf_available available []
  have length := assembles.length
  refine ⟨known, by rw [length]; exact assembles.held, ?_⟩
  obtain ⟨-, byte, len, body, rest, written, same, size⟩ := frameOf_eq_packet.mp complete
  rw [List.append_nil] at same
  -- The reader holds exactly this packet, so nothing is left over.
  have none : rest = [] := by
    have := congrArg List.length same
    rw [List.length_append, ← size] at this
    exact List.length_eq_zero_iff.mp (by omega)
  rw [none, List.append_nil] at same
  exact ⟨byte, body, len, written, same⟩

/-- Every packet the reader frames is decoded exactly as the grammar says, and decoding any slice
stays within it. -/
theorem inbound_grammar :
    (∀ (reader : PacketReader) (bytes : Bytes), reader.Assembles bytes →
      reader.packetAvailable = true → reader.packetLength = some bytes.length ∧
        reader.buffer.take bytes.length = bytes ∧ ∃ byte body, Framed bytes byte body) ∧
    (∀ (buf body : Bytes) (byte : UInt8), Framed buf byte body → ∀ packet,
      ReceivedPacket.fromBuffer buf = .ok packet ↔ packet.Spelled byte body) ∧
    ∀ buf : Bytes, wp ReceivedPacket.deserialize
      (fun _ after => after.buf = buf ∧ after.index ≤ buf.length)
      (fun _ after => after.buf = buf ∧ after.index ≤ buf.length) (.new buf) := by
  refine ⟨fun reader bytes assembles => assembles.framed, fun buf body byte framed packet =>
    ReceivedPacket.fromBuffer_spelled framed packet, fun buf => ?_⟩
  have start : (Deserializer.new buf).Between buf 0 := ⟨rfl, Nat.le_refl _, Nat.zero_le _⟩
  exact wp_mono (ReceivedPacket.forward_deserialize _ start)
    (fun _ _ between => ⟨between.slice, between.within⟩)
    (fun _ _ between => ⟨between.slice, between.within⟩)

end Minimq

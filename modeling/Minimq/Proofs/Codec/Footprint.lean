import Minimq.Proofs.Codec.Encoding
import Minimq.Proofs.Codec.RoundTrip

/-! The room an encoding takes: a packet is encoded exactly if its body fits behind five bytes. -/

namespace Minimq

variable {α : Type} {properties : Properties} {header : FixedHeader} {size : Nat}

/-- Exactly the bodies within the protocol's limit are framed. -/
theorem exists_framed_iff {byte : UInt8} {body : Bytes} :
    (∃ bytes, Framed bytes byte body) ↔ body.length ≤ mqttVarintMax := by
  -- The varint is the only thing that can be missing.
  constructor
  · intro ⟨bytes, len, written, _⟩
    by_contra large
    rw [writeMqttU32Varint_eq_none.mpr (by omega)] at written
    cases written
  · intro small
    have written : (writeMqttU32Varint body.length).isSome := by
      rw [Option.isSome_iff_ne_none, ne_eq, writeMqttU32Varint_eq_none]
      omega
    obtain ⟨len, written⟩ := Option.isSome_iff_exists.mp written
    exact ⟨_, len, written, rfl⟩

/-- The length behind the first byte of a framed packet is read as the length of its body. -/
theorem Framed.probe {bytes body : Bytes} {byte : UInt8} (framed : Framed bytes byte body) :
    ∃ len, probeMqttU32Varint bytes.tail = .ok (some (body.length, len)) ∧
      bytes.length = 1 + len + body.length := by
  obtain ⟨len, written, rfl⟩ := framed
  refine ⟨len.length, ?_, ?_⟩
  · -- The length is canonical, so probing stops right behind it.
    have found := varintPrefix_eq_found.mpr ⟨len, written, ⟨body, rfl⟩, rfl⟩
    rw [List.tail_cons, probeMqttU32Varint_eq, found]
  · rw [List.length_cons, List.length_append]
    omega

/-- In a buffer that a 32-bit length describes, a frame is a framed body. -/
theorem frame_eq_some_iff {body bytes : Bytes} (small : body.length < 2 ^ 32) :
    frame header body = some bytes ↔ Framed bytes header.byte body := by
  rw [frame, Nat.mod_eq_of_lt small, Option.map_eq_some_iff]
  constructor
  · rintro ⟨len, written, same⟩
    exact ⟨len, written, same.symm⟩
  · rintro ⟨len, written, same⟩
    exact ⟨len, written, same.symm⟩

/-- What an encoding in a buffer of a given size is: the framed body, at the end of its room. -/
structure Occupies (size : Nat) (header : FixedHeader) (body : Bytes) (offset : Nat)
    (bytes : Bytes) : Prop where
  /-- The body fits behind the reserved space. -/
  fits : maxFixedHeaderSize + body.length ≤ size
  /-- The bytes frame the body. -/
  framed : frame header body = some bytes
  /-- The packet ends where the body ends. -/
  ends : offset + bytes.length = maxFixedHeaderSize + body.length

/-- Completing a body succeeds exactly with the framed body. -/
theorem complete_eq_ok_iff {size offset : Nat} {body bytes : Bytes} (fits : BodyFits size body) :
    complete size header body = .ok (offset, bytes) ↔ Occupies size header body offset bytes := by
  unfold complete
  -- Behind room for the header only the length can fail.
  by_cases short : size < maxFixedHeaderSize
  · rw [if_pos short]
    refine ⟨nofun, fun occupies => ?_⟩
    have := occupies.fits
    omega
  · have room : maxFixedHeaderSize + body.length ≤ size := by
      rcases fits with rfl | fits
      · simpa using short
      · exact fits
    rw [if_neg short]
    constructor
    · intro done
      cases framed : frame header body with
      | none => simp [framed] at done
      | some packet =>
        simp only [framed, Except.ok.injEq, Prod.mk.injEq] at done
        obtain ⟨rfl, rfl⟩ := done
        have length := frame_length framed
        exact ⟨room, framed, by omega⟩
    · intro occupies
      have ends := occupies.ends
      rw [occupies.framed]
      simp only [Except.ok.injEq, Prod.mk.injEq, and_true]
      omega

/-- Collecting fields succeeds with their bytes, if these fit. -/
theorem collect_of_fits {tokens : List Token} {body bytes : Bytes}
    (encoded : tokenBytes tokens = some bytes)
    (fits : maxFixedHeaderSize + (body ++ bytes).length ≤ size) :
    collect size body tokens = .ok (body ++ bytes) := by
  -- The body grows with every field, as the bytes of the others shrink.
  induction tokens generalizing body bytes with
  | nil =>
    cases encoded
    rw [collect, List.append_nil]
  | cons token rest ih =>
    cases token with
    | refuse => cases encoded
    | push data =>
      obtain ⟨tail, others, rfl⟩ := Option.map_eq_some_iff.mp encoded
      simp only [List.length_append] at fits
      rw [collect, if_neg (by omega), ← List.append_assoc]
      exact ih others (by simp only [List.length_append]; omega)

/-- What is collected is a body that fits. -/
theorem collect_eq_ok {tokens : List Token} {body whole : Bytes}
    (fits : BodyFits size body) (collected : collect size body tokens = .ok whole) :
    ∃ bytes, tokenBytes tokens = some bytes ∧ whole = body ++ bytes ∧ BodyFits size whole := by
  -- Tokens are appended one by one, each only if it fits.
  induction tokens generalizing body with
  | nil =>
    cases collected
    exact ⟨[], rfl, by simp, fits⟩
  | cons token rest ih =>
    cases token with
    | refuse => cases collected
    | push data =>
      rw [collect] at collected
      split at collected
      · cases collected
      · rename_i room
        obtain ⟨bytes, others, rfl, whole⟩ := ih (Serializer.fits_append fits room) collected
        exact ⟨data ++ bytes, by rw [tokenBytes, others]; rfl, by rw [List.append_assoc], whole⟩

/-- A packet is encoded exactly if its body fits behind five bytes and has a length. -/
theorem encodeWithOffset_eq_ok_iff [ControlPacket α] {buf bytes : Bytes} {packet : α} {offset : Nat} :
    (encodeWithOffset buf packet).1 = .ok (offset, bytes) ↔
      ∃ body, tokenBytes (ControlPacket.tokens packet) = some body ∧
        Occupies buf.length (ControlPacket.fixedHeader packet) body offset bytes := by
  rw [encodeWithOffset_eq, packetIn]
  -- Both directions go through the body that was collected.
  constructor
  · intro done
    cases collected : collect buf.length [] (ControlPacket.tokens packet) with
    | error error =>
      rw [collected] at done
      cases done
    | ok body =>
      rw [collected] at done
      obtain ⟨bytes, encoded, same, fits⟩ := collect_eq_ok (.inl rfl) collected
      rw [List.nil_append] at same
      exact ⟨body, same ▸ encoded, (complete_eq_ok_iff fits).mp done⟩
  · rintro ⟨body, encoded, occupies⟩
    have collected := @collect_of_fits _ _ [] _ encoded occupies.fits
    rw [collected]
    exact (complete_eq_ok_iff (.inr occupies.fits)).mpr occupies

/-- A publication whose fields fit is completed if the payload fits too. -/
theorem publishIn_of_collect [ControlPacket α] {header : α} {fields : Bytes}
    (collected : collect size [] (ControlPacket.tokens header) = .ok fields) (data : Bytes) :
    publishIn size header data =
      if size - (maxFixedHeaderSize + fields.length) < data.length then .error (.inr ())
      else (complete size (ControlPacket.fixedHeader header) (fields ++ data)).mapError .inl := by
  rw [publishIn, collected]
  split
  · rename_i full
    exact if_pos full
  · rename_i room
    exact if_neg room

/-- A publication is encoded exactly if its fields and its payload fit and have a length. -/
theorem encodePublishWithOffset_eq_ok_iff [ControlPacket α] {buf bytes data : Bytes} {header : α}
    {offset : Nat} :
    (encodePublishWithOffset buf header (.ofBytes data)).1 = .ok (offset, bytes) ↔
      ∃ fields, tokenBytes (ControlPacket.tokens header) = some fields ∧
        Occupies buf.length (ControlPacket.fixedHeader header) (fields ++ data) offset bytes := by
  rw [encodePublishWithOffset_eq]
  -- Both directions go through the fields that were collected.
  constructor
  · intro done
    cases collected : collect buf.length [] (ControlPacket.tokens header) with
    | error error =>
      rw [publishIn, collected] at done
      cases done
    | ok fields =>
      obtain ⟨bytes, encoded, same, fits⟩ := collect_eq_ok (.inl rfl) collected
      rw [List.nil_append] at same
      refine ⟨fields, same ▸ encoded, ?_⟩
      rw [publishIn_of_collect collected] at done
      split at done
      · cases done
      · rename_i room
        rw [← complete_eq_ok_iff (Serializer.fits_append fits room)]
        cases finished : complete buf.length (ControlPacket.fixedHeader header) (fields ++ data) with
        | error error =>
          rw [finished] at done
          cases done
        | ok packet =>
          rw [finished] at done
          exact congrArg _ (Except.ok.inj done)
  · rintro ⟨fields, encoded, occupies⟩
    have fits := occupies.fits
    rw [List.length_append] at fits
    have collected := @collect_of_fits buf.length _ [] _ encoded
      (by rw [List.nil_append]; omega)
    rw [publishIn_of_collect collected, if_neg (by rw [List.nil_append]; omega), List.nil_append,
      (complete_eq_ok_iff (.inr occupies.fits)).mpr occupies]
    rfl

/-- Fields that take a number of bytes, as far as a packet can hold them. -/
structure Takes (tokens : List Token) (count : Nat) : Prop where
  /-- Bytes that a 32-bit length describes are that many. -/
  length : ∀ bytes, tokenBytes tokens = some bytes → bytes.length < 2 ^ 32 → bytes.length = count
  /-- Fields within the protocol's limit have bytes. -/
  written : count ≤ mqttVarintMax → ∃ bytes, tokenBytes tokens = some bytes ∧ bytes.length = count

namespace Takes

theorem of_tokensLength {tokens : List Token} {count : Nat}
    (length : tokensLength tokens = some count) : Takes tokens count := by
  obtain ⟨bytes, encoded, rfl⟩ := Option.map_eq_some_iff.mp length
  refine ⟨fun other same _ => ?_, fun _ => ⟨bytes, encoded, rfl⟩⟩
  rw [encoded, Option.some.injEq] at same
  rw [same]

/-- Fields one behind the other add up. -/
theorem append {front back : List Token} {first second : Nat} (before : Takes front first)
    (behind : Takes back second) : Takes (front ++ back) (first + second) := by
  -- What the fields take together is the sum, below the limit and at it.
  constructor
  · intro bytes encoded small
    simp only [tokenBytes_append, Option.bind_eq_some_iff, Option.map_eq_some_iff] at encoded
    obtain ⟨head, own, tail, others, rfl⟩ := encoded
    rw [List.length_append] at small ⊢
    rw [before.length head own (by omega), behind.length tail others (by omega)]
  · intro limit
    obtain ⟨head, own, rfl⟩ := before.written (by omega)
    obtain ⟨tail, others, rfl⟩ := behind.written (by omega)
    exact ⟨head ++ tail, by simp [tokenBytes_append, own, others], List.length_append⟩

theorem flatMap {β : Type} {list : List β} {fields : β → List Token} {count : β → Nat}
    (each : ∀ member ∈ list, Takes (fields member) (count member)) :
    Takes (list.flatMap fields) (list.map count).sum := by
  induction list with
  | nil => exact of_tokensLength rfl
  | cons first rest ih =>
    rw [List.flatMap_cons, List.map_cons, List.sum_cons]
    exact (each first (.head _)).append (ih fun member rest => each member (.tail _ rest))

theorem push (bytes : Bytes) : Takes [.push bytes] bytes.length :=
  of_tokensLength (by simp)

theorem text {text : Utf8} (short : text.len ≤ 65535) : Takes (utf8Tokens text) (2 + text.len) :=
  of_tokensLength (tokensLength_utf8 short)

theorem binary {data : Bytes} (short : data.length ≤ 65535) :
    Takes (binaryTokens data) (2 + data.length) :=
  of_tokensLength (tokensLength_binary short)

end Takes

namespace Properties

/-- Properties that each have an encoding. -/
def Encodable : Properties → Prop
  | .slice list => ∀ property ∈ list, property.Encodable
  | .withCorrelation correlation list =>
    correlation.Encodable ∧ ∀ property ∈ list, property.Encodable
  | .encoded _ => True

/-- The bytes of a property block, with its length in front. -/
def blockLength (properties : Properties) : Nat := encodedLen properties.size + properties.size

/-- Encodable properties have bytes, as many as their size says. -/
theorem exists_content (encodable : properties.Encodable) :
    ∃ block, tokenBytes properties.content = some block ∧ block.length = properties.size := by
  cases properties with
  | slice list =>
    obtain ⟨block, encoded, size⟩ := listBytes_length encodable
    exact ⟨block, encoded, size.symm⟩
  | withCorrelation correlation list =>
    -- The correlation data is one more property, in front of the others.
    have all : ∀ property ∈ correlation :: list, property.Encodable := by
      intro property member
      cases member with
      | head => exact encodable.1
      | tail _ member => exact encodable.2 property member
    obtain ⟨block, encoded, -⟩ := listBytes_length all
    exact ⟨block, encoded, (@content_bytes _ (.withCorrelation correlation list) encoded).1.symm⟩
  | encoded block => exact ⟨block, tokenBytes_bytes block, rfl⟩

/-- A property block takes its length and the length of that. -/
theorem takes (encodable : properties.Encodable) :
    Takes properties.tokens properties.blockLength := by
  obtain ⟨block, encoded, size⟩ := exists_content encodable
  constructor
  · intro bytes whole small
    simp only [tokens_eq, tokenBytes_append, tokenBytes_varintTokens, encoded,
      Option.bind_eq_some_iff, Option.map_some, Option.some.injEq] at whole
    obtain ⟨len, written, rfl⟩ := whole
    rw [List.length_append] at small ⊢
    -- The content is among the bytes, so its size has not been cut.
    rw [Nat.mod_eq_of_lt (by omega)] at written
    rw [blockLength, encodedLen_eq written, size]
  · intro limit
    have within : properties.size ≤ mqttVarintMax := Nat.le_trans (Nat.le_add_left _ _) limit
    obtain ⟨len, written, length⟩ := Option.map_eq_some_iff.mp (tokensLength_varint within)
    have uncut : properties.size % 2 ^ 32 = properties.size :=
      Nat.mod_eq_of_lt (Nat.lt_of_le_of_lt within (by decide))
    refine ⟨len ++ block, ?_, by rw [List.length_append, length, size, blockLength]⟩
    rw [tokens_eq, uncut, tokenBytes_append, written, encoded]
    rfl

end Properties

theorem len_le_of_tokenBytes {text : Utf8} {bytes : Bytes}
    (encoded : tokenBytes (utf8Tokens text) = some bytes) : text.len ≤ 65535 := by
  rw [tokenBytes_utf8Tokens, counted] at encoded
  split at encoded
  · assumption
  · cases encoded

/-- Only properties within the limits of their encodings have bytes. -/
theorem Properties.encodable_of_tokenBytes {bytes : Bytes}
    (encoded : tokenBytes properties.tokens = some bytes) : properties.Encodable := by
  rw [tokens_eq, tokenBytes_append] at encoded
  simp only [Option.bind_eq_some_iff, Option.map_eq_some_iff] at encoded
  obtain ⟨-, -, block, content, -⟩ := encoded
  -- The correlation data come in front of the other properties.
  cases properties with
  | slice list => exact encodable_of_listBytes content
  | withCorrelation correlation list =>
    have all := @encodable_of_listBytes block (correlation :: list) content
    exact ⟨all correlation (.head _), fun property member => all property (.tail _ member)⟩
  | encoded block => trivial

namespace PublishHeader

/-- The bytes of the fields of a publication, without its payload. -/
def fieldsLength (header : PublishHeader) : Nat :=
  2 + header.topic.len + (if header.packetId.isSome then 2 else 0) + header.properties.blockLength

theorem takes {header : PublishHeader} (topic : header.topic.len ≤ 65535)
    (properties : header.properties.Encodable) :
    Takes (ControlPacket.tokens header) header.fieldsLength := by
  refine ((Takes.text topic).append ?_).append (Properties.takes properties)
  cases header.packetId with
  | none => exact .of_tokensLength rfl
  | some packetId => exact Takes.push (u16Bytes packetId)

theorem short_of_tokenBytes {header : PublishHeader} {fields : Bytes}
    (encoded : tokenBytes (ControlPacket.tokens header) = some fields) :
    header.topic.len ≤ 65535 ∧ header.properties.Encodable := by
  simp only [ControlPacket.tokens, tokenBytes_append, Option.bind_eq_some_iff,
    Option.map_eq_some_iff] at encoded
  obtain ⟨front, ⟨topic, text, packetId, id, rfl⟩, block, properties, rfl⟩ := encoded
  exact ⟨len_le_of_tokenBytes text, Properties.encodable_of_tokenBytes properties⟩

end PublishHeader

/-- A body with room behind five bytes is framed where it ends. -/
theorem exists_occupies_iff {body : Bytes} (small : body.length < 2 ^ 32) :
    (∃ offset bytes, Occupies size header body offset bytes) ↔
      maxFixedHeaderSize + body.length ≤ size ∧ body.length ≤ mqttVarintMax := by
  constructor
  · intro ⟨offset, bytes, occupies⟩
    exact ⟨occupies.fits, exists_framed_iff.mp ⟨bytes, (frame_eq_some_iff small).mp occupies.framed⟩⟩
  · intro ⟨fits, limit⟩
    obtain ⟨bytes, framed⟩ := Option.isSome_iff_exists.mp (frame_isSome header limit)
    have length := frame_length framed
    exact ⟨maxFixedHeaderSize + body.length - bytes.length, bytes, fits, framed, by omega⟩

end Minimq

import Minimq.Proofs.Staging.Log
import Minimq.Proofs.Codec.Canonical
import Minimq.Proofs.Codec.Footprint

/-! The receive budget of staging: the computed size of a chunk is the size of its encoding. -/

namespace Minimq.Staging

theorem le_mqttVarintLenLoop (fuel value len : Nat) : len ≤ mqttVarintLenLoop fuel value len := by
  induction fuel generalizing value len with
  | zero => exact Nat.le_refl _
  | succ fuel ih =>
    rw [mqttVarintLenLoop]
    split
    · exact Nat.le_refl _
    · have := ih (value / 128) (len + 1)
      omega

/-- A larger value is not divided less often. -/
theorem mqttVarintLenLoop_mono {fuel other value larger len : Nat} (order : value ≤ larger)
    (enough : larger ≤ other) :
    mqttVarintLenLoop fuel value len ≤ mqttVarintLenLoop other larger len := by
  -- Both loops divide once a round, and the smaller value stops first.
  induction other generalizing fuel value larger len with
  | zero =>
    obtain rfl : value = 0 := by omega
    cases fuel <;> simp [mqttVarintLenLoop]
  | succ other ih =>
    cases fuel with
    | zero => exact le_mqttVarintLenLoop _ _ _
    | succ fuel =>
      by_cases small : value < 128
      · rw [mqttVarintLenLoop, if_pos small]
        exact le_mqttVarintLenLoop _ _ _
      · rw [mqttVarintLenLoop, if_neg small, mqttVarintLenLoop, if_neg (by omega)]
        exact ih (Nat.div_le_div_right order) (by omega)

theorem mqttVarintLen_mono {value larger : Nat} (order : value ≤ larger) :
    mqttVarintLen value ≤ mqttVarintLen larger :=
  mqttVarintLenLoop_mono order (Nat.le_refl _)

/-- A value of few groups of seven bits is divided few times. -/
theorem mqttVarintLenLoop_le {fuel value len count : Nat} (small : value < 128 ^ (count + 1)) :
    mqttVarintLenLoop fuel value len ≤ len + count := by
  -- Each round removes one group, and the last one is not divided any more.
  induction fuel generalizing value len count with
  | zero => exact Nat.le_add_right _ _
  | succ fuel ih =>
    rw [mqttVarintLenLoop]
    split
    · exact Nat.le_add_right _ _
    · cases count with
      | zero => omega
      | succ count =>
        have fewer : value / 128 < 128 ^ (count + 1) := Nat.div_lt_of_lt_mul (by rwa [← pow_succ'])
        have := @ih (value / 128) (len + 1) count fewer
        omega

/-- A packet with a body of a given size: a first byte, the length of the body, and the body. -/
def packetSize (body : Nat) : Nat := 1 + mqttVarintLen body + body

/-- The fields of a chunk whose position has ten digits. -/
def chunkFields (topic id : Bytes) : Nat :=
  let properties := 2 + 1 + 2 + id.length + 1 + 2 + offsetKey.len + 2 + 10
  2 + topic.length + 2 + mqttVarintLen properties + properties

/-- The receive budget of a chunk, however large the numbers are. -/
def rxBudget (topic id : Bytes) (payloadSize : Nat) : Nat :=
  packetSize (chunkFields topic id + payloadSize)

section Overflow

variable {topic id : Bytes} {size : Nat}

theorem wrapUsize_of_lt {sum : Nat} (fits : sum < USize.size) : wrapUsize sum = sum := by
  rw [wrapUsize, Nat.mod_eq_of_lt fits, ite_self]

/-- The computed budget is the real one if that fits. -/
theorem requiredRxBytes_of_lt (fits : rxBudget topic id size < USize.size) :
    requiredRxBytes topic id size = rxBudget topic id size := by
  -- Every sum on the way is a part of the last one.
  simp only [rxBudget, packetSize, chunkFields] at fits
  rw [requiredRxBytes]
  simp only [rxBudget, packetSize, chunkFields]
  rw [@wrapUsize_of_lt (2 + 1 + 2 + id.length + 1 + 2 + offsetKey.len + 2 + 10) (by omega)]
  rw [@wrapUsize_of_lt (2 + topic.length + 2 + _ + _ + size) (by omega), wrapUsize_of_lt fits]

/-- Otherwise not even a chunk without a payload stays within what is computed. -/
theorem requiredRxBytes_lt_of_overflow (short : topic.length ≤ 65535) (data : id.length ≤ 65535)
    (bounded : size < USize.size) (overflow : USize.size ≤ rxBudget topic id size) :
    requiredRxBytes topic id size < packetSize (chunkFields topic id) := by
  have wide : 2 ^ 32 ≤ USize.size := USize.le_size
  have narrow : USize.size ≤ 2 ^ 64 := USize.size_le
  have key : offsetKey.len = 6 := rfl
  have front : mqttVarintLen (2 + 1 + 2 + id.length + 1 + 2 + offsetKey.len + 2 + 10) ≤ 1 + 9 :=
    mqttVarintLenLoop_le (by omega)
  have fields : chunkFields topic id ≤ 200000 ∧ 30 ≤ chunkFields topic id := by
    simp only [chunkFields]
    omega
  have required : requiredRxBytes topic id size =
      wrapUsize (packetSize (wrapUsize (chunkFields topic id + size))) := by
    rw [requiredRxBytes, @wrapUsize_of_lt (2 + 1 + 2 + id.length + _ + _ + _ + _ + _) (by omega)]
    rfl
  rw [required]
  by_cases fits : chunkFields topic id + size < USize.size
  · -- Only the last sum wraps, and little more than the length field is left of it.
    rw [wrapUsize_of_lt fits]
    have length : mqttVarintLen (chunkFields topic id + size) ≤ 1 + 9 :=
      mqttVarintLenLoop_le (by omega)
    simp only [rxBudget, packetSize] at overflow ⊢
    rw [wrapUsize, if_neg (by omega), Nat.mod_eq_sub_mod overflow, Nat.mod_eq_of_lt (by omega)]
    omega
  · -- The size of the body wraps, and less than the fields are left of it.
    have left : wrapUsize (chunkFields topic id + size) =
        chunkFields topic id + size - USize.size := by
      rw [wrapUsize, if_neg (by omega), Nat.mod_eq_sub_mod (by omega), Nat.mod_eq_of_lt (by omega)]
    have shorter := @mqttVarintLen_mono (chunkFields topic id + size - USize.size)
      (chunkFields topic id) (by omega)
    have length : mqttVarintLen (chunkFields topic id) ≤ 1 + 9 := mqttVarintLenLoop_le (by omega)
    rw [left, wrapUsize_of_lt] <;> simp only [packetSize] <;> omega

end Overflow

/-- The header of a publication that carries a chunk. -/
def chunkHeader (topic : Utf8) (id : Bytes) (offset : UInt32) (indicator : UInt8)
    (packetId : UInt16) (retain : Retain) (dup : Bool) : PublishHeader where
  topic
  packetId := some packetId
  properties := .slice [.payloadFormatIndicator indicator, .correlationData id,
    .userProperty offsetKey (decimal offset.toNat)]
  retain
  qos := .atLeastOnce
  dup

/-- The bytes of the properties of a chunk. -/
def chunkPropertiesLength (id : Bytes) (offset : UInt32) : Nat :=
  2 + 1 + 2 + id.length + 1 + 2 + offsetKey.len + 2 + (Decimal.text offset.toNat).length

theorem length_position_le (offset : UInt32) : (Decimal.text offset.toNat).length ≤ 10 :=
  Decimal.length_text_le (by decide) (Nat.lt_trans offset.toNat_lt (by decide))

theorem encodedLen_eq_mqttVarintLen {value : Nat} (small : value ≤ mqttVarintMax) :
    encodedLen value = mqttVarintLen value := by
  obtain ⟨field, written, length⟩ := Option.map_eq_some_iff.mp (tokensLength_varint small)
  rw [tokenBytes_varintTokens] at written
  rw [← length, mqttVarintLen_eq written]

section Chunk

variable {topic : Utf8} {id payload buf packet : Bytes} {offset : UInt32} {indicator : UInt8}
  {packetId : UInt16} {retain : Retain} {dup : Bool} {start fields : Nat}

/-- The bytes of the fields of a chunk, as the encoder computes them. -/
theorem fieldsLength_chunkHeader :
    (chunkHeader topic id offset indicator packetId retain dup).fieldsLength =
      2 + topic.len + 2 + (encodedLen (chunkPropertiesLength id offset) +
        chunkPropertiesLength id offset) := by
  -- Each of the three properties has an identifier of one byte.
  have size : (Properties.slice [.payloadFormatIndicator indicator, .correlationData id,
      .userProperty offsetKey (decimal offset.toNat)]).size = chunkPropertiesLength id offset := by
    simp only [Properties.size, List.map_cons, List.map_nil, List.sum_cons, List.sum_nil,
      Property.size, Property.identifier, chunkPropertiesLength, decimal, Utf8.len,
      show encodedLen 1 = 1 from rfl, show encodedLen 9 = 1 from rfl,
      show encodedLen 38 = 1 from rfl]
    omega
  simp only [PublishHeader.fieldsLength, chunkHeader, Properties.blockLength, size,
    Option.isSome_some, if_true]

/-- The fields of a chunk: its topic, the identifier and the three properties. -/
theorem tokensLength_chunkHeader
    (length : tokensLength (ControlPacket.tokens
      (chunkHeader topic id offset indicator packetId retain dup)) = some fields)
    (small : fields ≤ mqttVarintMax) :
    fields = 2 + topic.len + 2 + mqttVarintLen (chunkPropertiesLength id offset) +
      chunkPropertiesLength id offset := by
  obtain ⟨bytes, encoded, rfl⟩ := Option.map_eq_some_iff.mp length
  obtain ⟨short, encodable⟩ := PublishHeader.short_of_tokenBytes encoded
  have same := (PublishHeader.takes short encodable).length bytes encoded
    (Nat.lt_of_le_of_lt small (by decide))
  rw [fieldsLength_chunkHeader] at same
  rw [encodedLen_eq_mqttVarintLen (by omega)] at same
  omega

/-- With a short topic and a short identifier, the fields of a chunk can be written. -/
theorem exists_tokenBytes_chunkHeader (short : topic.len ≤ 65535) (data : id.length ≤ 65535) :
    ∃ bytes, tokenBytes (ControlPacket.tokens
      (chunkHeader topic id offset indicator packetId retain dup)) = some bytes ∧
      bytes.length ≤ mqttVarintMax := by
  have digits := length_position_le offset
  have encodable : (chunkHeader topic id offset indicator packetId retain dup).properties.Encodable := by
    simp only [chunkHeader, Properties.Encodable, List.forall_mem_cons, Property.Encodable, decimal,
      Utf8.len, offsetKey]
    exact ⟨trivial, data, ⟨by decide, by omega⟩, by simp⟩
  have small : chunkPropertiesLength id offset ≤ 65595 := by
    simp only [chunkPropertiesLength, offsetKey, Utf8.len, List.length_cons, List.length_nil]
    omega
  have within : chunkPropertiesLength id offset ≤ mqttVarintMax := Nat.le_trans small (by decide)
  -- The length of the properties takes at most four bytes.
  obtain ⟨field, written, length⟩ := Option.map_eq_some_iff.mp (tokensLength_varint within)
  rw [tokenBytes_varintTokens] at written
  have four := (writeMqttU32Varint_length written).2
  have limit : (chunkHeader topic id offset indicator packetId retain dup).fieldsLength ≤
      mqttVarintMax := by
    rw [fieldsLength_chunkHeader, mqttVarintMax]
    omega
  obtain ⟨bytes, encoded, size⟩ := (PublishHeader.takes short encodable).written limit
  exact ⟨bytes, encoded, size ▸ limit⟩

/-- Such a chunk can be sent from a buffer that it fits. -/
theorem exists_encodedChunk {bytes : Bytes} (own : tokenBytes (ControlPacket.tokens
      (chunkHeader topic id offset indicator packetId retain dup)) = some bytes)
    (small : bytes.length + payload.length < 2 ^ 28)
    (fits : 5 + (bytes.length + payload.length) ≤ buf.length) :
    ∃ start packet, (encodePublishWithOffset buf
      (chunkHeader topic id offset indicator packetId retain dup) (.ofBytes payload)).1 =
        .ok (start, packet) := by
  have body : (bytes ++ payload).length = bytes.length + payload.length := List.length_append
  have room : maxFixedHeaderSize + (bytes ++ payload).length ≤ buf.length ∧
      (bytes ++ payload).length ≤ mqttVarintMax := by
    rw [body, mqttVarintMax]
    exact ⟨fits, by omega⟩
  obtain ⟨start, packet, occupies⟩ := (exists_occupies_iff (by omega)).mpr room
  exact ⟨start, packet, encodePublishWithOffset_eq_ok_iff.mpr ⟨bytes, own, occupies⟩⟩

/-- The encoding of a chunk is a first byte, the length of its body, and its body. -/
theorem length_of_chunk
    (length : tokensLength (ControlPacket.tokens
      (chunkHeader topic id offset indicator packetId retain dup)) = some fields)
    (small : fields + payload.length < 2 ^ 28)
    (encoded : (encodePublishWithOffset buf
      (chunkHeader topic id offset indicator packetId retain dup) (.ofBytes payload)).1 =
        .ok (start, packet)) :
    packet.length = packetSize (fields + payload.length) := by
  obtain ⟨front, own, occupies⟩ := encodePublishWithOffset_eq_ok_iff.mp encoded
  have size : front.length = fields := by
    rw [tokensLength, own] at length
    exact Option.some.inj length
  have body : (front ++ payload).length = fields + payload.length := by
    rw [List.length_append, size]
  -- The body is small enough for its length to have an encoding.
  have framed := (frame_eq_some_iff (by rw [body]; omega)).mp occupies.framed
  obtain ⟨field, written, rfl⟩ := framed
  rw [body] at written
  rw [packetSize, mqttVarintLen_eq written, List.length_cons, List.length_append, body]
  omega

/-- A chunk takes at most its budget, and all of it if nothing is shorter than allowed. -/
theorem chunk_le_rxBudget {size : Nat}
    (length : tokensLength (ControlPacket.tokens
      (chunkHeader topic id offset indicator packetId retain dup)) = some fields)
    (small : fields + payload.length < 2 ^ 28)
    (encoded : (encodePublishWithOffset buf
      (chunkHeader topic id offset indicator packetId retain dup) (.ofBytes payload)).1 =
        .ok (start, packet))
    (within : payload.length ≤ size) :
    packet.length ≤ rxBudget topic.bytes id size ∧
      (payload.length = size → (Decimal.text offset.toNat).length = 10 →
        packet.length = rxBudget topic.bytes id size) := by
  have digits := length_position_le offset
  have own := tokensLength_chunkHeader length (by simp only [mqttVarintMax]; omega)
  rw [length_of_chunk length small encoded, rxBudget]
  rw [Utf8.len] at own
  constructor
  · -- Fewer digits and a shorter payload make both lengths smaller.
    have properties : chunkPropertiesLength id offset ≤
        2 + 1 + 2 + id.length + 1 + 2 + offsetKey.len + 2 + 10 := by
      rw [chunkPropertiesLength]
      omega
    have inner := mqttVarintLen_mono properties
    have body : fields + payload.length ≤ chunkFields topic.bytes id + size := by
      simp only [chunkFields]
      omega
    have outer := mqttVarintLen_mono body
    simp only [packetSize]
    omega
  · intro full ten
    rw [chunkPropertiesLength, ten] at own
    rw [own, full]
    rfl

end Chunk

namespace Service

/-- A manifest that is accepted has been checked against the receive budget. -/
theorem requiredRxBytes_le_of_handleManifest {json : Json} {manifest : Bytes}
    {service after : Service} {size : UInt32}
    (accepted : service.handleManifest json manifest = (.request (.prepare size), after)) :
    ∃ transfer, after.transfer = some transfer ∧
      requiredRxBytes service.chunkTopic transfer.id service.maxChunkSize ≤
        service.maxRxPacketSize := by
  unfold handleManifest at accepted
  -- Only the last branch asks for storage, and it keeps the transfer it has checked.
  split at accepted
  · cases accepted
  · rename_i transfer _
    split at accepted
    · split at accepted <;> cases accepted
    · split at accepted
      · cases accepted
      · split at accepted
        · cases accepted
        · split at accepted
          · cases accepted
          · rename_i fits
            obtain ⟨-, rfl⟩ := Prod.mk.inj accepted
            refine ⟨transfer, ?_, by omega⟩
            simp only [queue]
            split <;> rfl

end Service

/--
The receive budget is exact as long as it fits `usize`.

Then, and only then, every chunk publication takes at most the computed number of bytes, and that
number if its payload is full and its position has ten digits. Such publications exist, and those of
an accepted manifest fit the buffer it was checked against.
-/
theorem requiredRxBytes_exact (topic : Utf8) (id : Bytes) :
    (∀ size : Nat, topic.len ≤ 65535 → id.length ≤ 65535 → size < USize.size →
      ((∀ (payload buf packet : Bytes) (offset : UInt32) (indicator : UInt8) (packetId : UInt16)
          (retain : Retain) (dup : Bool) (start fields : Nat),
          tokensLength (ControlPacket.tokens
            (chunkHeader topic id offset indicator packetId retain dup)) = some fields →
          fields + payload.length < 2 ^ 28 → payload.length ≤ size →
          (encodePublishWithOffset buf (chunkHeader topic id offset indicator packetId retain dup)
            (.ofBytes payload)).1 = .ok (start, packet) →
          packet.length ≤ requiredRxBytes topic.bytes id size ∧
            (payload.length = size → (Decimal.text offset.toNat).length = 10 →
              packet.length = requiredRxBytes topic.bytes id size)) ↔
        rxBudget topic.bytes id size < USize.size)) ∧
    (∀ (payload buf : Bytes) (offset : UInt32) (indicator : UInt8) (packetId : UInt16)
      (retain : Retain) (dup : Bool), topic.len ≤ 65535 → id.length ≤ 65535 →
      ∃ fields, tokensLength (ControlPacket.tokens
        (chunkHeader topic id offset indicator packetId retain dup)) = some fields ∧
        (fields + payload.length < 2 ^ 28 → 5 + (fields + payload.length) ≤ buf.length →
          ∃ start packet, (encodePublishWithOffset buf
            (chunkHeader topic id offset indicator packetId retain dup) (.ofBytes payload)).1 =
              .ok (start, packet))) ∧
    (∀ (json : Json) (manifest : Bytes) (service after : Service) (size : UInt32),
      service.handleManifest json manifest = (.request (.prepare size), after) →
      ∃ transfer, after.transfer = some transfer ∧
        (rxBudget service.chunkTopic transfer.id service.maxChunkSize < USize.size →
          ∀ (payload buf packet : Bytes) (offset : UInt32) (indicator : UInt8)
            (packetId : UInt16) (retain : Retain) (dup : Bool) (start fields : Nat),
            topic.bytes = service.chunkTopic → payload.length ≤ service.maxChunkSize →
            tokensLength (ControlPacket.tokens
              (chunkHeader topic transfer.id offset indicator packetId retain dup)) = some fields →
            fields + payload.length < 2 ^ 28 →
            (encodePublishWithOffset buf
              (chunkHeader topic transfer.id offset indicator packetId retain dup)
                (.ofBytes payload)).1 = .ok (start, packet) →
            packet.length ≤ service.maxRxPacketSize)) := by
  refine ⟨fun size short data bounded => ⟨fun exact => ?_, ?_⟩, ?_, ?_⟩
  · -- If the budget wraps, a chunk without a payload exceeds it.
    by_contra overflow
    obtain ⟨bytes, own, limit⟩ := @exists_tokenBytes_chunkHeader topic id 4294967295 0 1
      .notRetained false short data
    have length : tokensLength (ControlPacket.tokens
        (chunkHeader topic id 4294967295 0 1 .notRetained false)) = some bytes.length := by
      rw [tokensLength, own]
      rfl
    have small : bytes.length + ([] : Bytes).length < 2 ^ 28 := Nat.lt_of_le_of_lt limit (by decide)
    obtain ⟨start, packet, encoded⟩ := exists_encodedChunk own small
      (Nat.le_of_eq (List.length_replicate (a := (0 : UInt8))).symm)
    have whole := (chunk_le_rxBudget length small encoded (Nat.le_refl _)).2 rfl (by decide +kernel)
    have less := requiredRxBytes_lt_of_overflow short data bounded (Nat.le_of_not_lt overflow)
    have most := (exact _ _ _ _ _ _ _ _ _ _ length small (Nat.zero_le _) encoded).1
    rw [whole] at most
    exact absurd (Nat.lt_of_le_of_lt most less) (Nat.lt_irrefl _)
  · intro fits payload buf packet offset indicator packetId retain dup start fields length small
      within encoded
    rw [requiredRxBytes_of_lt fits]
    exact chunk_le_rxBudget length small encoded within
  · intro payload buf offset indicator packetId retain dup short data
    obtain ⟨bytes, own, -⟩ := @exists_tokenBytes_chunkHeader topic id offset indicator packetId
      retain dup short data
    exact ⟨bytes.length, by rw [tokensLength, own]; rfl, exists_encodedChunk own⟩
  · intro json manifest service after size accepted
    obtain ⟨transfer, kept, budget⟩ := Service.requiredRxBytes_le_of_handleManifest accepted
    refine ⟨transfer, kept, ?_⟩
    intro fits payload buf packet offset indicator packetId retain dup start fields same within
      length small encoded
    have bound := (chunk_le_rxBudget length small encoded within).1
    rw [same, ← requiredRxBytes_of_lt fits] at bound
    exact Nat.le_trans bound budget

/-- A service that leaves the size of chunks to the receive budget. -/
def unlimitedService : Service :=
  { smallService with
    capacity := 1000
    maxChunkSize := USize.size - 1
    maxRxPacketSize := 64
    writeSize := 1
    writeSizePos := by decide
    chunkAligned := Nat.one_dvd _ }

/-- The budget of an unlimited chunk wraps to 40 bytes, so a manifest with larger chunks passes. -/
theorem requiredRxBytes_wraps :
    Service.new [0x61] ⟨1000, USize.size - 1, 1⟩ =
      .ok { unlimitedService with maxRxPacketSize := 0 } ∧
    (∃ after, unlimitedService.handleManifest readManifest (jsonManifest [0x74] 1000 7) =
      (.request (.prepare 1000), after)) ∧
    ∃ start packet, (encodePublishWithOffset (List.replicate 200 0)
        (chunkHeader ⟨[0x61] ++ chunkSuffix, by decide⟩ [0x74] 0 0 1 .notRetained false)
        (.ofBytes (List.replicate 100 1))).1 = .ok (start, packet) ∧
      100 ≤ unlimitedService.maxChunkSize ∧
      unlimitedService.maxRxPacketSize < packet.length := by
  have wide : 2 ^ 32 ≤ USize.size := USize.le_size
  have size : unlimitedService.maxChunkSize = USize.size - 1 := rfl
  have limit : unlimitedService.maxRxPacketSize = 64 := rfl
  refine ⟨?_, ?_, ?_⟩
  · -- The limits pass every check of the constructor.
    rw [Service.new, dif_neg (by simp; omega), if_neg (by decide), dif_neg (by decide),
      if_neg (by decide), if_neg (by decide)]
    rfl
  · have parsed : parseManifest readManifest (jsonManifest [0x74] 1000 7) =
        some ⟨[0x74], 1000, 0, 7, by decide⟩ := by decide +kernel
    -- With such a chunk the budget exceeds any machine word.
    have overflow : USize.size ≤
        rxBudget unlimitedService.chunkTopic [0x74] unlimitedService.maxChunkSize := by
      rw [rxBudget, packetSize]
      omega
    have budget := requiredRxBytes_lt_of_overflow (by decide) (by decide) (by omega) overflow
    have computed : packetSize (chunkFields unlimitedService.chunkTopic [0x74]) = 41 := by
      decide +kernel
    rw [Service.handleManifest, parsed]
    dsimp only
    rw [if_neg (by decide), if_neg (by decide), if_neg (by decide), if_neg (by omega)]
    exact ⟨_, rfl⟩
  · -- A chunk of 100 bytes is evaluated, and is larger than the receive buffer.
    have sends : (match (encodePublishWithOffset (List.replicate 200 0)
        (chunkHeader ⟨[0x61] ++ chunkSuffix, by decide⟩ [0x74] 0 0 1 .notRetained false)
        (.ofBytes (List.replicate 100 1))).1 with
      | .ok (_, packet) => decide (64 < packet.length)
      | .error _ => false) = true := by decide +kernel
    split at sends
    · rename_i start packet encoded
      exact ⟨start, packet, encoded, by omega, by simpa [limit] using sends⟩
    · cases sends

end Minimq.Staging

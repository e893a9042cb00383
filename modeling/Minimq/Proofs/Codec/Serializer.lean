import Minimq.Lib.Hoare
import Minimq.Codec.Packets
import Minimq.Proofs.Codec.Varint

/-! Laws of the serializer: an encoded packet is a header, the length of its body, and its body. -/

namespace Minimq

variable {α ε π : Type}

/-- The bytes a sequence of fields is written as, unless one has no encoding. -/
def tokenBytes : List Token → Option Bytes
  | [] => some []
  | .push bytes :: rest => (tokenBytes rest).map (bytes ++ ·)
  | .refuse :: _ => none

/-- How many bytes a sequence of fields is written as, unless one has no encoding. -/
def tokensLength (tokens : List Token) : Option Nat := (tokenBytes tokens).map List.length

@[simp] theorem tokensLength_nil : tokensLength [] = some 0 := rfl

@[simp] theorem tokensLength_push (bytes : Bytes) (rest : List Token) :
    tokensLength (.push bytes :: rest) = (tokensLength rest).map (bytes.length + ·) := by
  simp only [tokensLength, tokenBytes, Option.map_map]
  congr 1
  funext tail
  simp

/-- Fields one behind the other are written one behind the other. -/
theorem tokenBytes_append (front back : List Token) :
    tokenBytes (front ++ back) =
      (tokenBytes front).bind fun first => (tokenBytes back).map (first ++ ·) := by
  induction front with
  | nil => simp [tokenBytes]
  | cons token rest ih =>
    cases token with
    | refuse => rfl
    | push bytes =>
      rw [List.cons_append, tokenBytes, ih, tokenBytes]
      cases tokenBytes rest <;> simp [Option.map_map, Function.comp_def]

theorem tokensLength_append (front back : List Token) :
    tokensLength (front ++ back) =
      (tokensLength front).bind fun first => (tokensLength back).map (first + ·) := by
  unfold tokensLength
  rw [tokenBytes_append]
  cases tokenBytes front <;> cases tokenBytes back <;> simp

/-- A complete packet: its header, the length of its body, and its body. -/
def frame (header : FixedHeader) (body : Bytes) : Option Bytes :=
  (writeMqttU32Varint (body.length % 2 ^ 32)).map fun remainingLen =>
    header.byte :: (remainingLen ++ body)

theorem frame_length {header : FixedHeader} {body packet : Bytes}
    (framed : frame header body = some packet) :
    body.length + 2 ≤ packet.length ∧ packet.length ≤ body.length + maxFixedHeaderSize := by
  obtain ⟨remainingLen, written, rfl⟩ := Option.map_eq_some_iff.mp framed
  have := writeMqttU32Varint_length written
  simp only [List.length_cons, List.length_append, maxFixedHeaderSize]
  omega

theorem frame_isSome (header : FixedHeader) {body : Bytes} (small : body.length ≤ mqttVarintMax) :
    (frame header body).isSome := by
  have limit : body.length % 2 ^ 32 = body.length :=
    Nat.mod_eq_of_lt (Nat.lt_of_le_of_lt small (by decide))
  rw [frame, Option.isSome_map, limit, Option.isSome_iff_ne_none, ne_eq,
    writeMqttU32Varint_eq_none]
  omega

namespace Serializer

/-- Pushing bytes writes them, or fails and changes nothing. -/
theorem pushBytes_apply (data : Bytes) (serializer : Serializer) :
    pushBytes data serializer =
      if serializer.buf.length - serializer.index < data.length then
        .error .insufficientMemory serializer
      else .ok () ⟨Arena.overwrite serializer.buf serializer.index data,
        serializer.index + data.length⟩ := by
  simp only [pushBytes, Hoare.bind_apply, Hoare.get_apply]
  split <;> rfl

/-- How writing fields ends: all of them are in the buffer, or it kept its size. -/
def Pushed (tokens : List Token) (serializer : Serializer) :
    EStateM.Result SerError Serializer Unit → Prop
  | .ok _ after => ∃ bytes, tokenBytes tokens = some bytes ∧
      (bytes = [] ∨ serializer.index + bytes.length ≤ serializer.buf.length) ∧
      after = ⟨Arena.overwrite serializer.buf serializer.index bytes,
        serializer.index + bytes.length⟩
  | .error _ after => after.buf.length = serializer.buf.length ∧
      ∀ bytes, tokenBytes tokens = some bytes →
        serializer.buf.length < serializer.index + bytes.length

/-- Writing fields writes all their bytes or fails for want of room or of an encoding. -/
theorem pushTokens_pushed (tokens : List Token) (serializer : Serializer) :
    Pushed tokens serializer (pushTokens tokens serializer) := by
  induction tokens generalizing serializer with
  | nil => exact ⟨[], rfl, .inl rfl, by simp⟩
  | cons token rest ih =>
    cases token with
    | refuse => exact ⟨rfl, fun bytes none => by simp [tokenBytes] at none⟩
    | push data =>
      simp only [pushTokens, Hoare.bind_apply, pushBytes_apply]
      by_cases full : serializer.buf.length - serializer.index < data.length
      · simp only [if_pos full]
        refine ⟨rfl, fun bytes some => ?_⟩
        obtain ⟨tail, -, rfl⟩ := Option.map_eq_some_iff.mp some
        rw [List.length_append]
        omega
      · simp only [if_neg full]
        -- The data fits, so the buffer keeps its size for the rest.
        have room : data = [] ∨ serializer.index + data.length ≤ serializer.buf.length := by
          rcases data with _ | ⟨first, data⟩
          · exact .inl rfl
          · simp only [List.length_cons] at full ⊢
            exact .inr (by omega)
        have size : (Arena.overwrite serializer.buf serializer.index data).length =
            serializer.buf.length := by
          rcases room with rfl | room
          · rw [Arena.overwrite_nil]
          · exact Arena.length_overwrite room
        have inner := ih ⟨Arena.overwrite serializer.buf serializer.index data,
          serializer.index + data.length⟩
        revert inner
        cases pushTokens rest ⟨Arena.overwrite serializer.buf serializer.index data,
          serializer.index + data.length⟩ with
        | error error after =>
          rintro ⟨same, short⟩
          refine ⟨by rw [same, size], fun bytes some => ?_⟩
          obtain ⟨tail, found, rfl⟩ := Option.map_eq_some_iff.mp some
          have := short tail found
          simp only [size] at this
          rw [List.length_append]
          omega
        | ok value after =>
          rintro ⟨bytes, found, fits, rfl⟩
          refine ⟨data ++ bytes, by simp [tokenBytes, found], ?_, ?_⟩
          · simp only [size] at fits
            rcases fits with rfl | fits
            · simpa using room
            · refine .inr ?_
              rw [List.length_append]
              omega
          · rcases room with rfl | room
            · simp
            · rw [Arena.overwrite_overwrite room, List.length_append, Nat.add_assoc]

/-- Putting the header in front of a body that lies behind the reserved space. -/
theorem finalize_apply (header : FixedHeader) {buf body : Bytes}
    (fits : maxFixedHeaderSize + body.length ≤ buf.length) :
    finalize header ⟨Arena.overwrite buf maxFixedHeaderSize body,
        maxFixedHeaderSize + body.length⟩ =
      match frame header body with
      | none => .error .insufficientMemory ⟨Arena.overwrite buf maxFixedHeaderSize body,
          maxFixedHeaderSize + body.length⟩
      | some packet =>
        .ok (maxFixedHeaderSize + body.length - packet.length, packet)
          ⟨Arena.overwrite buf (maxFixedHeaderSize + body.length - packet.length) packet,
            maxFixedHeaderSize + body.length⟩ := by
  have size := Arena.length_overwrite fits
  simp only [finalize, Hoare.bind_apply, Hoare.get_apply, Nat.add_sub_cancel_left, frame]
  cases written : writeMqttU32Varint (body.length % 2 ^ 32) with
  | none => rfl
  | some remainingLen =>
    have bounds := writeMqttU32Varint_length written
    have room : ¬ (Arena.overwrite buf maxFixedHeaderSize body).length < maxFixedHeaderSize := by
      rw [size]
      omega
    have space : maxFixedHeaderSize = 5 := rfl
    have shorter : (maxFixedHeaderSize - remainingLen.length) + (remainingLen ++ body).length =
        maxFixedHeaderSize + body.length := by
      rw [List.length_append]
      omega
    -- The length is written right in front of the body, the header in front of the length.
    have covered : Arena.overwrite (Arena.overwrite buf (maxFixedHeaderSize - remainingLen.length)
        (remainingLen ++ body)) (maxFixedHeaderSize - remainingLen.length - [header.byte].length)
          [header.byte] =
        Arena.overwrite buf (maxFixedHeaderSize - remainingLen.length - [header.byte].length)
          ([header.byte] ++ (remainingLen ++ body)) :=
      Arena.overwrite_prepend (by simp only [List.length_singleton]; omega) (by omega)
    rw [← Arena.overwrite_prepend (by omega) fits] at covered
    have start : maxFixedHeaderSize + body.length -
        (header.byte :: (remainingLen ++ body)).length =
          maxFixedHeaderSize - remainingLen.length - 1 := by
      rw [List.length_cons, List.length_append]
      omega
    simp only [if_neg room, Hoare.set_apply, Hoare.bind_apply, Hoare.pure_apply, Option.map_some,
      start]
    rw [List.length_singleton, List.singleton_append] at covered
    rw [covered]
    have len : maxFixedHeaderSize + body.length - (maxFixedHeaderSize - remainingLen.length - 1) =
        (header.byte :: (remainingLen ++ body)).length := by
      rw [List.length_cons, List.length_append]
      omega
    rw [List.drop_take, len, Arena.slice_overwrite (by omega)]

/-- Without room for a header nothing can be encoded. -/
theorem finalize_small (header : FixedHeader) {serializer : Serializer}
    (small : serializer.buf.length < maxFixedHeaderSize) :
    finalize header serializer = .error .insufficientMemory serializer := by
  simp only [finalize, Hoare.bind_apply, Hoare.get_apply]
  cases writeMqttU32Varint ((serializer.index - maxFixedHeaderSize) % 2 ^ 32) with
  | none => rfl
  | some remainingLen =>
    simp only [if_pos small]
    rfl

/-- The serializer state that holds a body behind the reserved space. -/
def holding (buf body : Bytes) : Serializer :=
  ⟨Arena.overwrite buf maxFixedHeaderSize body, maxFixedHeaderSize + body.length⟩

end Serializer

/-- How encoding succeeds: the framed body is in the buffer, which kept its size. -/
structure Encoded (header : FixedHeader) (body : Bytes) (offset : Nat) (packet after : Bytes) :
    Prop where
  /-- The packet frames the body. -/
  framed : frame header body = some packet
  /-- The body fits behind the reserved space. -/
  fits : maxFixedHeaderSize + body.length ≤ after.length
  /-- The packet ends where the body ends. -/
  ends : offset + packet.length = maxFixedHeaderSize + body.length
  /-- The packet is in the buffer. -/
  placed : (after.drop offset).take packet.length = packet

/-- Finishing a packet whose fields have been written. -/
theorem finalize_encoded (header : FixedHeader) {buf body : Bytes}
    (fits : maxFixedHeaderSize + body.length ≤ buf.length) :
    (∃ offset packet after index,
      Serializer.finalize header (Serializer.holding buf body) =
        .ok (offset, packet) ⟨after, index⟩ ∧ after.length = buf.length ∧
      Encoded header body offset packet after) ∨
    (frame header body = none ∧ ∃ after,
      Serializer.finalize header (Serializer.holding buf body) =
        .error .insufficientMemory after ∧ after.buf.length = buf.length) := by
  rw [Serializer.holding, Serializer.finalize_apply header fits]
  -- The length in front of the body is all that can fail.
  cases framed : frame header body with
  | none => exact .inr ⟨rfl, _, rfl, Arena.length_overwrite fits⟩
  | some packet =>
    have := frame_length framed
    have size : (Arena.overwrite buf (maxFixedHeaderSize + body.length - packet.length)
        packet).length = buf.length := Arena.length_overwrite (by omega)
    exact .inl ⟨_, _, _, _, rfl, size, framed, by omega, by omega,
      Arena.slice_overwrite (by omega)⟩

/-- Encoding a packet writes its framed fields, or fails for one of three reasons. -/
theorem encodeWithOffset_cases [ControlPacket α] (buf : Bytes) (packet : α) :
    (∃ body offset bytes after, encodeWithOffset buf packet = (.ok (offset, bytes), after) ∧
      after.length = buf.length ∧ tokenBytes (ControlPacket.tokens packet) = some body ∧
      Encoded (ControlPacket.fixedHeader packet) body offset bytes after) ∨
    (∃ error after, encodeWithOffset buf packet = (.error error, after) ∧
      after.length = buf.length ∧
      ∀ body, tokenBytes (ControlPacket.tokens packet) = some body →
        maxFixedHeaderSize + body.length ≤ buf.length →
        frame (ControlPacket.fixedHeader packet) body = none) := by
  have pushed := Serializer.pushTokens_pushed (ControlPacket.tokens packet) (Serializer.new buf)
  simp only [encodeWithOffset, EStateM.run, Hoare.bind_apply]
  revert pushed
  cases Serializer.pushTokens (ControlPacket.tokens packet) (Serializer.new buf) with
  | error error after =>
    rintro ⟨same, short⟩
    refine .inr ⟨error, after.buf, rfl, same, fun body some fits => ?_⟩
    have := short body some
    simp only [Serializer.new] at this
    omega
  | ok value after =>
    rintro ⟨body, some, room, rfl⟩
    by_cases fits : maxFixedHeaderSize + body.length ≤ buf.length
    · rcases finalize_encoded (ControlPacket.fixedHeader packet) fits with
        ⟨offset, bytes, after, index, done, same, encoded⟩ | ⟨none, after, failed, same⟩
      · refine .inl ⟨body, offset, bytes, after, ?_, same, some, encoded⟩
        simp only [Serializer.new, Serializer.holding] at done ⊢
        rw [done]
        rfl
      · refine .inr ⟨.insufficientMemory, after.buf, ?_, same, ?_⟩
        · simp only [Serializer.new, Serializer.holding] at failed ⊢
          rw [failed]
          rfl
        · intro other found _
          rw [some] at found
          cases found
          exact none
    · -- The empty body of a packet without fields needs no room, but its header does.
      have empty : body = [] := room.resolve_right fits
      subst empty
      have small : buf.length < maxFixedHeaderSize := by
        simp only [List.length_nil] at fits
        omega
      refine .inr ⟨.insufficientMemory, buf, ?_, rfl, ?_⟩
      · simp only [Serializer.new, Arena.overwrite_nil, List.length_nil, Nat.add_zero]
        rw [Serializer.finalize_small _ small]
        rfl
      · intro other found room
        rw [some] at found
        cases found
        exact absurd room fits

/-- The data a payload leaves in the space it is given: what it wrote, up to the claimed length. -/
def Payload.Fills (payload : Payload π) (space data : Bytes) : Prop :=
  ∃ len written, payload.serialize space = (.ok len, written) ∧ len ≤ space.length ∧
    data = written.take len

/-- How writing a payload ends: its data is behind the fields, or the buffer kept its size. -/
def PayloadPushed (payload : Payload π) (serializer : Serializer) :
    EStateM.Result (SerError ⊕ π) Serializer Unit → Prop
  | .ok _ after => after.buf.length = serializer.buf.length ∧
      ∃ data, payload.Fills (serializer.buf.drop serializer.index) data ∧
        after.index = serializer.index + data.length ∧
        after.buf.take after.index = serializer.buf.take serializer.index ++ data
  | .error _ after => after.buf.length = serializer.buf.length

/-- Writing a payload keeps the size of the buffer and what is in front of it. -/
theorem pushPayload_pushed (payload : Payload π) (serializer : Serializer) :
    PayloadPushed payload serializer (Serializer.pushPayload payload serializer) := by
  obtain ⟨buf, index⟩ := serializer
  have space : buf.drop (min index buf.length) = buf.drop index := by
    rcases Nat.le_total index buf.length with within | beyond
    · rw [Nat.min_eq_left within]
    · rw [Nat.min_eq_right beyond, List.drop_of_length_le (Nat.le_refl _),
        List.drop_of_length_le beyond]
  have front : buf.take (min index buf.length) = buf.take index := by
    rw [← List.take_take, List.take_length]
  have same := payload.sameLength (buf.drop index)
  have size : (buf.take index ++ (payload.serialize (buf.drop index)).2).length = buf.length := by
    rw [List.length_append, same, List.length_take, List.length_drop]
    omega
  simp only [Serializer.pushPayload, Hoare.bind_apply, Hoare.get_apply, Hoare.set_apply, space,
    front]
  cases claimed : (payload.serialize (buf.drop index)).1 with
  | error error => exact size
  | ok len =>
    by_cases full : buf.length - index < len
    · simp only [if_pos full]
      exact size
    · simp only [if_neg full]
      rw [List.length_drop] at same
      have wrote : ((payload.serialize (buf.drop index)).2.take len).length = len := by
        rw [List.length_take, same]
        omega
      refine ⟨size, _, ⟨len, _, Prod.ext claimed rfl, ?_, rfl⟩, ?_, ?_⟩
      · rw [List.length_drop]
        exact Nat.le_of_not_lt full
      · dsimp only
        rw [wrote]
      · dsimp only
        rcases Nat.le_total index buf.length with within | beyond
        · rw [List.take_append, List.take_of_length_le (by rw [List.length_take]; omega),
            List.length_take, Nat.min_eq_left within, Nat.add_sub_cancel_left]
        · -- There is no space behind the buffer, so nothing was claimed.
          have nothing : (payload.serialize (buf.drop index)).2 = [] :=
            List.eq_nil_of_length_eq_zero (by omega)
          obtain rfl : len = 0 := by omega
          rw [nothing, List.take_zero, List.append_nil, Nat.add_zero, List.take_take, Nat.min_self]

/-- Encoding a publication writes a framed body, or fails and keeps the size of the buffer. -/
theorem encodePublishWithOffset_cases [ControlPacket α] (buf : Bytes) (header : α)
    (payload : Payload π) :
    (∃ body offset bytes after,
      encodePublishWithOffset buf header payload = (.ok (offset, bytes), after) ∧
      after.length = buf.length ∧
      Encoded (ControlPacket.fixedHeader header) body offset bytes after ∧
      ∃ fields data, tokenBytes (ControlPacket.tokens header) = some fields ∧
        payload.Fills (buf.drop (maxFixedHeaderSize + fields.length)) data ∧
        body = fields ++ data) ∨
    (∃ error after, encodePublishWithOffset buf header payload = (.error error, after) ∧
      after.length = buf.length) := by
  have pushed := Serializer.pushTokens_pushed (ControlPacket.tokens header) (Serializer.new buf)
  simp only [encodePublishWithOffset, EStateM.run, Hoare.bind_apply, Hoare.adaptExcept_apply]
  revert pushed
  cases Serializer.pushTokens (ControlPacket.tokens header) (Serializer.new buf) with
  | error error after =>
    rintro ⟨same, -⟩
    exact .inr ⟨_, after.buf, rfl, same⟩
  | ok value behind =>
    rintro ⟨fields, tokens, room, rfl⟩
    have size : (Arena.overwrite buf maxFixedHeaderSize fields).length = buf.length := by
      rcases room with rfl | room
      · rw [Arena.overwrite_nil]
      · exact Arena.length_overwrite room
    have written := pushPayload_pushed payload (Serializer.mk
      (Arena.overwrite buf maxFixedHeaderSize fields) (maxFixedHeaderSize + fields.length))
    simp only [Serializer.new]
    revert written
    cases Serializer.pushPayload payload (Serializer.mk
      (Arena.overwrite buf maxFixedHeaderSize fields)
      (maxFixedHeaderSize + fields.length)) with
    | error error after => exact fun same => .inr ⟨_, after.buf, rfl, Eq.trans same size⟩
    | ok value whole =>
      rintro ⟨same, data, fills, index, content⟩
      simp only [size] at same index content
      by_cases small : buf.length < maxFixedHeaderSize
      · refine .inr ⟨.inl .insufficientMemory, whole.buf, ?_, same⟩
        simp only [Serializer.finalize_small _ (same ▸ small)]
        rfl
      · rw [Arena.take_overwrite_end, List.append_assoc] at content
        rw [Arena.drop_overwrite_end (by omega)] at fills
        have fits : maxFixedHeaderSize + (fields ++ data).length ≤ whole.buf.length := by
          obtain ⟨len, output, -, claimed, rfl⟩ := fills
          rw [List.length_drop] at claimed
          rw [List.length_append, List.length_take]
          rcases room with rfl | room
          · rw [List.length_nil] at claimed ⊢
            omega
          · simp only [Serializer.new] at room
            omega
        -- What lies behind the reserved space is the body, payload included.
        have state : whole = Serializer.holding whole.buf (fields ++ data) := by
          have ends : whole.index = maxFixedHeaderSize + (fields ++ data).length := by
            rw [index, List.length_append, Nat.add_assoc]
          have body : (whole.buf.drop maxFixedHeaderSize).take (fields ++ data).length =
              fields ++ data := by
            rw [← Nat.add_sub_cancel_left maxFixedHeaderSize (fields ++ data).length, ← ends,
              ← List.drop_take, content, List.drop_left']
            rw [List.length_take]
            omega
          rw [Serializer.holding, ← body, Arena.overwrite_self, body, ← ends]
        rcases finalize_encoded (ControlPacket.fixedHeader header) fits with
          ⟨offset, bytes, after, index, done, kept, encoded⟩ | ⟨-, after, failed, kept⟩
        · rw [← state] at done
          simp only [done]
          exact .inl ⟨_, offset, bytes, after, rfl, kept.trans same, encoded, fields, data, tokens,
            fills, rfl⟩
        · rw [← state] at failed
          simp only [failed]
          exact .inr ⟨_, after.buf, rfl, kept.trans same⟩

/-- An encoded packet is a framed body. -/
theorem framed_of_encode [ControlPacket α] {buf : Bytes} {packet : α} {offset : Nat} {bytes : Bytes}
    (encoded : (encodeWithOffset buf packet).1 = .ok (offset, bytes)) :
    ∃ body, frame (ControlPacket.fixedHeader packet) body = some bytes := by
  rcases encodeWithOffset_cases buf packet with
    ⟨body, offset, bytes, after, done, -, -, whole⟩ | ⟨error, after, failed, -⟩
  · rw [done] at encoded
    cases encoded
    exact ⟨body, whole.framed⟩
  · rw [failed] at encoded
    cases encoded

/-- An encoded publication is a framed body. -/
theorem framed_of_encodePublish [ControlPacket α] {buf : Bytes} {header : α} {payload : Payload π}
    {offset : Nat} {bytes : Bytes}
    (encoded : (encodePublishWithOffset buf header payload).1 = .ok (offset, bytes)) :
    ∃ body, frame (ControlPacket.fixedHeader header) body = some bytes := by
  rcases encodePublishWithOffset_cases buf header payload with
    ⟨body, offset, bytes, after, done, -, whole, -⟩ | ⟨error, after, failed, -⟩
  · rw [done] at encoded
    cases encoded
    exact ⟨body, whole.framed⟩
  · rw [failed] at encoded
    cases encoded

/-- A packet whose fields fit behind the reserved space is framed. -/
theorem encode_of_fits [ControlPacket α] {buf : Bytes} {packet : α} {body bytes : Bytes}
    (fields : tokenBytes (ControlPacket.tokens packet) = some body)
    (fits : maxFixedHeaderSize + body.length ≤ buf.length)
    (framed : frame (ControlPacket.fixedHeader packet) body = some bytes) :
    encode buf packet = .ok bytes := by
  unfold encode
  rcases encodeWithOffset_cases buf packet with
    ⟨other, offset, packed, after, done, -, same, whole⟩ | ⟨error, after, failed, -, short⟩
  · -- Encoding writes the same fields, so it frames the same body.
    rw [fields, Option.some.injEq] at same
    have bytes := whole.framed
    rw [← same, framed, Option.some.injEq] at bytes
    rw [done, bytes]
    rfl
  · have none := short body fields fits
    simp [framed] at none

end Minimq

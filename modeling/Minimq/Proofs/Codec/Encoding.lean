import Minimq.Proofs.Codec.Serializer

/-! What the serializer produces depends on the packet and on the size of the buffer only. -/

namespace Minimq

variable {α : Type}

/-- Whether a body and the reserved header in front of it fit a buffer; no field needs no room. -/
def BodyFits (size : Nat) (body : Bytes) : Prop :=
  body = [] ∨ maxFixedHeaderSize + body.length ≤ size

/-- Collect the bytes of fields behind a body, in a buffer of a given size. -/
def collect (size : Nat) : Bytes → List Token → Except SerError Bytes
  | body, [] => .ok body
  | body, .push data :: rest =>
    if size - (maxFixedHeaderSize + body.length) < data.length then .error .insufficientMemory
    else collect size (body ++ data) rest
  | _, .refuse :: _ => .error .custom

/-- Put a header in front of a body, in a buffer of a given size. -/
def complete (size : Nat) (header : FixedHeader) (body : Bytes) : Except SerError (Nat × Bytes) :=
  if size < maxFixedHeaderSize then .error .insufficientMemory
  else match frame header body with
    | none => .error .insufficientMemory
    | some packet => .ok (maxFixedHeaderSize + body.length - packet.length, packet)

/-- The encoding of a packet in a buffer of a given size. -/
def packetIn [ControlPacket α] (size : Nat) (packet : α) : Except SerError (Nat × Bytes) := do
  complete size (ControlPacket.fixedHeader packet)
    (← collect size [] (ControlPacket.tokens packet))

/-- The encoding of a publication of a byte slice in a buffer of a given size. -/
def publishIn [ControlPacket α] (size : Nat) (header : α) (data : Bytes) :
    Except (SerError ⊕ Unit) (Nat × Bytes) := do
  let fields ← (collect size [] (ControlPacket.tokens header)).mapError .inl
  if size - (maxFixedHeaderSize + fields.length) < data.length then throw (.inr ())
  (complete size (ControlPacket.fixedHeader header) (fields ++ data)).mapError .inl

namespace Serializer

variable {buf body : Bytes}

theorem holding_nil : holding buf [] = new buf := by
  simp [holding, new]

theorem length_holding (fits : BodyFits buf.length body) :
    (holding buf body).buf.length = buf.length := by
  rcases fits with rfl | fits
  · simp [holding]
  · exact Arena.length_overwrite fits

theorem holding_append (fits : BodyFits buf.length body) (data : Bytes) :
    Serializer.mk (Arena.overwrite (holding buf body).buf (holding buf body).index data)
      ((holding buf body).index + data.length) = holding buf (body ++ data) := by
  rcases fits with rfl | fits
  · simp [holding]
  · simp only [holding]
    rw [Arena.overwrite_overwrite fits, List.length_append, Nat.add_assoc]

/-- Data that is accepted leaves a body that fits. -/
theorem fits_append {size : Nat} {data : Bytes} (fits : BodyFits size body)
    (room : ¬ size - (maxFixedHeaderSize + body.length) < data.length) :
    BodyFits size (body ++ data) := by
  cases data with
  | nil => rwa [List.append_nil]
  | cons byte data =>
    refine .inr ?_
    rw [List.length_append]
    simp only [List.length_cons] at room ⊢
    omega

theorem pushTokens_holding (tokens : List Token) (fits : BodyFits buf.length body) :
    match collect buf.length body tokens with
    | .ok whole => pushTokens tokens (holding buf body) = .ok () (holding buf whole) ∧
        BodyFits buf.length whole
    | .error error => ∃ after, pushTokens tokens (holding buf body) = .error error after := by
  -- The body grows with every field that is written.
  induction tokens generalizing body with
  | nil => exact ⟨rfl, fits⟩
  | cons token rest ih =>
    cases token with
    | refuse => exact ⟨_, rfl⟩
    | push data =>
      simp only [pushTokens, Hoare.bind_apply, pushBytes_apply, collect, length_holding fits]
      by_cases full : buf.length - (maxFixedHeaderSize + body.length) < data.length
      · rw [if_pos full]
        refine ⟨holding buf body, ?_⟩
        rw [if_pos (by exact full)]
      · rw [if_neg full, if_neg (by exact full)]
        simp only [holding_append fits]
        exact ih (fits_append fits full)

/-- Finishing a packet completes its body. -/
theorem finalize_holding (header : FixedHeader) (fits : BodyFits buf.length body) :
    match complete buf.length header body with
    | .ok packet => ∃ after, finalize header (holding buf body) = .ok packet after
    | .error error => ∃ after, finalize header (holding buf body) = .error error after := by
  unfold complete
  -- A buffer without room for the header is refused before anything else.
  by_cases small : buf.length < maxFixedHeaderSize
  · rw [if_pos small]
    exact ⟨_, finalize_small header (by rwa [length_holding fits])⟩
  · rw [if_neg small]
    have room : maxFixedHeaderSize + body.length ≤ buf.length := by
      rcases fits with rfl | fits
      · simpa using small
      · exact fits
    unfold holding
    rw [finalize_apply header room]
    cases frame header body with
    | none => exact ⟨_, rfl⟩
    | some packet => exact ⟨_, rfl⟩

/-- A byte slice extends the body, if there is room. -/
theorem pushPayload_holding (data : Bytes) (fits : BodyFits buf.length body) :
    if buf.length - (maxFixedHeaderSize + body.length) < data.length then
      ∃ after, pushPayload (.ofBytes data) (holding buf body) = .error (.inr ()) after
    else pushPayload (.ofBytes data) (holding buf body) = .ok () (holding buf (body ++ data)) := by
  have size := length_holding fits
  have index : (holding buf body).index = maxFixedHeaderSize + body.length := rfl
  have space : ((holding buf body).buf.drop
      (min (holding buf body).index (holding buf body).buf.length)).length =
        buf.length - (maxFixedHeaderSize + body.length) := by
    rw [List.length_drop, size, index]
    omega
  simp only [pushPayload, Hoare.bind_apply, Hoare.get_apply, Hoare.set_apply, Payload.ofBytes, space]
  by_cases full : buf.length - (maxFixedHeaderSize + body.length) < data.length
  · simp only [if_pos full]
    exact ⟨_, rfl⟩
  · simp only [if_neg full]
    rw [size, index, if_neg full]
    simp only [Hoare.set_apply]
    rw [← holding_append fits, index]
    congr 2
    have front : (holding buf body).buf.take (min (maxFixedHeaderSize + body.length) buf.length) =
        (holding buf body).buf.take (maxFixedHeaderSize + body.length) := by
      rw [← size, ← List.take_eq_take_min]
    rw [Arena.overwrite, List.append_assoc, List.drop_drop, front]
    congr 2
    rcases Nat.le_total (maxFixedHeaderSize + body.length) buf.length with within | beyond
    · rw [Nat.min_eq_left within]
    · -- Behind the end of the buffer there is nothing, and nothing was written.
      rw [List.drop_of_length_le, List.drop_of_length_le] <;> omega

end Serializer

/-- The serializer produces the same in every buffer of the same size. -/
theorem encodeWithOffset_eq [ControlPacket α] (buf : Bytes) (packet : α) :
    (encodeWithOffset buf packet).1 = packetIn buf.length packet := by
  have pushed := @Serializer.pushTokens_holding buf [] (ControlPacket.tokens packet) (.inl rfl)
  simp only [encodeWithOffset, EStateM.run, Hoare.bind_apply, packetIn]
  -- The body is collected first, and completing it is a function of its bytes.
  rw [Serializer.holding_nil] at pushed
  revert pushed
  cases collect buf.length [] (ControlPacket.tokens packet) with
  | error error =>
    rintro ⟨after, failed⟩
    rw [failed]
    rfl
  | ok body =>
    rintro ⟨written, fits⟩
    rw [written]
    have finished := Serializer.finalize_holding (ControlPacket.fixedHeader packet) fits
    revert finished
    cases whole : complete buf.length (ControlPacket.fixedHeader packet) body with
    | error error =>
      rintro ⟨after, failed⟩
      simp only [failed]
      exact whole.symm
    | ok bytes =>
      rintro ⟨after, done⟩
      simp only [done]
      exact whole.symm

/-- The serializer produces the same publication in every buffer of the same size. -/
theorem encodePublishWithOffset_eq [ControlPacket α] (buf : Bytes) (header : α) (data : Bytes) :
    (encodePublishWithOffset buf header (.ofBytes data)).1 = publishIn buf.length header data := by
  have pushed := @Serializer.pushTokens_holding buf [] (ControlPacket.tokens header) (.inl rfl)
  simp only [encodePublishWithOffset, EStateM.run, Hoare.bind_apply, Hoare.adaptExcept_apply,
    publishIn]
  -- The fields are collected, the payload copied, and the whole completed.
  rw [Serializer.holding_nil] at pushed
  revert pushed
  cases collect buf.length [] (ControlPacket.tokens header) with
  | error error =>
    rintro ⟨after, failed⟩
    rw [failed]
    rfl
  | ok fields =>
    rintro ⟨written, fits⟩
    rw [written]
    have payload := Serializer.pushPayload_holding data fits
    -- The payload has to fit behind the fields.
    by_cases full : buf.length - (maxFixedHeaderSize + fields.length) < data.length
    · rw [if_pos full] at payload
      obtain ⟨after, failed⟩ := payload
      simp only [failed]
      exact (if_pos full).symm
    · rw [if_neg full] at payload
      simp only [payload]
      have finished := Serializer.finalize_holding (ControlPacket.fixedHeader header)
        (Serializer.fits_append fits full)
      revert finished
      cases whole : complete buf.length (ControlPacket.fixedHeader header) (fields ++ data) with
      | error error =>
        rintro ⟨after, failed⟩
        simp only [failed]
        exact ((if_neg full).trans (congrArg (Except.mapError Sum.inl) whole)).symm
      | ok bytes =>
        rintro ⟨after, done⟩
        simp only [done]
        exact ((if_neg full).trans (congrArg (Except.mapError Sum.inl) whole)).symm

end Minimq

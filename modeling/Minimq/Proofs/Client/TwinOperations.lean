import Minimq.Proofs.Client.Twin

/-! Two connections side by side: the operations of an application do not tell them apart. -/

namespace Minimq

open Hoare Async

variable {τ ε α : Type} {left right : ClientWorld τ}

theorem SameUpTo.trans {used : Nat} {first second third : Bytes} (same : SameUpTo used first second)
    (also : SameUpTo used second third) : SameUpTo used first third :=
  ⟨also.size.trans same.size, also.kept.trans same.kept⟩

theorem SameUpTo.symm {used : Nat} {first second : Bytes} (same : SameUpTo used first second) :
    SameUpTo used second first :=
  ⟨same.size.symm, same.kept.symm⟩

theorem SameUpTo.extend {used : Nat} {first second packet : Bytes}
    (same : SameUpTo used first second) (own : (first.drop used).take packet.length = packet)
    (other : (second.drop used).take packet.length = packet) :
    SameUpTo (used + packet.length) first second :=
  ⟨same.size, by rw [List.take_add, List.take_add, same.kept, own, other]⟩

namespace Outbound

variable {outbound : Outbound} {buf : Bytes}

/-- Packing the same packet, encoded in two arenas. -/
theorem packEncoded_alike (same : outbound.Repainted buf) {own other packet : Bytes} {offset : Nat}
    (size : own.length ≤ outbound.buf.length - outbound.retainedBytes)
    (size' : other.length = own.length)
    (encoded : (own.drop offset).take packet.length = packet)
    (encoded' : (other.drop offset).take packet.length = packet) (nonempty : 0 < packet.length) :
    (∃ error, ({ outbound with
        buf := Arena.overwrite outbound.buf outbound.retainedBytes own } :
          Outbound).packEncoded offset packet.length = .error error ∧
      ({ outbound with buf := Arena.overwrite buf outbound.retainedBytes other } :
          Outbound).packEncoded offset packet.length = .error error) ∨
    ∃ own' other', ({ outbound with
        buf := Arena.overwrite outbound.buf outbound.retainedBytes own } :
          Outbound).packEncoded offset packet.length = .ok { outbound with buf := own' } ∧
      ({ outbound with buf := Arena.overwrite buf outbound.retainedBytes other } :
          Outbound).packEncoded offset packet.length = .ok { outbound with buf := other' } ∧
      SameUpTo (outbound.retainedBytes + packet.length) own' other' := by
  have kept : SameUpTo outbound.retainedBytes outbound.buf
      (Arena.overwrite outbound.buf outbound.retainedBytes own) := .overwrite size
  have kept' : SameUpTo outbound.retainedBytes buf
      (Arena.overwrite buf outbound.retainedBytes other) :=
    .overwrite (by rw [same.size]; omega)
  -- Whether there is room depends on the size of the arena only.
  have decides : ∀ arena : Bytes, arena.length = outbound.buf.length →
      ({ outbound with buf := arena } : Outbound).packEncoded offset packet.length =
        if outbound.retainedCapacity - outbound.retainedBytes < packet.length then
          .error .bufferTooSmall
        else .ok { outbound with
          buf := Arena.copyWithin arena (outbound.retainedBytes + offset)
            (outbound.retainedBytes + offset + packet.length) outbound.retainedBytes } := by
    intro arena length
    have capacity : ({ outbound with buf := arena } : Outbound).retainedCapacity =
        outbound.retainedCapacity := by
      simp only [retainedCapacity, length]
    unfold packEncoded
    dsimp only
    rw [capacity]
    rfl
  have done := decides _ kept.size
  have done' := decides _ (kept'.size.trans same.size)
  by_cases full : outbound.retainedCapacity - outbound.retainedBytes < packet.length
  · rw [if_pos full] at done done'
    exact .inl ⟨_, done, done'⟩
  · rw [if_neg full] at done done'
    obtain ⟨own', again, placed⟩ := packEncoded_placed size encoded nonempty done
    obtain ⟨other', again', placed'⟩ := @packEncoded_placed { outbound with buf } _ _ _ _
      (by simp only [retainedBytes_buf, same.size]; omega) encoded' nonempty done'
    rw [again] at done
    rw [again'] at done'
    refine .inr ⟨own', other', done, done', SameUpTo.extend ?_ placed.placed placed'.placed⟩
    exact placed.kept.symm.trans (same.trans placed'.kept)

/-- Two arenas that hold the same packets, and the same bytes behind them up to a length. -/
def Extended (outbound : Outbound) (len : Nat) (own other : Outbound) : Prop :=
  ∃ buf buf', own = { outbound with buf } ∧ other = { outbound with buf := buf' } ∧
    SameUpTo (outbound.retainedBytes + len) buf buf'

theorem extended_scratch (same : outbound.Repainted buf) {own other : Bytes}
    (size : own.length ≤ outbound.buf.length - outbound.retainedBytes)
    (size' : other.length = own.length) : outbound.Extended 0
      { outbound with buf := Arena.overwrite outbound.buf outbound.retainedBytes own }
      { outbound with buf := Arena.overwrite buf outbound.retainedBytes other } :=
  ⟨_, _, rfl, rfl, (SameUpTo.overwrite size).symm.trans
    (same.trans (SameUpTo.overwrite (by rw [same.size]; omega)))⟩

/-- Packing an encoded packet in two arenas. -/
theorem pack_agree (same : outbound.Repainted buf) (refuse : ResourceError → ε)
    {own other packet : Bytes} {offset : Nat}
    (size : own.length ≤ outbound.buf.length - outbound.retainedBytes)
    (size' : other.length = own.length)
    (encoded : (own.drop offset).take packet.length = packet)
    (encoded' : (other.drop offset).take packet.length = packet) (nonempty : 0 < packet.length) :
    both (match ({ outbound with
          buf := Arena.overwrite outbound.buf outbound.retainedBytes own } :
            Outbound).packEncoded offset packet.length with
        | .error error => throw (refuse error)
        | .ok packed => do
          set packed
          return packet.length : EStateM ε Outbound Nat)
      (match ({ outbound with buf := Arena.overwrite buf outbound.retainedBytes other } :
            Outbound).packEncoded offset packet.length with
        | .error error => throw (refuse error)
        | .ok packed => do
          set packed
          return packet.length : EStateM ε Outbound Nat)
      (fun len len' own other => len = len' ∧ outbound.Extended len own other)
      (fun _ own other => outbound.Extended 0 own other)
      { outbound with buf := Arena.overwrite outbound.buf outbound.retainedBytes own }
      { outbound with buf := Arena.overwrite buf outbound.retainedBytes other } := by
  obtain ⟨error, refused, refused'⟩ | ⟨own, other, packed, packed', extended⟩ :=
    packEncoded_alike same size size' encoded encoded' nonempty
  · rw [refused, refused']
    exact ⟨rfl, extended_scratch same size size'⟩
  · rw [packed, packed']
    exact ⟨rfl, own, other, rfl, rfl, extended⟩

theorem encodePacket_agree [ControlPacket α] (same : outbound.Repainted buf) (packet : α) :
    both (encodePacket packet) (encodePacket packet)
      (fun len len' own other => len = len' ∧ outbound.Extended len own other)
      (fun _ own other => outbound.Extended 0 own other) outbound { outbound with buf } := by
  have space : outbound.scratchSpace.length = outbound.buf.length - outbound.retainedBytes := by
    simp [scratchSpace]
  have space' : (scratchSpace { outbound with buf }).length = outbound.scratchSpace.length := by
    simp [scratchSpace, same.size, retainedBytes_buf]
  -- What is encoded depends on the length of the scratch space only.
  have agree : (encodeWithOffset (scratchSpace { outbound with buf }) packet).1 =
      (encodeWithOffset outbound.scratchSpace packet).1 := by
    rw [encodeWithOffset_eq, encodeWithOffset_eq, space']
  unfold encodePacket packetEncoding
  simp only [both_get_bind, both_set_bind, retainedBytes_buf]
  rcases encodeWithOffset_cases outbound.scratchSpace packet with
    ⟨body, offset, bytes, own, done, size, -, encoded⟩ | ⟨error, own, failed, size, -⟩
  · rcases encodeWithOffset_cases (scratchSpace { outbound with buf }) packet with
      ⟨body', offset', bytes', other, done', size', -, encoded'⟩ | ⟨error', other, failed', -, -⟩
    · have fits : own.length ≤ outbound.buf.length - outbound.retainedBytes := by omega
      have length : other.length = own.length := by omega
      have nonempty := (frame_length encoded.framed).1
      -- Both encodings succeed with the same bytes, which the same place takes.
      rw [done, done'] at agree
      cases agree
      rw [done, done']
      exact pack_agree same (fun _ => ProtocolError.encode .insufficientMemory) fits length
        encoded.placed encoded'.placed (by omega)
    · rw [done, failed'] at agree
      cases agree
  · rcases encodeWithOffset_cases (scratchSpace { outbound with buf }) packet with
      ⟨body', offset', bytes', other, done', -, -, -⟩ | ⟨error', other, failed', size', -⟩
    · rw [failed, done'] at agree
      cases agree
    · have fits : own.length ≤ outbound.buf.length - outbound.retainedBytes := by omega
      have length : other.length = own.length := by omega
      rw [failed, failed'] at agree
      cases agree
      rw [failed, failed']
      exact ⟨rfl, extended_scratch same fits length⟩

theorem encodePublish_agree (same : outbound.Repainted buf) (header : PublishHeader)
    (data : Bytes) :
    both (encodePublish header (.ofBytes data) : EStateM (PubError Unit τ) Outbound Nat)
      (encodePublish header (.ofBytes data))
      (fun len len' own other => len = len' ∧ outbound.Extended len own other)
      (fun _ own other => outbound.Extended 0 own other) outbound { outbound with buf } := by
  -- The workspace for the next connection is set aside in both arenas.
  have capacity : ({ outbound with buf } : Outbound).retainedCapacity =
      outbound.retainedCapacity := by
    simp only [retainedCapacity, same.size]
  have space : ((outbound.buf.take outbound.retainedCapacity).drop
      outbound.retainedBytes).length ≤ outbound.buf.length - outbound.retainedBytes := by
    rw [List.length_drop, List.length_take]
    omega
  have space' : ((buf.take outbound.retainedCapacity).drop outbound.retainedBytes).length =
      ((outbound.buf.take outbound.retainedCapacity).drop outbound.retainedBytes).length := by
    rw [List.length_drop, List.length_take, List.length_drop, List.length_take, same.size]
  have agree : (encodePublishWithOffset
      ((buf.take outbound.retainedCapacity).drop outbound.retainedBytes) header
        (.ofBytes data)).1 = (encodePublishWithOffset ((outbound.buf.take
          outbound.retainedCapacity).drop outbound.retainedBytes) header (.ofBytes data)).1 := by
    rw [encodePublishWithOffset_eq, encodePublishWithOffset_eq, space']
  unfold encodePublish publishEncoding
  simp only [both_get_bind, both_set_bind, retainedBytes_buf, capacity]
  rcases encodePublishWithOffset_cases ((outbound.buf.take outbound.retainedCapacity).drop
      outbound.retainedBytes) header (.ofBytes data) with
    ⟨body, offset, bytes, own, done, size, encoded, -⟩ | ⟨error, own, failed, size⟩
  · rcases encodePublishWithOffset_cases ((buf.take outbound.retainedCapacity).drop
        outbound.retainedBytes) header (.ofBytes data) with
      ⟨body', offset', bytes', other, done', size', encoded', -⟩ | ⟨error', other, failed', -⟩
    · have fits : own.length ≤ outbound.buf.length - outbound.retainedBytes := by omega
      have length : other.length = own.length := by omega
      have nonempty := (frame_length encoded.framed).1
      -- Both encodings succeed with the same bytes, which the same place takes.
      rw [done, done'] at agree
      cases agree
      rw [done, done']
      exact pack_agree same (fun error => PubError.session (.resource error)) fits length
        encoded.placed encoded'.placed (by omega)
    · rw [done, failed'] at agree
      cases agree
  · rcases encodePublishWithOffset_cases ((buf.take outbound.retainedCapacity).drop
        outbound.retainedBytes) header (.ofBytes data) with
      ⟨body', offset', bytes', other, done', -, -⟩ | ⟨error', other, failed', size'⟩
    · rw [failed, done'] at agree
      cases agree
    · have fits : own.length ≤ outbound.buf.length - outbound.retainedBytes := by omega
      have length : other.length = own.length := by omega
      rw [failed, failed'] at agree
      cases agree
      rw [failed, failed']
      cases error with
      | inl error => exact ⟨rfl, extended_scratch same fits length⟩
      | inr error => exact ⟨rfl, extended_scratch same fits length⟩

end Outbound

theorem Connection.Alike.extended {left right : Connection} {own other : Outbound} {len : Nat}
    (alike : left.Alike right) (extended : left.outbound.Extended len own other) :
    (left.mapOutbound fun _ => own).Alike (right.mapOutbound fun _ => other) := by
  obtain ⟨buf, buf', rfl, rfl, same⟩ := extended
  exact @setOutbound _ _ { left.outbound with buf } _ alike (same.mono (Nat.le_add_right _ _))

/-- Keeping the packet encoded last, which is the same in both arenas. -/
theorem retainPacket_alike {outbound own other : Outbound} {len : Nat}
    (extended : outbound.Extended len own other) (kind : OpKind) (packetId : UInt16) :
    (∃ error, own.retainPacket kind packetId len = .error error ∧
      other.retainPacket kind packetId len = .error error) ∨
    ∃ kept buf, own.retainPacket kind packetId len = .ok kept ∧
      other.retainPacket kind packetId len = .ok { kept with buf } ∧ kept.Repainted buf := by
  obtain ⟨buf, buf', rfl, rfl, same⟩ := extended
  unfold Outbound.retainPacket
  -- Both arenas have the same list of packets, so the same free slot.
  cases slot : outbound.retained.push ⟨kind, packetId, len, .write 0⟩ with
  | none => exact .inl ⟨_, rfl, rfl⟩
  | some retained =>
    refine .inr ⟨_, buf', rfl, rfl, ?_⟩
    -- The packet just encoded was shared, and it now counts as retained.
    have total : Outbound.bytesOf retained.toList = outbound.retainedBytes + len := by
      rw [FixedVec.toList_of_push slot]
      simp [Outbound.bytesOf, Outbound.retainedBytes]
    show SameUpTo (Outbound.bytesOf retained.toList) buf buf'
    rwa [total]

theorem noteAdmission_agree {β : Type} (twin : Twin left right) (before before' : Session)
    (kind : OpKind) (packetId : UInt16) (result : Except β (Nat × Bytes)) :
    both (noteAdmission before kind packetId result : Client τ ε Unit)
      (noteAdmission before' kind packetId result) (fun _ _ => Twin) (fun _ => Alike)
      left right := by
  cases result with
  | error error => exact twin
  | ok encoded => exact ⟨twin.toAlike.note _ _, twin.alive⟩

/-- An identifier that is not in use is the same for both arenas. -/
theorem SessionData.nextPacketIdLoop_repaint (fuel : Nat) (data : SessionData) (buf : Bytes) :
    nextPacketIdLoop fuel { data with outbound := { data.outbound with buf } } =
      (nextPacketIdLoop fuel data).map fun found =>
        (found.1, { found.2 with outbound := { found.2.outbound with buf } }) := by
  -- The search reads which identifiers are in use, never the arena.
  induction fuel generalizing data with
  | zero => rfl
  | succ fuel ih =>
    unfold nextPacketIdLoop
    dsimp only
    by_cases unused : (!data.outbound.hasRetained data.packetId.val &&
        !data.outbound.hasPendingRelease data.packetId.val) = true
    · rw [if_pos (by exact unused), if_pos unused]
      rfl
    · rw [if_neg (by exact unused), if_neg unused]
      exact ih { data with packetId := data.packetId.succ }

theorem takePacketId_agree (twin : Twin left right) :
    Agree Twin Alike (takePacketId : Client τ ε UInt16) left right := by
  -- Only the arena differs, and the search for an identifier does not read it.
  obtain ⟨buf, buffer, flushState, same, arena, -, -⟩ := twin.self
  have found : right.self.session.data.nextPacketId =
      left.self.session.data.nextPacketId.map fun found =>
        (found.1, { found.2 with outbound := { found.2.outbound with buf } }) := by
    rw [same]
    exact SessionData.nextPacketIdLoop_repaint _ _ _
  unfold Agree takePacketId
  simp only [currentSession, bind_assoc, pure_bind, both_self_bind, found]
  cases taken : left.self.session.data.nextPacketId with
  | none => exact ⟨rfl, twin.toAlike⟩
  | some next =>
    obtain ⟨packetId, data⟩ := next
    obtain ⟨-, -, cursor, rfl⟩ := SessionData.nextPacketIdLoop_eq_some taken
    exact ⟨rfl, twin.toAlike.update (twin.self.setData arena), twin.alive⟩

theorem admitRequest_agree [ControlPacket α] (twin : Twin left right) (kind : OpKind)
    (packetId : UInt16) (packet : α) :
    Agree Twin Alike (admitRequest kind packetId packet : Client τ (Error τ) Unit) left right := by
  have limit : right.self.session.runtime = left.self.session.runtime := twin.self.runtime
  obtain ⟨buf, same, arena⟩ := twin.self.outbound
  have encoding : (right.self.session.data.outbound.packetEncoding packet).1 =
      (left.self.session.data.outbound.packetEncoding packet).1 := by
    -- Both scratch spaces have the same length.
    have space : (Outbound.scratchSpace { left.self.session.data.outbound with buf }).length =
        left.self.session.data.outbound.scratchSpace.length := by
      simp [Outbound.scratchSpace, arena.size, Outbound.retainedBytes_buf]
    rw [same, Outbound.packetEncoding, Outbound.packetEncoding, encodeWithOffset_eq,
      encodeWithOffset_eq, space]
  unfold Agree admitRequest
  simp only [currentSession, currentOutbound, bind_assoc, pure_bind, both_self_bind, encoding]
  refine both_bind (both_zoom ?_)
  rw [show Connection.outbound right.self = _ from same]
  refine both_mono (Outbound.encodePacket_agree arena packet) (fun len len' own other => ?_)
    (fun error own other extended => ?_)
  · rintro ⟨rfl, extended⟩
    have alike := twin.toAlike.update (twin.self.extended extended)
    show both (Async.ofExcept (left.self.session.runtime.requirePacketSize len) >>= _)
      (Async.ofExcept (right.self.session.runtime.requirePacketSize len) >>= _) _ _ _ _
    rw [limit]
    cases left.self.session.runtime.requirePacketSize len with
    | error error => exact ⟨rfl, alike⟩
    | ok value =>
      have mine : (left.self.mapOutbound fun _ => own).outbound = own := rfl
      have theirs : (right.self.mapOutbound fun _ => other).outbound = other := rfl
      simp only [Async.ofExcept, pure_bind, both_self_bind, mine, theirs]
      -- A slot is free in both arenas or in none.
      obtain ⟨error, full, full'⟩ | ⟨kept, buf', slot, slot', arena'⟩ :=
        retainPacket_alike extended kind packetId
      · rw [full, full']
        exact ⟨rfl, alike⟩
      · rw [slot, slot']
        have alike := alike.update (alike.self.setOutbound arena')
        exact both_mono (noteAdmission_agree ⟨alike, twin.alive⟩ _ _ _ _ _)
          (fun _ _ _ _ twin => ⟨trivial, twin⟩) (fun _ _ _ => id)
  · exact ⟨rfl, twin.toAlike.update (twin.self.extended extended)⟩

theorem requireRetainedSlot_alike (alike : left.self.Alike right.self) :
    (requireRetainedSlot right.self.outbound : Except (Error τ) Unit) =
      requireRetainedSlot left.self.outbound := by
  obtain ⟨buf, same, -⟩ := alike.outbound
  simp only [Connection.outbound, same]
  rfl

theorem Connection.Alike.generation {left right : Connection} (alike : left.Alike right) :
    right.session.data.generation = left.session.data.generation := by
  obtain ⟨buf, buffer, flushState, rfl, -⟩ := alike
  rfl

theorem sendRequest_agree [ControlPacket α] (twin : Twin left right) (kind : OpKind)
    (packet : UInt16 → α) :
    Agree Alike Alike (sendRequest kind packet : Client τ (Error τ) Op) left right := by
  -- Each of the five calls keeps the two connections alike.
  refine (flushOutbound_agree twin).bind (fun _ left right twin => ?_) (fun _ _ _ => id)
  simp only [currentOutbound, currentSession, bind_assoc, pure_bind, both_self_bind,
    requireRetainedSlot_alike twin.self]
  cases (requireRetainedSlot left.self.outbound : Except (Error τ) Unit) with
  | error error => exact ⟨rfl, twin.toAlike⟩
  | ok value =>
    simp only [Async.ofExcept, pure_bind]
    refine (takePacketId_agree twin).bind (fun packetId _ _ twin => ?_) (fun _ _ _ => id)
    refine (admitRequest_agree twin _ _ _).bind (fun _ _ _ twin => ?_) (fun _ _ _ => id)
    refine (flushOutbound_agree twin).bind (fun _ left right twin => ?_) (fun _ _ _ => id)
    simp only [both_self_bind, twin.self.generation]
    exact ⟨rfl, twin.toAlike⟩

theorem subscribe_agree (alike : Alike left right) (topics : List TopicFilter)
    (properties : List Property) :
    Agree Alike Alike (subscribe topics properties : Client τ (Error τ) Op) left right := by
  unfold Agree subscribe
  simp only [both_self_bind, alike.self.live]
  -- The checks concern the liveness and the arguments, which are the same.
  refine both_ite Iff.rfl (fun _ => ⟨rfl, alike⟩) (fun alive => ?_)
  refine both_ite Iff.rfl (fun _ => ⟨rfl, alike⟩) (fun _ => ?_)
  exact both_ite Iff.rfl (fun _ => ⟨rfl, alike⟩)
    (fun _ => sendRequest_agree ⟨alike, by simpa using alive⟩ _ _)

theorem unsubscribe_agree (alike : Alike left right) (topics : List Utf8)
    (properties : List Property) :
    Agree Alike Alike (unsubscribe topics properties : Client τ (Error τ) Op) left right := by
  unfold Agree unsubscribe
  simp only [both_self_bind, alike.self.live]
  refine both_ite Iff.rfl (fun _ => ⟨rfl, alike⟩) (fun alive => ?_)
  refine both_ite Iff.rfl (fun _ => ⟨rfl, alike⟩) (fun _ => ?_)
  exact both_ite Iff.rfl (fun _ => ⟨rfl, alike⟩)
    (fun _ => sendRequest_agree ⟨alike, by simpa using alive⟩ _ _)

/-- Both connections have capacity, or none has. -/
theorem canPublish_alike (alike : left.self.Alike right.self) (qos : QoS) :
    right.self.canPublish qos = left.self.canPublish qos := by
  obtain ⟨buf, buffer, flushState, same, arena, -, -⟩ := alike
  -- Capacities are lengths of the arena and sums over the packets.
  have scratch : ({ left.self.outbound with buf } : Outbound).scratchLen =
      left.self.outbound.scratchLen := by
    rw [Outbound.scratchLen, Outbound.scratchLen, arena.size]
    rfl
  have retain : ({ left.self.outbound with buf } : Outbound).canRetain =
      left.self.outbound.canRetain := by
    have capacity : ({ left.self.outbound with buf } : Outbound).retainedCapacity =
        left.self.outbound.retainedCapacity := by
      rw [Outbound.retainedCapacity, Outbound.retainedCapacity, arena.size]
    unfold Outbound.canRetain
    rw [capacity]
    rfl
  rw [same, Connection.canPublish, Connection.canPublish, Session.canPublish, Session.canPublish]
  simp only [Connection.repaint, scratch, retain]

theorem effectiveQos_alike (alike : left.self.Alike right.self) (qos : QoS) :
    effectiveQos right.self.session qos = effectiveQos left.self.session qos := by
  obtain ⟨buf, buffer, flushState, same, -⟩ := alike
  rw [same]
  rfl

theorem flushPublication_agree (twin : Twin left right) :
    Agree Twin Alike (Async.mapError .session flushOutbound : Client τ (PubError Unit τ) Unit)
      left right := by
  refine both_mapError (both_mono (flushOutbound_agree twin) (fun _ _ _ _ => id)
    (fun stop _ _ alike => ?_))
  cases stop <;> exact alike

theorem writeAll_agree (alike : Alike left right) (bytes : Bytes) :
    both (writeAll bytes : Client τ (Error τ) Unit) (writeAll bytes)
      (fun _ _ after other => Alike after other ∧ after.self = left.self)
      (fun _ after other => Alike after other ∧ after.self = left.self) left right := by
  unfold writeAll
  rw [both_rounds_bind, alike.synced.replies]
  -- The rest to be written is the same in both after every round.
  refine both_iterate (fun _ after other => Alike after other ∧ after.self = left.self)
    ⟨alike, rfl⟩ (fun bytes current current' ⟨alike, same⟩ => ?_) (fun _ _ _ => id)
  refine both_ite Iff.rfl (fun _ => ⟨alike, same⟩) (fun _ => ?_)
  refine both_bind (both_write bytes alike.synced (fun result after after' synced own other => ?_)
    (fun _ _ _ synced own other => ⟨alike.settled synced own other, own.trans same⟩))
  have alike := alike.settled synced own other
  cases result with
  | error error => exact ⟨rfl, alike, own.trans same⟩
  | ok written =>
    exact both_ite Iff.rfl (fun _ => ⟨rfl, alike, own.trans same⟩)
      (fun _ => ⟨rfl, alike, own.trans same⟩)

/-- Encoding a publication behind the retained packets, and checking its size. -/
theorem encodeRetained_agree (twin : Twin left right) (header : PublishHeader) (data : Bytes) :
    both (encodeRetained header (.ofBytes data) : Client τ ε (Except (PubError Unit τ) Nat))
      (encodeRetained header (.ofBytes data))
      (fun result other after after' => result = other ∧ Twin after after' ∧
        ∀ len, result = .ok len → ∃ own own', after.self = left.self.mapOutbound (fun _ => own) ∧
          after'.self = right.self.mapOutbound (fun _ => own') ∧
          left.self.outbound.Extended len own own')
      (fun _ => Alike) left right := by
  have limit : right.self.session.runtime = left.self.session.runtime := twin.self.runtime
  obtain ⟨buf, same, arena⟩ := twin.self.outbound
  unfold encodeRetained
  refine both_bind (both_zoom ?_)
  rw [show Connection.outbound right.self = _ from same]
  -- The size of the packet is the same in both, and so is the limit.
  refine both_mono (Outbound.encodePublish_agree arena header data) (fun len len' own other => ?_)
    (fun error own other extended => ?_)
  · rintro ⟨rfl, extended⟩
    have alike := twin.toAlike.update (twin.self.extended extended)
    have limit : (right.self.mapOutbound fun _ => other).session.runtime =
        (left.self.mapOutbound fun _ => own).session.runtime := limit
    simp only [currentSession, bind_assoc, pure_bind, both_self_bind, limit]
    cases ((left.self.mapOutbound fun _ => own).session.runtime.requirePacketSize len :
        Except (Error τ) Unit) with
    | error error => exact ⟨rfl, ⟨alike, twin.alive⟩, fun _ other => by cases other⟩
    | ok value =>
      refine ⟨rfl, ⟨alike, twin.alive⟩, fun count known => ?_⟩
      cases known
      exact ⟨own, other, rfl, rfl, extended⟩
  · exact ⟨rfl, ⟨twin.toAlike.update (twin.self.extended extended), twin.alive⟩,
      fun _ other => by cases other⟩

/-- Keeping an encoded publication. -/
theorem retainPublication_agree {outbound : Outbound} {len : Nat} (twin : Twin left right)
    (extended : outbound.Extended len left.self.outbound right.self.outbound) (kind : OpKind)
    (packetId : UInt16) :
    Agree Twin Alike (retainPublication kind packetId len : Client τ (PubError Unit τ) Unit)
      left right := by
  unfold Agree retainPublication
  simp only [currentOutbound, bind_assoc, pure_bind, both_self_bind]
  obtain ⟨error, full, full'⟩ | ⟨kept, buf', slot, slot', arena⟩ :=
    retainPacket_alike extended kind packetId
  · rw [full, full']
    exact ⟨rfl, twin.toAlike⟩
  · rw [slot, slot']
    exact ⟨trivial, twin.toAlike.update ((twin.self.setOutbound arena).mapRuntime _), twin.alive⟩

theorem publishRetained_agree (twin : Twin left right) (header : PublishHeader) (data : Bytes)
    (packetId : UInt16) :
    Agree Alike Alike (publishRetained header (.ofBytes data) packetId :
      Client τ (PubError Unit τ) (Option Op)) left right := by
  -- A refusal comes behind a flush, which both connections perform.
  have refused {left right : ClientWorld τ} (twin : Twin left right) (error : PubError Unit τ) :
      both (do
        Async.mapError .session flushOutbound
        Async.fail error : Client τ (PubError Unit τ) (Option Op)) (do
        Async.mapError .session flushOutbound
        Async.fail error : Client τ (PubError Unit τ) (Option Op))
        (fun value other left right => value = other ∧ Alike left right) (fun _ => Alike)
        left right :=
    (flushPublication_agree twin).bind (fun _ _ _ twin => ⟨rfl, twin.toAlike⟩) (fun _ _ _ => id)
  have encoding : (right.self.session.data.outbound.publishEncoding header (.ofBytes data)).1 =
      (left.self.session.data.outbound.publishEncoding header (.ofBytes data)).1 := by
    obtain ⟨buf, same, arena⟩ := twin.self.outbound
    have space : ((buf.take (Outbound.retainedCapacity
        { left.self.session.data.outbound with buf })).drop
          left.self.session.data.outbound.retainedBytes).length =
        ((left.self.session.data.outbound.buf.take
          left.self.session.data.outbound.retainedCapacity).drop
            left.self.session.data.outbound.retainedBytes).length := by
      simp only [Outbound.retainedCapacity, List.length_drop, List.length_take, arena.size]
    rw [same, Outbound.publishEncoding, Outbound.publishEncoding, encodePublishWithOffset_eq,
      encodePublishWithOffset_eq]
    exact congrArg (publishIn · header data) space
  unfold Agree publishRetained
  simp only [currentOutbound, currentSession, bind_assoc, pure_bind, both_self_bind,
    requireRetainedSlot_alike twin.self]
  cases (requireRetainedSlot left.self.outbound : Except (Error τ) Unit) with
  | error error => exact refused twin _
  | ok value =>
    simp only [both_self_bind, canPublish_alike twin.self]
    refine both_ite Iff.rfl (fun _ => refused twin _) (fun _ => ?_)
    simp only [both_self_bind, encoding]
    refine both_bind (both_mono (encodeRetained_agree twin header data)
      (fun result other after after' => ?_) (fun _ _ _ => id))
    rintro ⟨rfl, twin', placed⟩
    cases result with
    | error error => exact refused twin' _
    | ok len =>
      obtain ⟨own, own', self, self', extended⟩ := placed len rfl
      -- The packet lies at the same place in both arenas.
      have extended : left.self.outbound.Extended len after.self.outbound after'.self.outbound := by
        rw [self, self']
        exact extended
      refine (retainPublication_agree twin' extended _ _).bind (fun _ _ _ twin => ?_)
        (fun _ _ _ => id)
      refine both_bind (both_mono (noteAdmission_agree twin _ _ _ _ _)
        (fun _ _ _ _ twin => ?_) (fun _ _ _ => id))
      refine (flushPublication_agree twin).bind (fun _ left right twin => ?_) (fun _ _ _ => id)
      simp only [both_self_bind, twin.self.generation]
      exact ⟨rfl, twin.toAlike⟩

theorem Alike.scratch (alike : Alike left right) {own other : Bytes}
    (size : own.length = left.self.session.data.outbound.scratchSpace.length)
    (size' : other.length = right.self.session.data.outbound.scratchSpace.length) :
    Alike
      { left with self := left.self.mapOutbound fun outbound =>
          { outbound with buf := Arena.overwrite outbound.buf outbound.retainedBytes own } }
      { right with self := right.self.mapOutbound fun outbound =>
          { outbound with buf := Arena.overwrite outbound.buf outbound.retainedBytes other } } := by
  obtain ⟨buf, same, arena⟩ := alike.self.outbound
  have room : own.length ≤ left.self.session.data.outbound.buf.length -
      left.self.session.data.outbound.retainedBytes := by
    rw [size, Outbound.scratchSpace, List.length_drop]
  have length : other.length = own.length := by
    rw [size', size, same, Outbound.scratchSpace, Outbound.scratchSpace, List.length_drop,
      List.length_drop, arena.size, Outbound.retainedBytes_buf]
  -- What lies behind the retained packets may differ from now on.
  have extended := alike.self.extended (Outbound.extended_scratch arena room length)
  refine alike.update ?_
  have again : (right.self.mapOutbound fun outbound =>
      { outbound with buf := Arena.overwrite outbound.buf outbound.retainedBytes other }) =
      right.self.mapOutbound fun _ => { left.self.session.data.outbound with
        buf := Arena.overwrite buf left.self.session.data.outbound.retainedBytes other } := by
    unfold Connection.mapOutbound Connection.mapData Connection.mapSession
    simp only [same, Outbound.retainedBytes_buf]
  rw [again]
  exact extended

theorem Connection.Alike.scratchSpace {left right : Connection} (alike : left.Alike right) :
    right.session.data.outbound.scratchSpace.length =
      left.session.data.outbound.scratchSpace.length := by
  obtain ⟨buf, same, arena⟩ := alike.outbound
  rw [same, Outbound.scratchSpace, Outbound.scratchSpace, List.length_drop, List.length_drop,
    arena.size, Outbound.retainedBytes_buf]

theorem encodeScratch_agree (twin : Twin left right) (header : PublishHeader) (data : Bytes) :
    Agree Twin Alike (encodeScratch header (.ofBytes data) : Client τ (PubError Unit τ) Bytes)
      left right := by
  -- The publication is encoded with a scratch space of the same length.
  have agree : (encodePublishWithOffset right.self.outbound.scratchSpace header
      (.ofBytes data)).1 = (encodePublishWithOffset left.self.outbound.scratchSpace
        header (.ofBytes data)).1 := by
    rw [encodePublishWithOffset_eq, encodePublishWithOffset_eq]
    exact congrArg (publishIn · header data) twin.self.scratchSpace
  have size (session : Session) :
      (encodePublishWithOffset session.data.outbound.scratchSpace header (.ofBytes data)).2.length =
        session.data.outbound.scratchSpace.length := by
    obtain ⟨_, _, _, _, done, same, -⟩ | ⟨_, _, failed, same⟩ :=
      encodePublishWithOffset_cases session.data.outbound.scratchSpace header (.ofBytes data)
    · rw [done]; exact same
    · rw [failed]; exact same
  have alike := twin.toAlike.scratch (size left.self.session) (size right.self.session)
  unfold Agree encodeScratch
  simp only [currentOutbound, updateOutbound, bind_assoc, pure_bind, both_self_bind, agree]
  rw [both_update_bind]
  rcases (encodePublishWithOffset left.self.outbound.scratchSpace header (.ofBytes data)).1 with
    (error | error) | ⟨offset, packet⟩
  · exact ⟨rfl, alike⟩
  · exact ⟨rfl, alike⟩
  · exact ⟨rfl, alike, twin.alive⟩

theorem publishDirect_agree (twin : Twin left right) (header : PublishHeader) (data : Bytes) :
    Agree Alike Alike (publishDirect header (.ofBytes data) :
      Client τ (PubError Unit τ) (Option Op)) left right := by
  unfold Agree publishDirect
  simp only [both_self_bind, canPublish_alike twin.self]
  -- Each check has the same outcome in both, before any byte is written.
  refine both_ite Iff.rfl (fun _ => ?_) (fun _ => ?_)
  · exact (flushPublication_agree twin).bind (fun _ _ _ twin => ⟨rfl, twin.toAlike⟩)
      (fun _ _ _ => id)
  refine (flushPublication_agree twin).bind (fun _ _ _ twin => ?_) (fun _ _ _ => id)
  refine (encodeScratch_agree twin header data).bind (fun packet left right twin => ?_)
    (fun _ _ _ => id)
  have limit : right.self.session.runtime = left.self.session.runtime := twin.self.runtime
  simp only [currentSession, bind_assoc, pure_bind, both_self_bind, limit]
  cases (left.self.session.runtime.requirePacketSize packet.length : Except (Error τ) Unit) with
  | error error => exact ⟨rfl, twin.toAlike⟩
  | ok value =>
    refine both_bind (both_mapError ?_)
    show both (Async.self >>= _) (Async.self >>= _) _ _ _ _
    simp only [both_self_bind, twin.self.live]
    refine both_ite Iff.rfl (fun _ => ⟨rfl, twin.toAlike⟩) (fun _ => ?_)
    rw [both_note_bind]
    refine both_bind (both_attempt (both_mono (writeAll_agree (twin.toAlike.note _ _) packet)
      (fun _ _ _ _ ⟨alike, _⟩ => ?_) (fun stop _ _ ⟨alike, _⟩ => ?_)))
    · -- The packet is written in both, and the flush settles in the same way.
      refine both_bind (both_flush alike.synced (fun result _ _ synced own other => ?_)
        (fun _ _ _ synced own other => alike.settled synced own other))
      have alike := alike.settled synced own other
      cases result with
      | error error => exact disconnected_agree alike _
      | ok value =>
        simp only [both_now_bind, both_note_bind, updateRuntime, both_update_bind,
          alike.synced.reading]
        exact ⟨rfl, (alike.sampled.note _ _).update (alike.self.mapRuntime _)⟩
    · cases stop with
      | error error => exact disconnected_agree alike _
      | dropped => exact alike
      | expired => exact alike

theorem publish_agree (alike : Alike left right) {publication : Publication Unit} {data : Bytes}
    (slice : publication.payload = .ofBytes data) :
    Agree Alike Alike (publish publication : Client τ (PubError Unit τ) (Option Op))
      left right := by
  unfold Agree publish
  simp only [both_self_bind, alike.self.live]
  refine both_ite Iff.rfl (fun _ => ⟨rfl, alike⟩) (fun alive => ?_)
  refine both_ite Iff.rfl (fun _ => ⟨rfl, alike⟩) (fun _ => ?_)
  have twin : Twin left right := ⟨alike, by simpa using alive⟩
  -- Both of the higher levels take an identifier and retain the packet.
  have retained (qos : QoS) : both (do
        let packetId ← takePacketId
        publishRetained ⟨publication.topic, some packetId, publication.properties,
          publication.retain, qos, false⟩ publication.payload packetId :
        Client τ (PubError Unit τ) (Option Op)) (do
        let packetId ← takePacketId
        publishRetained ⟨publication.topic, some packetId, publication.properties,
          publication.retain, qos, false⟩ publication.payload packetId :
        Client τ (PubError Unit τ) (Option Op))
      (fun value other left right => value = other ∧ Alike left right) (fun _ => Alike)
      left right := by
    rw [slice]
    exact (takePacketId_agree twin).bind (fun packetId _ _ twin =>
      publishRetained_agree twin _ data packetId) (fun _ _ _ => id)
  simp only [currentSession, bind_assoc, pure_bind, both_self_bind, effectiveQos_alike alike.self]
  cases effectiveQos left.self.session publication.qos with
  | none => exact ⟨rfl, alike⟩
  | some qos =>
    cases qos with
    | atMostOnce =>
      rw [slice]
      exact publishDirect_agree twin _ data
    | atLeastOnce => exact retained _
    | exactlyOnce => exact retained _

theorem writeTerminal_agree (alike : Alike left right) (packet : Bytes) :
    Agree Alike Alike (writeTerminal packet : Client τ (Error τ) Unit) left right := by
  refine both_bind (both_mono (writeAll_agree alike packet) (fun _ _ _ _ ⟨alike, _⟩ => ?_)
    (fun _ _ _ ⟨alike, _⟩ => alike))
  refine both_bind (both_flush alike.synced (fun result _ _ synced own other => ?_)
    (fun _ _ _ synced own other => alike.settled synced own other))
  have alike := alike.settled synced own other
  cases result with
  | error error => exact ⟨rfl, alike⟩
  | ok value => exact ⟨rfl, alike⟩

theorem sendDisconnect_agree (twin : Twin left right) (packet : Bytes) :
    Agree Alike Alike (sendDisconnect packet : Client τ (Error τ) Unit) left right := by
  have limit : right.self.session.runtime = left.self.session.runtime := twin.self.runtime
  unfold Agree sendDisconnect
  simp only [currentSession, bind_assoc, pure_bind, both_self_bind, limit]
  cases (left.self.session.runtime.requirePacketSize packet.length : Except (Error τ) Unit) with
  | error error => exact ⟨rfl, twin.toAlike⟩
  | ok value =>
    simp only [Async.ofExcept, pure_bind]
    refine (flushOutbound_agree twin).bind (fun _ _ _ twin => ?_) (fun _ _ _ => id)
    rw [both_note_bind]
    -- The packet ends the connection in both, however its write ends.
    refine both_bind (both_attempt (both_mono (writeTerminal_agree (twin.toAlike.note _ _) packet)
      (fun _ _ _ _ sent => ⟨trivial, sent.2.disconnect⟩) (fun stop _ _ alike => ?_)))
    cases stop with
    | error error => exact ⟨rfl, alike.disconnect⟩
    | dropped => exact alike
    | expired => exact alike

theorem disconnectWith_agree (alike : Alike left right) (disconnect : Disconnect) :
    Agree Alike Alike (disconnectWith disconnect : Client τ (Error τ) Unit) left right := by
  unfold Agree disconnectWith
  simp only [both_self_bind, alike.self.live]
  refine both_ite Iff.rfl (fun _ => ⟨trivial, alike⟩) (fun alive => ?_)
  refine both_ite Iff.rfl (fun _ => ⟨rfl, alike⟩) (fun _ => ?_)
  -- The packet is encoded in a buffer of its own, so both get the same bytes.
  cases encode smallBuf disconnect with
  | error error => exact ⟨rfl, alike⟩
  | ok packet =>
    exact both_mono (sendDisconnect_agree ⟨alike, by simpa using alive⟩ packet)
      (fun _ _ _ _ sent => ⟨trivial, sent.2⟩) (fun _ _ _ => id)

end Minimq

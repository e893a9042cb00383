import Minimq.Proofs.Client.Inbound

/-! Every inbound packet that requires an acknowledgement is given one, as long as there is room. -/

namespace Minimq

open Hoare

/-- A control packet is refused only if it exceeds the limit of the broker. -/
theorem checkControlPacketSize_eq_error {maximumPacketSize : Option UInt32} {action : ControlAction}
    {error : ProtocolError} (failed : checkControlPacketSize maximumPacketSize action = .error error) :
    error = .packetTooLarge ∧ exceeds maximumPacketSize action.wire.length = true := by
  unfold checkControlPacketSize requirePacketSize at failed
  simp only [encodeControlPacket_eq, bind, Except.bind] at failed
  split at failed
  · rename_i large
    exact ⟨(Except.error.inj failed).symm, large⟩
  · simp at failed

/-- A release is refused only if it exceeds the limit of the broker. -/
theorem checkPubrelSize_eq_error {maximumPacketSize : Option UInt32} {packetId : UInt16}
    {reason : ReasonCode} {error : ProtocolError}
    (failed : checkPubrelSize maximumPacketSize packetId reason = .error error) :
    error = .packetTooLarge := by
  unfold checkPubrelSize requirePacketSize at failed
  simp only [encodePubrel_eq, bind, Except.bind] at failed
  split at failed
  · exact (Except.error.inj failed).symm
  · simp at failed

/-- A queue that is not full takes another control packet. -/
theorem Outbound.queueControl_of_room {outbound : Outbound}
    (room : outbound.pendingControl.length < maxPendingControl) (action : ControlAction) :
    ∃ queued, outbound.queueControl action = .ok queued := by
  have pushes : ∃ pushed, outbound.pendingControl.push ⟨action, .write 0⟩ = some pushed ∧ _ :=
    FixedVec.push_of_lt room
  obtain ⟨pushed, done, -⟩ := pushes
  rw [queueControl, done]
  exact ⟨_, rfl⟩

/-- The acknowledgement an inbound packet requires, given the inbound handshakes under way. -/
def ReceivedPacket.answer (pending : FixedVec UInt16 maxInboundQos2) :
    ReceivedPacket → Option ControlAction
  | .pubRel rel => some (.pubComp rel.packetId
      (if rel.packetId ∈ pending.toList then .success else .packetIdNotFound))
  | .publish info => match info.qos, info.packetId with
    | .atLeastOnce, some packetId => some (.pubAck packetId
        (if packetId ∈ pending.toList then .packetIdInUse else .success))
    | .exactlyOnce, some packetId => some (.pubRec packetId
        (if packetId ∈ pending.toList ∨ pending.length < maxInboundQos2 then .success
          else .receiveMaxExceeded))
    | _, _ => none
  | _ => none

/-- What a handler with room for an acknowledgement does to the control packets. -/
inductive Answers (packet : ReceivedPacket) (before : Handling) : Taken → Handling → Prop where
  /-- The required acknowledgement, if there is one, is queued behind the others. -/
  | queued {taken : Taken} {after : Handling} (calm : ∀ error, taken = .error error →
        error ≠ .writeZero ∧ (error = .resource .inflightExhausted → ∃ rec, packet = .pubRec rec ∧
          before.data.outbound.pendingRelease.toList.length = maxPendingRelease))
      (published : taken = .ok true → ∃ info, packet = .publish info)
      (same : after.data.outbound.pendingControl.toList =
        before.data.outbound.pendingControl.toList ++
          ((packet.answer before.data.pendingServerPacketIds).map (⟨·, .write 0⟩)).toList) :
      Answers packet before taken after
  /-- The required acknowledgement exceeds the limit of the broker. -/
  | refused {after : Handling} {action : ControlAction}
      (required : packet.answer before.data.pendingServerPacketIds = some action)
      (large : exceeds before.runtime.maximumPacketSize action.wire.length = true)
      (same : after.data.outbound.pendingControl = before.data.outbound.pendingControl) :
      Answers packet before (.error (.resource .packetTooLarge)) after

/-- The required acknowledgement is queued while there is room, or it exceeds the limit. -/
theorem Handler.queueControl_answers {packet : ReceivedPacket} {before state : Handling}
    {delivered : Bool} {action : ControlAction}
    (room : before.data.outbound.pendingControl.length < maxPendingControl)
    (published : delivered = true → ∃ info, packet = .publish info)
    (required : packet.answer before.data.pendingServerPacketIds = some action)
    (controls : state.data.outbound = before.data.outbound) (limit : state.runtime = before.runtime) :
    wp (queueControl action) (fun _ => Answers packet before (.ok delivered))
      (fun error => Answers packet before (.error error)) state := by
  -- There is room, so only the size of the packet can stand against it.
  unfold queueControl
  simp only [wp_bind, wp_get]
  refine wp_protocol _ (fun value sized => ?_) (fun error sized => ?_)
  · simp only [wp_bind, wp_get]
    obtain ⟨outbound, done⟩ := Outbound.queueControl_of_room (controls ▸ room) action
    refine wp_protocol _ (fun other same => ?_) (fun error failed => by simp [done] at failed)
    obtain ⟨queue, rfl, appended⟩ := Outbound.controls_of_queueControl same
    refine .queued (by simp) (by simpa using published) ?_
    rw [required, ← controls]
    exact appended
  · obtain ⟨rfl, large⟩ := checkControlPacketSize_eq_error sized
    exact .refused required (limit ▸ large) (by rw [controls])

/-- An inbound publication above QoS 0 is acknowledged. -/
theorem Handler.publish_answers (info : Publish) (state : Handling)
    (room : state.data.outbound.pendingControl.length < maxPendingControl) :
    wp (Handler.publish info) (fun delivered => Answers (.publish info) state (.ok delivered))
      (fun error => Answers (.publish info) state (.error error)) state := by
  -- The answer depends on the level, and at QoS 2 on what is known of the handshake.
  unfold Handler.publish Handler.requirePacketId
  cases level : info.qos with
  | atMostOnce =>
    exact .queued (by simp) (fun _ => ⟨info, rfl⟩) (by simp [ReceivedPacket.answer, level])
  | atLeastOnce =>
    cases identified : info.packetId with
    | none =>
      exact .queued (by simp [ProtocolError.toError]) (by simp)
        (by simp [ReceivedPacket.answer, level, identified])
    | some packetId =>
      simp only [wp_bind, wp_pure, wp_get]
      refine Handler.queueControl_answers room (fun _ => ⟨info, rfl⟩) ?_ rfl rfl
      simp [ReceivedPacket.answer, level, identified]
  | exactlyOnce =>
    cases identified : info.packetId with
    | none =>
      exact .queued (by simp [ProtocolError.toError]) (by simp)
        (by simp [ReceivedPacket.answer, level, identified])
    | some packetId =>
      have slot := @FixedVec.push_eq_none _ _ state.data.pendingServerPacketIds packetId
      have bounded := state.data.pendingServerPacketIds.bounded
      simp only [wp_bind, wp_pure, wp_get, wp_ite]
      split
      · -- A publication that is known is answered again, with success.
        rename_i known
        simp only [List.contains_iff_mem] at known
        refine Handler.queueControl_answers room (fun _ => ⟨info, rfl⟩) ?_ rfl rfl
        simp [ReceivedPacket.answer, level, identified, known]
      · -- A new one is answered by whether there is room for its handshake.
        rename_i fresh
        simp only [List.contains_iff_mem] at fresh
        cases pushed : state.data.pendingServerPacketIds.push packetId with
        | some ids =>
          have free : state.data.pendingServerPacketIds.length < maxInboundQos2 := by
            refine Nat.lt_of_le_of_ne bounded fun full => ?_
            rw [slot.mpr full] at pushed
            simp at pushed
          simp only [wp_bind, wp_set, wp_pure]
          refine Handler.queueControl_answers room (fun _ => ⟨info, rfl⟩) ?_ rfl rfl
          simp [ReceivedPacket.answer, level, identified, free]
        | none =>
          have full : state.data.pendingServerPacketIds.length = maxInboundQos2 := slot.mp pushed
          simp only [wp_bind, wp_pure]
          refine Handler.queueControl_answers room (fun _ => ⟨info, rfl⟩) ?_ rfl rfl
          simp [ReceivedPacket.answer, level, identified, fresh, full]

/-- Every inbound packet is acknowledged if that is required, as long as there is room. -/
theorem handlePacket_answers (packet : ReceivedPacket) (state : Handling)
    (room : state.data.outbound.pendingControl.length < maxPendingControl) :
    wp (handlePacket packet) (fun delivered => Answers packet state (.ok delivered))
      (fun error => Answers packet state (.error error)) state := by
  -- A packet that requires no acknowledgement leaves the control packets alone.
  have plain {taken : Taken} {after : Handling}
      (calm : ∀ error, taken = .error error →
        error ≠ .writeZero ∧ (error = .resource .inflightExhausted → ∃ rec, packet = .pubRec rec ∧
          state.data.outbound.pendingRelease.toList.length = maxPendingRelease))
      (undelivered : taken ≠ .ok true)
      (silent : packet.answer state.data.pendingServerPacketIds = none)
      (same : after.data.outbound.pendingControl = state.data.outbound.pendingControl) :
      Answers packet state taken after :=
    .queued calm (fun delivered => absurd delivered undelivered) (by rw [same, silent]; simp)
  cases packet with
  | connAck ack => exact plain (by simp [ProtocolError.toError]) (by simp) rfl rfl
  | disconnect disconnect => exact plain (by simp) (by simp) rfl rfl
  | pingResp => exact plain (by simp) (by simp) rfl rfl
  | publish info => exact Handler.publish_answers info state room
  | subAck ack | unsubAck ack =>
    simp only [handlePacket, Handler.subAck, wp_bind]
    refine Handler.wp_ackPacket (fun _ => plain (by simp) (by simp) rfl rfl) (fun outbound done => ?_)
    simp only [if_true, wp_bind]
    exact Handler.wp_requireAll _ (plain (by simp) (by simp) rfl (Outbound.pendingControl_of_ackPacket done))
      (fun _ => plain (by simp) (by simp) rfl (Outbound.pendingControl_of_ackPacket done))
  | pubAck ack =>
    simp only [handlePacket, Handler.pubAck, wp_bind]
    refine Handler.wp_ackPacket (fun _ => plain (by simp) (by simp) rfl rfl) (fun outbound done => ?_)
    simp only [if_true, wp_bind, Handler.wp_returnQuota]
    exact Handler.wp_require _ (fun _ => plain (by simp) (by simp) rfl (Outbound.pendingControl_of_ackPacket done))
      (fun _ => plain (by simp) (by simp) rfl (Outbound.pendingControl_of_ackPacket done))
  | pubComp comp =>
    simp only [handlePacket, Handler.pubComp, wp_bind]
    refine Handler.wp_ackRelease (fun _ => plain (by simp) (by simp) rfl rfl) (fun outbound done => ?_)
    have same := Outbound.pendingControl_of_ackRelease done
    simp only [if_true, wp_bind]
    exact Handler.wp_require _ (fun _ => plain (by simp) (by simp) rfl same)
      (fun _ => plain (by simp) (by simp) rfl same)
  | pubRec rec =>
    simp only [handlePacket, Handler.pubRec, wp_bind]
    refine Handler.wp_ackPacket (fun _ => ?_) (fun outbound done => ?_)
    · simp only [Bool.false_eq_true, if_false, wp_bind, wp_get, wp_ite, wp_pure]
      split
      · exact Handler.wp_require _ (fun _ => plain (by simp) (by simp) rfl rfl)
          (fun _ => plain (by simp) (by simp) rfl rfl)
      · exact plain (by simp) (by simp) rfl rfl
    · simp only [if_true, wp_bind, Handler.wp_returnQuota]
      refine Handler.wp_require _ (fun success => ?_)
        (fun failure => plain (by simp) (by simp) rfl (Outbound.pendingControl_of_ackPacket done))
      simp only [wp_bind, wp_get]
      refine Handler.wp_protocol _ (fun _ sized => ?_) (fun error sized => ?_)
      · rw [wp_bind]
        refine Handler.wp_queueRelease (fun error failed => ?_) (fun queued pushed => ?_)
        · obtain ⟨full, rfl⟩ := Outbound.full_of_queueRelease failed
          have full : outbound.pendingRelease.toList.length = maxPendingRelease := full
          rw [Outbound.pendingRelease_of_ackPacket done] at full
          refine plain (fun error same => ⟨?_, fun _ => ⟨rec, rfl, full⟩⟩) (by simp) rfl (Outbound.pendingControl_of_ackPacket done)
          rw [← Except.error.inj same]
          simp [ProtocolError.toError]
        · obtain ⟨releases, rfl, -⟩ := Outbound.releases_of_queueRelease pushed
          have same := Outbound.pendingControl_of_ackPacket done
          exact plain (by simp) (by simp) rfl same
      · rw [checkPubrelSize_eq_error sized]
        exact plain (by simp [ProtocolError.toError]) (by simp) rfl (Outbound.pendingControl_of_ackPacket done)
  | pubRel rel =>
    simp only [handlePacket, Handler.pubRel, wp_bind, wp_get]
    cases found : state.data.pendingServerPacketIds.toList.findIdx? (· == rel.packetId) with
    | some index =>
      obtain ⟨within, matched, -⟩ := List.findIdx?_eq_some_iff_getElem.mp found
      have known : rel.packetId ∈ state.data.pendingServerPacketIds.toList := by
        rw [← show _ = rel.packetId by simpa using matched]
        exact List.getElem_mem within
      simp only [wp_bind, wp_set, wp_pure]
      refine Handler.queueControl_answers room (by simp) ?_ rfl rfl
      simp [ReceivedPacket.answer, known]
    | none =>
      have unknown : rel.packetId ∉ state.data.pendingServerPacketIds.toList := by
        intro known
        simpa using List.findIdx?_eq_none_iff.mp found _ known
      simp only [wp_bind, wp_pure]
      refine Handler.queueControl_answers room (by simp) ?_ rfl rfl
      simp [ReceivedPacket.answer, unknown]

end Minimq

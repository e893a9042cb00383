import Minimq.Proofs.Client.Acknowledge
import Minimq.Proofs.Client.Frame

/-! Which operations are tracked, and how that can change from one moment to the next. -/

namespace Minimq

open Async

variable {π τ : Type} {before after : ClientMoment} {packetId : UInt16}

/-- The operations a session tracks, without their progress and their bytes. -/
structure Docket where
  /-- The retained operations, in order of admission. -/
  keys : List (OpKind × UInt16)
  /-- The publications that wait for their PUBCOMP, in the order of their queue. -/
  releases : List UInt16

/-- The operations an outbound state tracks. -/
def Outbound.docket (outbound : Outbound) : Docket where
  keys := outbound.retained.toList.map fun entry => (entry.kind, entry.packetId)
  releases := outbound.pendingRelease.toList.map (·.packetId)

namespace Outbound

variable {outbound : Outbound}

theorem packetIds_eq_docket (outbound : Outbound) :
    outbound.packetIds = outbound.docket.keys.map Prod.snd ++ outbound.docket.releases := by
  simp [packetIds, docket, Function.comp_def]

/-- Progress of a packet does not matter. -/
theorem docket_setWritten (packet : Packet) (written len : Nat) :
    (outbound.setWritten written len packet).docket = outbound.docket := by
  -- Only the progress of one entry changes, and the docket does not hold it.
  cases packet with
  | control index => rfl
  | release packetId =>
    have same := @FixedVec.map_toList_modify _ _ _ outbound.pendingRelease
      (outbound.pendingRelease.toList.findIdx (·.packetId == packetId))
      (fun entry => { entry with state := .setWritten written len }) (·.packetId) (fun _ => rfl)
    exact congrArg (Docket.mk _) same
  | retained packetId =>
    have same := @FixedVec.map_toList_modify _ _ _ outbound.retained
      (outbound.retained.toList.findIdx (·.packetId == packetId))
      (fun entry => { entry with state := .setWritten written len })
      (fun entry => (entry.kind, entry.packetId)) (fun _ => rfl)
    exact congrArg (Docket.mk · _) same

theorem docket_completeFlush : outbound.completeFlush.docket = outbound.docket := by
  simp [docket, completeFlush, Function.comp_def]

theorem docket_armReplay : outbound.armReplay.docket = outbound.docket := by
  unfold armReplay
  split
  · simp [docket, markPublishDup, Function.comp_def]
  · rfl

/-- An acknowledged packet leaves, and the releases stay. -/
theorem docket_of_ackPacket {kind : OpKind} {acked : Outbound}
    (done : outbound.ackPacket kind packetId = some acked) :
    outbound.docket.keys.Perm ((kind, packetId) :: acked.docket.keys) ∧
      acked.docket.releases = outbound.docket.releases := by
  obtain ⟨front, gone, back, was, rfl, rfl, left, same⟩ := retained_of_ackPacket done
  refine ⟨?_, ?_⟩
  · simp only [docket, was, left, List.map_append, List.map_cons]
    exact List.perm_middle
  · rw [same]
    rfl

/-- A completed release leaves, and the last one takes its place. -/
theorem docket_of_ackRelease {acked : Outbound}
    (done : outbound.ackRelease packetId = some acked) : ∃ index : Nat,
      outbound.docket.releases.findIdx? (· == packetId) = some index ∧
      acked.docket = ⟨outbound.docket.keys, outbound.docket.releases.swapRemove index⟩ := by
  -- The entry is found by its identifier, which is all that the docket keeps of it.
  unfold ackRelease at done
  split at done
  · simp at done
  · rename_i position found
    cases done
    refine ⟨position, ?_, ?_⟩
    · simpa [docket, List.findIdx?_map, Function.comp_def] using found
    · simp only [docket, FixedVec.toList_swapRemove]
      congr 1
      exact List.map_swapRemove _ _ _

end Outbound

/-- What an inbound packet can do to the tracked operations. -/
inductive Dispatch (packet : ReceivedPacket) (before : Handling) (taken : Taken) :
    Docket → Prop where
  /-- Nothing changes. -/
  | same : Dispatch packet before taken before.data.outbound.docket
  /-- A subscription request ends. -/
  | answered {after : Docket} {kind : OpKind} {packetId : UInt16} (request : kind.isPublish = false)
      (left : before.data.outbound.docket.keys.Perm ((kind, packetId) :: after.keys))
      (releases : after.releases = before.data.outbound.docket.releases)
      (answers : packet.Answers kind packetId) : Dispatch packet before taken after
  /-- A QoS 1 publication ends. -/
  | published {after : Docket} {ack : PubAck} (same : packet = .pubAck ack)
      (left : before.data.outbound.docket.keys.Perm
        ((.publishAtLeastOnce, ack.packetId) :: after.keys))
      (releases : after.releases = before.data.outbound.docket.releases) :
      Dispatch packet before taken after
  /-- A QoS 2 publication is refused. -/
  | refused {after : Docket} {rec : PubRec} (same : packet = .pubRec rec)
      (failure : rec.reason.code.isSuccess = false)
      (left : before.data.outbound.docket.keys.Perm
        ((.publishExactlyOnce, rec.packetId) :: after.keys))
      (releases : after.releases = before.data.outbound.docket.releases) :
      Dispatch packet before taken after
  /-- A QoS 2 publication is received, but its release cannot be tracked. -/
  | lost {after : Docket} {rec : PubRec} (same : packet = .pubRec rec)
      (success : rec.reason.code.isSuccess = true)
      (left : before.data.outbound.docket.keys.Perm
        ((.publishExactlyOnce, rec.packetId) :: after.keys))
      (releases : after.releases = before.data.outbound.docket.releases)
      (cause : (exceeds before.runtime.maximumPacketSize
          (releaseWire rec.packetId .success).length = true ∧ taken.isFatal = true) ∨
        before.data.outbound.docket.releases.length = maxPendingRelease) :
      Dispatch packet before taken after
  /-- A QoS 2 publication turns into a pending release. -/
  | released {after : Docket} {rec : PubRec} (same : packet = .pubRec rec)
      (success : rec.reason.code.isSuccess = true)
      (left : before.data.outbound.docket.keys.Perm
        ((.publishExactlyOnce, rec.packetId) :: after.keys))
      (releases : after.releases = before.data.outbound.docket.releases ++ [rec.packetId])
      (fits : exceeds before.runtime.maximumPacketSize (releaseWire rec.packetId .success).length =
        false) : Dispatch packet before taken after
  /-- A QoS 2 publication ends. -/
  | completed {after : Docket} {comp : PubComp} {index : Nat} (same : packet = .pubComp comp)
      (found : before.data.outbound.docket.releases.findIdx? (· == comp.packetId) = some index)
      (keys : after.keys = before.data.outbound.docket.keys)
      (releases : after.releases = before.data.outbound.docket.releases.swapRemove index) :
      Dispatch packet before taken after

theorem swapRemove_findIdx? {items : List UInt16} {index : Nat}
    (found : items.findIdx? (· == packetId) = some index) :
    items.Perm (packetId :: items.swapRemove index) ∧ index < items.length := by
  obtain ⟨within, matched, -⟩ := List.findIdx?_eq_some_iff_getElem.mp found
  have split := List.getElem_cons_eraseIdx_perm within
  rw [beq_iff_eq.mp matched] at split
  exact ⟨split.symm.trans ((List.swapRemove_perm within).symm.cons _), within⟩

theorem checkPubrelSize_eq_ok {maximumPacketSize : Option UInt32}
    {reason : ReasonCode} : checkPubrelSize maximumPacketSize packetId reason = .ok () ↔
      exceeds maximumPacketSize (releaseWire packetId reason).length = false := by
  simp only [checkPubrelSize, encodePubrel_eq, bind, Except.bind, requirePacketSize]
  split <;> simp_all

/-- An inbound packet changes the tracked operations in one of a few ways. -/
theorem Handled.dispatch {packet : ReceivedPacket} {taken : Taken} {before after : Handling}
    (handled : Handled packet before taken after) :
    Dispatch packet before taken after.data.outbound.docket := by
  -- Each way to handle a packet is one entry of the docket, by the lemma on its queue.
  cases handled with
  | ignored => exact .same
  | answered _ request acked answers =>
    obtain ⟨left, releases⟩ := Outbound.docket_of_ackPacket acked
    exact .answered request left releases answers
  | published _ same acked =>
    obtain ⟨left, releases⟩ := Outbound.docket_of_ackPacket acked
    exact .published same left releases
  | refused _ same failure acked =>
    obtain ⟨left, releases⟩ := Outbound.docket_of_ackPacket acked
    exact .refused same failure left releases
  | oversized same success acked sized failed =>
    obtain ⟨left, releases⟩ := Outbound.docket_of_ackPacket acked
    refine .lost same success left releases (.inl ⟨?_, ?_⟩)
    · by_contra small
      rw [Bool.not_eq_true, ← checkPubrelSize_eq_ok, sized] at small
      cases small
    · rw [failed, checkPubrelSize_eq_error sized]
      rfl
  | untracked same success acked _ full =>
    obtain ⟨left, releases⟩ := Outbound.docket_of_ackPacket acked
    exact .lost same success left releases (.inr (by simpa [Outbound.docket] using full))
  | released _ same success acked sized released =>
    obtain ⟨left, releases⟩ := Outbound.docket_of_ackPacket acked
    obtain ⟨queue, rfl, appended⟩ := Outbound.releases_of_queueRelease released
    refine .released same success left ?_ (checkPubrelSize_eq_ok.mp sized)
    rw [← releases]
    simp [Outbound.docket, Handling.setOutbound, Handling.returnQuota, appended]
  | completed _ same acked =>
    obtain ⟨index, found, docket⟩ := Outbound.docket_of_ackRelease acked
    have keys := congrArg Docket.keys docket
    have releases := congrArg Docket.releases docket
    exact .completed same found keys releases
  | pending changed => exact .same
  | queued changed queued =>
    obtain ⟨controls, rfl, -⟩ := Outbound.controls_of_queueControl queued
    exact .same
  | ponged => exact .same

/-- An occurrence that leaves the tracked operations alone; what it writes is tracked. -/
structure Steady (docket : Docket) (event : Happening Event) : Prop where
  /-- No operation is admitted. -/
  unadmitted : admissionOf event = none
  /-- No packet is handled. -/
  unhandled : Unhandled event
  /-- The session is not started over. -/
  kept : event ≠ .noted .reset
  /-- A packet that is written is a retained one. -/
  retained : ∀ packetId bytes start count,
    event = .noted (.wrote (.retained packetId) bytes start count) →
    ∃ kind, (kind, packetId) ∈ docket.keys
  /-- A PUBREL that is written is a pending one. -/
  release : ∀ packetId bytes start count,
    event = .noted (.wrote (.release packetId) bytes start count) →
    packetId ∈ docket.releases

/-- How the tracked operations can change from one moment to the next. -/
inductive Tracking (before after : ClientMoment) : Prop where
  /-- Nothing changes. -/
  | steady {events : List (Happening Event)}
      (same : after.self.outbound.docket = before.self.outbound.docket)
      (trace : after.trace = before.trace ++ events)
      (steady : ∀ event ∈ events, Steady before.self.outbound.docket event)
  /-- An operation is admitted. -/
  | admitted {kind : OpKind} {packetId : UInt16} {packet : Bytes}
      (unused : before.self.session.data.isLive packetId = false)
      (quota : kind.isPublish = true → before.self.runtime.sendQuota ≠ 0)
      (same : after.self.outbound.docket = ⟨before.self.outbound.docket.keys ++ [(kind, packetId)],
        before.self.outbound.docket.releases⟩)
      (trace : after.trace = before.trace ++
        [.noted (.admitted before.self.session.handling kind packetId packet)])
  /-- A packet is handled. -/
  | handled {packet : ReceivedPacket} {delivered : Bool} {taken : Taken}
      (dispatch : Dispatch packet before.self.session.handling taken after.self.outbound.docket)
      (fatal : taken.isFatal = true → after.self.live = false)
      (trace : after.trace = before.trace ++
        [.noted (.handled before.self.session.handling packet delivered)])
      (outcome : after.self.outbound.docket =
        ((handlePacket packet).outcome before.self.session.handling).2.data.outbound.docket)
  /-- The session is started over. -/
  | reset (closed : after.self.live = false) (empty : after.self.outbound.docket = ⟨[], []⟩)
      (trace : after.trace = before.trace ++ [.noted .reset])

theorem Steady.of_unwritten {docket : Docket} {event : Happening Event}
    (unadmitted : admissionOf event = none) (unhandled : Unhandled event)
    (kept : event ≠ .noted .reset)
    (unwritten : ∀ packet bytes start count, event ≠ .noted (.wrote packet bytes start count)) :
    Steady docket event :=
  ⟨unadmitted, unhandled, kept, fun _ _ _ _ same => absurd same (unwritten _ _ _ _),
    fun _ _ _ _ same => absurd same (unwritten _ _ _ _)⟩

theorem Routine.steady {docket : Docket} {event : Happening Event} (routine : Routine event) :
    Steady docket event := by
  refine .of_unwritten routine.admissionOf routine.unhandled ?_ routine.unwritten
  cases routine <;> simp

/-- Writing, flushing and keepalive leave the tracked operations alone. -/
theorem Outflow.tracking (step : Outflow τ before after) : Tracking before after := by
  cases step with
  | tick later => exact .steady rfl (List.append_nil _).symm (by simp)
  | @wrote step current count now alive idle next encoded positive within later =>
    refine .steady (by dsimp only; rw [Connection.afterWrite_outbound, Outbound.docket_setWritten])
      rfl ?_
    intro event found
    simp only [List.mem_cons, List.not_mem_nil, or_false] at found
    rcases found with rfl | rfl
    · exact (Routine.accepted _).steady
    · -- The packet that is written is the next one, which is tracked.
      refine ⟨rfl, by simp [Unhandled], by simp, fun packetId bytes start many same => ?_,
        fun packetId bytes start many same => ?_⟩
      all_goals
        simp only [Happening.noted.injEq, Event.wrote.injEq] at same
        obtain ⟨found, -⟩ := Outbound.at_of_nextStep next
        cases found with
        | control found => cases writeStep_control encoded; cases same.1
        | release found =>
          cases writeStep_release encoded
          cases same.1 <;> simp [Outbound.docket, found]
        | retained found =>
          cases writeStep_retained encoded
          cases same.1 <;> exact ⟨_, by simp [Outbound.docket, found]; exact .inr (.inl rfl)⟩
  | flushing alive ready => exact .steady rfl rfl (by simp [Routine.flushing.steady])
  | @flushed now alive flushing later =>
    exact .steady Outbound.docket_completeFlush rfl
      (by simp [Routine.flushed.steady, (Routine.active now).steady])
  | disconnected => exact .steady Outbound.docket_armReplay (List.append_nil _).symm (by simp)
  | pinged alive quiet due queued =>
    obtain ⟨controls, rfl, -⟩ := Outbound.controls_of_queueControl queued
    exact .steady rfl (List.append_nil _).symm (by simp)

/-- Ending the connection after an inbound packet leaves the tracked operations alone. -/
theorem Connection.docket_handle (connection : Connection) (packet : ReceivedPacket) :
    (connection.handle packet).1.outbound.docket =
      ((handlePacket packet).outcome connection.session.handling).2.data.outbound.docket := by
  -- Only an error can end the connection, which starts packets over and drops none.
  unfold handle Handler.outcome
  cases handlePacket packet connection.session.handling with
  | ok delivered state => rfl
  | error error state =>
    dsimp only
    split
    · exact Outbound.docket_armReplay
    · rfl

/-- Every transition changes the tracked operations in one of a few ways. -/
theorem Step.tracking (step : Step τ before after) : Tracking before after := by
  -- Only an inbound packet, an admission and a reset change what is tracked.
  cases step with
  | outflow step => exact step.tracking
  | upkeep step =>
    obtain ⟨events, trace, routine⟩ := step.routine
    refine .steady ?_ trace fun event found => (routine event found).steady
    cases step <;> rfl
  | opening step =>
    obtain ⟨room, same⟩ := step.queues
    obtain ⟨events, trace, routine⟩ := step.routine
    refine .steady ?_ trace fun event found => (routine event found).steady
    rw [same]
    rfl
  | handled packet alive quiet =>
    obtain ⟨taken, state, handled, -, same⟩ := before.self.handle_taken packet
    have dispatch : Dispatch packet before.self.session.handling taken
        (before.self.handle packet).1.outbound.docket := by
      rw [same]
      split
      · change Dispatch _ _ _ state.data.outbound.armReplay.docket
        rw [Outbound.docket_armReplay]
        exact handled.dispatch
      · exact handled.dispatch
    refine .handled dispatch (fun fatal => ?_) rfl (Connection.docket_handle _ _)
    dsimp only
    rw [same, if_pos fatal]
    rfl
  | admitted admissible =>
    refine .admitted admissible.unused admissible.quota ?_ rfl
    dsimp only
    rw [Connection.enlist_outbound]
    simp [Outbound.docket, FixedVec.toList_of_push admissible.slot]
  | direct ready whole later =>
    exact .steady rfl rfl fun event found => (routine_whole event found).steady
  | broken ready part =>
    exact .steady Outbound.docket_armReplay rfl fun event found => (part.routine event found).steady
  | opened =>
    refine .steady Outbound.docket_armReplay rfl ?_
    simp only [List.mem_singleton, forall_eq]
    exact .of_unwritten rfl (by simp [Unhandled]) (by simp) (by simp)
  | reset closed => exact .reset closed rfl rfl
  | connected closed later sized reserved quota limit state =>
    subst state
    refine .steady rfl rfl ?_
    simp only [List.mem_cons, List.not_mem_nil, or_false, forall_eq_or_imp, forall_eq]
    exact ⟨(Routine.active _).steady, .of_unwritten rfl (by simp [Unhandled]) (by simp) (by simp)⟩

theorem Move.tracking (move : Move τ before after) : Tracking before after := by
  cases move with
  | step step => exact step.tracking
  -- A dropped write has no packet that is tracked.
  | torn torn =>
    cases torn with
    | torn ready part =>
      exact .steady rfl rfl fun event found => (part.routine event found).steady

end Minimq

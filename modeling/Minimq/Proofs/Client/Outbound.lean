import Minimq.Client.Drive
import Minimq.Proofs.Codec.Serializer

/-! Laws of the outbound queues: which packet is next, and what leaves none. -/

namespace Minimq

variable {packetId : UInt16} {inProgress : Bool} {step : OutboundStep} {acked : Outbound}
  {reason : ReasonCode} {kind : OpKind} {action : ControlAction} {queued : Outbound}

/-- An acknowledgement with a bare reason code on the wire. -/
def ackWire (header : UInt8) (packetId : UInt16) (reason : ReasonCode) : Bytes :=
  header :: 3 :: (u16Bytes packetId ++ [reason.toByte])

/-- A control packet on the wire. -/
def ControlAction.wire : ControlAction → Bytes
  | .pubAck packetId reason => ackWire 0x40 packetId reason
  | .pubRec packetId reason => ackWire 0x50 packetId reason
  | .pubComp packetId reason => ackWire 0x70 packetId reason
  | .pingReq => [0xC0, 0]

/-- A release on the wire. -/
def releaseWire (packetId : UInt16) (reason : ReasonCode) : Bytes := ackWire 0x62 packetId reason

/-- An acknowledgement with a bare reason code always fits the workspace for control packets. -/
theorem encode_ack {α : Type} [ControlPacket α] {packet : α} (fields : ControlPacket.tokens packet =
      Ack.tokens ⟨packetId, .ofCode reason⟩) :
    encode smallBuf packet =
      .ok (ackWire (ControlPacket.fixedHeader packet).byte packetId reason) := by
  -- Three bytes follow the header, so their number takes one byte.
  have body : tokenBytes (ControlPacket.tokens packet) =
      some (u16Bytes packetId ++ [reason.toByte]) := by
    rw [fields]
    rfl
  have remainingLen : writeMqttU32Varint ((u16Bytes packetId ++ [reason.toByte]).length % 2 ^ 32) =
      some [3] := (by decide : writeMqttU32Varint 3 = some [3])
  refine encode_of_fits body (show 8 ≤ 9 by decide) ?_
  rw [frame, remainingLen]
  rfl

/-- Control packets always have an encoding. -/
theorem encodeControlPacket_eq (action : ControlAction) :
    encodeControlPacket smallBuf action = .ok action.wire := by
  -- Acknowledgements differ in the header only, and a PINGREQ is two fixed bytes.
  cases action with
  | pubAck packetId reason =>
    rw [encodeControlPacket, encode_ack rfl]
    rfl
  | pubRec packetId reason =>
    rw [encodeControlPacket, encode_ack rfl]
    rfl
  | pubComp packetId reason =>
    rw [encodeControlPacket, encode_ack rfl]
    rfl
  | pingReq => decide

theorem encodePubrel_eq (packetId : UInt16) (reason : ReasonCode) :
    encodePubrel smallBuf packetId reason = .ok (releaseWire packetId reason) := by
  rw [encodePubrel, encode_ack rfl]
  rfl

/-- Some bytes of the packet are still to be written. -/
def SendState.Unwritten (state : SendState) : Prop := ∃ written, state = .write written

namespace SendState

theorem writeOffset_eq_none {state : SendState} :
    state.writeOffset true = none ∧ state.writeOffset false = none ↔ ¬ state.Unwritten := by
  cases state with
  | write written => cases written <;> simp [writeOffset, Unwritten]
  | flush => simp [writeOffset, Unwritten]
  | sent => simp [writeOffset, Unwritten]

end SendState

namespace Outbound

variable {outbound : Outbound}

/-- No control packet is in a pass exactly if none has a next byte in it. -/
theorem controlStep_eq_none {index : Nat} {entries : List PendingControl} :
    controlStep inProgress index entries = none ↔
      ∀ entry ∈ entries, entry.state.writeOffset inProgress = none := by
  induction entries generalizing index with
  | nil => simp [controlStep]
  | cons entry rest ih =>
    simp only [controlStep, List.forall_mem_cons]
    cases entry.state.writeOffset inProgress <;> simp [ih]

/-- No release is in a pass exactly if none has a next byte in it. -/
theorem releaseStep_eq_none {entries : List PendingRelease} :
    releaseStep inProgress entries = none ↔
      ∀ entry ∈ entries, entry.state.writeOffset inProgress = none := by
  induction entries with
  | nil => simp [releaseStep]
  | cons entry rest ih =>
    simp only [releaseStep, List.forall_mem_cons]
    cases entry.state.writeOffset inProgress <;> simp [ih]

/-- No retained packet is in a pass exactly if none has a next byte in it. -/
theorem retainedStep_eq_none {offset : Nat} {entries : List RetainedPacket} :
    retainedStep inProgress offset entries = none ↔
      ∀ entry ∈ entries, entry.state.writeOffset inProgress = none := by
  induction entries generalizing offset with
  | nil => simp [retainedStep]
  | cons entry rest ih =>
    simp only [retainedStep, List.forall_mem_cons]
    cases entry.state.writeOffset inProgress <;> simp [ih]

/--
The progress of every tracked packet has a property.

Control packets have one of their own, since they are never remembered as sent.
-/
structure Holds (control tracked : SendState → Prop) (outbound : Outbound) : Prop where
  /-- It holds for the control packets. -/
  control : ∀ entry ∈ outbound.pendingControl.toList, control entry.state
  /-- It holds for the releases. -/
  release : ∀ entry ∈ outbound.pendingRelease.toList, tracked entry.state
  /-- It holds for the retained packets. -/
  retained : ∀ entry ∈ outbound.retained.toList, tracked entry.state

theorem stepFor_eq_none : outbound.stepFor inProgress = none ↔
    outbound.Holds (·.writeOffset inProgress = none) (·.writeOffset inProgress = none) := by
  simp only [stepFor, Option.or_eq_none_iff, controlStep_eq_none, releaseStep_eq_none,
    retainedStep_eq_none]
  exact ⟨fun all => ⟨all.1, all.2.1, all.2.2⟩, fun all => ⟨all.control, all.release, all.retained⟩⟩

/-- Nothing is left to write exactly if no tracked packet has unwritten bytes. -/
theorem nextStep_eq_none : outbound.nextStep = none ↔
    outbound.Holds (¬ ·.Unwritten) (¬ ·.Unwritten) := by
  -- Each packet is looked at in both passes, and unwritten bytes show up in one of them.
  simp only [nextStep, Option.or_eq_none_iff, stepFor_eq_none]
  constructor
  · rintro ⟨first, second⟩
    exact ⟨fun entry found => SendState.writeOffset_eq_none.mp
        ⟨first.control entry found, second.control entry found⟩,
      fun entry found => SendState.writeOffset_eq_none.mp
        ⟨first.release entry found, second.release entry found⟩,
      fun entry found => SendState.writeOffset_eq_none.mp
        ⟨first.retained entry found, second.retained entry found⟩⟩
  · intro all
    exact ⟨⟨fun entry found => (SendState.writeOffset_eq_none.mpr (all.control entry found)).1,
        fun entry found => (SendState.writeOffset_eq_none.mpr (all.release entry found)).1,
        fun entry found => (SendState.writeOffset_eq_none.mpr (all.retained entry found)).1⟩,
      ⟨fun entry found => (SendState.writeOffset_eq_none.mpr (all.control entry found)).2,
        fun entry found => (SendState.writeOffset_eq_none.mpr (all.release entry found)).2,
        fun entry found => (SendState.writeOffset_eq_none.mpr (all.retained entry found)).2⟩⟩

/-- A queued control packet is appended. -/
theorem controls_of_queueControl
    (done : outbound.queueControl action = .ok queued) : ∃ pendingControl,
      queued = { outbound with pendingControl } ∧
        pendingControl.toList = outbound.pendingControl.toList ++ [⟨action, .write 0⟩] := by
  unfold queueControl at done
  split at done
  · rename_i pushed accepted
    cases done
    exact ⟨pushed, rfl, FixedVec.toList_of_push accepted⟩
  · simp at done

/-- A queued release is appended. -/
theorem releases_of_queueRelease
    (done : outbound.queueRelease packetId reason = .ok queued) : ∃ pendingRelease,
      queued = { outbound with pendingRelease } ∧
        pendingRelease.toList =
          outbound.pendingRelease.toList ++ [⟨packetId, reason, .write 0⟩] := by
  unfold queueRelease at done
  split at done
  · rename_i pushed accepted
    cases done
    exact ⟨pushed, rfl, FixedVec.toList_of_push accepted⟩
  · simp at done

/-- A release is refused only when every slot is taken. -/
theorem full_of_queueRelease {error : ProtocolError}
    (failed : outbound.queueRelease packetId reason = .error error) :
    outbound.pendingRelease.toList.length = maxPendingRelease ∧
      error = .inflightMetadataExhausted := by
  unfold queueRelease at failed
  split at failed
  · simp at failed
  · rename_i refused
    cases failed
    exact ⟨FixedVec.push_eq_none.mp refused, rfl⟩

/-- A kept packet is appended. -/
theorem retained_of_retainPacket {len : Nat} {kept : Outbound}
    (done : outbound.retainPacket kind packetId len = .ok kept) : ∃ retained,
      kept = { outbound with retained } ∧
        outbound.retained.push ⟨kind, packetId, len, .write 0⟩ = some retained := by
  unfold retainPacket at done
  split at done
  · rename_i pushed accepted
    cases done
    exact ⟨pushed, rfl, accepted⟩
  · simp at done

/-- An acknowledged packet was retained; it leaves, and the gap in the arena is closed. -/
theorem retained_of_ackPacket
    (done : outbound.ackPacket kind packetId = some acked) : ∃ front entry back,
      outbound.retained.toList = front ++ entry :: back ∧
      entry.kind = kind ∧ entry.packetId = packetId ∧
      acked.retained.toList = front ++ back ∧
      acked = { outbound with
        buf := Arena.copyWithin outbound.buf (bytesOf front + entry.len) outbound.retainedBytes
          (bytesOf front)
        retained := acked.retained } := by
  -- The entry splits the queue, and the bytes in front of it are where the gap begins.
  unfold ackPacket at done
  dsimp only at done
  split at done
  · simp at done
  · rename_i position found
    obtain ⟨within, matched, _⟩ := List.findIdx?_eq_some_iff_getElem.mp found
    simp only [Bool.and_eq_true, beq_iff_eq] at matched
    have tail : outbound.retained.toList.drop position =
        outbound.retained.toList[position] :: outbound.retained.toList.drop (position + 1) :=
      List.drop_eq_getElem_cons within
    simp only [Option.some.injEq] at done
    subst done
    refine ⟨outbound.retained.toList.take position, outbound.retained.toList[position],
      outbound.retained.toList.drop (position + 1), ?_, matched.1, matched.2, ?_, ?_⟩
    · rw [← tail, List.take_append_drop]
    · simp [List.eraseIdx_eq_take_drop_succ]
    · have one : bytesOf ((outbound.retained.toList.drop position).take 1) =
          outbound.retained.toList[position].len := by
        rw [tail]
        rfl
      rw [one]

theorem pendingRelease_of_ackPacket (done : outbound.ackPacket kind packetId = some acked) :
    acked.pendingRelease = outbound.pendingRelease := by
  obtain ⟨front, gone, back, -, -, -, -, same⟩ := retained_of_ackPacket done
  rw [same]

theorem pendingControl_of_ackPacket (done : outbound.ackPacket kind packetId = some acked) :
    acked.pendingControl = outbound.pendingControl := by
  obtain ⟨front, gone, back, -, -, -, -, same⟩ := retained_of_ackPacket done
  rw [same]

/-- A completed publication was pending; up to order, only its release leaves. -/
theorem releases_of_ackRelease
    (done : outbound.ackRelease packetId = some acked) : ∃ entry,
      entry.packetId = packetId ∧
      outbound.pendingRelease.toList.Perm (entry :: acked.pendingRelease.toList) ∧
      acked = { outbound with pendingRelease := acked.pendingRelease } := by
  -- The last release takes the place of the completed one.
  unfold ackRelease at done
  split at done
  · simp at done
  · rename_i position found
    obtain ⟨within, matched, _⟩ := List.findIdx?_eq_some_iff_getElem.mp found
    simp only [beq_iff_eq] at matched
    simp only [Option.some.injEq] at done
    subst done
    refine ⟨outbound.pendingRelease.toList[position], matched, ?_, rfl⟩
    refine (List.getElem_cons_eraseIdx_perm within).symm.trans ?_
    exact (List.swapRemove_perm within).symm.cons _

theorem pendingControl_of_ackRelease (done : outbound.ackRelease packetId = some acked) :
    acked.pendingControl = outbound.pendingControl := by
  obtain ⟨gone, -, -, same⟩ := releases_of_ackRelease done
  rw [same]

/-- Reserved room is inside the arena and leaves room for the retained packets. -/
theorem room_of_setConnectWorkspace {len : Nat} {reserved : Outbound}
    (done : outbound.setConnectWorkspace len = .ok reserved) : len ≤ outbound.buf.length ∧
      outbound.retainedBytes ≤ outbound.buf.length - len ∧
      reserved = { outbound with connectWorkspace := len } := by
  unfold setConnectWorkspace at done
  split at done
  · simp at done
  · split at done
    · simp at done
    · simp only [Except.ok.injEq] at done
      exact ⟨by omega, by omega, done.symm⟩

theorem setConnectWorkspace_of_room {len : Nat} (within : len ≤ outbound.buf.length)
    (room : outbound.retainedBytes ≤ outbound.buf.length - len) :
    outbound.setConnectWorkspace len = .ok { outbound with connectWorkspace := len } := by
  rw [setConnectWorkspace, if_neg (by omega), if_neg (by omega)]

theorem nextStep_of_queueControl
    (done : outbound.queueControl action = .ok queued) : queued.nextStep ≠ none := by
  obtain ⟨controls, rfl, appended⟩ := controls_of_queueControl done
  rw [ne_eq, nextStep_eq_none]
  intro none
  exact none.control ⟨action, .write 0⟩ (by simp [appended]) ⟨0, rfl⟩

namespace Holds

variable {control tracked : SendState → Prop} {after : Outbound}

theorem queueControl (holds : outbound.Holds control tracked)
    (fresh : control (.write 0)) (done : outbound.queueControl action = .ok after) :
    after.Holds control tracked := by
  obtain ⟨controls, rfl, appended⟩ := controls_of_queueControl done
  refine ⟨fun entry found => ?_, holds.release, holds.retained⟩
  -- The new entry is the last one.
  rw [appended, List.mem_append, List.mem_singleton] at found
  rcases found with found | rfl
  · exact holds.control entry found
  · exact fresh

theorem queueRelease (holds : outbound.Holds control tracked) (fresh : tracked (.write 0))
    (done : outbound.queueRelease packetId reason = .ok after) : after.Holds control tracked := by
  obtain ⟨releases, rfl, appended⟩ := releases_of_queueRelease done
  refine ⟨holds.control, fun entry found => ?_, holds.retained⟩
  -- The new entry is the last one.
  rw [appended, List.mem_append, List.mem_singleton] at found
  rcases found with found | rfl
  · exact holds.release entry found
  · exact fresh

/-- Retaining a packet. -/
theorem retain {entry : RetainedPacket} {buf : Bytes} {retained : FixedVec RetainedPacket maxRetained}
    (holds : outbound.Holds control tracked) (fresh : tracked entry.state)
    (done : outbound.retained.push entry = some retained) :
    Holds control tracked { outbound with buf, retained } := by
  refine ⟨holds.control, holds.release, fun other found => ?_⟩
  dsimp only at found
  rw [FixedVec.toList_of_push done, List.mem_append, List.mem_singleton] at found
  rcases found with found | rfl
  · exact holds.retained other found
  · exact fresh

theorem ackPacket (holds : outbound.Holds control tracked)
    (done : outbound.ackPacket kind packetId = some after) : after.Holds control tracked := by
  obtain ⟨front, gone, back, before, -, -, left, same⟩ := retained_of_ackPacket done
  rw [same]
  -- What is left was there before.
  refine ⟨holds.control, holds.release, fun entry found => holds.retained entry ?_⟩
  dsimp only at found
  rw [left, List.mem_append] at found
  rw [before, List.mem_append, List.mem_cons]
  exact found.imp_right .inr

theorem ackRelease (holds : outbound.Holds control tracked)
    (done : outbound.ackRelease packetId = some after) : after.Holds control tracked := by
  obtain ⟨gone, -, left, same⟩ := releases_of_ackRelease done
  rw [same]
  exact ⟨holds.control, fun entry found => holds.release entry
    (left.mem_iff.mpr (List.mem_cons_of_mem _ found)), holds.retained⟩

theorem setWritten {packet : Packet} {written len : Nat} (holds : outbound.Holds control tracked)
    (control' : control (.setWritten written len)) (tracked' : tracked (.setWritten written len)) :
    (outbound.setWritten written len packet).Holds control tracked := by
  -- Only the entry that was written changes, and it gets the progress that is accounted for.
  cases packet with
  | control index =>
    refine ⟨fun entry found => ?_, holds.release, holds.retained⟩
    obtain ⟨old, known, rfl | rfl⟩ := FixedVec.mem_modify found
    · exact holds.control _ known
    · exact control'
  | release packetId =>
    refine ⟨holds.control, fun entry found => ?_, holds.retained⟩
    obtain ⟨old, known, rfl | rfl⟩ := FixedVec.mem_modify found
    · exact holds.release _ known
    · exact tracked'
  | retained packetId =>
    refine ⟨holds.control, holds.release, fun entry found => ?_⟩
    obtain ⟨old, known, rfl | rfl⟩ := FixedVec.mem_modify found
    · exact holds.retained _ known
    · exact tracked'

/-- Completing a flush. -/
theorem completeFlush {control' tracked' : SendState → Prop}
    (holds : outbound.Holds control tracked)
    (kept : ∀ state, control state → state ≠ .flush → control' state)
    (sent : ∀ state, tracked state → tracked' (flushedState state)) :
    outbound.completeFlush.Holds control' tracked' := by
  refine ⟨fun entry found => ?_, fun entry found => ?_, fun entry found => ?_⟩
  · simp only [Outbound.completeFlush, FixedVec.toList_filter, List.mem_filter, bne_iff_ne] at found
    exact kept _ (holds.control entry found.1) found.2
  · obtain ⟨old, known, rfl⟩ := List.mem_map.mp found
    exact sent _ (holds.release old known)
  · obtain ⟨old, known, rfl⟩ := List.mem_map.mp found
    exact sent _ (holds.retained old known)

theorem new (buf : Bytes) : (Outbound.new buf).Holds control tracked :=
  ⟨fun _ found => by simp [Outbound.new] at found, fun _ found => by simp [Outbound.new] at found,
    fun _ found => by simp [Outbound.new] at found⟩

theorem clearInflight : outbound.clearInflight.Holds control tracked :=
  ⟨fun _ found => by simp [Outbound.clearInflight] at found,
    fun _ found => by simp [Outbound.clearInflight] at found,
    fun _ found => by simp [Outbound.clearInflight] at found⟩

/-- Every packet starts over. -/
theorem armReplay (control' : control (.write 0)) (tracked' : tracked (.write 0)) :
    outbound.armReplay.Holds control tracked := by
  unfold Outbound.armReplay
  split
  · refine ⟨fun entry found => ?_, fun entry found => ?_, fun entry found => ?_⟩
    · obtain ⟨old, known, rfl⟩ := List.mem_map.mp found
      exact control'
    · obtain ⟨old, known, rfl⟩ := List.mem_map.mp found
      exact tracked'
    · obtain ⟨old, known, rfl⟩ := List.mem_map.mp found
      exact tracked'
  · -- Nothing is tracked, so there is nothing to start over.
    rename_i nothing
    simp only [hasPendingState, Bool.or_eq_true, Bool.not_eq_true', List.isEmpty_eq_false_iff,
      not_or, not_not] at nothing
    exact ⟨fun _ found => by simp [nothing.1.1] at found,
      fun _ found => by simp [nothing.2] at found, fun _ found => by simp [nothing.1.2] at found⟩

theorem mono {control' tracked' : SendState → Prop} (holds : outbound.Holds control tracked)
    (controls : ∀ state, control state → control' state)
    (others : ∀ state, tracked state → tracked' state) : outbound.Holds control' tracked' :=
  ⟨fun entry found => controls _ (holds.control entry found),
    fun entry found => others _ (holds.release entry found),
    fun entry found => others _ (holds.retained entry found)⟩

end Holds

end Outbound

/-- The position of the next byte to write is the progress of the packet. -/
theorem SendState.eq_of_writeOffset {state : SendState} {written : Nat}
    (found : state.writeOffset inProgress = some written) :
    state = .write written ∧ (written ≠ 0 ↔ inProgress = true) := by
  -- The first pass looks for packets in progress, and the second one for the others.
  cases state with
  | write other =>
    simp only [writeOffset] at found
    split at found
    · rename_i pass
      cases found
      cases inProgress <;> simp_all
    · simp at found
  | flush => simp [writeOffset] at found
  | sent => simp [writeOffset] at found

/-- How many bytes of the packet of a step were written before. -/
def OutboundStep.written : OutboundStep → Nat
  | .control _ _ written | .release _ _ written | .retained _ _ _ written => written

namespace Outbound

/-- A step writes the next bytes of a tracked packet. -/
inductive At (outbound : Outbound) : OutboundStep → Prop where
  | control {index written : Nat} {action : ControlAction}
      (found : outbound.pendingControl.toList[index]? = some ⟨action, .write written⟩) :
      At outbound (.control index action written)
  | release {front back : List PendingRelease} {packetId : UInt16} {reason : ReasonCode}
      {written : Nat} (found : outbound.pendingRelease.toList =
        front ++ ⟨packetId, reason, .write written⟩ :: back) :
      At outbound (.release packetId reason written)
  | retained {front back : List RetainedPacket} {kind : OpKind} {packetId : UInt16}
      {len written : Nat} (found : outbound.retained.toList =
        front ++ ⟨kind, packetId, len, .write written⟩ :: back) :
      At outbound (.retained packetId (bytesOf front) len written)

/-- The first control packet of a pass. -/
theorem controlStep_eq_some {start : Nat} {entries : List PendingControl}
    (next : controlStep inProgress start entries = some step) :
    ∃ index action written, step = .control (start + index) action written ∧
      entries[index]? = some ⟨action, .write written⟩ ∧ (written ≠ 0 ↔ inProgress = true) := by
  -- The index counts the packets that were passed over.
  induction entries generalizing start with
  | nil => simp [controlStep] at next
  | cons entry rest ih =>
    simp only [controlStep] at next
    cases offset : entry.state.writeOffset inProgress with
    | some written =>
      obtain ⟨state, pass⟩ := SendState.eq_of_writeOffset offset
      rw [offset, Option.some.injEq] at next
      exact ⟨0, entry.action, written, next.symm, by rw [← state]; rfl, pass⟩
    | none =>
      rw [offset] at next
      obtain ⟨index, action, written, rfl, found, pass⟩ := ih next
      exact ⟨index + 1, action, written, by rw [Nat.add_assoc, Nat.add_comm 1], found, pass⟩

/-- The first release of a pass. -/
theorem releaseStep_eq_some {entries : List PendingRelease}
    (next : releaseStep inProgress entries = some step) :
    ∃ front packetId reason written back, step = .release packetId reason written ∧
      entries = front ++ ⟨packetId, reason, .write written⟩ :: back ∧
      (written ≠ 0 ↔ inProgress = true) := by
  -- Packets in front of the one that is found have nothing to write in this pass.
  induction entries with
  | nil => simp [releaseStep] at next
  | cons entry rest ih =>
    simp only [releaseStep] at next
    cases offset : entry.state.writeOffset inProgress with
    | some written =>
      obtain ⟨state, pass⟩ := SendState.eq_of_writeOffset offset
      rw [offset, Option.some.injEq] at next
      exact ⟨[], entry.packetId, entry.reason, written, rest, next.symm, by rw [← state]; rfl, pass⟩
    | none =>
      rw [offset] at next
      obtain ⟨front, packetId, reason, written, back, rfl, rfl, pass⟩ := ih next
      exact ⟨entry :: front, packetId, reason, written, back, rfl, rfl, pass⟩

/-- The first retained packet of a pass. -/
theorem retainedStep_eq_some {offset : Nat} {entries : List RetainedPacket}
    (next : retainedStep inProgress offset entries = some step) :
    ∃ front kind packetId len written back,
      step = .retained packetId (offset + bytesOf front) len written ∧
      entries = front ++ ⟨kind, packetId, len, .write written⟩ :: back ∧
      (written ≠ 0 ↔ inProgress = true) := by
  -- The offset adds up the lengths of the packets that were passed over.
  induction entries generalizing offset with
  | nil => simp [retainedStep] at next
  | cons entry rest ih =>
    simp only [retainedStep] at next
    cases progress : entry.state.writeOffset inProgress with
    | some written =>
      obtain ⟨state, pass⟩ := SendState.eq_of_writeOffset progress
      rw [progress, Option.some.injEq] at next
      exact ⟨[], entry.kind, entry.packetId, entry.len, written, rest, next.symm,
        by rw [← state]; rfl, pass⟩
    | none =>
      rw [progress] at next
      obtain ⟨front, kind, packetId, len, written, back, rfl, rfl, pass⟩ := ih next
      refine ⟨entry :: front, kind, packetId, len, written, back, ?_, rfl, pass⟩
      simp [bytesOf, Nat.add_assoc]

/-- The first packet of a pass is a tracked one whose progress fits the pass. -/
theorem at_of_stepFor {outbound : Outbound} (next : outbound.stepFor inProgress = some step) :
    outbound.At step ∧ (step.written ≠ 0 ↔ inProgress = true) := by
  -- Control packets come first, then releases, then retained packets.
  unfold stepFor at next
  rcases Option.or_eq_some_iff.mp next with found | ⟨-, next⟩
  · obtain ⟨index, action, written, rfl, found, pass⟩ := controlStep_eq_some found
    rw [Nat.zero_add]
    exact ⟨.control found, pass⟩
  · rcases Option.or_eq_some_iff.mp next with found | ⟨-, found⟩
    · obtain ⟨front, packetId, reason, written, back, rfl, found, pass⟩ := releaseStep_eq_some found
      exact ⟨.release found, pass⟩
    · obtain ⟨front, kind, packetId, len, written, back, rfl, found, pass⟩ :=
        retainedStep_eq_some found
      rw [Nat.zero_add]
      exact ⟨.retained found, pass⟩

theorem at_of_nextStep {outbound : Outbound} (next : outbound.nextStep = some step) :
    outbound.At step ∧ (step.written = 0 → outbound.stepFor true = none) := by
  rcases Option.or_eq_some_iff.mp next with first | ⟨none, second⟩
  · obtain ⟨at', pass⟩ := at_of_stepFor first
    exact ⟨at', fun zero => absurd zero (pass.mpr rfl)⟩
  · exact ⟨(at_of_stepFor second).1, fun _ => none⟩

end Outbound

theorem markPublishDuplicate_idem (byte : UInt8) :
    markPublishDuplicate (markPublishDuplicate byte) = markPublishDuplicate byte := by
  simp [markPublishDuplicate, FixedHeader.withPublishDuplicate, UInt8.or_assoc]

theorem modify_modify_comm {α : Type} (f : α → α) (list : List α) (first second : Nat) :
    (list.modify first f).modify second f = (list.modify second f).modify first f := by
  refine List.ext_getElem? fun index => ?_
  simp only [List.getElem?_modify]
  cases list[index]? with
  | none => rfl
  | some value => by_cases here : first = index <;> by_cases there : second = index <;> simp [here, there]

namespace Outbound

/-- A byte may be marked before or after the publications are. -/
theorem markDupFrom_modify (offset index : Nat) (entries : List RetainedPacket) (buf : Bytes) :
    markDupFrom offset entries (buf.modify index markPublishDuplicate) =
      (markDupFrom offset entries buf).modify index markPublishDuplicate := by
  induction entries generalizing offset buf with
  | nil => rfl
  | cons entry rest ih =>
    simp only [markDupFrom]
    split
    · rw [modify_modify_comm, ih]
    · exact ih _ _

/-- Marking the publications once more changes nothing. -/
theorem markDupFrom_idem (offset : Nat) (entries : List RetainedPacket) (buf : Bytes) :
    markDupFrom offset entries (markDupFrom offset entries buf) = markDupFrom offset entries buf := by
  -- A mark sets one bit, and setting it twice is setting it once.
  induction entries generalizing offset buf with
  | nil => rfl
  | cons entry rest ih =>
    simp only [markDupFrom]
    split
    · have twice : (buf.modify offset markPublishDuplicate).modify offset markPublishDuplicate =
          buf.modify offset markPublishDuplicate := by
        rw [List.modify_modify_eq]
        congr 1
        funext byte
        exact markPublishDuplicate_idem byte
      rw [← markDupFrom_modify, twice, ih]
    · exact ih _ _

theorem markDupFrom_map {f : RetainedPacket → RetainedPacket}
    (same : ∀ entry, (f entry).kind = entry.kind ∧ (f entry).len = entry.len) (offset : Nat)
    (entries : List RetainedPacket) (buf : Bytes) :
    markDupFrom offset (entries.map f) buf = markDupFrom offset entries buf := by
  induction entries generalizing offset buf with
  | nil => rfl
  | cons entry rest ih => simp only [List.map_cons, markDupFrom, (same entry).1, (same entry).2, ih]

/-- Starting over once more changes nothing. -/
theorem armReplay_armReplay (outbound : Outbound) :
    outbound.armReplay.armReplay = outbound.armReplay := by
  -- If nothing is tracked, starting over does nothing at all.
  by_cases tracked : outbound.hasPendingState = true
  · have armed : outbound.armReplay = { outbound with
        buf := markDupFrom 0 outbound.retained.toList outbound.buf
        pendingControl := outbound.pendingControl.map fun entry => { entry with state := .write 0 }
        retained := outbound.retained.map fun entry => { entry with state := .write 0 }
        pendingRelease := outbound.pendingRelease.map fun entry =>
          { entry with state := .write 0 } } := if_pos tracked
    have still : outbound.armReplay.hasPendingState = true := by
      rw [armed]
      simpa [hasPendingState] using tracked
    rw [armReplay, if_pos still, armed]
    have marked := markDupFrom_map (f := fun entry => { entry with state := .write 0 })
      (fun _ => ⟨rfl, rfl⟩) 0 outbound.retained.toList
        (markDupFrom 0 outbound.retained.toList outbound.buf)
    rw [markDupFrom_idem] at marked
    simp only [markPublishDup, FixedVec.toList_map, Outbound.mk.injEq, true_and]
    refine ⟨marked, ?_, ?_, ?_⟩
    · ext
      simp
    · ext
      simp
    · ext
      simp
  · have same : outbound.armReplay = outbound := if_neg tracked
    rw [same, same]

end Outbound

end Minimq

import Minimq.Proofs.Client.Bookkeeping
import Minimq.Proofs.Client.Failure

/-! The work that is left to do on a connection, which every round of outbound progress reduces. -/

namespace Minimq

open Hoare Async

variable {τ : Type}

/-- The bytes of a packet that are still to be written. -/
def SendState.rest (len : Nat) : SendState → Nat
  | .write written => len - written
  | .flush | .sent => 0

/-- The bytes of a tracked packet that are still to be written. -/
def Slot.rest (slot : Slot) : Nat := slot.2.rest slot.1.len

namespace Outbound

variable {outbound : Outbound}

/-- The bytes that are still to be written. -/
def burden (outbound : Outbound) : Nat := (outbound.slots.map Slot.rest).sum

/-- Whether a PINGREQ is still to be written. -/
def pinging (outbound : Outbound) : Bool :=
  outbound.pendingControl.toList.any fun entry =>
    entry.action == .pingReq && (match entry.state with
      | .write _ => true
      | .flush | .sent => false)

theorem sum_controlSlots (index : Nat) (entries : List PendingControl) :
    ((controlSlots index entries).map Slot.rest).sum =
      (entries.map fun entry => entry.state.rest entry.action.wire.length).sum := by
  induction entries generalizing index with
  | nil => rfl
  | cons entry rest ih =>
    rw [controlSlots, List.map_cons, List.sum_cons, ih]
    rfl

theorem sum_retainedSlots (offset : Nat) (entries : List RetainedPacket) :
    ((retainedSlots offset entries).map Slot.rest).sum =
      (entries.map fun entry => entry.state.rest entry.len).sum := by
  induction entries generalizing offset with
  | nil => rfl
  | cons entry rest ih =>
    rw [retainedSlots, List.map_cons, List.sum_cons, ih]
    rfl

/-- The bytes that are still to be written, queue by queue. -/
theorem burden_eq : outbound.burden =
    (outbound.pendingControl.toList.map fun entry =>
      entry.state.rest entry.action.wire.length).sum +
    ((outbound.pendingRelease.toList.map fun entry =>
      entry.state.rest (releaseWire entry.packetId entry.reason).length).sum +
    (outbound.retained.toList.map fun entry => entry.state.rest entry.len).sum) := by
  rw [burden, slots, List.map_append, List.map_append, List.sum_append, List.sum_append,
    sum_controlSlots, sum_retainedSlots, List.map_map]
  rfl

/-- Bytes of the next packet that are accepted are no longer to be written. -/
theorem burden_setWritten {step : OutboundStep} {count : Nat} (identified : outbound.Identified)
    (next : outbound.nextStep = some step) (positive : 0 < count)
    (within : step.written + count ≤ (outbound.load step).bytes.length) :
    (outbound.setWritten (step.written + count) (outbound.load step).bytes.length
      step.packet).burden < outbound.burden := by
  obtain ⟨front, back, split, changed⟩ := (at_of_nextStep next).1.slots identified
  have bound := @length_load_le outbound step
  simp only [burden, changed, split, List.map_append, List.map_cons, List.sum_append,
    List.sum_cons]
  -- Only the slot of this packet changes, and it has fewer bytes left.
  have less : Slot.rest (step.advance 0,
      .setWritten (step.written + count) (outbound.load step).bytes.length) <
        Slot.rest (step.advance 0, .write step.written) := by
    simp only [Slot.rest, OutboundStep.len_advance, SendState.setWritten]
    split
    · simp only [SendState.rest]
      omega
    · simp only [SendState.rest]
      omega
  omega

/-- A completed flush leaves what is still to be written. -/
theorem burden_completeFlush : outbound.completeFlush.burden = outbound.burden := by
  have state (len : Nat) (state : SendState) : (flushedState state).rest len = state.rest len := by
    cases state <;> rfl
  have controls (entries : List PendingControl) :
      ((entries.filter fun entry => entry.state != .flush).map fun entry =>
        entry.state.rest entry.action.wire.length).sum =
      (entries.map fun entry => entry.state.rest entry.action.wire.length).sum := by
    -- A flushed control packet had no bytes left, so its removal costs nothing.
    induction entries with
    | nil => rfl
    | cons entry rest ih =>
      rw [List.filter_cons, List.map_cons, List.sum_cons, ← ih]
      cases known : entry.state <;> simp [known, SendState.rest]
  rw [burden_eq, burden_eq]
  simp only [completeFlush, FixedVec.toList_filter, FixedVec.toList_map, List.map_map,
    Function.comp_def, controls, state]

theorem pinging_completeFlush : outbound.completeFlush.pinging = outbound.pinging := by
  simp only [pinging, completeFlush, FixedVec.toList_filter]
  -- What a flush removes was written, so it is no PINGREQ under way.
  induction outbound.pendingControl.toList with
  | nil => rfl
  | cons entry rest ih =>
    rw [List.filter_cons, List.any_cons, ← ih]
    cases known : entry.state <;> simp [known]

/-- A queued control packet is still to be written. -/
theorem burden_queueControl {action : ControlAction} {queued : Outbound}
    (done : outbound.queueControl action = .ok queued) :
    queued.burden = outbound.burden + action.wire.length := by
  obtain ⟨pendingControl, rfl, appended⟩ := controls_of_queueControl done
  rw [burden_eq, burden_eq]
  simp only [appended, List.map_append, List.sum_append, List.map_cons, List.map_nil,
    List.sum_cons, List.sum_nil, SendState.rest]
  omega

/-- A PINGREQ that is still to be written stays so until its last byte is accepted. -/
theorem pinging_setWritten {step : OutboundStep} {written len : Nat}
    (next : outbound.nextStep = some step) (pinging : outbound.pinging = true) :
    (outbound.setWritten written len step.packet).pinging = true ∨
      step.isPing = true ∧ len ≤ written := by
  cases (at_of_nextStep next).1 with
  | release split => exact .inl pinging
  | retained split => exact .inl pinging
  | @control index before action found =>
    obtain ⟨front, back, split, rfl⟩ := split_of_getElem? found
    have changed := @controls_setControlWritten outbound front back _ written len split
    unfold Outbound.pinging at pinging ⊢
    simp only [OutboundStep.packet, setWritten, changed]
    rw [split, List.any_append, List.any_cons, Bool.or_eq_true, Bool.or_eq_true] at pinging
    rw [List.any_append, List.any_cons, Bool.or_eq_true, Bool.or_eq_true]
    by_cases complete : len ≤ written
    · rcases pinging with ahead | self | behind
      · exact .inl (.inl ahead)
      · -- The packet of the step is the PINGREQ, and it is complete.
        exact .inr ⟨by simpa [OutboundStep.isPing] using self, complete⟩
      · exact .inl (.inr (.inr behind))
    · refine .inl (pinging.imp_right (Or.imp_left fun self => ?_))
      simpa [SendState.setWritten, complete] using self

end Outbound

/-- A step can be written exactly if its packet is within the limit of the broker. -/
theorem writeStep_eq (session : Session) (step : OutboundStep) :
    (writeStep session step : Except (Error τ) WriteStep) =
      if exceeds session.runtime.maximumPacketSize step.len then .error (.resource .packetTooLarge)
      else .ok (session.data.outbound.load step) := by
  -- Each kind of packet is checked against the limit after its encoding.
  by_cases large : exceeds session.runtime.maximumPacketSize step.len = true
  · rw [if_pos large]
    cases step <;>
      simp_all [writeStep, serializeControlPacket, encodeControlPacket_eq, serializePubrel,
        encodePubrel_eq, withinLimit, RuntimeState.requirePacketSize, bind, Except.bind,
        Except.mapError, OutboundStep.len]
  · rw [if_neg large]
    cases step <;>
      simp_all [writeStep, serializeControlPacket, encodeControlPacket_eq, serializePubrel,
        encodePubrel_eq, withinLimit, RuntimeState.requirePacketSize, bind, Except.bind,
        Except.mapError, OutboundStep.len, Outbound.load, pure, Except.pure]

namespace Connection

variable {connection : Connection}

/-- What the next PINGREQ will add, unless one is underway. -/
def pingCredit (connection : Connection) : Nat :=
  if connection.runtime.pingTimeout.isSome || connection.outbound.pinging then 0 else 6

/-- The work that is left: bytes to write, a flush, and the next PINGREQ with its own flush. -/
def workload (connection : Connection) : Nat :=
  2 * connection.outbound.burden + (if connection.flushState = .clean then 0 else 1) +
    connection.pingCredit

/-- A PINGREQ that was underway is underway or waits for its answer. -/
theorem pingCredit_afterWrite {step : OutboundStep} {count now : Nat}
    (next : connection.outbound.nextStep = some step)
    (within : step.written + count ≤ (connection.outbound.load step).bytes.length) :
    (connection.afterWrite step (connection.outbound.load step) count now).pingCredit ≤
      connection.pingCredit := by
  unfold pingCredit
  by_cases waiting : connection.runtime.pingTimeout.isSome || connection.outbound.pinging
  · rw [if_pos waiting, if_pos]
    simp only [afterWrite, Outbound.load_packet, Outbound.load_written]
    split
    · rfl
    · rename_i other
      rw [Bool.or_eq_true] at waiting ⊢
      refine waiting.imp_right fun pinging => ?_
      -- The write that completes a PINGREQ starts the wait for its answer.
      rcases Outbound.pinging_setWritten next pinging with still | ⟨ping, complete⟩
      · exact still
      · have whole := Nat.le_antisymm within complete
        rw [ping, Bool.true_and, beq_iff_eq] at other
        exact absurd whole other
  · rw [if_neg waiting]
    split <;> omega

/-- Accepted bytes reduce the work, although they have to be flushed. -/
theorem workload_afterWrite {step : OutboundStep} {count now : Nat}
    (identified : connection.outbound.Identified)
    (next : connection.outbound.nextStep = some step) (positive : 0 < count)
    (within : step.written + count ≤ (connection.outbound.load step).bytes.length) :
    (connection.afterWrite step (connection.outbound.load step) count now).workload <
      connection.workload := by
  have lighter := Outbound.burden_setWritten identified next positive within
  have credit := @pingCredit_afterWrite connection step count now next within
  unfold workload
  rw [afterWrite_outbound, Outbound.load_packet, Outbound.load_written]
  split <;> split <;> omega

/-- A flush reduces the work. -/
theorem workload_afterFlush {now : Nat} (unflushed : connection.flushState ≠ .clean) :
    (connection.afterFlush now).workload < connection.workload := by
  -- The queues lose nothing to a flush, and the open flush is done.
  have burden : (connection.afterFlush now).outbound.burden = connection.outbound.burden :=
    Outbound.burden_completeFlush
  have credit : (connection.afterFlush now).pingCredit = connection.pingCredit := by
    have same : (connection.afterFlush now).outbound.pinging = connection.outbound.pinging :=
      Outbound.pinging_completeFlush
    simp only [pingCredit, same]
    rfl
  have clean : (connection.afterFlush now).flushState = .clean := rfl
  unfold workload
  rw [burden, credit, clean, if_pos rfl, if_neg unflushed]
  omega

/-- A PINGREQ that is due and not underway is accounted for in advance. -/
theorem workload_pinged {now : Nat} {outbound : Outbound}
    (due : shouldQueuePingreq connection.session now = true)
    (queued : connection.outbound.queueControl .pingReq = .ok outbound) :
    (connection.mapOutbound fun _ => outbound).workload < connection.workload := by
  have burden : outbound.burden = connection.outbound.burden + 2 :=
    Outbound.burden_queueControl queued
  obtain ⟨pendingControl, rfl, appended⟩ := Outbound.controls_of_queueControl queued
  simp only [shouldQueuePingreq, Bool.and_eq_true, Option.isNone_iff_eq_none,
    Bool.not_eq_true'] at due
  -- No PINGREQ is underway before, and one is afterwards.
  have before : connection.pingCredit = 6 := by
    have none : connection.outbound.pinging = false := by
      have absent := due.2
      simp only [Outbound.hasPendingPingreq, List.any_eq_false] at absent
      simp only [Outbound.pinging, List.any_eq_false]
      intro entry found ping
      refine absent entry found ?_
      cases known : entry.state <;> simp_all
    simp [pingCredit, due.1.1, none]
  have after : (connection.mapOutbound fun _ =>
      ({ connection.outbound with pendingControl } : Outbound)).pingCredit = 0 := by
    simp [pingCredit, Outbound.pinging, appended, mapOutbound, mapData, mapSession]
  unfold workload
  rw [before, after]
  change 2 * Outbound.burden { connection.outbound with pendingControl } +
    (if connection.flushState = .clean then 0 else 1) + 0 < _
  rw [burden]
  omega

end Connection

end Minimq

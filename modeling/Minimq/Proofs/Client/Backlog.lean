import Minimq.Proofs.Client.Holdings
import Minimq.Proofs.Client.Ping
import Minimq.Proofs.Client.Stream
import Minimq.Proofs.Client.Supply

/-! The bytes that are still to be written, in the order in which the connection will write them. -/

namespace Minimq

open Async

variable {τ : Type}

/-- What one of the two passes over the tracked packets has still to write of a packet. -/
def SendState.owed (pass : Bool) (bytes : Bytes) : SendState → Bytes
  | .write written => if (written != 0) == pass then bytes.drop written else []
  | .flush | .sent => []

namespace Outbound

variable {outbound : Outbound} {step : OutboundStep}

/-- What one of the two passes has still to write, packet by packet. -/
def owed (outbound : Outbound) (pass : Bool) : Bytes :=
  outbound.slots.flatMap fun slot => slot.2.owed pass (outbound.load slot.1).bytes

/-- All that is still to be written: the packet in progress first, then the others in order. -/
def backlog (outbound : Outbound) : Bytes := outbound.owed true ++ outbound.owed false

/-- The bytes of the control packets do not depend on where they are queued. -/
theorem flatMap_controlSlots (view : Bytes → SendState → Bytes) (index : Nat)
    (entries : List PendingControl) :
    ((controlSlots index entries).flatMap fun slot => view (outbound.load slot.1).bytes slot.2) =
      entries.flatMap fun entry => view entry.action.wire entry.state := by
  induction entries generalizing index with
  | nil => rfl
  | cons entry rest ih =>
    rw [controlSlots, List.flatMap_cons, List.flatMap_cons, ih]
    rfl

/-- The bytes of the retained packets are those in the arena. -/
theorem flatMap_retainedSlots (view : Bytes → SendState → Bytes) (offset : Nat)
    (entries : List RetainedPacket) :
    ((retainedSlots offset entries).flatMap fun slot => view (outbound.load slot.1).bytes slot.2) =
      (contentsFrom outbound.buf offset entries).flatMap fun content =>
        view content.2 content.1.state := by
  induction entries generalizing offset with
  | nil => rfl
  | cons entry rest ih =>
    rw [retainedSlots, contentsFrom, List.flatMap_cons, List.flatMap_cons, ih]
    rfl

/-- What a pass has still to write, queue by queue. -/
theorem owed_eq (pass : Bool) : outbound.owed pass =
    (outbound.pendingControl.toList.flatMap fun entry =>
      entry.state.owed pass entry.action.wire) ++
    ((outbound.pendingRelease.toList.flatMap fun entry =>
      entry.state.owed pass (releaseWire entry.packetId entry.reason)) ++
    outbound.contents.flatMap fun content => content.1.state.owed pass content.2) := by
  rw [owed, slots, List.flatMap_append, List.flatMap_append,
    flatMap_controlSlots fun bytes state => state.owed pass bytes,
    flatMap_retainedSlots fun bytes state => state.owed pass bytes, List.flatMap_map]
  rfl

/-- The progress of the retained packets may change without moving them in the arena. -/
theorem contentsFrom_map (change : RetainedPacket → RetainedPacket)
    (same : ∀ entry, (change entry).len = entry.len) (buf : Bytes) (offset : Nat)
    (entries : List RetainedPacket) :
    contentsFrom buf offset (entries.map change) =
      (contentsFrom buf offset entries).map fun content => (change content.1, content.2) := by
  induction entries generalizing offset with
  | nil => rfl
  | cons entry rest ih =>
    rw [List.map_cons, contentsFrom, contentsFrom, List.map_cons, ih, same]

/-- A completed flush leaves everything to be written that was. -/
theorem owed_completeFlush (pass : Bool) : outbound.completeFlush.owed pass = outbound.owed pass := by
  -- Only packets that are written as a whole leave the queue or change their state.
  have state (bytes : Bytes) (state : SendState) :
      (flushedState state).owed pass bytes = state.owed pass bytes := by
    cases state <;> rfl
  have controls (entries : List PendingControl) :
      ((entries.filter fun entry => entry.state != .flush).flatMap fun entry =>
        entry.state.owed pass entry.action.wire) =
      entries.flatMap fun entry => entry.state.owed pass entry.action.wire := by
    induction entries with
    | nil => rfl
    | cons entry rest ih =>
      rw [List.filter_cons, List.flatMap_cons, ← ih]
      cases known : entry.state <;> simp [known, SendState.owed]
  rw [owed_eq, owed_eq]
  simp only [completeFlush, FixedVec.toList_filter, FixedVec.toList_map, controls, contents,
    List.flatMap_map, state]
  rw [contentsFrom_map (fun entry => { entry with state := flushedState entry.state }) fun _ => rfl,
    List.flatMap_map]
  simp only [state]

theorem backlog_completeFlush : outbound.completeFlush.backlog = outbound.backlog := by
  rw [backlog, backlog, owed_completeFlush, owed_completeFlush]

/-- Every tracked packet is listed once. -/
theorem packets_nodup (identified : outbound.Identified) :
    (outbound.slots.map (·.1.packet)).Nodup := by
  have distinct := List.nodup_append.mp identified.distinct
  have control (index : Nat) (entries : List PendingControl) :
      (controlSlots index entries).map (·.1.packet) =
        (List.range' index entries.length).map .control := by
    induction entries generalizing index with
    | nil => rfl
    | cons entry rest ih =>
      rw [controlSlots, List.map_cons, List.length_cons, List.range'_succ, List.map_cons, ih]
      rfl
  have retained (offset : Nat) (entries : List RetainedPacket) :
      (retainedSlots offset entries).map (·.1.packet) =
        (entries.map (·.packetId)).map .retained := by
    induction entries generalizing offset with
    | nil => rfl
    | cons entry rest ih =>
      rw [retainedSlots, List.map_cons, List.map_cons, List.map_cons, ih]
      rfl
  have release (entries : List PendingRelease) :
      (entries.map releaseSlot).map (·.1.packet) = (entries.map (·.packetId)).map .release := by
    rw [List.map_map, List.map_map]
    rfl
  rw [slots, List.map_append, List.map_append, control, release, retained]
  -- The indices and the identifiers are distinct, and so are the three kinds of packets.
  refine List.nodup_append.mpr ⟨?_, List.nodup_append.mpr ⟨?_, ?_, ?_⟩, ?_⟩
  · exact List.Nodup.map (fun _ _ same => Packet.control.inj same) List.nodup_range'
  · exact List.Nodup.map (fun _ _ same => Packet.release.inj same) distinct.2.1
  · exact List.Nodup.map (fun _ _ same => Packet.retained.inj same) distinct.1
  · simp
  · intro packet found other member
    obtain ⟨index, -, rfl⟩ := List.mem_map.mp found
    rcases List.mem_append.mp member with member | member
    all_goals
      obtain ⟨packetId, -, rfl⟩ := List.mem_map.mp member
      simp

/-- Packets that a pass passes over leave nothing for it to write. -/
theorem flatMap_owed_of_pick {pass : Bool} {front : List Slot}
    (passed : ∀ slot ∈ front, Slot.pick pass slot = none) :
    (front.flatMap fun slot => slot.2.owed pass (outbound.load slot.1).bytes) = [] := by
  -- A packet is passed over if it owes nothing, or is not at the stage of this pass.
  refine List.flatMap_eq_nil_iff.mpr fun slot member => ?_
  have none := passed slot member
  rw [Slot.pick, Option.map_eq_none_iff] at none
  obtain ⟨start, state⟩ := slot
  cases state with
  | write written =>
    simp only [SendState.writeOffset, ite_eq_right_iff, reduceCtorEq, imp_false] at none
    exact if_neg none
  | flush => rfl
  | sent => rfl

/-- A packet that is started is the first one that is not in progress. -/
theorem passed_of_nextStep {front back : List Slot} (identified : outbound.Identified)
    (next : outbound.nextStep = some step) (zero : step.written = 0)
    (split : outbound.slots = front ++ (step.advance 0, .write step.written) :: back) :
    ∀ slot ∈ front, Slot.pick false slot = none := by
  have first : outbound.stepFor false = some step := by
    rw [nextStep, (at_of_nextStep next).2 zero] at next
    exact next
  rw [stepFor_eq, split, List.findSome?_append] at first
  -- Any packet found further in front would be the packet of the step itself.
  rw [← List.findSome?_eq_none_iff]
  cases found : front.findSome? (Slot.pick false) with
  | none => rfl
  | some other =>
    rw [found, Option.some_or, Option.some.injEq] at first
    subst first
    obtain ⟨slot, member, picked⟩ := List.exists_of_findSome?_eq_some found
    obtain ⟨written, -, same⟩ := Option.map_eq_some_iff.mp picked
    have nodup := packets_nodup identified
    rw [split, List.map_append, List.map_cons, List.nodup_append] at nodup
    refine absurd ?_ (nodup.2.2 slot.1.packet (List.mem_map_of_mem member) _ (.head _))
    rw [← same]
    cases slot.1 <;> rfl

/-- The bytes that the transport accepts are the next ones that are to be written. -/
theorem backlog_setWritten {count : Nat} (identified : outbound.Identified)
    (single : outbound.started ≤ 1) (next : outbound.nextStep = some step) (positive : 0 < count) :
    ((outbound.load step).bytes.drop step.written).take count ++
      (outbound.setWritten (step.written + count) (outbound.load step).bytes.length
        step.packet).backlog = outbound.backlog := by
  obtain ⟨front, back, split, changed⟩ := (at_of_nextStep next).1.slots identified
  have sole := started_of_nextStep single next
  rw [started, split, List.countP_append, List.countP_cons] at sole
  have self : (SendState.write step.written).inProgress = (step.written != 0) := rfl
  simp only [self, bne_iff_ne, ne_eq, ite_not] at sole
  -- No other packet is in progress.
  have apart {slots : List Slot} (none : slots.countP (·.2.inProgress) = 0) :
      (slots.flatMap fun slot => slot.2.owed true (outbound.load slot.1).bytes) = [] := by
    refine flatMap_owed_of_pick fun slot member => ?_
    have idle : slot.2.inProgress = false := by
      simpa using List.countP_eq_zero.mp none slot member
    rw [Slot.pick, SendState.writeOffset_true.mpr idle, Option.map_none]
  have ahead : (front.flatMap fun slot => slot.2.owed true (outbound.load slot.1).bytes) = [] :=
    apart (by split at sole <;> omega)
  have behind : (back.flatMap fun slot => slot.2.owed true (outbound.load slot.1).bytes) = [] :=
    apart (by split at sole <;> omega)
  -- What is left of the packet itself is in progress.
  have left : (SendState.setWritten (step.written + count)
      (outbound.load step).bytes.length).owed true (outbound.load step).bytes =
        (outbound.load step).bytes.drop (step.written + count) := by
    unfold SendState.setWritten
    split
    · rename_i complete
      exact (List.drop_eq_nil_of_le complete).symm
    · exact if_pos (by simp; omega)
  have gone : (SendState.setWritten (step.written + count)
      (outbound.load step).bytes.length).owed false (outbound.load step).bytes = [] := by
    unfold SendState.setWritten
    split
    · rfl
    · exact if_neg (by simp; omega)
  have same : (outbound.load (step.advance 0)).bytes = (outbound.load step).bytes := by
    rw [load_advance]
  have rest := List.take_append_drop count ((outbound.load step).bytes.drop step.written)
  rw [List.drop_drop] at rest
  simp only [backlog, owed, changed, split, load_setWritten, List.flatMap_append, List.flatMap_cons,
    same, ahead, behind, left, gone, List.nil_append, List.append_nil]
  by_cases zero : step.written = 0
  · -- The packet is started, so it is the first of the second pass.
    have skipped : (front.flatMap fun slot => slot.2.owed false (outbound.load slot.1).bytes) = [] :=
      flatMap_owed_of_pick (passed_of_nextStep identified next zero split)
    have first : (SendState.write step.written).owed true (outbound.load step).bytes = [] :=
      if_neg (by simp [zero])
    have second : (SendState.write step.written).owed false (outbound.load step).bytes =
        (outbound.load step).bytes.drop step.written := if_pos (by simp [zero])
    rw [first, second, skipped, ← List.append_assoc, rest]
    rfl
  · -- The packet is in progress, so it is all that the first pass finds.
    have first : (SendState.write step.written).owed true (outbound.load step).bytes =
        (outbound.load step).bytes.drop step.written := if_pos (by simp [zero])
    have second : (SendState.write step.written).owed false (outbound.load step).bytes = [] :=
      if_neg (by simp [zero])
    rw [first, second, List.nil_append, ← List.append_assoc, rest]

theorem backlog_of_nextStep (none : outbound.nextStep = none) : outbound.backlog = [] := by
  obtain ⟨first, second⟩ := Option.or_eq_none_iff.mp none
  rw [stepFor_eq, List.findSome?_eq_none_iff] at first second
  rw [backlog, owed, owed, flatMap_owed_of_pick first, flatMap_owed_of_pick second]
  rfl

/-- The packets in the arena, one behind the other. -/
theorem flatMap_contentsFrom (buf : Bytes) (offset : Nat) (entries : List RetainedPacket) :
    ((contentsFrom buf offset entries).flatMap fun content => content.2) =
      (buf.drop offset).take (bytesOf entries) := by
  induction entries generalizing offset with
  | nil => simp [contentsFrom, bytesOf]
  | cons entry rest ih =>
    have total : bytesOf (entry :: rest) = entry.len + bytesOf rest := by simp [bytesOf]
    rw [contentsFrom, List.flatMap_cons, ih, total, List.take_add, List.drop_drop]

/-- If every packet is to be started, all of them are to be written: queue by queue, in order. -/
theorem backlog_of_armed (armed : outbound.Holds (· = .write 0) (· = .write 0)) :
    outbound.backlog = (outbound.pendingControl.toList.flatMap fun entry => entry.action.wire) ++
      ((outbound.pendingRelease.toList.flatMap fun entry =>
        releaseWire entry.packetId entry.reason) ++
      outbound.buf.take outbound.retainedBytes) := by
  have entry {content : RetainedPacket × Bytes} (found : content ∈ outbound.contents) :
      content.1.state = .write 0 := by
    refine armed.retained content.1 ?_
    rw [← map_fst_contentsFrom outbound.buf 0 outbound.retained.toList]
    exact List.mem_map_of_mem found
  -- The first pass finds nothing, and the second one all bytes of every packet.
  have first : outbound.owed true = [] := by
    rw [owed_eq]
    simp only [List.append_eq_nil_iff, List.flatMap_eq_nil_iff]
    refine ⟨fun content found => ?_, fun content found => ?_, fun content found => ?_⟩
    · rw [armed.control content found]
      rfl
    · rw [armed.release content found]
      rfl
    · rw [entry found]
      rfl
  have packets : outbound.buf.take outbound.retainedBytes =
      outbound.contents.flatMap fun content => content.2 := by
    rw [contents, flatMap_contentsFrom, List.drop_zero]
    rfl
  rw [backlog, first, owed_eq, List.nil_append, packets]
  refine congrArg₂ (· ++ ·) ?_ (congrArg₂ (· ++ ·) ?_ ?_)
  all_goals refine List.flatMap_congr fun content found => ?_
  · rw [armed.control content found]
    rfl
  · rw [armed.release content found]
    rfl
  · rw [entry found]
    rfl

end Outbound

end Minimq

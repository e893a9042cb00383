import Minimq.Proofs.Client.Acknowledge
import Minimq.Proofs.Client.Ledger

/-! At most one packet is in progress, and it is written to its end before another is started. -/

namespace Minimq

open Async

variable {τ : Type} {step : OutboundStep} {state : SendState} {packetId : UInt16}

/-- Some bytes of a packet are written and some are not. -/
def SendState.inProgress : SendState → Bool
  | .write written => written != 0
  | .flush | .sent => false

theorem SendState.writeOffset_true : state.writeOffset true = none ↔ state.inProgress = false := by
  cases state <;> simp [writeOffset, inProgress]

theorem SendState.inProgress_setWritten {written len : Nat} (positive : 0 < written) :
    (SendState.setWritten written len).inProgress = !decide (len ≤ written) := by
  unfold setWritten
  split
  · simp [inProgress, *]
  · simp only [inProgress, decide_eq_false ‹_›, Bool.not_false, bne_iff_ne]
    omega

/-- The packet of a step. -/
def OutboundStep.packet : OutboundStep → Packet
  | .control index _ _ => .control index
  | .release packetId _ _ => .release packetId
  | .retained packetId _ _ _ => .retained packetId

/-- The step that goes on with a packet from another position. -/
def OutboundStep.advance (written : Nat) : OutboundStep → OutboundStep
  | .control index action _ => .control index action written
  | .release packetId reason _ => .release packetId reason written
  | .retained packetId offset len _ => .retained packetId offset len written

@[simp] theorem OutboundStep.advance_advance (step : OutboundStep) (first second : Nat) :
    (step.advance first).advance second = step.advance second := by
  cases step <;> rfl

@[simp] theorem OutboundStep.advance_written (step : OutboundStep) :
    step.advance step.written = step := by
  cases step <;> rfl

/-- A tracked packet: the step that starts it, and how far it has got. -/
abbrev Slot := OutboundStep × SendState

/-- The step that goes on with a packet, if it belongs to a pass. -/
def Slot.pick (pass : Bool) (slot : Slot) : Option OutboundStep :=
  (slot.2.writeOffset pass).map slot.1.advance

namespace Outbound

variable {outbound : Outbound}

/-- The control packets, counting from an index. -/
def controlSlots : (index : Nat) → List PendingControl → List Slot
  | _, [] => []
  | index, entry :: rest =>
    (.control index entry.action 0, entry.state) :: controlSlots (index + 1) rest

/-- A release. -/
def releaseSlot (entry : PendingRelease) : Slot :=
  (.release entry.packetId entry.reason 0, entry.state)

/-- The retained packets, counting bytes from an offset. -/
def retainedSlots : (offset : Nat) → List RetainedPacket → List Slot
  | _, [] => []
  | offset, entry :: rest =>
    (.retained entry.packetId offset entry.len 0, entry.state) ::
      retainedSlots (offset + entry.len) rest

/-- All tracked packets in the order in which they are started. -/
def slots (outbound : Outbound) : List Slot :=
  controlSlots 0 outbound.pendingControl.toList ++
    (outbound.pendingRelease.toList.map releaseSlot ++
      retainedSlots 0 outbound.retained.toList)

theorem controlSlots_append (index : Nat) (front back : List PendingControl) :
    controlSlots index (front ++ back) =
      controlSlots index front ++ controlSlots (index + front.length) back := by
  induction front generalizing index with
  | nil => rfl
  | cons entry rest ih =>
    simp only [List.cons_append, controlSlots, ih, List.length_cons, Nat.add_assoc, Nat.add_comm 1]

theorem retainedSlots_append (offset : Nat) (front back : List RetainedPacket) :
    retainedSlots offset (front ++ back) =
      retainedSlots offset front ++ retainedSlots (offset + bytesOf front) back := by
  induction front generalizing offset with
  | nil => rfl
  | cons entry rest ih =>
    simp only [List.cons_append, retainedSlots, ih, bytesOf, List.map_cons, List.sum_cons,
      Nat.add_assoc]

/-- A pass takes the first packet that belongs to it. -/
theorem stepFor_eq (pass : Bool) :
    outbound.stepFor pass = outbound.slots.findSome? (Slot.pick pass) := by
  -- The three searches go through their queues as the slots are listed.
  have control (index : Nat) (entries : List PendingControl) :
      controlStep pass index entries = (controlSlots index entries).findSome? (Slot.pick pass) := by
    induction entries generalizing index with
    | nil => rfl
    | cons entry rest ih =>
      rw [controlStep, controlSlots, List.findSome?_cons, Slot.pick, ih]
      cases entry.state.writeOffset pass <;> rfl
  have release (entries : List PendingRelease) :
      releaseStep pass entries = (entries.map releaseSlot).findSome? (Slot.pick pass) := by
    induction entries with
    | nil => rfl
    | cons entry rest ih =>
      rw [releaseStep, List.map_cons, List.findSome?_cons, Slot.pick, releaseSlot, ih]
      cases entry.state.writeOffset pass <;> rfl
  have retained (offset : Nat) (entries : List RetainedPacket) :
      retainedStep pass offset entries =
        (retainedSlots offset entries).findSome? (Slot.pick pass) := by
    induction entries generalizing offset with
    | nil => rfl
    | cons entry rest ih =>
      rw [retainedStep, retainedSlots, List.findSome?_cons, Slot.pick, ih]
      cases entry.state.writeOffset pass <;> rfl
  rw [stepFor, control, release, retained, slots, List.findSome?_append, List.findSome?_append]

theorem slots_of_controls {front back : List PendingControl} {entry : PendingControl}
    (split : outbound.pendingControl.toList = front ++ entry :: back) :
    outbound.slots = controlSlots 0 front ++ (.control front.length entry.action 0, entry.state) ::
      (controlSlots (front.length + 1) back ++ (outbound.pendingRelease.toList.map releaseSlot ++
        retainedSlots 0 outbound.retained.toList)) := by
  simp [slots, split, controlSlots_append, controlSlots]

theorem slots_of_releases {front back : List PendingRelease} {entry : PendingRelease}
    (split : outbound.pendingRelease.toList = front ++ entry :: back) :
    outbound.slots = (controlSlots 0 outbound.pendingControl.toList ++ front.map releaseSlot) ++
      releaseSlot entry :: (back.map releaseSlot ++ retainedSlots 0 outbound.retained.toList) := by
  simp [slots, split]

theorem slots_of_retained {front back : List RetainedPacket} {entry : RetainedPacket}
    (split : outbound.retained.toList = front ++ entry :: back) :
    outbound.slots = (controlSlots 0 outbound.pendingControl.toList ++
        (outbound.pendingRelease.toList.map releaseSlot ++ retainedSlots 0 front)) ++
      (.retained entry.packetId (bytesOf front) entry.len 0, entry.state) ::
        retainedSlots (bytesOf front + entry.len) back := by
  simp [slots, split, retainedSlots_append, retainedSlots]

theorem controls_setControlWritten {front back : List PendingControl} {entry : PendingControl}
    {written len : Nat} (split : outbound.pendingControl.toList = front ++ entry :: back) :
    (outbound.setControlWritten front.length written len).pendingControl.toList =
      front ++ { entry with state := .setWritten written len } :: back := by
  rw [setControlWritten, FixedVec.toList_modify, split]
  simp [List.modify_eq_take_drop]

/-- Bytes of a release are accounted for at the release itself. -/
theorem releases_setReleaseWritten {front back : List PendingRelease}
    {reason : ReasonCode} {written len : Nat}
    (distinct : (outbound.pendingRelease.toList.map (·.packetId)).Nodup)
    (split : outbound.pendingRelease.toList = front ++ ⟨packetId, reason, state⟩ :: back) :
    (outbound.setReleaseWritten packetId written len).pendingRelease.toList =
      front ++ ⟨packetId, reason, .setWritten written len⟩ :: back := by
  refine FixedVec.toList_modifyFirst split (by simp) fun other found => ?_
  rw [split, List.map_append, List.map_cons, List.nodup_append] at distinct
  have apart := distinct.2.2 other.packetId (List.mem_map_of_mem found) packetId (by simp)
  simpa using apart

/-- Bytes of a retained packet are accounted for at the packet itself. -/
theorem retained_setRetainedWritten {front back : List RetainedPacket} {kind : OpKind} {size : Nat}
    {written len : Nat}
    (distinct : (outbound.retained.toList.map (·.packetId)).Nodup)
    (split : outbound.retained.toList = front ++ ⟨kind, packetId, size, state⟩ :: back) :
    (outbound.setRetainedWritten packetId written len).retained.toList =
      front ++ ⟨kind, packetId, size, .setWritten written len⟩ :: back := by
  refine FixedVec.toList_modifyFirst split (by simp) fun other found => ?_
  rw [split, List.map_append, List.map_cons, List.nodup_append] at distinct
  have apart := distinct.2.2 other.packetId (List.mem_map_of_mem found) packetId (by simp)
  simpa using apart

theorem split_of_getElem? {α : Type} {list : List α} {index : Nat} {element : α}
    (found : list[index]? = some element) :
    ∃ front back, list = front ++ element :: back ∧ front.length = index := by
  obtain ⟨within, rfl⟩ := List.getElem?_eq_some_iff.mp found
  refine ⟨list.take index, list.drop (index + 1), ?_, List.length_take_of_le within.le⟩
  rw [List.getElem_cons_drop, List.take_append_drop]

/-- A step writes one of the tracked packets, and what is written changes only its progress. -/
theorem At.slots (found : outbound.At step) (identified : outbound.Identified) :
    ∃ front back, outbound.slots = front ++ (step.advance 0, .write step.written) :: back ∧
      ∀ written len, (outbound.setWritten written len step.packet).slots =
        front ++ (step.advance 0, .setWritten written len) :: back := by
  -- Identifiers are distinct, so only the entry of this step is changed.
  have distinct := List.nodup_append.mp identified.distinct
  cases found with
  | @control index before action found =>
    obtain ⟨front, back, split, rfl⟩ := split_of_getElem? found
    exact ⟨_, _, slots_of_controls split,
      fun written len => slots_of_controls (controls_setControlWritten split)⟩
  | release split =>
    exact ⟨_, _, slots_of_releases split,
      fun written len => slots_of_releases (releases_setReleaseWritten distinct.2.1 split)⟩
  | retained split =>
    exact ⟨_, _, slots_of_retained split,
      fun written len => slots_of_retained (retained_setRetainedWritten distinct.1 split)⟩

/-- How many packets are in progress. -/
def started (outbound : Outbound) : Nat := outbound.slots.countP (·.2.inProgress)

theorem stepFor_true_eq_none : outbound.stepFor true = none ↔ outbound.started = 0 := by
  simp [stepFor_eq, started, List.findSome?_eq_none_iff, List.countP_eq_zero, Slot.pick,
    SendState.writeOffset_true]

theorem started_eq_zero : outbound.started = 0 ↔
    outbound.Holds (·.inProgress = false) (·.inProgress = false) := by
  rw [← stepFor_true_eq_none, stepFor_eq_none]
  simp only [SendState.writeOffset_true]

/-- The next packet is the only one in progress, or none is. -/
theorem started_of_nextStep (single : outbound.started ≤ 1) (next : outbound.nextStep = some step) :
    outbound.started = if step.written = 0 then 0 else 1 := by
  -- A packet in progress comes first, and is looked for before all others.
  rcases Option.or_eq_some_iff.mp next with first | ⟨none, second⟩
  · have some : outbound.started ≠ 0 := fun zero => by
      rw [stepFor_true_eq_none.mpr zero] at first
      cases first
    rw [if_neg ((at_of_stepFor first).2.mpr rfl)]
    omega
  · have zero : step.written = 0 := by simpa using (at_of_stepFor second).2
    rw [if_pos zero, ← stepFor_true_eq_none]
    exact none

/-- The next packet is the only one in progress until it is complete. -/
theorem started_setWritten {written len : Nat} (single : outbound.started ≤ 1)
    (next : outbound.nextStep = some step) (identified : outbound.Identified)
    (positive : 0 < written) :
    let after := outbound.setWritten written len step.packet
    if len ≤ written then after.started = 0
    else after.started = 1 ∧ after.stepFor true = some (step.advance written) := by
  intro after
  have sole := started_of_nextStep single next
  obtain ⟨front, back, split, changed⟩ := (at_of_nextStep next).1.slots identified
  have changed : after.slots = front ++ (step.advance 0, .setWritten written len) :: back :=
    changed written len
  -- Every other packet is not in progress.
  rw [started, split, List.countP_append, List.countP_cons] at sole
  have others : front.countP (·.2.inProgress) = 0 ∧ back.countP (·.2.inProgress) = 0 := by
    have self : (SendState.write step.written).inProgress = (step.written != 0) := rfl
    simp only [self, bne_iff_ne, ne_eq, ite_not] at sole
    generalize front.countP _ = ahead at sole ⊢
    generalize back.countP _ = behind at sole ⊢
    split at sole <;> omega
  have progress : (SendState.setWritten written len).inProgress = !decide (len ≤ written) :=
    SendState.inProgress_setWritten positive
  have total : after.started = if len ≤ written then 0 else 1 := by
    rw [started, changed, List.countP_append, List.countP_cons, others.1, others.2, progress]
    by_cases complete : len ≤ written <;> simp [complete]
  split
  · rw [total, if_pos ‹_›]
  · rename_i short
    refine ⟨by rw [total, if_neg short], ?_⟩
    have skipped : front.findSome? (Slot.pick true) = none := by
      simpa [List.findSome?_eq_none_iff, Slot.pick, SendState.writeOffset_true] using others.1
    rw [stepFor_eq, changed, List.findSome?_append, skipped, List.findSome?_cons]
    have state : (SendState.setWritten written len).writeOffset true = some written := by
      simp only [SendState.setWritten, if_neg short, SendState.writeOffset]
      simp
      omega
    simp [Slot.pick, state]

/-- The packet of a step with all its bytes. -/
def load (outbound : Outbound) : OutboundStep → WriteStep
  | .control index action written => ⟨.control index, action.wire, written⟩
  | .release packetId reason written => ⟨.release packetId, releaseWire packetId reason, written⟩
  | .retained packetId offset len written =>
    ⟨.retained packetId, outbound.retainedPacket offset len, written⟩

@[simp] theorem load_packet : (outbound.load step).packet = step.packet := by
  cases step <;> rfl

@[simp] theorem load_written : (outbound.load step).written = step.written := by
  cases step <;> rfl

theorem load_advance (written : Nat) :
    outbound.load (step.advance written) = { outbound.load step with written } := by
  cases step <;> rfl

theorem load_setWritten (packet : Packet) (written len : Nat) :
    (outbound.setWritten written len packet).load step = outbound.load step := by
  cases step <;> cases packet <;> rfl

end Outbound

/-- Scratch space behind the retained packets is not part of a packet. -/
theorem Outbound.load_of_kept {before after : Outbound}
    (found : before.At step) (kept : SameUpTo before.retainedBytes before.buf after.buf) :
    after.load step = before.load step := by
  cases found with
  | control found => rfl
  | release split => rfl
  | @retained front back kind packetId len written split =>
    -- The packet lies among the retained bytes, which scratch space does not touch.
    have within : Outbound.bytesOf front + len ≤ before.retainedBytes := by
      simp only [retainedBytes, split, bytesOf, List.map_append, List.map_cons, List.sum_append,
        List.sum_cons]
      omega
    simp only [load, retainedPacket, kept.slice within]

theorem writeStep_eq_load {session : Session} {current : WriteStep}
    (encoded : (writeStep session step : Except (Error τ) WriteStep) = .ok current) :
    current = session.data.outbound.load step := by
  cases step with
  | control index action written => exact writeStep_control encoded
  | release packetId reason written => exact writeStep_release encoded
  | retained packetId offset len written => exact writeStep_retained encoded

theorem withinLimit_eq_ok {limit : Option UInt32} {packet bytes : Bytes}
    (within : (withinLimit limit packet : Except (Error τ) Bytes) = .ok bytes) :
    bytes = packet ∧ exceeds limit packet.length = false := by
  unfold withinLimit at within
  split at within
  · cases within
  · exact ⟨(Except.ok.inj within).symm, Bool.eq_false_iff.mpr ‹_›⟩

theorem exceeds_of_le {limit : Option UInt32} {len more : Nat} (fewer : len ≤ more)
    (within : exceeds limit more = false) : exceeds limit len = false := by
  cases limit with
  | none => rfl
  | some max =>
    simp only [exceeds, decide_eq_false_iff_not, Nat.not_lt] at within ⊢
    omega

/-- The bytes of a step are within the limit of the broker. -/
theorem writeStep_sized {session : Session} {current : WriteStep}
    (encoded : (writeStep session step : Except (Error τ) WriteStep) = .ok current) :
    exceeds session.runtime.maximumPacketSize current.bytes.length = false := by
  -- The limit is checked before the packet is handed out.
  cases step with
  | control index action written =>
    cases writeStep_control encoded
    simp only [writeStep, serializeControlPacket, encodeControlPacket_eq, bind, Except.bind,
      Except.mapError] at encoded
    split at encoded
    · cases encoded
    · exact (withinLimit_eq_ok ‹_›).2
  | release packetId reason written =>
    cases writeStep_release encoded
    simp only [writeStep, serializePubrel, encodePubrel_eq, bind, Except.bind,
      Except.mapError] at encoded
    split at encoded
    · cases encoded
    · exact (withinLimit_eq_ok ‹_›).2
  | retained packetId offset len written =>
    cases writeStep_retained encoded
    simp only [writeStep, RuntimeState.requirePacketSize, bind, Except.bind] at encoded
    split at encoded
    · cases encoded
    · rename_i required
      split at required
      · cases required
      · exact exceeds_of_le (List.length_take_le _ _) (Bool.eq_false_iff.mpr ‹_›)

/-- What a step writes was encoded as a packet. -/
theorem Stored.encoded {files : List Filed} {outbound : Outbound}
    (stored : Stored files outbound) (found : outbound.At step) :
    EncodedPacket (outbound.load step).bytes := by
  -- A retained packet is on file as it was admitted, or marked as sent again.
  cases found with
  | control found => exact .control (encodeControlPacket_eq _)
  | release split => exact .release (encodePubrel_eq _ _)
  | @retained front back kind packetId len written split =>
    have here : outbound.retained.toList[front.length]? =
        some ⟨kind, packetId, len, .write written⟩ := by
      rw [split]
      simp
    obtain ⟨file, listed, -, slice⟩ := stored.slice here
    have filed := List.mem_of_getElem? listed
    have front' : outbound.retained.toList.take front.length = front := by
      rw [split]
      simp
    rw [front'] at slice
    rw [Outbound.load, slice, Filed.bytes]
    split
    · rename_i marked
      exact .replayed (stored.legal file filed) (stored.publish file filed marked)
    · exact .operation (stored.legal file filed)

/-- What is left of a packet after some more bytes of it. -/
def WriteStep.after (current : WriteStep) (count : Nat) : Option WriteStep :=
  if current.bytes.length ≤ current.written + count then none
  else some { current with written := current.written + count }

/-- A write starts a packet, or goes on with the one in progress. -/
def Resumes : Option WriteStep → WriteStep → Prop
  | none, current => current.written = 0
  | some underway, current => current = underway

namespace Connection

variable {connection : Connection} {underway : Option WriteStep}

/-- How the packet in progress agrees with what was written of it. -/
structure Follows (connection : Connection) (underway : Option WriteStep) : Prop where
  /-- At most one packet is in progress. -/
  single : connection.outbound.started ≤ 1
  /-- It is the one that was started last. -/
  same : (connection.outbound.stepFor true).map connection.outbound.load = underway
  /-- Its bytes are not flushed. -/
  unflushed : underway ≠ none → connection.flushState = .dirty

namespace Follows

theorem of_started (zero : connection.outbound.started = 0) : connection.Follows none :=
  ⟨by omega, by rw [Outbound.stepFor_true_eq_none.mpr zero]; rfl, fun some => absurd rfl some⟩

theorem of_nextStep (follows : connection.Follows underway)
    (none : connection.outbound.nextStep = none) :
    underway = .none ∧ connection.outbound.started = 0 := by
  have first := (Option.or_eq_none_iff.mp none).1
  refine ⟨?_, Outbound.stepFor_true_eq_none.mp first⟩
  rw [← follows.same, first]
  rfl

/-- The next write goes on with the packet in progress. -/
theorem resumes (follows : connection.Follows underway)
    (next : connection.outbound.nextStep = some step) :
    Resumes underway (connection.outbound.load step) := by
  rw [← follows.same]
  rcases Option.or_eq_some_iff.mp next with first | ⟨none, second⟩
  · rw [first]
    rfl
  · rw [none]
    have zero : step.written = 0 := by simpa using (Outbound.at_of_stepFor second).2
    exact Outbound.load_written.trans zero

/-- A write leaves its packet in progress until it is complete. -/
theorem wrote {count now : Nat} (follows : connection.Follows underway)
    (next : connection.outbound.nextStep = some step) (identified : connection.outbound.Identified)
    (positive : 0 < count) :
    (connection.afterWrite step (connection.outbound.load step) count now).Follows
      ((connection.outbound.load step).after count) := by
  -- The write is complete, or it leaves the only packet in progress.
  have outbound := @afterWrite_outbound connection step (connection.outbound.load step) count now
  have changed := @Outbound.started_setWritten step connection.outbound
    ((connection.outbound.load step).written + count) (connection.outbound.load step).bytes.length
    follows.single next identified (by omega)
  unfold WriteStep.after
  rw [Outbound.load_packet] at outbound
  rw [← outbound] at changed
  split at changed
  · rw [if_pos ‹_›]
    exact .of_started changed
  · rw [if_neg ‹_›]
    refine ⟨changed.1.le, ?_, fun _ => afterWrite_flushState⟩
    rw [changed.2, Option.map_some, outbound, Outbound.load_setWritten, Outbound.load_advance]

/-- Packets that are not started may be added behind the others. -/
theorem of_append {after : Connection} {added : List Slot} (follows : connection.Follows underway)
    (slots : after.outbound.slots = connection.outbound.slots ++ added)
    (fresh : ∀ slot ∈ added, slot.2.inProgress = false)
    (kept : SameUpTo connection.outbound.retainedBytes connection.outbound.buf after.outbound.buf)
    (flushState : after.flushState = connection.flushState) : after.Follows underway := by
  -- The added packets belong to the second pass, so the first one finds what it found.
  have skipped : added.findSome? (Slot.pick true) = none := by
    simpa [List.findSome?_eq_none_iff, Slot.pick, SendState.writeOffset_true] using fresh
  have step : after.outbound.stepFor true = connection.outbound.stepFor true := by
    rw [Outbound.stepFor_eq, slots, List.findSome?_append, skipped, Option.or_none,
      ← Outbound.stepFor_eq]
  refine ⟨?_, ?_, fun some => flushState.trans (follows.unflushed some)⟩
  · have none : added.countP (·.2.inProgress) = 0 := by simpa [List.countP_eq_zero] using fresh
    rw [Outbound.started, slots, List.countP_append, none]
    exact follows.single
  · rw [← follows.same, step]
    cases first : connection.outbound.stepFor true with
    | none => rfl
    | some step =>
      rw [Option.map_some, Option.map_some,
        Outbound.load_of_kept (Outbound.at_of_stepFor first).1 kept]

theorem of_same {after : Connection} (follows : connection.Follows underway)
    (slots : after.outbound.slots = connection.outbound.slots)
    (kept : SameUpTo connection.outbound.retainedBytes connection.outbound.buf after.outbound.buf)
    (flushState : after.flushState = connection.flushState) : after.Follows underway :=
  follows.of_append (slots.trans (List.append_nil _).symm) (by simp) kept flushState

/-- An admitted operation is not started. -/
theorem enlist {kind : OpKind} {packet buf : Bytes}
    {retained : FixedVec RetainedPacket maxRetained} (follows : connection.Follows underway)
    (admissible : Admissible connection kind packetId packet buf retained) :
    (connection.enlist kind buf retained).Follows underway := by
  have slots : (connection.enlist kind buf retained).outbound.slots = connection.outbound.slots ++
      [(.retained packetId connection.outbound.retainedBytes packet.length 0, .write 0)] := by
    rw [enlist_outbound]
    simp [Outbound.slots, FixedVec.toList_of_push admissible.slot, Outbound.retainedSlots_append,
      Outbound.retainedSlots, Outbound.retainedBytes]
  refine follows.of_append slots (by simp [SendState.inProgress]) ?_ enlist_flushState
  rw [enlist_outbound]
  exact admissible.kept

end Follows

end Connection

end Minimq

import Minimq.Proofs.Client.Docket
import Minimq.Proofs.Client.Progress
import Minimq.Proofs.Client.Tenure

/-! In which order PUBREL packets are written, compared with the order of their PUBREC packets. -/

namespace Minimq

open Async

variable {π τ : Type} {before after : ClientMoment} {packetId : UInt16}

/-- The order in which publications were received by the broker and released. -/
structure Turns where
  /-- The identifiers of the PUBREC packets that released a publication, the latest first. -/
  received : List UInt16
  /--
  For each connection, the latest first, the turns of the PUBREL packets written on it, the latest
  first.
  -/
  written : List (List Nat)

namespace Turns

/-- The turn of a release: how many publications were received up to its PUBREC. -/
def of (turns : Turns) (packetId : UInt16) : Nat :=
  (turns.received.dropWhile (· != packetId)).length

/-- The turns of the PUBREL packets written on the current connection. -/
def current (turns : Turns) : List Nat := turns.written.headD []

/-- Account for one more occurrence. -/
def next (turns : Turns) : Happening Event → Turns
  | .noted (.handled before (.pubRec rec) _) =>
    if rec.reason.code.isSuccess &&
        before.data.outbound.docket.keys.contains (.publishExactlyOnce, rec.packetId) then
      { turns with received := rec.packetId :: turns.received }
    else turns
  | .noted (.wrote (.release packetId) _ 0 _) =>
    { turns with written := (turns.of packetId :: turns.current) :: turns.written.tail }
  | .noted (.connected _ _) => { turns with written := [] :: turns.written }
  | _ => turns

end Turns

/-- The order after a whole record. -/
def turns (trace : List (Happening Event)) : Turns := trace.foldl Turns.next ⟨[], []⟩

/-- Whether a PUBCOMP completes a release with at most one other release behind it. -/
def isOrderly : Happening Event → Bool
  | .noted (.handled before (.pubComp comp) _) =>
    match before.data.outbound.docket.releases.findIdx? (· == comp.packetId) with
    | some index => before.data.outbound.docket.releases.length ≤ index + 2
    | none => true
  | _ => true

namespace Turns

variable {turns : Turns}

theorem of_le (turns : Turns) (packetId : UInt16) : turns.of packetId ≤ turns.received.length :=
  (List.dropWhile_suffix _).length_le

theorem of_received (other : UInt16) (written : List (List Nat)) :
    (Turns.mk (packetId :: turns.received) written).of other =
      if packetId = other then turns.received.length + 1 else turns.of other := by
  simp only [of, List.dropWhile_cons]
  by_cases same : packetId = other
  · simp [same]
  · simp [same]

end Turns

namespace Outbound

variable {outbound : Outbound}

/-- The releases of which nothing has been written yet. -/
def waiting (outbound : Outbound) : List UInt16 :=
  (outbound.pendingRelease.toList.filter (·.state == .write 0)).map (·.packetId)

/-- The first release of a pass is the first one of which nothing has been written. -/
theorem waiting_of_releaseStep {entries : List PendingRelease} {reason : ReasonCode} {written : Nat}
    (next : releaseStep false entries = some (.release packetId reason written)) :
    ∃ front back, entries = front ++ ⟨packetId, reason, .write 0⟩ :: back ∧
      ∀ entry ∈ front, entry.state ≠ .write 0 := by
  -- The second pass takes a packet only if nothing of it has been written.
  induction entries with
  | nil => simp [releaseStep] at next
  | cons entry rest ih =>
    simp only [releaseStep] at next
    cases offset : entry.state.writeOffset false with
    | some start =>
      obtain ⟨state, pass⟩ := SendState.eq_of_writeOffset offset
      have zero : start = 0 := by simpa using pass
      rw [offset, Option.some.injEq, OutboundStep.release.injEq] at next
      obtain ⟨rfl, rfl, -⟩ := next
      refine ⟨[], rest, ?_, by simp⟩
      rw [← zero, ← state]
      rfl
    | none =>
      rw [offset] at next
      obtain ⟨front, back, rfl, none⟩ := ih next
      refine ⟨entry :: front, back, rfl, ?_⟩
      rw [List.forall_mem_cons]
      refine ⟨fun state => ?_, none⟩
      rw [state] at offset
      cases offset

/-- A release that is started is the first one that waits. -/
theorem waiting_of_nextStep {reason : ReasonCode}
    (next : outbound.nextStep = some (.release packetId reason 0)) :
    ∃ front back, outbound.pendingRelease.toList = front ++ ⟨packetId, reason, .write 0⟩ :: back ∧
      ∀ entry ∈ front, entry.state ≠ .write 0 := by
  -- The first pass never starts a packet, and the other queues yield other steps.
  rcases Option.or_eq_some_iff.mp next with first | ⟨-, second⟩
  · exact absurd rfl ((at_of_stepFor first).2.mpr rfl)
  · unfold stepFor at second
    rcases Option.or_eq_some_iff.mp second with found | ⟨-, second⟩
    · obtain ⟨index, action, written, same, -⟩ := controlStep_eq_some found
      cases same
    · rcases Option.or_eq_some_iff.mp second with found | ⟨-, found⟩
      · exact waiting_of_releaseStep found
      · obtain ⟨front, kind, other, len, written, back, same, -⟩ := retainedStep_eq_some found
        cases same

theorem setWritten_ne_zero {written len : Nat} (positive : 0 < written) :
    SendState.setWritten written len ≠ .write 0 := by
  unfold SendState.setWritten
  split
  · simp
  · simp only [ne_eq, SendState.write.injEq]
    omega

theorem waiting_of_split {front back : List PendingRelease} {entry : PendingRelease}
    (split : outbound.pendingRelease.toList = front ++ entry :: back) :
    outbound.waiting = (front.filter (·.state == .write 0)).map (·.packetId) ++
      (if entry.state = .write 0 then [entry.packetId] else []) ++
      (back.filter (·.state == .write 0)).map (·.packetId) := by
  unfold waiting
  rw [split, List.filter_append, List.filter_cons, List.map_append]
  split <;> simp_all

theorem waiting_completeFlush : outbound.completeFlush.waiting = outbound.waiting := by
  have same (state : SendState) : (flushedState state == .write 0) = (state == .write 0) := by
    cases state <;> rfl
  simp [waiting, completeFlush, List.filter_map, Function.comp_def, same]

theorem waiting_of_none (none : outbound.nextStep = none) : outbound.waiting = [] := by
  rw [waiting, List.map_eq_nil_iff, List.filter_eq_nil_iff]
  intro entry found
  have written := (nextStep_eq_none.mp none).release entry found
  intro unwritten
  exact written ⟨0, beq_iff_eq.mp unwritten⟩

end Outbound

/-- How the releases that wait can change as long as the connection is live. -/
inductive Queueing (before after : ClientMoment) : Prop where
  /-- Nothing changes, or the connection ends. -/
  | still {events : List (Happening Event)}
      (same : after.self.live = true →
        after.self.outbound.waiting = before.self.outbound.waiting)
      (trace : after.trace = before.trace ++ events)
      (plain : ∀ event ∈ events, ∀ packetId bytes count,
        event ≠ .noted (.wrote (.release packetId) bytes 0 count))
  /-- The first one is started. -/
  | started {packetId : UInt16} {bytes packet : Bytes} {count : Nat} (alive : before.self.live = true)
      (first : before.self.outbound.waiting = packetId :: after.self.outbound.waiting)
      (trace : after.trace = before.trace ++
        [.accepted bytes, .noted (.wrote (.release packetId) packet 0 count)])
  /-- An inbound packet adds one. -/
  | handled {packet : ReceivedPacket} {delivered : Bool}
      (empty : before.self.outbound.waiting = [])
      (fresh : ∀ packetId ∈ after.self.outbound.waiting, ∃ rec, packet = .pubRec rec ∧
        rec.packetId = packetId ∧ rec.reason.code.isSuccess = true ∧
        (.publishExactlyOnce, packetId) ∈ before.self.outbound.docket.keys)
      (trace : after.trace = before.trace ++
        [.noted (.handled before.self.session.handling packet delivered)])

theorem Queueing.of_routine {events : List (Happening Event)}
    (same : after.self.live = true →
      after.self.outbound.waiting = before.self.outbound.waiting)
    (trace : after.trace = before.trace ++ events) (routine : ∀ event ∈ events, Routine event) :
    Queueing before after :=
  .still same trace fun event found _ _ => (routine event found).unwritten _ _ _

/-- A write starts the first release that waits, or leaves those that wait alone. -/
theorem Outflow.queueing (step : Outflow τ before after)
    (identified : before.self.outbound.Identified) : Queueing before after := by
  have distinct : (before.self.outbound.pendingRelease.toList.map (·.packetId)).Nodup :=
    (List.nodup_append.mp identified.distinct).2.1
  cases step with
  | tick later => exact .of_routine (fun _ => rfl) (List.append_nil _).symm (by simp)
  | flushing alive ready => exact .of_routine (fun _ => rfl) rfl (by simp [Routine.flushing])
  | flushed alive flushing later =>
    exact .of_routine (fun _ => Outbound.waiting_completeFlush) rfl
      (by simp [Routine.flushed, Routine.active])
  | disconnected => exact .of_routine (fun live => by cases live) (List.append_nil _).symm (by simp)
  | pinged alive quiet due queued =>
    obtain ⟨controls, rfl, -⟩ := Outbound.controls_of_queueControl queued
    exact .of_routine (fun _ => rfl) (List.append_nil _).symm (by simp)
  | @wrote step current count now alive idle next encoded positive within later =>
    have outbound := @Connection.afterWrite_outbound before.self step current count now
    obtain ⟨found, -⟩ := Outbound.at_of_nextStep next
    cases found with
    | control found =>
      cases writeStep_control encoded
      refine .still (fun _ => ?_) rfl (by simp)
      rw [Outbound.waiting, outbound]
      rfl
    | retained found =>
      cases writeStep_retained encoded
      refine .still (fun _ => ?_) rfl (by simp)
      rw [Outbound.waiting, outbound]
      rfl
    | @release front back packetId reason written split =>
      cases writeStep_release encoded
      have started := @Outbound.setWritten_ne_zero (written + count)
        (releaseWire packetId reason).length (by omega)
      have changed {front back : List PendingRelease} {state : SendState}
          (split : before.self.outbound.pendingRelease.toList =
            front ++ ⟨packetId, reason, state⟩ :: back) :
          (before.self.afterWrite (.release packetId reason written)
            ⟨.release packetId, releaseWire packetId reason, written⟩ count now).outbound.waiting =
          (front.filter (·.state == .write 0)).map (·.packetId) ++
            (back.filter (·.state == .write 0)).map (·.packetId) := by
        have after := @Outbound.releases_setReleaseWritten state packetId before.self.outbound front
          back reason (written + count) (releaseWire packetId reason).length distinct split
        rw [outbound, Outbound.setWritten, Outbound.waiting_of_split after, if_neg started,
          List.append_nil]
      by_cases zero : written = 0
      · -- The release is the first one that waits.
        subst zero
        obtain ⟨front, back, split, none⟩ := Outbound.waiting_of_nextStep next
        have unstarted : front.filter (·.state == .write 0) = [] := by
          simpa [List.filter_eq_nil_iff] using none
        refine .started alive ?_ rfl
        dsimp only
        rw [changed split, Outbound.waiting_of_split split, unstarted]
        simp
      · refine .still (fun _ => ?_) rfl (by simp [zero])
        dsimp only
        rw [changed split, Outbound.waiting_of_split split]
        simp [zero]

/-- What an inbound packet adds to the releases that wait, if none waited before. -/
theorem Handled.waiting {packet : ReceivedPacket} {taken : Taken} {before after : Handling}
    (handled : Handled packet before taken after) (empty : before.data.outbound.waiting = []) :
    ∀ packetId ∈ after.data.outbound.waiting, ∃ rec, packet = .pubRec rec ∧
      rec.packetId = packetId ∧ rec.reason.code.isSuccess = true ∧
      (.publishExactlyOnce, packetId) ∈ before.data.outbound.docket.keys := by
  -- None waited, so whatever waits now was added by this packet.
  have none {outbound : Outbound}
      (same : outbound.pendingRelease = before.data.outbound.pendingRelease) :
      ∀ packetId ∈ outbound.waiting, ∃ rec, packet = .pubRec rec ∧ rec.packetId = packetId ∧
        rec.reason.code.isSuccess = true ∧
        (.publishExactlyOnce, packetId) ∈ before.data.outbound.docket.keys := by
    intro packetId found
    rw [Outbound.waiting, same] at found
    rw [Outbound.waiting] at empty
    rw [empty] at found
    cases found
  cases handled with
  | ignored => exact none rfl
  | answered _ _ acked => exact none (Outbound.pendingRelease_of_ackPacket acked)
  | published _ _ acked => exact none (Outbound.pendingRelease_of_ackPacket acked)
  | refused _ _ _ acked => exact none (Outbound.pendingRelease_of_ackPacket acked)
  | oversized _ _ acked => exact none (Outbound.pendingRelease_of_ackPacket acked)
  | untracked _ _ acked => exact none (Outbound.pendingRelease_of_ackPacket acked)
  | @released rec outbound queued _ same success acked sized released =>
    obtain ⟨queue, rfl, appended⟩ := Outbound.releases_of_queueRelease released
    rw [Outbound.pendingRelease_of_ackPacket acked] at appended
    intro packetId found
    have added : ({ outbound with pendingRelease := queue } : Outbound).waiting =
        [rec.packetId] := by
      rw [Outbound.waiting_of_split appended]
      rw [Outbound.waiting] at empty
      simp [empty]
    have found : packetId ∈ ({ outbound with pendingRelease := queue } : Outbound).waiting := found
    rw [added, List.mem_singleton] at found
    refine ⟨rec, same, found.symm, success, ?_⟩
    rw [found]
    exact (Outbound.docket_of_ackPacket acked).1.mem_iff.mpr List.mem_cons_self
  | completed _ same acked =>
    obtain ⟨gone, own, left, -⟩ := Outbound.releases_of_ackRelease acked
    intro packetId found
    obtain ⟨entry, found, -⟩ := List.mem_map.mp found
    obtain ⟨found, waits⟩ := List.mem_filter.mp found
    rw [Outbound.waiting, List.map_eq_nil_iff, List.filter_eq_nil_iff] at empty
    exact absurd waits (empty entry (left.mem_iff.mpr (List.mem_cons_of_mem _ found)))
  | pending changed => exact none rfl
  | queued changed queued =>
    obtain ⟨controls, rfl, -⟩ := Outbound.controls_of_queueControl queued
    exact none rfl
  | ponged => exact none rfl

/-- As long as the connection is live, the releases that wait change in one of three ways. -/
theorem Step.queueing (step : Step τ before after)
    (identified : before.self.outbound.Identified) : Queueing before after := by
  -- Only a write and an inbound packet touch the releases of a live connection.
  cases step with
  | outflow step => exact step.queueing identified
  | upkeep step =>
    obtain ⟨events, trace, routine⟩ := step.routine
    refine .of_routine (fun _ => ?_) trace routine
    cases step <;> rfl
  | opening step =>
    have dead {P : Prop} (live : after.self.live = true) : P := by
      rw [step.dead] at live
      cases live
    obtain ⟨events, trace, routine⟩ := step.routine
    exact .of_routine dead trace routine
  | handled packet alive quiet =>
    have empty := Outbound.waiting_of_none quiet.1
    obtain ⟨taken, state, handled, same | same⟩ := before.self.handle_cases packet
    · refine .handled empty ?_ rfl
      dsimp only
      rw [same]
      exact handled.waiting empty
    · refine .still (fun live => ?_) rfl (by simp)
      dsimp only at live
      rw [same] at live
      cases live
  | admitted admissible =>
    refine .still (fun _ => ?_) rfl (by simp)
    dsimp only
    rw [Connection.enlist_outbound]
    rfl
  | direct ready whole later => exact .of_routine (fun _ => rfl) rfl routine_whole
  | broken ready part => exact .of_routine (fun live => by cases live) rfl part.routine
  | opened => exact .still (fun live => by cases live) rfl (by simp)
  | reset closed =>
    refine .still (fun live => ?_) rfl (by simp)
    have live : before.self.live = true := live
    rw [closed] at live
    cases live
  | connected closed later sized reserved quota limit state =>
    subst state
    exact .still (fun _ => rfl) rfl (by simp)

theorem Move.queueing (move : Move τ before after)
    (identified : before.self.outbound.Identified) : Queueing before after := by
  cases move with
  | step step => exact step.queueing identified
  | torn torn =>
    cases torn with
    | torn ready part => exact .of_routine (fun _ => rfl) rfl part.routine

namespace Turns

variable {turns : Turns} {event : Happening Event} {events : List (Happening Event)}

theorem of_congr {other : Turns} (same : other.received = turns.received) (packetId : UInt16) :
    other.of packetId = turns.of packetId := by
  rw [of, of, same]

theorem received_next (unhandled : Unhandled event) :
    (turns.next event).received = turns.received := by
  unfold next
  split
  · exact absurd rfl (unhandled _ _ _)
  all_goals rfl

theorem received_foldl (unhandled : ∀ event ∈ events, Unhandled event) :
    (events.foldl next turns).received = turns.received := by
  induction events generalizing turns with
  | nil => rfl
  | cons event rest ih =>
    rw [List.foldl_cons, ih fun other found => unhandled other (List.mem_cons_of_mem _ found),
      received_next (unhandled event List.mem_cons_self)]

/-- A packet that is handled gives its publication a turn, or changes nothing. -/
theorem next_handled {before : Handling} {packet : ReceivedPacket} {delivered : Bool} :
    turns.next (.noted (.handled before packet delivered)) = turns ∨
      ∃ rec, packet = .pubRec rec ∧ rec.reason.code.isSuccess = true ∧
        (.publishExactlyOnce, rec.packetId) ∈ before.data.outbound.docket.keys ∧
        turns.next (.noted (.handled before packet delivered)) =
          { turns with received := rec.packetId :: turns.received } := by
  cases packet with
  | pubRec rec =>
    simp only [next]
    -- Only a PUBREC for a tracked publication counts.
    split
    · rename_i effective
      rw [Bool.and_eq_true, List.contains_iff_mem] at effective
      exact .inr ⟨rec, rfl, effective.1, effective.2, rfl⟩
    · exact .inl rfl
  | _ => exact .inl rfl

theorem next_of_effective {before : Handling} {rec : PubRec} {delivered : Bool}
    (success : rec.reason.code.isSuccess = true)
    (retained : (.publishExactlyOnce, rec.packetId) ∈ before.data.outbound.docket.keys) :
    turns.next (.noted (.handled before (.pubRec rec) delivered)) =
      { turns with received := rec.packetId :: turns.received } := by
  simp only [next, success, List.contains_iff_mem.mpr retained, Bool.and_self, if_true]

/-- An occurrence that starts no release adds at most a connection. -/
theorem written_next
    (plain : ∀ packetId bytes count, event ≠ .noted (.wrote (.release packetId) bytes 0 count)) :
    (turns.next event).written = turns.written ∨
      (turns.next event).written = [] :: turns.written ∧ Starts event := by
  unfold next
  split
  · split <;> exact .inl rfl
  · exact absurd rfl (plain _ _ _)
  · exact .inr ⟨rfl, .inr ⟨_, _, rfl⟩⟩
  · exact .inl rfl

/-- What was written before is still there, and nothing was added but empty connections. -/
theorem written_foldl
    (plain : ∀ event ∈ events, ∀ packetId bytes count,
      event ≠ .noted (.wrote (.release packetId) bytes 0 count)) :
    (∀ list ∈ (events.foldl next turns).written, list ∈ turns.written ∨ list = []) ∧
      ((∀ event ∈ events, ¬ Starts event) → (events.foldl next turns).written = turns.written) := by
  -- A connection begins with an empty list, and only a release that is started fills one.
  induction events generalizing turns with
  | nil => exact ⟨fun list => .inl, fun _ => rfl⟩
  | cons event rest ih =>
    obtain ⟨lists, same⟩ := @ih (turns.next event)
      fun other found => plain other (List.mem_cons_of_mem _ found)
    have first := @written_next turns event (plain event List.mem_cons_self)
    refine ⟨fun list found => ?_, fun silent => ?_⟩
    · rcases lists list found with found | found
      · rcases first with first | ⟨first, -⟩
        · exact .inl (first ▸ found)
        · rw [first, List.mem_cons] at found
          exact found.symm
      · exact .inr found
    · rw [List.foldl_cons, same fun other found => silent other (List.mem_cons_of_mem _ found)]
      exact first.resolve_right fun starts => silent event List.mem_cons_self starts.2

end Turns

theorem turns_append (front back : List (Happening Event)) :
    turns (front ++ back) = back.foldl Turns.next (turns front) :=
  List.foldl_append

theorem Outbound.Identified.apart {outbound : Outbound} (identified : outbound.Identified)
    {kind : OpKind} {packetId other : UInt16} (retained : (kind, packetId) ∈ outbound.docket.keys)
    (pending : other ∈ outbound.docket.releases) : packetId ≠ other := by
  have distinct := identified.distinct
  rw [packetIds_eq_docket, List.nodup_append] at distinct
  exact distinct.2.2 packetId (List.mem_map_of_mem (f := Prod.snd) retained) other pending

/-- A pending release keeps its turn. -/
theorem Tracking.turns_eq (tracking : Tracking before after)
    (identified : before.self.outbound.Identified)
    (pending : packetId ∈ before.self.outbound.docket.releases) :
    (turns after.trace).of packetId = (turns before.trace).of packetId := by
  -- Turns are counted by PUBREC packets, and this one has had its own.
  cases tracking with
  | steady same trace steady =>
    rw [trace, turns_append]
    exact Turns.of_congr (Turns.received_foldl fun event found => (steady event found).unhandled) _
  | admitted unused quota same trace =>
    rw [trace, turns_append]
    exact Turns.of_congr (Turns.received_foldl (by simp [Unhandled])) _
  | @handled packet delivered taken dispatch fatal trace =>
    rw [trace, turns_append, List.foldl_cons, List.foldl_nil]
    rcases @Turns.next_handled (turns before.trace) before.self.session.handling packet delivered
      with same | ⟨rec, rfl, -, retained, same⟩
    · rw [same]
    · rw [same, Turns.of_received, if_neg (identified.apart retained pending)]
  | reset closed empty trace =>
    rw [trace, turns_append]
    exact Turns.of_congr (Turns.received_foldl (by simp [Unhandled])) _

theorem Outbound.waiting_sublist (outbound : Outbound) :
    outbound.waiting.Sublist outbound.docket.releases :=
  List.filter_sublist.map _

/-- The pending releases are in the order of their turns. -/
def InTurn (moment : ClientMoment) : Prop :=
  moment.self.outbound.docket.releases.Pairwise fun first second =>
    (turns moment.trace).of first < (turns moment.trace).of second

/-- An orderly change keeps the pending releases in order. -/
theorem Tracking.inTurn (tracking : Tracking before after)
    (identified : before.self.outbound.Identified) (orderly : after.trace.all isOrderly = true)
    (inTurn : InTurn before) : InTurn after := by
  have kept {packetId : UInt16} (pending : packetId ∈ before.self.outbound.docket.releases) :=
    tracking.turns_eq identified pending
  -- Releases that are still pending, in the same order.
  have fewer (part : after.self.outbound.docket.releases.Sublist
      before.self.outbound.docket.releases) : InTurn after := by
    refine List.Pairwise.imp_of_mem (fun first second earlier => ?_) (inTurn.sublist part)
    rwa [kept (part.subset first), kept (part.subset second)]
  cases tracking with
  | steady same trace steady => exact fewer (by rw [same])
  | admitted unused quota same trace => exact fewer (by rw [same])
  | reset closed empty trace => exact fewer (by rw [empty]; exact List.nil_sublist _)
  | @handled packet delivered taken dispatch fatal trace =>
    generalize docket : after.self.outbound.docket = next at dispatch
    have same {releases : List UInt16} (equal : next.releases = releases) :
        after.self.outbound.docket.releases = releases := by rw [docket, equal]
    cases dispatch with
    | same => exact fewer (by rw [docket]; exact List.Sublist.refl _)
    | answered _ _ releases => exact fewer (by rw [same releases]; exact List.Sublist.refl _)
    | published _ _ releases => exact fewer (by rw [same releases]; exact List.Sublist.refl _)
    | refused _ _ _ releases => exact fewer (by rw [same releases]; exact List.Sublist.refl _)
    | lost _ _ _ releases => exact fewer (by rw [same releases]; exact List.Sublist.refl _)
    | @released _ rec equal success left releases fits =>
      -- The new release has the latest turn.
      have retained := left.mem_iff.mpr List.mem_cons_self
      have latest : (turns after.trace).of rec.packetId =
          (turns before.trace).received.length + 1 := by
        subst equal
        rw [trace, turns_append, List.foldl_cons, List.foldl_nil,
          Turns.next_of_effective success retained, Turns.of_received, if_pos rfl]
      unfold InTurn
      rw [same releases, List.pairwise_append]
      refine ⟨?_, List.pairwise_singleton _ _, fun first pending second only => ?_⟩
      · refine List.Pairwise.imp_of_mem (fun first second earlier => ?_) inTurn
        rwa [kept first, kept second]
      · rw [List.mem_singleton.mp only, latest, kept pending]
        exact Nat.lt_succ_of_le (Turns.of_le _ _)
    | @completed _ comp index equal found keys releases =>
      -- At most one release is behind the completed one, so closing the gap keeps the order.
      subst equal
      rw [trace, List.all_append, Bool.and_eq_true] at orderly
      have behind : before.self.session.handling.data.outbound.docket.releases.length ≤
          index + 2 := by
        simpa [isOrderly, found] using orderly.2
      have within := (swapRemove_findIdx? found).2
      refine fewer ?_
      rw [same releases, List.swapRemove_eq_eraseIdx within behind]
      exact List.eraseIdx_sublist _ _

/-- What holds of the order of PUBREL packets in every run. -/
structure Released (moment : ClientMoment) : Prop where
  /-- Identifiers in use are distinct. -/
  identified : moment.self.outbound.Identified
  /-- No turn was written that has not come. -/
  past : ∀ turn ∈ (turns moment.trace).current, turn ≤ (turns moment.trace).received.length
  /-- The pending releases are in the order of their turns, as long as everything is orderly. -/
  inTurn : moment.trace.all isOrderly = true → InTurn moment
  /-- On a live connection the releases that wait come after those that were written. -/
  ahead : moment.trace.all isOrderly = true → moment.self.live = true →
    ∀ turn ∈ (turns moment.trace).current, ∀ packetId ∈ moment.self.outbound.waiting,
      turn < (turns moment.trace).of packetId
  /-- On every connection the releases were written in the order of their turns. -/
  ordered : moment.trace.all isOrderly = true →
    ∀ written ∈ (turns moment.trace).written, written.Pairwise (· > ·)

theorem Turns.current_cases (turns : Turns) : turns.current = [] ∨ turns.current ∈ turns.written := by
  unfold current
  cases turns.written with
  | nil => exact .inl rfl
  | cons first rest => exact .inr List.mem_cons_self

/-- A connection that goes on after an occurrence which starts no release. -/
theorem Turns.current_foldl {turns : Turns} {events : List (Happening Event)}
    (plain : ∀ event ∈ events, ∀ packetId bytes count,
      event ≠ .noted (.wrote (.release packetId) bytes 0 count)) :
    (events.foldl next turns).current = turns.current ∨ (events.foldl next turns).current = [] := by
  -- The present list is the first one, which stays or gives way to an empty one.
  induction events generalizing turns with
  | nil => exact .inl rfl
  | cons event rest ih =>
    have first := @written_next turns event (plain event List.mem_cons_self)
    rcases @ih (turns.next event) fun other found => plain other (List.mem_cons_of_mem _ found)
      with same | none
    · rw [List.foldl_cons, same]
      rcases first with first | ⟨first, -⟩
      · exact .inl (by rw [current, current, first])
      · exact .inr (by rw [current, first]; rfl)
    · exact .inr none

/-- The PUBREC packets so far are those of the past and at most some more. -/
theorem Turns.received_le {turns : Turns} (events : List (Happening Event)) :
    turns.received.length ≤ (events.foldl next turns).received.length := by
  -- No event takes a PUBREC back.
  induction events generalizing turns with
  | nil => exact Nat.le_refl _
  | cons event rest ih =>
    refine Nat.le_trans ?_ (@ih (turns.next event))
    unfold next
    split
    · split
      · exact Nat.le_succ _
      · exact Nat.le_refl _
    all_goals exact Nat.le_refl _

section Moves

variable {events : List (Happening Event)}

theorem orderly_of_append (trace : after.trace = before.trace ++ events)
    (orderly : after.trace.all isOrderly = true) : before.trace.all isOrderly = true := by
  rw [trace, List.all_append, Bool.and_eq_true] at orderly
  exact orderly.1

theorem Move.identified (move : Move τ before after) (identified : before.self.outbound.Identified) :
    after.self.outbound.Identified := by
  cases move with
  | step step => exact step.identified identified
  | torn torn => rw [torn.self]; exact identified

theorem Move.inTurn (move : Move τ before after) (released : Released before)
    (trace : after.trace = before.trace ++ events) (orderly : after.trace.all isOrderly = true) :
    InTurn after :=
  move.tracking.inTurn released.identified orderly
    (released.inTurn (orderly_of_append trace orderly))

theorem Move.turn_eq (move : Move τ before after) (released : Released before)
    (waits : packetId ∈ before.self.outbound.waiting) :
    (turns after.trace).of packetId = (turns before.trace).of packetId :=
  move.tracking.turns_eq released.identified ((Outbound.waiting_sublist _).subset waits)

theorem Released.le_received (released : Released before)
    (trace : after.trace = before.trace ++ events) {turn : Nat}
    (found : turn ∈ (turns before.trace).current) : turn ≤ (turns after.trace).received.length := by
  refine Nat.le_trans (released.past turn found) ?_
  rw [trace, turns_append]
  exact Turns.received_le events

/-- The order holds after a move that starts no release and adds none. -/
theorem Released.still (released : Released before) (move : Move τ before after)
    (same : after.self.live = true → after.self.outbound.waiting = before.self.outbound.waiting)
    (trace : after.trace = before.trace ++ events)
    (plain : ∀ event ∈ events, ∀ packetId bytes count,
      event ≠ .noted (.wrote (.release packetId) bytes 0 count)) : Released after := by
  -- The list of the connection is kept, or begun anew and empty.
  have lists := @Turns.written_foldl (turns before.trace) events plain
  have kept := @Turns.current_foldl (turns before.trace) events plain
  rw [← turns_append, ← trace] at lists kept
  refine ⟨move.identified released.identified, fun turn found => ?_, move.inTurn released trace,
    fun orderly live turn found packetId waits => ?_, fun orderly written found => ?_⟩
  · rcases kept with kept | none
    · exact released.le_received trace (kept ▸ found)
    · rw [none] at found
      cases found
  · rw [same live] at waits
    rcases kept with kept | none
    · rw [kept] at found
      cases move.tenure live with
      | goes_on alive terms again silent =>
        rw [move.turn_eq released waits]
        exact released.ahead (orderly_of_append trace orderly) alive turn found packetId waits
      | begins closed equal sized limit again =>
        -- The list of a new connection is empty.
        rw [← kept, again, turns_append] at found
        cases found
    · rw [none] at found
      cases found
  · rcases lists.1 written found with found | rfl
    · exact released.ordered (orderly_of_append trace orderly) written found
    · exact List.Pairwise.nil

/-- The order holds after the first of the waiting releases was started. -/
theorem Released.started (released : Released before) (move : Move τ before after)
    {bytes packet : Bytes} {count : Nat} (alive : before.self.live = true)
    (first : before.self.outbound.waiting = packetId :: after.self.outbound.waiting)
    (trace : after.trace = before.trace ++
      [.accepted bytes, .noted (.wrote (.release packetId) packet 0 count)]) : Released after := by
  have next : turns after.trace = ⟨(turns before.trace).received,
      ((turns before.trace).of packetId :: (turns before.trace).current) ::
        (turns before.trace).written.tail⟩ := by
    rw [trace, turns_append]
    rfl
  have waits : packetId ∈ before.self.outbound.waiting := by simp [first]
  refine ⟨move.identified released.identified, ?_, move.inTurn released trace,
    fun orderly live turn found other later => ?_, fun orderly => ?_⟩
  · rw [next]
    exact List.forall_mem_cons.mpr ⟨Turns.of_le _ _, released.past⟩
  · have orderly := orderly_of_append trace orderly
    have waits' : other ∈ before.self.outbound.waiting := by simp [first, later]
    rw [move.turn_eq released waits']
    rw [next] at found
    rcases List.mem_cons.mp found with rfl | found
    · -- The other release is behind the one that was started.
      have sorted := (released.inTurn orderly).sublist (Outbound.waiting_sublist _)
      rw [first] at sorted
      exact (List.pairwise_cons.mp sorted).1 other later
    · exact released.ahead orderly alive turn found other waits'
  · -- Its turn is later than those on the list, because it waited while they were written.
    have orderly := orderly_of_append trace orderly
    rw [next]
    refine List.forall_mem_cons.mpr ⟨List.pairwise_cons.mpr ⟨fun turn found => ?_, ?_⟩, ?_⟩
    · exact released.ahead orderly alive turn found packetId waits
    · rcases (turns before.trace).current_cases with none | known
      · rw [none]
        exact List.Pairwise.nil
      · exact released.ordered orderly _ known
    · exact fun written found => released.ordered orderly written (List.mem_of_mem_tail found)

/-- The order holds after an inbound packet that may add a release. -/
theorem Released.handled (released : Released before) (move : Move τ before after)
    {packet : ReceivedPacket} {delivered : Bool}
    (fresh : ∀ packetId ∈ after.self.outbound.waiting, ∃ rec, packet = .pubRec rec ∧
      rec.packetId = packetId ∧ rec.reason.code.isSuccess = true ∧
      (.publishExactlyOnce, packetId) ∈ before.self.outbound.docket.keys)
    (trace : after.trace = before.trace ++
      [.noted (.handled before.self.session.handling packet delivered)]) : Released after := by
  have written : (turns after.trace).written = (turns before.trace).written := by
    have lists := @Turns.written_foldl (turns before.trace)
      [.noted (.handled before.self.session.handling packet delivered)] (by simp)
    rw [trace, turns_append]
    exact lists.2 (by simp [Starts])
  have current : (turns after.trace).current = (turns before.trace).current := by
    rw [Turns.current, Turns.current, written]
  refine ⟨move.identified released.identified, fun turn found => ?_, move.inTurn released trace,
    fun orderly live turn found packetId waits => ?_, fun orderly => ?_⟩
  · exact released.le_received trace (current ▸ found)
  · -- The new release has the latest turn.
    obtain ⟨rec, rfl, rfl, success, retained⟩ := fresh packetId waits
    rw [current] at found
    rw [trace, turns_append, List.foldl_cons, List.foldl_nil,
      Turns.next_of_effective success retained, Turns.of_received, if_pos rfl]
    exact Nat.lt_succ_of_le (released.past turn found)
  · rw [written]
    exact released.ordered (orderly_of_append trace orderly)

theorem Move.released (move : Move τ before after) (released : Released before) :
    Released after := by
  cases move.queueing released.identified with
  | still same trace plain => exact released.still move same trace plain
  | started alive first trace => exact released.started move alive first trace
  | handled empty fresh trace => exact released.handled move fresh trace

end Moves

theorem released_start (config : ConfigBuilder) (clock : Clock) :
    Released (start config clock : ClientWorld τ).moment where
  identified := ⟨List.nodup_nil, List.not_mem_nil⟩
  past := fun _ found => nomatch found
  inTurn := fun _ => List.Pairwise.nil
  ahead := fun _ live => nomatch live
  ordered := fun _ _ found => nomatch found

theorem run_released (config : ConfigBuilder) (clock : Clock) (calls : List (Invocation π τ)) :
    Released (run (start config clock) calls).moment :=
  run_moves (released_start config clock) Move.released calls

/--
On every connection of a run the PUBREL packets are first written in the order of their PUBREC
packets, if every PUBCOMP completes a release with at most one other release behind it.
-/
theorem run_release_order (config : ConfigBuilder) (clock : Clock) (calls : List (Invocation π τ))
    (orderly : (run (start config clock) calls).trace.all isOrderly = true) :
    ∀ written ∈ (turns (run (start config clock) calls).trace).written,
      written.Pairwise (· > ·) :=
  (run_released config clock calls).ordered orderly

/-- A broker that receives three publications and then completes one of them. -/
def completingConnect (completed : UInt8) : Invocation Unit Unit :=
  ⟨.connect [0x20, 3, 0, 0, 0, 0x50, 2, 0, 1, 0x50, 2, 0, 2, 0x50, 2, 0, 3, 0x70, 2, 0, completed],
    [.ready 64, .ready 0, .ready 1, .ready 1, .ready 3]⟩

/-- The broker resumes the session. -/
def resumedConnect : Invocation Unit Unit :=
  ⟨.connect [0x20, 3, 1, 0, 0], [.ready 64, .ready 0, .ready 1, .ready 1, .ready 3]⟩

/-- Three publications are released, one is completed, and the others are replayed. -/
def replayedReleases (completed : UInt8) : List (Invocation Unit Unit) :=
  completingConnect completed :: (List.replicate 3 receivedPublication).flatten ++
    [⟨.poll, [.ready 1, .ready 1, .ready 2]⟩, resumedConnect,
      ⟨.drive, [.ready 64, .ready 64, .ready 0]⟩]

/-- The completed release leaves a gap, which the last release fills. -/
theorem run_release_order_first : (turns (run (start (smallConfig 60) (steppingClock 1 4))
    (replayedReleases 1)).trace).written = [[2, 3], [3, 2, 1]] := by
  decide +kernel

/-- If the last but one is completed, the order stays. -/
theorem run_release_order_second :
    (turns (run (start (smallConfig 60) (steppingClock 1 4)) (replayedReleases 2)).trace).written =
      [[3, 1], [3, 2, 1]] ∧
    ∀ written ∈ (turns (run (start (smallConfig 60) (steppingClock 1 4))
      (replayedReleases 2)).trace).written, written.Pairwise (· > ·) :=
  ⟨by decide +kernel, run_release_order _ _ _ (by decide +kernel)⟩

end Minimq

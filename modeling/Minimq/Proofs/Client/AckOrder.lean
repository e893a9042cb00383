import Minimq.Proofs.Client.Backlog

/-! Inbound packets are acknowledged one at a time, in the order in which they were processed. -/

namespace Minimq

open Async Hoare History

variable {π τ : Type}

/-- The acknowledgements that are queued and still to be started, in order. -/
def Outbound.unacknowledged (outbound : Outbound) : List ControlAction :=
  (outbound.pendingControl.toList.filter fun entry =>
    entry.action != .pingReq && entry.state == .write 0).map (·.action)

/-- The acknowledgement whose first bytes an occurrence writes, if it does. -/
def ackStartOf : Happening Event → Option Bytes
  | .noted (.wrote (.control _) bytes 0 _) =>
    if bytes = ControlAction.pingReq.wire then none else some bytes
  | _ => none

/-- The acknowledgements that were started, in order. -/
def ackStarts (events : List (Happening Event)) : List Bytes := events.filterMap ackStartOf

/-- The acknowledgement that a processed packet requires, if it requires one. -/
def ackOwedOf : Happening Event → Option Bytes
  | .noted (.handled before packet _) =>
    (packet.answer before.data.pendingServerPacketIds).map ControlAction.wire
  | _ => none

/--
The acknowledgements a connection owes, in order.

Those that were queued when the connection began are followed by those of the packets that were
processed on it.
-/
def acksOwed (state : Handling) (back : List (Happening Event)) : List Bytes :=
  state.data.outbound.unacknowledged.map ControlAction.wire ++ back.filterMap ackOwedOf

/-- A packet was processed only after all that was owed before it was sent. -/
def InLockstep (state : Handling) (back : List (Happening Event)) : Prop :=
  ∀ early before packet delivered late,
    back = early ++ .noted (.handled before packet delivered) :: late →
    ackStarts early = acksOwed state early ∧ before.data.outbound.pendingControl.toList = []

/-- A connection starts the acknowledgements that it owes in their order. -/
def Acknowledging : Chronicle := fun connection _ state _ back =>
  ackStarts back <+: acksOwed state back ∧ InLockstep state back ∧
  (connection.live = true →
    ackStarts back ++ connection.outbound.unacknowledged.map ControlAction.wire =
      acksOwed state back)

/-- An occurrence that neither starts an acknowledgement nor calls for one. -/
structure Unconcerned (event : Happening Event) : Prop where
  /-- It starts no acknowledgement. -/
  unstarted : ackStartOf event = none
  /-- It is not a processed packet. -/
  unhandled : Unhandled event
  /-- It begins no connection. -/
  within : ¬ Starts event

theorem Routine.unconcerned {event : Happening Event} (routine : Routine event) :
    Unconcerned event := by
  refine ⟨?_, routine.unhandled, routine.not_starts⟩
  cases routine <;> rfl

section Records

variable {state : Handling} {back events : List (Happening Event)} {event : Happening Event}

theorem Unhandled.ackOwedOf (unhandled : Unhandled event) : ackOwedOf event = none := by
  unfold Minimq.ackOwedOf
  split
  · rename_i before packet delivered
    exact absurd rfl (unhandled before packet delivered)
  · rfl

theorem filterMap_ackOwedOf (before : Handling) (packet : ReceivedPacket) (delivered : Bool) :
    [.noted (.handled before packet delivered)].filterMap ackOwedOf =
      (packet.answer before.data.pendingServerPacketIds).toList.map ControlAction.wire := by
  have owed : ackOwedOf (.noted (.handled before packet delivered)) =
    (packet.answer before.data.pendingServerPacketIds).map ControlAction.wire := rfl
  rw [List.filterMap_cons, List.filterMap_nil, owed]
  cases packet.answer before.data.pendingServerPacketIds <;> rfl

theorem ackStarts_append : ackStarts (back ++ events) = ackStarts back ++ ackStarts events :=
  List.filterMap_append

theorem acksOwed_append :
    acksOwed state (back ++ events) = acksOwed state back ++ events.filterMap ackOwedOf := by
  rw [acksOwed, acksOwed, List.filterMap_append, List.append_assoc]

theorem acksOwed_of_unhandled (unhandled : ∀ event ∈ events, Unhandled event) :
    acksOwed state (back ++ events) = acksOwed state back := by
  have none : events.filterMap ackOwedOf = [] :=
    List.filterMap_eq_nil_iff.mpr fun event found => (unhandled event found).ackOwedOf
  rw [acksOwed_append, none, List.append_nil]

theorem unconcerned_append (other : ∀ event ∈ events, Unconcerned event) :
    ackStarts (back ++ events) = ackStarts back ∧
      acksOwed state (back ++ events) = acksOwed state back := by
  have none : ackStarts events = [] :=
    List.filterMap_eq_nil_iff.mpr fun event found => (other event found).unstarted
  rw [ackStarts_append, none, List.append_nil]
  exact ⟨rfl, acksOwed_of_unhandled fun event found => (other event found).unhandled⟩

theorem InLockstep.nil : InLockstep state [] := by
  intro early before packet delivered late split
  simp at split

/-- As long as no packet is processed, none was processed too early. -/
theorem InLockstep.append (lockstep : InLockstep state back)
    (unhandled : ∀ event ∈ events, Unhandled event) : InLockstep state (back ++ events) := by
  intro early before packet delivered late split
  rcases List.append_eq_append_iff.mp split with ⟨rest, -, tail⟩ | ⟨rest, rest_eq, tail⟩
  · -- The packet would be among the new occurrences.
    exact absurd rfl (unhandled _ (by rw [tail]; simp) before packet delivered)
  · cases rest with
    | nil => exact absurd rfl (unhandled _ (by rw [← List.nil_append events, ← tail]; simp) before
        packet delivered)
    | cons head rest =>
      obtain ⟨rfl, -⟩ := List.cons.inj tail
      exact lockstep early before packet delivered rest rest_eq

/-- A packet is processed after all that was owed was sent. -/
theorem InLockstep.concat {before : Handling} {packet : ReceivedPacket} {delivered : Bool}
    (lockstep : InLockstep state back) (sent : ackStarts back = acksOwed state back)
    (empty : before.data.outbound.pendingControl.toList = []) :
    InLockstep state (back ++ [.noted (.handled before packet delivered)]) := by
  -- The new packet is the one in question, or that one was processed before.
  intro early other seen taken late split
  rcases List.eq_nil_or_concat' late with rfl | ⟨late, last, rfl⟩
  · obtain ⟨rfl, same⟩ := List.append_inj' split rfl
    cases same
    exact ⟨sent, empty⟩
  · rw [← List.cons_append, ← List.append_assoc] at split
    obtain ⟨rfl, -⟩ := List.append_inj' split rfl
    exact lockstep early other seen taken late rfl

end Records

namespace Outbound

variable {outbound : Outbound} {step : OutboundStep}

theorem unacknowledged_of_nil (empty : outbound.pendingControl.toList = []) :
    outbound.unacknowledged = [] := by
  rw [unacknowledged, empty]
  rfl

/-- The acknowledgement of a packet that found the queue empty. -/
theorem unacknowledged_of_answer {pending : FixedVec UInt16 maxInboundQos2}
    {packet : ReceivedPacket}
    (queued : outbound.pendingControl.toList =
      ((packet.answer pending).map (⟨·, .write 0⟩)).toList) :
    outbound.unacknowledged = (packet.answer pending).toList := by
  rw [unacknowledged, queued]
  -- No packet is answered with a PINGREQ.
  have answer : packet.answer pending ≠ some .pingReq := by
    unfold ReceivedPacket.answer
    split
    · simp
    · split <;> simp
    · simp
  cases required : packet.answer pending with
  | none => rfl
  | some action =>
    rw [required] at answer
    have other : (action != .pingReq) = true := by simpa using answer
    simp [other]

theorem unacknowledged_of_ping {queued : Outbound}
    (done : outbound.queueControl .pingReq = .ok queued) :
    queued.unacknowledged = outbound.unacknowledged := by
  obtain ⟨controls, rfl, appended⟩ := controls_of_queueControl done
  have appended : ({ outbound with pendingControl := controls } : Outbound).pendingControl.toList =
    outbound.pendingControl.toList ++ [⟨.pingReq, .write 0⟩] := appended
  rw [unacknowledged, unacknowledged, appended, List.filter_append]
  simp

theorem unacknowledged_completeFlush :
    outbound.completeFlush.unacknowledged = outbound.unacknowledged := by
  rw [unacknowledged, unacknowledged, completeFlush, FixedVec.toList_filter, List.filter_filter]
  refine congrArg (List.map _) (List.filter_congr fun entry _ => ?_)
  cases entry.state <;> simp

/-- A write starts the acknowledgement that is queued, or none. -/
theorem unacknowledged_setWritten {count : Nat} (few : outbound.pendingControl.toList.length ≤ 1)
    (next : outbound.nextStep = some step) (positive : 0 < count) (accepted : Bytes) :
    ackStarts [.accepted accepted,
        .noted (.wrote step.packet (outbound.load step).bytes step.written count)] ++
      (outbound.setWritten (step.written + count) (outbound.load step).bytes.length
        step.packet).unacknowledged.map ControlAction.wire =
      outbound.unacknowledged.map ControlAction.wire := by
  cases (at_of_nextStep next).1 with
  | release found => rfl
  | retained found => rfl
  | @control index written action found =>
    -- The packet that is written is the only one that is queued.
    obtain ⟨within, here⟩ := List.getElem?_eq_some_iff.mp found
    obtain rfl : index = 0 := by omega
    have alone : outbound.pendingControl.toList = [⟨action, .write written⟩] := by
      rw [← here]
      exact List.eq_getElem_of_length_eq_one _ (by omega)
    have changed : (outbound.setWritten (written + count) action.wire.length
        (.control 0)).pendingControl.toList =
        [⟨action, .setWritten (written + count) action.wire.length⟩] := by
      have modified := @FixedVec.toList_modify _ _ outbound.pendingControl 0
        fun entry => { entry with state := .setWritten (written + count) action.wire.length }
      rw [alone] at modified
      exact modified
    have moved :
        (SendState.setWritten (written + count) action.wire.length == .write 0) = false := by
      unfold SendState.setWritten
      split
      · rfl
      · simp only [beq_eq_false_iff_ne, ne_eq, SendState.write.injEq]
        omega
    have none : (outbound.setWritten (written + count) action.wire.length
        (.control 0)).unacknowledged = [] := by
      rw [unacknowledged, changed]
      simp [moved]
    change ackStarts [_, .noted (.wrote (.control 0) action.wire written count)] ++
      (outbound.setWritten (written + count) action.wire.length
        (.control 0)).unacknowledged.map ControlAction.wire = _
    rw [none, unacknowledged, alone]
    cases written with
    | succ written => simp [ackStarts, ackStartOf]
    | zero =>
      by_cases ping : action = .pingReq
      · subst ping
        simp [ackStarts, ackStartOf]
      · have start : ackStartOf (.noted (.wrote (.control 0) action.wire 0 count)) =
            some action.wire :=
          if_neg fun same => ping (ControlAction.wire_eq_pingReq.mp same)
        have silent : ackStartOf (.accepted accepted) = Option.none := rfl
        simp [ackStarts, start, silent, ping]

end Outbound

section Acknowledging

variable {base events : List (Happening Event)} {before after : ClientMoment}

/-- Nothing is started or called for, and what is still to be started stays. -/
theorem Throughout.unconcerned (all : Throughout Acknowledging base before)
    (trace : after.trace = before.trace ++ events)
    (other : ∀ event ∈ events, Unconcerned event)
    (same : after.self.live = true → before.self.live = true ∧
      after.self.outbound.unacknowledged = before.self.outbound.unacknowledged) :
    Throughout Acknowledging base after := by
  -- Neither list changes, so what was still to be started decides.
  refine all.append trace (fun event found => (other event found).within) ?_
  intro front state ack back latest known
  obtain ⟨part, lockstep, now⟩ := known
  obtain ⟨started, owed⟩ := @unconcerned_append state back events other
  refine ⟨by rwa [started, owed], lockstep.append fun event found => (other event found).unhandled,
    fun live => ?_⟩
  obtain ⟨alive, same⟩ := same live
  rw [started, owed, same]
  exact now alive

/-- Writing, flushing and keepalive start the acknowledgements in their order. -/
theorem Outflow.acknowledging (step : Outflow τ before after) (grounded : Grounded before)
    (all : Throughout Acknowledging base before) : Throughout Acknowledging base after := by
  cases step with
  | tick later => exact all
  | @wrote step current count now alive idle next encoded positive within later =>
    refine all.append rfl (by simp [Starts]) ?_
    intro front state ack back latest known
    obtain ⟨part, lockstep, turn⟩ := known
    have loaded : current = before.self.outbound.load step := writeStep_eq_load encoded
    subst loaded
    have order := Outbound.unacknowledged_setWritten grounded.sparse.few next positive
      (((before.self.outbound.load step).bytes.drop
        (before.self.outbound.load step).written).take count)
    rw [Outbound.load_written] at order
    rw [Outbound.load_packet, Outbound.load_written]
    -- What is started was to be started, and no packet is processed meanwhile.
    have turn := turn alive
    rw [← order, ← List.append_assoc, ← ackStarts_append] at turn
    have silent : ∀ event ∈ ([.accepted
        (((before.self.outbound.load step).bytes.drop step.written).take count), .noted
          (.wrote step.packet (before.self.outbound.load step).bytes step.written count)] :
            List (Happening Event)), Unhandled event := by
      simp [Unhandled]
    refine ⟨?_, lockstep.append silent, fun _ => ?_⟩
    · rw [acksOwed_of_unhandled silent, ← turn]
      exact List.prefix_append _ _
    · rw [acksOwed_of_unhandled silent]
      dsimp only
      rw [Connection.afterWrite_outbound, Outbound.load_packet, Outbound.load_written]
      exact turn
  | flushing alive ready =>
    exact all.unconcerned rfl (by simpa using Routine.flushing.unconcerned) fun _ => ⟨alive, rfl⟩
  | @flushed now alive flushing later =>
    exact all.unconcerned rfl
      (by simpa using ⟨Routine.flushed.unconcerned, (Routine.active now).unconcerned⟩)
      fun _ => ⟨alive, Outbound.unacknowledged_completeFlush⟩
  | disconnected =>
    exact all.unconcerned (List.append_nil _).symm (by simp) fun live => by cases live
  | pinged alive quiet due queued =>
    exact all.unconcerned (List.append_nil _).symm (by simp)
      fun _ => ⟨alive, Outbound.unacknowledged_of_ping queued⟩

/-- A packet that leaves the connection live is acknowledged if that is required. -/
theorem Connection.unacknowledged_handle {connection : Connection} (packet : ReceivedPacket)
    (empty : connection.outbound.pendingControl.toList = [])
    (live : (connection.handle packet).1.live = true) :
    (connection.handle packet).1.outbound.unacknowledged =
      (packet.answer connection.session.data.pendingServerPacketIds).toList := by
  -- The queue is empty, so the answer finds a slot and is the only one in it.
  have room :
      connection.session.handling.data.outbound.pendingControl.length < maxPendingControl := by
    have none : connection.outbound.pendingControl.length = 0 := by
      rw [FixedVec.length, empty]
      rfl
    exact none ▸ Nat.succ_pos _
  have answers := handlePacket_answers packet connection.session.handling room
  unfold wp at answers
  have empty : connection.session.handling.data.outbound.pendingControl.toList = [] := empty
  unfold Connection.handle at live ⊢
  cases done : handlePacket packet connection.session.handling with
  | ok delivered state =>
    simp only [done] at answers
    cases answers with
    | queued calm published same =>
      rw [empty] at same
      exact Outbound.unacknowledged_of_answer same
  | error error state =>
    simp only [done] at answers live
    cases answers with
    | refused required large same => cases live
    | queued calm published same =>
      split at live
      · cases live
      · rename_i calm
        simp only [calm]
        rw [empty] at same
        exact Outbound.unacknowledged_of_answer same

/-- Every transition starts the acknowledgements in their order. -/
theorem Step.acknowledging (step : Step τ before after) (grounded : Grounded before)
    (all : Throughout Acknowledging base before) : Throughout Acknowledging base after := by
  cases step with
  | outflow step => exact step.acknowledging grounded all
  | upkeep step =>
    cases step with
    | @reading reader chunks =>
      refine all.unconcerned rfl (fun event found => ?_) fun live => ⟨live, rfl⟩
      obtain ⟨bytes, -, rfl⟩ := List.mem_map.mp found
      exact (Routine.received bytes).unconcerned
    | scratched kept =>
      exact all.unconcerned (List.append_nil _).symm (by simp) fun live => ⟨live, rfl⟩
    | skipped => exact all.unconcerned (List.append_nil _).symm (by simp) fun live => ⟨live, rfl⟩
  | opening step =>
    exact all.opening step fun trace => all.unconcerned trace (by simp) fun live =>
      absurd (step.dead.symm.trans live) Bool.false_ne_true
  | handled packet alive quiet =>
    -- The connection is quiet, so all acknowledgements that were owed have been sent.
    have empty := grounded.sparse.tidy.controls_of_quiet quiet
    refine all.append rfl (by simp [Starts]) ?_
    intro front state ack back latest known
    obtain ⟨part, lockstep, turn⟩ := known
    have sent : ackStarts back = acksOwed state back := by
      have turn := turn alive
      rwa [Outbound.unacknowledged_of_nil empty, List.map_nil, List.append_nil] at turn
    have same : ackStarts (back ++ [.noted (.handled before.self.session.handling packet
        (before.self.handle packet).2)]) = ackStarts back := by
      rw [ackStarts_append]
      exact List.append_nil _
    refine ⟨?_, lockstep.concat sent empty, fun live => ?_⟩
    · rw [same, acksOwed_append]
      exact part.trans (List.prefix_append _ _)
    · rw [same, acksOwed_append, sent, before.self.unacknowledged_handle packet empty live]
      refine congrArg (acksOwed state back ++ ·) ?_
      exact (filterMap_ackOwedOf before.self.session.handling packet _).symm
  | admitted admissible =>
    refine all.unconcerned rfl ?_ fun _ => ⟨admissible.alive, ?_⟩
    · intro event found
      rw [List.mem_singleton.mp found]
      exact ⟨rfl, by simp [Unhandled], by simp [Starts]⟩
    · dsimp only
      rw [Connection.enlist_outbound]
      rfl
  | direct ready whole later =>
    exact all.unconcerned rfl (fun event found => (routine_whole event found).unconcerned)
      fun _ => ⟨ready.alive, rfl⟩
  | broken ready part =>
    exact all.unconcerned rfl (fun event found => (part.routine event found).unconcerned)
      fun live => by cases live
  | opened => exact all.opened rfl
  | reset closed =>
    refine all.unconcerned rfl ?_ fun live => ?_
    · intro event found
      rw [List.mem_singleton.mp found]
      exact ⟨rfl, by simp [Unhandled], by simp [Starts]⟩
    · have live : before.self.live = true := live
      rw [closed] at live
      cases live
  | @connected now ack established closed later sized reserved quota limit state =>
    subst state
    refine all.connected rfl ?_ ⟨List.nil_prefix, .nil, fun _ => ?_⟩
    · intro front state ack back known
      obtain ⟨part, lockstep, turn⟩ := known
      have other :
          ∀ event ∈ ([.noted (.active now)] : List (Happening Event)), Unconcerned event := by
        simpa using (Routine.active now).unconcerned
      obtain ⟨started, owed⟩ := @unconcerned_append state back _ other
      unfold Acknowledging
      rw [started, owed]
      exact ⟨part, lockstep.append fun event found => (other event found).unhandled, turn⟩
    · -- A connection begins with what is queued.
      exact (List.append_nil _).symm

theorem Move.acknowledging (move : Move τ before after) (grounded : Grounded before)
    (all : Throughout Acknowledging base before) : Throughout Acknowledging base after := by
  cases move with
  | step step => exact step.acknowledging grounded all
  -- A dropped write tears a packet that is no acknowledgement.
  | torn dropped =>
    cases dropped with
    | torn ready part =>
      exact all.unconcerned rfl (fun event found => (part.routine event found).unconcerned)
        fun live => ⟨live, rfl⟩

end Acknowledging

end Minimq

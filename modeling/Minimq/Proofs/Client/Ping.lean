import Minimq.Proofs.Client.Chapter
import Minimq.Proofs.Client.Keepalive
import Minimq.Proofs.Client.Progress

/-! At most one PINGREQ is unanswered, and the keepalive interval restarts with every flush. -/

namespace Minimq

open Async Hoare History

variable {π τ : Type}
variable {connection : Connection} {step : OutboundStep} {current : WriteStep} {outbound : Outbound}

/-- Whether the transport accepted the last byte of a PINGREQ. -/
def isPing : Happening Event → Bool
  | .noted (.wrote (.control _) bytes start count) =>
    bytes == ControlAction.pingReq.wire && start + count == bytes.length
  | _ => false

/-- Whether a PINGRESP was processed. -/
def isPong : Happening Event → Bool
  | .noted (.handled _ .pingResp _) => true
  | _ => false

/-- A PINGREQ was written completely, and no PINGRESP was processed since. -/
def Awaited (record : List (Happening Event)) : Prop :=
  Since (isPing · = true) (isPong · = true) record

/-- An instant at which the keepalive interval was restarted on a connection. -/
inductive Restarted (front back : List (Happening Event)) (now : Nat) : Prop where
  /-- The last flush of the connection completed. -/
  | flushed {early late : List (Happening Event)}
      (last : Latest (· = .flushed) back early .flushed (.noted (.active now) :: late))
  /-- The handshake completed, and there was no flush since. -/
  | connected {earlier : List (Happening Event)} (none : .flushed ∉ back)
      (first : front = earlier ++ [.noted (.active now)])

/-- The next PINGREQ is due one interval after an instant. -/
def RuntimeState.DueAfter (runtime : RuntimeState) (now : Nat) : Prop :=
  runtime.nextPing = runtime.keepaliveSendInterval.map (now + ·)

/-- Some bytes of a queued PINGREQ are still to be written. -/
def Outbound.PingOwed (outbound : Outbound) : Prop :=
  ∃ entry ∈ outbound.pendingControl.toList, entry.action = .pingReq ∧ entry.state.Unwritten

/-- What happened on a live connection agrees with its keepalive timers. -/
structure Pinged (connection : Connection) (front back : List (Happening Event)) : Prop where
  /-- Only the PINGREQ that is waited for is not answered. -/
  waiting : back.countP isPing ≤
    back.countP isPong + if connection.runtime.pingTimeout.isSome then 1 else 0
  /-- An answer is waited for only after a PINGREQ. -/
  unanswered : connection.runtime.pingTimeout.isSome = true → Awaited back
  /-- No PINGREQ is left to write while an answer is waited for. -/
  owed : connection.outbound.PingOwed → connection.runtime.pingTimeout = none
  /-- The keepalive interval was restarted with the last flush. -/
  restarted : ∃ now, Restarted front back now ∧ connection.runtime.DueAfter now

/-- At most one PINGREQ of a connection is not answered. -/
def Pinging : Chronicle := fun connection front _ _ back =>
  back.countP isPing ≤ back.countP isPong + 1 ∧
    (connection.live = true → Pinged connection front back)

/-- An occurrence that matters to no keepalive timer. -/
def Calm (event : Happening Event) : Prop :=
  isPing event = false ∧ isPong event = false ∧ event ≠ .flushed

section Pinging

variable {base front back events : List (Happening Event)} {before after : ClientMoment} {now : Nat}

theorem Routine.calm {event : Happening Event} (routine : Routine event)
    (other : event ≠ .flushed) : Calm event := by
  refine ⟨?_, ?_, other⟩ <;> cases routine <;> rfl

/-- Such occurrences count neither as PINGREQ nor as PINGRESP. -/
theorem countP_calm (back : List (Happening Event)) (calm : ∀ event ∈ events, Calm event) :
    (back ++ events).countP isPing = back.countP isPing ∧
      (back ++ events).countP isPong = back.countP isPong := by
  have none : events.countP isPing = 0 ∧ events.countP isPong = 0 := by
    rw [List.countP_eq_zero, List.countP_eq_zero]
    exact ⟨fun event found => by simp [(calm event found).1],
      fun event found => by simp [(calm event found).2.1]⟩
  rw [List.countP_append, List.countP_append, none.1, none.2]
  exact ⟨rfl, rfl⟩

/-- Without another flush the interval is not restarted. -/
theorem Restarted.append (restarted : Restarted front back now)
    (silent : ∀ event ∈ events, event ≠ .flushed) : Restarted front (back ++ events) now := by
  -- The last restart stays the last one.
  cases restarted with
  | @flushed early late last =>
    have split : back ++ events = early ++ .flushed :: (.noted (.active now) :: (late ++ events)) := by
      simp [last.split]
    refine .flushed ⟨split, rfl, fun event found => ?_⟩
    rw [← List.cons_append, List.mem_append] at found
    exact found.elim (last.last event) (silent event)
  | connected none first =>
    refine .connected (fun found => ?_) first
    exact (List.mem_append.mp found).elim none fun found => silent _ found rfl

theorem Restarted.renewed : Restarted front (back ++ [.flushed, .noted (.active now)]) now :=
  .flushed ⟨rfl, rfl, by simp⟩

/-- The keepalive timers of a connection are those of another one. -/
structure SameTimers (before after : Connection) : Prop where
  /-- The wait for an answer goes on. -/
  pingTimeout : after.runtime.pingTimeout = before.runtime.pingTimeout
  /-- The next PINGREQ is due at the same instant. -/
  nextPing : after.runtime.nextPing = before.runtime.nextPing
  /-- The interval is the same. -/
  interval : after.runtime.keepaliveInterval = before.runtime.keepaliveInterval

theorem SameTimers.dueAfter {before after : Connection} (same : SameTimers before after)
    (due : before.runtime.DueAfter now) : after.runtime.DueAfter now := by
  unfold RuntimeState.DueAfter RuntimeState.keepaliveSendInterval at *
  rw [same.nextPing, same.interval, due]

namespace Pinged

variable {connection next : Connection}

theorem few (pinged : Pinged connection front back) :
    back.countP isPing ≤ back.countP isPong + 1 := by
  have waiting := pinged.waiting
  split at waiting <;> omega

theorem pinging {state : Handling} {ack : ConnAck} (pinged : Pinged connection front back) :
    Pinging connection front state ack back := ⟨pinged.few, fun _ => pinged⟩

/-- Occurrences that do not matter leave the timers alone. -/
theorem append (pinged : Pinged connection front back) (calm : ∀ event ∈ events, Calm event)
    (same : SameTimers connection next)
    (owed : next.outbound.PingOwed → connection.outbound.PingOwed ∨
      connection.runtime.pingTimeout = none) : Pinged next front (back ++ events) := by
  -- Counts and timers are the same, and so is the last restart.
  obtain ⟨pings, pongs⟩ := countP_calm back calm
  obtain ⟨start, restarted, due⟩ := pinged.restarted
  refine ⟨?_, fun waiting => ?_, fun unwritten => ?_, start, ?_, same.dueAfter due⟩
  · rw [pings, pongs, same.pingTimeout]
    exact pinged.waiting
  · rw [same.pingTimeout] at waiting
    exact (pinged.unanswered waiting).append fun event found => by simp [(calm event found).2.1]
  · rw [same.pingTimeout]
    exact (owed unwritten).elim pinged.owed id
  · exact restarted.append fun event found => (calm event found).2.2

/-- A flush restarts the interval, and the wait for an answer goes on. -/
theorem renewed (pinged : Pinged connection front back) (due : next.runtime.DueAfter now)
    (same : next.runtime.pingTimeout = connection.runtime.pingTimeout)
    (owed : next.outbound.PingOwed → connection.outbound.PingOwed) :
    Pinged next front (back ++ [.flushed, .noted (.active now)]) := by
  refine ⟨?_, fun waiting => ?_, fun unwritten => ?_, now, .renewed, due⟩
  · rw [same]
    simpa [List.countP_append, isPing, isPong] using pinged.waiting
  · rw [same] at waiting
    exact (pinged.unanswered waiting).append (by simp [isPong])
  · rw [same]
    exact pinged.owed (owed unwritten)

end Pinged

/-- Nothing that happens matters to the keepalive timers of the last connection. -/
theorem Throughout.calm (all : Throughout Pinging base before)
    (trace : after.trace = before.trace ++ events)
    (silent : ∀ event ∈ events, ¬ Starts event) (calm : ∀ event ∈ events, Calm event)
    (kept : after.self.live = true → before.self.live = true ∧ SameTimers before.self after.self ∧
      (after.self.outbound.PingOwed → before.self.outbound.PingOwed ∨
        before.self.runtime.pingTimeout = none)) : Throughout Pinging base after := by
  refine all.append trace silent ?_
  rintro front state ack back - ⟨few, pinged⟩
  obtain ⟨pings, pongs⟩ := countP_calm back calm
  refine ⟨by rw [pings, pongs]; exact few, fun live => ?_⟩
  obtain ⟨alive, same, owed⟩ := kept live
  exact (pinged alive).append calm same owed

/-- No PINGREQ is written on a connection that has ended. -/
theorem Throughout.mute (all : Throughout Pinging base before)
    (trace : after.trace = before.trace ++ events)
    (routine : ∀ event ∈ events, Routine event) (dead : after.self.live = false) :
    Throughout Pinging base after := by
  -- Nothing routine is a PINGREQ, and a dead connection promises nothing.
  refine all.append trace (fun event found => (routine event found).not_starts) ?_
  rintro front state ack back - ⟨few, -⟩
  have none : events.countP isPing = 0 := by
    rw [List.countP_eq_zero]
    intro event found
    cases routine event found <;> simp [isPing]
  refine ⟨?_, fun live => ?_⟩
  · rw [List.countP_append, List.countP_append, none]
    omega
  · rw [dead] at live
    cases live

theorem ControlAction.wire_eq_pingReq {action : ControlAction} :
    action.wire = ControlAction.pingReq.wire ↔ action = .pingReq := by
  cases action <;> simp [wire, ackWire]

/-- The last byte of a PINGREQ is written exactly if the wait for its answer begins. -/
theorem isPing_wrote {session : Session} (found : outbound.At step)
    (encoded : (writeStep session step : Except (Error τ) WriteStep) = .ok current) (count : Nat) :
    isPing (.noted (.wrote current.packet current.bytes current.written count)) =
      (step.isPing && current.written + count == current.bytes.length) := by
  -- A PINGREQ is told by its bytes, and only control packets look like it.
  cases found with
  | control found =>
    cases writeStep_control encoded
    simp only [isPing, OutboundStep.isPing]
    congr 1
    rw [Bool.eq_iff_iff, beq_iff_eq, beq_iff_eq, ControlAction.wire_eq_pingReq]
  | release found =>
    cases writeStep_release encoded
    rfl
  | retained found =>
    cases writeStep_retained encoded
    rfl

/-- A write leaves no PINGREQ unwritten that was written before. -/
theorem Outbound.pingOwed_of_setWritten {session : Session} {written : Nat}
    (found : outbound.At step)
    (encoded : (writeStep session step : Except (Error τ) WriteStep) = .ok current)
    (owed : (outbound.setWritten written current.bytes.length current.packet).PingOwed) :
    outbound.PingOwed := by
  -- A write changes the progress of one packet and leaves its action.
  cases found with
  | @control index start action found =>
    cases writeStep_control encoded
    obtain ⟨front, back, split, rfl⟩ := split_of_getElem? found
    obtain ⟨entry, mem, ping, unwritten⟩ := owed
    rw [setWritten, controls_setControlWritten split, List.mem_append, List.mem_cons] at mem
    rcases mem with mem | rfl | mem
    · exact ⟨entry, by simp [split, mem], ping, unwritten⟩
    · exact ⟨⟨action, .write start⟩, by simp [split], ping, start, rfl⟩
    · exact ⟨entry, by simp [split, mem], ping, unwritten⟩
  | release found =>
    cases writeStep_release encoded
    exact owed
  | retained found =>
    cases writeStep_retained encoded
    exact owed

/-- The last byte of the only control packet leaves no PINGREQ unwritten. -/
theorem Outbound.not_pingOwed_of_setWritten {index start len : Nat}
    {action : ControlAction} (found : outbound.pendingControl.toList[index]? = some ⟨action, .write start⟩)
    (few : outbound.pendingControl.toList.length ≤ 1) :
    ¬ (outbound.setControlWritten index len len).PingOwed := by
  obtain ⟨front, back, split, rfl⟩ := split_of_getElem? found
  -- Nothing else is queued, so the packet just written is the only candidate.
  have alone : front = [] ∧ back = [] := by
    rw [split, List.length_append, List.length_cons] at few
    exact ⟨List.eq_nil_of_length_eq_zero (by omega), List.eq_nil_of_length_eq_zero (by omega)⟩
  obtain ⟨rfl, rfl⟩ := alone
  rintro ⟨entry, mem, -, written, unwritten⟩
  rw [controls_setControlWritten split, List.nil_append, List.mem_singleton] at mem
  subst mem
  simp [SendState.setWritten] at unwritten

/-- A PINGREQ is written only while no answer is waited for. -/
theorem Pinged.wrote {count now : Nat} {bytes : Bytes} (pinged : Pinged connection front back)
    (few : connection.outbound.pendingControl.toList.length ≤ 1)
    (next : connection.outbound.nextStep = some step)
    (encoded : (writeStep connection.session step : Except (Error τ) WriteStep) = .ok current) :
    Pinged (connection.afterWrite step current count now) front (back ++ [.accepted bytes,
      .noted (.wrote current.packet current.bytes current.written count)]) := by
  obtain ⟨found, -⟩ := Outbound.at_of_nextStep next
  have written := isPing_wrote found encoded count
  have outbound := @Connection.afterWrite_outbound connection step current count now
  cases last : step.isPing && current.written + count == current.bytes.length with
  | false =>
    rw [last] at written
    refine pinged.append ?_ ?_ fun owed => .inl ?_
    · intro event mem
      rw [List.mem_pair] at mem
      rcases mem with rfl | rfl
      · exact ⟨rfl, rfl, by simp⟩
      · exact ⟨written, rfl, by simp⟩
    · unfold Connection.afterWrite
      dsimp only
      rw [last]
      exact ⟨rfl, rfl, rfl⟩
    · rw [outbound] at owed
      exact Outbound.pingOwed_of_setWritten found encoded owed
  | true =>
    rw [last] at written
    -- The packet is a PINGREQ, and its last byte was accepted.
    cases found with
    | release found => simp [OutboundStep.isPing] at last
    | retained found => simp [OutboundStep.isPing] at last
    | @control index start action found =>
      cases writeStep_control encoded
      simp only [OutboundStep.isPing, Bool.and_eq_true, beq_iff_eq] at last
      obtain ⟨rfl, whole⟩ := last
      have none := pinged.owed ⟨_, List.mem_of_getElem? found, rfl, start, rfl⟩
      have waiting := pinged.waiting
      obtain ⟨instant, restarted, due⟩ := pinged.restarted
      unfold Connection.afterWrite
      simp only [OutboundStep.isPing, whole, beq_self_eq_true, Bool.and_self, if_true]
      refine ⟨?_, fun _ => ?_, fun owed => ?_, instant, restarted.append (by simp), due⟩
      · have once : [Happening.accepted bytes, .noted (.wrote (.control index)
            ControlAction.pingReq.wire start count)].countP isPing = 1 :=
          (List.countP_cons_of_neg (by simp [isPing])).trans (List.countP_cons_of_pos written)
        rw [none] at waiting
        rw [List.countP_append, List.countP_append, once]
        exact Nat.add_le_add_right (Nat.le_trans waiting (Nat.le_add_right _ _)) 1
      · rw [Awaited, List.append_cons, since_concat]
        exact .inl written
      · exact absurd owed (Outbound.not_pingOwed_of_setWritten found few)

/-- Writing, flushing and keepalive keep the timers in step with what is written. -/
theorem Outflow.pinging (step : Outflow τ before after) (grounded : Grounded before)
    (all : Throughout Pinging base before) : Throughout Pinging base after := by
  cases step with
  | tick later => exact all
  | wrote alive idle next encoded positive within later =>
    refine all.append rfl (by simp [Starts]) fun latest known => Pinged.pinging ?_
    exact (known.2 alive).wrote grounded.sparse.few next encoded
  | flushing alive ready =>
    exact all.calm rfl (by simp [Starts]) (by simp [Calm, isPing, isPong])
      fun _ => ⟨alive, ⟨rfl, rfl, rfl⟩, .inl⟩
  | flushed alive flushing later =>
    refine all.append rfl (by simp [Starts]) fun latest known => Pinged.pinging ?_
    refine (known.2 alive).renewed rfl rfl fun waiting => ?_
    obtain ⟨entry, mem, owed⟩ := waiting
    exact ⟨entry, (List.mem_filter.mp mem).1, owed⟩
  | disconnected => exact all.mute (List.append_nil _).symm (by simp) rfl
  | pinged alive quiet due queued =>
    -- A PINGREQ is queued only if no answer is waited for.
    refine all.calm (List.append_nil _).symm (by simp) (by simp)
      fun _ => ⟨alive, ⟨rfl, rfl, rfl⟩, fun _ => .inr ?_⟩
    simp only [shouldQueuePingreq, Bool.and_eq_true, Option.isNone_iff_eq_none] at due
    exact due.1.1

theorem Handled.sameTimers {packet : ReceivedPacket} {taken : Taken}
    {state : Handling} (handled : Handled packet connection.session.handling taken state)
    (other : packet ≠ .pingResp) : SameTimers connection (connection.setHandling state) := by
  cases handled with
  | ponged undelivered same => exact absurd same other
  | _ => exact ⟨rfl, rfl, rfl⟩

/-- No inbound packet queues a PINGREQ. -/
theorem Handled.pingOwed {packet : ReceivedPacket} {taken : Taken} {state next : Handling}
    (handled : Handled packet state taken next) (owed : next.data.outbound.PingOwed) :
    state.data.outbound.PingOwed := by
  obtain ⟨added, appended, answers⟩ := handled.controls
  obtain ⟨entry, mem, ping, unwritten⟩ := owed
  rw [appended, List.mem_append] at mem
  rcases mem with mem | mem
  · exact ⟨entry, mem, ping, unwritten⟩
  · obtain ⟨action, fresh, rfl⟩ := List.mem_map.mp mem
    exact absurd (ping ▸ fresh) answers

/-- A PINGRESP ends the wait for it. -/
theorem Pinged.ponged (pinged : Pinged connection front back)
    {delivered : Bool} : Pinged (connection.handle .pingResp).1 front
      (back ++ [.noted (.handled connection.session.handling .pingResp delivered)]) := by
  obtain ⟨instant, restarted, due⟩ := pinged.restarted
  have few := pinged.few
  refine ⟨Nat.le_trans ?_ (Nat.le_add_right _ _), fun waiting => ?_, fun _ => rfl, instant,
    restarted.append (by simp), due⟩
  · simpa [List.countP_append, isPing, isPong] using few
  · have none : (connection.handle .pingResp).1.runtime.pingTimeout = none := rfl
    simp [none] at waiting

/-- Every transition keeps the timers in step with what is written. -/
theorem Step.pinging (step : Step τ before after) (grounded : Grounded before)
    (all : Throughout Pinging base before) : Throughout Pinging base after := by
  -- Only a PINGREQ, a PINGRESP and what restarts the interval concern the timers.
  cases step with
  | outflow step => exact step.pinging grounded all
  | upkeep step =>
    cases step with
    | @reading reader chunks =>
      have routine := routine_map .received chunks
      exact all.calm rfl (fun event found => (routine event found).not_starts)
        (fun event found => (routine event found).calm fun flushed => by simp [flushed] at found)
        fun live => ⟨live, ⟨rfl, rfl, rfl⟩, .inl⟩
    | scratched kept =>
      exact all.calm (List.append_nil _).symm (by simp) (by simp)
        fun live => ⟨live, ⟨rfl, rfl, rfl⟩, .inl⟩
    | skipped =>
      exact all.calm (List.append_nil _).symm (by simp) (by simp)
        fun live => ⟨live, ⟨rfl, rfl, rfl⟩, .inl⟩
  | opening step => exact all.opening step fun trace => all.mute trace (by simp) step.dead
  | handled packet alive quiet =>
    by_cases pong : packet = .pingResp
    · -- A PINGRESP ends the wait; other packets leave the timers alone.
      subst pong
      exact all.append rfl (by simp [Starts]) fun latest known => (known.2 alive).ponged.pinging
    · have calm : Calm (.noted (.handled before.self.session.handling packet
          (before.self.handle packet).2)) := by
        refine ⟨rfl, ?_, by simp⟩
        cases packet with
        | pingResp => exact absurd rfl pong
        | _ => rfl
      refine all.calm rfl (by simp [Starts]) (by simpa using calm) fun live => ?_
      obtain ⟨taken, state, handled, same | same⟩ := before.self.handle_cases packet
      · dsimp only
        rw [same]
        exact ⟨alive, handled.sameTimers pong, fun owed => .inl (handled.pingOwed owed)⟩
      · dsimp only at live
        rw [same] at live
        cases live
  | @admitted kind packetId packet buf retained admissible =>
    refine all.calm rfl (by simp [Starts]) (by simp [Calm, isPing, isPong])
      fun _ => ⟨admissible.alive, ?_, fun owed => .inl ?_⟩
    · unfold Connection.enlist
      dsimp only
      split <;> exact ⟨rfl, rfl, rfl⟩
    · dsimp only at owed
      rw [Connection.enlist_outbound] at owed
      exact owed
  | @direct packet chunks now ready whole later =>
    -- A packet past the queue restarts the interval with its flush.
    refine all.append rfl (fun event found => (routine_whole event found).not_starts) ?_
    intro front state ack back latest known
    have routine : ∀ event ∈ handover packet chunks [.flushing], Routine event :=
      routine_handover (by simp [Routine.flushing])
    have calm : ∀ event ∈ handover packet chunks [.flushing], Calm event :=
      fun event found => (routine event found).calm fun flushed => by
        simp [flushed, handover] at found
    have accepted := (known.2 ready.alive).append calm ⟨rfl, rfl, rfl⟩ .inl
    have due : (before.self.mapRuntime (·.noteOutboundActivity now)).runtime.DueAfter now := rfl
    have pinged := accepted.renewed due rfl id
    rw [← handover_whole] at pinged
    exact pinged.pinging
  | broken ready part => exact all.mute rfl part.routine rfl
  | opened => exact all.opened rfl
  | reset closed =>
    exact all.calm rfl (by simp [Starts]) (by simp [Calm, isPing, isPong]) fun live => by
      have live : before.self.live = true := live
      rw [closed] at live
      cases live
  | connected closed later sized reserved quota limit state =>
    subst state
    refine all.connected rfl ?_ ⟨by simp, fun _ => ?_⟩
    · rintro front state ack back ⟨few, -⟩
      refine ⟨by simpa [List.countP_append, isPing, isPong] using few, fun live => ?_⟩
      rw [closed] at live
      cases live
    · exact ⟨by simp, fun waiting => (by cases waiting), fun _ => rfl, _, .connected (by simp) rfl, rfl⟩

end Pinging

/-- The keepalive timer of a live connection runs whenever there is an interval for it. -/
structure Ticking (moment : ClientMoment) : Prop where
  /-- The interval is a whole number of seconds. -/
  seconds : ∃ seconds, moment.self.runtime.keepaliveInterval = seconds * ticksPerSecond
  /-- The next PINGREQ is due one interval after some instant. -/
  running : moment.self.live = true → ∃ now, moment.self.runtime.DueAfter now

namespace Ticking

variable {before after : ClientMoment}

theorem of_same (ticking : Ticking before)
    (alive : after.self.live = true → before.self.live = true)
    (same : SameTimers before.self after.self) : Ticking after := by
  refine ⟨same.interval ▸ ticking.seconds, fun live => ?_⟩
  obtain ⟨now, due⟩ := ticking.running (alive live)
  exact ⟨now, same.dueAfter due⟩

theorem of_dead (dead : after.self.live = false)
    (seconds : ∃ seconds, after.self.runtime.keepaliveInterval = seconds * ticksPerSecond) :
    Ticking after := by
  refine ⟨seconds, fun live => ?_⟩
  rw [dead] at live
  cases live

end Ticking

theorem Outflow.ticking {before after : ClientMoment} (step : Outflow τ before after)
    (ticking : Ticking before) : Ticking after := by
  -- Only a flush restarts the timer, and a write may only start the wait for a PINGRESP.
  cases step with
  | wrote alive idle next encoded positive within later =>
    have seconds := ticking.seconds
    obtain ⟨now, due⟩ := ticking.running alive
    unfold Connection.afterWrite
    dsimp only
    split <;> exact ⟨seconds, fun _ => ⟨now, due⟩⟩
  | flushed alive flushing later => exact ⟨ticking.seconds, fun _ => ⟨_, rfl⟩⟩
  | disconnected => exact .of_dead rfl ticking.seconds
  | _ => exact ticking.of_same id ⟨rfl, rfl, rfl⟩

/-- Every transition keeps the timer running. -/
theorem Step.ticking {before after : ClientMoment} (step : Step τ before after)
    (ticking : Ticking before) : Ticking after := by
  -- The interval is fixed by the handshake, so on a live connection only its start can change.
  cases step with
  | outflow step => exact step.ticking ticking
  | upkeep step => cases step <;> exact ticking.of_same id ⟨rfl, rfl, rfl⟩
  | opening step =>
    have dead := step.dead
    cases step with
    | limited closed keepalive =>
      refine .of_dead dead ?_
      rcases keepalive with same | seconds
      · have known := ticking.seconds
        rw [← same] at known
        exact known
      · exact seconds
    | _ => exact .of_dead dead ticking.seconds
  | handled packet alive quiet =>
    obtain ⟨taken, state, handled, same | same⟩ := before.self.handle_cases packet
    · obtain ⟨-, next, interval⟩ := handled.timers
      obtain ⟨now, due⟩ := ticking.running alive
      obtain ⟨seconds, whole⟩ := ticking.seconds
      rw [same]
      refine ⟨⟨seconds, interval.trans whole⟩, fun _ => ⟨now, ?_⟩⟩
      change state.runtime.DueAfter now
      unfold RuntimeState.DueAfter RuntimeState.keepaliveSendInterval at *
      rw [interval]
      exact next.trans due
    · obtain ⟨seconds, whole⟩ := ticking.seconds
      rw [same]
      exact .of_dead rfl ⟨seconds, handled.timers.2.2.trans whole⟩
  | admitted admissible =>
    refine ticking.of_same (fun _ => admissible.alive) ?_
    unfold Connection.enlist
    dsimp only
    split <;> exact ⟨rfl, rfl, rfl⟩
  | direct ready whole later => exact ⟨ticking.seconds, fun _ => ⟨_, rfl⟩⟩
  | broken ready part => exact .of_dead rfl ticking.seconds
  | opened => exact .of_dead rfl ticking.seconds
  | reset closed => exact .of_dead closed ticking.seconds
  | connected closed later sized reserved quota limit state =>
    subst state
    exact ⟨ticking.seconds, fun _ => ⟨_, rfl⟩⟩

theorem run_ticking (config : ConfigBuilder) (clock : Clock) (calls : List (Invocation π τ)) :
    Ticking (run (start config clock) calls).moment :=
  run_keeps (.of_dead rfl ⟨_, rfl⟩) Step.ticking
    (fun torn ticking => ticking.of_same (by rw [torn.self]; exact id)
      (by rw [torn.self]; exact ⟨rfl, rfl, rfl⟩)) calls

/-- With a keepalive of at least a second there is an interval, and it is positive. -/
theorem RuntimeState.sendInterval_pos {runtime : RuntimeState} {seconds : Nat}
    (whole : runtime.keepaliveInterval = seconds * ticksPerSecond)
    (nonzero : runtime.keepaliveInterval ≠ 0) :
    ∃ interval, runtime.keepaliveSendInterval = some interval ∧ 0 < interval := by
  -- Whole seconds are many milliseconds, of which the margin takes a part only.
  have positive : 0 < seconds := by
    rw [whole] at nonzero
    exact Nat.pos_of_ne_zero fun none => nonzero (by rw [none, Nat.zero_mul])
  have many : 0 < runtime.keepaliveInterval / ticksPerMillisecond := by
    simp only [whole, ticksPerSecond, ticksPerMillisecond]
    omega
  unfold keepaliveSendInterval
  dsimp only
  rw [if_neg (Nat.ne_of_gt many)]
  refine ⟨_, rfl, Nat.mul_pos ?_ (by decide)⟩
  omega

/-- When nothing is left to do, an answer is waited for or the next PINGREQ is not due yet. -/
theorem Ticking.ahead {world : ClientWorld τ} (ticking : Ticking world.moment)
    (alive : world.self.live = true) (tidy : world.self.Tidy) (quiet : world.self.Quiet)
    (paced : Paced world) (nonzero : world.self.runtime.keepaliveInterval ≠ 0)
    (unpinged : world.self.runtime.pingTimeout = none) :
    ∃ deadline, world.self.runtime.nextPing = some deadline ∧ world.time < deadline := by
  obtain ⟨seconds, whole⟩ := ticking.seconds
  obtain ⟨interval, known, positive⟩ : ∃ interval,
      world.self.runtime.keepaliveSendInterval = some interval ∧ 0 < interval :=
    RuntimeState.sendInterval_pos whole nonzero
  rcases paced with renewed | undue
  · rw [Renewed, known] at renewed
    exact ⟨_, renewed, Nat.lt_add_of_pos_right positive⟩
  · obtain ⟨now, due⟩ := ticking.running alive
    have due : world.self.runtime.nextPing = some (now + interval) := by
      rw [show world.self.runtime.nextPing = _ from due]
      exact congrArg (Option.map (now + ·)) known
    -- No PINGREQ is queued, so it is the instant that has not come yet.
    have unqueued : world.self.outbound.hasPendingPingreq = false := by
      simp [Outbound.hasPendingPingreq, tidy.controls_of_quiet quiet]
    refine ⟨now + interval, due, ?_⟩
    simpa [shouldQueuePingreq, unpinged, due, unqueued] using undue

/--
Keepalive: on every connection at most one PINGREQ is unanswered and at most one is queued.

The next PINGREQ is due one interval after the last flush, or after the handshake if there was none.
Whenever `drive` returns without a publication, a PINGREQ is unanswered or the next one is not due.
-/
theorem run_keepalive (config : ConfigBuilder) (clock : Clock)
    (earlier calls : List (Invocation π τ))
    (unbroken : Unbroken (run (start config clock) earlier) calls) :
    let base := (run (start config clock) earlier).trace
    let world := run (run (start config clock) earlier) calls
    (∀ front state ack back, base <+: front →
      Chapter Starts world.trace front (.noted (.connected state ack)) back →
      back.countP isPing ≤ back.countP isPong + 1) ∧
    world.self.outbound.pendingControl.toList.countP (·.action == .pingReq) ≤ 1 ∧
    (∀ front state ack back, base <+: front →
      Latest Starts world.trace front (.noted (.connected state ack)) back →
      world.self.live = true →
      ∃ now, Restarted front back now ∧
        world.self.runtime.nextPing = world.self.runtime.keepaliveSendInterval.map (now + ·)) ∧
    (∀ (replies : List (Reply τ)) (after : ClientWorld τ),
      drive { world with replies } = .ok none after → after.self.runtime.keepaliveInterval ≠ 0 →
      (after.self.runtime.pingTimeout.isSome = true ∧
        ∀ front state ack back, base <+: front →
          Latest Starts after.trace front (.noted (.connected state ack)) back → Awaited back) ∨
      ∃ deadline, after.self.runtime.nextPing = some deadline ∧ after.time < deadline) := by
  intro base world
  have all {calls : List (Invocation π τ)}
      (unbroken : Unbroken (run (start config clock) earlier) calls) :
      Throughout Pinging base (run (run (start config clock) earlier) calls).moment :=
    .run config clock unbroken fun step => step.pinging
  have joined : world = run (start config clock) (earlier ++ calls) := (run_append ..).symm
  refine ⟨fun front state ack back during chapter => ?_, ?_,
    fun front state ack back during latest live => ?_, fun replies after done nonzero => ?_⟩
  · obtain ⟨connection, few, -⟩ := (all unbroken).each chapter during state ack rfl
    exact few
  · refine Nat.le_trans List.countP_le_length ?_
    rw [joined]
    exact (run_sparse config clock (earlier ++ calls)).few
  · exact (((all unbroken).now latest during state ack rfl).2 live).restarted
  · have settled := ((settled_start config clock).run earlier).run calls
    have reached : Reached world.moment { world with replies } := ⟨.refl, settled.rest⟩
    obtain ⟨progress, driven, other⟩ := drive_driven settled.tidy reached done
    have undelivered {P : Prop} (known : (∃ length, progress = .inbound length) ∨ P) : P :=
      known.resolve_left fun ⟨length, same⟩ => other length same
    cases waiting : after.self.runtime.pingTimeout with
    | some deadline =>
      refine .inl ⟨rfl, fun front state ack back during latest => ?_⟩
      -- The call of `drive` is one more call of the run.
      have performed : (⟨.drive, replies⟩ : Invocation π τ).perform world = (.returned, after) :=
        congrArg finish done
      have more := all (unbroken_append.mpr ⟨unbroken,
        (show Unbroken world [⟨.drive, replies⟩] from ⟨fun _ => rfl, trivial⟩)⟩)
      rw [run_append, run, run, show run (run (start config clock) earlier) calls = world from rfl,
        performed] at more
      exact ((more.now latest during state ack rfl).2 driven.alive).unanswered
        (Option.isSome_iff_exists.mpr ⟨deadline, waiting⟩)
    | none =>
      have ticking : Ticking after.moment := driven.reached.steps.keep Step.ticking (by
        rw [joined]
        exact run_ticking config clock (earlier ++ calls))
      exact .inr (ticking.ahead driven.alive (driven.reached.steps.keep Step.tidy settled.tidy)
        (undelivered driven.quiet) (undelivered driven.paced) nonzero waiting)

/-- A client with a keepalive of one second whose first PINGREQ is written and flushed. -/
def pingedClient : List (Invocation Unit Unit) :=
  [acceptedConnect, ⟨.drive, [.ready 2, .ready 0]⟩]

/-- The PINGREQ of such a client is not answered, and it is the only one. -/
theorem run_keepalive_pinged : ∃ front state ack back,
    Latest Starts (run (start (smallConfig 1) (steppingClock 600000 5)) pingedClient).trace front
      (.noted (.connected state ack)) back ∧ back.countP isPing ≤ back.countP isPong + 1 ∧
      ∃ now, Restarted front back now := by
  -- The PINGREQ was written in full, but no answer has come.
  obtain ⟨front, state, ack, back, trace, last⟩ := run_connected (smallConfig 1)
    (steppingClock 600000 5) pingedClient (by decide +kernel)
  have latest : Latest Starts _ front (.noted (.connected state ack)) back :=
    ⟨trace, .inr ⟨state, ack, rfl⟩, last⟩
  obtain ⟨few, -, restarted, -⟩ := run_keepalive (smallConfig 1) (steppingClock 600000 5) []
    pingedClient (by decide +kernel)
  obtain ⟨now, instant, -⟩ := restarted front state ack back List.nil_prefix latest
    (by decide +kernel)
  exact ⟨front, state, ack, back, latest, few front state ack back List.nil_prefix (.latest latest),
    now, instant⟩

end Minimq

import Minimq.Lib.History
import Minimq.Proofs.Client.Run

/-! An inbound QoS 2 publication is delivered once in its handshake. -/

namespace Minimq

open Async History

variable {π τ : Type} {before after : ClientMoment}

/-- A QoS 2 publication with an identifier was delivered to the application. -/
def Delivers (packetId : UInt16) (event : Happening Event) : Prop :=
  ∃ before packet, event = .noted (.handled before packet true) ∧ packet.IsOnce packetId

/-- The handshake of an inbound publication was ended by its PUBREL, or by a fresh session. -/
def EndsHandshake (packetId : UInt16) (event : Happening Event) : Prop :=
  (∃ before rel delivered, event = .noted (.handled before (.pubRel rel) delivered) ∧
    rel.packetId = packetId) ∨ event = .noted .reset

/-- The inbound handshakes of a connection. -/
abbrev Connection.pending (connection : Connection) : List UInt16 :=
  connection.session.data.pendingServerPacketIds.toList

namespace Handshakes

variable {packet : ReceivedPacket} {taken : Taken} {before after : FixedVec UInt16 maxInboundQos2}

/-- Handshakes stay distinct. -/
theorem nodup (changed : Handshakes packet before taken after) (distinct : before.toList.Nodup) :
    after.toList.Nodup := by
  -- An identifier is pushed only if it is new.
  cases changed with
  | same plain => exact distinct
  | began publish fresh pushed =>
    rw [FixedVec.toList_of_push pushed]
    exact distinct.append (List.nodup_singleton _) (by simpa using fresh)
  | ended release found =>
    have within := (List.getElem?_eq_some_iff.mp found).1
    exact (List.swapRemove_perm within).nodup_iff.mpr (distinct.eraseIdx _)

/-- A handshake stays until its PUBREL arrives. -/
theorem kept (changed : Handshakes packet before taken after) {packetId : UInt16}
    (known : packetId ∈ before.toList) :
    packetId ∈ after.toList ∨ ∃ rel, packet = .pubRel rel ∧ rel.packetId = packetId := by
  -- Only the handshake at the found position is removed.
  cases changed with
  | same plain => exact .inl known
  | began publish fresh pushed =>
    rw [FixedVec.toList_of_push pushed]
    exact .inl (List.mem_append_left _ known)
  | @ended rel index release found =>
    obtain ⟨within, here⟩ := List.getElem?_eq_some_iff.mp found
    have split := List.getElem_cons_eraseIdx_perm within
    rw [here] at split
    rcases List.mem_cons.mp (split.mem_iff.mpr known) with same | other
    · exact .inr ⟨rel, release, same.symm⟩
    · exact .inl ((List.swapRemove_perm within).mem_iff.mpr other)

/-- A delivered QoS 2 publication begins a handshake. -/
theorem began_of_delivered (changed : Handshakes packet before taken after) {packetId : UInt16}
    (once : packet.IsOnce packetId) (delivered : taken = .ok true) :
    packetId ∉ before.toList ∧ packetId ∈ after.toList := by
  cases changed with
  | same plain => exact absurd once (plain delivered packetId)
  | began publish fresh pushed =>
    -- A packet has one identifier.
    obtain ⟨info, rfl, -, identified⟩ := once
    obtain ⟨info', same, -, identified'⟩ := publish
    cases same
    rw [identified, Option.some.injEq] at identified'
    subst identified'
    rw [FixedVec.toList_of_push pushed]
    exact ⟨fresh, by simp⟩
  | ended release found =>
    obtain ⟨info, same, -⟩ := once
    rw [release] at same
    cases same

end Handshakes

/-- An inbound packet changes the handshakes in one of three ways. -/
theorem Handled.handshakes {packet : ReceivedPacket} {taken : Taken} {before after : Handling}
    (handled : Handled packet before taken after) :
    Handshakes packet before.data.pendingServerPacketIds taken after.data.pendingServerPacketIds := by
  -- Whatever is not delivered leaves the handshakes alone, except a publication and a PUBREL.
  have same (undelivered : taken ≠ .ok true) : Handshakes packet
      before.data.pendingServerPacketIds taken before.data.pendingServerPacketIds :=
    .same fun delivered => absurd delivered undelivered
  cases handled with
  | ignored plain => exact .same plain
  | answered undelivered => exact same undelivered
  | published undelivered => exact same undelivered
  | refused undelivered => exact same undelivered
  | oversized _ _ _ _ failed => exact same (by simp [failed])
  | untracked _ _ _ _ _ failed => exact same (by simp [failed])
  | released undelivered => exact same undelivered
  | completed undelivered => exact same undelivered
  | pending changed => exact changed
  | queued changed => exact changed
  | ponged undelivered => exact same undelivered

/-- What holds of the inbound handshakes in every run. -/
structure Shaken (moment : ClientMoment) : Prop where
  /-- No handshake is listed twice. -/
  distinct : moment.self.pending.Nodup
  /-- A publication is delivered only while its handshake is not listed. -/
  guarded : ∀ packetId, Guarded (Delivers packetId) (EndsHandshake packetId)
    (packetId ∈ moment.self.pending) moment.trace

theorem Routine.undelivered {event : Happening Event} (routine : Routine event) (state : Handling)
    (packet : ReceivedPacket) : event ≠ .noted (.handled state packet true) := by
  cases routine <;> simp

/-- A transition that delivers nothing and keeps the handshakes. -/
theorem Shaken.of_same {events : List (Happening Event)}
    (shaken : Shaken before) (same : after.self.pending = before.self.pending)
    (trace : after.trace = before.trace ++ events)
    (silent : ∀ event ∈ events, ∀ state packet, event ≠ .noted (.handled state packet true)) :
    Shaken after := by
  refine ⟨same ▸ shaken.distinct, fun packetId => ?_⟩
  rw [same, trace]
  refine (shaken.guarded packetId).append ?_
  rintro event found ⟨state, packet, rfl, -⟩
  exact silent _ found state packet rfl

theorem Outflow.shaken (step : Outflow τ before after) (shaken : Shaken before) : Shaken after := by
  -- None of these transitions notes a delivery.
  cases step with
  | tick later => exact shaken.of_same rfl (List.append_nil _).symm (by simp)
  | wrote alive idle next encoded positive within later =>
    refine shaken.of_same ?_ rfl (by simp)
    dsimp only [Connection.pending]
    unfold Connection.afterWrite
    dsimp only
    split <;> rfl
  | flushing alive ready => exact shaken.of_same rfl rfl (by simp)
  | flushed alive flushing later => exact shaken.of_same rfl rfl (by simp)
  | disconnected => exact shaken.of_same rfl (List.append_nil _).symm (by simp)
  | pinged alive quiet due queued => exact shaken.of_same rfl (List.append_nil _).symm (by simp)

/-- An inbound packet is delivered only if it begins a handshake. -/
theorem Shaken.handled {before : ClientMoment} (shaken : Shaken before) (packet : ReceivedPacket) :
    Shaken { before with
      self := (before.self.handle packet).1
      trace := before.trace ++ [.noted (.handled before.self.session.handling packet
        (before.self.handle packet).2)] } := by
  -- The state of the connection and what was delivered come from one call of the handler.
  obtain ⟨taken, state, handled, delivered, same⟩ := before.self.handle_taken packet
  have changed := handled.handshakes
  have pending : (before.self.handle packet).1.pending =
      state.data.pendingServerPacketIds.toList := by
    rw [same]
    split <;> rfl
  refine ⟨?_, fun packetId => ?_⟩
  · dsimp only
    rw [pending]
    exact changed.nodup shaken.distinct
  · dsimp only
    rw [pending]
    refine (shaken.guarded packetId).concat ?_ fun known => ?_
    · rintro ⟨old, other, event, once⟩
      simp only [Happening.noted.injEq, Event.handled.injEq] at event
      obtain ⟨-, rfl, reported⟩ := event
      exact changed.began_of_delivered once (delivered.mp reported)
    · rcases changed.kept known with stays | ⟨rel, rfl, identified⟩
      · exact .inr stays
      · exact .inl (.inl ⟨_, rel, _, rfl, identified⟩)

/-- Every transition keeps the handshakes in order. -/
theorem Step.shaken (step : Step τ before after) (shaken : Shaken before) : Shaken after := by
  -- Only an inbound packet and a reset change the handshakes.
  cases step with
  | outflow step => exact step.shaken shaken
  | upkeep step =>
    obtain ⟨events, trace, routine⟩ := step.routine
    refine shaken.of_same ?_ trace fun event found => (routine event found).undelivered
    cases step <;> rfl
  | opening step =>
    obtain ⟨events, trace, routine⟩ := step.routine
    refine shaken.of_same ?_ trace fun event found => (routine event found).undelivered
    cases step <;> rfl
  | handled packet alive quiet => exact shaken.handled packet
  | admitted admissible =>
    refine shaken.of_same ?_ rfl (by simp)
    dsimp only [Connection.pending]
    unfold Connection.enlist
    dsimp only
    split <;> rfl
  | direct ready whole later =>
    exact shaken.of_same rfl rfl fun event found => (routine_whole event found).undelivered
  | broken ready part =>
    exact shaken.of_same rfl rfl fun event found => (part.routine event found).undelivered
  | opened => exact shaken.of_same rfl rfl (by simp)
  | reset closed =>
    refine ⟨List.nodup_nil, fun packetId => (shaken.guarded packetId).concat ?_ fun _ => ?_⟩
    · rintro ⟨state, packet, same, -⟩
      simp at same
    · exact .inl (.inr rfl)
  | connected closed later sized reserved quota limit state =>
    subst state
    exact shaken.of_same rfl rfl (by simp)

/--
In every run an inbound QoS 2 publication is delivered at most once in its handshake.

The identifier can be delivered again only after its PUBREL, or after a fresh session.
-/
theorem run_qos2_delivered_once (config : ConfigBuilder) (clock : Clock)
    (calls : List (Invocation π τ)) :
    let world := run (start config clock) calls
    (∀ packetId, Apart (Delivers packetId) (EndsHandshake packetId) world.trace) ∧
      world.self.pending.Nodup ∧ world.self.pending.length ≤ 8 := by
  intro world
  -- Both parts are invariants of a run, and the bound is that of the queue.
  have shaken : Shaken world.moment := run_keeps ⟨List.nodup_nil, fun _ => .nil⟩ Step.shaken
    (by
      rintro before after torn shaken
      cases torn with
      | torn ready part =>
        exact shaken.of_same rfl rfl fun event found => (part.routine event found).undelivered) calls
  exact ⟨fun packetId => (shaken.guarded packetId).apart, shaken.distinct,
    world.self.session.data.pendingServerPacketIds.bounded⟩

end Minimq

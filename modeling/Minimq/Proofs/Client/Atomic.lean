import Minimq.Proofs.Client.Acknowledge
import Minimq.Proofs.Client.Frame

/-! A packet of an inbound QoS 2 handshake that fails should leave the handshake as it was. -/

namespace Minimq

open Hoare Async

variable {π τ : Type}
variable {packet : ReceivedPacket} {pending ids : FixedVec UInt16 maxInboundQos2}
  {action : ControlAction}

/-- The size of an acknowledgement with a bare reason code. -/
def ackSize : Nat := 5

/-- An inbound packet of a QoS 2 handshake. -/
def ReceivedPacket.IsHandshake (packet : ReceivedPacket) : Prop :=
  (∃ info, packet = .publish info ∧ info.qos = .exactlyOnce) ∨ ∃ rel, packet = .pubRel rel

/-- The packet is the first of a handshake for which there is room. -/
def ReceivedPacket.Begins (packet : ReceivedPacket) (pending : FixedVec UInt16 maxInboundQos2) :
    Prop :=
  ∃ packetId, packet.IsOnce packetId ∧ packetId ∉ pending.toList ∧ pending.length < maxInboundQos2

/-- The packet is the last of a handshake under way. -/
def ReceivedPacket.Ends (packet : ReceivedPacket) (pending : FixedVec UInt16 maxInboundQos2) :
    Prop :=
  ∃ rel, packet = .pubRel rel ∧ rel.packetId ∈ pending.toList

/-- A later session with given handshakes under way takes a packet as if it were the first time. -/
structure Redeems (packet : ReceivedPacket) (pending : FixedVec UInt16 maxInboundQos2)
    (again : Handling) : Prop where
  /-- A publication that was not delivered is delivered. -/
  delivered : packet.Begins pending → ((handlePacket packet).outcome again).1 = .ok true
  /-- A PUBREL that was not answered is answered with success. -/
  answered : ∀ rel, packet = .pubRel rel → rel.packetId ∈ pending.toList →
    ((handlePacket packet).outcome again).2.data.outbound.pendingControl.toList =
      again.data.outbound.pendingControl.toList ++ [⟨.pubComp rel.packetId .success, .write 0⟩]

/-- There is room for an acknowledgement, and the broker takes it. -/
structure Handling.TakesAck (state : Handling) : Prop where
  /-- The queue is not full. -/
  room : state.data.outbound.pendingControl.length < maxPendingControl
  /-- The acknowledgement is small enough. -/
  sized : exceeds state.runtime.maximumPacketSize ackSize = false

/-- A packet that fails leaves the handshakes alone, so that it can be sent again. -/
def Atomic (packet : ReceivedPacket) (before : Handling) : Prop :=
  ∀ error after, handlePacket packet before = .error error after →
    after.data.pendingServerPacketIds = before.data.pendingServerPacketIds ∧
    ∀ again : Handling, again.data.pendingServerPacketIds = after.data.pendingServerPacketIds →
      again.TakesAck → Redeems packet before.data.pendingServerPacketIds again

/-- What a packet of an inbound handshake changes before it is answered. -/
inductive Shake (packet : ReceivedPacket) (pending : FixedVec UInt16 maxInboundQos2) :
    FixedVec UInt16 maxInboundQos2 → ControlAction → Bool → Prop where
  /-- A handshake begins. -/
  | begins {packetId : UInt16} {ids : FixedVec UInt16 maxInboundQos2}
      (once : packet.IsOnce packetId) (fresh : packetId ∉ pending.toList)
      (pushed : pending.push packetId = some ids) :
      Shake packet pending ids (.pubRec packetId .success) true
  /-- A publication is repeated. -/
  | repeated {packetId : UInt16} (once : packet.IsOnce packetId) (known : packetId ∈ pending.toList) :
      Shake packet pending pending (.pubRec packetId .success) false
  /-- There are too many handshakes. -/
  | refused {packetId : UInt16} (once : packet.IsOnce packetId) (full : pending.push packetId = none) :
      Shake packet pending pending (.pubRec packetId .receiveMaxExceeded) false
  /-- A handshake ends. -/
  | ends {rel : PubRel} {index : Nat} (same : packet = .pubRel rel)
      (found : pending.toList.findIdx? (· == rel.packetId) = some index) :
      Shake packet pending (pending.swapRemove index) (.pubComp rel.packetId .success) false
  /-- A handshake that ends is not known. -/
  | unknown {rel : PubRel} (same : packet = .pubRel rel)
      (missing : pending.toList.findIdx? (· == rel.packetId) = none) :
      Shake packet pending pending (.pubComp rel.packetId .packetIdNotFound) false

/-- A packet of an inbound handshake changes the handshakes first and is answered then. -/
theorem handlePacket_shake (inbound : packet.IsHandshake) (state : Handling) :
    (∃ error, handlePacket packet state = .error error state ∧ ∀ packetId, ¬ packet.IsOnce packetId ∧
      ∀ rel, packet ≠ .pubRel rel) ∨
    ∃ ids action delivered, Shake packet state.data.pendingServerPacketIds ids action delivered ∧
      handlePacket packet state =
        (do Handler.queueControl action; return delivered : Handler Bool) (state.setPending ids) := by
  -- The packet decides which handshake it is about, and what is known of it decides the answer.
  obtain ⟨info, rfl, level⟩ | ⟨rel, rfl⟩ := inbound
  · cases identified : info.packetId with
    | none =>
      refine .inl ⟨ProtocolError.malformedPacket.toError, ?_, fun packetId => ⟨?_, by simp⟩⟩
      · simp [handlePacket, Handler.publish, level, Handler.requirePacketId, identified]
      · rintro ⟨other, same, -, named⟩
        cases same
        rw [identified] at named
        cases named
    | some packetId =>
      have once : (ReceivedPacket.publish info).IsOnce packetId := ⟨info, rfl, level, identified⟩
      refine .inr ?_
      by_cases known : packetId ∈ state.data.pendingServerPacketIds.toList
      · refine ⟨_, _, _, .repeated once known, ?_⟩
        simp [handlePacket, Handler.publish, level, Handler.requirePacketId, identified, known,
          Handling.setPending]
      · cases pushed : state.data.pendingServerPacketIds.push packetId with
        | some ids =>
          have success : ReasonCode.success.isSuccess = true := by decide
          refine ⟨_, _, _, .begins once known pushed, ?_⟩
          simp [handlePacket, Handler.publish, level, Handler.requirePacketId, identified, known,
            pushed, Handling.setPending, success]
        | none =>
          have failure : ReasonCode.receiveMaxExceeded.isSuccess = false := by decide
          refine ⟨_, _, _, .refused once pushed, ?_⟩
          simp [handlePacket, Handler.publish, level, Handler.requirePacketId, identified, known,
            pushed, Handling.setPending, failure]
  · refine .inr ?_
    cases found : state.data.pendingServerPacketIds.toList.findIdx? (· == rel.packetId) with
    | some index =>
      refine ⟨_, _, _, .ends rfl found, ?_⟩
      simp [handlePacket, Handler.pubRel, found, Handling.setPending]
    | none =>
      refine ⟨_, _, _, .unknown rfl found, ?_⟩
      simp [handlePacket, Handler.pubRel, found, Handling.setPending]

theorem ReceivedPacket.packetId_of_isOnce {one other : UInt16}
    (left : packet.IsOnce one) (right : packet.IsOnce other) : one = other := by
  obtain ⟨info, rfl, -, identified⟩ := left
  obtain ⟨_, same, -, again⟩ := right
  cases same
  exact Option.some.inj (identified.symm.trans again)

theorem ReceivedPacket.pubRel_not_isOnce {rel : PubRel}
    {packetId : UInt16} (same : packet = .pubRel rel) : ¬ packet.IsOnce packetId := by
  subst same
  rintro ⟨info, other, -⟩
  cases other

/-- A handshake changes exactly if the packet begins or ends it. -/
theorem Shake.changes {delivered : Bool} (shake : Shake packet pending ids action delivered) :
    ids = pending ↔ ¬ (packet.Begins pending ∨ packet.Ends pending) := by
  -- A list that gets longer or shorter is another one.
  cases shake with
  | @begins packetId ids once fresh pushed =>
    have appended := FixedVec.toList_of_push pushed
    have room : pending.length < maxInboundQos2 := by
      have bounded := ids.bounded
      rw [appended, List.length_append, List.length_singleton] at bounded
      exact bounded
    refine iff_of_false (fun same => ?_) fun neither => neither (.inl ⟨packetId, once, fresh, room⟩)
    rw [same] at appended
    simpa using congrArg List.length appended
  | repeated once known =>
    refine iff_of_true rfl ?_
    rintro (⟨packetId, other, fresh, -⟩ | ⟨rel, same, -⟩)
    · rw [ReceivedPacket.packetId_of_isOnce other once] at fresh
      exact fresh known
    · exact ReceivedPacket.pubRel_not_isOnce same once
  | refused once full =>
    refine iff_of_true rfl ?_
    rintro (⟨packetId, -, -, room⟩ | ⟨rel, same, -⟩)
    · exact absurd (FixedVec.push_eq_none.mp full) (Nat.ne_of_lt room)
    · exact ReceivedPacket.pubRel_not_isOnce same once
  | @ends rel index same found =>
    obtain ⟨within, matched, -⟩ := List.findIdx?_eq_some_iff_getElem.mp found
    have known : rel.packetId ∈ pending.toList := by
      rw [← show _ = rel.packetId by simpa using matched]
      exact List.getElem_mem within
    refine iff_of_false (fun unchanged => ?_) fun neither => neither (.inr ⟨rel, same, known⟩)
    have shorter := congrArg (·.toList.length) unchanged
    simp only [FixedVec.toList_swapRemove, List.length_swapRemove] at shorter
    omega
  | @unknown rel same missing =>
    refine iff_of_true rfl ?_
    rintro (⟨packetId, once, -, -⟩ | ⟨other, again, known⟩)
    · exact ReceivedPacket.pubRel_not_isOnce same once
    · cases same.symm.trans again
      simpa using List.findIdx?_eq_none_iff.mp missing _ known

/-- An acknowledgement is queued exactly if the broker takes it, as long as there is room. -/
theorem Handler.queueControl_cases {state : Handling}
    (room : state.data.outbound.pendingControl.length < maxPendingControl)
    (sized : action.wire.length = ackSize) :
    (exceeds state.runtime.maximumPacketSize ackSize = true ∧
      queueControl action state = .error (.resource .packetTooLarge) state) ∨
    (exceeds state.runtime.maximumPacketSize ackSize = false ∧
      ∃ controls : FixedVec PendingControl maxPendingControl,
        controls.toList = state.data.outbound.pendingControl.toList ++ [⟨action, .write 0⟩] ∧
        queueControl action state =
          .ok () (state.setOutbound { state.data.outbound with pendingControl := controls })) := by
  -- Both checks of the queue are decided here: the size first, and then the room.
  have size : checkControlPacketSize state.runtime.maximumPacketSize action =
      requirePacketSize state.runtime.maximumPacketSize ackSize := by
    simp only [checkControlPacketSize, encodeControlPacket_eq, bind, Except.bind, sized]
  cases large : exceeds state.runtime.maximumPacketSize ackSize with
  | true =>
    refine .inl ⟨rfl, ?_⟩
    simp [queueControl, size, requirePacketSize, large, protocol, ProtocolError.toError]
  | false =>
    refine .inr ⟨rfl, ?_⟩
    obtain ⟨outbound, done⟩ := Outbound.queueControl_of_room room action
    obtain ⟨controls, rfl, appended⟩ := Outbound.controls_of_queueControl done
    refine ⟨controls, appended, ?_⟩
    simp [queueControl, size, requirePacketSize, large, protocol, done, Handling.setOutbound]

theorem Shake.size {delivered : Bool} (shake : Shake packet pending ids action delivered) :
    action.wire.length = ackSize := by
  cases shake <;> rfl

/-- A publication that begins a handshake is delivered. -/
theorem Shake.delivered {delivered : Bool} (shake : Shake packet pending ids action delivered)
    (begins : packet.Begins pending) : delivered = true := by
  -- The handshake is new and there is room, which rules out the other answers.
  obtain ⟨packetId, once, fresh, room⟩ := begins
  cases shake with
  | begins => rfl
  | repeated other known =>
    rw [ReceivedPacket.packetId_of_isOnce other once] at known
    exact absurd known fresh
  | refused other full => exact absurd (FixedVec.push_eq_none.mp full) (Nat.ne_of_lt room)
  | ends same => exact absurd once (ReceivedPacket.pubRel_not_isOnce same)
  | unknown same => exact absurd once (ReceivedPacket.pubRel_not_isOnce same)

/-- A PUBREL that ends a handshake is answered with success. -/
theorem Shake.answered
    {delivered : Bool} {rel : PubRel} (shake : Shake (.pubRel rel) pending ids action delivered)
    (known : rel.packetId ∈ pending.toList) : action = .pubComp rel.packetId .success := by
  -- Only a PUBREL can do this, and its handshake was found.
  cases shake with
  | begins once => exact absurd once (ReceivedPacket.pubRel_not_isOnce rfl)
  | repeated once => exact absurd once (ReceivedPacket.pubRel_not_isOnce rfl)
  | refused once => exact absurd once (ReceivedPacket.pubRel_not_isOnce rfl)
  | ends same => cases same; rfl
  | unknown same missing =>
    cases same
    have other := List.findIdx?_eq_none_iff.mp missing _ known
    simp at other

/-- A session with given handshakes takes a packet that begins or ends one. -/
theorem Redeems.of_takesAck {pending : FixedVec UInt16 maxInboundQos2}
    {again : Handling} (inbound : packet.IsHandshake)
    (same : again.data.pendingServerPacketIds = pending) (takes : again.TakesAck) :
    Redeems packet pending again := by
  -- Every handshake gets an answer of five bytes, which fits and has a slot.
  subst same
  obtain ⟨error, -, other⟩ | ⟨ids, action, delivered, shake, result⟩ :=
    handlePacket_shake inbound again
  · refine ⟨fun ⟨packetId, once, _⟩ => absurd once (other packetId).1, fun rel same => ?_⟩
    exact absurd same ((other 0).2 rel)
  · have room : (again.setPending ids).data.outbound.pendingControl.length < maxPendingControl :=
      takes.room
    obtain ⟨large, -⟩ | ⟨-, controls, appended, queued⟩ :=
      Handler.queueControl_cases room shake.size
    · exact absurd large (by simp [Handling.setPending, takes.sized])
    have ended : (handlePacket packet).outcome again = (.ok delivered,
        (again.setPending ids).setOutbound
          { (again.setPending ids).data.outbound with pendingControl := controls }) := by
      simp [Handler.outcome, result, queued]
    refine ⟨fun begins => ?_, fun rel same known => ?_⟩
    · rw [ended, shake.delivered begins]
    · subst same
      rw [ended, ← shake.answered known]
      exact appended

/--
In every run a packet of an inbound handshake that fails leaves the handshakes alone exactly if the
broker takes acknowledgements, or the packet neither begins nor ends a handshake.

A failed PUBLISH or PUBREL that has already changed the set of handshakes is not taken back.
-/
theorem run_handshake_atomic (config : ConfigBuilder) (clock : Clock)
    (calls : List (Invocation π τ)) (packet : ReceivedPacket) (inbound : packet.IsHandshake) :
    let before := (run (start config clock) calls).self.session.handling
    Atomic packet before ↔ exceeds before.runtime.maximumPacketSize ackSize = false ∨
      ¬ (packet.Begins before.data.pendingServerPacketIds ∨
        packet.Ends before.data.pendingServerPacketIds) := by
  intro before
  have few : before.data.outbound.pendingControl.length ≤ 1 := (run_sparse config clock calls).few
  obtain ⟨error, result, other⟩ | ⟨ids, action, delivered, shake, result⟩ :=
    handlePacket_shake inbound before
  · -- A publication without an identifier is refused before anything else.
    refine iff_of_true (fun other after failed => ?_) (.inr ?_)
    · rw [result] at failed
      cases failed
      exact ⟨rfl, fun again same takes => .of_takesAck inbound same takes⟩
    · rintro (⟨packetId, once, -⟩ | ⟨rel, same, -⟩)
      · exact (other packetId).1 once
      · exact (other 0).2 rel same
  · have room : (before.setPending ids).data.outbound.pendingControl.length < maxPendingControl :=
      Nat.lt_of_le_of_lt few (by decide)
    rw [← shake.changes]
    obtain ⟨large, refused⟩ | ⟨small, controls, -, queued⟩ :=
      Handler.queueControl_cases room shake.size
    · -- The acknowledgement is refused after the handshakes have changed.
      have failed : handlePacket packet before =
          .error (.resource .packetTooLarge) (before.setPending ids) := by
        simp [result, refused]
      constructor
      · intro atomic
        exact .inr (atomic _ _ failed).1
      · rintro (small | same) error after again
        · exact absurd large (by simp [small, Handling.setPending])
        · rw [failed] at again
          cases again
          exact ⟨same, fun again equal takes => .of_takesAck inbound (equal.trans same) takes⟩
    · refine iff_of_true (fun error after failed => ?_) (.inl small)
      simp [result, queued] at failed

/-- The broker resumes the session without the limit, and repeats the publication. -/
def wideConnect : Invocation Unit Unit :=
  ⟨.connect ([0x20, 3, 1, 0, 0] ++ onceWire), [.ready 64, .ready 0, .ready 1, .ready 1, .ready 3]⟩

/-- Whether a packet was delivered, for each packet that was handled. -/
def deliveries (trace : List (Happening Event)) : List Bool :=
  trace.filterMap fun
    | .noted (.handled _ _ delivered) => some delivered
    | _ => none

/-- Whether a publication fails and leaves other handshakes behind. -/
def tears (packet : Bytes) (before : Handling) : Bool :=
  match ReceivedPacket.fromBuffer packet with
  | .ok (.publish info) => info.qos == .exactlyOnce &&
    match handlePacket (.publish info) before with
    | .error _ after =>
      after.data.pendingServerPacketIds.toList != before.data.pendingServerPacketIds.toList
    | .ok _ _ => false
  | _ => false

/-- A publication that leaves other handshakes behind is not atomic. -/
theorem not_atomic_of_tears {packet : Bytes} {before : Handling}
    (torn : tears packet before = true) :
    ∃ info, ReceivedPacket.fromBuffer packet = .ok (.publish info) ∧ info.qos = .exactlyOnce ∧
      ¬ Atomic (.publish info) before := by
  -- The test evaluates the handler, which failed and changed the handshakes.
  unfold tears at torn
  split at torn
  · rename_i info decoded
    rw [Bool.and_eq_true, beq_iff_eq] at torn
    refine ⟨info, decoded, torn.1, fun atomic => ?_⟩
    have torn := torn.2
    split at torn
    · rename_i error after failed
      rw [(atomic error after failed).1] at torn
      simp at torn
    · cases torn
  · cases torn

/-- A publication that the limit of the broker tears is lost after a resumed reconnect. -/
theorem run_handshake_atomic_narrow :
    (∃ info, ReceivedPacket.fromBuffer onceWire = .ok (.publish info) ∧ info.qos = .exactlyOnce ∧
      ¬ Atomic (.publish info)
        (run (start roomyConfig (steppingClock 1 4)) [narrowConnect]).self.session.handling) ∧
    deliveries (run (start roomyConfig (steppingClock 1 4))
      [narrowConnect, pollOnce, wideConnect, pollOnce]).trace = [false, false] :=
  ⟨not_atomic_of_tears (by decide +kernel), by decide +kernel⟩

/-- Without a limit the PUBREL of a publication that was received is atomic. -/
theorem run_handshake_atomic_wide :
    let world := run (start roomyConfig (steppingClock 1 4))
      [⟨.connect ([0x20, 3, 0, 0, 0] ++ onceWire), acceptedConnect.replies⟩, pollOnce]
    world.self.session.data.pendingServerPacketIds.toList = [7] ∧
      Atomic (.pubRel ⟨7, .ofCode .success⟩) world.self.session.handling :=
  ⟨by decide +kernel,
    (run_handshake_atomic _ _ _ _ (.inr ⟨_, rfl⟩)).mpr (.inl (by decide +kernel))⟩

end Minimq

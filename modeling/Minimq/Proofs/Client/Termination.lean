import Minimq.Proofs.Client.Supply

/-! Driving a connection ends, after a number of calls of the transport that is known before. -/

namespace Minimq

open Hoare Async

variable {α ε π τ : Type} {config : ConfigBuilder} {clock : Clock} {world : ClientWorld τ}

/-- A program that ends by itself, after no more than a number of calls of the transport. -/
def Returns (program : Client τ ε α) (world : ClientWorld τ) (calls : Nat) : Prop :=
  ∃ after, ((∃ value, program world = .ok value after) ∨
    ∃ error, program world = .error (.error error) after) ∧
      world.replies.length ≤ after.replies.length + calls

/-- A program that stops with an error only ends by itself. -/
theorem returns_of_wp {program : Client τ ε α} {calls : Nat}
    (spec : wp program (fun _ after => world.replies.length ≤ after.replies.length + calls)
      (fun stop after => (∃ error, stop = .error error) ∧
        world.replies.length ≤ after.replies.length + calls) world) :
    Returns program world calls := by
  unfold wp at spec
  -- A program that ends by itself returns a value or an error.
  cases result : program world with
  | ok value after =>
    rw [result] at spec
    exact ⟨after, .inl ⟨value, result⟩, spec⟩
  | error stop after =>
    rw [result] at spec
    obtain ⟨⟨error, rfl⟩, fewer⟩ := spec
    exact ⟨after, .inr ⟨error, result⟩, fewer⟩

/-- A program stopped with an error, without another call of the transport. -/
def Refused (before : ClientWorld τ) (stop : Stop ε) (after : ClientWorld τ) : Prop :=
  (∃ error, stop = .error error) ∧ after.replies = before.replies

theorem flushCurrent_dead {Q : Unit → ClientWorld τ → Prop} (dead : world.self.live = false) :
    wp flushCurrent Q (Refused world) world := by
  unfold flushCurrent
  simp only [wp_bind, wp_self, dead, Bool.not_false, if_true, wp_fail]
  exact ⟨⟨_, rfl⟩, rfl⟩

theorem performOutboundStep_dead {Q : Bool → ClientWorld τ → Prop} (dead : world.self.live = false)
    (step : OutboundStep) : wp (performOutboundStep step) Q (Refused world) world := by
  unfold performOutboundStep
  simp only [currentSession, wp_bind, wp_self, wp_pure, wp_ofExcept]
  -- The packet is encoded before the connection is looked at.
  cases (writeStep world.self.session step : Except (Error τ) WriteStep) with
  | error error => exact ⟨⟨_, rfl⟩, rfl⟩
  | ok write =>
    simp only [dead, Bool.not_false, if_true, wp_bind, wp_fail]
    exact ⟨⟨_, rfl⟩, rfl⟩

/-- Queueing a PINGREQ does not call the transport. -/
theorem maybeQueuePingreq_refused (now : Nat) :
    wp (maybeQueuePingreq now) (fun _ after => after.self.live = world.self.live ∧
      after.replies = world.replies) (Refused world) world := by
  -- The queue is in memory, so no reply is taken.
  unfold maybeQueuePingreq
  simp only [currentSession, wp_bind, wp_self, wp_pure, wp_ite]
  split
  · cases checkControlPacketSize world.self.session.runtime.maximumPacketSize .pingReq with
    | error error => exact ⟨⟨_, rfl⟩, rfl⟩
    | ok value =>
      cases world.self.session.data.outbound.queueControl .pingReq with
      | error error => exact ⟨⟨_, rfl⟩, rfl⟩
      | ok queued => exact ⟨rfl, rfl⟩
  · exact ⟨trivial, trivial⟩

/-- On a dead connection there is no outbound progress. -/
theorem serviceOutboundOnce_dead (dead : world.self.live = false) (now : Nat) :
    wp (serviceOutboundOnce now) (fun progress after => progress = false ∧
      after.replies = world.replies) (Refused world) world := by
  -- Each call looks at the connection before it uses the transport.
  unfold serviceOutboundOnce
  simp only [currentOutbound, wp_bind, wp_self, wp_pure, wp_ite]
  split
  · exact flushCurrent_dead dead
  · cases next : world.self.outbound.nextStep with
    | some step => exact performOutboundStep_dead dead step
    | none =>
      simp only [wp_ite, wp_bind, wp_self]
      split
      · exact flushCurrent_dead dead
      · refine wp_mono (maybeQueuePingreq_refused now) (fun _ after done => ?_) (fun _ _ => id)
        simp only [wp_bind, wp_self, wp_pure]
        cases after.self.outbound.nextStep with
        | none => exact ⟨rfl, done.2⟩
        | some step =>
          refine wp_mono (performOutboundStep_dead (done.1.trans dead) step) (fun _ _ => id)
            (fun _ _ refused => ⟨refused.1, refused.2.trans done.2⟩)

/-- Flushing everything ends, whether the connection is live or not. -/
theorem flushOutbound_returns
    (moves : Moves τ (start config clock : ClientWorld τ).moment world.moment)
    (settles : ∀ reply ∈ world.replies, reply.Settles)
    (enough : world.self.workload ≤ world.replies.length) :
    Returns flushOutbound world (world.self.workload + 1) := by
  -- A dead connection refuses the first call; a live one runs out of work.
  refine returns_of_wp ?_
  cases alive : world.self.live with
  | false =>
    unfold flushOutbound
    simp only [wp_bind, wp_rounds, wp_iterate_succ, wp_now]
    refine wp_mono (serviceOutboundOnce_dead (by exact alive) _) (fun progress after done => ?_)
      (fun stop after refused => ⟨refused.1, ?_⟩)
    · obtain ⟨rfl, same⟩ := done
      simp only [Bool.false_eq_true, if_false, wp_pure, same]
      omega
    · rw [refused.2]
      exact Nat.le_add_right _ _
  | true =>
    have provisioned : Provisioned (world.replies.length - world.self.workload) world :=
      ⟨settles, by omega⟩
    refine wp_mono (flushOutbound_settled moves alive provisioned) (fun _ after done => ?_)
      (fun stop after failed => ?_)
    · have := done.2.2.2.1.enough
      omega
    · obtain ⟨middle, now, -, -, provisioned, -, stopped⟩ := failed
      have := provisioned.enough
      have := stopped.fewer
      exact ⟨stopped.error, by omega⟩

namespace Outbound

variable {outbound : Outbound}

/-- If no packet has unwritten bytes, none are to be written. -/
theorem burden_of_holds (all : outbound.Holds (¬ ·.Unwritten) (¬ ·.Unwritten)) :
    outbound.burden = 0 := by
  -- Only bytes that are unwritten count.
  have rest (len : Nat) {state : SendState} (written : ¬ state.Unwritten) : state.rest len = 0 := by
    cases state with
    | write position => exact absurd ⟨position, rfl⟩ written
    | flush => rfl
    | sent => rfl
  rw [burden_eq]
  simp only [Nat.add_eq_zero_iff, List.sum_eq_zero_iff_forall_eq_nat, List.forall_mem_map]
  exact ⟨fun entry found => rest _ (all.control entry found),
    fun entry found => rest _ (all.release entry found),
    fun entry found => rest _ (all.retained entry found)⟩

theorem burden_queueRelease {packetId : UInt16} {reason : ReasonCode} {queued : Outbound}
    (done : outbound.queueRelease packetId reason = .ok queued) :
    queued.burden = outbound.burden + 5 := by
  obtain ⟨pendingRelease, rfl, appended⟩ := releases_of_queueRelease done
  rw [burden_eq, burden_eq]
  simp only [appended, List.map_append, List.sum_append, List.map_cons, List.map_nil,
    List.sum_cons, List.sum_nil, SendState.rest]
  simp only [releaseWire, ackWire, u16Bytes, List.length_cons, List.length_append, List.length_nil]
  omega

end Outbound

theorem ControlAction.length_wire_le (action : ControlAction) : action.wire.length ≤ 5 := by
  cases action <;> simp [wire, ackWire, u16Bytes]

/-- An inbound packet leaves one answer to write at most. -/
theorem Handled.burden_le {packet : ReceivedPacket} {before after : Handling} {taken : Taken}
    (handled : Handled packet before taken after)
    (none : before.data.outbound.nextStep = none) : after.data.outbound.burden ≤ 5 := by
  -- Nothing was left to write, so only the new answer is.
  have all := Outbound.nextStep_eq_none.mp none
  have kept := Outbound.burden_of_holds all
  have acked {kind : OpKind} {packetId : UInt16} {outbound : Outbound}
      (done : before.data.outbound.ackPacket kind packetId = some outbound) :
      outbound.burden = 0 := Outbound.burden_of_holds (all.ackPacket done)
  cases handled.requeued with
  | same kept =>
    rw [kept]
    omega
  | acked done => exact (acked done).le.trans (by omega)
  | released done released =>
    have := Outbound.burden_queueRelease released
    rw [acked done] at this
    exact this.le
  | completed done => exact (Outbound.burden_of_holds (all.ackRelease done)).le.trans (by omega)
  | @queued action done _ =>
    have := Outbound.burden_queueControl done
    rw [kept] at this
    exact this.le.trans (by simpa using action.length_wire_le)

/-- The most work that an inbound packet can leave: an answer, a flush and a PINGREQ. -/
def answerLoad : Nat := 16

/-- An inbound packet on a quiet connection leaves little work. -/
theorem Handled.workload_le {connection : Connection} {packet : ReceivedPacket} {taken : Taken}
    {state : Handling} (handled : Handled packet connection.session.handling taken state)
    (quiet : connection.Quiet) : (connection.setHandling state).workload ≤ answerLoad := by
  have burden : (connection.setHandling state).outbound.burden ≤ 5 := handled.burden_le quiet.1
  have clean : (connection.setHandling state).flushState = .clean := quiet.2
  have credit : (connection.setHandling state).pingCredit ≤ 6 := by
    unfold Connection.pingCredit
    split <;> omega
  rw [Connection.workload, clean, if_pos rfl, answerLoad]
  omega

/-- Processing the waiting packet leaves little work, or fails. -/
theorem processReceivedPacket_load
    (available : world.self.session.packetReader.packetAvailable = true)
    (quiet : world.self.Quiet) :
    wp (processReceivedPacket : Client τ (Error τ) (Option Nat))
      (fun _ after => after.self.workload ≤ answerLoad) (Refused world) world := by
  -- The connection is quiet, so the answer is all the work there is.
  unfold processReceivedPacket
  simp only [currentSession, onPacketReader, wp_bind, wp_self, wp_pure, wp_zoom, available,
    Bool.not_true, Bool.false_eq_true, if_false]
  refine wp_mono PacketReader.takePacket_spec (fun taken reader _ => ?_) (fun error reader _ => ?_)
  · obtain ⟨length, packet⟩ := taken
    simp only [onHandling, wp_bind, wp_zoom]
    refine wp_mono (handlePacket_spec packet _) (fun delivered state handled => ?_)
      (fun error state _ => ?_)
    · have read : (world.self.mapReader fun _ => reader).Quiet := quiet
      have load := handled.workload_le read
      cases delivered <;> exact load
    · simp only [wp_bind, wp_note, wp_ite, wp_fail, disconnected, wp_update]
      split <;> exact ⟨⟨_, rfl⟩, rfl⟩
  · simp only [disconnected, wp_update, wp_fail]
    exact ⟨⟨_, rfl⟩, rfl⟩

/--
The states in which a connection is driven.

A complete packet waits only on a connection that has nothing to send.
-/
structure Drivable (config : ConfigBuilder) (clock : Clock) (world : ClientWorld τ) : Prop where
  /-- A client can reach the state. -/
  moves : Moves τ (start config clock : ClientWorld τ).moment world.moment
  /-- A complete packet waits on a quiet connection only. -/
  quiet : world.self.session.packetReader.packetAvailable = true → world.self.Quiet

/-- How many calls of the transport driving a connection can take. -/
def Connection.driveload (connection : Connection) : Nat :=
  if connection.session.packetReader.packetAvailable then answerLoad else connection.workload

/-- A first round of driving that processes the waiting packet. -/
theorem driveRound_load (drivable : Drivable config clock world) (alive : world.self.live = true)
    (available : world.self.session.packetReader.packetAvailable = true) (advanced : Bool) :
    wp (driveRound advanced : Client τ (Error τ) (Bool ⊕ Progress))
      (fun _ after => Reached world.moment after ∧ after.self.live = true ∧
        after.replies = world.replies ∧ after.self.workload ≤ answerLoad)
      (Refused world) world := by
  have tidy := drivable.moves.sending.1.sparse.tidy
  have quiet := drivable.quiet available
  -- Every queued control packet is flushed on a quiet connection, so the queue is not full.
  have room : world.self.session.data.outbound.pendingControl.length ≠ maxPendingControl :=
    Nat.ne_of_lt (tidy.room_of_quiet quiet)
  unfold driveRound
  simp only [currentSession, wp_bind, wp_self, wp_pure, available, Bool.true_and, beq_iff_eq, room,
    if_true, if_false]
  unfold deliver
  rw [wp_bind]
  refine wp_mono (wp_and (processReceivedPacket_load available quiet)
    (processReceivedPacket_spec .refl alive fun _ => quiet)) (fun delivered after done => ?_)
    (fun _ _ refused => refused.1)
  obtain ⟨load, reached, alive, same⟩ := done
  cases delivered <;> exact ⟨reached, alive, same, load⟩

/-- Driving a connection ends. -/
theorem drivePacket_returns (drivable : Drivable config clock world)
    (settles : ∀ reply ∈ world.replies, reply.Settles)
    (enough : world.self.driveload ≤ world.replies.length) :
    Returns drivePacket world (world.self.driveload + 1) := by
  refine returns_of_wp ?_
  cases alive : world.self.live with
  | false =>
    unfold drivePacket
    simp only [wp_bind, wp_self, alive, Bool.not_false, if_true, wp_fail]
    exact ⟨⟨_, rfl⟩, by omega⟩
  | true =>
    unfold Connection.driveload at enough ⊢
    cases available : world.self.session.packetReader.packetAvailable with
    | false =>
      simp only [available, Bool.false_eq_true, if_false] at enough ⊢
      have provisioned : Provisioned (world.replies.length - world.self.workload) world :=
        ⟨settles, by omega⟩
      refine wp_mono (drivePacket_settled drivable.moves alive provisioned available)
        (fun _ after done => ?_) (fun stop after failed => ?_)
      · have := done.2.1.enough
        omega
      · obtain ⟨middle, now, provisioned, -, -, halted⟩ := failed
        have := provisioned.enough
        have := halted.fewer
        exact ⟨halted.error, by omega⟩
    | true =>
      -- The first round processes the packet, and the others do what is left.
      simp only [available, if_true] at enough ⊢
      unfold drivePacket
      simp only [wp_bind, wp_self, alive, Bool.not_true, Bool.false_eq_true, if_false, wp_rounds]
      rw [wp_iterate_succ]
      refine wp_mono (driveRound_load drivable alive available false) (fun next after done => ?_)
        (fun stop after refused => ⟨refused.1, by rw [refused.2]; omega⟩)
      obtain ⟨reached, alive, same, load⟩ := done
      cases next with
      | inr progress =>
        dsimp only
        rw [same]
        omega
      | inl next =>
        have provisioned : Provisioned (world.replies.length - answerLoad) after :=
          ⟨same ▸ settles, by rw [same]; omega⟩
        refine wp_mono (driveRounds_settled (drivable.moves.trans reached.steps.moves) alive
          provisioned reached.rest (by omega) next) (fun _ last done => ?_) (fun stop last failed => ?_)
        · have := done.2.1.enough
          omega
        · obtain ⟨middle, now, provisioned, -, -, halted⟩ := failed
          have := provisioned.enough
          have := halted.fewer
          exact ⟨halted.error, by omega⟩

/-- Driving a connection, and waiting for input if there is nothing to do, leads to such a state. -/
theorem Drivable.drive (drivable : Drivable config clock world) :
    wp (drivePacket : Client τ (Error τ) Progress)
      (fun progress after => Drivable config clock after ∧
        (progress = .idle →
          wp awaitInput (fun _ last => Drivable config clock last) (fun _ _ => True) after))
      (fun _ after => Drivable config clock after) world := by
  -- A packet is taken from the reader before the call returns.
  have tidy := drivable.moves.sending.1.sparse.tidy
  have settle {after : ClientWorld τ} (reached : Reached world.moment after) :
      Drivable config clock after := by
    refine ⟨drivable.moves.trans reached.steps.moves, fun available => ?_⟩
    rw [show after.self.session.packetReader.packetAvailable = false from reached.rest] at available
    cases available
  cases alive : world.self.live with
  | false =>
    unfold drivePacket
    simp only [wp_bind, wp_self, alive, Bool.not_false, if_true, wp_fail]
    exact drivable
  | true =>
    refine wp_mono (drivePacket_of_driving tidy ⟨.refl, alive, drivable.quiet⟩)
      (fun progress after done => ?_) (fun _ _ => settle)
    have driven := done.1
    refine ⟨settle driven.reached, fun idle => ?_⟩
    refine wp_mono (awaitInput_spec driven.reached driven.alive (driven.idle idle).quiet)
      (fun _ last done => ?_) (fun _ _ _ => trivial)
    exact ⟨drivable.moves.trans done.1.steps.moves, done.1.quiet⟩

/--
Driving a connection ends, with any clock and any transport that settles every call.

The second part says where `drivePacket` is called: first between two operations, and then after
input. The bounds on the calls of the transport depend on the state at the beginning only.
-/
theorem driving_terminates (config : ConfigBuilder) (clock : Clock) :
    (∀ calls : List (Invocation π τ), Drivable config clock (run (start config clock) calls)) ∧
    (∀ world : ClientWorld τ, Drivable config clock world →
      wp (drivePacket : Client τ (Error τ) Progress)
        (fun progress after => Drivable config clock after ∧
          (progress = .idle →
            wp awaitInput (fun _ last => Drivable config clock last) (fun _ _ => True) after))
        (fun _ after => Drivable config clock after) world) ∧
    ∀ world : ClientWorld τ, (∀ reply ∈ world.replies, reply.Settles) →
      (Moves τ (start config clock : ClientWorld τ).moment world.moment →
        world.self.workload ≤ world.replies.length →
        Returns flushOutbound world (world.self.workload + 1)) ∧
      (Drivable config clock world → world.self.driveload ≤ world.replies.length →
        Returns drivePacket world (world.self.driveload + 1)) := by
  refine ⟨fun calls => ?_, fun world drivable => drivable.drive, fun world settles => ⟨?_, ?_⟩⟩
  · have settled := (settled_start config clock).run (τ := τ) calls
    refine ⟨settled.moves, fun available => ?_⟩
    have rest := settled.rest
    -- Between calls no packet is waiting, so the next one drives from rest.
    unfold Connection.Rest at rest
    rw [rest] at available
    cases available
  · exact fun moves enough => flushOutbound_returns moves settles enough
  · exact fun drivable enough => drivePacket_returns drivable settles enough

end Minimq

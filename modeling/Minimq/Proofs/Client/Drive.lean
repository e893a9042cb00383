import Minimq.Proofs.Codec.PacketReader
import Minimq.Proofs.Client.Outflow
import Minimq.Proofs.Client.Tidy

/-! Reading, processing and driving follow the transitions. -/

namespace Minimq

open Hoare Async

variable {τ : Type} {origin : ClientMoment} {world : ClientWorld τ} {after : ClientMoment}
variable {before after : ClientMoment} {connection : Connection}

/-- No complete packet is waiting in the reader. -/
def Connection.Rest (connection : Connection) : Prop :=
  connection.session.packetReader.packetAvailable = false

theorem Connection.Rest.handleDisconnect :
    connection.handleDisconnect.Rest := PacketReader.packetAvailable_reset

theorem Outflow.rest (step : Outflow τ before after) (rest : before.self.Rest) :
    after.self.Rest := by
  -- None of these transitions touches the packet reader, except the end of the connection.
  cases step with
  | tick later => exact rest
  | wrote alive idle next encoded positive within later =>
    unfold Connection.Rest Connection.afterWrite
    dsimp only
    split <;> exact rest
  | flushing alive ready => exact rest
  | flushed alive flushing later => exact rest
  | disconnected => exact .handleDisconnect
  | pinged alive quiet due queued => exact rest

theorem Flow.rest (flow : Flow τ before after) (rest : before.self.Rest) : after.self.Rest := by
  induction flow with
  | refl => exact rest
  | tail _ step ih => exact step.rest ih

theorem Flow.steps (flow : Flow τ before after) : Steps τ before after := by
  induction flow with
  | refl => exact .refl
  | tail _ step ih => exact ih.tail (.outflow step)

/-- Between two moments only the reader changed and bytes were received. -/
def Fed (before after : ClientMoment) : Prop :=
  ∃ (reader : PacketReader) (chunks : List Bytes), after = { before with
    self := before.self.mapReader fun _ => reader
    trace := before.trace ++ chunks.map .received }

namespace Fed

variable {before : ClientMoment}

theorem refl : Fed before before :=
  ⟨before.self.session.packetReader, [], by simp [Connection.mapReader, Connection.mapSession]⟩

theorem changed (fed : Fed before world.moment) (f : PacketReader → PacketReader) :
    Fed before (World.moment { world with self := world.self.mapReader f }) := by
  obtain ⟨reader, chunks, reached⟩ := fed
  refine ⟨f reader, chunks, ?_⟩
  simp only [World.moment, Moment.mk.injEq] at reached ⊢
  obtain ⟨self, trace, time⟩ := reached
  exact ⟨by rw [self]; rfl, trace, time⟩

theorem received (fed : Fed before world.moment) (chunk : Bytes) :
    Fed before (world.record (.received chunk)).moment := by
  obtain ⟨reader, chunks, reached⟩ := fed
  refine ⟨reader, chunks ++ [chunk], ?_⟩
  simp only [World.moment, Moment.mk.injEq] at reached
  obtain ⟨self, trace, time⟩ := reached
  simp [self, trace, time]

theorem live (fed : Fed before after) : after.self.live = before.self.live := by
  obtain ⟨reader, chunks, rfl⟩ := fed
  rfl

theorem runtime (fed : Fed before after) : after.self.runtime = before.self.runtime := by
  obtain ⟨reader, chunks, rfl⟩ := fed
  rfl

theorem quiet (fed : Fed before after) : after.self.Quiet ↔ before.self.Quiet := by
  obtain ⟨reader, chunks, rfl⟩ := fed
  rfl

theorem steps (fed : Fed before after) : Steps τ before after := by
  obtain ⟨reader, chunks, rfl⟩ := fed
  exact .single (.upkeep .reading)

end Fed

/-- Reading changes only the reader, and is interrupted only while a packet is incomplete. -/
theorem fillPacketReader_spec :
    wp (fillPacketReader : Client τ (Error τ) Unit)
      (fun _ after => Fed world.moment after.moment ∧
        after.self.session.packetReader.packetAvailable = true ∧
        after.replies.length ≤ world.replies.length)
      (fun stop after => Fed world.moment after.moment ∧
        ((∃ error, stop = .error error) ∨ after.self.Rest) ∧
        (stop = .expired → after.replies.length < world.replies.length)) world := by
  unfold fillPacketReader
  simp only [wp_bind, wp_rounds]
  refine wp_iterate_measure (fun _ after => Fed world.moment after.moment ∧
      after.replies.length ≤ world.replies.length)
    (fun after => after.replies.length) ⟨.refl, Nat.le_refl _⟩ (by omega) ?_
  rintro _ current ⟨fed, fewer⟩
  simp only [currentSession, onPacketReader, wp_bind, wp_self, wp_pure, wp_ite, wp_zoom]
  split
  · rename_i available
    exact ⟨fed, available, fewer⟩
  · refine wp_mono PacketReader.receiveBuffer_spec (fun size probed known => ?_)
      (fun error probed known => ?_)
    · have complete := (PacketReader.window_eq_ok known.2.2).1
      have fed := fed.changed (fun _ => probed)
      split
      · rename_i empty
        exact ⟨fed, complete.mp empty, fewer⟩
      · -- The packet is incomplete while the read is pending.
        rename_i open'
        have rest : probed.packetAvailable = false := by
          rwa [complete, Bool.not_eq_true] at open'
        refine wp_read _ (fun error rest _ => ?_) (fun chunk rest inbound less within sent => ?_)
          (fun _ => ⟨fed, .inr rest, fun no => by simp at no⟩)
          (fun _ less => ⟨fed, .inr rest, fun _ => Nat.lt_of_lt_of_le less fewer⟩)
        · exact ⟨fed, .inl ⟨_, rfl⟩, fun no => by simp at no⟩
        · dsimp only
          simp only [wp_ite, wp_bind, updateReader, wp_update, wp_pure, wp_fail]
          split
          · exact ⟨fed.received _, .inl ⟨_, rfl⟩, fun no => by simp at no⟩
          · exact ⟨⟨(fed.received chunk).changed _, Nat.le_trans (Nat.le_of_lt less) fewer⟩, less⟩
    · exact ⟨fed.changed _, .inl ⟨_, rfl⟩, fun no => by simp at no⟩

/-- Transitions lead to a world in which no complete packet is waiting. -/
structure Reached (origin : ClientMoment) (world : ClientWorld τ) : Prop where
  /-- The transitions. -/
  steps : Steps τ origin world.moment
  /-- No complete packet is waiting. -/
  rest : world.self.Rest

theorem Reached.given_up (steps : Steps τ origin world.moment) :
    Reached origin { world with self := world.self.handleDisconnect } :=
  ⟨steps.tail (.outflow .disconnected), .handleDisconnect⟩

/-- Reading a packet ends with a complete one, or with an incomplete one, or with the connection. -/
theorem readPacket_spec (steps : Steps τ origin world.moment) (alive : world.self.live = true) :
    wp (readPacket : Client τ (Error τ) Unit)
      (fun _ after => Fed world.moment after.moment ∧
        after.self.session.packetReader.packetAvailable = true ∧
        after.replies.length ≤ world.replies.length)
      (fun stop after => Reached origin after ∧
        (stop = .expired → Fed world.moment after.moment ∧
          after.replies.length < world.replies.length)) world := by
  -- An error of the reader ends the connection; a drop keeps what was read so far.
  unfold readPacket
  simp only [wp_bind, wp_self, alive, Bool.not_true, Bool.false_eq_true, if_false, wp_attempt]
  refine wp_mono fillPacketReader_spec (fun _ after done => done) (fun stop after failed => ?_)
  obtain ⟨fed, ended, fewer⟩ := failed
  have reached := steps.trans fed.steps
  cases stop with
  | error error =>
    simp only [disconnected, wp_update, wp_fail]
    exact ⟨.given_up reached, fun no => by simp at no⟩
  | dropped => exact ⟨⟨reached, by simpa using ended⟩, fun no => by simp at no⟩
  | expired => exact ⟨⟨reached, by simpa using ended⟩, fun _ => ⟨fed, fewer rfl⟩⟩

theorem Connection.handle_of_ok {packet : ReceivedPacket} {delivered : Bool} {state : Handling}
    (result : handlePacket packet connection.session.handling = .ok delivered state) :
    connection.handle packet = (connection.setHandling state, delivered) := by
  simp only [handle, result]

theorem Connection.handle_of_error {packet : ReceivedPacket}
    {error : Error Empty} {state : Handling}
    (result : handlePacket packet connection.session.handling = .error error state) :
    connection.handle packet = (if error.isFatal then
      (connection.setHandling state).handleDisconnect else connection.setHandling state, false) := by
  simp only [handle, result]

/-- A packet is processed on a quiet connection only. -/
theorem processReceivedPacket_spec (steps : Steps τ origin world.moment)
    (alive : world.self.live = true)
    (quiet : world.self.session.packetReader.packetAvailable = true → world.self.Quiet) :
    wp (processReceivedPacket : Client τ (Error τ) (Option Nat))
      (fun _ after => Reached origin after ∧ after.self.live = true ∧
        after.replies = world.replies)
      (fun _ after => Reached origin after) world := by
  -- The packet is taken from the reader first, then handled, and the record notes both.
  unfold processReceivedPacket
  simp only [currentSession, onPacketReader, wp_bind, wp_self, wp_pure, wp_ite, wp_zoom]
  split
  · rename_i waiting
    simp only [Bool.not_eq_true'] at waiting
    exact ⟨⟨steps, waiting⟩, alive, trivial⟩
  · rename_i available
    simp only [Bool.not_eq_true', Bool.not_eq_false] at available
    refine wp_mono PacketReader.takePacket_spec (fun taken reader rest => ?_)
      (fun error reader rest => ?_)
    · obtain ⟨length, packet⟩ := taken
      have read := steps.trans (Fed.refl.changed (fun _ => reader)).steps
      have handled := read.tail (.handled packet alive (quiet available))
      simp only [moment_self] at handled
      simp only [onHandling, wp_bind, wp_zoom]
      -- What the call reports decides between the two shapes of the transition.
      refine wp_of_result (fun delivered state result => ?_) (fun error state result => ?_)
      · rw [Connection.handle_of_ok result] at handled
        cases delivered with
        | true => exact ⟨⟨handled, rest⟩, alive, rfl⟩
        | false => exact ⟨⟨handled, rest⟩, alive, rfl⟩
      · rw [Connection.handle_of_error result] at handled
        simp only [wp_bind, wp_note, wp_ite, wp_fail, disconnected, wp_update]
        split
        · rename_i fatal
          rw [if_pos fatal] at handled
          exact ⟨handled, .handleDisconnect⟩
        · rename_i mild
          rw [if_neg mild] at handled
          exact ⟨handled, rest⟩
    · have read := steps.trans (Fed.refl.changed (fun _ => reader)).steps
      simp only [disconnected, wp_update, wp_fail]
      exact .given_up read

theorem deliver_spec (steps : Steps τ origin world.moment) (alive : world.self.live = true)
    (quiet : world.self.session.packetReader.packetAvailable = true → world.self.Quiet) :
    wp (deliver : Client τ (Error τ) (Bool ⊕ Progress))
      (fun next after => Reached origin after ∧ after.self.live = true ∧
        after.replies = world.replies ∧
        (next = .inl true ∨ ∃ length, next = .inr (.inbound length)))
      (fun _ after => Reached origin after) world := by
  unfold deliver
  rw [wp_bind]
  refine wp_mono (processReceivedPacket_spec steps alive quiet) (fun delivered after done => ?_)
    (fun _ _ => id)
  cases delivered with
  | none => exact ⟨done.1, done.2.1, done.2.2, .inl rfl⟩
  | some length => exact ⟨done.1, done.2.1, done.2.2, .inr ⟨length, rfl⟩⟩

/-- What holds whenever a round of `drivePacket` begins. -/
structure Driving (origin : ClientMoment) (world : ClientWorld τ) : Prop where
  /-- Transitions led here. -/
  steps : Steps τ origin world.moment
  /-- The connection is live. -/
  alive : world.self.live = true
  /-- A complete packet waits on a quiet connection only. -/
  quiet : world.self.session.packetReader.packetAvailable = true → world.self.Quiet

/-- What is known when driving a connection found nothing to do. -/
structure Idle (world : ClientWorld τ) : Prop where
  /-- Nothing is left to write or to flush. -/
  quiet : world.self.Quiet
  /-- No PINGREQ is due. -/
  undue : shouldQueuePingreq world.self.session world.time = false
  /-- The PINGRESP is not overdue. -/
  early : ∀ deadline, world.self.runtime.pingTimeout = some deadline → world.time < deadline

/-- The keepalive interval was just restarted, or no PINGREQ is due. -/
def Paced (world : ClientWorld τ) : Prop :=
  Renewed world ∨ shouldQueuePingreq world.self.session world.time = false

/-- What is known when driving a connection ends. -/
structure Driven (origin : ClientMoment) (progress : Progress) (after : ClientWorld τ) : Prop where
  /-- Transitions led here, and no packet is waiting. -/
  reached : Reached origin after
  /-- The connection is live. -/
  alive : after.self.live = true
  /-- Unless a publication is delivered, nothing is left to send. -/
  quiet : (∃ length, progress = .inbound length) ∨ after.self.Quiet
  /-- Unless a publication is delivered, no PINGREQ is late. -/
  paced : (∃ length, progress = .inbound length) ∨ Paced after
  /-- Without progress there was nothing to do. -/
  idle : progress = .idle → Idle after

/-- How many rounds of `drivePacket` can follow. -/
def driveMeasure (world : ClientWorld τ) : Nat :=
  2 * world.replies.length + if world.self.session.packetReader.packetAvailable then 1 else 0

/-- A round of `drivePacket` makes progress or ends. -/
theorem driveRound_spec (tidy : origin.self.Tidy) (driving : Driving origin world)
    (advanced : Bool) :
    wp (driveRound advanced : Client τ (Error τ) (Bool ⊕ Progress))
      (fun next after => match next with
        | .inl next => Driving origin after ∧ driveMeasure after < driveMeasure world ∧
          next = true
        | .inr progress => Driven origin progress after ∧
          after.replies.length ≤ world.replies.length ∧
          (progress = .idle → advanced = false ∧
            world.self.session.packetReader.packetAvailable = false))
      (fun _ after => Reached origin after) world := by
  obtain ⟨steps, alive, quiet⟩ := driving
  unfold driveRound
  simp only [currentSession, wp_bind, wp_self, wp_pure, wp_ite]
  split
  · -- Every queued control packet is flushed on a quiet connection, so the queue is not full.
    rename_i full
    simp only [Bool.and_eq_true, beq_iff_eq] at full
    have tidy := steps.keep Step.tidy tidy
    have none : world.self.outbound.pendingControl.toList = [] :=
      tidy.controls_of_quiet (quiet full.1)
    simp [FixedVec.length, none, maxPendingControl] at full
  · split
    · rename_i available
      refine wp_mono (deliver_spec steps alive quiet) (fun next after done => ?_) (fun _ _ => id)
      obtain ⟨reached, still, same, rfl | ⟨length, rfl⟩⟩ := done
      · have rest : after.self.session.packetReader.packetAvailable = false := reached.rest
        refine ⟨⟨reached.steps, still, fun no => by simp [rest] at no⟩, ?_, rfl⟩
        simp [driveMeasure, same, rest, available]
      · exact ⟨⟨reached, still, .inl ⟨length, rfl⟩, .inl ⟨length, rfl⟩, fun no => by simp at no⟩,
          by rw [same], fun no => by simp at no⟩
    · rename_i incomplete
      have rest : world.self.Rest := by simpa [Connection.Rest] using incomplete
      simp only [wp_bind, wp_now]
      refine wp_mono (service_spec (Flow.sampled .refl) alive rfl) (fun progress after done => ?_)
        (fun _ after flow => ⟨steps.trans flow.steps, flow.rest rest⟩)
      obtain ⟨flow, still, busy, idle⟩ := done
      have reached : Reached origin after := ⟨steps.trans flow.steps, flow.rest rest⟩
      have rest' : after.self.session.packetReader.packetAvailable = false := reached.rest
      simp only [wp_bind, wp_self, rest', Bool.false_eq_true, if_false, wp_ite, wp_pure]
      cases progress with
      | true =>
        obtain ⟨fewer, renewed⟩ := busy rfl
        simp only [Bool.or_true, if_true]
        split
        · rename_i quiet
          simp only [Bool.and_eq_true, Option.isNone_iff_eq_none, beq_iff_eq] at quiet
          exact ⟨⟨reached, still, .inr quiet, .inr (.inl (renewed quiet.2)), fun no => by simp at no⟩,
            Nat.le_of_lt fewer, fun no => by simp at no⟩
        · refine ⟨⟨reached.steps, still, fun no => by simp [rest'] at no⟩, ?_, trivial⟩
          dsimp only at fewer
          simp only [driveMeasure, rest', Bool.false_eq_true, if_false]
          omega
      | false =>
        obtain ⟨rested, early⟩ := idle rfl
        have quiet := rested.quiet
        simp only [quiet.1, quiet.2, Option.isNone_none, beq_self_eq_true, Bool.and_self, if_true,
          Bool.or_false]
        refine ⟨⟨reached, still, .inr quiet, .inr (.inr rested.undue),
          fun _ => ⟨quiet, rested.undue, early⟩⟩, ?_, fun no => ?_⟩
        · rw [rested.same]
        · refine ⟨?_, rest⟩
          cases advanced <;> simp at no ⊢

/-- Driving a live connection follows the transitions and never runs out of rounds. -/
theorem drivePacket_of_driving (tidy : origin.self.Tidy) (driving : Driving origin world) :
    wp (drivePacket : Client τ (Error τ) Progress)
      (fun progress after => Driven origin progress after ∧
        after.replies.length ≤ world.replies.length ∧
        (progress = .idle → world.self.Rest))
      (fun _ after => Reached origin after) world := by
  unfold drivePacket
  simp only [wp_bind, wp_self, driving.alive, Bool.not_true, Bool.false_eq_true, if_false,
    wp_rounds]
  -- A packet that waits at the start is processed, and that is progress.
  refine wp_iterate_measure (fun advanced current => Driving origin current ∧
      current.replies.length ≤ world.replies.length ∧
      (advanced = true ∨ world.self.Rest ∨
        current.self.session.packetReader.packetAvailable = true))
    driveMeasure ⟨driving, Nat.le_refl _, ?_⟩ ?_ ?_
  · cases waiting : world.self.session.packetReader.packetAvailable with
    | true => exact .inr (.inr rfl)
    | false => exact .inr (.inl waiting)
  · unfold driveMeasure
    split <;> omega
  · rintro advanced current ⟨driving, fewer, busy⟩
    refine wp_mono (driveRound_spec tidy driving advanced) (fun next after done => ?_) (fun _ _ => id)
    cases next with
    | inl next =>
      obtain ⟨driving, less, rfl⟩ := done
      refine ⟨⟨driving, ?_, .inl rfl⟩, less⟩
      unfold driveMeasure at less
      split at less <;> split at less <;> omega
    | inr progress =>
      obtain ⟨driven, less, idle⟩ := done
      refine ⟨driven, Nat.le_trans less fewer, fun nothing => ?_⟩
      obtain ⟨rfl, incomplete⟩ := idle nothing
      simpa [incomplete] using busy

/-- Without a complete packet, driving only writes, flushes and keeps the connection alive. -/
theorem drivePacket_flow (alive : world.self.live = true) (rest : world.self.Rest) :
    wp (drivePacket : Client τ (Error τ) Progress)
      (fun _ after => Flow τ world.moment after.moment) (fun _ after => Flow τ world.moment after.moment)
      world := by
  -- No packet can become complete, because nothing is read here.
  unfold drivePacket
  simp only [wp_bind, wp_self, alive, Bool.not_true, Bool.false_eq_true, if_false, wp_rounds]
  refine wp_iterate (fun _ current => Flow τ world.moment current.moment ∧ current.self.live = true)
    ⟨.refl, alive⟩ (fun advanced current holds => ?_) (fun _ _ holds => holds.1)
  obtain ⟨flow, alive⟩ := holds
  have incomplete : current.self.session.packetReader.packetAvailable = false := flow.rest rest
  unfold driveRound
  simp only [currentSession, wp_bind, wp_self, wp_pure, incomplete, Bool.false_and,
    Bool.false_eq_true, if_false, wp_now]
  refine wp_mono (service_spec flow.sampled alive rfl) (fun progress after done => ?_) (fun _ _ => id)
  have incomplete : after.self.session.packetReader.packetAvailable = false := done.1.rest rest
  simp only [wp_bind, wp_self, wp_pure, incomplete, Bool.false_eq_true, if_false, wp_ite]
  split
  · exact done.1
  · exact ⟨done.1, done.2.1⟩

theorem drivePacket_of_dead {Q : Progress → ClientWorld τ → Prop} (reached : Reached origin world)
    (dead : world.self.live = false) :
    wp (drivePacket : Client τ (Error τ) Progress) Q (fun _ after => Reached origin after) world := by
  unfold drivePacket
  simp only [wp_bind, wp_self, dead, Bool.not_false, if_true, wp_fail]
  exact reached

theorem Reached.driving (reached : Reached origin world) (alive : world.self.live = true) :
    Driving origin world := by
  have rest : world.self.session.packetReader.packetAvailable = false := reached.rest
  exact ⟨reached.steps, alive, fun no => by simp [rest] at no⟩

theorem drivePacket_spec (tidy : origin.self.Tidy) (reached : Reached origin world) :
    wp (drivePacket : Client τ (Error τ) Progress) (fun progress after => Driven origin progress after)
      (fun _ after => Reached origin after) world := by
  cases alive : world.self.live with
  | true =>
    exact wp_mono (drivePacket_of_driving tidy (reached.driving alive))
      (fun _ _ done => done.1) (fun _ _ => id)
  | false => exact drivePacket_of_dead reached alive

theorem decodeInboundPublish_spec {P : ClientWorld τ → Prop} (holds : P world) (length : Nat) :
    wp (decodeInboundPublish length) (fun _ => P) (fun _ => P) world := by
  unfold decodeInboundPublish
  simp only [currentSession, wp_bind, wp_self, wp_pure, wp_ite, wp_fail]
  split
  · exact holds
  · split <;> exact holds

/-- Waiting for input keeps a quiet connection quiet and ends with a packet or with a timer. -/
theorem awaitInput_spec (reached : Reached origin world) (alive : world.self.live = true)
    (quiet : world.self.Quiet) :
    wp (awaitInput : Client τ (Error τ) Unit)
      (fun _ after => Driving origin after ∧ after.replies.length ≤ world.replies.length ∧
        after.self.runtime = world.self.runtime ∧
        (after.self.session.packetReader.packetAvailable = true ∨
          after.replies.length < world.replies.length ∧
            ∃ deadline, world.self.runtime.nextDeadline = some deadline ∧ deadline ≤ after.time))
      (fun _ after => Reached origin after) world := by
  -- With a timer the call ends at the packet or at the deadline, whichever comes first.
  have read := readPacket_spec reached.steps alive
  unfold awaitInput
  simp only [currentSession, wp_bind, wp_self, wp_pure]
  cases timer : world.self.session.runtime.nextDeadline with
  | none =>
    refine wp_mono read (fun _ after done => ?_) (fun _ _ failed => failed.1)
    obtain ⟨fed, available, fewer⟩ := done
    exact ⟨⟨reached.steps.trans fed.steps, fed.live.trans alive, fun _ => fed.quiet.mpr quiet⟩,
      fewer, fed.runtime, .inl available⟩
  | some deadline =>
    rw [wp_bind]
    refine wp_withDeadline (wp_mono read (fun _ after done => ?_) (fun stop after failed => ?_))
    · obtain ⟨fed, available, fewer⟩ := done
      exact ⟨⟨reached.steps.trans fed.steps, fed.live.trans alive, fun _ => fed.quiet.mpr quiet⟩,
        fewer, fed.runtime, .inl available⟩
    · cases stop with
      | error error => exact failed.1
      | dropped => exact failed.1
      | expired =>
        obtain ⟨fed, fewer⟩ := failed.2 rfl
        refine ⟨fun due => ⟨⟨?_, fed.live.trans alive, fun _ => fed.quiet.mpr quiet⟩,
          Nat.le_of_lt fewer, fed.runtime, .inr ⟨fewer, deadline, rfl, due⟩⟩, failed.1⟩
        exact failed.1.steps.tail (.outflow (.tick (time_le_reading after)))

/-- Waiting for progress follows the transitions and never runs out of rounds. -/
theorem waitForProgress_spec (tidy : origin.self.Tidy) (reached : Reached origin world) :
    wp (waitForProgress : Client τ (Error τ) (Option Nat))
      (fun _ after => Reached origin after ∧ after.self.live = true)
      (fun _ after => Reached origin after) world := by
  unfold waitForProgress
  simp only [wp_bind, wp_rounds]
  -- A round that takes no reply leaves a packet, which ends the next round.
  refine wp_iterate_measure (fun _ current => Driving origin current ∨
      (Reached origin current ∧ current.self.live = false))
    (fun current => 2 * current.replies.length +
      if current.self.session.packetReader.packetAvailable then 0 else 1) ?_ ?_ ?_
  · cases alive : world.self.live with
    | true => exact .inl (reached.driving alive)
    | false => exact .inr ⟨reached, rfl⟩
  · split <;> omega
  · intro _ current ready
    rw [wp_bind]
    rcases ready with driving | ⟨reached, dead⟩
    · refine wp_mono (drivePacket_of_driving tidy driving) (fun progress after done => ?_)
        (fun _ _ => id)
      obtain ⟨driven, fewer, waited⟩ := done
      cases progress with
      | inbound length => exact ⟨driven.reached, driven.alive⟩
      | advanced => exact ⟨driven.reached, driven.alive⟩
      | idle =>
        rw [wp_bind]
        refine wp_mono (awaitInput_spec driven.reached driven.alive (driven.idle rfl).quiet)
          (fun _ last done => ?_) (fun _ _ => id)
        obtain ⟨driving, fewer', -, settled⟩ := done
        refine ⟨.inl driving, ?_⟩
        have rest : current.self.session.packetReader.packetAvailable = false := waited rfl
        simp only [rest, Bool.false_eq_true, if_false]
        rcases settled with available | ⟨less, -⟩
        · rw [if_pos available]
          omega
        · split <;> omega
    · exact drivePacket_of_dead reached dead

/-- A call of `drive` follows the transitions. -/
theorem drive_spec (tidy : origin.self.Tidy) (reached : Reached origin world) :
    wp (drive : Client τ (Error τ) (Option InboundPublish))
      (fun _ after => Reached origin after) (fun _ after => Reached origin after) world := by
  -- A publication is decoded from the packet that ended the loop.
  unfold drive
  rw [wp_bind]
  refine wp_mono (drivePacket_spec tidy reached) (fun progress after driven => ?_) (fun _ _ => id)
  cases progress with
  | inbound length =>
    rw [wp_bind]
    exact decodeInboundPublish_spec driven.reached length
  | idle => exact driven.reached
  | advanced => exact driven.reached

/-- If `drive` returns without a publication, driving the connection ended without one. -/
theorem drive_driven (tidy : origin.self.Tidy) (reached : Reached origin world)
    {after : ClientWorld τ} (done : drive world = .ok none after) :
    ∃ progress, Driven origin progress after ∧ ∀ length, progress ≠ .inbound length := by
  -- A publication would be returned, so the loop ended without one.
  have spec : wp (drive : Client τ (Error τ) (Option InboundPublish))
      (fun result after => result = none →
        ∃ progress, Driven origin progress after ∧ ∀ length, progress ≠ .inbound length)
      (fun _ _ => True) world := by
    unfold drive
    rw [wp_bind]
    refine wp_mono (drivePacket_spec tidy reached) (fun progress after driven => ?_)
      (fun _ _ _ => trivial)
    cases progress with
    | inbound length =>
      rw [wp_bind]
      refine wp_mono (decodeInboundPublish_spec (P := fun _ => True) trivial length)
        (fun _ _ _ => ?_) (fun _ _ _ => trivial)
      exact fun no => by cases no
    | idle => exact fun _ => ⟨.idle, driven, by simp⟩
    | advanced => exact fun _ => ⟨.advanced, driven, by simp⟩
  unfold wp at spec
  rw [done] at spec
  exact spec rfl

/-- A call of `poll` follows the transitions. -/
theorem poll_spec (tidy : origin.self.Tidy) (reached : Reached origin world) :
    wp (poll : Client τ (Error τ) (Option InboundPublish))
      (fun _ after => Reached origin after) (fun _ after => Reached origin after) world := by
  -- As for `drive`, except that the loop waits for input when it is idle.
  unfold poll
  rw [wp_bind]
  refine wp_mono (waitForProgress_spec tidy reached) (fun delivered after done => ?_) (fun _ _ => id)
  cases delivered with
  | none => exact done.1
  | some length =>
    rw [wp_bind]
    exact decodeInboundPublish_spec done.1 length

/-- A call of `recv` follows the transitions. -/
theorem recv_spec (tidy : origin.self.Tidy) (reached : Reached origin world) :
    wp (recv : Client τ (Error τ) InboundPublish)
      (fun _ after => Reached origin after) (fun _ after => Reached origin after) world := by
  -- Each round keeps what is reached, and a round without a publication starts another.
  unfold recv
  simp only [wp_bind, wp_rounds]
  refine wp_iterate (fun _ current => Reached origin current) reached (fun _ current reached => ?_)
    (fun _ _ => id)
  rw [wp_bind]
  refine wp_mono (waitForProgress_spec tidy reached) (fun delivered after done => ?_) (fun _ _ => id)
  cases delivered with
  | none => exact done.1
  | some length =>
    rw [wp_bind]
    exact decodeInboundPublish_spec done.1 length

end Minimq

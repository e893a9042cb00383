import Minimq.Proofs.Client.Answer
import Minimq.Proofs.Client.Run

/-! Which errors an operation can return, and what they say about the connection. -/

namespace Minimq

open Hoare Async

variable {α ε π τ : Type} {world : ClientWorld τ} {full : ClientWorld τ → Prop}
variable {error : Error τ} {before after : ClientMoment} {packetId : UInt16}
variable {header : PublishHeader} {origin : ClientMoment} {kind : OpKind} {outbound : Outbound}
  {payload : Payload π}

/-- The connection was given up, and nothing of its transport is left. -/
structure Connection.Latched (connection : Connection) : Prop where
  /-- The connection is dead. -/
  dead : connection.live = false
  /-- Every tracked packet is to be written again from its first byte. -/
  armed : connection.outbound.Holds (· = .write 0) (· = .write 0)
  /-- No PINGREQ is due. -/
  unpinged : connection.runtime.nextPing = none
  /-- No PINGRESP is expected. -/
  unexpecting : connection.runtime.pingTimeout = none
  /-- The packet reader is empty. -/
  unread : connection.session.packetReader.readBytes = 0
  /-- The packet reader has not begun a packet. -/
  unprobed : connection.session.packetReader.packetLength = none
  /-- Giving it up once more changes nothing. -/
  settled : connection.handleDisconnect = connection

/-- Giving a connection up leaves nothing of its transport. -/
theorem Connection.Latched.handleDisconnect {connection : Connection} :
    connection.handleDisconnect.Latched where
  dead := rfl
  armed := .armReplay rfl rfl
  unpinged := rfl
  unexpecting := rfl
  unread := rfl
  unprobed := rfl
  settled := by
    simp only [Connection.handleDisconnect, Session.handleDisconnect, Outbound.armReplay_armReplay]
    rfl

/--
What an error says about the connection it leaves behind.

A deadly error is returned only after the connection was given up. Exhausted metadata is reported
only under a given condition, which differs from one operation to the next.
-/
structure Excused (full : ClientWorld τ → Prop) (stop : Stop (Error τ)) (after : ClientWorld τ) :
    Prop where
  /-- After a deadly error nothing of the transport is left. -/
  latched : ∀ error, stop = .error error → error.isDeadly = true → after.self.Latched
  /-- Metadata is exhausted only under the condition. -/
  exhausted : stop = .error (.resource .inflightExhausted) → full after

namespace Excused

theorem of_dropped : Excused full .dropped world := ⟨by simp, by simp⟩

theorem of_expired : Excused full .expired world := ⟨by simp, by simp⟩

/-- An error that is neither deadly nor about metadata says nothing. -/
theorem of_mild (mild : error.isDeadly = false)
    (other : error ≠ .resource .inflightExhausted) : Excused full (.error error) world := by
  refine ⟨fun same equal deadly => ?_, fun equal => ?_⟩
  · rw [Stop.error.injEq] at equal
    rw [← equal, mild] at deadly
    simp at deadly
  · rw [Stop.error.injEq] at equal
    exact absurd equal other

theorem of_latched (latched : world.self.Latched)
    (other : error ≠ .resource .inflightExhausted) : Excused full (.error error) world := by
  refine ⟨fun _ _ _ => latched, fun equal => ?_⟩
  rw [Stop.error.injEq] at equal
  exact absurd equal other

theorem mono {full' : ClientWorld τ → Prop} {stop : Stop (Error τ)} (excused : Excused full stop world)
    (weaker : full world → full' world) : Excused full' stop world :=
  ⟨excused.latched, fun equal => weaker (excused.exhausted equal)⟩

end Excused

theorem SerError.toError_mild (error : SerError) :
    (error.toError : Error τ).isDeadly = false ∧
      (error.toError : Error τ) ≠ .resource .inflightExhausted := by
  cases error <;> exact ⟨rfl, by simp [SerError.toError]⟩

/-- A packet is refused for being written only if it exceeds the limit of the broker. -/
theorem writeStep_eq_error {session : Session} {step : OutboundStep}
    (failed : writeStep session step = .error error) : error = .resource .packetTooLarge := by
  -- Encoding cannot fail in a session, so only the limit is left.
  cases step with
  | control index action written =>
    simp only [writeStep, serializeControlPacket, encodeControlPacket_eq, withinLimit, bind,
      Except.bind, Except.mapError] at failed
    split at failed
    · rename_i refused
      split at refused <;> simp_all
    · simp [pure, Except.pure] at failed
  | release packetId reason written =>
    simp only [writeStep, serializePubrel, encodePubrel_eq, withinLimit, bind, Except.bind,
      Except.mapError] at failed
    split at failed
    · rename_i refused
      split at refused <;> simp_all
    · simp [pure, Except.pure] at failed
  | retained packetId offset len written =>
    simp only [writeStep, RuntimeState.requirePacketSize, bind, Except.bind] at failed
    split at failed
    · rename_i refused
      split at refused <;> simp_all
    · simp [pure, Except.pure] at failed

theorem Error.ne_exhausted_of_isDeadly (deadly : error.isDeadly = true) :
    error ≠ .resource .inflightExhausted := by
  rintro rfl
  simp [isDeadly] at deadly

/--
What an error of outbound progress says about the connection it leaves behind.

The connection was given up, or the next packet exceeds the limit of the broker.
-/
def Hindered (stop : Stop (Error τ)) (after : ClientWorld τ) : Prop :=
  ∀ error, stop = .error error →
    (after.self.Latched ∧ error.isDeadly = true) ∨ error = .resource .packetTooLarge

namespace Hindered

theorem of_dropped : Hindered .dropped world := by simp [Hindered]

theorem of_expired : Hindered .expired world := by simp [Hindered]

theorem of_latched (latched : world.self.Latched) (deadly : error.isDeadly = true) :
    Hindered (.error error) world := by
  rintro same ⟨rfl⟩
  exact .inl ⟨latched, deadly⟩

theorem of_large : Hindered (.error (.resource .packetTooLarge)) world := by
  rintro same ⟨rfl⟩
  exact .inr rfl

/-- An error of outbound progress is excused, and never about metadata. -/
theorem excused {stop : Stop (Error τ)} (hindered : Hindered stop world) :
    Excused full stop world := by
  cases stop with
  | dropped => exact .of_dropped
  | expired => exact .of_expired
  | error error =>
    rcases hindered error rfl with ⟨latched, deadly⟩ | rfl
    · exact .of_latched latched (Error.ne_exhausted_of_isDeadly deadly)
    · exact .of_mild rfl (by simp)

end Hindered

theorem flushCurrent_hindered (alive : world.self.live = true) :
    wp (flushCurrent : Client τ (Error τ) Unit) (fun _ _ => True)
      (fun stop after => Hindered stop after) world := by
  unfold flushCurrent
  simp only [wp_bind, wp_self, alive, Bool.not_true, Bool.false_eq_true, if_false, wp_update]
  -- A failed flush ends the connection.
  refine wp_flush (fun error rest _ => ?_) (fun rest _ => trivial) (fun rest => .of_dropped)
    (fun rest _ => .of_expired)
  simp only [disconnected, wp_bind, wp_update, wp_fail]
  exact .of_latched .handleDisconnect rfl

/-- A write fails only with the connection, or because of the limit of the broker. -/
theorem performOutboundStep_hindered (alive : world.self.live = true) (step : OutboundStep) :
    wp (performOutboundStep step : Client τ (Error τ) Bool) (fun _ _ => True)
      (fun stop after => Hindered stop after) world := by
  -- A refused write and a write of nothing both end the connection.
  unfold performOutboundStep
  simp only [currentSession, wp_bind, wp_self, wp_pure, wp_ofExcept]
  cases encoded : (writeStep world.self.session step : Except (Error τ) WriteStep) with
  | error error =>
    rw [writeStep_eq_error encoded]
    exact .of_large
  | ok current =>
    simp only [alive, Bool.not_true, Bool.false_eq_true, if_false, wp_bind]
    unfold writeCurrent
    rw [wp_bind]
    refine wp_write _ (fun error rest _ => ?_) (fun rest _ => ?_)
      (fun count rest _ positive _ => ?_) (fun rest => .of_dropped) (fun rest _ => .of_expired)
    · simp only [wp_pure, disconnected, wp_bind, wp_update, wp_fail]
      exact .of_latched .handleDisconnect rfl
    · simp only [wp_pure, disconnected, wp_bind, wp_update, wp_fail]
      exact .of_latched .handleDisconnect rfl
    · obtain ⟨count, rfl⟩ := Nat.exists_eq_succ_of_ne_zero (Nat.pos_iff_ne_zero.mp positive)
      simp only [wp_pure, wp_bind, wp_update, updateOutbound, wp_note, wp_ite]
      split <;> trivial

theorem Connection.Tidy.room_of_quiet {connection : Connection} (tidy : connection.Tidy)
    (quiet : connection.Quiet) : connection.outbound.pendingControl.length < maxPendingControl := by
  rw [FixedVec.length, tidy.controls_of_quiet quiet]
  decide

/-- A PINGREQ that is due finds a free slot. -/
theorem maybeQueuePingreq_hindered (tidy : world.self.Tidy) (quiet : world.self.Quiet) (now : Nat) :
    wp (maybeQueuePingreq now : Client τ (Error τ) Unit) (fun _ _ => True)
      (fun stop after => Hindered stop after) world := by
  -- The connection is quiet, so no control packet is queued in front of it.
  unfold maybeQueuePingreq
  simp only [currentSession, wp_bind, wp_self, wp_pure, wp_ite]
  split
  · cases sized : checkControlPacketSize world.self.session.runtime.maximumPacketSize .pingReq with
    | error error =>
      rw [(checkControlPacketSize_eq_error sized).1]
      exact .of_large
    | ok value =>
      obtain ⟨queued, done⟩ := Outbound.queueControl_of_room (tidy.room_of_quiet quiet) .pingReq
      simp only [done, updateOutbound, wp_update]
  · trivial

/-- One round of outbound progress fails only with the connection, or because of a limit. -/
theorem serviceOutboundOnce_hindered (tidy : world.self.Tidy) (alive : world.self.live = true)
    {now : Nat} (timed : world.time = now) :
    wp (serviceOutboundOnce now : Client τ (Error τ) Bool) (fun _ _ => True)
      (fun stop after => Hindered stop after) world := by
  -- What is tried depends on the queue: a flush, a write, or a PINGREQ that is due.
  unfold serviceOutboundOnce
  simp only [currentOutbound, wp_bind, wp_self, wp_pure, wp_ite]
  split
  · exact wp_mono (flushCurrent_hindered alive) (fun _ _ _ => trivial) (fun _ _ => id)
  · rename_i idle
    cases next : world.self.outbound.nextStep with
    | some step => exact performOutboundStep_hindered alive step
    | none =>
      simp only [wp_ite, wp_bind, wp_self]
      split
      · exact wp_mono (flushCurrent_hindered alive) (fun _ _ _ => trivial) (fun _ _ => id)
      · rename_i dirty
        have clean : world.self.flushState = .clean := by
          cases state : world.self.flushState <;> simp_all
        refine wp_mono (wp_and (maybeQueuePingreq_hindered tidy ⟨next, clean⟩ now)
          (maybeQueuePingreq_spec .refl alive ⟨next, clean⟩ timed)) (fun _ after done => ?_)
          (fun _ _ failed => failed.1)
        simp only [wp_bind, wp_self, wp_pure]
        cases after.self.outbound.nextStep with
        | none => trivial
        | some step => exact performOutboundStep_hindered done.2.2.1 step

/-- One round of progress fails only with the connection, or because of a limit. -/
theorem service_hindered (tidy : world.self.Tidy) (alive : world.self.live = true) {now : Nat}
    (timed : world.time = now) :
    wp (service now : Client τ (Error τ) Bool) (fun _ _ => True)
      (fun stop after => Hindered stop after) world := by
  -- A PINGRESP that is overdue ends the connection before anything else is tried.
  unfold service
  simp only [currentSession, wp_bind, wp_self, wp_pure]
  cases world.self.session.runtime.pingTimeout with
  | none => exact serviceOutboundOnce_hindered tidy alive timed
  | some deadline =>
    simp only [wp_ite]
    split
    · simp only [disconnected, wp_bind, wp_update, wp_fail]
      exact .of_latched .handleDisconnect rfl
    · exact serviceOutboundOnce_hindered tidy alive timed

theorem Flow.tidy (flow : Flow τ before after) (tidy : before.self.Tidy) :
    after.self.Tidy := flow.steps.keep Step.tidy tidy

/-- Flushing everything fails only with the connection, or because of a limit. -/
theorem flushOutbound_hindered (tidy : world.self.Tidy) (alive : world.self.live = true) :
    wp (flushOutbound : Client τ (Error τ) Unit) (fun _ _ => True)
      (fun stop after => Hindered stop after) world := by
  -- Each round keeps the connection tidy and alive, so the next one can rely on both.
  unfold flushOutbound
  simp only [wp_bind, wp_rounds]
  refine wp_iterate (fun _ current => current.self.Tidy ∧ current.self.live = true) ⟨tidy, alive⟩
    (fun _ current holds => ?_) (fun _ _ _ => .of_dropped)
  obtain ⟨tidy, alive⟩ := holds
  simp only [wp_bind, wp_now]
  refine wp_mono (wp_and (serviceOutboundOnce_hindered (by exact tidy) (by exact alive) rfl)
    (serviceOutboundOnce_spec .refl (by exact alive) rfl)) (fun progress after done => ?_)
    (fun _ _ failed => failed.1)
  cases progress with
  | true => exact ⟨done.2.1.tidy (by exact tidy), done.2.2.1⟩
  | false => trivial

theorem service_excused (tidy : world.self.Tidy) (alive : world.self.live = true) {now : Nat}
    (timed : world.time = now) :
    wp (service now : Client τ (Error τ) Bool) (fun _ _ => True)
      (fun stop after => Excused full stop after) world :=
  wp_mono (service_hindered tidy alive timed) (fun _ _ => id) (fun _ _ => Hindered.excused)

theorem flushOutbound_excused (tidy : world.self.Tidy) (alive : world.self.live = true) :
    wp (flushOutbound : Client τ (Error τ) Unit) (fun _ _ => True)
      (fun stop after => Excused full stop after) world :=
  wp_mono (flushOutbound_hindered tidy alive) (fun _ _ => id) (fun _ _ => Hindered.excused)

/-- Reading a packet fails only with the connection, and leaves the packet inside the buffer. -/
theorem readPacket_excused (alive : world.self.live = true)
    (contained : world.self.session.packetReader.Contained) :
    wp (readPacket : Client τ (Error τ) Unit)
      (fun _ after => after.self.session.packetReader.Contained)
      (fun stop after => Excused full stop after ∧
        (stop = .expired → after.self.session.packetReader.Contained)) world := by
  unfold readPacket fillPacketReader
  simp only [wp_bind, wp_self, alive, Bool.not_true, Bool.false_eq_true, if_false, wp_attempt,
    wp_rounds]
  have given_up (error : Error τ) (other : error ≠ .resource .inflightExhausted)
      (current : ClientWorld τ) : wp (do disconnected; Async.fail error : Client τ (Error τ) Unit)
        (fun _ after => after.self.session.packetReader.Contained)
        (fun stop after => Excused full stop after ∧
          (stop = .expired → after.self.session.packetReader.Contained)) current := by
    simp only [disconnected, wp_bind, wp_update, wp_fail]
    exact ⟨.of_latched .handleDisconnect other, by simp⟩
  refine wp_iterate (fun _ current => current.self.session.packetReader.Contained) contained ?_
    (fun _ _ _ => ⟨.of_dropped, by simp⟩)
  intro _ current contained
  simp only [currentSession, onPacketReader, wp_bind, wp_self, wp_pure, wp_ite, wp_zoom]
  split
  · exact contained
  · refine wp_mono (wp_and PacketReader.receiveBuffer_spec PacketReader.receiveBuffer_malformed)
      (fun size probed known => ?_) (fun error probed known => ?_)
    · obtain ⟨⟨-, -, fits⟩, -⟩ := known
      split
      · -- A window is empty only if the packet is complete.
        exact PacketReader.contained_of_window fits
      · refine wp_read _ (fun error rest _ => ?_) (fun chunk rest inbound _ within _ => ?_)
          (fun _ => ⟨.of_dropped, by simp⟩) (fun _ _ => ⟨.of_expired, fun _ => ?_⟩)
        · exact given_up _ (by simp) _
        · dsimp only
          simp only [wp_ite, wp_bind, updateReader, wp_update, wp_pure, wp_fail]
          split
          · exact given_up _ (by simp) _
          · exact PacketReader.contained_of_read fits within
        · exact PacketReader.contained_of_window fits
    · rw [known.2]
      exact given_up _ (by simp [ProtocolError.toError]) _

theorem Error.widen_eq_exhausted {error : Error Empty} :
    (error.widen : Error τ) = .resource .inflightExhausted ↔
      error = .resource .inflightExhausted := by
  cases error with
  | transport never => exact never.elim
  | _ => simp [widen]

/-- A handler error that is deadly ends the connection. -/
theorem Error.isFatal_of_isDeadly {error : Error Empty} (other : error ≠ .writeZero)
    (deadly : (error.widen : Error τ).isDeadly = true) : error.isFatal = true := by
  -- Write errors do not come from the handler, and all other deadly ones are fatal there.
  cases error with
  | transport never => exact never.elim
  | disconnected => rfl
  | writeZero => exact absurd rfl other
  | peer cause => cases cause <;> simp_all [widen, isDeadly, isFatal]
  | resource cause => simp [widen, isDeadly] at deadly
  | notReady => simp [widen, isDeadly] at deadly
  | invalidRequest => simp [widen, isDeadly] at deadly

/-- The last thing that happened is a PUBREC for which no release could be tracked. -/
def ReleasesFull (after : ClientWorld τ) : Prop :=
  ∃ before rec, after.trace.getLast? = some (.noted (.handled before (.pubRec rec) false)) ∧
    before.data.outbound.pendingRelease.length = maxPendingRelease

/-- The first bytes of the receive buffer are a publication. -/
def Delivered (length : Nat) (reader : PacketReader) : Prop :=
  length ≤ reader.buffer.length ∧
    ∃ info, ReceivedPacket.fromBuffer (reader.buffer.take length) = .ok (.publish info)

/-- What the reader of a connection holds when driving it ends with a delivery. -/
def Presents (progress : Progress) (after : ClientWorld τ) : Prop :=
  ∀ length, progress = .inbound length → Delivered length after.self.session.packetReader

/-- Processing a packet fails only with the connection, with a rejection or without a slot. -/
theorem processReceivedPacket_excused (tidy : world.self.Tidy)
    (quiet : world.self.session.packetReader.packetAvailable = true → world.self.Quiet)
    (contained : world.self.session.packetReader.Contained) :
    wp (processReceivedPacket : Client τ (Error τ) (Option Nat))
      (fun delivered after => ∀ length, delivered = some length →
        Delivered length after.self.session.packetReader)
      (fun stop after => Excused ReleasesFull stop after) world := by
  -- The packet is inside the reader, so taking it cannot fail for want of bytes.
  unfold processReceivedPacket
  simp only [currentSession, onPacketReader, wp_bind, wp_self, wp_pure, wp_ite, wp_zoom]
  split
  · simp
  · rename_i available
    simp only [Bool.not_eq_true', Bool.not_eq_false] at available
    have room := tidy.room_of_quiet (quiet available)
    obtain ⟨length, known, inside⟩ := contained available
    refine wp_mono (PacketReader.takePacket_decodes (τ := τ)) (fun taken reader done => ?_)
      (fun error reader failed => ?_)
    · obtain ⟨taken, packet⟩ := taken
      obtain ⟨same, rfl, decoded⟩ := done
      rw [known, Option.some.injEq] at same
      subst same
      simp only [onHandling, wp_bind, wp_zoom]
      refine wp_mono (handlePacket_answers packet _ room) (fun delivered state answers => ?_)
        (fun error state answers => ?_)
      · cases delivered with
        | false =>
          intro other none
          simp at none
        | true =>
          cases answers with
          | queued calm published same =>
            obtain ⟨info, rfl⟩ := published rfl
            intro other equal
            rw [Option.some.injEq] at equal
            subst equal
            exact ⟨inside, info, decoded⟩
      · -- What the handler reports ends the connection if it is fatal, and is excused otherwise.
        simp only [wp_bind, wp_note, wp_ite, wp_fail, disconnected, wp_update]
        cases answers with
        | refused required large same => exact .of_latched .handleDisconnect (by simp [Error.widen])
        | queued calm published same =>
          obtain ⟨other, exhausted⟩ := calm error rfl
          split
          · rename_i fatal
            refine .of_latched .handleDisconnect fun equal => ?_
            rw [Error.widen_eq_exhausted.mp equal] at fatal
            simp [Error.isFatal] at fatal
          · rename_i mild
            refine ⟨fun _ equal deadly => ?_, fun equal => ?_⟩
            · rw [← Stop.error.inj equal] at deadly
              exact absurd (Error.isFatal_of_isDeadly other deadly) mild
            · obtain ⟨rec, rfl, full⟩ :=
                exhausted (Error.widen_eq_exhausted.mp (Stop.error.inj equal))
              exact ⟨_, rec, List.getLast?_concat .., full⟩
    · simp only [disconnected, wp_update, wp_fail, failed]
      exact .of_latched .handleDisconnect (by simp)

theorem Connection.Rest.contained {connection : Connection} (rest : connection.Rest) :
    connection.session.packetReader.Contained := by
  intro available
  rw [show connection.session.packetReader.packetAvailable = false from rest] at available
  simp at available

/-- A round of `drivePacket` fails only with the connection, a rejection or without a slot. -/
theorem driveRound_excused (tidy : origin.self.Tidy)
    (driving : Driving origin world) (contained : world.self.session.packetReader.Contained)
    (advanced : Bool) :
    wp (driveRound advanced : Client τ (Error τ) (Bool ⊕ Progress))
      (fun next after => match next with
        | .inl _ => after.self.Rest
        | .inr progress => Presents progress after)
      (fun stop after => Excused ReleasesFull stop after) world := by
  have tidy := driving.steps.keep Step.tidy tidy
  have process := wp_and (processReceivedPacket_excused tidy driving.quiet contained)
    (processReceivedPacket_spec driving.steps driving.alive driving.quiet)
  unfold driveRound deliver
  simp only [currentSession, wp_bind, wp_self, wp_pure, wp_ite]
  split
  · -- On a quiet connection no control packet is queued.
    rename_i full
    simp only [Bool.and_eq_true, beq_iff_eq] at full
    have room := tidy.room_of_quiet (driving.quiet full.1)
    exact absurd full.2 (Nat.ne_of_lt room)
  · split
    · refine wp_mono process (fun delivered after done => ?_) (fun _ _ failed => failed.1)
      cases delivered with
      | none => exact done.2.1.rest
      | some length =>
        intro other same
        cases same
        exact done.1 length rfl
    · rename_i incomplete
      have rest : world.self.Rest := by simpa [Connection.Rest] using incomplete
      simp only [wp_bind, wp_now]
      refine wp_mono (wp_and (service_excused (by exact tidy) (by exact driving.alive) rfl)
        (service_spec .refl (by exact driving.alive) rfl)) (fun progress after done => ?_)
        (fun _ _ failed => failed.1)
      have incomplete : after.self.session.packetReader.packetAvailable = false :=
        done.2.1.rest (by exact rest)
      simp only [wp_bind, wp_self, incomplete, Bool.false_eq_true, if_false, wp_ite, wp_pure]
      split
      · intro length same
        split at same <;> simp at same
      · exact incomplete

/-- Driving a live connection fails only with it, with a rejection or without a slot. -/
theorem drivePacket_excused (tidy : origin.self.Tidy)
    (driving : Driving origin world) (contained : world.self.session.packetReader.Contained) :
    wp (drivePacket : Client τ (Error τ) Progress) (fun progress after => Presents progress after)
      (fun stop after => Excused ReleasesFull stop after) world := by
  -- A round that goes on leaves the connection as the next one needs it.
  unfold drivePacket
  simp only [wp_bind, wp_self, driving.alive, Bool.not_true, Bool.false_eq_true, if_false,
    wp_rounds]
  refine wp_iterate (fun _ current => Driving origin current ∧
      current.self.session.packetReader.Contained) ⟨driving, contained⟩
    (fun advanced current holds => ?_) (fun _ _ _ => .of_dropped)
  obtain ⟨driving, contained⟩ := holds
  refine wp_mono (wp_and (driveRound_excused tidy driving contained advanced)
    (driveRound_spec tidy driving advanced)) (fun next after done => ?_) (fun _ _ failed => failed.1)
  cases next with
  | inl next => exact ⟨done.2.1, done.1.contained⟩
  | inr progress => exact done.1

theorem decodeInboundPublish_excused {length : Nat}
    (delivered : Delivered length world.self.session.packetReader) :
    wp (decodeInboundPublish length : Client τ (Error τ) InboundPublish) (fun _ _ => True)
      (fun stop after => Excused full stop after) world := by
  obtain ⟨inside, info, decoded⟩ := delivered
  unfold decodeInboundPublish
  simp only [currentSession, wp_bind, wp_self, wp_pure, if_neg (Nat.not_lt.mpr inside), decoded]

theorem awaitInput_excused (alive : world.self.live = true)
    (contained : world.self.session.packetReader.Contained) :
    wp (awaitInput : Client τ (Error τ) Unit)
      (fun _ after => after.self.session.packetReader.Contained)
      (fun stop after => Excused full stop after) world := by
  -- An expired timer is no error, so only the reader can fail.
  have read := @readPacket_excused _ _ full alive contained
  unfold awaitInput
  simp only [currentSession, wp_bind, wp_self, wp_pure]
  cases world.self.session.runtime.nextDeadline with
  | none => exact wp_mono read (fun _ _ => id) (fun _ _ failed => failed.1)
  | some deadline =>
    rw [wp_bind]
    refine wp_withDeadline (wp_mono read (fun _ _ => id) (fun stop after failed => ?_))
    cases stop with
    | error error => exact failed.1
    | dropped => exact failed.1
    | expired => exact ⟨fun _ => failed.2 rfl, .of_dropped⟩

/-- Waiting for progress on a live connection fails only with it, a rejection or without a slot. -/
theorem waitForProgress_excused (tidy : origin.self.Tidy)
    (reached : Reached origin world) (alive : world.self.live = true) :
    wp (waitForProgress : Client τ (Error τ) (Option Nat))
      (fun delivered after => ∀ length, delivered = some length →
        Delivered length after.self.session.packetReader)
      (fun stop after => Excused ReleasesFull stop after) world := by
  -- Driving comes first, and only an idle connection waits for input.
  unfold waitForProgress
  simp only [wp_bind, wp_rounds]
  refine wp_iterate (fun _ current => Driving origin current ∧
      current.self.session.packetReader.Contained) ⟨reached.driving alive, reached.rest.contained⟩
    (fun _ current holds => ?_) (fun _ _ _ => .of_dropped)
  obtain ⟨driving, contained⟩ := holds
  rw [wp_bind]
  refine wp_mono (wp_and (drivePacket_excused tidy driving contained)
    (drivePacket_of_driving tidy driving)) (fun progress after done => ?_)
    (fun _ _ failed => failed.1)
  obtain ⟨delivers, driven, -, -⟩ := done
  cases progress with
  | inbound length =>
    intro other same
    cases same
    exact delivers length rfl
  | advanced =>
    intro other none
    simp at none
  | idle =>
    rw [wp_bind]
    refine wp_mono (wp_and (awaitInput_excused driven.alive driven.reached.rest.contained)
      (awaitInput_spec driven.reached driven.alive (driven.idle rfl).quiet))
      (fun _ last done => ⟨done.2.1, done.1⟩) (fun _ _ failed => failed.1)

section Operations

/-- A call of `drive` on a live connection fails only with it, a rejection or without a slot. -/
theorem drive_excused (tidy : origin.self.Tidy) (reached : Reached origin world)
    (alive : world.self.live = true) :
    wp (drive : Client τ (Error τ) (Option InboundPublish)) (fun _ _ => True)
      (fun stop after => Excused ReleasesFull stop after) world := by
  -- What was delivered decodes again, so the last step cannot fail.
  unfold drive
  rw [wp_bind]
  refine wp_mono (drivePacket_excused tidy (reached.driving alive) reached.rest.contained)
    (fun progress after delivers => ?_) (fun _ _ => id)
  cases progress with
  | inbound length =>
    rw [wp_bind]
    exact wp_mono (decodeInboundPublish_excused (delivers length rfl)) (fun _ _ => id) (fun _ _ => id)
  | idle => trivial
  | advanced => trivial

/-- A call of `poll` on a live connection fails only with it, a rejection or without a slot. -/
theorem poll_excused (tidy : origin.self.Tidy) (reached : Reached origin world)
    (alive : world.self.live = true) :
    wp (poll : Client τ (Error τ) (Option InboundPublish)) (fun _ _ => True)
      (fun stop after => Excused ReleasesFull stop after) world := by
  -- What was delivered decodes again, so the last step cannot fail.
  unfold poll
  rw [wp_bind]
  refine wp_mono (waitForProgress_excused tidy reached alive) (fun delivered after done => ?_)
    (fun _ _ => id)
  cases delivered with
  | none => trivial
  | some length =>
    rw [wp_bind]
    exact wp_mono (decodeInboundPublish_excused (done length rfl)) (fun _ _ => id) (fun _ _ => id)

/-- A call of `recv` on a live connection fails only with it, a rejection or without a slot. -/
theorem recv_excused (tidy : origin.self.Tidy) (reached : Reached origin world)
    (alive : world.self.live = true) :
    wp (recv : Client τ (Error τ) InboundPublish) (fun _ _ => True)
      (fun stop after => Excused ReleasesFull stop after) world := by
  -- The loop goes on until there is a publication, on a connection that stays live.
  unfold recv
  simp only [wp_bind, wp_rounds]
  refine wp_iterate (fun _ current => Reached origin current ∧ current.self.live = true)
    ⟨reached, alive⟩ (fun _ current holds => ?_) (fun _ _ _ => .of_dropped)
  obtain ⟨reached, alive⟩ := holds
  rw [wp_bind]
  refine wp_mono (wp_and (waitForProgress_excused tidy reached alive)
    (waitForProgress_spec tidy reached)) (fun delivered after done => ?_) (fun _ _ failed => failed.1)
  cases delivered with
  | none => exact done.2
  | some length =>
    rw [wp_bind]
    exact wp_mono (decodeInboundPublish_excused (done.1 length rfl)) (fun _ _ => id) (fun _ _ => id)

/-- No slot is left for a packet to retain. -/
def RetainedFull (after : ClientWorld τ) : Prop :=
  after.self.outbound.retained.length = maxRetained

theorem Excused.of_full (kept : RetainedFull world)
    (same : error = .resource .inflightExhausted) : Excused RetainedFull (.error error) world := by
  subst same
  exact ⟨fun _ equal deadly => by cases equal; simp [Error.isDeadly] at deadly, fun _ => kept⟩

theorem requireRetainedSlot_eq_error (failed : requireRetainedSlot outbound = .error error) :
    outbound.retained.length = maxRetained ∧ error = .resource .inflightExhausted := by
  unfold requireRetainedSlot at failed
  split at failed
  · rename_i full
    exact ⟨by simpa [FixedVec.isFull, FixedVec.length] using full, (Except.error.inj failed).symm⟩
  · simp at failed

/-- A packet is not retained only if every slot is taken. -/
theorem Outbound.retainPacket_eq_error {len : Nat} {error : ProtocolError}
    (failed : outbound.retainPacket kind packetId len = .error error) :
    outbound.retained.length = maxRetained ∧ error = .inflightMetadataExhausted := by
  unfold retainPacket at failed
  split at failed
  · simp at failed
  · rename_i refused
    exact ⟨FixedVec.push_eq_none.mp refused, (Except.error.inj failed).symm⟩

theorem RuntimeState.requirePacketSize_eq_error {runtime : RuntimeState} {len : Nat}
    (failed : runtime.requirePacketSize len = .error error) :
    error = .resource .packetTooLarge := by
  unfold requirePacketSize at failed
  split at failed
  · exact (Except.error.inj failed).symm
  · simp at failed

theorem Outbound.encodePacket_error [ControlPacket α] (packet : α) (outbound : Outbound) :
    wp (encodePacket packet) (fun _ _ => True) (fun error _ => ∃ cause, error = .encode cause)
      outbound := by
  unfold encodePacket
  simp only [wp_bind, wp_get, wp_set]
  split
  · exact ⟨_, rfl⟩
  · split
    · exact ⟨_, rfl⟩
    · trivial

theorem takePacketId_excused :
    wp (takePacketId : Client τ ε UInt16) (fun _ _ => True) (fun stop _ => stop = .dropped) world := by
  unfold takePacketId
  simp only [currentSession, wp_bind, wp_self, wp_pure]
  cases world.self.session.data.nextPacketId with
  | none => rfl
  | some next => trivial

/-- A request is refused only for its encoding, for its size or without a slot. -/
theorem admitRequest_excused [ControlPacket α] {packet : α} :
    wp (admitRequest kind packetId packet : Client τ (Error τ) Unit) (fun _ _ => True)
      (fun stop after => Excused RetainedFull stop after) world := by
  -- Encoding, size and slot are checked in this order, and nothing else can fail.
  unfold admitRequest
  simp only [currentSession, currentOutbound, onOutbound, wp_bind, wp_self, wp_pure, wp_zoom]
  refine wp_mono (Outbound.encodePacket_error packet world.self.outbound)
    (fun len after _ => ?_) (fun error after failed => ?_)
  · simp only [wp_bind, wp_self, wp_pure, wp_ofExcept]
    split
    · split
      · rename_i error refused
        obtain ⟨full, rfl⟩ := Outbound.retainPacket_eq_error refused
        exact .of_full full rfl
      · simp only [updateOutbound, wp_bind, wp_update]
        unfold noteAdmission
        split <;> trivial
    · rename_i error refused
      rw [RuntimeState.requirePacketSize_eq_error refused]
      exact .of_mild rfl (by simp)
  · obtain ⟨cause, rfl⟩ := failed
    exact .of_mild cause.toError_mild.1 cause.toError_mild.2

/-- Sending a request fails only with the connection, for its size or without a slot. -/
theorem sendRequest_excused [ControlPacket α] {packet : UInt16 → α}
    (tidy : origin.self.Tidy) (reached : Reached origin world) (alive : world.self.live = true)
    (request : kind.isPublish = false)
    (legal : ∀ {packetId buf offset bytes},
      (encodeWithOffset buf (packet packetId)).1 = .ok (offset, bytes) →
        OpPacket kind packetId bytes) :
    wp (sendRequest kind packet : Client τ (Error τ) Op) (fun _ _ => True)
      (fun stop after => Excused RetainedFull stop after) world := by
  -- The request waits for all that is queued, takes an identifier and a slot, and is flushed.
  unfold sendRequest
  rw [wp_bind]
  refine wp_mono (wp_and (flushOutbound_excused (reached.steps.keep Step.tidy tidy) alive)
    (flushOutbound_spec .refl alive)) (fun _ after flushed => ?_) (fun _ _ failed => failed.1)
  obtain ⟨-, flow, alive, -⟩ := flushed
  have reached := reached.flow flow
  simp only [currentOutbound, wp_bind, wp_self, wp_pure, wp_ofExcept]
  split
  · refine wp_mono (wp_and takePacketId_excused (takePacketId_spec reached alive))
      (fun packetId after taken => ?_) (fun _ _ failed => failed.1 ▸ .of_dropped)
    obtain ⟨-, reached, alive, nonzero, unused⟩ := taken
    rw [wp_bind]
    refine wp_mono (wp_and admitRequest_excused
      (admitRequest_spec reached alive nonzero unused request legal)) (fun _ after admitted => ?_)
      (fun _ _ failed => failed.1)
    obtain ⟨-, reached, alive⟩ := admitted
    rw [wp_bind]
    exact wp_mono (flushOutbound_excused (reached.steps.keep Step.tidy tidy) alive)
      (fun _ _ _ => trivial) (fun _ _ => id)
  · rename_i error refused
    obtain ⟨full, rfl⟩ := requireRetainedSlot_eq_error refused
    exact .of_full full rfl

/-- A call of `subscribe` on a live connection fails only with it, for its size or without a slot. -/
theorem subscribe_excused (tidy : origin.self.Tidy) (reached : Reached origin world)
    (alive : world.self.live = true) (topics : List TopicFilter) (properties : List Property) :
    wp (subscribe topics properties : Client τ (Error τ) Op) (fun _ _ => True)
      (fun stop after => Excused RetainedFull stop after) world := by
  unfold subscribe
  simp only [wp_bind, wp_self, wp_ite, wp_fail, alive, Bool.not_true, Bool.false_eq_true, if_false]
  split
  · exact .of_mild rfl (by simp)
  · split
    · exact .of_mild rfl (by simp)
    · exact sendRequest_excused tidy reached alive rfl fun encoded => .subscribe encoded

/-- A call of `unsubscribe` on a live connection fails only with it, for its size or without a slot. -/
theorem unsubscribe_excused (tidy : origin.self.Tidy) (reached : Reached origin world)
    (alive : world.self.live = true) (topics : List Utf8) (properties : List Property) :
    wp (unsubscribe topics properties : Client τ (Error τ) Op) (fun _ _ => True)
      (fun stop after => Excused RetainedFull stop after) world := by
  unfold unsubscribe
  simp only [wp_bind, wp_self, wp_ite, wp_fail, alive, Bool.not_true, Bool.false_eq_true, if_false]
  split
  · exact .of_mild rfl (by simp)
  · split
    · exact .of_mild rfl (by simp)
    · exact sendRequest_excused tidy reached alive rfl fun encoded => .unsubscribe encoded

/-- What the session error of a publication says about the connection it leaves behind. -/
def ExcusedPublish (full : ClientWorld τ → Prop) (stop : Stop (PubError π τ))
    (after : ClientWorld τ) : Prop :=
  ∀ error, stop = .error (.session error) → Excused full (.error error) after

theorem Excused.publish (excused : Excused full (.error error) world) :
    ExcusedPublish full (.error (.session error) : Stop (PubError π τ)) world := by
  intro other same
  cases same
  exact excused

/-- Flushing under the error type of publications is excused like flushing. -/
theorem flushOutbound_mapped_excused {Q : Unit → ClientWorld τ → Prop}
    {E : Stop (PubError π τ) → ClientWorld τ → Prop} (tidy : world.self.Tidy)
    (alive : world.self.live = true)
    (after : ∀ after : ClientWorld τ, Flow τ world.moment after.moment → after.self.live = true →
      Q () after)
    (stopped : ∀ stop (after : ClientWorld τ), ExcusedPublish full stop after → E stop after) :
    wp (mapError .session flushOutbound) Q E world := by
  -- The two error types differ in a wrapper only.
  rw [wp_mapError]
  have flushed := @flushOutbound_excused _ _ full tidy alive
  refine wp_mono (wp_and flushed (flushOutbound_spec .refl alive)) (fun _ current done => ?_)
    (fun stop current failed => ?_)
  · exact after current done.2.1 done.2.2.1
  · cases stop with
    | error error => exact stopped _ current failed.1.publish
    | dropped => exact stopped _ current (by simp [ExcusedPublish])
    | expired => exact stopped _ current (by simp [ExcusedPublish])

theorem Outbound.length_armReplay (outbound : Outbound) :
    outbound.armReplay.retained.length = outbound.retained.length := by
  unfold armReplay
  split
  · simp [FixedVec.length, markPublishDup]
  · rfl

/-- Writing, flushing and keepalive retain what is retained. -/
theorem Outflow.retained_length (step : Outflow τ before after) :
    after.self.outbound.retained.length = before.self.outbound.retained.length := by
  -- Only an admission and an acknowledgement change the number of retained packets.
  cases step with
  | tick later => rfl
  | @wrote step current count now alive idle next encoded positive within later =>
    dsimp only
    rw [Connection.afterWrite_outbound]
    cases current.packet with
    | control index => rfl
    | release packetId => rfl
    | retained packetId =>
      simp [Outbound.setWritten, Outbound.setRetainedWritten, FixedVec.length, FixedVec.modifyFirst]
  | flushing alive ready => rfl
  | flushed alive flushing later => exact List.length_map _
  | disconnected => exact Outbound.length_armReplay _
  | pinged alive quiet due queued =>
    obtain ⟨controls, rfl, -⟩ := Outbound.controls_of_queueControl queued
    rfl

theorem Flow.retained_length (flow : Flow τ before after) :
    after.self.outbound.retained.length = before.self.outbound.retained.length := by
  induction flow with
  | refl => rfl
  | tail _ step ih => exact step.retained_length.trans ih

/-- An encoded packet is refused only if it does not fit. -/
theorem Outbound.packEncoded_eq_error {offset len : Nat}
    {error : ResourceError} (failed : outbound.packEncoded offset len = .error error) :
    error = .bufferTooSmall := by
  unfold packEncoded at failed
  dsimp only at failed
  split at failed
  · exact (Except.error.inj failed).symm
  · simp at failed

/-- A mild error of the session while a publication is prepared. -/
def PubError.Mild (error : PubError π τ) : Prop :=
  ∀ cause, error = .session cause →
    cause.isDeadly = false ∧ cause ≠ .resource .inflightExhausted

theorem PubError.Mild.excused {error : PubError π τ} (mild : error.Mild) :
    ExcusedPublish full (.error error) world := by
  intro cause same
  have known := mild cause (Stop.error.inj same)
  exact .of_mild known.1 known.2

theorem Outbound.packEncoded_eq_ok {outbound packed : Outbound} {offset len : Nat}
    (done : outbound.packEncoded offset len = .ok packed) : ∃ buf, packed = { outbound with buf } := by
  unfold packEncoded at done
  dsimp only at done
  split at done
  · simp at done
  · exact ⟨_, (Except.ok.inj done).symm⟩

/-- Encoding a publication fails only in the serializer, in the payload or for its size. -/
theorem encodeRetained_excused {E : Stop ε → ClientWorld τ → Prop} (header : PublishHeader)
    (payload : Payload π) :
    wp (encodeRetained header payload : Client τ ε (Except (PubError π τ) Nat))
      (fun result after => (∀ error, result = .error error → error.Mild) ∧ ∃ buf, after =
        { world with self := world.self.mapOutbound fun outbound => { outbound with buf } })
      E world := by
  -- An error of the payload is the application's own and is excused as such.
  have session {cause : Error τ} (mild : cause.isDeadly = false)
      (other : cause ≠ .resource .inflightExhausted) : (PubError.session cause : PubError π τ).Mild := by
    intro same equal
    cases equal
    exact ⟨mild, other⟩
  unfold encodeRetained Outbound.encodePublish
  simp only [currentSession, onOutbound, wp_bind, wp_zoom, wp_get, wp_set]
  split
  · rename_i cause _
    refine ⟨?_, _, rfl⟩
    rintro error ⟨rfl⟩
    exact session cause.toError_mild.1 cause.toError_mild.2
  · refine ⟨?_, _, rfl⟩
    rintro error ⟨rfl⟩ cause same
    cases same
  · split
    · rename_i refused
      refine ⟨?_, _, rfl⟩
      rintro error ⟨rfl⟩
      rw [Outbound.packEncoded_eq_error refused]
      exact session rfl (by simp)
    · rename_i packed done
      obtain ⟨buf, rfl⟩ := Outbound.packEncoded_eq_ok done
      simp only [wp_bind, wp_set, wp_pure, wp_self]
      split
      · rename_i refused
        refine ⟨?_, _, rfl⟩
        rintro error ⟨rfl⟩
        rw [RuntimeState.requirePacketSize_eq_error refused]
        exact session rfl (by simp)
      · exact ⟨by simp, _, rfl⟩

/-- Retaining one more packet keeps a live connection tidy. -/
theorem Connection.Tidy.retain {connection : Connection} {session : Session} {entry : RetainedPacket}
    {retained : FixedVec RetainedPacket maxRetained} {buf : Bytes} (tidy : connection.Tidy)
    (alive : connection.live = true) (fresh : entry.state = .write 0)
    (slot : connection.outbound.retained.push entry = some retained)
    (same : session.data.outbound = { connection.outbound with buf, retained }) :
    Tidy { connection with session } := by
  have kept {control tracked : SendState → Prop} (fresh : tracked entry.state)
      (all : connection.outbound.Holds control tracked) :
      session.data.outbound.Holds control tracked := same ▸ all.retain fresh slot
  exact ⟨fun closed => absurd (alive.symm.trans closed) (by simp), kept trivial tidy.unsent,
    fun clean => kept (by simp [fresh]) (tidy.drained clean)⟩

theorem wp_noteAdmission {ε' : Type} {Q : Unit → ClientWorld τ → Prop}
    {E : Stop ε → ClientWorld τ → Prop} {before : Session}
    {result : Except ε' (Nat × Bytes)} (noted : ∀ trace, Q () { world with trace }) :
    wp (noteAdmission before kind packetId result) Q E world := by
  cases result with
  | error error => exact noted world.trace
  | ok encoded => exact noted _

/-- A retained publication is refused only with the connection, for its size or without a slot. -/
theorem publishRetained_excused (tidy : world.self.Tidy) (alive : world.self.live = true) :
    wp (publishRetained header payload packetId : Client τ (PubError π τ) (Option Op))
      (fun _ _ => True) (fun stop after => ExcusedPublish RetainedFull stop after) world := by
  -- The checks are made in this order: slot, quota, encoding, size.
  unfold publishRetained
  simp only [currentOutbound, currentSession, wp_bind, wp_self, wp_pure]
  split
  · rename_i error refused
    obtain ⟨full, rfl⟩ := requireRetainedSlot_eq_error refused
    rw [wp_bind]
    refine flushOutbound_mapped_excused tidy alive (fun after flow _ => ?_) (fun _ _ => id)
    exact Excused.publish (.of_full (flow.retained_length.trans full) rfl)
  · simp only [wp_ite, wp_bind, wp_self]
    split
    · exact flushOutbound_mapped_excused tidy alive
        (fun _ _ _ => (Excused.of_mild rfl (by simp)).publish) (fun _ _ => id)
    · simp only [wp_bind, wp_pure]
      refine wp_mono (encodeRetained_excused (E := fun _ _ => False) header payload)
        (fun result after done => ?_) (fun _ _ => False.elim)
      obtain ⟨mild, buf, rfl⟩ := done
      have tidy : (world.self.mapOutbound fun outbound => { outbound with buf }).Tidy :=
        tidy.of_same rfl rfl rfl
      cases result with
      | error error =>
        simp only [wp_bind]
        exact flushOutbound_mapped_excused tidy alive (fun _ _ _ => (mild error rfl).excused)
          (fun _ _ => id)
      | ok len =>
        simp only [retainPublication, currentOutbound, wp_bind, wp_self, wp_pure]
        split
        · rename_i error refused
          obtain ⟨full, rfl⟩ := Outbound.retainPacket_eq_error refused
          exact Excused.publish (.of_full full rfl)
        · rename_i kept retains
          obtain ⟨retained, rfl, slot⟩ := Outbound.retained_of_retainPacket retains
          simp only [updateOutbound, updateRuntime, wp_bind, wp_update]
          refine wp_noteAdmission fun trace => ?_
          rw [wp_bind]
          exact flushOutbound_mapped_excused (tidy.retain alive rfl slot rfl) alive
            (fun _ _ _ => trivial) (fun _ _ => id)

/-- Encoding into the scratch space fails only in the serializer or in the payload. -/
theorem encodeScratch_excused :
    wp (encodeScratch header payload : Client τ (PubError π τ) Bytes)
      (fun _ after => ∃ buf, after =
        { world with self := world.self.mapOutbound fun outbound => { outbound with buf } })
      (fun stop after => ExcusedPublish full stop after) world := by
  -- Three ways to end: an error of the serializer, one of the payload, or the bytes.
  unfold encodeScratch
  simp only [currentOutbound, updateOutbound, wp_bind, wp_self, wp_pure, wp_update]
  split
  · rename_i cause _
    exact Excused.publish (.of_mild cause.toError_mild.1 cause.toError_mild.2)
  · intro cause same
    cases same
  · exact ⟨_, rfl⟩

theorem writeAll_excused (bytes : Bytes) :
    wp (writeAll bytes : Client τ (Error τ) Unit) (fun _ _ => True)
      (fun stop _ => ∀ error, stop = .error error → error.isDeadly = true) world := by
  -- An error here comes from the transport or is a write of nothing.
  unfold writeAll
  simp only [wp_bind, wp_rounds]
  refine wp_iterate (fun _ _ => True) trivial (fun remaining current _ => ?_) (by simp)
  simp only [wp_ite, wp_pure, wp_bind]
  split
  · trivial
  · refine wp_write _ (fun error rest _ => ?_) (fun rest _ => ?_)
      (fun count rest _ positive _ => ?_) (by simp) (by simp)
    · rintro cause ⟨rfl⟩
      rfl
    · rintro cause ⟨rfl⟩
      rfl
    rw [wp_ite, if_neg (by omega)]
    trivial

/-- A publication that is not retained fails only with the connection or for its size. -/
theorem publishDirect_excused (tidy : world.self.Tidy) (alive : world.self.live = true) :
    wp (publishDirect header payload : Client τ (PubError π τ) (Option Op))
      (fun _ _ => True) (fun stop after => ExcusedPublish full stop after) world := by
  -- What is queued is flushed first, and the packet is written past the queue.
  unfold publishDirect
  simp only [wp_bind, wp_self, wp_ite]
  split
  · exact flushOutbound_mapped_excused tidy alive
      (fun _ _ _ => (Excused.of_mild rfl (by simp)).publish) (fun _ _ => id)
  · refine flushOutbound_mapped_excused tidy alive (fun after flow alive => ?_) (fun _ _ => id)
    rw [wp_bind]
    refine wp_mono encodeScratch_excused (fun packet after scratched => ?_) (fun _ _ => id)
    obtain ⟨buf, rfl⟩ := scratched
    simp only [currentSession, wp_bind, wp_self, wp_pure, wp_mapError, wp_ofExcept]
    split
    · have alive : (after.self.mapOutbound fun outbound => { outbound with buf }).live = true := alive
      simp only [alive, Bool.not_true, Bool.false_eq_true, if_false, wp_bind, wp_note, wp_attempt]
      refine wp_mono (writeAll_excused packet) (fun _ after _ => ?_) (fun stop after unmet => ?_)
      · rw [wp_bind]
        refine wp_flush (fun error rest _ => ?_) (fun rest _ => ?_) (fun rest => ?_) (fun rest _ => ?_)
        · simp only [disconnected, wp_bind, wp_update, wp_fail]
          exact Excused.publish (.of_latched .handleDisconnect (by simp))
        · trivial
        · simp [ExcusedPublish]
        · simp [ExcusedPublish]
      · cases stop with
        | error error =>
          simp only [disconnected, wp_update, wp_fail]
          exact Excused.publish (.of_latched .handleDisconnect
            (Error.ne_exhausted_of_isDeadly (unmet error rfl)))
        | dropped => simp [ExcusedPublish]
        | expired => simp [ExcusedPublish]
    · rename_i error refused
      rw [RuntimeState.requirePacketSize_eq_error refused]
      exact Excused.publish (.of_mild rfl (by simp))

/-- A call of `publish` on a live connection fails only with it, for its size or without a slot. -/
theorem publish_excused (tidy : origin.self.Tidy) (reached : Reached origin world)
    (alive : world.self.live = true) (publication : Publication π) :
    wp (publish publication : Client τ (PubError π τ) (Option Op)) (fun _ _ => True)
      (fun stop after => ExcusedPublish RetainedFull stop after) world := by
  -- Both levels that are retained take an identifier first.
  have retained (header : UInt16 → PublishHeader) :
      wp (do
        let packetId ← takePacketId
        publishRetained (header packetId) publication.payload packetId :
          Client τ (PubError π τ) (Option Op)) (fun _ _ => True)
        (fun stop after => ExcusedPublish RetainedFull stop after) world := by
    rw [wp_bind]
    refine wp_mono (wp_and takePacketId_excused (takePacketId_spec reached alive))
      (fun packetId after taken => ?_) (fun stop after failed => ?_)
    · exact publishRetained_excused (taken.2.1.steps.keep Step.tidy tidy) taken.2.2.1
    · rw [failed.1]
      simp [ExcusedPublish]
  unfold publish
  simp only [currentSession, wp_bind, wp_self, wp_ite, wp_fail, wp_pure, alive, Bool.not_true,
    Bool.false_eq_true, if_false]
  split
  · exact Excused.publish (.of_mild rfl (by simp))
  · cases effectiveQos world.self.session publication.qos with
    | none => exact Excused.publish (.of_mild rfl (by simp))
    | some qos =>
      cases qos with
      | atMostOnce => exact publishDirect_excused (reached.steps.keep Step.tidy tidy) alive
      | atLeastOnce => exact retained _
      | exactlyOnce => exact retained _

/-- The last packet of a connection fails only with it or for its size. -/
theorem sendDisconnect_excused {packet : Bytes} (tidy : world.self.Tidy)
    (alive : world.self.live = true) :
    wp (sendDisconnect packet : Client τ (Error τ) Unit) (fun _ _ => True)
      (fun stop after => Excused full stop after) world := by
  -- The size is checked before anything is flushed, and the connection ends in any case.
  unfold sendDisconnect writeTerminal
  simp only [currentSession, wp_bind, wp_self, wp_pure, wp_ofExcept]
  split
  · refine wp_mono (flushOutbound_excused tidy alive) (fun _ after _ => ?_) (fun _ _ => id)
    simp only [disconnected, wp_bind, wp_note, wp_attempt, wp_update, wp_ofExcept]
    refine wp_mono (writeAll_excused packet) (fun _ after _ => ?_) (fun stop after unmet => ?_)
    · rw [wp_bind]
      refine wp_flush (fun error rest _ => ?_) (fun rest _ => trivial) (fun rest => .of_dropped)
        (fun rest _ => .of_expired)
      exact .of_latched .handleDisconnect (by simp)
    · cases stop with
      | error error => exact .of_latched .handleDisconnect (Error.ne_exhausted_of_isDeadly (unmet error rfl))
      | dropped => exact .of_dropped
      | expired => exact .of_expired
  · rename_i error refused
    rw [RuntimeState.requirePacketSize_eq_error refused]
    exact .of_mild rfl (by simp)

/-- A call of `disconnectWith` on a live connection fails only with it or for its size. -/
theorem disconnectWith_excused (tidy : world.self.Tidy) (alive : world.self.live = true)
    (disconnect : Disconnect) :
    wp (disconnectWith disconnect : Client τ (Error τ) Unit) (fun _ _ => True)
      (fun stop after => Excused full stop after) world := by
  unfold disconnectWith
  simp only [wp_bind, wp_self, wp_ite, wp_fail, alive, Bool.not_true, Bool.false_eq_true, if_false]
  split
  · exact .of_mild rfl (by simp)
  · cases encode smallBuf disconnect with
    | error cause => exact .of_mild cause.toError_mild.1 cause.toError_mild.2
    | ok packet => exact sendDisconnect_excused tidy alive

end Operations

end Minimq

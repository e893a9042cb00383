import Minimq.Proofs.Client.Workload

/-! A transport that settles every call lets a connection finish its work. -/

namespace Minimq

open Hoare Async

variable {τ : Type} {config : ConfigBuilder} {clock : Clock} {world : ClientWorld τ} {now : Nat}
variable {after : ClientWorld τ} {stop : Stop (Error τ)} {step : OutboundStep}

/-- Every packet has bytes. -/
theorem EncodedPacket.pos {packet : Bytes} (legal : EncodedPacket packet) : 0 < packet.length := by
  -- A frame has a first byte and a length.
  have framed {packet : Bytes} (framed : ∃ header body, frame header body = some packet) :
      0 < packet.length := by
    obtain ⟨header, body, framed⟩ := framed
    have := frame_length framed
    omega
  cases legal with
  | @control action packet encoded =>
    rw [encodeControlPacket_eq] at encoded
    cases encoded
    cases action <;> simp [ControlAction.wire, ackWire]
  | release encoded =>
    rw [encodePubrel_eq] at encoded
    cases encoded
    simp [releaseWire, ackWire]
  | operation admitted => exact framed admitted.framed
  | replayed admitted publish =>
    rw [length_duplicate]
    exact framed admitted.framed
  | direct level encoded => exact framed ⟨_, framed_of_encodePublish encoded⟩
  | @disconnect last packet encoded =>
    unfold encode at encoded
    cases done : (encodeWithOffset smallBuf last).1 with
    | error error =>
      rw [done] at encoded
      cases encoded
    | ok placed =>
      rw [done] at encoded
      cases encoded
      exact framed ⟨_, framed_of_encode done⟩

section Moves

variable {moment : ClientMoment}

/-- Some bytes of the next packet of a live connection are left. -/
theorem Moves.unfinished (moves : Moves τ (start config clock : ClientWorld τ).moment moment)
    (alive : moment.self.live = true) (next : moment.self.outbound.nextStep = some step) :
    step.written < (moment.self.outbound.load step).bytes.length := by
  obtain ⟨underway, follows, short⟩ := moves.follows alive
  have resumes := follows.resumes next
  cases underway with
  | some current =>
    have less := short _ rfl
    rwa [← (show _ = current from resumes), Outbound.load_written] at less
  | none =>
    -- A packet that is started has bytes.
    have zero : step.written = 0 := Outbound.load_written.symm.trans resumes
    obtain ⟨files, archived⟩ := moves.sending.1.archived
    rw [zero]
    exact (archived.stored.encoded (Outbound.at_of_nextStep next).1).pos

end Moves

/-- What has to be written next exceeds the limit of the broker. -/
inductive Connection.Barred (connection : Connection) (now : Nat) : Prop where
  /-- The next packet is too large. -/
  | packet {step : OutboundStep} (idle : connection.flushState ≠ .flushing)
      (next : connection.outbound.nextStep = some step)
      (large : exceeds connection.runtime.maximumPacketSize step.len = true)
  /-- A PINGREQ is due, and it is too large. -/
  | ping (quiet : connection.Quiet) (due : shouldQueuePingreq connection.session now = true)
      (large : exceeds connection.runtime.maximumPacketSize 2 = true)

/-- The transport settles every call, and there are more replies than there is work. -/
structure Provisioned (spare : Nat) (world : ClientWorld τ) : Prop where
  /-- Every call is settled. -/
  settles : ∀ reply ∈ world.replies, reply.Settles
  /-- There are enough replies. -/
  enough : world.self.workload + spare ≤ world.replies.length

/-- A transport that accepts at least one byte of every write and completes every flush. -/
def Willing (replies : List (Reply τ)) : Prop :=
  ∀ reply ∈ replies, ∃ count, 0 < count ∧ reply = .ready count

theorem Willing.settles {replies : List (Reply τ)} (willing : Willing replies) :
    ∀ reply ∈ replies, reply.Settles := by
  intro reply found
  obtain ⟨count, positive, rfl⟩ := willing reply found
  exact positive

theorem Willing.never_fails {replies : List (Reply τ)} (willing : Willing replies) (error : τ) :
    .fail error ∉ replies := by
  intro found
  obtain ⟨count, -, no⟩ := willing _ found
  cases no

/-- One call of the transport reduced the work. -/
structure Lighter (before after : ClientWorld τ) : Prop where
  /-- It took a reply. -/
  replies : before.replies ≠ [] ∧ after.replies = before.replies.tail
  /-- Less is left to do. -/
  work : after.self.workload < before.self.workload

/-- The replies that are left are enough for what is left to do. -/
theorem Provisioned.lighter {spare : Nat} (provisioned : Provisioned spare world)
    (lighter : Lighter world after) : Provisioned spare after := by
  obtain ⟨⟨some, replies⟩, work⟩ := lighter
  have length : world.replies.length ≠ 0 := fun none => some (List.length_eq_zero_iff.mp none)
  have enough := provisioned.enough
  refine ⟨fun reply found => provisioned.settles reply (List.mem_of_mem_tail (replies ▸ found)), ?_⟩
  rw [replies, List.length_tail]
  omega

theorem Provisioned.reply {spare : Nat} (provisioned : Provisioned spare world)
    (busy : 0 < world.self.workload) :
    ∃ reply rest, world.replies = reply :: rest ∧ reply.Settles := by
  have enough := provisioned.enough
  -- The script lasts as long as there is work.
  cases script : world.replies with
  | nil =>
    rw [script, List.length_nil] at enough
    omega
  | cons reply rest => exact ⟨reply, rest, rfl, provisioned.settles reply (script ▸ .head _)⟩

/-- The transport failed, and the connection was given up. -/
structure Failed (before : ClientWorld τ) (stop : Stop (Error τ)) (after : ClientWorld τ) : Prop where
  /-- The connection is dead. -/
  dead : after.self.live = false
  /-- It took a reply. -/
  replies : after.replies = before.replies.tail
  /-- The transport failed. -/
  reply : ∃ error, .fail error ∈ before.replies ∧ stop = .error (.transport error)

/-- Why outbound progress stops: the transport fails, or a packet is too large. -/
inductive Stopped (before : ClientWorld τ) (now : Nat) (stop : Stop (Error τ))
    (after : ClientWorld τ) : Prop where
  /-- The transport fails. -/
  | failed (failed : Failed before stop after)
  /-- A packet is too large, and nothing happens. -/
  | barred (large : before.self.Barred now) (same : stop = .error (.resource .packetTooLarge))
      (unchanged : after = before)

/-- A flush that is settled reduces the work, unless the transport fails. -/
theorem flushCurrent_settled {reply : Reply τ} {rest : List (Reply τ)}
    (alive : world.self.live = true) (unflushed : world.self.flushState ≠ .clean)
    (script : world.replies = reply :: rest) (settles : reply.Settles) :
    wp flushCurrent (fun _ after => Lighter world after) (Failed world) world := by
  unfold flushCurrent
  simp only [wp_bind, wp_self, alive, Bool.not_true, Bool.false_eq_true, if_false, wp_update]
  refine wp_flush_settled script settles (fun error fail => ?_) ?_
  · simp only [disconnected, wp_bind, wp_update, wp_fail]
    exact ⟨rfl, by simp [script, World.record], error, by rw [script, fail]; exact .head _, rfl⟩
  · simp only [updateOutbound, updateRuntime, wp_bind, wp_now, wp_note, wp_update]
    refine ⟨⟨by simp [script], by simp [script, World.record]⟩, ?_⟩
    exact Connection.workload_afterFlush unflushed

theorem performOutboundStep_large {Q : Bool → ClientWorld τ → Prop}
    (large : exceeds world.self.runtime.maximumPacketSize step.len = true) :
    wp (performOutboundStep step) Q (fun stop after =>
      stop = .error (.resource .packetTooLarge) ∧ after = world) world := by
  unfold performOutboundStep
  simp only [currentSession, wp_bind, wp_self, wp_pure, wp_ofExcept, writeStep_eq, large, if_true]
  exact ⟨trivial, trivial⟩

/-- A write that is settled reduces the work, unless the transport fails. -/
theorem performOutboundStep_settled {reply : Reply τ}
    {rest : List (Reply τ)} (alive : world.self.live = true)
    (identified : world.self.outbound.Identified) (next : world.self.outbound.nextStep = some step)
    (unfinished : step.written < (world.self.outbound.load step).bytes.length)
    (small : exceeds world.self.runtime.maximumPacketSize step.len = false)
    (script : world.replies = reply :: rest) (settles : reply.Settles) :
    wp (performOutboundStep step) (fun _ after => Lighter world after) (Failed world) world := by
  unfold performOutboundStep
  simp only [currentSession, wp_bind, wp_self, wp_pure, wp_ofExcept, writeStep_eq, small,
    Bool.false_eq_true, if_false, alive, Bool.not_true]
  unfold writeCurrent
  rw [wp_bind]
  refine wp_write_settled script settles (fun error fail => ?_) (fun none => ?_)
    (fun count positive within => ?_)
  · simp only [wp_pure, disconnected, wp_bind, wp_update, wp_fail]
    exact ⟨rfl, by simp [script], error, by rw [script, fail]; exact .head _, rfl⟩
  · -- Some bytes are left.
    rw [List.drop_eq_nil_iff, Outbound.load_written] at none
    exact absurd unfinished (Nat.not_lt.mpr none)
  · rw [List.length_drop, Outbound.load_written] at within
    have work (now : Nat) := @Connection.workload_afterWrite world.self step count now identified
      next positive (Nat.add_le_of_le_sub' (Nat.le_of_lt unfinished) within)
    obtain ⟨count, rfl⟩ := Nat.exists_eq_succ_of_ne_zero (Nat.pos_iff_ne_zero.mp positive)
    simp only [wp_pure, wp_bind, wp_update, updateOutbound, wp_note, wp_ite]
    split
    · rename_i ping
      simp only [updateRuntime, wp_bind, wp_now, wp_update, wp_pure]
      refine ⟨⟨by simp [script], by simp [script, World.record]⟩, ?_⟩
      have work := work (world.clock.reading world.samples)
      rwa [Connection.afterWrite, if_pos ping] at work
    · rename_i other
      refine ⟨⟨by simp [script], by simp [script, World.record]⟩, ?_⟩
      have work := work 0
      rwa [Connection.afterWrite, if_neg other] at work

/-- If nothing else is to be written, the next packet is the one that was queued. -/
theorem Outbound.len_of_queueControl {outbound queued : Outbound} {action : ControlAction}
    (none : outbound.nextStep = none)
    (done : outbound.queueControl action = .ok queued) (next : queued.nextStep = some step) :
    step.len = action.wire.length := by
  -- Nothing else has unwritten bytes, so the next packet is the new one.
  have all := nextStep_eq_none.mp none
  obtain ⟨pendingControl, rfl, appended⟩ := controls_of_queueControl done
  cases (at_of_nextStep next).1 with
  | @control index written other found =>
    have found := List.mem_of_getElem? found
    rw [appended, List.mem_append, List.mem_singleton] at found
    rcases found with found | same
    · exact absurd ⟨written, rfl⟩ (all.control _ found)
    · cases same
      rfl
  | release split => exact absurd ⟨_, rfl⟩ (all.release _ (split ▸ List.mem_append_right _ (.head _)))
  | retained split =>
    exact absurd ⟨_, rfl⟩ (all.retained _ (split ▸ List.mem_append_right _ (.head _)))

theorem checkControlPacketSize_pingReq (maximumPacketSize : Option UInt32) :
    checkControlPacketSize maximumPacketSize .pingReq =
      if exceeds maximumPacketSize 2 then .error .packetTooLarge else .ok () := by
  simp only [checkControlPacketSize, encodeControlPacket_eq, requirePacketSize, bind, Except.bind]
  rfl

/-- A PINGREQ that is due is queued, unless it is too large. -/
theorem maybeQueuePingreq_settled (tidy : world.self.Tidy) (quiet : world.self.Quiet) :
    wp (maybeQueuePingreq now) (fun _ after => after = world ∨
        ∃ queued, shouldQueuePingreq world.self.session now = true ∧
          exceeds world.self.runtime.maximumPacketSize 2 = false ∧
          world.self.outbound.queueControl .pingReq = .ok queued ∧
          after = { world with self := world.self.mapOutbound fun _ => queued })
      (Stopped world now) world := by
  -- The slot is free, so only the limit can stand against it.
  unfold maybeQueuePingreq
  simp only [currentSession, wp_bind, wp_self, wp_pure, wp_ite, checkControlPacketSize_pingReq]
  split
  · rename_i due
    cases large : exceeds world.self.session.runtime.maximumPacketSize 2 with
    | true => exact .barred (.ping quiet due large) rfl rfl
    | false =>
      obtain ⟨queued, done⟩ := Outbound.queueControl_of_room (tidy.room_of_quiet quiet) .pingReq
      simp only [Bool.false_eq_true, if_false, done, updateOutbound]
      exact .inr ⟨queued, due, trivial, rfl, rfl⟩
  · exact .inl trivial

/-- A round of outbound progress that is settled reduces the work, if there is any. -/
theorem serviceOutboundOnce_settled {spare : Nat}
    (moves : Moves τ (start config clock : ClientWorld τ).moment world.moment)
    (alive : world.self.live = true) (provisioned : Provisioned spare world)
    (timed : world.time = now) :
    wp (serviceOutboundOnce now) (fun progress after => progress = true → Lighter world after)
      (Stopped world now) world := by
  obtain ⟨grounded, -⟩ := moves.sending
  unfold serviceOutboundOnce
  simp only [currentOutbound, wp_bind, wp_self, wp_pure, wp_ite]
  -- A flush that is due is work.
  have flush (unflushed : world.self.flushState ≠ .clean) :
      wp flushCurrent (fun _ after => Lighter world after) (Stopped world now) world := by
    have less := @Connection.workload_afterFlush world.self now unflushed
    obtain ⟨reply, rest, script, settles⟩ := provisioned.reply (by omega)
    exact wp_mono (flushCurrent_settled alive unflushed script settles) (fun _ _ => id)
      (fun _ _ => .failed)
  split
  · rename_i flushing
    exact wp_mono (flush (by simp [flushing])) (fun _ after lighter _ => lighter) (fun _ _ => id)
  · rename_i idle
    cases next : world.self.outbound.nextStep with
    | some step =>
      cases large : exceeds world.self.runtime.maximumPacketSize step.len with
      | true =>
        refine wp_mono (performOutboundStep_large large) (fun _ _ lighter => lighter)
          (fun stop after failed => ?_)
        exact .barred (.packet idle next large) failed.1 failed.2
      | false =>
        have unfinished := moves.unfinished alive next
        have less := @Connection.workload_afterWrite world.self step 1 now grounded.identified next
          (by omega) unfinished
        obtain ⟨reply, rest, script, settles⟩ := provisioned.reply (by omega)
        exact wp_mono (performOutboundStep_settled alive grounded.identified next unfinished large
          script settles) (fun _ _ lighter _ => lighter) (fun _ _ => .failed)
    | none =>
      simp only [wp_ite, wp_bind, wp_self]
      split
      · rename_i dirty
        exact wp_mono (flush (by simp [dirty])) (fun _ after lighter _ => lighter) (fun _ _ => id)
      · rename_i dirty
        have quiet : world.self.Quiet := ⟨next, by
          cases state : world.self.flushState <;> simp_all⟩
        refine wp_mono (maybeQueuePingreq_settled grounded.sparse.tidy quiet) (fun _ after done => ?_)
          (fun _ _ => id)
        simp only [wp_bind, wp_self, wp_pure]
        rcases done with rfl | ⟨queued, due, small, done, rfl⟩
        · rw [next]
          simp
        · -- The PINGREQ is the only packet to be written.
          subst timed
          have pinged := moves.tail (.step (.outflow (.pinged alive quiet due done)))
          have less := Connection.workload_pinged due done
          cases again : (world.self.mapOutbound fun _ => queued).outbound.nextStep with
          | none => exact absurd again (Outbound.nextStep_of_queueControl done)
          | some step =>
            have len := Outbound.len_of_queueControl next done again
            obtain ⟨reply, rest, script, settles⟩ := provisioned.reply (by omega)
            refine wp_mono (performOutboundStep_settled alive (Moves.sending pinged).1.identified
              again (Moves.unfinished pinged alive again) (len ▸ small) script settles)
              (fun _ after lighter _ => ?_) (fun stop after failed => .failed ⟨failed.dead, failed.replies, failed.reply⟩)
            exact ⟨lighter.replies, Nat.lt_trans lighter.work less⟩

/-- The PINGRESP is overdue. -/
def Connection.Overdue (connection : Connection) (now : Nat) : Prop :=
  ∃ deadline, connection.runtime.pingTimeout = some deadline ∧ deadline ≤ now

/-- Why progress stops: the PINGRESP is overdue, or outbound progress stops. -/
inductive Halted (before : ClientWorld τ) (now : Nat) (stop : Stop (Error τ))
    (after : ClientWorld τ) : Prop where
  /-- The PINGRESP is overdue, and the connection is given up. -/
  | overdue (late : before.self.Overdue now) (same : stop = .error .disconnected)
      (dead : after.self.live = false) (replies : after.replies = before.replies)
  /-- Outbound progress stops. -/
  | stopped (early : ¬ before.self.Overdue now) (stopped : Stopped before now stop after)

theorem Stopped.error (stopped : Stopped world now stop after) : ∃ error, stop = .error error := by
  cases stopped with
  | failed failed =>
    obtain ⟨error, -, same⟩ := failed.reply
    exact ⟨_, same⟩
  | barred large same unchanged => exact ⟨_, same⟩

theorem Halted.error (halted : Halted world now stop after) : ∃ error, stop = .error error := by
  cases halted with
  | overdue late same dead replies => exact ⟨_, same⟩
  | stopped early stopped => exact stopped.error

/-- The call that stops progress takes one reply at most. -/
theorem Stopped.fewer (stopped : Stopped world now stop after) :
    world.replies.length ≤ after.replies.length + 1 := by
  cases stopped with
  | failed failed =>
    rw [failed.replies, List.length_tail]
    omega
  | barred large same unchanged =>
    rw [unchanged]
    omega

theorem Halted.fewer
    (halted : Halted world now stop after) : world.replies.length ≤ after.replies.length + 1 := by
  cases halted with
  | overdue late same dead replies =>
    rw [replies]
    omega
  | stopped early stopped => exact stopped.fewer

section Rounds

variable {spare : Nat} (moves : Moves τ (start config clock : ClientWorld τ).moment world.moment)
  (alive : world.self.live = true) (provisioned : Provisioned spare world)

include moves alive provisioned

/-- A round of progress that is settled reduces the work, if there is any. -/
theorem service_settled (timed : world.time = now) :
    wp (service now) (fun progress after => progress = true → Lighter world after)
      (Halted world now) world := by
  -- A PINGRESP that is overdue ends the connection before any call.
  have round := serviceOutboundOnce_settled moves alive provisioned timed
  unfold service
  simp only [currentSession, wp_bind, wp_self, wp_pure]
  cases waiting : world.self.session.runtime.pingTimeout with
  | none =>
    refine wp_mono round (fun _ _ => id) (fun stop after stopped => .stopped ?_ stopped)
    rintro ⟨deadline, some, -⟩
    rw [Connection.runtime, waiting] at some
    cases some
  | some deadline =>
    simp only [wp_ite]
    split
    · rename_i late
      simp only [disconnected, wp_bind, wp_update, wp_fail]
      exact .overdue ⟨deadline, waiting, late⟩ rfl rfl rfl
    · rename_i early
      refine wp_mono round (fun _ _ => id) (fun stop after stopped => .stopped ?_ stopped)
      rintro ⟨other, some, late⟩
      rw [Connection.runtime, waiting, Option.some.injEq] at some
      omega

/-- Flushing everything ends after no more calls than there is work. -/
theorem flushOutbound_settled :
    wp flushOutbound (fun _ after => Flow τ world.moment after.moment ∧ after.self.live = true ∧
        after.self.Quiet ∧ Provisioned spare after ∧ after.replies <:+ world.replies)
      (fun stop after => ∃ middle now, Flow τ world.moment middle.moment ∧
        middle.self.live = true ∧ Provisioned spare middle ∧ middle.replies <:+ world.replies ∧
        Stopped middle now stop after) world := by
  -- The measure is the work that is left, which every round reduces.
  unfold flushOutbound
  simp only [wp_bind, wp_rounds]
  refine wp_iterate_measure (fun _ current => Flow τ world.moment current.moment ∧
      current.self.live = true ∧ Provisioned spare current ∧ current.replies <:+ world.replies)
    (fun current => current.self.workload) ⟨.refl, alive, provisioned, List.suffix_refl _⟩ ?_ ?_
  · have := provisioned.enough
    omega
  · rintro _ current ⟨flow, alive, provisioned, suffix⟩
    have reached := moves.trans flow.sampled.steps.moves
    have provisioned' : Provisioned spare { current with samples := current.samples + 1 } :=
      ⟨provisioned.settles, provisioned.enough⟩
    simp only [wp_bind, wp_now]
    refine wp_mono (wp_and (serviceOutboundOnce_settled reached alive provisioned' rfl)
      (serviceOutboundOnce_spec flow.sampled alive rfl)) (fun progress after done => ?_)
      (fun stop after stopped => ?_)
    · obtain ⟨lighter, flow, alive, -, rested⟩ := done
      cases progress with
      | true =>
        have lighter := lighter rfl
        refine ⟨⟨flow, alive, provisioned'.lighter lighter, ?_⟩, lighter.work⟩
        rw [lighter.replies.2]
        exact (List.tail_suffix _).trans suffix
      | false =>
        have rested := rested rfl
        rw [rested.same] at flow alive ⊢
        exact ⟨flow, alive, rested.same ▸ rested.quiet, provisioned', suffix⟩
    · exact ⟨_, _, flow.sampled, alive, provisioned', suffix, stopped.1⟩

/-- A round of `drivePacket` without a packet reduces the work or ends. -/
theorem driveRound_settled (rest : world.self.Rest) (advanced : Bool) :
    wp (driveRound advanced : Client τ (Error τ) (Bool ⊕ Progress))
      (fun next after => Flow τ world.moment after.moment ∧ after.self.live = true ∧
        Provisioned spare after ∧ after.replies <:+ world.replies ∧ match next with
          | .inl _ => after.self.workload < world.self.workload
          | .inr progress => ∀ length, progress ≠ .inbound length)
      (Halted { world with samples := world.samples + 1 } (world.clock.reading world.samples))
      world := by
  -- No packet is waiting, so the round only writes or flushes.
  have incomplete : world.self.session.packetReader.packetAvailable = false := rest
  unfold driveRound
  simp only [currentSession, wp_bind, wp_self, wp_pure, incomplete, Bool.false_and,
    Bool.false_eq_true, if_false, wp_now]
  have provisioned' : Provisioned spare { world with samples := world.samples + 1 } :=
    ⟨provisioned.settles, provisioned.enough⟩
  refine wp_mono (wp_and (service_settled (moves.trans (Flow.sampled .refl).steps.moves) alive
    provisioned' rfl) (service_spec (Flow.sampled .refl) alive rfl)) (fun progress after done => ?_)
    (fun _ _ halted => halted.1)
  obtain ⟨lighter, flow, alive, -, rested⟩ := done
  have incomplete : after.self.session.packetReader.packetAvailable = false := flow.rest rest
  simp only [wp_bind, wp_self, wp_pure, incomplete, Bool.false_eq_true, if_false, wp_ite]
  cases progress with
  | true =>
    have lighter := lighter rfl
    have suffix : after.replies <:+ world.replies := by
      rw [lighter.replies.2]
      exact List.tail_suffix _
    split
    · exact ⟨flow, alive, provisioned'.lighter lighter, suffix, by simp⟩
    · exact ⟨flow, alive, provisioned'.lighter lighter, suffix, lighter.work⟩
  | false =>
    obtain ⟨same, quiet, -⟩ := (rested rfl).1
    simp only [quiet.1, quiet.2, Option.isNone_none, beq_self_eq_true, Bool.and_self, if_true]
    refine ⟨flow, alive, same ▸ provisioned', same ▸ List.suffix_refl _, fun length => ?_⟩
    split <;> simp

/-- Without a packet, the rounds of driving end after no more calls than there is work. -/
theorem driveRounds_settled (rest : world.self.Rest) {fuel : Nat}
    (enough : world.self.workload < fuel) (advanced : Bool) :
    wp (Async.iterate fuel driveRound advanced : Client τ (Error τ) Progress)
      (fun progress after => Flow τ world.moment after.moment ∧ Provisioned spare after ∧
        ∀ length, progress ≠ .inbound length)
      (fun stop after => ∃ middle now, Provisioned spare middle ∧
        (middle.self = world.self ∧ now = world.clock.reading world.samples ∨
          middle.self.workload < world.self.workload) ∧
        middle.replies <:+ world.replies ∧ Halted middle now stop after) world := by
  -- Only the first round begins with all the work.
  refine wp_iterate_measure (fun _ current => Flow τ world.moment current.moment ∧
      current.self.live = true ∧ Provisioned spare current ∧ current.replies <:+ world.replies ∧
      (current = world ∨ current.self.workload < world.self.workload))
    (fun current => current.self.workload)
    ⟨.refl, alive, provisioned, List.suffix_refl _, .inl rfl⟩ enough ?_
  rintro advanced current ⟨flow, alive, provisioned, suffix, before⟩
  refine wp_mono (driveRound_settled (moves.trans flow.steps.moves) alive provisioned
    (flow.rest rest) advanced) (fun next after done => ?_) (fun stop after halted => ?_)
  · obtain ⟨more, alive, provisioned, fewer, ended⟩ := done
    cases next with
    | inl next =>
      refine ⟨⟨flow.trans more, alive, provisioned, fewer.trans suffix, .inr ?_⟩, ended⟩
      rcases before with rfl | less
      · exact ended
      · exact Nat.lt_trans ended less
    | inr progress => exact ⟨flow.trans more, provisioned, ended⟩
  · refine ⟨{ current with samples := current.samples + 1 }, _,
      ⟨provisioned.settles, provisioned.enough⟩, ?_, suffix, halted⟩
    rcases before with rfl | less
    · exact .inl ⟨rfl, rfl⟩
    · exact .inr less

/-- Without a packet, driving ends after no more calls than there is work. -/
theorem drivePacket_settled (rest : world.self.Rest) :
    wp (drivePacket : Client τ (Error τ) Progress)
      (fun progress after => Flow τ world.moment after.moment ∧ Provisioned spare after ∧
        ∀ length, progress ≠ .inbound length)
      (fun stop after => ∃ middle now, Provisioned spare middle ∧
        (middle.self = world.self ∧ now = world.clock.reading world.samples ∨
          middle.self.workload < world.self.workload) ∧
        middle.replies <:+ world.replies ∧ Halted middle now stop after) world := by
  have enough := provisioned.enough
  unfold drivePacket
  simp only [wp_bind, wp_self, alive, Bool.not_true, Bool.false_eq_true, if_false, wp_rounds]
  exact driveRounds_settled moves alive provisioned rest (by omega) false

end Rounds

end Minimq

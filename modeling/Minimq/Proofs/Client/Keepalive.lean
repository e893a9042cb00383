import Minimq.Proofs.Client.Run

/-! The keepalive timers: which of them comes first, and when waiting for it really waits. -/

namespace Minimq

open Async Hoare

variable {π τ : Type} {before after : ClientMoment} {moment : ClientMoment}

/-- The upper bound for one keepalive round trip, in ticks. -/
def roundTripTicks : Nat := roundTripTimeoutMs * ticksPerMillisecond

/-- How the timers of a live connection are related. -/
structure Timed (moment : ClientMoment) : Prop where
  /-- The wait for a PINGRESP ends one round trip from now at the latest. -/
  timeout : moment.self.live = true → ∀ deadline, moment.self.runtime.pingTimeout = some deadline →
    deadline ≤ moment.time + roundTripTicks
  /-- A PINGREQ was flushed no later than the keepalive interval was last restarted. -/
  spaced : moment.self.live = true → moment.self.flushState = .clean →
    ∀ deadline next, moment.self.runtime.pingTimeout = some deadline →
      moment.self.runtime.nextPing = some next →
      ∃ interval, moment.self.runtime.keepaliveSendInterval = some interval ∧
        deadline + interval ≤ next + roundTripTicks

namespace Timed

theorem of_dead (dead : moment.self.live = false) : Timed moment :=
  ⟨fun alive => by simp [dead] at alive, fun alive => by simp [dead] at alive⟩

theorem of_unpinged (none : moment.self.runtime.pingTimeout = none) : Timed moment :=
  ⟨fun _ deadline some => by simp [none] at some, fun _ _ deadline next some => by simp [none] at some⟩

/-- A transition that restarts no timer, and stops at most the wait for a PINGRESP. -/
theorem of_same (timed : Timed before)
    (alive : after.self.live = true → before.self.live = true)
    (clean : after.self.flushState = .clean → before.self.flushState = .clean)
    (timeout : after.self.runtime.pingTimeout = before.self.runtime.pingTimeout ∨
      after.self.runtime.pingTimeout = none)
    (next : after.self.runtime.nextPing = before.self.runtime.nextPing)
    (interval : after.self.runtime.keepaliveInterval = before.self.runtime.keepaliveInterval)
    (later : before.time ≤ after.time) : Timed after := by
  -- Either the wait goes on with the same deadlines, or it is over.
  rcases timeout with same | none
  · refine ⟨fun live deadline some => ?_, fun live quiet deadline other some due => ?_⟩
    · have := timed.timeout (alive live) deadline (same ▸ some)
      omega
    · have spaced := timed.spaced (alive live) (clean quiet) deadline other (same ▸ some)
        (next ▸ due)
      unfold RuntimeState.keepaliveSendInterval at spaced ⊢
      rwa [interval]
  · exact of_unpinged none

/-- Restarting the keepalive interval. -/
theorem restarted {now : Nat}
    (timeout : ∀ deadline, moment.self.runtime.pingTimeout = some deadline →
      deadline ≤ now + roundTripTicks)
    (time : moment.time = now)
    (next : moment.self.runtime.nextPing =
      moment.self.runtime.keepaliveSendInterval.map (now + ·)) : Timed moment := by
  refine ⟨fun _ deadline some => ?_, fun _ _ deadline other some due => ?_⟩
  · have := timeout deadline some
    omega
  · rw [next] at due
    obtain ⟨interval, known, rfl⟩ := Option.map_eq_some_iff.mp due
    have := timeout deadline some
    exact ⟨interval, known, by omega⟩

end Timed

theorem Handled.timers {packet : ReceivedPacket} {taken : Taken} {before after : Handling}
    (handled : Handled packet before taken after) :
    (after.runtime.pingTimeout = before.runtime.pingTimeout ∨ after.runtime.pingTimeout = none) ∧
      after.runtime.nextPing = before.runtime.nextPing ∧
      after.runtime.keepaliveInterval = before.runtime.keepaliveInterval := by
  cases handled <;> exact ⟨by first | exact .inl rfl | exact .inr rfl, rfl, rfl⟩

theorem Outflow.timed (step : Outflow τ before after) (timed : Timed before) : Timed after := by
  cases step with
  | tick later => exact timed.of_same id id (.inl rfl) rfl rfl later
  | @wrote next current count now alive idle found encoded positive within later =>
    -- What was written is not flushed yet, so only the new deadline matters.
    have dirty : (before.self.afterWrite next current count now).flushState ≠ .clean := by
      rw [Connection.afterWrite_flushState]
      simp
    refine ⟨fun _ deadline some => ?_, fun _ clean => absurd clean dirty⟩
    unfold Connection.afterWrite at some
    dsimp only at some ⊢
    split at some
    · cases some
      exact Nat.le_refl _
    · have := timed.timeout alive deadline some
      omega
  | flushing alive ready =>
    exact timed.of_same id (fun no => by simp at no) (.inl rfl) rfl rfl (Nat.le_refl _)
  | @flushed now alive flushing later =>
    refine Timed.restarted (fun deadline some => ?_) rfl rfl
    have := timed.timeout alive deadline some
    dsimp only
    omega
  | disconnected => exact .of_dead rfl
  | pinged alive quiet due queued =>
    exact timed.of_same id id (.inl rfl) rfl rfl (Nat.le_refl _)

/-- Every transition keeps the timers in order. -/
theorem Step.timed (step : Step τ before after) (timed : Timed before) : Timed after := by
  -- A live connection keeps its timers or restarts them, and a dead one has none.
  cases step with
  | outflow step => exact step.timed timed
  | upkeep step =>
    cases step <;> exact timed.of_same id id (.inl rfl) rfl rfl (Nat.le_refl _)
  | opening step => exact .of_dead step.dead
  | handled packet alive quiet =>
    obtain ⟨taken, state, handled, same | same⟩ := before.self.handle_cases packet
    · obtain ⟨timeout, next, interval⟩ := handled.timers
      refine timed.of_same ?_ ?_ ?_ ?_ ?_ (Nat.le_refl _) <;> dsimp only <;> rw [same]
      · exact id
      · exact id
      · exact timeout
      · exact next
      · exact interval
    · refine .of_dead ?_
      dsimp only
      rw [same]
      rfl
  | admitted admissible =>
    refine timed.of_same (fun _ => admissible.alive) ?_ (.inl ?_) ?_ ?_ (Nat.le_refl _)
    · dsimp only
      rw [Connection.enlist_flushState]
      exact id
    all_goals
      dsimp only
      unfold Connection.enlist
      dsimp only
      split <;> rfl
  | @direct packet chunks now ready whole later =>
    refine Timed.restarted (fun deadline some => ?_) rfl rfl
    have := timed.timeout ready.alive deadline some
    dsimp only
    omega
  | broken ready part => exact .of_dead rfl
  | opened => exact .of_dead rfl
  | reset closed => exact .of_dead closed
  | connected closed later sized reserved quota limit state =>
    subst state
    exact .of_unpinged rfl

theorem run_timed (config : ConfigBuilder) (clock : Clock) (calls : List (Invocation π τ)) :
    Timed (run (start config clock) calls).moment :=
  run_keeps (.of_dead rfl) Step.timed
    (fun torn timed => by
      cases torn
      exact timed.of_same id id (.inl rfl) rfl rfl (Nat.le_refl _)) calls

/-- Writing, flushing and keepalive do not change the keepalive interval. -/
theorem Flow.keepaliveInterval (flow : Flow τ before after) :
    after.self.runtime.keepaliveInterval = before.self.runtime.keepaliveInterval := by
  -- A write may restart a timer, which leaves the interval alone.
  induction flow with
  | refl => rfl
  | tail _ step ih =>
    rw [← ih]
    cases step with
    | wrote =>
      unfold Connection.afterWrite
      dsimp only
      split <;> rfl
    | _ => rfl

/-- A keepalive interval under which a PINGREQ is sent at most once per round trip. -/
def RuntimeState.Unhurried (runtime : RuntimeState) : Prop :=
  runtime.keepaliveInterval = 0 ∨ 10 * ticksPerSecond ≤ runtime.keepaliveInterval

/-- Under such an interval the next PINGREQ is at least one round trip away. -/
theorem RuntimeState.Unhurried.roundTrip_le {runtime : RuntimeState} (unhurried : runtime.Unhurried)
    {interval : Nat} (known : runtime.keepaliveSendInterval = some interval) :
    roundTripTicks ≤ interval := by
  unfold keepaliveSendInterval at known
  dsimp only at known
  split at known
  · -- Half the interval is at least a round trip.
    simp at known
  · rename_i positive
    simp only [Option.some.injEq] at known
    unfold Unhurried at unhurried
    simp only [roundTripTicks, roundTripTimeoutMs, ticksPerSecond, ticksPerMillisecond] at *
    omega

/-- When there is nothing to do, every timer is still running. -/
theorem Idle.later {world : ClientWorld τ} (idle : Idle world) (alive : world.self.live = true)
    (tidy : world.self.Tidy) (timed : Timed world.moment)
    (unhurried : world.self.runtime.Unhurried) {deadline : Nat}
    (timer : world.self.runtime.nextDeadline = some deadline) : world.time < deadline := by
  -- No PINGREQ is queued, so one is due unless the last one is still unanswered.
  have unqueued : world.self.outbound.hasPendingPingreq = false := by
    simp [Outbound.hasPendingPingreq, tidy.controls_of_quiet idle.quiet]
  have undue := idle.undue
  have early := idle.early
  unfold shouldQueuePingreq at undue
  unfold RuntimeState.nextDeadline at timer
  cases timeout : world.self.runtime.pingTimeout with
  | none =>
    cases next : world.self.runtime.nextPing with
    | none => simp [timeout, next] at timer
    | some ping =>
      simp only [timeout, next, Option.some.injEq] at timer
      simp [timeout, next, unqueued] at undue
      omega
  | some limit =>
    have running := early limit timeout
    cases next : world.self.runtime.nextPing with
    | none =>
      simp only [timeout, next, Option.some.injEq] at timer
      omega
    | some ping =>
      obtain ⟨interval, known, spaced⟩ := timed.spaced alive idle.quiet.2 limit ping timeout next
      have far := unhurried.roundTrip_le known
      simp only [timeout, next, Option.some.injEq] at timer
      omega

/-- The worlds in which a round of `waitForProgress` begins. -/
inductive Waiting (first : ClientWorld τ) : ClientWorld τ → Prop where
  /-- The call begins. -/
  | enter : Waiting first first
  /-- There was nothing to do, and the wait has ended. -/
  | again {current idle next : ClientWorld τ} (earlier : Waiting first current)
      (driven : drivePacket current = .ok .idle idle) (awaited : awaitInput idle = .ok () next) :
      Waiting first next

theorem live_of_drivePacket {world after : ClientWorld τ} {progress : Progress}
    (driven : drivePacket world = .ok progress after) : world.self.live = true := by
  by_contra dead
  rw [Bool.not_eq_true] at dead
  unfold drivePacket at driven
  simp [Async.self, Async.fail, dead] at driven

/-- What a round of waiting finds when there is nothing to do. -/
theorem drivePacket_idle {origin : ClientMoment} {world idle : ClientWorld τ}
    (tidy : origin.self.Tidy) (driving : Driving origin world)
    (driven : drivePacket world = .ok .idle idle) : Driven origin .idle idle ∧
      idle.self.runtime.keepaliveInterval = world.self.runtime.keepaliveInterval := by
  have spec := drivePacket_of_driving tidy driving
  unfold wp at spec
  rw [driven] at spec
  have flow := drivePacket_flow driving.alive (spec.2.2 rfl)
  unfold wp at flow
  rw [driven] at flow
  exact ⟨spec.1, flow.keepaliveInterval⟩

/-- How a wait ends. -/
theorem awaitInput_ends {origin : ClientMoment} {idle next : ClientWorld τ}
    (driven : Driven origin .idle idle) (awaited : awaitInput idle = .ok () next) :
    Driving origin next ∧ next.self.runtime = idle.self.runtime ∧
      (next.self.session.packetReader.packetAvailable = true ∨
        ∃ deadline, idle.self.runtime.nextDeadline = some deadline ∧ deadline ≤ next.time) := by
  have spec := awaitInput_spec driven.reached driven.alive (driven.idle rfl).quiet
  unfold wp at spec
  rw [awaited] at spec
  obtain ⟨driving, -, same, ended⟩ := spec
  exact ⟨driving, same, ended.imp_right And.right⟩

/-- Every round of waiting begins on the same connection. -/
theorem Waiting.driving {first current : ClientWorld τ} (waiting : Waiting first current)
    (tidy : first.self.Tidy) (rest : first.self.Rest) (alive : current.self.live = true) :
    Driving first.moment current ∧
      current.self.runtime.keepaliveInterval = first.self.runtime.keepaliveInterval := by
  induction waiting with
  | enter => exact ⟨Reached.driving ⟨.refl, rest⟩ alive, rfl⟩
  | again earlier driven awaited ih =>
    obtain ⟨driving, same⟩ := ih (live_of_drivePacket driven)
    obtain ⟨driven, kept⟩ := drivePacket_idle tidy driving driven
    obtain ⟨driving, unchanged, -⟩ := awaitInput_ends driven awaited
    exact ⟨driving, by rw [unchanged, kept, same]⟩

/--
Waiting really waits: in every round in which there is nothing to do, every timer is still running.

So a round ends with a packet to process or after the clock has moved on.
-/
theorem run_waits (config : ConfigBuilder) (clock : Clock) (calls : List (Invocation π τ))
    (replies : List (Reply τ)) {current idle : ClientWorld τ}
    (unhurried : (run (start config clock) calls).self.runtime.Unhurried)
    (waiting : Waiting { run (start config clock) calls with replies } current)
    (driven : drivePacket current = .ok .idle idle) :
    (∀ deadline, idle.self.runtime.nextDeadline = some deadline → idle.time < deadline) ∧
      ∀ next, awaitInput idle = .ok () next →
        next.self.session.packetReader.packetAvailable = true ∨ idle.time < next.time := by
  -- An idle connection has no deadline in the past, or it would have acted on it.
  have settled := (settled_start config clock).run calls
  obtain ⟨driving, same⟩ := waiting.driving settled.tidy settled.rest (live_of_drivePacket driven)
  obtain ⟨driven, kept⟩ := drivePacket_idle settled.tidy driving driven
  have timed : Timed idle.moment := driven.reached.steps.keep Step.timed
    (run_timed config clock calls)
  have tidy : idle.self.Tidy := driven.reached.steps.keep Step.tidy settled.tidy
  have later {deadline : Nat} (timer : idle.self.runtime.nextDeadline = some deadline) :
      idle.time < deadline := by
    refine (driven.idle rfl).later driven.alive tidy timed ?_ timer
    unfold RuntimeState.Unhurried at unhurried ⊢
    rwa [kept, same]
  refine ⟨fun deadline => later, fun next awaited => ?_⟩
  obtain ⟨-, -, available | ⟨deadline, timer, due⟩⟩ := awaitInput_ends driven awaited
  · exact .inl available
  · exact .inr (Nat.lt_of_lt_of_le (later timer) due)

/-- A client connects, and sends a PINGREQ when it is driven. -/
def firstPing : List (Invocation Unit Unit) := [acceptedConnect, ⟨.drive, [.ready 2, .ready 0]⟩]

/-- With a keepalive of one minute, a client waits for the PINGRESP, long before the next PINGREQ. -/
theorem run_waits_minute : ∃ (idle : ClientWorld Unit) (deadline : Nat),
    drivePacket { run (start (smallConfig 60) (steppingClock 55000000 1)) firstPing with
      replies := [] } = .ok .idle idle ∧
      idle.self.runtime.pingTimeout = some deadline ∧ idle.self.runtime.nextPing.isSome = true ∧
      idle.time < deadline := by
  -- The PINGREQ has been written, so the PINGRESP is what is waited for.
  have waits : check drivePacket (fun progress idle => progress == .idle &&
      idle.self.runtime.pingTimeout.isSome && idle.self.runtime.nextPing.isSome &&
      idle.self.runtime.nextDeadline == idle.self.runtime.pingTimeout)
      ({ run (start (smallConfig 60) (steppingClock 55000000 1)) firstPing with
        replies := [] } : ClientWorld Unit) = true := by
    decide +kernel
  obtain ⟨progress, idle, driven, test⟩ := returned_of_check waits
  simp only [Bool.and_eq_true, beq_iff_eq] at test
  obtain ⟨⟨⟨rfl, asked⟩, running⟩, first⟩ := test
  obtain ⟨deadline, timer⟩ := Option.isSome_iff_exists.mp asked
  have unhurried : (run (start (smallConfig 60) (steppingClock 55000000 1))
      firstPing).self.runtime.Unhurried := by
    unfold RuntimeState.Unhurried
    decide +kernel
  exact ⟨idle, deadline, driven, timer, running,
    (run_waits (smallConfig 60) (steppingClock 55000000 1) firstPing [] unhurried .enter driven).1
      deadline (first.trans timer)⟩

/-- A client with a keepalive of one second that has sent its first PINGREQ. -/
def hurriedWorld : ClientWorld Unit :=
  -- The PINGREQ is due after half a second; it is written and flushed.
  run (start (smallConfig 1) (steppingClock 600000 5)) firstPing

/--
With a keepalive of one second, the next PINGREQ falls due while the last one is unanswered.

Then there is nothing to do, the timer has elapsed, and a round ends at the instant it began.
-/
theorem hurried_spins : ∃ (idle next : ClientWorld Unit) (deadline : Nat),
    drivePacket { hurriedWorld with replies := [.expire] } = .ok .idle idle ∧
      idle.self.runtime.nextDeadline = some deadline ∧ deadline ≤ idle.time ∧
      awaitInput idle = .ok () next ∧
      next.self.session.packetReader.packetAvailable = false ∧ next.time = idle.time := by
  -- The next PINGREQ is due, but none is queued while a PINGRESP is awaited.
  have spins : check drivePacket (fun progress idle => progress == .idle &&
      (idle.self.runtime.nextDeadline.any fun deadline => deadline ≤ idle.time) &&
      check awaitInput (fun _ next => !next.self.session.packetReader.packetAvailable &&
        next.time == idle.time) idle)
      ({ hurriedWorld with replies := [.expire] } : ClientWorld Unit) = true := by
    decide +kernel
  obtain ⟨progress, idle, driven, test⟩ := returned_of_check spins
  simp only [Bool.and_eq_true, beq_iff_eq] at test
  obtain ⟨⟨rfl, elapsed⟩, awaited⟩ := test
  obtain ⟨deadline, timer, due⟩ := (Option.any_eq_true _ _).mp elapsed
  obtain ⟨_, next, returned, still⟩ := returned_of_check awaited
  simp only [Bool.and_eq_true, Bool.not_eq_true', beq_iff_eq] at still
  exact ⟨idle, next, deadline, driven, timer, by simpa using due, returned, still.1, still.2⟩

end Minimq

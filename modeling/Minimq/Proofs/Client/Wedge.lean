import Minimq.Proofs.Client.Atomic
import Minimq.Proofs.Client.Supply

/-! Errors of `drive` that change nothing: a packet that exceeds the limit of the broker. -/

namespace Minimq

open Hoare Async

variable {π τ : Type} {world : ClientWorld τ} {now : Nat}

/-- What has to be written next is too large, and the connection is not about to be given up. -/
structure Connection.Wedged (connection : Connection) (now : Nat) : Prop where
  /-- The PINGRESP is not overdue. -/
  early : ¬ connection.Overdue now
  /-- What has to be written next is too large. -/
  large : connection.Barred now

/-- Nothing happened, and the error says that a packet is too large. -/
def TooLarge (before : ClientWorld τ) (stop : Stop (Error τ)) (after : ClientWorld τ) : Prop :=
  stop = .error (.resource .packetTooLarge) ∧ after = before

/-- A packet that is too large stops outbound progress before anything happens. -/
theorem serviceOutboundOnce_barred {Q : Bool → ClientWorld τ → Prop}
    (large : world.self.Barred now) :
    wp (serviceOutboundOnce now) Q (TooLarge world) world := by
  unfold serviceOutboundOnce
  simp only [currentOutbound, wp_bind, wp_self, wp_pure, wp_ite]
  -- The limit bars the next packet, or a PINGREQ when nothing else is to be sent.
  cases large with
  | @packet step idle next large =>
    rw [if_neg idle, next]
    exact performOutboundStep_large large
  | ping quiet due large =>
    obtain ⟨none, clean⟩ := quiet
    rw [if_neg (by simp [clean]), none]
    simp only [wp_ite, wp_bind, wp_self]
    rw [if_neg (by simp [clean])]
    unfold maybeQueuePingreq
    have size : exceeds world.self.session.runtime.maximumPacketSize 2 = true := large
    simp only [currentSession, wp_bind, wp_self, wp_pure, due, if_true,
      checkControlPacketSize_pingReq, size]
    exact ⟨rfl, rfl⟩

/-- On a wedged connection `drive` fails and changes nothing. -/
theorem drive_of_wedged (alive : world.self.live = true) (rest : world.self.Rest)
    (wedged : world.self.Wedged (world.clock.reading world.samples)) :
    drive world = .error (.error (.resource .packetTooLarge))
      { world with samples := world.samples + 1 } := by
  have incomplete : world.self.session.packetReader.packetAvailable = false := rest
  have spec : wp (drive : Client τ (Error τ) (Option InboundPublish)) (fun _ _ => False)
      (TooLarge { world with samples := world.samples + 1 }) world := by
    unfold drive drivePacket
    simp only [wp_bind, wp_self, alive, Bool.not_true, Bool.false_eq_true, if_false, wp_rounds]
    -- The first round fails.
    rw [wp_iterate_succ]
    unfold driveRound service
    simp only [currentSession, wp_bind, wp_self, wp_pure, incomplete, Bool.false_and,
      Bool.false_eq_true, if_false, wp_now]
    cases waiting : world.self.session.runtime.pingTimeout with
    | none => exact serviceOutboundOnce_barred wedged.large
    | some deadline =>
      have early : ¬ deadline ≤ world.clock.reading world.samples :=
        fun late => wedged.early ⟨deadline, waiting, late⟩
      simp only [early, if_false]
      exact serviceOutboundOnce_barred wedged.large
  unfold wp at spec
  cases result : drive world with
  | ok value after =>
    rw [result] at spec
    exact spec.elim
  | error stop after =>
    rw [result] at spec
    rw [spec.1, spec.2]

/-- With a willing transport, an error of `drive` ends the connection, changes it or is a wedge. -/
theorem drive_error_cases {config : ConfigBuilder} {clock : Clock}
    (moves : Moves τ (start config clock : ClientWorld τ).moment world.moment)
    (alive : world.self.live = true) (rest : world.self.Rest)
    (willing : Willing world.replies)
    (enough : world.self.workload ≤ world.replies.length) :
    wp (drive : Client τ (Error τ) (Option InboundPublish)) (fun _ _ => True)
      (fun _ after => after.self.live = false ∨
        after.self.workload < world.self.workload ∨
        world.self.Wedged (world.clock.reading world.samples)) world := by
  have provisioned : Provisioned 0 world := ⟨willing.settles, enough⟩
  unfold drive
  rw [wp_bind]
  refine wp_mono (drivePacket_settled moves alive provisioned rest) (fun progress after done => ?_)
    (fun stop after failed => ?_)
  · -- Nothing was received, so no publication is delivered.
    cases progress with
    | inbound length => exact absurd rfl (done.2.2 length)
    | idle => trivial
    | advanced => trivial
  · obtain ⟨middle, now, -, first, suffix, halted⟩ := failed
    cases halted with
    | overdue late same dead replies => exact .inl dead
    | stopped early stopped =>
      cases stopped with
      | failed failed => exact .inl failed.dead
      | barred large same unchanged =>
        -- Work done before the error shows in the workload.
        rcases first with ⟨same, rfl⟩ | less
        · exact .inr (.inr ⟨same ▸ early, same ▸ large⟩)
        · exact .inr (.inl (unchanged ▸ less))

/--
With a transport that takes every byte, an error of `drive` on a live connection ends it or changes
it, unless the connection is wedged: what has to be written next exceeds the limit of the broker.
-/
theorem drive_error_changes (config : ConfigBuilder) (clock : Clock) (calls : List (Invocation π τ))
    (world : ClientWorld τ) (reached : ∃ replies,
      world = { run (start config clock) calls with replies := replies })
    (alive : world.self.live = true)
    (willing : Willing world.replies)
    (enough : world.self.workload ≤ world.replies.length) :
    (∀ error after, drive world = .error (.error error) after →
      after.self.live = false ∨ after.self ≠ world.self) ↔
    ¬ world.self.Wedged (world.clock.reading world.samples) := by
  obtain ⟨replies, rfl⟩ := reached
  have settled := (settled_start config clock).run (τ := τ) calls
  constructor
  · -- A wedged connection fails at once and changes nothing.
    intro changes wedged
    rcases changes _ _ (drive_of_wedged alive settled.rest wedged) with dead | changed
    · rw [show _ = true from alive] at dead
      cases dead
    · exact changed rfl
  · intro free error after failed
    have spec := drive_error_cases (by exact settled.moves) alive settled.rest willing enough
    unfold wp at spec
    rw [failed] at spec
    -- Work that was done changed the connection, and the rest is excluded.
    rcases spec with dead | less | wedged
    · exact .inl dead
    · refine .inr fun same => ?_
      rw [same] at less
      exact Nat.lt_irrefl _ less
    · exact absurd wedged free

/-- A call of `drive`. -/
def driveCall (replies : List (Reply τ)) : Invocation π τ := ⟨.drive, replies⟩

/-- A wedged connection fails in the same way forever. -/
theorem run_of_wedged {replies : List (Reply τ)} (alive : world.self.live = true)
    (rest : world.self.Rest) (wedged : ∀ now, world.self.Wedged now) (count : Nat) :
    let later := run world (List.replicate count (driveCall replies : Invocation π τ))
    later.self = world.self ∧
      (driveCall replies : Invocation π τ).failure later = some (.resource .packetTooLarge) := by
  have fails {current : ClientWorld τ} (same : current.self = world.self) :=
    @drive_of_wedged τ { current with replies := replies } (same ▸ alive) (same ▸ rest)
      (same ▸ wedged _)
  have same : (run world (List.replicate count (driveCall replies : Invocation π τ))).self =
      world.self := by
    -- Every call meets the same connection, whatever the clock reads by then.
    induction count generalizing world with
    | zero => rfl
    | succ count ih =>
      rw [List.replicate_succ, run, driveCall, Invocation.perform, Call.perform, fails rfl]
      exact ih alive rest wedged fails
  exact ⟨same, congrArg (failureOf some) (fails same)⟩

/-- A publication is sent, and the broker resumes the session with a limit of four bytes. -/
def shrunkenLimit : List (Invocation Unit Unit) :=
  [acceptedConnect, ⟨.publish oncePublication, [.ready 64, .ready 0]⟩, ⟨.handleDisconnect, []⟩,
    ⟨.connect [0x20, 8, 1, 0, 5, 0x27, 0, 0, 0, 4],
      [.ready 64, .ready 0, .ready 1, .ready 1, .ready 8]⟩]

/-- The publication exceeds the new limit and blocks the connection for good. -/
theorem drive_error_changes_shrunken :
    let world := run (start roomyConfig (steppingClock 1 4)) shrunkenLimit
    world.self.live = true ∧ ∀ (replies : List (Reply Unit)) (count : Nat),
      let later := run world (List.replicate count (driveCall replies : Invocation Unit Unit))
      later.self = world.self ∧ (driveCall replies : Invocation Unit Unit).failure later =
        some (.resource .packetTooLarge) := by
  -- The publication is to be sent first, and nothing waits for a PINGRESP.
  have alive : (run (start roomyConfig (steppingClock 1 4)) shrunkenLimit).self.live = true := by
    decide +kernel
  have calm : (run (start roomyConfig (steppingClock 1 4)) shrunkenLimit).self.runtime.pingTimeout =
      none := by decide +kernel
  have next : (run (start roomyConfig (steppingClock 1 4)) shrunkenLimit).self.outbound.nextStep =
      some (.retained 1 0 8 0) := by decide +kernel
  refine ⟨alive, fun replies count => ?_⟩
  refine run_of_wedged alive ((settled_start _ _).run _).rest (fun now => ⟨?_, .packet ?_ next ?_⟩)
    count
  · rintro ⟨deadline, waiting, -⟩
    rw [calm] at waiting
    cases waiting
  · decide +kernel
  · decide +kernel

/-- A client that is driven every six seconds, until a PINGREQ is about to fall due. -/
def beforePing : ClientWorld Unit :=
  { run (start (smallConfig 30) (steppingClock (6 * ticksPerSecond) 100))
      (acceptedConnect :: List.replicate 4 (driveCall [])) with
    replies := List.replicate 64 (.ready 64) }

/-- Without a limit an error changes something: the PINGRESP is overdue, and the connection ends. -/
theorem drive_error_changes_unlimited : ∃ after,
    drive beforePing = .error (.error .disconnected) after ∧
      (after.self.live = false ∨ after.self ≠ beforePing.self) := by
  -- The outcome of the call is evaluated, and the theorem says what it changed.
  have failed : failureOf some (drive beforePing) = some .disconnected := by decide +kernel
  obtain ⟨cause, after, result, same⟩ := failureOf_eq_some failed
  cases Option.some.inj same
  have unlimited : beforePing.self.runtime.maximumPacketSize = none := by decide +kernel
  refine ⟨after, result, (drive_error_changes (smallConfig 30)
    (steppingClock (6 * ticksPerSecond) 100) (acceptedConnect :: List.replicate 4 (driveCall []))
    beforePing ⟨_, rfl⟩ (by decide +kernel) ?_ (by decide +kernel)).mpr (fun wedged => ?_) _ _ result⟩
  · intro reply found
    exact ⟨64, by decide, List.eq_of_mem_replicate found⟩
  · cases wedged.large with
    | packet idle next large => simp [unlimited, exceeds] at large
    | ping quiet due large => simp [unlimited, exceeds] at large

end Minimq

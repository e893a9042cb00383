import Minimq.Proofs.Client.Failure

/-! The death of a connection is latched: a deadly error ends it, and nothing revives it. -/

namespace Minimq

open Hoare Async

variable {ε α π τ : Type} {world : ClientWorld τ} {error : Error τ} {program : Client τ ε α}

/-- A program that returns an error was stopped by it. -/
theorem failureOf_eq_some {view : ε → Option (Error τ)}
    (failed : failureOf view (program world) = some error) :
    ∃ cause after, program world = .error (.error cause) after ∧ view cause = some error := by
  cases result : program world with
  | ok value after => simp [failureOf, result] at failed
  | error stop after =>
    cases stop with
    | error cause => exact ⟨cause, after, rfl, by simpa [failureOf, result] using failed⟩
    | dropped => simp [failureOf, result] at failed
    | expired => simp [failureOf, result] at failed

/-- The session error of an operation is excused in the world the operation leaves behind. -/
theorem excused_of_wp {full : ClientWorld τ → Prop} {program : Client τ (Error τ) α}
    (spec : wp program (fun _ _ => True) (fun stop after => Excused full stop after)
      world) (failed : failureOf some (program world) = some error) :
    Excused full (.error error) (finish (program world)).2 := by
  obtain ⟨cause, after, result, same⟩ := failureOf_eq_some failed
  rw [wp, result] at spec
  rw [result, ← Option.some.inj same]
  exact spec

theorem excused_of_publish {full : ClientWorld τ → Prop} {program : Client τ (PubError π τ) α}
    (spec : wp program (fun _ _ => True)
      (fun stop after => ExcusedPublish full stop after) world)
    (failed : failureOf PubError.sessionError (program world) = some error) :
    Excused full (.error error) (finish (program world)).2 := by
  obtain ⟨cause, after, result, same⟩ := failureOf_eq_some failed
  rw [wp, result] at spec
  rw [result]
  -- Only an error of the session is reported as one.
  cases cause with
  | payload cause => simp [PubError.sessionError] at same
  | session cause =>
    rw [← Option.some.inj same]
    exact spec cause rfl

/-- What an operation on a live connection can mean by exhausted metadata. -/
def Exhausted (after : ClientWorld τ) : Prop := ReleasesFull after ∨ RetainedFull after

/-- Every error of an operation on a live connection is excused. -/
theorem Invocation.perform_excused (tidy : world.self.Tidy) (rest : world.self.Rest)
    (alive : world.self.live = true) (invocation : Invocation π τ)
    (operation : invocation.call.onHandle = true) (failed : invocation.failure world = some error) :
    Excused Exhausted (.error error) (invocation.perform world).2 := by
  -- What each operation can fail with is known; only the slot that was missing differs.
  obtain ⟨call, replies⟩ := invocation
  have reached : Reached world.moment { world with replies := replies } := ⟨.refl, rest⟩
  unfold perform
  cases call with
  | connect inbound => simp [Call.onHandle] at operation
  | handleDisconnect => simp [Call.onHandle] at operation
  | drive => exact (excused_of_wp (drive_excused tidy reached alive) failed).mono .inl
  | poll => exact (excused_of_wp (poll_excused tidy reached alive) failed).mono .inl
  | recv => exact (excused_of_wp (recv_excused tidy reached alive) failed).mono .inl
  | publish publication =>
    exact (excused_of_publish (publish_excused tidy reached alive publication) failed).mono .inr
  | subscribe topics properties =>
    exact (excused_of_wp (subscribe_excused tidy reached alive topics properties) failed).mono .inr
  | unsubscribe topics properties =>
    exact (excused_of_wp (unsubscribe_excused tidy reached alive topics properties) failed).mono .inr
  | disconnectWith disconnect =>
    exact excused_of_wp (disconnectWith_excused (by exact tidy) (by exact alive) disconnect) failed

theorem finished_of_wp {P : ClientWorld τ → Prop}
    (spec : wp program (fun _ after => P after) (fun _ after => P after) world) :
    P (finish (program world)).2 := by
  revert spec
  unfold wp
  cases program world with
  | ok value after => exact id
  | error stop after => cases stop <;> exact id

theorem finish_of_refused
    (refused : wp program (fun _ after => after = world) (fun _ after => after = world) world) :
    (finish (program world)).2 = world := finished_of_wp refused

theorem waitForProgress_of_dead {Q : Option Nat → ClientWorld τ → Prop}
    (dead : world.self.live = false) :
    wp (waitForProgress : Client τ (Error τ) (Option Nat)) Q (fun _ after => after = world)
      world := by
  unfold waitForProgress
  simp only [wp_bind, wp_rounds, wp_iterate_succ, drivePacket, wp_self, dead, Bool.not_false,
    if_true, wp_fail]

/-- An operation on a dead connection neither uses the transport nor changes anything. -/
theorem Invocation.perform_of_dead (dead : world.self.live = false) (invocation : Invocation π τ)
    (operation : invocation.call.onHandle = true) :
    (invocation.perform world).2 = { world with replies := invocation.replies } := by
  -- Each operation looks at the connection before it does anything else.
  obtain ⟨call, replies⟩ := invocation
  unfold perform
  cases call with
  | connect inbound => simp [Call.onHandle] at operation
  | handleDisconnect => simp [Call.onHandle] at operation
  | drive =>
    refine finish_of_refused ?_
    simp only [drive, drivePacket, wp_bind, wp_self, dead, Bool.not_false, if_true, wp_fail]
  | poll =>
    refine finish_of_refused ?_
    rw [poll, wp_bind]
    exact waitForProgress_of_dead dead
  | recv =>
    refine finish_of_refused ?_
    simp only [recv, wp_bind, wp_rounds, wp_iterate_succ]
    exact waitForProgress_of_dead dead
  | publish publication =>
    refine finish_of_refused ?_
    simp only [publish, wp_bind, wp_self, dead, Bool.not_false, if_true, wp_fail]
  | subscribe topics properties =>
    refine finish_of_refused ?_
    simp only [subscribe, wp_bind, wp_self, dead, Bool.not_false, if_true, wp_fail]
  | unsubscribe topics properties =>
    refine finish_of_refused ?_
    simp only [unsubscribe, wp_bind, wp_self, dead, Bool.not_false, if_true, wp_fail]
  | disconnectWith disconnect =>
    refine finish_of_refused ?_
    simp only [disconnectWith, wp_bind, wp_self, dead, Bool.not_false, if_true, wp_pure]

/-- Operations on a dead connection leave it as it is. -/
theorem run_of_dead (dead : world.self.live = false) {later : List (Invocation π τ)}
    (operations : ∀ invocation ∈ later, invocation.call.onHandle = true) :
    ∃ replies, run world later = { world with replies } := by
  induction later generalizing world with
  | nil => exact ⟨world.replies, rfl⟩
  | cons invocation rest ih =>
    rw [run, invocation.perform_of_dead dead (operations invocation (by simp))]
    exact ih (by exact dead) fun other found => operations other (List.mem_cons_of_mem _ found)

/--
The death of a connection is latched.

An operation on a live connection that returns a deadly error leaves nothing of the transport behind.
On a dead connection no operation uses the transport or changes the session.
-/
theorem run_death_latched (config : ConfigBuilder) (clock : Clock) (calls : List (Invocation π τ)) :
    ((run (start config clock) calls).self.live = true → ∀ invocation : Invocation π τ,
      invocation.call.onHandle = true → ∀ error,
        invocation.failure (run (start config clock) calls) = some error → error.isDeadly = true →
          (invocation.perform (run (start config clock) calls)).2.self.Latched) ∧
    ((run (start config clock) calls).self.live = false → ∀ later : List (Invocation π τ),
      (∀ invocation ∈ later, invocation.call.onHandle = true) →
        (run (start config clock) (calls ++ later)).self = (run (start config clock) calls).self ∧
        (run (start config clock) (calls ++ later)).trace = (run (start config clock) calls).trace ∧
        ∀ invocation : Invocation π τ, invocation.call.onHandle = true →
          (invocation.perform (run (start config clock) (calls ++ later))).2 =
            { run (start config clock) (calls ++ later) with replies := invocation.replies }) := by
  have settled := (settled_start config clock).run calls
  refine ⟨fun alive invocation operation error failed deadly => ?_, fun dead later operations => ?_⟩
  · exact (invocation.perform_excused settled.tidy settled.rest alive operation failed).latched
      error rfl deadly
  · obtain ⟨replies, same⟩ := run_of_dead dead operations
    rw [run_append, same]
    exact ⟨rfl, rfl, fun invocation operation => invocation.perform_of_dead (by exact dead) operation⟩

/-- A transport that fails while a client waits for input ends its connection. -/
theorem run_death_latched_transport :
    ((⟨.recv, [.fail ()]⟩ : Invocation Unit Unit).perform
      (run (start (smallConfig 60) (steppingClock 1 4)) [acceptedConnect])).2.self.Latched :=
  (run_death_latched (smallConfig 60) (steppingClock 1 4) [acceptedConnect]).1 (by decide +kernel)
    ⟨.recv, [.fail ()]⟩ rfl (.transport ()) (by decide +kernel) rfl

end Minimq

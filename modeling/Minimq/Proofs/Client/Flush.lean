import Minimq.Proofs.Client.Chapter

/-! No byte is written while a flush is suspended, and a clean connection has flushed all of them. -/

namespace Minimq

open Async Hoare History

variable {π τ : Type}

/-- The transport accepts bytes. -/
def Taking (event : Happening Event) : Prop := ∃ bytes, event = .accepted bytes

/-- A flush was started and has not completed. -/
def Suspended (record : List (Happening Event)) : Prop :=
  Since (· = .flushing) (· = .flushed) record

/-- Bytes were accepted, and no flush has completed since. -/
def Unflushed (record : List (Happening Event)) : Prop := Since Taking (· = .flushed) record

/-- Whenever bytes are accepted, no flush is suspended. -/
def Paused (record : List (Happening Event)) : Prop :=
  ∀ early bytes late, record = early ++ .accepted bytes :: late → ¬ Suspended early

/-- What a connection has flushed agrees with its flush state. -/
def Flushes : Chronicle := fun connection _ _ _ back =>
  Paused back ∧ (connection.live = true →
    (connection.flushState ≠ .flushing → ¬ Suspended back) ∧
    (connection.flushState = .clean → ¬ Unflushed back))

section Flushing

variable {base back events : List (Happening Event)} {before after : ClientMoment}

/-- More bytes are accepted only while no flush is suspended. -/
theorem Paused.append (paused : Paused back)
    (apart : ∀ early bytes late, events = early ++ .accepted bytes :: late →
      ¬ Suspended (back ++ early)) : Paused (back ++ events) := by
  -- The bytes in question are among the new ones, or were accepted before.
  intro early bytes late same
  rcases List.append_eq_append_iff.mp same with ⟨rest, rfl, tail⟩ | ⟨rest, rfl, tail⟩
  · exact apart rest bytes late tail
  · cases rest with
    | nil =>
      have first := apart [] bytes late (by simpa using tail.symm)
      simpa using first
    | cons head rest =>
      obtain ⟨rfl, rfl⟩ := List.cons.inj tail
      exact paused early bytes rest rfl

theorem Paused.silent (paused : Paused back) (silent : ∀ event ∈ events, ¬ Taking event) :
    Paused (back ++ events) := by
  refine paused.append fun early bytes late same => ?_
  exact absurd ⟨bytes, rfl⟩ (silent (.accepted bytes) (by simp [same]))

/-- An occurrence that is not about accepted bytes or a flush. -/
def Still (event : Happening Event) : Prop :=
  ¬ Taking event ∧ event ≠ .flushing ∧ event ≠ .flushed ∧ ¬ Starts event

/-- Neither accepts nor flushes anything. -/
theorem Throughout.still (all : Throughout Flushes base before)
    (trace : after.trace = before.trace ++ events) (still : ∀ event ∈ events, Still event)
    (same : after.self.live = true → before.self.live = true ∧
      after.self.flushState = before.self.flushState) : Throughout Flushes base after := by
  -- Neither kind of interval is opened or closed by what happens here.
  refine all.append trace (fun event found => (still event found).2.2.2) ?_
  rintro front state ack back - ⟨paused, now⟩
  refine ⟨paused.silent fun event found => (still event found).1, fun live => ?_⟩
  obtain ⟨alive, flushState⟩ := same live
  rw [flushState]
  refine ⟨fun idle since => (now alive).1 idle ?_, fun clean since => (now alive).2 clean ?_⟩
  · exact since_of_append (fun event found => (still event found).2.1) since
  · exact since_of_append (fun event found => (still event found).1) since

/-- A packet is handed over on a clean connection. -/
theorem Paused.handover {packet : Bytes} {chunks : List Bytes} {drain : List (Happening Event)}
    (paused : Paused back) (idle : ¬ Suspended back) (drained : ∀ event ∈ drain, ¬ Taking event) :
    Paused (back ++ handover packet chunks drain) := by
  -- Nothing but the packet itself lies between the last flush and these bytes.
  refine paused.append fun early bytes late same => ?_
  obtain ⟨rest, -, split⟩ := split_of_append drained ⟨bytes, rfl⟩ same
  intro since
  refine idle (since_of_append (fun event found => ?_) since)
  have mem : event ∈ Happening.noted (Event.direct packet) :: chunks.map .accepted := by
    rw [split]
    exact List.mem_append_left _ found
  rcases List.mem_cons.mp mem with rfl | mem
  · simp
  · obtain ⟨chunk, -, rfl⟩ := List.mem_map.mp mem
    simp

/-- Writing, flushing and keepalive keep the flush state up to date. -/
theorem Outflow.flushes (step : Outflow τ before after) (all : Throughout Flushes base before) :
    Throughout Flushes base after := by
  cases step with
  | tick later => exact all
  | wrote alive idle next encoded positive within later =>
    refine all.append rfl (by simp [Starts])
      fun latest ⟨paused, now⟩ => ⟨?_, fun _ => ⟨fun _ => ?_, ?_⟩⟩
    · refine paused.append fun early bytes late same => ?_
      -- The accepted bytes are the first of the two occurrences.
      have none : early = [] := by rcases early with _ | ⟨_, _ | ⟨_, _⟩⟩ <;> simp_all
      rw [none, List.append_nil]
      exact (now alive).1 idle
    · intro since
      exact (now alive).1 idle (since_of_append (by simp) since)
    · intro clean
      dsimp only at clean
      rw [Connection.afterWrite_flushState] at clean
      cases clean
  | flushing alive ready =>
    refine all.append rfl (by simp [Starts]) fun latest ⟨paused, now⟩ => ⟨?_, fun _ => ⟨?_, ?_⟩⟩
    · exact paused.silent (by simp [Taking])
    · exact fun idle => absurd rfl idle
    · exact fun clean => by cases clean
  | flushed alive flushing later =>
    refine all.append rfl (by simp [Starts]) fun latest ⟨paused, now⟩ => ⟨?_, fun _ => ⟨?_, ?_⟩⟩
    · exact paused.silent (by simp [Taking])
    · exact fun _ => not_since_of_closed rfl (by simp) (by simp)
    · exact fun _ => not_since_of_closed rfl (by simp [Taking]) (by simp [Taking])
  | disconnected => exact all.still (List.append_nil _).symm (by simp) fun live => by cases live
  | pinged alive quiet due queued =>
    exact all.still (List.append_nil _).symm (by simp) fun _ => ⟨alive, rfl⟩

/-- Every transition keeps the flush state up to date. -/
theorem Step.flushes (step : Step τ before after) (all : Throughout Flushes base before) :
    Throughout Flushes base after := by
  -- Only bytes that are accepted and flushes matter; the others leave the flush state.
  cases step with
  | outflow step => exact step.flushes all
  | upkeep step =>
    cases step with
    | reading =>
      refine all.still rfl (fun event found => ?_) fun live => ⟨live, rfl⟩
      obtain ⟨bytes, -, rfl⟩ := List.mem_map.mp found
      simp [Still, Taking, Starts]
    | scratched kept => exact all.still (List.append_nil _).symm (by simp) fun live => ⟨live, rfl⟩
    | skipped => exact all.still (List.append_nil _).symm (by simp) fun live => ⟨live, rfl⟩
  | opening step =>
    exact all.opening step fun trace => all.still trace (by simp) fun live =>
      absurd (step.dead.symm.trans live) Bool.false_ne_true
  | handled packet alive quiet =>
    refine all.still rfl (by simp [Still, Taking, Starts]) fun live => ⟨alive, ?_⟩
    obtain ⟨taken, state, handled, same | same⟩ := before.self.handle_cases packet
    · dsimp only
      rw [same]
      rfl
    · dsimp only at live
      rw [same] at live
      cases live
  | admitted admissible =>
    exact all.still rfl (by simp [Still, Taking, Starts]) fun _ =>
      ⟨admissible.alive, Connection.enlist_flushState⟩
  | direct ready whole later =>
    refine all.append rfl (fun event found => (routine_whole event found).not_starts)
      fun latest known => ⟨?_, fun _ => ⟨fun _ => ?_, fun _ => ?_⟩⟩
    · obtain ⟨paused, now⟩ := known
      exact paused.handover ((now ready.alive).1 (by rw [ready.quiet.2]; simp)) (by simp [Taking])
    · rw [Suspended, handover_whole]
      exact not_since_of_closed rfl (by simp) (by simp)
    · rw [Unflushed, handover_whole]
      exact not_since_of_closed rfl (by simp [Taking]) (by simp [Taking])
  | broken ready part =>
    refine all.append rfl (fun event found => (part.routine event found).not_starts)
      fun latest known => ⟨?_, fun live => by cases live⟩
    obtain ⟨paused, now⟩ := known
    refine paused.handover ((now ready.alive).1 (by rw [ready.quiet.2]; simp)) ?_
    cases part <;> simp [Taking]
  | opened => exact all.opened rfl
  | reset closed =>
    refine all.still rfl (by simp [Still, Taking, Starts]) fun live => ?_
    have live : before.self.live = true := live
    rw [closed] at live
    cases live
  | connected closed later sized reserved quota limit state =>
    subst state
    refine all.connected rfl ?_ ⟨fun early bytes late same => by simp at same, fun _ => ?_⟩
    · rintro front state ack back ⟨paused, now⟩
      refine ⟨paused.silent (by simp [Taking]), fun live => ?_⟩
      rw [closed] at live
      cases live
    · exact ⟨fun _ => not_since_nil, fun _ => not_since_nil⟩

end Flushing

/--
On every connection, no byte is written while a flush is suspended, and nothing is left to flush on
a clean one; `drive` returns without a publication only if nothing is left to write or to flush.
-/
theorem run_flush_discipline (config : ConfigBuilder) (clock : Clock)
    (earlier calls : List (Invocation π τ))
    (unbroken : Unbroken (run (start config clock) earlier) calls) :
    let base := (run (start config clock) earlier).trace
    let world := run (run (start config clock) earlier) calls
    (∀ front state ack back, base <+: front →
      Chapter Starts world.trace front (.noted (.connected state ack)) back → Paused back) ∧
    (∀ front state ack back, base <+: front →
      Latest Starts world.trace front (.noted (.connected state ack)) back →
      world.self.live = true → world.self.flushState = .clean → ¬ Unflushed back) ∧
    (∀ (replies : List (Reply τ)) (after : ClientWorld τ),
      drive { world with replies } = .ok none after →
      after.self.outbound.nextStep = none ∧ after.self.flushState = .clean ∧
      ∀ front state ack back, base <+: front →
        Latest Starts after.trace front (.noted (.connected state ack)) back → ¬ Unflushed back) := by
  intro base world
  have all {calls : List (Invocation π τ)}
      (unbroken : Unbroken (run (start config clock) earlier) calls) :
      Throughout Flushes base (run (run (start config clock) earlier) calls).moment :=
    .run config clock unbroken fun step _ => step.flushes
  refine ⟨fun front state ack back during chapter => ?_,
    fun front state ack back during latest live clean => ?_, fun replies after done => ?_⟩
  · obtain ⟨connection, paused, -⟩ := (all unbroken).each chapter during state ack rfl
    exact paused
  · exact (((all unbroken).now latest during state ack rfl).2 live).2 clean
  · have settled := ((settled_start config clock).run earlier).run calls
    have reached : Reached world.moment { world with replies } := ⟨.refl, settled.rest⟩
    obtain ⟨progress, driven, undelivered⟩ := drive_driven settled.tidy reached done
    have quiet := driven.quiet.resolve_left fun ⟨length, same⟩ => undelivered length same
    refine ⟨quiet.1, quiet.2, fun front state ack back during latest => ?_⟩
    -- The call of `drive` is one more call of the run.
    have performed : (⟨.drive, replies⟩ : Invocation π τ).perform world = (.returned, after) :=
      congrArg finish done
    have more := all (unbroken_append.mpr ⟨unbroken,
      (show Unbroken world [⟨.drive, replies⟩] from ⟨fun _ => rfl, trivial⟩)⟩)
    rw [run_append, run, run, show run (run (start config clock) earlier) calls = world from rfl,
      performed] at more
    exact ((more.now latest during state ack rfl).2 driven.alive).2 quiet.2

/-- A publication that is written in two parts and flushed. -/
theorem run_flush_discipline_publication : ∃ front state ack back,
    Latest Starts (run (start (smallConfig 0) (steppingClock 0 0)) sentPublication).trace front
      (.noted (.connected state ack)) back ∧ Paused back ∧ ¬ Unflushed back := by
  obtain ⟨front, state, ack, back, trace, last⟩ := run_connected (smallConfig 0) (steppingClock 0 0)
    sentPublication (by decide +kernel)
  have latest : Latest Starts _ front (.noted (.connected state ack)) back :=
    ⟨trace, .inr ⟨state, ack, rfl⟩, last⟩
  obtain ⟨paused, flushed, -⟩ := run_flush_discipline (smallConfig 0) (steppingClock 0 0) []
    sentPublication (by decide +kernel)
  exact ⟨front, state, ack, back, latest, paused front state ack back List.nil_prefix (.latest latest),
    flushed front state ack back List.nil_prefix latest (by decide +kernel) (by decide +kernel)⟩

end Minimq

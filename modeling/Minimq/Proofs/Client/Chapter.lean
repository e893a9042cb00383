import Minimq.Proofs.Client.Acknowledge
import Minimq.Proofs.Client.Ledger
import Minimq.Proofs.Client.Tenure

/-! What holds on each connection of a run, from the broker's answer to the next attempt. -/

namespace Minimq

open Async History

variable {π τ : Type}

/-- What is known about every moment of a run. -/
structure Grounded (moment : ClientMoment) : Prop where
  /-- The progress of tracked packets agrees with the connection, and control packets are few. -/
  sparse : Sparse moment
  /-- The identifiers in use are distinct. -/
  identified : moment.self.outbound.Identified
  /-- The retained packets are on file. -/
  archived : ∃ files, Archived files moment
  /-- A live connection was established. -/
  established : moment.self.live = true → ∃ state ack, Established moment state ack

/-- Every move keeps all of it. -/
theorem Move.grounded {before after : ClientMoment} (move : Move τ before after)
    (grounded : Grounded before) : Grounded after := by
  -- The connection may be a new one, so its terms are carried over by the tenure.
  have established := fun live => (move.tenure live).established grounded.established
  cases move with
  | step step =>
    exact ⟨step.sparse grounded.sparse, step.identified grounded.identified,
      step.archived grounded.archived, established⟩
  | torn torn =>
    exact ⟨torn.sparse grounded.sparse, torn.self ▸ grounded.identified,
      torn.archived grounded.archived, established⟩

theorem Moves.grounded {before after : ClientMoment} (moves : Moves τ before after)
    (grounded : Grounded before) : Grounded after := by
  induction moves with
  | refl => exact grounded
  | tail _ move ih => exact move.grounded ih

theorem run_grounded (config : ConfigBuilder) (clock : Clock) (calls : List (Invocation π τ)) :
    Grounded (run (start config clock) calls).moment where
  sparse := run_sparse config clock calls
  identified := run_identified config clock calls
  archived := run_archived config clock calls
  established := run_established config clock calls

/-- A live connection keeps to the size limit of the answer with which it began. -/
theorem Grounded.sized {moment : ClientMoment} (grounded : Grounded moment)
    (alive : moment.self.live = true) {front back : List (Happening Event)} {state : Handling}
    {ack : ConnAck} (latest : Latest Starts moment.trace front (.noted (.connected state ack)) back) :
    moment.self.runtime.maximumPacketSize = ack.maximumPacketSize := by
  obtain ⟨other, answer, established⟩ := grounded.established alive
  obtain ⟨start, rest, split, last⟩ := established.since
  obtain ⟨-, same, -⟩ := latest.unique ⟨split, .inr ⟨_, _, rfl⟩, last⟩
  cases same
  exact established.terms.maximumPacketSize.trans established.sized

/--
What happened on a connection fits its present state.

For a connection that has ended, it fits the state in which it ended.
-/
abbrev Chronicle := Connection → (front : List (Happening Event)) → Handling → ConnAck →
  (back : List (Happening Event)) → Prop

/-- It does so on every connection that was established after a part of the record. -/
def Throughout (chronicle : Chronicle) (base : List (Happening Event)) (moment : ClientMoment) :
    Prop :=
  Told Starts
    (fun front first back => base <+: front → ∀ state ack, first = .noted (.connected state ack) →
      ∃ connection, chronicle connection front state ack back)
    (fun front first back => base <+: front → ∀ state ack, first = .noted (.connected state ack) →
      chronicle moment.self front state ack back)
    moment.trace

namespace Throughout

variable {chronicle : Chronicle} {base events : List (Happening Event)}
  {before after : ClientMoment}

/-- No connection was established after the end of the record. -/
theorem refl (moment : ClientMoment) : Throughout chronicle moment.trace moment := by
  -- A chapter begins strictly inside the record.
  have none {front back : List (Happening Event)} {first : Happening Event}
      (chapter : Chapter Starts moment.trace front first back) (during : moment.trace <+: front) :
      False := by
    have fewer := during.length_le
    have more := chapter.length_lt
    omega
  exact ⟨fun chapter during => (none chapter during).elim,
    fun latest during => (none (.latest latest) during).elim⟩

/-- The last connection goes on. -/
theorem append (all : Throughout chronicle base before)
    (trace : after.trace = before.trace ++ events) (silent : ∀ event ∈ events, ¬ Starts event)
    (kept : ∀ {front state ack back},
      Latest Starts before.trace front (.noted (.connected state ack)) back →
      chronicle before.self front state ack back →
        chronicle after.self front state ack (back ++ events)) :
    Throughout chronicle base after := by
  unfold Throughout
  rw [trace]
  refine Told.append all silent (fun latest known during state ack same => ?_)
    (fun known during state ack same => ⟨after.self, known during state ack same⟩)
  subst same
  exact kept latest (known during state ack rfl)

/-- Nothing happens on a connection while the next one is being established. -/
theorem attempt (all : Throughout chronicle base before)
    (trace : after.trace = before.trace ++ events) (silent : ∀ event ∈ events, ¬ Starts event)
    (attempt : Since (· = .noted .opened) Starts before.trace) :
    Throughout chronicle base after := by
  refine all.append trace silent fun latest _ => ?_
  obtain ⟨start, first, rest, split, rfl, last⟩ := attempt
  obtain ⟨-, same, -⟩ := latest.unique ⟨split, .inl rfl, last⟩
  cases same

/-- What is done to establish a connection is not recorded, except the bytes of the request. -/
theorem opening (all : Throughout chronicle base before) (step : Opening before after)
    (unheard : after.trace = before.trace ++ [] → Throughout chronicle base after) :
    Throughout chronicle base after := by
  cases step with
  | preamble closed transport sought =>
    -- The attempt was noted before, so these bytes belong to no connection.
    exact all.attempt rfl (fun event found => (routine_preamble transport event found).not_starts)
      sought
  | _ => exact unheard (List.append_nil _).symm

theorem opened (all : Throughout chronicle base before)
    (trace : after.trace = before.trace ++ [.noted .opened]) :
    Throughout chronicle base after := by
  unfold Throughout
  rw [trace]
  refine Told.concat all (.inl rfl) (fun during state ack same => by simp at same) ?_
  exact fun known during state ack same => ⟨after.self, known during state ack same⟩

/-- The broker's answer begins a connection. -/
theorem connected {now : Nat} {ack : ConnAck} (all : Throughout chronicle base before)
    (trace : after.trace = before.trace ++
      [.noted (.active now), .noted (.connected after.self.session.handling ack)])
    (ended : ∀ {front state ack back}, chronicle before.self front state ack back →
      chronicle before.self front state ack (back ++ [.noted (.active now)]))
    (begins : chronicle after.self (before.trace ++ [.noted (.active now)])
      after.self.session.handling ack []) :
    Throughout chronicle base after := by
  -- The reading of the clock still belongs to the chapter that ends.
  have restarted : Throughout chronicle base
      { before with trace := before.trace ++ [.noted (.active now)] } :=
    all.append rfl (by simp [Starts]) fun latest known => ended known
  unfold Throughout
  rw [trace, show before.trace ++ [_, _] = (before.trace ++ [.noted (.active now)]) ++
    [.noted (.connected after.self.session.handling ack)] by simp]
  refine Told.concat restarted (.inr ⟨_, _, rfl⟩) (fun during state answer same => ?_)
    (fun known during state ack same => ⟨after.self, known during state ack same⟩)
  cases same
  exact begins

/-- What every transition keeps holds on every connection established by calls that tear nothing. -/
theorem run (config : ConfigBuilder) (clock : Clock) {earlier calls : List (Invocation π τ)}
    (unbroken : Unbroken (run (start config clock) earlier) calls)
    (one : ∀ {base before after}, Step τ before after → Grounded before →
      Throughout chronicle base before → Throughout chronicle base after) :
    Throughout chronicle (Minimq.run (start config clock) earlier).trace
      (Minimq.run (Minimq.run (start config clock) earlier) calls).moment :=
  (Steps.keep (P := fun moment => Grounded moment ∧ Throughout chronicle _ moment)
    (((settled_start config clock).run earlier).steps unbroken)
    (fun step known => ⟨(Move.step step).grounded known.1, one step known.1 known.2⟩)
    ⟨run_grounded config clock earlier, .refl _⟩).2

end Throughout

end Minimq

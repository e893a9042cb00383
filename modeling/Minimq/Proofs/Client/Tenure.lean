import Minimq.Proofs.Client.Run

/-! A live connection goes on under the terms of the answer with which it began. -/

namespace Minimq

open Async

variable {π τ : Type} {before after : ClientMoment}

/-- Only the quota and the timers changed. -/
def RuntimeState.SameTerms (before after : RuntimeState) : Prop :=
  after = { before with
    sendQuota := after.sendQuota
    nextPing := after.nextPing
    pingTimeout := after.pingTimeout }

namespace RuntimeState.SameTerms

variable {before after : RuntimeState}

theorem maxSendQuota (terms : before.SameTerms after) : after.maxSendQuota = before.maxSendQuota := by
  rw [terms]

theorem maximumPacketSize (terms : before.SameTerms after) :
    after.maximumPacketSize = before.maximumPacketSize := by
  rw [terms]

theorem trans {later : RuntimeState} (one : before.SameTerms after) (two : after.SameTerms later) :
    before.SameTerms later := by
  unfold SameTerms at *
  rw [two, one]

end RuntimeState.SameTerms

/-- How a connection came to be live. -/
inductive Tenure (before after : ClientMoment) : Prop where
  /-- It was live before, under the same terms. -/
  | goes_on {events : List (Happening Event)} (alive : before.self.live = true)
      (terms : before.self.runtime.SameTerms after.self.runtime)
      (trace : after.trace = before.trace ++ events) (silent : ∀ event ∈ events, ¬ Starts event)
  /-- Its handshake completed. -/
  | begins {now : Nat} {ack : ConnAck} (closed : before.self.live = false)
      (same : after.self.outbound = before.self.outbound)
      (sized : after.self.runtime.maximumPacketSize = ack.maximumPacketSize)
      (limit : after.self.runtime.maxSendQuota ≤ min ack.receiveMaximum Outbound.maxInflight)
      (trace : after.trace = before.trace ++
        [.noted (.active now), .noted (.connected after.self.session.handling ack)])

theorem Handled.terms {packet : ReceivedPacket} {taken : Taken} {before after : Handling}
    (handled : Handled packet before taken after) : before.runtime.SameTerms after.runtime := by
  cases handled <;> rfl

theorem Connection.afterWrite_terms {connection : Connection} {step : OutboundStep}
    {current : WriteStep} {count now : Nat} :
    connection.runtime.SameTerms (connection.afterWrite step current count now).runtime := by
  unfold afterWrite
  dsimp only
  split <;> rfl

theorem Connection.enlist_terms {connection : Connection} {kind : OpKind} {buf : Bytes}
    {retained : FixedVec RetainedPacket maxRetained} :
    connection.runtime.SameTerms (connection.enlist kind buf retained).runtime := by
  unfold enlist
  dsimp only
  split <;> rfl

/-- Writing, flushing and keepalive do not change the terms of a live connection. -/
theorem Outflow.tenure (step : Outflow τ before after)
    (live : after.self.live = true) : Tenure before after := by
  cases step with
  | tick later => exact .goes_on live rfl (List.append_nil _).symm (by simp)
  | wrote alive idle next encoded positive within later =>
    exact .goes_on alive Connection.afterWrite_terms rfl (by simp [Starts])
  | flushing alive ready => exact .goes_on alive rfl rfl (by simp [Starts])
  | flushed alive flushing later => exact .goes_on alive rfl rfl (by simp [Starts])
  | disconnected => cases live
  | pinged alive quiet due queued => exact .goes_on alive rfl (List.append_nil _).symm (by simp)

/-- A transition that leaves the connection live keeps it live, or establishes it. -/
theorem Step.tenure (step : Step τ before after)
    (live : after.self.live = true) : Tenure before after := by
  -- Only the handshake makes a connection live, and nothing else changes its terms.
  cases step with
  | outflow step => exact step.tenure live
  | upkeep step =>
    cases step with
    | reading =>
      exact .goes_on live rfl rfl fun event found => (routine_map .received _ event found).not_starts
    | scratched kept => exact .goes_on live rfl (List.append_nil _).symm (by simp)
    | skipped => exact .goes_on live rfl (List.append_nil _).symm (by simp)
  | opening step =>
    rw [step.dead] at live
    cases live
  | handled packet alive quiet =>
    obtain ⟨taken, state, handled, same | same⟩ := before.self.handle_cases packet
    · refine .goes_on alive ?_ rfl (by simp [Starts])
      dsimp only
      rw [same]
      exact handled.terms
    · dsimp only at live
      rw [same] at live
      cases live
  | admitted admissible =>
    exact .goes_on admissible.alive Connection.enlist_terms rfl (by simp [Starts])
  | direct ready whole later =>
    exact .goes_on ready.alive rfl rfl fun event found => (routine_whole event found).not_starts
  | broken ready part => cases live
  | opened => cases live
  | reset closed =>
    have live : before.self.live = true := live
    rw [closed] at live
    cases live
  | connected closed later sized reserved quota limit state =>
    subst state
    exact .begins closed rfl sized limit rfl

/-- A move that leaves the connection live keeps it live, or establishes it. -/
theorem Move.tenure (move : Move τ before after)
    (live : after.self.live = true) : Tenure before after := by
  cases move with
  | step step => exact step.tenure live
  | torn torn =>
    cases torn with
    | torn ready part =>
      exact .goes_on live rfl rfl fun event found => (part.routine event found).not_starts

/-- The answer under which a connection is live. -/
structure Established (moment : ClientMoment) (state : Handling) (ack : ConnAck) : Prop where
  /-- The connection began with the answer, and no other was opened since. -/
  since : ∃ front back, moment.trace = front ++ .noted (.connected state ack) :: back ∧
    ∀ event ∈ back, ¬ Starts event
  /-- The terms are still the same. -/
  terms : state.runtime.SameTerms moment.self.runtime
  /-- The size limit is that of the answer. -/
  sized : state.runtime.maximumPacketSize = ack.maximumPacketSize
  /-- The quota is within the limit of the answer and the number of slots. -/
  limit : state.runtime.maxSendQuota ≤ min ack.receiveMaximum Outbound.maxInflight

/-- A connection that goes on is still the established one. -/
theorem Established.append {state : Handling} {ack : ConnAck}
    {events : List (Happening Event)} (established : Established before state ack)
    (terms : before.self.runtime.SameTerms after.self.runtime)
    (trace : after.trace = before.trace ++ events) (silent : ∀ event ∈ events, ¬ Starts event) :
    Established after state ack := by
  obtain ⟨front, back, same, quiet⟩ := established.since
  refine ⟨⟨front, back ++ events, by rw [trace, same]; simp, fun event found => ?_⟩,
    established.terms.trans terms, established.sized, established.limit⟩
  rcases List.mem_append.mp found with found | found
  · exact quiet event found
  · exact silent event found

/-- Every live connection was established. -/
theorem Tenure.established (tenure : Tenure before after)
    (known : before.self.live = true → ∃ state ack, Established before state ack) :
    ∃ state ack, Established after state ack := by
  cases tenure with
  | goes_on alive terms trace silent =>
    obtain ⟨state, ack, established⟩ := known alive
    exact ⟨state, ack, established.append terms trace silent⟩
  | @begins now ack closed same sized limit trace =>
    -- A new connection is its own beginning: nothing follows its record yet.
    refine ⟨after.self.session.handling, ack,
      ⟨before.trace ++ [.noted (.active now)], [], ?_, by simp⟩, rfl, sized, limit⟩
    rw [trace, List.append_assoc]
    rfl

/-- In every run a live connection was established. -/
theorem run_established (config : ConfigBuilder) (clock : Clock) (calls : List (Invocation π τ))
    (live : (run (start config clock) calls).self.live = true) :
    ∃ state ack, Established (run (start config clock) calls).moment state ack := by
  revert live
  refine run_moves (P := fun moment => moment.self.live = true →
    ∃ state ack, Established moment state ack) (fun live => ?_)
    (fun move known live => (move.tenure live).established known) calls
  cases live

theorem run_connected (config : ConfigBuilder) (clock : Clock) (calls : List (Invocation π τ))
    (live : (run (start config clock) calls).self.live = true) : ∃ front state ack back,
      (run (start config clock) calls).trace = front ++ .noted (.connected state ack) :: back ∧
      ∀ event ∈ back, ¬ Starts event := by
  obtain ⟨state, ack, established⟩ := run_established config clock calls live
  obtain ⟨front, back, trace, last⟩ := established.since
  exact ⟨front, state, ack, back, trace, last⟩

end Minimq

import Minimq.Lib.AsyncRules
import Minimq.Client.Transition
import Minimq.Proofs.Client.Outbound

/-! Writing, flushing and keepalive follow the outflow transitions. -/

namespace Minimq

open Hoare Async

variable {τ : Type} {origin : ClientMoment} {world : ClientWorld τ}

/-- Any number of outflow transitions. -/
abbrev Flow (τ : Type) := Relation.ReflTransGen (Outflow τ)

theorem Outflow.alive {before after : ClientMoment} (step : Outflow τ before after)
    (alive : after.self.live = true) : before.self.live = true := by
  cases step with
  | tick later => exact alive
  | wrote live idle next encoded positive within later => exact live
  | flushing live ready => exact live
  | flushed live flushing later => exact live
  | disconnected => cases alive
  | pinged live quiet due queued => exact live

theorem Flow.sampled (flow : Flow τ origin world.moment) :
    Flow τ origin (World.moment { world with samples := world.samples + 1 }) :=
  flow.tail (.tick (time_le_reading world))

theorem Flow.given_up (flow : Flow τ origin world.moment) :
    Flow τ origin (World.moment { world with self := world.self.handleDisconnect }) :=
  flow.tail .disconnected

/-- The keepalive interval was restarted at this instant. -/
def Renewed (world : ClientWorld τ) : Prop :=
  world.self.runtime.nextPing = world.self.runtime.keepaliveSendInterval.map (world.time + ·)

/-- What is known when a round of outbound progress had something to do. -/
structure Worked (before after : ClientWorld τ) : Prop where
  /-- It took a reply. -/
  fewer : after.replies.length < before.replies.length
  /-- If nothing is left to flush, the last flush restarted the keepalive interval. -/
  renewed : after.self.flushState = .clean → Renewed after

/-- A flush begins and completes, or leaves the connection flushing or dead. -/
theorem flushCurrent_spec (flow : Flow τ origin world.moment)
    (ready : world.self.flushState = .flushing ∨
      (world.self.flushState = .dirty ∧ world.self.outbound.nextStep = none)) :
    wp flushCurrent (fun _ after => Flow τ origin after.moment ∧ after.self.live = true ∧
        Worked world after)
      (fun _ after => Flow τ origin after.moment) world := by
  -- Asking for the flush is a transition of its own, which a dropped call leaves behind.
  unfold flushCurrent
  simp only [wp_bind, wp_self, wp_ite, wp_fail, wp_update]
  split
  · exact flow
  · rename_i alive
    simp only [Bool.not_eq_true', Bool.not_eq_false] at alive
    have entered := flow.tail (.flushing alive ready)
    refine wp_flush (fun error rest _ => ?_) (fun rest fewer => ?_) (fun rest => entered)
      (fun rest _ => entered)
    · simp only [disconnected, wp_bind, wp_update, wp_fail]
      exact entered.tail .disconnected
    · simp only [updateOutbound, updateRuntime, wp_bind, wp_now, wp_note, wp_update]
      have done := entered.tail (.flushed alive rfl (time_le_reading world))
      dsimp only at done
      refine ⟨?_, alive, fewer, fun _ => rfl⟩
      change Flow τ origin ⟨_, ((world.trace ++ [_]) ++ [_]) ++ [_], _⟩
      rw [List.append_assoc (world.trace ++ _)]
      exact done

/-- Writing the next packet writes some of it, or gives the connection up. -/
theorem performOutboundStep_spec {step : OutboundStep} (flow : Flow τ origin world.moment)
    (idle : world.self.flushState ≠ .flushing)
    (next : world.self.outbound.nextStep = some step) :
    wp (performOutboundStep step) (fun progress after =>
        progress = true ∧ Flow τ origin after.moment ∧ after.self.live = true ∧
          Worked world after)
      (fun _ after => Flow τ origin after.moment) world := by
  unfold performOutboundStep
  simp only [currentSession, wp_bind, wp_self, wp_pure, wp_ofExcept]
  cases encoded : (writeStep world.self.session step : Except (Error τ) WriteStep) with
  | error error => exact flow
  | ok current =>
    simp only [wp_ite, wp_bind, wp_fail]
    split
    · exact flow
    · rename_i alive
      simp only [Bool.not_eq_true', Bool.not_eq_false] at alive
      unfold writeCurrent
      rw [wp_bind]
      refine wp_write _ (fun error rest _ => ?_) (fun rest _ => ?_)
        (fun count rest fewer positive within => ?_) (fun rest => flow) (fun rest _ => flow)
      · simp only [wp_pure, disconnected, wp_bind, wp_update, wp_fail]
        exact Flow.given_up flow
      · simp only [wp_pure, disconnected, wp_bind, wp_update, wp_fail]
        exact Flow.given_up flow
      · obtain ⟨count, rfl⟩ := Nat.exists_eq_succ_of_ne_zero (Nat.pos_iff_ne_zero.mp positive)
        simp only [wp_pure, wp_bind, wp_update, updateOutbound, wp_note, wp_ite]
        split
        · -- The last byte of a PINGREQ starts the wait for its answer.
          rename_i ping
          simp only [updateRuntime, wp_bind, wp_now, wp_update, wp_pure, true_and]
          refine ⟨?_, alive, fewer, fun clean => by cases clean⟩
          have wrote := flow.tail (Outflow.wrote alive idle next encoded positive within
            (time_le_reading world))
          rw [Connection.afterWrite, if_pos ping] at wrote
          change Flow τ origin ⟨_, (world.trace ++ [_]) ++ [_], _⟩
          rw [List.append_assoc]
          exact wrote
        · rename_i other
          simp only [true_and]
          refine ⟨?_, alive, fewer, fun clean => by cases clean⟩
          have wrote := flow.tail (Outflow.wrote alive idle next encoded positive within
            (Nat.le_refl world.time))
          rw [Connection.afterWrite, if_neg other] at wrote
          change Flow τ origin ⟨_, (world.trace ++ [_]) ++ [_], _⟩
          rw [List.append_assoc]
          exact wrote

/-- What is known when a round of outbound progress had nothing to do. -/
structure Rested (before after : ClientWorld τ) : Prop where
  /-- Nothing happened. -/
  same : after = before
  /-- Nothing is left to write or to flush. -/
  quiet : after.self.Quiet
  /-- No PINGREQ is due. -/
  undue : shouldQueuePingreq after.self.session after.time = false

/-- A PINGREQ is queued exactly if one is due. -/
theorem maybeQueuePingreq_spec (flow : Flow τ origin world.moment)
    (alive : world.self.live = true) (quiet : world.self.Quiet) {now : Nat}
    (timed : world.time = now) :
    wp (maybeQueuePingreq now) (fun _ after => Flow τ origin after.moment ∧
        after.self.live = true ∧ after.self.flushState = .clean ∧
        after.replies = world.replies ∧
        (after.self.outbound.nextStep = none → Rested world after))
      (fun _ after => Flow τ origin after.moment) world := by
  -- If one is due, a check that fails leaves everything as it was.
  subst timed
  unfold maybeQueuePingreq
  simp only [currentSession, wp_bind, wp_self, wp_pure, wp_ite]
  split
  · rename_i due
    cases checkControlPacketSize world.self.session.runtime.maximumPacketSize .pingReq with
    | error error => exact flow
    | ok value =>
      cases queued : world.self.session.data.outbound.queueControl .pingReq with
      | error error => exact flow
      | ok outbound =>
        simp only [updateOutbound, wp_update]
        exact ⟨flow.tail (.pinged alive quiet due queued), alive, quiet.2, trivial,
          fun none => absurd none (Outbound.nextStep_of_queueControl queued)⟩
  · rename_i undue
    exact ⟨flow, alive, quiet.2, trivial, fun _ => ⟨rfl, quiet, Bool.eq_false_of_not_eq_true undue⟩⟩

/-- One round of outbound progress takes a reply, unless there is nothing to do. -/
theorem serviceOutboundOnce_spec (flow : Flow τ origin world.moment)
    (alive : world.self.live = true) {now : Nat} (timed : world.time = now) :
    wp (serviceOutboundOnce now) (fun progress after => Flow τ origin after.moment ∧
        after.self.live = true ∧ (progress = true → Worked world after) ∧
        (progress = false → Rested world after))
      (fun _ after => Flow τ origin after.moment) world := by
  -- A flush that was begun goes first, then bytes, then a flush that is needed, then a PINGREQ.
  unfold serviceOutboundOnce
  simp only [currentOutbound, wp_bind, wp_self, wp_pure, wp_ite]
  split
  · rename_i flushing
    refine wp_mono (flushCurrent_spec flow (.inl flushing)) (fun _ after done => ?_) (fun _ _ => id)
    exact ⟨done.1, done.2.1, fun _ => done.2.2, fun no => by simp at no⟩
  · rename_i idle
    cases next : world.self.outbound.nextStep with
    | some step =>
      refine wp_mono (performOutboundStep_spec flow idle next) (fun progress after done => ?_)
        (fun _ _ => id)
      obtain ⟨rfl, reached, still, worked⟩ := done
      exact ⟨reached, still, fun _ => worked, fun no => by simp at no⟩
    | none =>
      simp only [wp_ite, wp_bind, wp_self]
      split
      · rename_i dirty
        refine wp_mono (flushCurrent_spec flow (.inr ⟨dirty, next⟩)) (fun _ after done => ?_)
          (fun _ _ => id)
        exact ⟨done.1, done.2.1, fun _ => done.2.2, fun no => by simp at no⟩
      · rename_i dirty
        have clean : world.self.flushState = .clean := by
          cases state : world.self.flushState <;> simp_all
        refine wp_mono (maybeQueuePingreq_spec flow alive ⟨next, clean⟩ timed)
          (fun _ after done => ?_) (fun _ _ => id)
        obtain ⟨reached, still, clean, same, rested⟩ := done
        simp only [wp_bind, wp_self, wp_pure]
        cases again : after.self.outbound.nextStep with
        | none => exact ⟨reached, still, fun no => by simp at no, fun _ => rested again⟩
        | some step =>
          refine wp_mono (performOutboundStep_spec reached (by simp [clean]) again)
            (fun progress after done => ?_) (fun _ _ => id)
          obtain ⟨rfl, reached, still, fewer, renewed⟩ := done
          exact ⟨reached, still, fun _ => ⟨same ▸ fewer, renewed⟩, fun no => by simp at no⟩

theorem service_spec (flow : Flow τ origin world.moment) (alive : world.self.live = true)
    {now : Nat} (timed : world.time = now) :
    wp (service now) (fun progress after => Flow τ origin after.moment ∧
        after.self.live = true ∧ (progress = true → Worked world after) ∧
        (progress = false → Rested world after ∧
          ∀ deadline, after.self.runtime.pingTimeout = some deadline → after.time < deadline))
      (fun _ after => Flow τ origin after.moment) world := by
  -- The deadline is looked at once, before anything is written.
  unfold service
  simp only [currentSession, wp_bind, wp_self, wp_pure]
  have progress := serviceOutboundOnce_spec flow alive timed
  cases waiting : world.self.session.runtime.pingTimeout with
  | none =>
    refine wp_mono progress (fun _ after done => ⟨done.1, done.2.1, done.2.2.1, fun no => ?_⟩)
      (fun _ _ => id)
    have rested := done.2.2.2 no
    refine ⟨rested, fun deadline some => ?_⟩
    rw [rested.same, waiting] at some
    simp at some
  | some deadline =>
    simp only [wp_ite]
    split
    · simp only [disconnected, wp_bind, wp_update, wp_fail]
      exact Flow.given_up flow
    · rename_i early
      refine wp_mono progress (fun _ after done => ⟨done.1, done.2.1, done.2.2.1, fun no => ?_⟩)
        (fun _ _ => id)
      have rested := done.2.2.2 no
      refine ⟨rested, fun other some => ?_⟩
      rw [rested.same, waiting, Option.some.injEq] at some
      rw [rested.same, timed]
      omega

/-- Flushing everything ends with nothing left to send. -/
theorem flushOutbound_spec (flow : Flow τ origin world.moment) (alive : world.self.live = true) :
    wp flushOutbound (fun _ after => Flow τ origin after.moment ∧ after.self.live = true ∧
        after.self.Quiet)
      (fun _ after => Flow τ origin after.moment) world := by
  -- Every round that makes progress uses up a reply, and the last one finds the connection quiet.
  unfold flushOutbound
  simp only [wp_bind, wp_rounds]
  refine wp_iterate (fun _ after => Flow τ origin after.moment ∧ after.self.live = true)
    ⟨flow, alive⟩ (fun _ world holds => ?_) (fun _ _ holds => holds.1)
  obtain ⟨flow, alive⟩ := holds
  simp only [wp_bind, wp_now]
  refine wp_mono (serviceOutboundOnce_spec flow.sampled alive rfl) (fun progress after done => ?_)
    (fun _ _ => id)
  cases progress with
  | true => exact ⟨done.1, done.2.1⟩
  | false => exact ⟨done.1, done.2.1, (done.2.2.2 rfl).quiet⟩

end Minimq

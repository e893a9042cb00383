import Minimq.Client.Ledger
import Minimq.Proofs.Client.Run

/-! Every transition changes the outbound state in one of a few ways. -/

namespace Minimq

open Async

variable {τ : Type} {before after : ClientMoment}

theorem admissions_append (front back : List (Happening Event)) :
    admissions (front ++ back) = admissions front ++ admissions back := by
  simp [admissions]

theorem admissions_eq_nil {events : List (Happening Event)}
    (plain : ∀ event ∈ events, admissionOf event = none) : admissions events = [] := by
  simpa [admissions] using plain

theorem admissions_of_plain {trace : List (Happening Event)} {events : List (Happening Event)}
    (plain : ∀ event ∈ events, admissionOf event = none) :
    admissions (trace ++ events) = admissions trace := by
  rw [admissions_append, admissions_eq_nil plain, List.append_nil]

theorem Routine.admissionOf {event : Happening Event} (routine : Routine event) :
    admissionOf event = none := by
  cases routine <;> rfl

/-- Writing, flushing and keepalive change the outbound state and record no admission. -/
theorem Outflow.change (step : Outflow τ before after) :
    Changes before.self.outbound after.self.outbound ∧
      admissions after.trace = admissions before.trace := by
  -- Each constructor of a transition is one change, or none.
  cases step with
  | tick later => exact ⟨.refl, rfl⟩
  | wrote alive idle next encoded positive within later =>
    refine ⟨?_, admissions_of_plain (by simp [admissionOf])⟩
    dsimp only
    rw [Connection.afterWrite_outbound]
    exact .single .wrote
  | flushing alive ready => exact ⟨.refl, admissions_of_plain (by simp [admissionOf])⟩
  | flushed alive flushing later =>
    exact ⟨.single .flushed, admissions_of_plain (by simp [admissionOf])⟩
  | disconnected => exact ⟨.single .armed, rfl⟩
  | pinged alive quiet due queued => exact ⟨.single (.queued queued), rfl⟩

/-- An inbound packet changes the outbound state at most once. -/
theorem Handled.change {packet : ReceivedPacket} {taken : Taken} {state next : Handling}
    (handled : Handled packet state taken next) :
    Changes state.data.outbound next.data.outbound := by
  cases handled.requeued with
  | same kept => exact kept ▸ .refl
  | acked acked => exact .single (.acked acked)
  | released acked released => exact .single (.released acked released)
  | completed acked => exact .single (.completed acked)
  | queued queued _ => exact .single (.queued queued)

/-- Every transition changes the outbound state, or admits an operation. -/
theorem Step.change (step : Step τ before after) :
    (Changes before.self.outbound after.self.outbound ∧
      admissions after.trace = admissions before.trace) ∨ Admits before after := by
  -- Only an admission is noted as one.
  cases step with
  | outflow step => exact .inl step.change
  | upkeep step =>
    cases step with
    | reading =>
      exact .inl ⟨.refl, admissions_of_plain fun event found =>
        (routine_map .received _ event found).admissionOf⟩
    | scratched kept => exact .inl ⟨.single (.scratched kept), rfl⟩
    | skipped => exact .inl ⟨.refl, rfl⟩
  | opening step =>
    cases step with
    | preamble closed transport =>
      exact .inl ⟨.refl, admissions_of_plain fun event found =>
        (routine_preamble transport event found).admissionOf⟩
    | reserved closed request fits => exact .inl ⟨.single (.reserved fits), rfl⟩
    | untimed closed => exact .inl ⟨.refl, rfl⟩
    | limited closed => exact .inl ⟨.refl, rfl⟩
    | assigned closed anonymous request fits => exact .inl ⟨.single (.reserved fits), rfl⟩
  | handled packet alive quiet =>
    refine .inl ⟨?_, admissions_of_plain (by simp [admissionOf])⟩
    obtain ⟨taken, state, handled, same | same⟩ := before.self.handle_cases packet
    · dsimp only
      rw [same]
      exact handled.change
    · dsimp only
      rw [same]
      exact handled.change.tail .armed
  | admitted admissible => exact .inr ⟨_, _, _, _, _, admissible, rfl, rfl⟩
  | direct ready whole later =>
    exact .inl ⟨.refl, admissions_of_plain fun event found =>
      (routine_whole event found).admissionOf⟩
  | broken ready part =>
    exact .inl ⟨.single .armed, admissions_of_plain fun event found =>
      (part.routine event found).admissionOf⟩
  | opened => exact .inl ⟨.single .armed, admissions_of_plain (by simp [admissionOf])⟩
  | reset closed => exact .inl ⟨.single .cleared, admissions_of_plain (by simp [admissionOf])⟩
  | connected closed later sized reserved quota limit state =>
    subst state
    exact .inl ⟨.refl, admissions_of_plain (by simp [admissionOf])⟩

theorem Torn.admissions (torn : Torn before after) :
    admissions after.trace = admissions before.trace := by
  cases torn with
  | torn ready part =>
    exact admissions_of_plain fun event found => (part.routine event found).admissionOf

end Minimq

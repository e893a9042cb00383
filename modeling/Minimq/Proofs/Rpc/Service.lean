import Minimq.Rpc.Service
import Minimq.Proofs.Client.Application

/-! The request/response service waits for its subscription. -/

namespace Minimq.Rpc

open Async

variable {τ : Type} {service : Service}

namespace Service

theorem new_spec {device : Utf8} (created : new device = .ok service) :
    service.subscribe = none ∧ service.ready = false := by
  unfold new at created
  split at created
  · cases created
  · cases created
    exact ⟨rfl, rfl⟩

/-- A step keeps the topic, and it is not ready before its subscription is complete. -/
theorem step_waits (replies : List (Reply τ)) (world : ClientWorld τ) (service : Service) :
    (service.step replies world).2.1.topicFilter = service.topicFilter ∧
    ∃ handle, Uses [service.topicFilter] replies world (service.step replies world).2.2 handle ∧
      (∀ op, (service.step replies world).2.1.subscribe = some op →
        service.subscribe = some op ∨ handle = some op) ∧
      ((service.step replies world).2.1.ready = true → service.ready = true ∨
        ∃ op, service.subscribe = some op ∧ world.self.session.status op = .complete) := by
  unfold step
  -- The service is ready, waits for its subscription, or sends it now.
  split
  · exact ⟨rfl, none, .idle, fun _ => .inl, .inl⟩
  · rename_i unready
    split
    · rename_i op waiting
      split
      · exact ⟨rfl, none, .idle, fun _ => .inl, .inl⟩
      · rename_i complete
        exact ⟨rfl, none, .idle, nofun, fun _ => .inr ⟨op, waiting, complete⟩⟩
      · exact ⟨rfl, none, .idle, nofun, .inl⟩
    · rename_i idle
      split
      · rename_i op after done
        exact ⟨rfl, some op, .of_subscribe done, fun _ => .inr, .inl⟩
      · exact ⟨rfl, none, .of_subscribe_failed ‹_›, fun _ => .inl, .inl⟩
      · exact ⟨rfl, none, .of_subscribe_failed ‹_›, fun _ => .inl, .inl⟩
      · exact ⟨rfl, none, .of_subscribe_failed ‹_›, fun _ => .inl, .inl⟩

end Service

/-- The service waits for the subscription to its filter. -/
theorem component_waits (filter : TopicFilter) :
    (component τ).Waits [filter] (fun service => service.topicFilter = filter) Service.subscribe
      Service.ready where
  fresh := fun service own => ⟨own, rfl, Bool.and_false _⟩
  resumed := fun service own => ⟨own, nofun, fun now => (Bool.and_eq_true _ _ ▸ now).1⟩
  taken := fun input => input.elim
  stepped := by
    rintro replies world service rfl
    exact service.step_waits replies world

end Minimq.Rpc

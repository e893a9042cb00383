import Minimq.Staging.Client
import Minimq.Proofs.Client.Application
import Minimq.Proofs.Staging.Service

/-! The staging service waits for its subscription. -/

namespace Minimq.Staging

open Async

variable {τ : Type} {json : Json}

namespace Service

/-- The fields that tell what is in flight and whether the subscription is in place. -/
def flight (service : Service) : Option InFlightAction × Bool :=
  (service.inflight, service.subscribed)

/-- The subscription that awaits its acknowledgement. -/
def subscription (service : Service) : Option Op :=
  match service.inflight with
  | some ⟨.subscribe, op⟩ => some op
  | _ => none

theorem flight_queue (action : Action) (service : Service) :
    (service.queue action).flight = service.flight := by
  unfold queue
  split
  · cases action <;> rfl
  · rfl

theorem flight_handle (json : Json) (inbound : InboundPublish) (service : Service) :
    (service.handle json inbound).2.flight = service.flight := by
  unfold handle handleManifest handleChunk
  dsimp only
  repeat' split
  all_goals first | rfl | exact flight_queue ..

theorem flight_completeRequest (success : Bool) (service : Service) :
    (service.completeRequest success).flight = service.flight := by
  unfold completeRequest
  dsimp only
  repeat' split
  all_goals first | rfl | exact flight_queue ..

theorem flight_abort (service : Service) : service.abort.2.flight = service.flight := by
  unfold abort
  split
  · exact flight_queue ..
  · rfl

theorem flight_take (json : Json) (input : Input) (service : Service) :
    (service.take json input).flight = service.flight := by
  cases input with
  | handle inbound => exact flight_handle json inbound service
  | completeRequest success => exact flight_completeRequest success service
  | abort => exact flight_abort service

/-- A startup keeps what is in flight, unless the session is new. -/
theorem flight_beginStartup (event : ConnectEvent) (service : Service) :
    (service.beginStartup event).flight =
      if event = .connected then (none, false) else service.flight := by
  unfold beginStartup
  -- A new session forgets the subscription, and a resumed one keeps it.
  cases event with
  | connected => exact flight_queue ..
  | reconnected =>
    simp only [reduceCtorEq, if_false]
    split
    · split
      · exact flight_queue ..
      · rfl
    · exact flight_queue ..

theorem pending_queue {code : StatusCode} {service other : Service}
    (pending : other.pending = service.pending) (inflight : other.inflight = service.inflight) :
    (service.queue (.publish code)).pending = (other.queue (.publish code)).pending := by
  unfold queue
  rw [pending, inflight]
  split <;> rfl

theorem flight_startPending (link : Link τ) (service : Service) (free : service.inflight = none) :
    (service.startPending link).2.1.subscribed = service.subscribed ∧
    ∀ op, (service.startPending link).2.1.subscription = some op →
      service.pending = some .subscribe ∧ link.attempt = .started op := by
  -- Nothing is in flight yet, so nothing is subscribed by it.
  have unchanged : ∀ op, service.subscription = some op →
      service.pending = some .subscribe ∧ link.attempt = .started op := by
    intro op some
    simp [subscription, free] at some
  unfold startPending
  split
  · exact ⟨rfl, unchanged⟩
  · rename_i action pending
    split
    · rename_i op started
      refine ⟨rfl, fun other same => ?_⟩
      -- Only a subscription that was started leaves one in flight.
      cases action with
      | publish code => cases same
      | subscribe =>
        cases same
        exact ⟨pending, started⟩
    · dsimp only
      split
      · exact ⟨rfl, unchanged⟩
      · exact ⟨rfl, unchanged⟩
      · split
        · exact ⟨rfl, unchanged⟩
        · exact ⟨rfl, unchanged⟩
      · exact ⟨rfl, unchanged⟩
    · exact ⟨rfl, unchanged⟩

/-- A step starts a subscription only if it attempts one, and the subscription is in place only
after one was complete. -/
theorem step_flight (link : Link τ) (service : Service) :
    (∀ op, (service.step link).2.1.subscription = some op → service.subscription = some op ∨
      service.attempted link.status = some .subscribe ∧ link.attempt = .started op) ∧
    ((service.step link).2.1.subscribed = true → service.subscribed = true ∨
      ∃ op, service.subscription = some op ∧ link.status op = .complete) := by
  unfold step
  dsimp only
  split
  · rename_i free
    obtain ⟨same, started⟩ := flight_startPending link
      { service with maxRxPacketSize := link.maxRxPacketSize } free
    refine ⟨fun op new => .inr ?_, fun now => .inl (same.symm.trans now)⟩
    simp only [attempted, free]
    exact started op new
  · rename_i inflight flying
    obtain ⟨action, op⟩ := inflight
    split
    · exact ⟨fun _ => .inl, .inl⟩
    · -- The action is queued again.
      have flight := flight_queue action
        { service with maxRxPacketSize := link.maxRxPacketSize, inflight := none }
      obtain ⟨none, same⟩ := Prod.mk.inj flight
      refine ⟨fun other some => ?_, fun now => .inl (same.symm.trans now)⟩
      simp only [subscription, none] at some
      cases some
    · rename_i complete
      cases action with
      | publish code =>
        rw [if_neg (by simp)]
        obtain ⟨same, started⟩ := flight_startPending link
          { service with maxRxPacketSize := link.maxRxPacketSize, inflight := none } rfl
        refine ⟨fun other new => .inr ?_, fun now => .inl (same.symm.trans now)⟩
        simp only [attempted, flying, complete]
        exact started other new
      | subscribe =>
        rw [if_pos rfl]
        refine ⟨?_, fun _ => .inr ⟨op, by simp only [subscription, flying], complete⟩⟩
        split
        · rename_i code deferred
          obtain ⟨-, started⟩ := flight_startPending link (queue (.publish code) { service with
            maxRxPacketSize := link.maxRxPacketSize, inflight := none, subscribed := true,
            startupPublish := none }) (Prod.mk.inj (flight_queue ..)).1
          refine fun other new => .inr ?_
          simp only [attempted, flying, complete, deferred]
          obtain ⟨pending, attempt⟩ := started other new
          refine ⟨?_, attempt⟩
          rw [← pending]
          exact pending_queue rfl rfl
        · rename_i empty
          obtain ⟨-, started⟩ := flight_startPending link { service with
            maxRxPacketSize := link.maxRxPacketSize, inflight := none, subscribed := true } rfl
          refine fun other new => .inr ?_
          simp only [attempted, flying, complete, empty]
          exact started other new

theorem startAction_uses (serialize : Status → Bytes) (root : Utf8) (service : Service)
    (replies : List (Async.Reply τ)) (world : ClientWorld τ) (action : Action) :
    ∃ handle, Uses (topicFilters root) replies world
        (service.startAction serialize root replies world action).2 handle ∧
      ∀ op, action = .subscribe →
        (service.startAction serialize root replies world action).1 = .started op →
        handle = some op := by
  cases action with
  | subscribe =>
    cases done : Minimq.subscribe (topicFilters root) [] { world with replies } with
    | ok op after =>
      simp only [startAction, done]
      refine ⟨some op, .of_subscribe done, fun other _ same => ?_⟩
      cases same
      rfl
    | error stop after =>
      refine ⟨none, ?_, fun op _ same => ?_⟩
      · cases stop <;> simp only [startAction, done] <;> exact .of_subscribe_failed done
      · cases stop <;> simp only [startAction, done] at same <;> cases same
  | publish code =>
    refine ⟨none, ?_, nofun⟩
    simp only [startAction]
    split
    · exact .idle
    · -- Whatever becomes of the publication, the client has only tried to publish it.
      have uses : Uses (topicFilters root) replies world _ none := .called (.publish
        (service.statusPublication root (serialize (service.statusWith code))))
      simp only [Invocation.perform, Call.perform] at uses
      split
      all_goals
        rename_i done
        rw [done] at uses
        exact uses

end Service

/-- The service waits for the subscription to its topics. -/
theorem component_waits (json : Json) (serialize : Status → Bytes) (root : Utf8) :
    (component τ json serialize root).Waits (topicFilters root) (fun _ => True)
      Service.subscription Service.subscribed where
  fresh := fun service _ => by
    obtain ⟨none, unready⟩ := Prod.mk.inj (service.flight_beginStartup .connected)
    refine ⟨trivial, ?_, unready⟩
    simp only [component, Service.subscription, none]
  resumed := fun service _ => by
    obtain ⟨inflight, same⟩ := Prod.mk.inj (service.flight_beginStartup .reconnected)
    refine ⟨trivial, fun op waiting => ?_, fun now => same.symm.trans now⟩
    simp only [component, Service.subscription, inflight] at waiting
    exact waiting
  taken := fun input service _ => by
    obtain ⟨inflight, same⟩ := Prod.mk.inj (service.flight_take json input)
    refine ⟨trivial, ?_, same⟩
    simp only [component, Service.subscription, inflight]
  stepped := fun replies world service _ => by
    refine ⟨trivial, ?_⟩
    simp only [component, Service.stepOn]
    cases attempted : service.attempted world.self.session.status with
    | none =>
      obtain ⟨waiting, now⟩ := service.step_flight (⟨world.self.session.packetReader.buffer.length,
        world.self.session.status, world.self.outbound.isQuiescent, .dropped false⟩ : Link τ)
      refine ⟨none, .idle, fun op new => ?_, now⟩
      exact (waiting op new).imp_right fun started => by
        rw [attempted] at started
        cases started.1
    | some action =>
      obtain ⟨handle, uses, begun⟩ := service.startAction_uses serialize root replies world action
      obtain ⟨waiting, now⟩ := service.step_flight (⟨world.self.session.packetReader.buffer.length,
        world.self.session.status,
        (service.startAction serialize root replies world action).2.self.outbound.isQuiescent,
        (service.startAction serialize root replies world action).1⟩ : Link τ)
      refine ⟨handle, uses, fun op new => ?_, now⟩
      refine (waiting op new).imp_right fun started => begun op ?_ started.2
      exact Option.some.inj (attempted.symm.trans started.1)

end Minimq.Staging

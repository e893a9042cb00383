import Minimq.Proofs.Rpc.Service
import Minimq.Proofs.Staging.Client

/-! A service that is ready has its subscription, provided that the broker grants what it answers. -/

namespace Minimq

open Async

variable {π τ σ : Type}

/-- An acknowledgement that grants all filters. -/
def SubAck.isGranted (ack : SubAck) : Bool :=
  ack.codes.all fun code => (ReasonCode.fromByte code).isSuccess

/-- Every SUBSCRIBE that was answered was granted. -/
def AllGranted (trace : List (Happening Event)) : Prop :=
  ∀ before ack delivered, .noted (.handled before (.subAck ack) delivered) ∈ trace →
    (.subscribe, ack.packetId) ∈ before.data.outbound.docket.keys → ack.isGranted = true

/-- A service that is ready, and that was told of the session in use, was granted its topics. -/
def Application.Earned (topics : List TopicFilter) (ready : Bool) (application : Application τ σ) :
    Prop :=
  application.informed = true → AllGranted application.world.trace → ready = true →
    Answered topics (fun ack => ack.isGranted = true) application.world.trace

/--
Readiness means a granted subscription if every answer is one.

The application connects, drives the client and lets the service work in any order. Whenever the
connect that started the session in use was reported to the service, and all answers to SUBSCRIBE
packets granted them, a service that is ready was granted its own subscription in that session.
-/
theorem readiness_granted (config : ConfigBuilder) (clock : Clock) :
    (∀ (device : Utf8) (service : Rpc.Service), Rpc.Service.new device = .ok service →
      ∀ acts : List (Act π τ Empty),
        ((Application.start config clock service).run (Rpc.component τ) acts).Earned
          [service.topicFilter]
          ((Application.start config clock service).run (Rpc.component τ) acts).service.isReady) ∧
    (∀ json serialize root limits (service : Staging.Service),
      Staging.Service.new root.bytes limits = .ok service →
      ∀ acts : List (Act π τ Staging.Input),
        ((Application.start config clock service).run
          (Staging.component τ json serialize root) acts).Earned (Staging.topicFilters root)
          ((Application.start config clock service).run
            (Staging.component τ json serialize root) acts).service.subscribed) := by
  -- Both services start idle, and a run of either keeps its readiness honest.
  refine ⟨fun device service created acts informed granted ready => ?_,
    fun json serialize root limits service created acts informed granted ready => ?_⟩
  · obtain ⟨idle, unready⟩ := Rpc.Service.new_spec created
    have honest := Application.run_honest (Rpc.component_waits service.topicFilter) rfl idle unready
      config clock acts
    exact (honest.ready informed ready).and_recorded granted
  · obtain ⟨-, -, inflight, -, -, unready⟩ := Staging.Service.new_spec created
    have idle : service.subscription = none := by simp only [Staging.Service.subscription, inflight]
    have honest := Application.run_honest (Staging.component_waits json serialize root) trivial idle
      unready config clock acts
    exact (honest.ready informed ready).and_recorded granted

/-- The service of a device `a`. -/
def deviceService : Rpc.Service where
  rpcTopic := ⟨[0x61, 0x2F, 0x72, 0x70, 0x63], by decide⟩
  subscribe := none
  ready := false
  fits := by decide

/-- The service subscribes on a new connection, and the broker answers with a code. -/
def answeredSubscription (code : UInt8) : List (Act Unit Unit Empty) :=
  [.call ⟨.connect [0x20, 3, 0, 0, 0, 0x90, 4, 0, 1, 0, code],
      [.ready 64, .ready 0, .ready 1, .ready 1, .ready 3]⟩,
    .step [.ready 64, .ready 0], .call ⟨.poll, [.ready 1, .ready 1, .ready 4]⟩, .step []]

/-- What the application makes of it. -/
def answeredApplication (code : UInt8) : Application Unit Rpc.Service :=
  (Application.start (smallConfig 60) (steppingClock 1 8) deviceService).run (Rpc.component Unit)
    (answeredSubscription code)

/-- Whether an event is an acknowledgement that refuses a filter. -/
def isRefusal : Happening Event → Bool
  | .noted (.handled _ (.subAck ack) _) => !ack.isGranted
  | _ => false

theorem allGranted_of_any {trace : List (Happening Event)} (none : trace.any isRefusal = false) :
    AllGranted trace := by
  intro before ack delivered found _
  simpa [isRefusal] using List.any_eq_false.mp none _ found

/-- A subscription that the broker grants makes the service ready. -/
theorem readiness_granted_device : (answeredApplication 1).informed = true ∧
    (answeredApplication 1).service.isReady = true ∧
    Answered [deviceService.topicFilter] (fun ack => ack.isGranted = true)
      (answeredApplication 1).world.trace := by
  have informed : (answeredApplication 1).informed = true := by decide +kernel
  have ready : (answeredApplication 1).service.isReady = true := by decide +kernel
  have earned : (answeredApplication 1).Earned [deviceService.topicFilter]
      (answeredApplication 1).service.isReady :=
    (readiness_granted (smallConfig 60) (steppingClock 1 8)).1 ⟨[0x61], by decide⟩ deviceService rfl
      (answeredSubscription 1)
  exact ⟨informed, ready, earned informed (allGranted_of_any (by decide +kernel)) ready⟩

/-- What the application makes of a subscription that the broker refuses. -/
def refusedApplication : Application Unit Rpc.Service := answeredApplication 0x80

/-- Whether an event is an acknowledgement that grants all filters. -/
def isGrant : Happening Event → Bool
  | .noted (.handled _ (.subAck ack) _) => ack.isGranted
  | _ => false

/-- A subscription that the broker refuses makes the service ready. -/
theorem refused_ready : Rpc.Service.new ⟨[0x61], by decide⟩ = .ok deviceService ∧
    refusedApplication.informed = true ∧ refusedApplication.service.isReady = true ∧
    ¬ Answered [deviceService.topicFilter] (fun ack => ack.isGranted = true)
      refusedApplication.world.trace := by
  have none : refusedApplication.world.trace.any isGrant = false := by decide +kernel
  refine ⟨rfl, by decide +kernel, by decide +kernel, fun answered => ?_⟩
  obtain @⟨early, between, later, state, before, packet, ack, delivered, record, -, -, -, -, granted⟩ :=
    answered
  rw [record] at none
  simp [isGrant, granted] at none

end Minimq

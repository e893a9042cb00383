import Minimq.Client.Application

/-! The subscription of the request/response service. -/

namespace Minimq.Rpc

/-- The longest topic the service retains. -/
def maxTopicLength : Nat := 128

/-- `/rpc` -/
def rpcSuffix : Utf8 := ⟨[0x2F, 0x72, 0x70, 0x63], by decide⟩

/-- `/#` -/
def rpcFilterSuffix : Utf8 := ⟨[0x2F, 0x23], by decide⟩

/-- Why a service cannot be created. -/
inductive ConfigError where
  | topicTooLong
  deriving DecidableEq

/-- Topic routing and the state of the subscription. -/
structure Service where
  rpcTopic : Utf8
  /-- The subscription that awaits its acknowledgement. -/
  subscribe : Option Op
  /-- Whether the subscription is active. -/
  ready : Bool
  fits : rpcTopic.len + rpcFilterSuffix.len ≤ maxTopicLength

namespace Service

variable {τ : Type}

/-- Construct a service below a device. -/
def new (devicePrefix : Utf8) : Except ConfigError Service :=
  if long : maxTopicLength < devicePrefix.len + rpcSuffix.len + rpcFilterSuffix.len then
    .error .topicTooLong
  else .ok {
    rpcTopic := devicePrefix.append rpcSuffix
    subscribe := none
    ready := false
    fits := by
      simp only [Utf8.len, Utf8.append, List.length_append] at long ⊢
      omega }

/-- Begin startup for a newly connected or resumed session. -/
def beginConnection (event : ConnectEvent) (service : Service) : Service :=
  { service with subscribe := none, ready := service.ready && event == .reconnected }

/-- Whether the subscription is active. -/
def isReady (service : Service) : Bool := service.ready

/-- What the service subscribes to; the filter fits, so that it can always be built. -/
def topicFilter (service : Service) : TopicFilter where
  topic := service.rpcTopic.append rpcFilterSuffix
  options := {
    maximumQos := .atLeastOnce
    retainBehavior := .never
    retainAsPublished := true
    noLocal := true }

/-- How a step ends that tried to subscribe in vain. -/
def refused (world : ClientWorld τ) : Error τ → Except (Async.Stop (Error τ)) Bool
  | .notReady | .resource .inflightExhausted => .ok false
  | .resource .bufferTooSmall =>
    if world.self.outbound.isQuiescent then .error (.error (.resource .bufferTooSmall))
    else .ok false
  | error => .error (.error error)

/-- Advance the subscription; the result tells whether the service is ready. -/
def step (replies : List (Async.Reply τ)) (world : ClientWorld τ) (service : Service) :
    Except (Async.Stop (Error τ)) Bool × Service × ClientWorld τ :=
  if service.ready then (.ok true, service, world)
  else match service.subscribe with
    | some op =>
      match world.self.session.status op with
      | .pending => (.ok false, service, world)
      | .complete => (.ok true, { service with subscribe := none, ready := true }, world)
      | .invalidated => (.error (.error .disconnected), { service with subscribe := none }, world)
    | none =>
      match Minimq.subscribe [service.topicFilter] [] { world with replies } with
      | .ok op world => (.ok false, { service with subscribe := some op }, world)
      | .error (.error error) world => (refused world error, service, world)
      | .error .dropped world => (.error .dropped, service, world)
      | .error .expired world => (.error .expired, service, world)

end Service

/-- The service as a part of an application. -/
def component (τ : Type) : Component τ Service Empty where
  begin := Service.beginConnection
  step := fun replies world service => (service.step replies world).2
  take := Empty.elim

end Minimq.Rpc

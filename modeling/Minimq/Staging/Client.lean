import Minimq.Client.Application
import Minimq.Staging.Host

/-! The staging service over a client. -/

namespace Minimq.Staging

/-- The largest encoded status. -/
def maxStatusBytes : Nat := 256

/-- The options of both subscriptions. -/
def subscriptionOptions : SubscriptionOptions where
  maximumQos := .atLeastOnce
  retainBehavior := .never
  retainAsPublished := true
  noLocal := true

/-- What a service with a topic root subscribes to. -/
def topicFilters (root : Utf8) : List TopicFilter :=
  [⟨root.append ⟨manifestSuffix, by decide⟩, subscriptionOptions⟩,
    ⟨root.append ⟨chunkSuffix, by decide⟩, subscriptionOptions⟩]

/-- Inputs that do not concern the client. -/
inductive Input where
  | handle (inbound : InboundPublish)
  | completeRequest (success : Bool)
  | abort

namespace Service

variable {τ : Type}

/-- Take an input. -/
def take (json : Json) : Input → Service → Service
  | .handle inbound, service => (service.handle json inbound).2
  | .completeRequest success, service => service.completeRequest success
  | .abort, service => service.abort.2

/-- The action a step starts, if it starts one. -/
def attempted (status : Op → OpStatus) (service : Service) : Option Action :=
  match service.inflight with
  | none => service.pending
  | some inflight =>
    match status inflight.op with
    | .pending | .invalidated => none
    | .complete =>
      match inflight.action, service.startupPublish with
      -- A status that waited for the subscription is queued first.
      | .subscribe, some code => (queue (.publish code) { service with inflight := none }).pending
      | _, _ => service.pending

/-- The publication of an encoded status. -/
def statusPublication (root : Utf8) (service : Service) (payload : Bytes) :
    Minimq.Publication Unit where
  topic := root.append ⟨statusSuffix, by decide⟩
  properties := .slice [
    .payloadFormatIndicator 1,
    .responseTopic (root.append ⟨chunkSuffix, by decide⟩),
    .correlationData (service.transfer.elim [] Transfer.id),
    .userProperty offsetKey (decimal (service.transfer.elim 0 Transfer.nextOffset).toNat)]
  qos := .atLeastOnce
  payload := .ofBytes payload
  retain := .notRetained

/-- Whether a packet was queued: nothing is acknowledged while an action is started. -/
def enqueued (before after : ClientWorld τ) : Bool :=
  before.self.outbound.retained.length < after.self.outbound.retained.length

/-- Start an action; the JSON library encodes a status. -/
def startAction (serialize : Status → Bytes) (root : Utf8) (replies : List (Async.Reply τ))
    (world : ClientWorld τ) (service : Service) : Action → Attempt τ × ClientWorld τ
  | .subscribe =>
    match Minimq.subscribe (topicFilters root) [] { world with replies } with
    | .ok op after => (.started op, after)
    | .error (.error error) after => (.failed error (enqueued world after), after)
    | .error .dropped after | .error .expired after => (.dropped (enqueued world after), after)
  | .publish code =>
    let payload := serialize (service.statusWith code)
    if maxStatusBytes < payload.length then (.failed (.resource .bufferTooSmall) false, world)
    else match Minimq.publish (service.statusPublication root payload) { world with replies } with
      | .ok (some op) after => (.started op, after)
      | .ok none after => (.failed .invalidRequest false, after)
      | .error (.error (.payload _)) after => (.failed (.resource .bufferTooSmall) false, after)
      | .error (.error (.session error)) after => (.failed error (enqueued world after), after)
      | .error .dropped after | .error .expired after => (.dropped (enqueued world after), after)

/-- Advance one queued MQTT operation over a client. -/
def stepOn (serialize : Status → Bytes) (root : Utf8) (replies : List (Async.Reply τ))
    (world : ClientWorld τ) (service : Service) : StepEnd τ × Service × ClientWorld τ :=
  let session := world.self.session
  let (attempt, after) := match service.attempted session.status with
    | some action => service.startAction serialize root replies world action
    -- Nothing is tried.
    | none => (.dropped false, world)
  let (ended, service, _) := service.step
    ⟨session.packetReader.buffer.length, session.status, after.self.outbound.isQuiescent, attempt⟩
  (ended, service, after)

end Service

/-- The service as a part of an application. -/
def component (τ : Type) (json : Json) (serialize : Status → Bytes) (root : Utf8) :
    Component τ Service Input where
  begin := Service.beginStartup
  step := fun replies world service => (service.stepOn serialize root replies world).2
  take := Service.take json

end Minimq.Staging

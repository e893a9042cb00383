import Minimq.Staging.Service

/-! Sequences of calls on a staging service, and what the owner of the storage sees of them. -/

namespace Minimq.Staging

/-- A call on the service. -/
inductive Call (τ : Type) where
  | handle (inbound : InboundPublish)
  | completeRequest (success : Bool)
  | abort
  | beginStartup (event : ConnectEvent)
  | step (link : Link τ)

/-- What the owner has seen so far: the requests it was given and the results it reported. -/
structure Log where
  /-- All requests, in order. -/
  emitted : List StagingRequest
  /-- The requests that have no result yet. -/
  outstanding : List StagingRequest
  /-- The writes that were reported as successful and not aborted before. -/
  written : List StagingWrite
  aborted : Bool
  deriving DecidableEq

namespace Log

/-- Nothing has happened. -/
def empty : Log := ⟨[], [], [], false⟩

/-- The bytes of the successful writes. -/
def content (log : Log) : Bytes := log.written.flatMap StagingWrite.payload

/-- Note what becomes of an inbound publication. -/
def handled (log : Log) : Handle → Log
  | .request request => { log with
      emitted := log.emitted ++ [request], outstanding := log.outstanding ++ [request] }
  | .unhandled | .consumed => log

/-- Note the result of the oldest request. -/
def completed (log : Log) (success : Bool) : Log :=
  match log.outstanding with
  | [] => log
  | request :: rest =>
    let log := { log with outstanding := rest }
    match request with
    | .write write =>
      if success ∧ log.aborted = false then { log with written := log.written ++ [write] } else log
    | .prepare _ => log

end Log

/-- Perform a call. -/
def perform {τ : Type} (json : Json) (call : Call τ) (device : Service × Log) : Service × Log :=
  let (service, log) := device
  match call with
  | .handle inbound =>
    let (handle, service) := service.handle json inbound
    (service, log.handled handle)
  | .completeRequest success => (service.completeRequest success, log.completed success)
  | .abort =>
    let (aborted, service) := service.abort
    (service, { log with aborted := log.aborted || aborted })
  | .beginStartup event => (service.beginStartup event, log)
  | .step link => ((service.step link).2.1, log)

/-- The requests an inbound publication leads to. -/
def Handle.requests : Handle → List StagingRequest
  | .request made => [made]
  | .unhandled | .consumed => []

/-- The requests a call leads to. -/
def requested {τ : Type} (json : Json) (call : Call τ) (service : Service) : List StagingRequest :=
  match call with
  | .handle inbound => (service.handle json inbound).1.requests
  | _ => []

/-- The status a call hands to the client. -/
def announced {τ : Type} (call : Call τ) (service : Service) : Option StatusMessage :=
  match call with
  | .step link => (service.step link).2.2
  | _ => none

/-- Perform calls one after the other. -/
def run {τ : Type} (json : Json) (calls : List (Call τ)) (device : Service × Log) :
    Service × Log :=
  calls.foldl (fun device call => perform json call device) device

/-- A device, and what its client was asked to do. -/
structure Journal where
  /-- The service and what the owner of the storage sees of it. -/
  device : Service × Log
  /-- The operations started since the last fresh connection. -/
  operations : List Op
  /-- The status publication started last. -/
  latest : Option StatusMessage

namespace Journal

/-- The journal of a device to which nothing has happened. -/
def start (service : Service) : Journal := ⟨(service, .empty), [], none⟩

/-- Perform a call and note what it starts. -/
def note {τ : Type} (json : Json) (call : Call τ) (journal : Journal) : Journal :=
  let device := perform json call journal.device
  { device
    operations := match call with
      | .beginStartup .connected => []
      -- An operation is in flight once it is started.
      | _ => (device.1.inflight.map InFlightAction.op).toList ++ journal.operations
    latest := (announced call journal.device.1).or journal.latest }

/-- Perform calls one after the other. -/
def notes {τ : Type} (json : Json) (calls : List (Call τ)) (journal : Journal) : Journal :=
  calls.foldl (fun journal call => journal.note json call) journal

/-- Whether a call finds all operations since the last fresh connection valid. -/
def Lasting {τ : Type} (journal : Journal) : Call τ → Prop
  | .step link => ∀ op ∈ journal.operations, link.status op ≠ .invalidated
  | _ => True

/-- Whether only fresh connections invalidate operations. -/
def Lasts {τ : Type} (json : Json) : List (Call τ) → Journal → Prop
  | [], _ => True
  | call :: calls, journal => journal.Lasting call ∧ Lasts json calls (journal.note json call)

end Journal

/-- Whether a call stays within the sizes a packet can have. -/
def Call.Short {τ : Type} : Call τ → Prop
  | .handle inbound => inbound.payload.length < 2 ^ 32
  | _ => True

end Minimq.Staging

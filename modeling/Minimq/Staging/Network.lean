import Mathlib.Logic.Relation
import Minimq.Staging.Host
import Minimq.Staging.Run

/-! One host and one device, with messages that are delayed, lost, repeated and reordered. -/

namespace Minimq.Staging

/-- A device, a host and all they have published so far. -/
structure Network where
  service : Service
  /-- What the owner of the storage has seen. -/
  log : Log
  /-- Whether the host still waits for messages. -/
  running : Bool
  statuses : List StatusMessage
  publications : List Publication

/-- How a publication arrives: its fields are unchanged, the broker may have marked it. -/
structure InboundPublish.Delivers (inbound : InboundPublish) (publication : Publication) : Prop where
  /-- The topic. -/
  topic : inbound.topic = publication.topic
  /-- The payload. -/
  payload : inbound.payload = publication.payload
  /-- The properties. -/
  properties : inbound.properties.iter = publication.properties.map .ok

/-- A publication that is a chunk of a transfer. -/
def InboundPublish.IsChunk (inbound : InboundPublish) (root id : Bytes) : Prop :=
  inbound.topic = root ++ chunkSuffix ∧ correlationData inbound.properties = some id

/-- Whether a call is an inbound publication. -/
def Call.isHandle {τ : Type} : Call τ → Bool
  | .handle _ => true
  | _ => false

namespace Network

/-- The host has published its manifest, nothing has arrived. -/
def start (host : Host) (service : Service) : Network :=
  ⟨service, .empty, true, [], [host.announcement]⟩

/-- The device performs a call. -/
def call {τ : Type} (json : Json) (call : Call τ) (network : Network) : Network :=
  let (service, log) := perform json call (network.service, network.log)
  { network with
    service
    log
    statuses := network.statuses ++ (announced call network.service).toList }

/-- The host receives a message. -/
def receive (host : Host) (message : StatusMessage) (network : Network) : Network :=
  match host.reply message with
  | .ignored => network
  | .finished | .failed => { network with running := false }
  | .chunk publication =>
    { network with publications := network.publications ++ [publication] }

/-- What can happen next, if all chunks of the transfer `id` come from the host. -/
inductive Step (τ : Type) (json : Json) (host : Host) (id : Bytes) : Network → Network → Prop
  /-- A publication of the host arrives, early or late, once or again. -/
  | deliver {network : Network} {publication : Publication} {inbound : InboundPublish}
      (sent : publication ∈ network.publications) (delivers : inbound.Delivers publication)
      (short : inbound.payload.length < 2 ^ 32) :
      Step τ json host id network (network.call json (.handle inbound : Call τ))
  /-- Something else arrives. -/
  | foreign {network : Network} {inbound : InboundPublish}
      (other : ¬ inbound.IsChunk host.root id) (short : inbound.payload.length < 2 ^ 32) :
      Step τ json host id network (network.call json (.handle inbound : Call τ))
  /-- Storage results, aborts, reconnects and steps come at any time. -/
  | device {network : Network} {call : Call τ} (own : call.isHandle = false) :
      Step τ json host id network (network.call json call)
  /-- A status arrives at the host. -/
  | status {network : Network} {message : StatusMessage} (waiting : network.running = true)
      (sent : message ∈ network.statuses) :
      Step τ json host id network (network.receive host message)
  /-- The host gives up. -/
  | timeout (network : Network) : Step τ json host id network { network with running := false }

/-- What can happen one after the other. -/
def Reaches (τ : Type) (json : Json) (host : Host) (id : Bytes) : Network → Network → Prop :=
  Relation.ReflTransGen (Step τ json host id)

/-- One entry of a schedule: a call of the device's owner, or a message by its number. -/
inductive Event (τ : Type) where
  | call (call : Call τ)
  | deliver (index : Nat)
  | status (index : Nat)

/-- The publication that arrives unchanged. -/
def arrival (publication : Publication) : InboundPublish :=
  ⟨publication.topic, publication.payload, .slice publication.properties, false⟩

/-- Follow one entry of a schedule; what cannot happen is skipped. -/
def follow {τ : Type} (json : Json) (host : Host) (network : Network) : Event τ → Network
  | .call call => if call.isHandle then network else network.call json call
  | .deliver index =>
    match network.publications[index]? with
    | some publication =>
      if publication.payload.length < 2 ^ 32 then
        network.call json (.handle (arrival publication) : Call τ)
      else network
    | none => network
  | .status index =>
    match network.statuses[index]? with
    | some message => if network.running then network.receive host message else network
    | none => network

/-- Follow a schedule. -/
def play {τ : Type} (json : Json) (host : Host) (events : List (Event τ)) (network : Network) :
    Network :=
  events.foldl (follow json host) network

end Network

end Minimq.Staging

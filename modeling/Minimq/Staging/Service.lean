import Minimq.Lib.Decimal
import Minimq.Client.State

/-! The device side of staging: a state machine that asks a host for one object, chunk by chunk. -/

namespace Minimq.Staging

/-- The longest topic of the protocol. -/
def topicCapacity : Nat := 128

/-- The longest identifier of a transfer. -/
def maxTransferIdBytes : Nat := 48

/-- `/manifest` -/
def manifestSuffix : Bytes := [0x2F, 0x6D, 0x61, 0x6E, 0x69, 0x66, 0x65, 0x73, 0x74]

/-- `/status` -/
def statusSuffix : Bytes := [0x2F, 0x73, 0x74, 0x61, 0x74, 0x75, 0x73]

/-- `/chunk` -/
def chunkSuffix : Bytes := [0x2F, 0x63, 0x68, 0x75, 0x6E, 0x6B]

/-- `offset`, the key of the property that holds the position of a chunk. -/
def offsetKey : Utf8 := ⟨[0x6F, 0x66, 0x66, 0x73, 0x65, 0x74], by decide⟩

/-- Whether a byte may occur in the identifier of a transfer. -/
def isIdByte (byte : UInt8) : Bool :=
  inRange 0x30 0x39 byte || inRange 0x41 0x5A byte || inRange 0x61 0x7A byte ||
    -- The punctuation is `-`, `.` and `_`.
    byte == 0x2D || byte == 0x2E || byte == 0x5F

/-- Whether a text can identify a transfer. -/
def validId (id : Bytes) : Bool :=
  id != [] && decide (id.length ≤ maxTransferIdBytes) && id.all isIdByte

/-- The announcement of an object, as the JSON library decodes it. -/
structure Manifest where
  id : Bytes
  size : UInt32
  fnv1a64 : UInt64
  deriving DecidableEq

/-- The JSON library: a decoded manifest and the number of bytes it took. -/
abbrev Json := Bytes → Option (Manifest × Nat)

/-- An object being transferred. -/
structure Transfer where
  id : Bytes
  size : UInt32
  /-- The first byte that has not been written. -/
  nextOffset : UInt32
  fnv1a64 : UInt64
  /-- Only valid identifiers are accepted. -/
  idValid : validId id = true
  deriving DecidableEq

/-- Whether MQTT work remains after a step. -/
inductive Step where
  | quiescent
  | pending
  deriving DecidableEq

/-- Why a service cannot be created. -/
inductive CreateError where
  | topic (error : ResourceError)
  | invalidChunkSize
  deriving DecidableEq

/-- Storage limits of one service. -/
structure Config where
  capacity : UInt32
  maxChunkSize : Nat
  writeSize : Nat
  deriving DecidableEq

/-- The phases of a transfer. -/
inductive State where
  | idle
  | preparing
  | ready
  | writing
  | complete
  | error
  deriving DecidableEq

/-- Whether a phase belongs to an active transfer. -/
def State.isActive : State → Bool
  | .preparing | .ready | .writing => true
  | _ => false

/-- What a published status says about the latest event. -/
inductive StatusCode where
  | idle
  | accepted
  | duplicate
  | offset
  | oversize
  | mtu
  | unaligned
  | storage
  | complete
  | error
  deriving DecidableEq

/-- Progress and limits, as published. -/
structure Status where
  state : State
  /-- The latest event. -/
  code : StatusCode
  /-- The identifier of the transfer, empty without one. -/
  id : Bytes
  /-- The first byte that has not been written. -/
  nextOffset : UInt32
  size : UInt32
  mtu : Nat
  writeSize : Nat
  deriving DecidableEq

/-- A status publication: its decoded payload and its properties. -/
structure StatusMessage where
  topic : Bytes
  status : Status
  /-- Where chunks are expected. -/
  responseTopic : Bytes
  correlationData : Bytes
  /-- The requested position, as decimal text. -/
  offset : Bytes
  deriving DecidableEq

/-- An MQTT action of the service. -/
inductive Action where
  | publish (code : StatusCode)
  | subscribe
  deriving DecidableEq

/-- How a chunk is rejected: with a status only, or by failing the transfer. -/
inductive ChunkError where
  | queue (code : StatusCode)
  | fail (code : StatusCode)
  deriving DecidableEq

/-- An action whose acknowledgement is awaited. -/
structure InFlightAction where
  action : Action
  op : Op
  deriving DecidableEq

/-- The storage request whose result is awaited. -/
inductive PendingRequest where
  | prepare
  | write (nextOffset : UInt32) (finalChunk : Bool)
  deriving DecidableEq

/-- One accepted chunk. -/
structure StagingWrite where
  /-- Where the chunk goes. -/
  offset : UInt32
  payload : Bytes
  /-- The size of the object, without padding. -/
  size : UInt32
  /-- The checksum to verify, on the final chunk only. -/
  fnv1a64 : Option UInt64
  deriving DecidableEq

/-- A storage operation the owner has to perform. -/
inductive StagingRequest where
  | prepare (size : UInt32)
  | write (write : StagingWrite)
  deriving DecidableEq

/-- What becomes of an inbound publication. -/
inductive Handle where
  | unhandled
  | consumed
  | request (request : StagingRequest)
  deriving DecidableEq

/-- An inbound publication. -/
structure InboundPublish where
  topic : Bytes
  payload : Bytes
  properties : Properties
  /-- Whether the broker had retained it. -/
  retained : Bool

/-- The staging service of one object; the limits are those `Service::new` accepts. -/
structure Service where
  root : Bytes
  /-- The action that awaits its acknowledgement. -/
  inflight : Option InFlightAction
  /-- The action to start next. -/
  pending : Option Action
  /-- The status to publish after subscribing. -/
  startupPublish : Option StatusCode
  /-- Whether the subscription is in place. -/
  subscribed : Bool
  state : State
  transfer : Option Transfer
  /-- The storage request that awaits its result. -/
  request : Option PendingRequest
  capacity : UInt32
  maxChunkSize : Nat
  /-- The largest packet the client can receive. -/
  maxRxPacketSize : Nat
  writeSize : Nat
  /-- Writes are not empty. -/
  writeSizePos : 0 < writeSize
  /-- A chunk is a whole number of writes. -/
  chunkAligned : writeSize ∣ maxChunkSize
  topicsFit : root.length + manifestSuffix.length ≤ topicCapacity
  deriving DecidableEq

/-- Decode a manifest and check its identifier and what follows it. -/
def parseManifest (json : Json) (payload : Bytes) : Option Transfer :=
  match json payload with
  | none => none
  | some (manifest, used) =>
    if valid : validId manifest.id = true then
      -- Only ASCII whitespace may follow.
      if (payload.drop used).all fun byte =>
          byte == 0x20 || byte == 0x09 || byte == 0x0A || byte == 0x0C || byte == 0x0D then
        some ⟨manifest.id, manifest.size, 0, manifest.fnv1a64, valid⟩
      else none
    else none

/-- The digits of an unsigned number, which may have a plus sign in front. -/
def digits : Bytes → Bytes
  | [] => []
  | sign :: rest => if sign = 0x2B then rest else sign :: rest

/-- Read an unsigned number, as `u32::from_str` does. -/
def parseU32 (text : Bytes) : Option UInt32 :=
  match Decimal.value (digits text) with
  | none => none
  | some number => if number < 2 ^ 32 then some (UInt32.ofNat number) else none

/-- The first correlation data of a publication. -/
def correlationData (properties : Properties) : Option Bytes :=
  properties.iter.findSome? fun
    | .ok (.correlationData data) => some data
    | _ => none

/-- The position of a chunk; of several properties the last one counts, readable or not. -/
def chunkOffset (properties : Properties) : Option UInt32 :=
  properties.iter.foldl (fun offset property =>
    match property with
    | .ok (.userProperty key value) => if key = offsetKey then parseU32 value.bytes else offset
    | _ => offset) none

/-- The transfer and the position a chunk is meant for. -/
def chunkProperties (properties : Properties) : Option (Bytes × UInt32) := do
  let id ← correlationData properties
  let offset ← chunkOffset properties
  return (id, offset)

/-- Count the bytes of a variable byte integer. -/
def mqttVarintLenLoop : Nat → Nat → Nat → Nat
  | 0, _, len => len
  | fuel + 1, value, len =>
    if value < 128 then len else mqttVarintLenLoop fuel (value / 128) (len + 1)

/-- The length of a variable byte integer; each round divides the value. -/
def mqttVarintLen (value : Nat) : Nat := mqttVarintLenLoop value value 1

/-- A sum of `usize`; where it does not fit, a release build goes on and a debug build panics. -/
def wrapUsize (sum : Nat) : Nat :=
  -- The platform has 32 bits or more, so a smaller sum fits whatever its width is.
  if sum < 2 ^ 32 then sum else sum % USize.size

/-- The size of a chunk publication with a payload of the given size, as a release build sees it. -/
def requiredRxBytes (topic id : Bytes) (payloadSize : Nat) : Nat :=
  -- Payload format, correlation data and the offset as a user property of ten digits.
  let properties := wrapUsize (2 + 1 + 2 + id.length + 1 + 2 + offsetKey.len + 2 + 10)
  let remaining :=
    wrapUsize (2 + topic.length + 2 + mqttVarintLen properties + properties + payloadSize)
  wrapUsize (1 + mqttVarintLen remaining + remaining)

/-- What lies behind the object in a payload, if anything does. -/
def payloadPadding (payload : Bytes) (objectBytes : UInt32) : Option Bytes :=
  if objectBytes.toNat < payload.length then some (payload.drop objectBytes.toNat) else none

/-- Check a chunk against the progress and the limits; the result is the next offset. -/
def validateChunk (transfer : Transfer) (offset : UInt32) (payload : Bytes) (capacity : UInt32)
    (maxChunkSize writeSize : Nat) : Except ChunkError UInt32 :=
  if offset < transfer.nextOffset then .error (.queue .duplicate)
  else if offset ≠ transfer.nextOffset then .error (.queue .offset)
  else if payload = [] ∨ maxChunkSize < payload.length then .error (.fail .mtu)
  else if ¬ writeSize ∣ payload.length then .error (.fail .unaligned)
  else
    -- The length is cut to 32 bits, the sum is checked.
    let stop := offset.toNat + payload.length % 2 ^ 32
    if 2 ^ 32 ≤ stop then .error (.fail .oversize)
    else if capacity.toNat < stop then .error (.fail .oversize)
    else if stop ≤ transfer.size.toNat then .ok (UInt32.ofNat stop)
    else match payloadPadding payload (transfer.size - offset) with
      | none => .error (.fail .oversize)
      | some padding =>
        if padding.all (· == 0xFF) then .ok transfer.size else .error (.fail .oversize)

namespace Service

/-- Create a service, checking the limits and the topics. -/
def new (root : Bytes) (config : Config) : Except CreateError Service :=
  if sizes : config.writeSize = 0 ∨ config.maxChunkSize = 0 ∨
      ¬ config.writeSize ∣ config.maxChunkSize then .error .invalidChunkSize
  else if topicCapacity < root.length then .error (.topic .bufferTooSmall)
  else if long : topicCapacity < root.length + manifestSuffix.length then
    .error (.topic .bufferTooSmall)
  else if topicCapacity < root.length + statusSuffix.length then .error (.topic .bufferTooSmall)
  else if topicCapacity < root.length + chunkSuffix.length then .error (.topic .bufferTooSmall)
  else .ok {
    root
    inflight := none
    pending := none
    startupPublish := none
    subscribed := false
    state := .idle
    transfer := none
    request := none
    capacity := config.capacity
    maxChunkSize := config.maxChunkSize
    maxRxPacketSize := 0
    writeSize := config.writeSize
    writeSizePos := Nat.pos_of_ne_zero fun zero => sizes (.inl zero)
    chunkAligned := Decidable.of_not_not fun ragged => sizes (.inr (.inr ragged))
    topicsFit := Nat.le_of_not_lt long }

/-- The topic of manifests. -/
def manifestTopic (service : Service) : Bytes := service.root ++ manifestSuffix

/-- The topic of statuses. -/
def statusTopic (service : Service) : Bytes := service.root ++ statusSuffix

/-- The topic of chunks. -/
def chunkTopic (service : Service) : Bytes := service.root ++ chunkSuffix

/-- Queue an action; while a subscription is under way a status waits for it. -/
def queue (action : Action) (service : Service) : Service :=
  if service.pending = some .subscribe ∨
      service.inflight.map InFlightAction.action = some .subscribe then
    match action with
    | .publish code => { service with startupPublish := some code }
    | .subscribe => service
  else { service with pending := some action }

/-- The code of the current phase. -/
def currentCode (service : Service) : StatusCode :=
  match service.state with
  | .idle => .idle
  | .preparing | .ready | .writing => .accepted
  | .complete => .complete
  | .error => .error

/-- The status with a given code. -/
def statusWith (service : Service) (code : StatusCode) : Status where
  state := service.state
  code
  id := service.transfer.elim [] Transfer.id
  nextOffset := service.transfer.elim 0 Transfer.nextOffset
  size := service.transfer.elim 0 Transfer.size
  mtu := service.maxChunkSize
  writeSize := service.writeSize

/-- The status to repeat after a reconnect. -/
def replayStatus (service : Service) : Option StatusCode :=
  if service.state = .idle then none else some service.currentCode

/-- Begin startup after a connection was made. -/
def beginStartup (event : ConnectEvent) (service : Service) : Service :=
  let replay := service.replayStatus
  let service := if event = .connected then { service with inflight := none, subscribed := false }
    else service
  if service.subscribed then
    let service := { service with startupPublish := none }
    match replay with
    | some code => service.queue (.publish code)
    | none => service
  else queue .subscribe { service with startupPublish := replay }

/-- Abort an active transfer; the result tells whether there was one. -/
def abort (service : Service) : Bool × Service :=
  if service.state.isActive then
    (true, queue (.publish .error) { service with state := .error, request := none })
  else (false, service)

/-- Complete the outstanding storage request. -/
def completeRequest (success : Bool) (service : Service) : Service :=
  match service.request with
  | none => service
  | some request =>
    let service := { service with request := none }
    match service.transfer with
    | none => queue (.publish .error) { service with state := .error }
    | some transfer =>
      if success = false then queue (.publish .storage) { service with state := .error }
      else match request with
        | .prepare => queue (.publish .accepted) { service with state := .ready }
        | .write nextOffset finalChunk =>
          if finalChunk then
            queue (.publish .complete) { service with
              transfer := some { transfer with nextOffset := transfer.size }, state := .complete }
          else
            queue (.publish .accepted) { service with
              transfer := some { transfer with nextOffset }, state := .ready }

/-- Handle a manifest. -/
def handleManifest (json : Json) (payload : Bytes) (service : Service) : Handle × Service :=
  match parseManifest json payload with
  | none =>
    (.consumed, if service.state = .idle then service.queue (.publish .error) else service)
  | some manifest =>
    if service.state ≠ .idle then
      -- A repeated manifest asks for the status again; any other one is ignored.
      if service.transfer.any fun transfer => transfer.id = manifest.id ∧
          transfer.size = manifest.size ∧ transfer.fnv1a64 = manifest.fnv1a64 then
        (.consumed, service.queue (.publish service.currentCode))
      else (.consumed, service)
    else if manifest.size = 0 then (.consumed, service.queue (.publish .error))
    else if service.capacity < manifest.size then (.consumed, service.queue (.publish .oversize))
    else if service.maxRxPacketSize <
        requiredRxBytes service.chunkTopic manifest.id service.maxChunkSize then
      (.consumed, service.queue (.publish .mtu))
    else
      let service := queue (.publish .accepted)
        { service with transfer := some manifest, state := .preparing }
      (.request (.prepare manifest.size), { service with request := some .prepare })

/-- Handle a chunk. -/
def handleChunk (id : Bytes) (offset : UInt32) (payload : Bytes) (service : Service) :
    Handle × Service :=
  match service.transfer with
  | none => (.consumed, service.queue (.publish .idle))
  | some transfer =>
    if id ≠ transfer.id then (.consumed, service)
    else match service.state with
      | .preparing | .writing => (.consumed, service)
      | .complete | .error => (.consumed, service.queue (.publish service.currentCode))
      | .idle => (.consumed, service.queue (.publish .idle))
      | .ready =>
        match validateChunk transfer offset payload service.capacity service.maxChunkSize
            service.writeSize with
        | .error (.queue code) => (.consumed, service.queue (.publish code))
        | .error (.fail code) => (.consumed, queue (.publish code) { service with state := .error })
        | .ok nextOffset =>
          let finalChunk := nextOffset == transfer.size
          let fnv1a64 := if finalChunk then some transfer.fnv1a64 else none
          (.request (.write ⟨offset, payload, transfer.size, fnv1a64⟩),
            { service with state := .writing, request := some (.write nextOffset finalChunk) })

/-- What follows the topic root, if a topic starts with it. -/
def suffix (service : Service) (topic : Bytes) : Option Bytes :=
  if service.root.isPrefixOf topic then some (topic.drop service.root.length) else none

/-- Handle one inbound publication. -/
def handle (json : Json) (inbound : InboundPublish) (service : Service) : Handle × Service :=
  let suffix := service.suffix inbound.topic
  if suffix ≠ some manifestSuffix ∧ suffix ≠ some chunkSuffix then (.unhandled, service)
  else if inbound.retained then (.consumed, service)
  else if suffix = some manifestSuffix then service.handleManifest json inbound.payload
  else match chunkProperties inbound.properties with
    | none => (.consumed, service)
    | some (id, offset) => service.handleChunk id offset inbound.payload

end Service

/-- How the client answers an attempt to start an action. -/
inductive Attempt (τ : Type) where
  /-- The packet is queued. -/
  | started (op : Op)
  /-- The attempt failed, perhaps after the packet was queued. -/
  | failed (error : Error τ) (queued : Bool)
  /-- The attempt was dropped, perhaps after the packet was queued. -/
  | dropped (queued : Bool)

/-- What a step can learn from the connection it is given. -/
structure Link (τ : Type) where
  /-- The largest packet the client can receive. -/
  maxRxPacketSize : Nat
  /-- What became of an operation. -/
  status : Op → OpStatus
  /-- Whether no publication is in flight. -/
  isPublishQuiescent : Bool
  /-- The answer to the one attempt a step makes. -/
  attempt : Attempt τ

/-- How a step ends. -/
inductive StepEnd (τ : Type) where
  | ok (step : Step)
  | error (error : Error τ)
  | dropped

namespace Service

variable {τ : Type}

/-- The publication of a status. -/
def statusMessage (service : Service) (code : StatusCode) : StatusMessage where
  topic := service.statusTopic
  status := service.statusWith code
  responseTopic := service.chunkTopic
  correlationData := service.transfer.elim [] Transfer.id
  offset := Decimal.text (service.statusWith code).nextOffset.toNat

/-- What an action publishes for the host. -/
def published (service : Service) : Action → Option StatusMessage
  | .publish code => some (service.statusMessage code)
  | .subscribe => none

/-- Start the queued action. -/
def startPending (link : Link τ) (service : Service) :
    StepEnd τ × Service × Option StatusMessage :=
  match service.pending with
  | none => (.ok .quiescent, service, none)
  | some action =>
    match link.attempt with
    | .started op =>
      (.ok .pending, { service with pending := none, inflight := some ⟨action, op⟩ },
        service.published action)
    | .failed error queued =>
      let message := if queued then service.published action else none
      match error with
      | .notReady | .resource .inflightExhausted => (.ok .pending, service, message)
      | .resource .bufferTooSmall =>
        if link.isPublishQuiescent then (.error error, service, message)
        else (.ok .pending, service, message)
      | error => (.error error, service, message)
    | .dropped queued =>
      (.dropped, service, if queued then service.published action else none)

/-- Advance one queued MQTT operation. -/
def step (link : Link τ) (service : Service) : StepEnd τ × Service × Option StatusMessage :=
  let service := { service with maxRxPacketSize := link.maxRxPacketSize }
  match service.inflight with
  | none => service.startPending link
  | some inflight =>
    match link.status inflight.op with
    | .pending => (.ok .pending, service, none)
    | .invalidated =>
      (.error .disconnected, queue inflight.action { service with inflight := none }, none)
    | .complete =>
      let service := { service with inflight := none }
      if inflight.action = .subscribe then
        let service := { service with subscribed := true }
        match service.startupPublish with
        | some code =>
          startPending link (queue (.publish code) { service with startupPublish := none })
        | none => service.startPending link
      else service.startPending link

end Service

end Minimq.Staging

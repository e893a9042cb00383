import Minimq.Client.Handshake

/-! The operations of an application: publish, subscribe, unsubscribe and disconnect. -/

namespace Minimq

variable {α ε π τ : Type}

/-- An outbound publication. -/
structure Publication (π : Type) where
  topic : Utf8
  properties : Properties
  /-- The requested quality of service. -/
  qos : QoS
  payload : Payload π
  retain : Retain

/-- Take an identifier that is not in use. -/
def takePacketId : Client τ ε UInt16 := do
  match (← currentSession).data.nextPacketId with
  -- The search has no end.
  | none => throw .dropped
  | some (packetId, data) =>
    updateData fun _ => data
    return packetId

/-- Fail if no slot is left for a packet to retain. -/
def requireRetainedSlot (outbound : Outbound) : Except (Error τ) Unit :=
  if outbound.retained.isFull then .error (.resource .inflightExhausted) else .ok ()

/-- Record the state in which an operation is admitted, and its encoding. -/
def noteAdmission (before : Session) (kind : OpKind) (packetId : UInt16) :
    Except ε (Nat × Bytes) → Client τ α Unit
  | .ok (_, packet) => Async.note (.admitted before.handling kind packetId packet)
  | .error _ => pure ()

/-- Encode a request behind the retained packets and keep it until it is acknowledged. -/
def admitRequest [ControlPacket α] (kind : OpKind) (packetId : UInt16) (packet : α) :
    Client τ (Error τ) Unit := do
  let before ← currentSession
  match ← onOutbound (Outbound.encodePacket packet) with
  | .error error => Async.fail error.toError
  | .ok len =>
    Async.ofExcept ((← currentSession).runtime.requirePacketSize len)
    match (← currentOutbound).retainPacket kind packetId len with
    | .error error => Async.fail error.toError
    | .ok retained =>
      updateOutbound fun _ => retained
      noteAdmission before kind packetId (before.data.outbound.packetEncoding packet).1

/-- Send a request that is retained until it is acknowledged. -/
def sendRequest [ControlPacket α] (kind : OpKind) (packet : UInt16 → α) :
    Client τ (Error τ) Op := do
  flushOutbound
  Async.ofExcept (requireRetainedSlot (← currentOutbound))
  let packetId ← takePacketId
  admitRequest kind packetId (packet packetId)
  flushOutbound
  return ⟨kind, packetId, (← currentSession).data.generation⟩

/-- Send a SUBSCRIBE. -/
def subscribe (topics : List TopicFilter) (properties : List Property) :
    Client τ (Error τ) Op := do
  if !(← Async.self).live then Async.fail .disconnected
  if topics = [] then Async.fail .invalidRequest
  if !(Properties.slice properties).validFor .subscribe then Async.fail .invalidRequest
  sendRequest .subscribe fun packetId => Subscribe.mk packetId (.slice properties) topics

/-- Send an UNSUBSCRIBE. -/
def unsubscribe (topics : List Utf8) (properties : List Property) : Client τ (Error τ) Op := do
  if !(← Async.self).live then Async.fail .disconnected
  if topics = [] then Async.fail .invalidRequest
  if !(Properties.slice properties).validFor .unsubscribe then Async.fail .invalidRequest
  sendRequest .unsubscribe fun packetId => Unsubscribe.mk packetId (.slice properties) topics

/-- The quality of service a publication is sent with; none means that it is refused. -/
def effectiveQos (session : Session) (qos : QoS) : Option QoS :=
  match session.runtime.maxQos with
  | some maxQos =>
    if maxQos.toNat < qos.toNat then (if session.downgradeQos then some maxQos else none)
    else some qos
  | none => some qos

/-- Encode a publication behind the retained packets and check its size. -/
def encodeRetained (header : PublishHeader) (payload : Payload π) :
    Client τ ε (Except (PubError π τ) Nat) := do
  match ← onOutbound (Outbound.encodePublish header payload) with
  | .error error => return .error error
  | .ok len =>
    match (← currentSession).runtime.requirePacketSize len with
    | .error error => return .error (.session error)
    | .ok () => return .ok len

/-- Keep an encoded publication until it is acknowledged, and take its quota. -/
def retainPublication (kind : OpKind) (packetId : UInt16) (len : Nat) :
    Client τ (PubError π τ) Unit := do
  match (← currentOutbound).retainPacket kind packetId len with
  | .error error => Async.fail (.session error.toError)
  | .ok retained =>
    updateOutbound fun _ => retained
    updateRuntime fun runtime => { runtime with sendQuota := runtime.sendQuota - 1 }

/-- Publish with QoS 1 or 2: admission happens before any transport call. -/
def publishRetained (header : PublishHeader) (payload : Payload π) (packetId : UInt16) :
    Client τ (PubError π τ) (Option Op) := do
  match (requireRetainedSlot (← currentOutbound) : Except (Error τ) Unit) with
  | .error error =>
    Async.mapError .session flushOutbound
    Async.fail (.session error)
  | .ok () =>
    if !(← Async.self).canPublish header.qos then
      Async.mapError .session flushOutbound
      Async.fail (.session .notReady)
    let kind := if header.qos = .exactlyOnce then OpKind.publishExactlyOnce
      else OpKind.publishAtLeastOnce
    let before ← currentSession
    match ← encodeRetained header payload with
    | .error error =>
      Async.mapError .session flushOutbound
      Async.fail error
    | .ok len =>
      retainPublication kind packetId len
      noteAdmission before kind packetId
        (before.data.outbound.publishEncoding header payload).1
      Async.mapError .session flushOutbound
      return some ⟨kind, packetId, (← currentSession).data.generation⟩

/-- Encode a publication into the scratch space. -/
def encodeScratch (header : PublishHeader) (payload : Payload π) :
    Client τ (PubError π τ) Bytes := do
  let (result, scratch) :=
    encodePublishWithOffset (← currentOutbound).scratchSpace header payload
  updateOutbound fun outbound =>
    { outbound with buf := Arena.overwrite outbound.buf outbound.retainedBytes scratch }
  match result with
  | .error (.inl error) => Async.fail (.session error.toError)
  | .error (.inr error) => Async.fail (.payload error)
  | .ok (_, packet) => return packet

/-- Publish with QoS 0: the packet goes to the transport directly. -/
def publishDirect (header : PublishHeader) (payload : Payload π) :
    Client τ (PubError π τ) (Option Op) := do
  if !(← Async.self).canPublish header.qos then
    Async.mapError .session flushOutbound
    Async.fail (.session .notReady)
  Async.mapError .session flushOutbound
  let packet ← encodeScratch header payload
  Async.mapError .session
    (Async.ofExcept ((← currentSession).runtime.requirePacketSize packet.length))
  if !(← Async.self).live then Async.fail (.session .disconnected)
  Async.note (.direct packet)
  match ← Async.attempt (writeAll packet) with
  | .error error =>
    disconnected
    Async.fail (.session error)
  | .ok () =>
    match ← Async.flush with
    | .error error =>
      disconnected
      Async.fail (.session (.transport error))
    | .ok () =>
      let now ← Async.now
      Async.note (.active now)
      updateRuntime (·.noteOutboundActivity now)
      return none

/-- Send a PUBLISH. -/
def publish (publication : Publication π) : Client τ (PubError π τ) (Option Op) := do
  if !(← Async.self).live then Async.fail (.session .disconnected)
  if !publication.properties.validFor .publish then Async.fail (.session .invalidRequest)
  match effectiveQos (← currentSession) publication.qos with
  | none => Async.fail (.session .invalidRequest)
  | some .atMostOnce =>
    publishDirect ⟨publication.topic, none, publication.properties, publication.retain,
      .atMostOnce, false⟩ publication.payload
  | some qos =>
    let packetId ← takePacketId
    publishRetained ⟨publication.topic, some packetId, publication.properties,
      publication.retain, qos, false⟩ publication.payload packetId

/-- Write and flush the last packet of a connection. -/
def writeTerminal (packet : Bytes) : Client τ (Error τ) Unit := do
  writeAll packet
  match ← Async.flush with
  | .error error => Async.fail (.transport error)
  | .ok () => return ()

/-- Send the last packet of a connection, which is finished afterwards, whatever the outcome. -/
def sendDisconnect (packet : Bytes) : Client τ (Error τ) Unit := do
  Async.ofExcept ((← currentSession).runtime.requirePacketSize packet.length)
  -- A cancelled publication can leave a packet half written or a flush suspended.
  flushOutbound
  Async.note (.direct packet)
  let result ← Async.attempt (writeTerminal packet)
  disconnected
  Async.ofExcept result

/-- Send a DISCONNECT. -/
def disconnectWith (disconnect : Disconnect) : Client τ (Error τ) Unit := do
  if !(← Async.self).live then return ()
  if disconnect.properties.any (!·.validFor .disconnect) then Async.fail .invalidRequest
  match encode smallBuf disconnect with
  | .error error => Async.fail error.toError
  | .ok packet => sendDisconnect packet

end Minimq

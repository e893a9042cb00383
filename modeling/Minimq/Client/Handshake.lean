import Minimq.Client.Drive

/-! Establishing or resuming a session on a new transport. -/

namespace Minimq

variable {τ : Type}

/-- What the broker's answer announces. -/
structure Announced where
  /-- The largest packet the broker accepts. -/
  maximumPacketSize : Option UInt32
  assignedClientId : Option ClientId
  /-- The keepalive interval in ticks. -/
  keepaliveInterval : Nat
  /-- How many publications may be started. -/
  sendQuota : Nat
  /-- How many publications may be under way at once. -/
  maxSendQuota : Nat
  /-- The highest quality of service the broker accepts. -/
  maxQos : Option QoS

namespace Announced

/-- Account for one property of the answer to a client with the given identifier. -/
def apply (clientId : ClientId) (announced : Announced) : Property → Except PeerError Announced
  | .maximumPacketSize size => .ok { announced with maximumPacketSize := some size }
  | .assignedClientIdentifier id =>
    -- Only a client without an identifier is assigned one, and only once.
    if clientId.text.len ≠ 0 ∨ announced.assignedClientId.isSome then .error .invalidPacket
    else match ClientId.tryFrom id with
      | some assigned => .ok { announced with assignedClientId := some assigned }
      | none => .error .invalidPacket
  | .serverKeepAlive keepalive =>
    .ok { announced with keepaliveInterval := keepalive.toNat * ticksPerSecond }
  | .receiveMaximum max =>
    if max = 0 then .error .invalidPacket
    else .ok { announced with
      sendQuota := min max.toNat Outbound.maxInflight
      maxSendQuota := min max.toNat Outbound.maxInflight }
  | .maximumQoS max =>
    match QoS.tryFrom max with
    | some qos => .ok { announced with maxQos := some qos }
    | none => .error .invalidPacket
  | _ => .ok announced

/-- Account for all properties of the answer, up to the first bad one. -/
def applyAll (clientId : ClientId) :
    Announced → List (Except PeerError Property) → Except PeerError Announced
  | announced, [] => .ok announced
  | _, .error error :: _ => .error error
  | announced, .ok property :: rest => do applyAll clientId (← announced.apply clientId property) rest

/-- What holds before any property is read. -/
def initial (runtime : RuntimeState) : Announced where
  maximumPacketSize := none
  assignedClientId := none
  keepaliveInterval := runtime.keepaliveInterval
  sendQuota := Outbound.maxInflight
  maxSendQuota := Outbound.maxInflight
  maxQos := none

end Announced

namespace Session

/-- The connection request of a session. -/
def connectPacket (session : Session) : Connect where
  keepalive := UInt16.ofNat (session.runtime.keepaliveInterval / ticksPerSecond)
  properties := .slice [
    .maximumPacketSize (UInt32.ofNat session.packetReader.buffer.length),
    .sessionExpiryInterval session.sessionExpiryInterval,
    .receiveMaximum (UInt16.ofNat maxInboundQos2)]
  clientId := session.clientId.text
  auth := session.auth
  will := session.will
  cleanStart := !session.data.sessionPresent

/-- What the serializer makes of the connection request in the scratch space. -/
def connectEncoding (session : Session) : Except SerError (Nat × Bytes) × Bytes :=
  encodeWithOffset session.data.outbound.scratchSpace session.connectPacket

/-- Adopt the limits the broker announced. -/
def adoptLimits (session : Session) (resumed : Bool) (announced : Announced) : Session :=
  { session with runtime := { session.runtime with
    sessionResumed := resumed
    keepaliveInterval := announced.keepaliveInterval
    sendQuota := announced.sendQuota
    maxSendQuota := announced.maxSendQuota
    maxQos := announced.maxQos
    maximumPacketSize := announced.maximumPacketSize } }

end Session

/-- Send the connection request; the result is the workspace it needed. -/
def sendConnect : Client τ (Error τ) Nat := do
  let (result, scratch) := (← currentSession).connectEncoding
  updateOutbound fun outbound =>
    { outbound with buf := Arena.overwrite outbound.buf outbound.retainedBytes scratch }
  match result with
  | .error error => Async.fail error.toError
  | .ok (offset, packet) =>
    writeAll packet
    match ← Async.flush with
    | .error error => Async.fail (.transport error)
    | .ok () => return offset + packet.length

/-- Reserve space for the next connection request. -/
def reserveWorkspace (len : Nat) : Client τ (Error τ) Unit := do
  match (← currentOutbound).setConnectWorkspace len with
  | .error error => Async.fail (.resource error)
  | .ok outbound => updateOutbound fun _ => outbound

/-- Wait for the broker's answer. -/
def receiveConnAck : Client τ (Error τ) ConnAck := do
  match ← Async.attempt fillPacketReader with
  | .error error =>
    disconnected
    Async.fail error
  | .ok () =>
    match ← onPacketReader PacketReader.takePacket with
    | .error error =>
      disconnected
      Async.fail error.toError
    | .ok (_, .connAck ack) => return ack
    | .ok (_, .disconnect _) =>
      disconnected
      Async.fail .disconnected
    | .ok _ =>
      disconnected
      Async.fail (.peer .invalidPacket)

/-- Start the session over unless the broker resumed it. -/
def resumeOrReset (ack : ConnAck) : Client τ (Error τ) Unit := do
  if !ack.sessionPresent then
    updateData SessionData.reset
    Async.note .reset

/-- Take over an assigned client identifier, with room for it in the next connection request. -/
def adoptClientId (connectWorkspace : Nat) : Option ClientId → Client τ (Error τ) Unit
  | none => pure ()
  | some assigned => do
    -- The request carried an empty identifier, so the assigned one adds only its bytes.
    reserveWorkspace (connectWorkspace + assigned.text.len)
    updateSession fun session => { session with clientId := assigned }

/-- The session is established. -/
def activate (ack : ConnAck) : Client τ (Error τ) ConnectEvent := do
  updateData fun data => { data with sessionPresent := true }
  let now ← Async.now
  Async.note (.active now)
  updateRuntime fun runtime => { runtime.noteOutboundActivity now with pingTimeout := none }
  Async.note (.connected (← currentSession).handling ack)
  return if ack.sessionPresent then .reconnected else .connected

/-- Take over what the broker answered. -/
def adoptConnAck (connectWorkspace : Nat) (ack : ConnAck) : Client τ (Error τ) ConnectEvent := do
  match ack.reasonCode.asResult with
  | .error error => Async.fail (.peer error)
  | .ok () =>
    resumeOrReset ack
    let session ← currentSession
    match Announced.applyAll session.clientId (.initial session.runtime) ack.properties.iter with
    | .error error =>
      disconnected
      Async.fail (.peer error)
    | .ok announced =>
      updateSession (·.adoptLimits ack.sessionPresent announced)
      adoptClientId connectWorkspace announced.assignedClientId
      activate ack

/-- Exchange the connection request and its answer. -/
def connectHandshake : Client τ (Error τ) ConnectEvent := do
  let connectWorkspace ← sendConnect
  reserveWorkspace connectWorkspace
  updateRuntime fun runtime => { runtime with nextPing := none, pingTimeout := none }
  let ack ← receiveConnAck
  adoptConnAck connectWorkspace ack

/-- Reset what a previous connection may have left behind. -/
def Session.rearm (session : Session) : Session :=
  { session with
    packetReader := session.packetReader.reset
    runtime := session.runtime.resetTransport
    data := { session.data with outbound := session.data.outbound.armReplay } }

/-- Establish or resume the session on a new transport. -/
def connect : Client τ (Error τ) ConnectEvent := do
  Async.note .opened
  Async.update fun connection => { connection with live := false }
  updateSession Session.rearm
  let event ← connectHandshake
  Async.update fun connection => { connection with live := true, flushState := .clean }
  return event

end Minimq

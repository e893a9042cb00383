import Minimq.Client.State

/-! Processing of one inbound packet. -/

namespace Minimq

/-- A handler; what it changed before it failed is kept. -/
abbrev Handler := EStateM (Error Empty) Handling

namespace Handler

/-- Drop an acknowledged packet; the result says whether it was retained. -/
def ackPacket (kind : OpKind) (packetId : UInt16) : Handler Bool := do
  let state ← get
  match state.data.outbound.ackPacket kind packetId with
  | none => return false
  | some outbound =>
    set { state with data := { state.data with outbound } }
    return true

/-- Drop a completed publication; the result says whether it was tracked. -/
def ackRelease (packetId : UInt16) : Handler Bool := do
  let state ← get
  match state.data.outbound.ackRelease packetId with
  | none => return false
  | some outbound =>
    set { state with data := { state.data with outbound } }
    return true

/-- Return the quota of a publication. -/
def returnQuota : Handler Unit :=
  modify fun state => { state with runtime := { state.runtime with
    sendQuota := min (min (state.runtime.sendQuota + 1) 65535) state.runtime.maxSendQuota } }

/-- Fail with a protocol error, if there is one. -/
def protocol {α : Type} : Except ProtocolError α → Handler α
  | .ok value => pure value
  | .error error => throw error.toError

/-- Fail if the peer reports a failure. -/
def require (code : ReasonCode) : Handler Unit :=
  match code.asResult with
  | .ok () => pure ()
  | .error error => throw (.peer error)

/-- Fail with the first failure code of a list. -/
def requireAll : Bytes → Handler Unit
  | [] => pure ()
  | code :: rest => do
    require (.fromByte code)
    requireAll rest

/-- Queue a control packet that the broker accepts. -/
def queueControl (action : ControlAction) : Handler Unit := do
  protocol (checkControlPacketSize (← get).runtime.maximumPacketSize action)
  let outbound ← protocol ((← get).data.outbound.queueControl action)
  modify fun state => { state with data := { state.data with outbound } }

/-- Remember a publication whose PUBREC was received. -/
def queueRelease (packetId : UInt16) (reason : ReasonCode) : Handler Unit := do
  let outbound ← protocol ((← get).data.outbound.queueRelease packetId reason)
  modify fun state => { state with data := { state.data with outbound } }

/-- An acknowledgement of a subscription request ends it, whatever its codes are. -/
def subAck (kind : OpKind) (ack : SubAck) : Handler Bool := do
  if ← ackPacket kind ack.packetId then
    requireAll ack.codes
    return false
  else return false

/-- A PUBACK ends a QoS 1 publication, whatever its code is. -/
def pubAck (ack : PubAck) : Handler Bool := do
  if ← ackPacket .publishAtLeastOnce ack.packetId then
    returnQuota
    require ack.reason.code
    return false
  else return false

/-- A PUBREC turns a retained QoS 2 publication into a pending release. -/
def pubRec (rec : PubRec) : Handler Bool := do
  if ← ackPacket .publishExactlyOnce rec.packetId then
    returnQuota
    require rec.reason.code
    protocol (checkPubrelSize (← get).runtime.maximumPacketSize rec.packetId .success)
    queueRelease rec.packetId .success
    return false
  else if (← get).data.outbound.hasPendingRelease rec.packetId then
    -- The release is still tracked, so a repeated PUBREC has nothing to add.
    require rec.reason.code
    return false
  else return false

/-- A PUBCOMP ends a QoS 2 publication, whatever its code is. -/
def pubComp (comp : PubComp) : Handler Bool := do
  if ← ackRelease comp.packetId then
    require comp.reason.code
    return false
  else return false

/-- A PUBREL ends an inbound QoS 2 handshake and is always answered. -/
def pubRel (rel : PubRel) : Handler Bool := do
  let state ← get
  let pending := state.data.pendingServerPacketIds
  let reason ← match pending.toList.findIdx? (· == rel.packetId) with
    | some index =>
      set { state with data := { state.data with
        pendingServerPacketIds := pending.swapRemove index } }
      pure ReasonCode.success
    | none => pure ReasonCode.packetIdNotFound
  queueControl (.pubComp rel.packetId reason)
  return false

/-- The packet identifier that a publication above QoS 0 must carry. -/
def requirePacketId (info : Publish) : Handler UInt16 :=
  match info.packetId with
  | some packetId => pure packetId
  | none => throw ProtocolError.malformedPacket.toError

/-- An inbound publication is acknowledged and, unless it is a duplicate, delivered. -/
def publish (info : Publish) : Handler Bool :=
  match info.qos with
  | .atMostOnce => return true
  | .atLeastOnce => do
    let packetId ← requirePacketId info
    let pending := (← get).data.pendingServerPacketIds.toList.contains packetId
    let reason := if pending then ReasonCode.packetIdInUse else .success
    queueControl (.pubAck packetId reason)
    return true
  | .exactlyOnce => do
    let packetId ← requirePacketId info
    let state ← get
    let pending := state.data.pendingServerPacketIds
    let duplicate := pending.toList.contains packetId
    let reason ← if duplicate then pure ReasonCode.success
      else match pending.push packetId with
        | some pushed =>
          set { state with data := { state.data with pendingServerPacketIds := pushed } }
          pure ReasonCode.success
        | none => pure ReasonCode.receiveMaxExceeded
    queueControl (.pubRec packetId reason)
    return !(duplicate || !reason.isSuccess)

end Handler

/-- Process a packet; the result says whether it is delivered to the application. -/
def handlePacket : ReceivedPacket → Handler Bool
  | .connAck _ => throw ProtocolError.unexpectedPacket.toError
  | .subAck ack => Handler.subAck .subscribe ack
  | .unsubAck ack => Handler.subAck .unsubscribe ack
  | .pingResp => do
    modify fun state => { state with runtime := { state.runtime with pingTimeout := none } }
    return false
  | .pubAck ack => Handler.pubAck ack
  | .pubRec rec => Handler.pubRec rec
  | .pubComp comp => Handler.pubComp comp
  | .pubRel rel => Handler.pubRel rel
  | .publish info => Handler.publish info
  | .disconnect _ => throw .disconnected

variable {τ ε α : Type}

/-- Run a handler on the session. -/
def onHandling (action : Handler α) : Client τ ε (Except (Error Empty) α) :=
  Async.zoom (fun connection => connection.session.handling) Connection.setHandling action

/-- An error that is not about the transport, over any transport. -/
def Error.widen : Error Empty → Error τ
  | .notReady => .notReady
  | .disconnected => .disconnected
  | .invalidRequest => .invalidRequest
  | .peer error => .peer error
  | .resource error => .resource error
  | .writeZero => .writeZero

/-- The handler errors that end the connection. -/
def Error.isFatal : Error Empty → Bool
  | .disconnected => true
  | .peer .invalidPacket => true
  | .resource .packetTooLarge => true
  | _ => false

/-- Process the complete packet in the reader; the result is the length of a delivered one. -/
def processReceivedPacket : Client τ (Error τ) (Option Nat) := do
  if !(← currentSession).packetReader.packetAvailable then return none
  match ← onPacketReader PacketReader.takePacket with
  | .error error =>
    disconnected
    Async.fail error.toError
  | .ok (packetLength, packet) =>
    let before := (← currentSession).handling
    match ← onHandling (handlePacket packet) with
    | .ok true =>
      Async.note (.handled before packet true)
      return some packetLength
    | .ok false =>
      Async.note (.handled before packet false)
      return none
    | .error error =>
      Async.note (.handled before packet false)
      if error.isFatal then disconnected
      Async.fail error.widen

/-- A delivered publication. -/
structure InboundPublish where
  topic : Utf8
  payload : Bytes
  properties : Properties
  retain : Retain
  qos : QoS

/-- Decode a delivered publication from the receive buffer. -/
def decodeInboundPublish (packetLength : Nat) : Client τ (Error τ) InboundPublish := do
  let buffer := (← currentSession).packetReader.buffer
  if buffer.length < packetLength then Async.fail ProtocolError.malformedPacket.toError
  match ReceivedPacket.fromBuffer (buffer.take packetLength) with
  | .error error => Async.fail error.toError
  | .ok (.publish info) =>
    return ⟨info.topic, info.payload, info.properties, info.retain, info.qos⟩
  | .ok _ => Async.fail ProtocolError.unexpectedPacket.toError

end Minimq

import Minimq.Client.Inbound

/-! Progress of a connection: writing, flushing, reading and keepalive. -/

namespace Minimq

variable {τ ε : Type}

/-- One write: the packet, its bytes and the position of the next one. -/
structure WriteStep where
  packet : Packet
  bytes : Bytes
  /-- How many of them were written before. -/
  written : Nat
  deriving DecidableEq

/-- What a round of progress achieved. -/
inductive Progress where
  | idle
  | advanced
  | inbound (packetLength : Nat)
  deriving DecidableEq

/-- Read until a complete packet is in the reader. -/
def fillPacketReader : Client τ (Error τ) Unit := do
  Async.iterate (← Async.rounds) (fun _ => do
    if (← currentSession).packetReader.packetAvailable then return .inr ()
    match ← onPacketReader PacketReader.receiveBuffer with
    | .error error => Async.fail error.toError
    | .ok window =>
      if window = 0 then return .inr ()
      match ← Async.read window with
      | .error error => Async.fail (.transport error)
      | .ok chunk =>
        if chunk = [] then Async.fail .disconnected
        updateReader fun reader => (reader.fill chunk).commit chunk.length
        return .inl ())
    ()

/-- Read a packet; a failure ends the connection. -/
def readPacket : Client τ (Error τ) Unit := do
  if !(← Async.self).live then Async.fail .disconnected
  match ← Async.attempt fillPacketReader with
  | .ok () => return ()
  | .error error =>
    disconnected
    Async.fail error

/-- Whether the connection has been idle for long enough. -/
def shouldQueuePingreq (session : Session) (now : Nat) : Bool :=
  session.runtime.pingTimeout.isNone &&
    (match session.runtime.nextPing with
      | some deadline => deadline ≤ now
      | none => false) &&
    !session.data.outbound.hasPendingPingreq

/-- Queue a PINGREQ if one is due. -/
def maybeQueuePingreq (now : Nat) : Client τ (Error τ) Unit := do
  let session ← currentSession
  if shouldQueuePingreq session now then
    match checkControlPacketSize session.runtime.maximumPacketSize .pingReq with
    | .error error => Async.fail error.toError
    | .ok () =>
      match session.data.outbound.queueControl .pingReq with
      | .error error => Async.fail error.toError
      | .ok outbound => updateOutbound fun _ => outbound

/-- Drain accepted bytes; the connection stays in the flushing state until that is done. -/
def flushCurrent : Client τ (Error τ) Unit := do
  if !(← Async.self).live then Async.fail .disconnected
  Async.update fun connection => { connection with flushState := .flushing }
  match ← Async.flush with
  | .error error =>
    disconnected
    Async.fail (.transport error)
  | .ok () =>
    let now ← Async.now
    Async.note (.active now)
    updateOutbound Outbound.completeFlush
    updateRuntime (·.noteOutboundActivity now)
    Async.update fun connection => { connection with flushState := .clean }

/-- The bytes to write for a step. -/
def writeStep (session : Session) : OutboundStep → Except (Error τ) WriteStep
  | .control index action written => do
    let packet ← serializeControlPacket action session.runtime.maximumPacketSize
    return ⟨.control index, packet, written⟩
  | .release packetId reason written => do
    let packet ← serializePubrel packetId reason session.runtime.maximumPacketSize
    return ⟨.release packetId, packet, written⟩
  | .retained packetId offset len written => do
    session.runtime.requirePacketSize len
    return ⟨.retained packetId, session.data.outbound.retainedPacket offset len, written⟩

/-- Account for written bytes of a packet. -/
def Outbound.setWritten (outbound : Outbound) (written len : Nat) : Packet → Outbound
  | .control index => outbound.setControlWritten index written len
  | .release packetId => outbound.setReleaseWritten packetId written len
  | .retained packetId => outbound.setRetainedWritten packetId written len

/-- Whether a step writes a PINGREQ. -/
def OutboundStep.isPing : OutboundStep → Bool
  | .control _ action _ => action == .pingReq
  | _ => false

/-- Offer bytes to the transport, which must accept at least one. -/
def writeCurrent (bytes : Bytes) : Client τ ε (Except (Error τ) Nat) := do
  match ← Async.write bytes with
  | .error error => return .error (.transport error)
  | .ok 0 => return .error .writeZero
  | .ok count => return .ok count

/-- Write what the transport accepts of the next packet. -/
def performOutboundStep (step : OutboundStep) : Client τ (Error τ) Bool := do
  let current ← Async.ofExcept (writeStep (← currentSession) step)
  if !(← Async.self).live then Async.fail .disconnected
  match ← writeCurrent (current.bytes.drop current.written) with
  | .error error =>
    -- A write fails only with a transport error or without accepting a byte.
    disconnected
    Async.fail error
  | .ok count =>
    Async.update fun connection => { connection with flushState := .dirty }
    let written := current.written + count
    updateOutbound fun outbound => outbound.setWritten written current.bytes.length current.packet
    Async.note (.wrote current.packet current.bytes current.written count)
    if step.isPing && written == current.bytes.length then
      let now ← Async.now
      updateRuntime fun runtime => { runtime with
        pingTimeout := some (now + roundTripTimeoutMs * ticksPerMillisecond) }
    return true

/-- Make one step of outbound progress; the result says whether there was any to make. -/
def serviceOutboundOnce (now : Nat) : Client τ (Error τ) Bool := do
  if (← Async.self).flushState = .flushing then
    flushCurrent
    return true
  match (← currentOutbound).nextStep with
  | some step => performOutboundStep step
  | none =>
    if (← Async.self).flushState = .dirty then
      flushCurrent
      return true
    -- Pending traffic already supplies keepalive activity.
    maybeQueuePingreq now
    match (← currentOutbound).nextStep with
    | some step => performOutboundStep step
    | none => return false

/-- Make one step of progress unless the PINGRESP is overdue. -/
def service (now : Nat) : Client τ (Error τ) Bool := do
  match (← currentSession).runtime.pingTimeout with
  | some deadline =>
    if deadline ≤ now then
      disconnected
      Async.fail .disconnected
    else serviceOutboundOnce now
  | none => serviceOutboundOnce now

/-- Write and flush until nothing is left to send. -/
def flushOutbound : Client τ (Error τ) Unit := do
  Async.iterate (← Async.rounds) (fun _ => do
    let now ← Async.now
    if ← serviceOutboundOnce now then return .inl () else return .inr ())
    ()

/-- Process the packet in the reader and leave the loop if it is delivered. -/
def deliver : Client τ (Error τ) (Bool ⊕ Progress) := do
  match ← processReceivedPacket with
  | some packetLength => return .inr (.inbound packetLength)
  | none => return .inl true

/-- One round of `drivePacket`. -/
def driveRound (advanced : Bool) : Client τ (Error τ) (Bool ⊕ Progress) := do
  let session ← currentSession
  let available := session.packetReader.packetAvailable
  -- Release the metadata of written acknowledgements before admitting more.
  if available && session.data.outbound.pendingControl.length == maxPendingControl then
    let now ← Async.now
    let progress ← serviceOutboundOnce now
    return .inl (advanced || progress)
  if available then return ← deliver
  let now ← Async.now
  let progress ← service now
  let advanced := advanced || progress
  let connection ← Async.self
  if connection.session.packetReader.packetAvailable then return ← deliver
  if connection.session.data.outbound.nextStep.isNone && connection.flushState == .clean then
    return .inr (if advanced then .advanced else .idle)
  return .inl advanced

/-- Advance until a publication is delivered or there is nothing left to do. -/
def drivePacket : Client τ (Error τ) Progress := do
  if !(← Async.self).live then Async.fail .disconnected
  Async.iterate (← Async.rounds) driveRound false

/-- Advance local state without waiting for input or for a timer. -/
def drive : Client τ (Error τ) (Option InboundPublish) := do
  match ← drivePacket with
  | .inbound packetLength => return some (← decodeInboundPublish packetLength)
  | .idle | .advanced => return none

/-- Wait for input or for the next timer. -/
def awaitInput : Client τ (Error τ) Unit := do
  match (← currentSession).runtime.nextDeadline with
  | some deadline =>
    -- An expired timer is handled by the next round.
    let _ ← Async.withDeadline deadline readPacket
  | none => readPacket

/-- Wait until any progress happens; the result is the length of a delivered packet. -/
def waitForProgress : Client τ (Error τ) (Option Nat) := do
  Async.iterate (← Async.rounds) (fun _ => do
    match ← drivePacket with
    | .inbound packetLength => return .inr (some packetLength)
    | .advanced => return .inr none
    | .idle =>
      awaitInput
      return .inl ())
    ()

/-- Wait until any progress happens. -/
def poll : Client τ (Error τ) (Option InboundPublish) := do
  match ← waitForProgress with
  | some packetLength => return some (← decodeInboundPublish packetLength)
  | none => return none

/-- Wait until a publication is delivered. -/
def recv : Client τ (Error τ) InboundPublish := do
  Async.iterate (← Async.rounds) (fun _ => do
    match ← waitForProgress with
    | some packetLength => return .inr (← decodeInboundPublish packetLength)
    | none => return .inl ())
    ()

end Minimq

import Minimq.Lib.Async
import Minimq.Codec.PacketReader
import Minimq.Client.Outbound

/-! The session and its parts, and the connection that borrows it. -/

namespace Minimq

/-- How many inbound QoS 2 publications can be under way. -/
def maxInboundQos2 : Nat := 8

/-- Storage for the configured or broker-assigned client identifier. -/
def clientIdCapacity : Nat := 64

/-- Clock ticks in one millisecond. -/
def ticksPerMillisecond : Nat := 1000

/-- Clock ticks in one second. -/
def ticksPerSecond : Nat := 1000 * ticksPerMillisecond

/-- Upper bound for one keepalive round trip, in milliseconds. -/
def roundTripTimeoutMs : Nat := 5000

/-- A client identifier in its fixed-capacity storage. -/
structure ClientId where
  text : Utf8
  fits : text.len ≤ clientIdCapacity
  deriving DecidableEq

/-- Copy an identifier into the storage, if it fits. -/
def ClientId.tryFrom (text : Utf8) : Option ClientId :=
  if fits : text.len ≤ clientIdCapacity then some ⟨text, fits⟩ else none

/-- A packet identifier that is not zero. -/
abbrev NonZeroId := { id : UInt16 // id ≠ 0 }

/-- The identifier behind another one, wrapping around zero. -/
def NonZeroId.succ (id : NonZeroId) : NonZeroId :=
  if nonzero : id.val + 1 ≠ 0 then ⟨id.val + 1, nonzero⟩ else ⟨1, by decide⟩

/-- What holds for one connection: limits of the broker and keepalive timers. -/
structure RuntimeState where
  sessionResumed : Bool
  /-- The keepalive interval in ticks. -/
  keepaliveInterval : Nat
  /-- How many publications may still be started. -/
  sendQuota : Nat
  /-- How many publications may be under way at once. -/
  maxSendQuota : Nat
  /-- The largest packet the broker accepts. -/
  maximumPacketSize : Option UInt32
  /-- The highest quality of service the broker accepts. -/
  maxQos : Option QoS
  /-- When to send the next PINGREQ. -/
  nextPing : Option Nat
  /-- When the outstanding PINGRESP is overdue. -/
  pingTimeout : Option Nat

namespace RuntimeState

/-- The state before the first connection. -/
def new (keepaliveInterval : Nat) : RuntimeState :=
  ⟨false, keepaliveInterval, 65535, 65535, none, none, none, none⟩

/-- Forget what belongs to the lost transport. -/
def resetTransport (runtime : RuntimeState) : RuntimeState :=
  { runtime with sessionResumed := false, nextPing := none, pingTimeout := none }

/-- How long after the last outbound activity a PINGREQ is due, in ticks. -/
def keepaliveSendInterval (runtime : RuntimeState) : Option Nat :=
  let keepaliveMs := runtime.keepaliveInterval / ticksPerMillisecond
  if keepaliveMs = 0 then none
  else some ((keepaliveMs - min roundTripTimeoutMs (keepaliveMs / 2)) * ticksPerMillisecond)

/-- Restart the keepalive interval. -/
def noteOutboundActivity (runtime : RuntimeState) (now : Nat) : RuntimeState :=
  { runtime with nextPing := runtime.keepaliveSendInterval.map (now + ·) }

/-- Refuse a packet that exceeds the peer's limit. -/
def requirePacketSize {τ : Type} (runtime : RuntimeState) (len : Nat) : Except (Error τ) Unit :=
  if exceeds runtime.maximumPacketSize len then .error (.resource .packetTooLarge) else .ok ()

/-- The earlier of the two timers. -/
def nextDeadline (runtime : RuntimeState) : Option Nat :=
  match runtime.nextPing, runtime.pingTimeout with
  | some nextPing, some pingTimeout => some (min nextPing pingTimeout)
  | some nextPing, none => some nextPing
  | none, some pingTimeout => some pingTimeout
  | none, none => none

end RuntimeState

/-- What survives a connection: identifiers, outbound packets and inbound handshakes. -/
structure SessionData where
  /-- The identifier to try next. -/
  packetId : NonZeroId
  /-- How often the session was started over, modulo 2^32. -/
  generation : UInt32
  outbound : Outbound
  /-- The inbound QoS 2 publications that wait for their PUBREL. -/
  pendingServerPacketIds : FixedVec UInt16 maxInboundQos2
  /-- Whether the broker is expected to have the session. -/
  sessionPresent : Bool

namespace SessionData

/-- A new session over a transmit arena. -/
def new (outbound : Bytes) : SessionData :=
  ⟨⟨1, by decide⟩, 0, .new outbound, .empty, false⟩

/-- Start the session over. -/
def reset (data : SessionData) : SessionData :=
  { data with
    sessionPresent := false
    generation := data.generation + 1
    packetId := ⟨1, by decide⟩
    outbound := data.outbound.clearInflight
    pendingServerPacketIds := .empty }

/-- Whether an identifier is carried by a retained packet or a pending release. -/
def isLive (data : SessionData) (packetId : UInt16) : Bool :=
  data.outbound.hasRetained packetId || data.outbound.hasPendingRelease packetId

/-- Search for an identifier that is not in use; the source's loop has no bound. -/
def nextPacketIdLoop : (fuel : Nat) → SessionData → Option (UInt16 × SessionData)
  | 0, _ => none
  | fuel + 1, data =>
    let packetId := data.packetId.val
    let data := { data with packetId := data.packetId.succ }
    if !data.outbound.hasRetained packetId && !data.outbound.hasPendingRelease packetId then
      some (packetId, data)
    else nextPacketIdLoop fuel data

/-- An identifier that is not in use; no result means that the search never ends. -/
def nextPacketId (data : SessionData) : Option (UInt16 × SessionData) :=
  -- After this many steps the cursor has visited every identifier.
  nextPacketIdLoop 65536 data

end SessionData

/-- A long-lived client session. -/
structure Session where
  /-- The client identifier; empty until the broker has assigned one. -/
  clientId : ClientId
  /-- The inbound packet under assembly. -/
  packetReader : PacketReader
  /-- What survives a connection. -/
  data : SessionData
  /-- What holds for one connection. -/
  runtime : RuntimeState
  will : Option Will
  auth : Option Auth
  /-- How long the broker keeps the session, in seconds. -/
  sessionExpiryInterval : UInt32
  /-- Whether to lower the quality of service to what the broker accepts. -/
  downgradeQos : Bool

/-- The settings of a session. -/
structure ConfigBuilder where
  rx : Bytes
  tx : Bytes
  will : Option Will := none
  clientId : ClientId := ⟨.empty, Nat.zero_le _⟩
  /-- The keepalive interval in seconds. -/
  keepaliveSeconds : UInt16 := 60
  /-- How long the broker keeps the session, in seconds. -/
  sessionExpiryInterval : UInt32 := 0
  /-- Whether to lower the quality of service to what the broker accepts. -/
  downgradeQos : Bool := false
  auth : Option Auth := none

/-- A handle for one outbound operation. -/
structure Op where
  kind : OpKind
  packetId : UInt16
  /-- The session it belongs to. -/
  generation : UInt32
  deriving DecidableEq

/-- What became of an operation. -/
inductive OpStatus where
  | pending
  | complete
  | invalidated
  deriving DecidableEq

namespace Session

/-- Construct a session from its settings. -/
def new (config : ConfigBuilder) : Session where
  clientId := config.clientId
  packetReader := .new config.rx
  data := .new config.tx
  runtime := .new (config.keepaliveSeconds.toNat * ticksPerSecond)
  will := config.will
  auth := config.auth
  sessionExpiryInterval := config.sessionExpiryInterval
  downgradeQos := config.downgradeQos

/-- Whether there is local capacity to attempt a publication. -/
def canPublish (session : Session) (qos : QoS) : Bool :=
  if qos = .atMostOnce then maxFixedHeaderSize ≤ session.data.outbound.scratchLen
  else session.runtime.sendQuota != 0 && session.data.outbound.canRetain

/-- What became of an operation. -/
def status (session : Session) (op : Op) : OpStatus :=
  if op.generation ≠ session.data.generation then .invalidated
  else
    let pending := match op.kind with
      | .publishAtLeastOnce | .subscribe | .unsubscribe =>
        session.data.outbound.hasRetained op.packetId
      | .publishExactlyOnce =>
        session.data.outbound.hasRetained op.packetId ||
          session.data.outbound.hasPendingRelease op.packetId
    if pending then .pending else .complete

/-- Reset local transport state and arm the replay. -/
def handleDisconnect (session : Session) : Session :=
  { session with
    data := { session.data with outbound := session.data.outbound.armReplay }
    runtime := session.runtime.resetTransport
    packetReader := session.packetReader.reset }

end Session

/-- Whether accepted bytes still have to be flushed. -/
inductive FlushState where
  | clean
  | dirty
  | flushing
  deriving DecidableEq

/--
A session and the connection that borrows it.

A session without a connection handle is a connection that is not live: a handle whose transport
is dead accepts no operation, and `connect` starts from whatever the previous handle left behind.
-/
structure Connection where
  session : Session
  /-- Whether the transport is in use. -/
  live : Bool
  /-- Whether accepted bytes still have to be flushed. -/
  flushState : FlushState

/-- Whether the broker started a new session or resumed one. -/
inductive ConnectEvent where
  | connected
  | reconnected
  deriving DecidableEq

namespace Connection

/-- A session that was never connected. -/
def new (config : ConfigBuilder) : Connection := ⟨.new config, false, .clean⟩

/-- Whether the transport is in use and there is local capacity to attempt a publication. -/
def canPublish (connection : Connection) (qos : QoS) : Bool :=
  connection.live && connection.session.canPublish qos

/-- Mark a connection dead without sending DISCONNECT. -/
def handleDisconnect (connection : Connection) : Connection :=
  { connection with live := false, session := connection.session.handleDisconnect }

/-- The outbound state. -/
abbrev outbound (connection : Connection) : Outbound := connection.session.data.outbound

/-- The runtime state. -/
abbrev runtime (connection : Connection) : RuntimeState := connection.session.runtime

/-- Change the session. -/
def mapSession (f : Session → Session) (connection : Connection) : Connection :=
  { connection with session := f connection.session }

/-- Change the runtime state. -/
def mapRuntime (f : RuntimeState → RuntimeState) (connection : Connection) : Connection :=
  connection.mapSession fun session => { session with runtime := f session.runtime }

/-- Change the session data. -/
def mapData (f : SessionData → SessionData) (connection : Connection) : Connection :=
  connection.mapSession fun session => { session with data := f session.data }

/-- Change the outbound state. -/
def mapOutbound (f : Outbound → Outbound) (connection : Connection) : Connection :=
  connection.mapData fun data => { data with outbound := f data.outbound }

/-- Change the packet reader. -/
def mapReader (f : PacketReader → PacketReader) (connection : Connection) : Connection :=
  connection.mapSession fun session => { session with packetReader := f session.packetReader }

end Connection

/-- The parts of a session that an inbound packet can change. -/
structure Handling where
  /-- What survives the connection. -/
  data : SessionData
  /-- What holds for the connection. -/
  runtime : RuntimeState

/-- The parts of a session that an inbound packet can change. -/
def Session.handling (session : Session) : Handling := ⟨session.data, session.runtime⟩

/-- Replace the parts of a session that an inbound packet can change. -/
def Connection.setHandling (state : Handling) (connection : Connection) : Connection :=
  connection.mapSession fun session =>
    { session with data := state.data, runtime := state.runtime }

/-- The packet a write belongs to. -/
inductive Packet where
  | control (index : Nat)
  | release (packetId : UInt16)
  | retained (packetId : UInt16)
  deriving DecidableEq

/--
Points of interest in a run, recorded for the specification.

No behaviour depends on them: the client only appends to the record.
-/
inductive Event where
  /-- A connection attempt began on a new transport. -/
  | opened
  /-- The broker's answer discarded the session. -/
  | reset
  /-- A handshake completed with this answer and left this state. -/
  | connected (state : Handling) (ack : ConnAck)
  /-- An operation was admitted in this state, with this encoding. -/
  | admitted (before : Handling) (kind : OpKind) (packetId : UInt16) (packet : Bytes)
  /-- A packet that is not tracked is handed to the transport. -/
  | direct (packet : Bytes)
  /-- The keepalive interval was restarted at this instant. -/
  | active (now : Nat)
  /-- Some bytes of this tracked packet were accepted, from a position on. -/
  | wrote (packet : Packet) (bytes : Bytes) (start count : Nat)
  /-- An inbound packet was processed in this state, and delivered to the application or not. -/
  | handled (before : Handling) (packet : ReceivedPacket) (delivered : Bool)

section Programs

variable {τ ε α : Type}

/-- A client operation over a transport with errors of type `τ`. -/
abbrev Client (τ ε α : Type) := Async.Program Event τ Connection ε α

/-- The world of a client. -/
abbrev ClientWorld (τ : Type) := Async.World Event τ Connection

/-- Change the session. -/
def updateSession (f : Session → Session) : Client τ ε Unit :=
  Async.update (·.mapSession f)

/-- Change the runtime state. -/
def updateRuntime (f : RuntimeState → RuntimeState) : Client τ ε Unit :=
  Async.update (·.mapRuntime f)

/-- Change the session data. -/
def updateData (f : SessionData → SessionData) : Client τ ε Unit :=
  Async.update (·.mapData f)

/-- Change the outbound state. -/
def updateOutbound (f : Outbound → Outbound) : Client τ ε Unit :=
  Async.update (·.mapOutbound f)

/-- Change the packet reader. -/
def updateReader (f : PacketReader → PacketReader) : Client τ ε Unit :=
  Async.update (·.mapReader f)

/-- Mark the connection dead. -/
def disconnected : Client τ ε Unit := Async.update Connection.handleDisconnect

/-- The current session. -/
def currentSession : Client τ ε Session := do return (← Async.self).session

/-- The current outbound state. -/
def currentOutbound : Client τ ε Outbound := do return (← Async.self).outbound

/-- Run a computation on the outbound state. -/
def onOutbound {ε' : Type} (action : EStateM ε' Outbound α) : Client τ ε (Except ε' α) :=
  Async.zoom Connection.outbound (fun outbound => Connection.mapOutbound fun _ => outbound) action

/-- Run a computation on the packet reader. -/
def onPacketReader {ε' : Type} (action : EStateM ε' PacketReader α) : Client τ ε (Except ε' α) :=
  Async.zoom (fun connection => connection.session.packetReader)
    (fun reader => Connection.mapReader fun _ => reader) action

/-- Write bytes until the transport has accepted all of them. -/
def writeAll (bytes : Bytes) : Client τ (Error τ) Unit := do
  Async.iterate (← Async.rounds) (fun bytes => do
    if bytes = [] then return .inr ()
    match ← Async.write bytes with
    | .error error => Async.fail (.transport error)
    | .ok written => if written = 0 then Async.fail .writeZero else return .inl (bytes.drop written))
    bytes

end Programs

end Minimq

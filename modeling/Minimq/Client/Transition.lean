import Mathlib.Logic.Relation
import Minimq.Client.Run
import Minimq.Lib.History
import Minimq.Proofs.Codec.Serializer

/-!
What a client can do, one transition at a time.

Between two awaits an operation runs without interruption, so a run is a sequence of the transitions
below. They say what changes and when that may happen, not in which order the source does it.
-/

namespace Minimq

variable {τ : Type}

/-- What an observer sees of a client. -/
abbrev ClientMoment := Async.Moment Event Connection

/-- The packet of an admitted operation, as the encoder produced it. -/
inductive OpPacket : OpKind → UInt16 → Bytes → Prop where
  | publish {π : Type} {buf : Bytes} {header : PublishHeader} {payload : Payload π}
      {kind : OpKind} {packetId : UInt16} {offset : Nat} {packet : Bytes}
      (identified : header.packetId = some packetId)
      (level : kind = if header.qos = .exactlyOnce then OpKind.publishExactlyOnce
        else OpKind.publishAtLeastOnce)
      (encoded : (encodePublishWithOffset buf header payload).1 = .ok (offset, packet)) :
      OpPacket kind packetId packet
  | subscribe {buf : Bytes} {request : Subscribe} {offset : Nat} {packet : Bytes}
      (encoded : (encodeWithOffset buf request).1 = .ok (offset, packet)) :
      OpPacket .subscribe request.packetId packet
  | unsubscribe {buf : Bytes} {request : Unsubscribe} {offset : Nat} {packet : Bytes}
      (encoded : (encodeWithOffset buf request).1 = .ok (offset, packet)) :
      OpPacket .unsubscribe request.packetId packet

/-- A packet with its DUP flag set. -/
def duplicate (packet : Bytes) : Bytes := packet.modifyHead markPublishDuplicate

/-- A complete packet, as one of the encoders produced it. -/
inductive EncodedPacket : Bytes → Prop where
  | control {action : ControlAction} {packet : Bytes}
      (encoded : encodeControlPacket smallBuf action = .ok packet) : EncodedPacket packet
  | release {packetId : UInt16} {reason : ReasonCode} {packet : Bytes}
      (encoded : encodePubrel smallBuf packetId reason = .ok packet) : EncodedPacket packet
  | operation {kind : OpKind} {packetId : UInt16} {packet : Bytes}
      (admitted : OpPacket kind packetId packet) : EncodedPacket packet
  | replayed {kind : OpKind} {packetId : UInt16} {packet : Bytes}
      (admitted : OpPacket kind packetId packet) (publish : kind.isPublish = true) :
      EncodedPacket (duplicate packet)
  | direct {π : Type} {buf : Bytes} {header : PublishHeader} {payload : Payload π} {offset : Nat}
      {packet : Bytes} (level : header.qos = .atMostOnce)
      (encoded : (encodePublishWithOffset buf header payload).1 = .ok (offset, packet)) :
      EncodedPacket packet
  | disconnect {disconnect : Disconnect} {packet : Bytes}
      (encoded : encode smallBuf disconnect = .ok packet) : EncodedPacket packet

/-- How many bytes the fields of a session's connection request take. -/
def Session.requestLength (session : Session) : Option Nat :=
  tokensLength (ControlPacket.tokens session.connectPacket)

namespace Connection

/-- Nothing is left to write or to flush. -/
def Quiet (connection : Connection) : Prop :=
  connection.outbound.nextStep = none ∧ connection.flushState = .clean

/-- The state after the transport accepted some bytes of a packet. -/
def afterWrite (connection : Connection) (step : OutboundStep) (current : WriteStep)
    (count now : Nat) : Connection :=
  let written := ({ connection with flushState := .dirty } : Connection).mapOutbound fun outbound =>
    outbound.setWritten (current.written + count) current.bytes.length current.packet
  if step.isPing && current.written + count == current.bytes.length then
    written.mapRuntime fun runtime => { runtime with
      pingTimeout := some (now + roundTripTimeoutMs * ticksPerMillisecond) }
  else written

/-- The state after the transport drained what it had accepted. -/
def afterFlush (connection : Connection) (now : Nat) : Connection :=
  { (connection.mapOutbound Outbound.completeFlush).mapRuntime (·.noteOutboundActivity now) with
    flushState := .clean }

/-- The state after an inbound packet, and whether the packet is delivered. -/
def handle (connection : Connection) (packet : ReceivedPacket) : Connection × Bool :=
  match handlePacket packet connection.session.handling with
  | .ok delivered state => (connection.setHandling state, delivered)
  | .error error state =>
    (if error.isFatal then (connection.setHandling state).handleDisconnect
      else connection.setHandling state, false)

/-- The state after an operation was admitted with a packet that is already in the arena. -/
def enlist (connection : Connection) (kind : OpKind) (buf : Bytes)
    (retained : FixedVec RetainedPacket maxRetained) : Connection :=
  let kept := connection.mapOutbound fun outbound => { outbound with buf, retained }
  if kind.isPublish then
    kept.mapRuntime fun runtime => { runtime with sendQuota := runtime.sendQuota - 1 }
  else kept

/-- The fields of the connection request have exactly the reserved room behind its header. -/
def Reserved (connection : Connection) : Prop :=
  ∃ len, connection.session.requestLength = some len ∧
    connection.outbound.connectWorkspace = maxFixedHeaderSize + len

end Connection

/-- Two arenas of the same size that agree on their first bytes. -/
structure SameUpTo (used : Nat) (before after : Bytes) : Prop where
  /-- The size is the same. -/
  size : after.length = before.length
  /-- The first bytes are the same. -/
  kept : after.take used = before.take used

/-- What makes an operation admissible. -/
structure Admissible (connection : Connection) (kind : OpKind) (packetId : UInt16) (packet buf : Bytes)
    (retained : FixedVec RetainedPacket maxRetained) : Prop where
  /-- The connection is live. -/
  alive : connection.live = true
  /-- The identifier is not zero. -/
  nonzero : packetId ≠ 0
  /-- The identifier is not in use. -/
  unused : connection.session.data.isLive packetId = false
  /-- The packet is one of the operation. -/
  legal : OpPacket kind packetId packet
  /-- A slot is left. -/
  slot : connection.outbound.retained.push ⟨kind, packetId, packet.length, .write 0⟩ = some retained
  /-- The retained packets are still in the arena. -/
  kept : SameUpTo connection.outbound.retainedBytes connection.outbound.buf buf
  /-- The packet is right behind them. -/
  placed : (buf.drop connection.outbound.retainedBytes).take packet.length = packet
  /-- The reserved room stays free. -/
  room : connection.outbound.retainedBytes + packet.length ≤ connection.outbound.retainedCapacity
  /-- A publication needs quota. -/
  quota : kind.isPublish = true → connection.runtime.sendQuota ≠ 0

/-- The ReceiveMaximum after one more property of the broker's answer. -/
def receiveMaximumOf (current : Nat) : Except PeerError Property → Nat
  | .ok (.receiveMaximum max) => max.toNat
  | _ => current

/-- The ReceiveMaximum of the broker's answer; the protocol's default is its largest value. -/
def ConnAck.receiveMaximum (ack : ConnAck) : Nat :=
  ack.properties.iter.foldl receiveMaximumOf 65535

/-- The MaximumPacketSize after one more property of the broker's answer. -/
def maximumPacketSizeOf (current : Option UInt32) : Except PeerError Property → Option UInt32
  | .ok (.maximumPacketSize size) => some size
  | _ => current

/-- The MaximumPacketSize of the broker's answer; without one there is no limit. -/
def ConnAck.maximumPacketSize (ack : ConnAck) : Option UInt32 :=
  ack.properties.iter.foldl maximumPacketSizeOf none

/-- What makes a packet that is not tracked ready to be written. -/
structure Ready (connection : Connection) (packet : Bytes) : Prop where
  /-- The connection is live. -/
  alive : connection.live = true
  /-- Nothing else is left to write or to flush. -/
  quiet : connection.Quiet
  /-- The packet is a complete one. -/
  legal : EncodedPacket packet
  /-- The broker accepts a packet of its size. -/
  sized : exceeds connection.runtime.maximumPacketSize packet.length = false

/-- What happens when a packet that is not tracked is handed to the transport in chunks. -/
def handover (packet : Bytes) (chunks : List Bytes) (drain : List (Async.Happening Event)) :
    List (Async.Happening Event) :=
  .noted (.direct packet) :: chunks.map .accepted ++ drain

/-- How far a packet that is not tracked has got, and what the transport was asked to do about it. -/
inductive Partly (packet : Bytes) : List Bytes → List (Async.Happening Event) → Prop where
  | some {chunks : List Bytes} (part : chunks.flatten <+: packet) : Partly packet chunks []
  | accepted {chunks : List Bytes} (whole : chunks.flatten = packet) :
      Partly packet chunks [.flushing]
  | flushed {chunks : List Bytes} (whole : chunks.flatten = packet) :
      Partly packet chunks [.flushing, .flushed]

/-- An occurrence that is not about a tracked packet, a handshake or an inbound packet. -/
inductive Routine : Async.Happening Event → Prop where
  | accepted (bytes : Bytes) : Routine (.accepted bytes)
  | flushing : Routine .flushing
  | flushed : Routine .flushed
  | received (bytes : Bytes) : Routine (.received bytes)
  | direct (packet : Bytes) : Routine (.noted (.direct packet))
  | active (now : Nat) : Routine (.noted (.active now))

/-- A connection attempt begins or succeeds. -/
def Starts (event : Async.Happening Event) : Prop :=
  event = .noted .opened ∨ ∃ state ack, event = .noted (.connected state ack)

/-- Transitions that write, flush, keep the connection alive or end it. -/
inductive Outflow (τ : Type) : ClientMoment → ClientMoment → Prop where
  /-- Time passes. -/
  | tick {moment : ClientMoment} {now : Nat} (later : moment.time ≤ now) :
      Outflow τ moment { moment with time := now }
  /-- The transport accepts bytes of the next packet. -/
  | wrote {moment : ClientMoment} {step : OutboundStep} {current : WriteStep} {count now : Nat}
      (alive : moment.self.live = true) (idle : moment.self.flushState ≠ .flushing)
      (next : moment.self.outbound.nextStep = some step)
      (encoded : (writeStep moment.self.session step : Except (Error τ) WriteStep) = .ok current)
      (positive : 0 < count) (within : count ≤ (current.bytes.drop current.written).length)
      (later : moment.time ≤ now) :
      Outflow τ moment ⟨moment.self.afterWrite step current count now,
        moment.trace ++ [.accepted ((current.bytes.drop current.written).take count),
          .noted (.wrote current.packet current.bytes current.written count)], now⟩
  /-- A flush begins once everything is written, or a suspended one begins again. -/
  | flushing {moment : ClientMoment} (alive : moment.self.live = true)
      (ready : moment.self.flushState = .flushing ∨
        moment.self.flushState = .dirty ∧ moment.self.outbound.nextStep = none) :
      Outflow τ moment { moment with
        self := { moment.self with flushState := .flushing }
        trace := moment.trace ++ [.flushing] }
  /-- A flush completes. -/
  | flushed {moment : ClientMoment} {now : Nat} (alive : moment.self.live = true)
      (flushing : moment.self.flushState = .flushing) (later : moment.time ≤ now) :
      Outflow τ moment ⟨moment.self.afterFlush now,
        moment.trace ++ [.flushed, .noted (.active now)], now⟩
  /-- The connection is given up. -/
  | disconnected {moment : ClientMoment} :
      Outflow τ moment { moment with self := moment.self.handleDisconnect }
  /-- A PINGREQ is queued on an idle connection. -/
  | pinged {moment : ClientMoment} {outbound : Outbound} (alive : moment.self.live = true)
      (quiet : moment.self.Quiet) (due : shouldQueuePingreq moment.self.session moment.time = true)
      (queued : moment.self.outbound.queueControl .pingReq = .ok outbound) :
      Outflow τ moment { moment with self := moment.self.mapOutbound fun _ => outbound }

/-- Transitions of a connection that is not established yet. -/
inductive Opening : ClientMoment → ClientMoment → Prop where
  /-- Bytes of the connection request are accepted or drained. -/
  | preamble {moment : ClientMoment} {events : List (Async.Happening Event)}
      (closed : moment.self.live = false)
      (transport : ∀ event ∈ events,
        event = .flushing ∨ event = .flushed ∨ ∃ bytes, event = .accepted bytes)
      (attempt : History.Since (· = .noted .opened) Starts moment.trace) :
      Opening moment { moment with trace := moment.trace ++ events }
  /-- Room for the next connection request is reserved. -/
  | reserved {moment : ClientMoment} {len : Nat} {outbound : Outbound}
      (closed : moment.self.live = false)
      (request : moment.self.session.requestLength = some len)
      (fits : moment.self.outbound.setConnectWorkspace (maxFixedHeaderSize + len) =
        .ok outbound) :
      Opening moment { moment with self := moment.self.mapOutbound fun _ => outbound }
  /-- The timers of the lost transport are cleared. -/
  | untimed {moment : ClientMoment} (closed : moment.self.live = false) :
      Opening moment { moment with self := moment.self.mapRuntime fun runtime =>
        { runtime with nextPing := none, pingTimeout := none } }
  /-- The limits of the broker are adopted. -/
  | limited {moment : ClientMoment} {resumed : Bool} {announced : Announced}
      (closed : moment.self.live = false)
      (keepalive : announced.keepaliveInterval = moment.self.runtime.keepaliveInterval ∨
        ∃ seconds, announced.keepaliveInterval = seconds * ticksPerSecond) :
      Opening moment { moment with
        self := moment.self.mapSession fun session => session.adoptLimits resumed announced }
  /-- The identifier assigned by the broker is adopted, with room for it. -/
  | assigned {moment : ClientMoment} {len : Nat} {outbound : Outbound} {clientId : ClientId}
      (closed : moment.self.live = false) (anonymous : moment.self.session.clientId.text.len = 0)
      (request : moment.self.session.requestLength = some len)
      (fits : moment.self.outbound.setConnectWorkspace
        (maxFixedHeaderSize + len + clientId.text.len) = .ok outbound) :
      Opening moment { moment with
        self := (moment.self.mapOutbound fun _ => outbound).mapSession fun session =>
          { session with clientId } }

/-- Transitions that touch neither the stream nor a tracked packet. -/
inductive Upkeep : ClientMoment → ClientMoment → Prop where
  /-- The packet reader changes, and bytes may have been received. -/
  | reading {moment : ClientMoment} {reader : PacketReader} {chunks : List Bytes} :
      Upkeep moment { moment with
        self := moment.self.mapReader fun _ => reader
        trace := moment.trace ++ chunks.map .received }
  /-- The arena behind the retained packets is used as scratch space. -/
  | scratched {moment : ClientMoment} {buf : Bytes}
      (kept : SameUpTo moment.self.outbound.retainedBytes moment.self.outbound.buf buf) :
      Upkeep moment { moment with self := moment.self.mapOutbound fun outbound =>
        { outbound with buf } }
  /-- Packet identifiers are passed over. -/
  | skipped {moment : ClientMoment} {packetId : NonZeroId} :
      Upkeep moment { moment with self := moment.self.mapData fun data =>
        { data with packetId } }

/-- All transitions of a client, except a direct write that is dropped midway. -/
inductive Step (τ : Type) : ClientMoment → ClientMoment → Prop where
  | outflow {before after : ClientMoment} (step : Outflow τ before after) : Step τ before after
  | upkeep {before after : ClientMoment} (step : Upkeep before after) : Step τ before after
  | opening {before after : ClientMoment} (step : Opening before after) : Step τ before after
  /-- An inbound packet is processed. -/
  | handled {moment : ClientMoment} (packet : ReceivedPacket) (alive : moment.self.live = true)
      (quiet : moment.self.Quiet) :
      Step τ moment { moment with
        self := (moment.self.handle packet).1
        trace := moment.trace ++ [.noted (.handled moment.self.session.handling packet
          (moment.self.handle packet).2)] }
  /-- An operation is admitted. -/
  | admitted {moment : ClientMoment} {kind : OpKind} {packetId : UInt16} {packet buf : Bytes}
      {retained : FixedVec RetainedPacket maxRetained}
      (admissible : Admissible moment.self kind packetId packet buf retained) :
      Step τ moment { moment with
        self := moment.self.enlist kind buf retained
        trace := moment.trace ++
          [.noted (.admitted moment.self.session.handling kind packetId packet)] }
  /-- A packet that is not tracked is written as a whole and flushed. -/
  | direct {moment : ClientMoment} {packet : Bytes} {chunks : List Bytes} {now : Nat}
      (ready : Ready moment.self packet) (whole : chunks.flatten = packet)
      (later : moment.time ≤ now) :
      Step τ moment ⟨moment.self.mapRuntime (·.noteOutboundActivity now),
        moment.trace ++ handover packet chunks [.flushing, .flushed, .noted (.active now)], now⟩
  /-- The connection ends during or after a packet that is not tracked. -/
  | broken {moment : ClientMoment} {packet : Bytes} {chunks : List Bytes}
      {drain : List (Async.Happening Event)}
      (ready : Ready moment.self packet) (part : Partly packet chunks drain) :
      Step τ moment { moment with
        self := moment.self.handleDisconnect
        trace := moment.trace ++ handover packet chunks drain }
  /-- A connection attempt begins. -/
  | opened {moment : ClientMoment} :
      Step τ moment { moment with
        self := ({ moment.self with live := false } : Connection).mapSession Session.rearm
        trace := moment.trace ++ [.noted .opened] }
  /-- The broker starts the session over. -/
  | reset {moment : ClientMoment} (closed : moment.self.live = false) :
      Step τ moment { moment with
        self := moment.self.mapData SessionData.reset
        trace := moment.trace ++ [.noted .reset] }
  /-- The handshake completes. -/
  | connected {moment : ClientMoment} {now : Nat} {ack : ConnAck} {established : Connection}
      (closed : moment.self.live = false) (later : moment.time ≤ now)
      (sized : moment.self.runtime.maximumPacketSize = ack.maximumPacketSize)
      (reserved : moment.self.Reserved)
      (quota : moment.self.runtime.sendQuota = moment.self.runtime.maxSendQuota)
      (limit : moment.self.runtime.maxSendQuota ≤ min ack.receiveMaximum Outbound.maxInflight)
      (state : established = ({ moment.self with live := true, flushState := .clean } :
        Connection).mapSession fun session => { session with
          data := { session.data with sessionPresent := true }
          runtime := { session.runtime.noteOutboundActivity now with pingTimeout := none } }) :
      Step τ moment ⟨established,
        moment.trace ++
          [.noted (.active now), .noted (.connected established.session.handling ack)], now⟩

/-- Any number of transitions. -/
abbrev Steps (τ : Type) := Relation.ReflTransGen (Step τ)

theorem Steps.keep {P : ClientMoment → Prop} {before after : ClientMoment}
    (steps : Steps τ before after) (one : ∀ {before after}, Step τ before after → P before → P after)
    (holds : P before) : P after := by
  induction steps with
  | refl => exact holds
  | tail _ step ih => exact one step ih

/-- A direct write is dropped before its packet is flushed. -/
inductive Torn : ClientMoment → ClientMoment → Prop where
  | torn {moment : ClientMoment} {packet : Bytes} {chunks : List Bytes}
      {drain : List (Async.Happening Event)}
      (ready : Ready moment.self packet) (part : Partly packet chunks drain) :
      Torn moment { moment with trace := moment.trace ++ handover packet chunks drain }

end Minimq

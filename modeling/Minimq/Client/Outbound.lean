import Minimq.Lib.FixedVec
import Minimq.Codec.Packets

/-! Outbound state: the transmit arena and the three queues of packets with their progress. -/

namespace Minimq

/-- Serializer workspace for a fixed header and a four-byte acknowledgement body. -/
def controlPacketWorkspace : Nat := maxFixedHeaderSize + 4

/-- How many packets can be retained. -/
def maxRetained : Nat := 8

/-- How many control packets can be queued. -/
def maxPendingControl : Nat := 8

/-- How many releases can be pending. -/
def maxPendingRelease : Nat := 8

/-- The operations whose packets are retained until they are acknowledged. -/
inductive OpKind where
  | publishAtLeastOnce
  | publishExactlyOnce
  | subscribe
  | unsubscribe
  deriving DecidableEq

/-- Whether an operation is a publication. -/
def OpKind.isPublish : OpKind → Bool
  | .publishAtLeastOnce | .publishExactlyOnce => true
  | .subscribe | .unsubscribe => false

/-- A small packet that is encoded when it is sent. -/
inductive ControlAction where
  | pubAck (packetId : UInt16) (reason : ReasonCode)
  | pubRec (packetId : UInt16) (reason : ReasonCode)
  | pubComp (packetId : UInt16) (reason : ReasonCode)
  | pingReq
  deriving DecidableEq

/-- How far a packet has got. -/
inductive SendState where
  /-- Some bytes are still to be written. -/
  | write (written : Nat)
  /-- All bytes are written but not flushed. -/
  | flush
  /-- All bytes are flushed. -/
  | sent
  deriving DecidableEq

namespace SendState

/-- Account for written bytes. -/
def setWritten (written len : Nat) : SendState :=
  if len ≤ written then .flush else .write written

/-- The position of the next byte, for packets that are, or are not, in progress. -/
def writeOffset (inProgress : Bool) : SendState → Option Nat
  | .write written => if (written != 0) == inProgress then some written else none
  | .flush | .sent => none

end SendState

/-- A queued control packet. -/
structure PendingControl where
  action : ControlAction
  /-- How far it has got. -/
  state : SendState
  deriving DecidableEq

/-- A publication that waits for its PUBCOMP. -/
structure PendingRelease where
  packetId : UInt16
  reason : ReasonCode
  /-- How far the PUBREL has got. -/
  state : SendState
  deriving DecidableEq

/-- A packet in the arena that waits for its acknowledgement. -/
structure RetainedPacket where
  kind : OpKind
  packetId : UInt16
  /-- The length of the packet in the arena. -/
  len : Nat
  /-- How far the packet has got. -/
  state : SendState
  deriving DecidableEq

/-- The next packet to write, and the position of its next byte. -/
inductive OutboundStep where
  | control (index : Nat) (action : ControlAction) (written : Nat)
  | release (packetId : UInt16) (reason : ReasonCode) (written : Nat)
  | retained (packetId : UInt16) (offset len written : Nat)
  deriving DecidableEq

/-- The transmit arena and the packets waiting in it or beside it. -/
structure Outbound where
  /-- The arena: retained packets from the start on, scratch space behind them. -/
  buf : Bytes
  /-- The part of the arena kept free for the next CONNECT. -/
  connectWorkspace : Nat
  /-- Control packets in the order they were queued. -/
  pendingControl : FixedVec PendingControl maxPendingControl
  /-- Retained packets in the order of their bytes in the arena. -/
  retained : FixedVec RetainedPacket maxRetained
  /-- Publications whose PUBREC was received. -/
  pendingRelease : FixedVec PendingRelease maxPendingRelease

namespace Outbound

variable {α π τ : Type}

/-- Empty queues over an arena. -/
def new (buf : Bytes) : Outbound := ⟨buf, 0, .empty, .empty, .empty⟩

/-- Forget every packet. -/
def clearInflight (outbound : Outbound) : Outbound :=
  { outbound with pendingControl := .empty, retained := .empty, pendingRelease := .empty }

/-- Whether any packet is tracked. -/
def hasPendingState (outbound : Outbound) : Bool :=
  !outbound.pendingControl.toList.isEmpty || !outbound.retained.toList.isEmpty ||
    !outbound.pendingRelease.toList.isEmpty

/-- Whether no packet is tracked. -/
def isQuiescent (outbound : Outbound) : Bool := !outbound.hasPendingState

/-- The length of a sequence of retained packets in the arena. -/
def bytesOf (entries : List RetainedPacket) : Nat := (entries.map (·.len)).sum

/-- The length of all retained packets in the arena. -/
def retainedBytes (outbound : Outbound) : Nat := bytesOf outbound.retained.toList

/-- The size of the arena. -/
def capacity (outbound : Outbound) : Nat := outbound.buf.length

/-- The most publications that can be under way. -/
def maxInflight : Nat := min maxRetained maxPendingRelease

/-- The size of the scratch space. -/
def scratchLen (outbound : Outbound) : Nat := outbound.buf.length - outbound.retainedBytes

/-- The part of the arena retained packets may use. -/
def retainedCapacity (outbound : Outbound) : Nat :=
  outbound.buf.length - outbound.connectWorkspace

/-- Whether a slot and room for at least a header are left. -/
def canRetain (outbound : Outbound) : Bool :=
  outbound.retained.length < maxRetained &&
    maxFixedHeaderSize ≤ outbound.retainedCapacity - outbound.retainedBytes

/-- The arena behind the retained packets. -/
def scratchSpace (outbound : Outbound) : Bytes := outbound.buf.drop outbound.retainedBytes

/-- Reserve space for the next CONNECT. -/
def setConnectWorkspace (outbound : Outbound) (len : Nat) : Except ResourceError Outbound :=
  if outbound.buf.length < len then .error .bufferTooSmall
  else if outbound.buf.length - len < outbound.retainedBytes then .error .bufferTooSmall
  else .ok { outbound with connectWorkspace := len }

/-- Queue a control packet. -/
def queueControl (outbound : Outbound) (action : ControlAction) : Except ProtocolError Outbound :=
  match outbound.pendingControl.push ⟨action, .write 0⟩ with
  | some pendingControl => .ok { outbound with pendingControl }
  | none => .error .inflightMetadataExhausted

/-- Whether a PINGREQ is on its way. -/
def hasPendingPingreq (outbound : Outbound) : Bool :=
  outbound.pendingControl.toList.any fun entry => entry.action == .pingReq && entry.state != .sent

/-- Drop an acknowledged packet and close the gap in the arena, if it is retained. -/
def ackPacket (outbound : Outbound) (kind : OpKind) (packetId : UInt16) : Option Outbound :=
  let entries := outbound.retained.toList
  match entries.findIdx? fun entry => entry.kind == kind && entry.packetId == packetId with
  | none => none
  | some position =>
    let offset := bytesOf (entries.take position)
    let len := bytesOf ((entries.drop position).take 1)
    some { outbound with
      buf := Arena.copyWithin outbound.buf (offset + len) outbound.retainedBytes offset
      retained := outbound.retained.remove position }

/-- Whether a retained packet carries an identifier. -/
def hasRetained (outbound : Outbound) (packetId : UInt16) : Bool :=
  outbound.retained.toList.any fun entry => entry.packetId == packetId

/-- Remember a publication whose PUBREC was received. -/
def queueRelease (outbound : Outbound) (packetId : UInt16) (reason : ReasonCode) :
    Except ProtocolError Outbound :=
  match outbound.pendingRelease.push ⟨packetId, reason, .write 0⟩ with
  | some pendingRelease => .ok { outbound with pendingRelease }
  | none => .error .inflightMetadataExhausted

/-- Drop a publication whose PUBCOMP was received, if it is tracked. -/
def ackRelease (outbound : Outbound) (packetId : UInt16) : Option Outbound :=
  match outbound.pendingRelease.toList.findIdx? fun pending => pending.packetId == packetId with
  | none => none
  | some position =>
    some { outbound with pendingRelease := outbound.pendingRelease.swapRemove position }

/-- Whether a pending release carries an identifier. -/
def hasPendingRelease (outbound : Outbound) (packetId : UInt16) : Bool :=
  outbound.pendingRelease.toList.any fun pending => pending.packetId == packetId

/-- Set the DUP flag of the publications among some packets that start at an offset. -/
def markDupFrom : (offset : Nat) → List RetainedPacket → Bytes → Bytes
  | _, [], buf => buf
  | offset, entry :: rest, buf =>
    let marked := if entry.kind.isPublish then buf.modify offset markPublishDuplicate else buf
    markDupFrom (offset + entry.len) rest marked

/-- Set the DUP flag of every retained publication. -/
def markPublishDup (outbound : Outbound) : Outbound :=
  { outbound with buf := markDupFrom 0 outbound.retained.toList outbound.buf }

/-- Move a packet that was encoded into the scratch space to its start. -/
def packEncoded (outbound : Outbound) (offset len : Nat) : Except ResourceError Outbound :=
  let start := outbound.retainedBytes
  if outbound.retainedCapacity - start < len then .error .bufferTooSmall
  else .ok { outbound with
    buf := Arena.copyWithin outbound.buf (start + offset) (start + offset + len) start }

/-- What the serializer makes of a publication behind the retained packets. -/
def publishEncoding (outbound : Outbound) (header : PublishHeader) (payload : Payload π) :
    Except (SerError ⊕ π) (Nat × Bytes) × Bytes :=
  -- Adaptive payloads must see the retained budget, including encoder workspace.
  encodePublishWithOffset
    ((outbound.buf.take outbound.retainedCapacity).drop outbound.retainedBytes) header payload

/-- Encode a publication behind the retained packets; the arena is scratched if it fails. -/
def encodePublish (header : PublishHeader) (payload : Payload π) :
    EStateM (PubError π τ) Outbound Nat := do
  let outbound ← get
  let (result, slice) := outbound.publishEncoding header payload
  let outbound := { outbound with buf := Arena.overwrite outbound.buf outbound.retainedBytes slice }
  set outbound
  match result with
  | .error (.inl error) => throw (.session error.toError)
  | .error (.inr error) => throw (.payload error)
  | .ok (offset, packet) =>
    match outbound.packEncoded offset packet.length with
    | .error error => throw (.session (.resource error))
    | .ok packed =>
      set packed
      return packet.length

/-- What the serializer makes of a packet behind the retained packets. -/
def packetEncoding [ControlPacket α] (outbound : Outbound) (packet : α) :
    Except SerError (Nat × Bytes) × Bytes :=
  encodeWithOffset outbound.scratchSpace packet

/-- Encode a packet behind the retained packets; the arena is scratched if it fails. -/
def encodePacket [ControlPacket α] (packet : α) : EStateM ProtocolError Outbound Nat := do
  let outbound ← get
  let (result, slice) := outbound.packetEncoding packet
  let outbound := { outbound with buf := Arena.overwrite outbound.buf outbound.retainedBytes slice }
  set outbound
  match result with
  | .error error => throw (.encode error)
  | .ok (offset, packet) =>
    match outbound.packEncoded offset packet.length with
    | .error _ => throw (.encode .insufficientMemory)
    | .ok packed =>
      set packed
      return packet.length

/-- The bytes of a retained packet. -/
def retainedPacket (outbound : Outbound) (offset len : Nat) : Bytes :=
  (outbound.buf.drop offset).take len

/-- Keep the packet encoded last until it is acknowledged. -/
def retainPacket (outbound : Outbound) (kind : OpKind) (packetId : UInt16) (len : Nat) :
    Except ProtocolError Outbound :=
  match outbound.retained.push ⟨kind, packetId, len, .write 0⟩ with
  | some retained => .ok { outbound with retained }
  | none => .error .inflightMetadataExhausted

/-- A flushed packet has been sent. -/
def flushedState : SendState → SendState
  | .flush => .sent
  | state => state

/-- Account for a completed flush: written control packets are done, others have been sent. -/
def completeFlush (outbound : Outbound) : Outbound :=
  { outbound with
    pendingControl := outbound.pendingControl.filter fun entry => entry.state != .flush
    pendingRelease := outbound.pendingRelease.map fun entry =>
      { entry with state := flushedState entry.state }
    retained := outbound.retained.map fun entry =>
      { entry with state := flushedState entry.state } }

/-- The first control packet to write, counting from an index. -/
def controlStep (inProgress : Bool) : (index : Nat) → List PendingControl → Option OutboundStep
  | _, [] => none
  | index, entry :: rest =>
    match entry.state.writeOffset inProgress with
    | some written => some (.control index entry.action written)
    | none => controlStep inProgress (index + 1) rest

/-- The first release to write. -/
def releaseStep (inProgress : Bool) : List PendingRelease → Option OutboundStep
  | [] => none
  | entry :: rest =>
    match entry.state.writeOffset inProgress with
    | some written => some (.release entry.packetId entry.reason written)
    | none => releaseStep inProgress rest

/-- The first retained packet to write, counting bytes from an offset. -/
def retainedStep (inProgress : Bool) : (offset : Nat) → List RetainedPacket → Option OutboundStep
  | _, [] => none
  | offset, entry :: rest =>
    match entry.state.writeOffset inProgress with
    | some written => some (.retained entry.packetId offset entry.len written)
    | none => retainedStep inProgress (offset + entry.len) rest

/-- The first packet to write among those that are, or are not, in progress. -/
def stepFor (outbound : Outbound) (inProgress : Bool) : Option OutboundStep :=
  (controlStep inProgress 0 outbound.pendingControl.toList).or <|
    (releaseStep inProgress outbound.pendingRelease.toList).or <|
      retainedStep inProgress 0 outbound.retained.toList

/-- The next packet to write: one in progress comes before all others. -/
def nextStep (outbound : Outbound) : Option OutboundStep :=
  (outbound.stepFor true).or (outbound.stepFor false)

/-- Account for written bytes of a control packet. -/
def setControlWritten (outbound : Outbound) (index written len : Nat) : Outbound :=
  { outbound with pendingControl := outbound.pendingControl.modify index fun entry =>
      { entry with state := .setWritten written len } }

/-- Account for written bytes of a retained packet. -/
def setRetainedWritten (outbound : Outbound) (packetId : UInt16) (written len : Nat) : Outbound :=
  let retained := outbound.retained.modifyFirst (·.packetId == packetId)
    fun entry => { entry with state := .setWritten written len }
  { outbound with retained }

/-- Account for written bytes of a release. -/
def setReleaseWritten (outbound : Outbound) (packetId : UInt16) (written len : Nat) : Outbound :=
  let pendingRelease := outbound.pendingRelease.modifyFirst (·.packetId == packetId)
    fun entry => { entry with state := .setWritten written len }
  { outbound with pendingRelease }

/-- Start every tracked packet over on the next connection. -/
def armReplay (outbound : Outbound) : Outbound :=
  if outbound.hasPendingState then
    let outbound := outbound.markPublishDup
    { outbound with
      pendingControl := outbound.pendingControl.map fun entry => { entry with state := .write 0 }
      retained := outbound.retained.map fun entry => { entry with state := .write 0 }
      pendingRelease := outbound.pendingRelease.map fun entry => { entry with state := .write 0 } }
  else outbound

end Outbound

/-- Encode a control packet. -/
def encodeControlPacket (buffer : Bytes) : ControlAction → Except ProtocolError Bytes
  | .pubAck packetId reason =>
    (encode buffer (PubAck.mk ⟨packetId, .ofCode reason⟩)).mapError .encode
  | .pubRec packetId reason =>
    (encode buffer (PubRec.mk ⟨packetId, .ofCode reason⟩)).mapError .encode
  | .pubComp packetId reason =>
    (encode buffer (PubComp.mk ⟨packetId, .ofCode reason⟩)).mapError .encode
  | .pingReq => (encode buffer PingReq.mk).mapError .encode

/-- Encode the release of a publication. -/
def encodePubrel (buffer : Bytes) (packetId : UInt16) (reason : ReasonCode) :
    Except ProtocolError Bytes :=
  (encode buffer (PubRel.mk ⟨packetId, .ofCode reason⟩)).mapError .encode

/-- Whether a length exceeds the peer's limit. -/
def exceeds (maximumPacketSize : Option UInt32) (len : Nat) : Bool :=
  match maximumPacketSize with
  | some max => max.toNat < len
  | none => false

/-- Refuse a packet that exceeds the peer's limit. -/
def requirePacketSize (maximumPacketSize : Option UInt32) (len : Nat) : Except ProtocolError Unit :=
  if exceeds maximumPacketSize len then .error .packetTooLarge else .ok ()

/-- An empty buffer for a control packet. -/
def smallBuf : Bytes := List.replicate controlPacketWorkspace 0

/-- Refuse a control packet that exceeds the peer's limit. -/
def checkControlPacketSize (maximumPacketSize : Option UInt32) (action : ControlAction) :
    Except ProtocolError Unit := do
  let packet ← encodeControlPacket smallBuf action
  requirePacketSize maximumPacketSize packet.length

/-- Refuse a release that exceeds the peer's limit. -/
def checkPubrelSize (maximumPacketSize : Option UInt32) (packetId : UInt16) (reason : ReasonCode) :
    Except ProtocolError Unit := do
  let packet ← encodePubrel smallBuf packetId reason
  requirePacketSize maximumPacketSize packet.length

section Serialize

variable {τ : Type}

/-- Refuse encoded bytes that exceed the peer's limit. -/
def withinLimit (maximumPacketSize : Option UInt32) (packet : Bytes) : Except (Error τ) Bytes :=
  if exceeds maximumPacketSize packet.length then .error (.resource .packetTooLarge)
  else .ok packet

/-- Encode a control packet within the peer's limit. -/
def serializeControlPacket (action : ControlAction) (maximumPacketSize : Option UInt32) :
    Except (Error τ) Bytes := do
  let packet ← (encodeControlPacket smallBuf action).mapError ProtocolError.toError
  withinLimit maximumPacketSize packet

/-- Encode a release within the peer's limit. -/
def serializePubrel (packetId : UInt16) (reason : ReasonCode) (maximumPacketSize : Option UInt32) :
    Except (Error τ) Bytes := do
  let packet ← (encodePubrel smallBuf packetId reason).mapError ProtocolError.toError
  withinLimit maximumPacketSize packet

end Serialize

end Minimq

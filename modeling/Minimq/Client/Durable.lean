import Minimq.Client.State

/-! What a session keeps from one connection to the next. -/

namespace Minimq

/-- The part of a session that the next connection takes up. -/
structure Durable where
  /-- The retained packets: operation, identifier and length. -/
  retained : List (OpKind × UInt16 × Nat)
  /-- Their bytes, as they are replayed: with DUP set in every publication. -/
  bytes : Bytes
  /-- The pending releases and their reason codes, in order. -/
  releases : List (UInt16 × ReasonCode)
  controls : List ControlAction
  /-- The inbound QoS 2 publications that wait for their PUBREL. -/
  pendingServerPacketIds : List UInt16
  /-- The next packet identifier to try. -/
  packetId : NonZeroId
  /-- How often the session was started over. -/
  generation : UInt32
  /-- Whether the broker is expected to have the session. -/
  sessionPresent : Bool
  clientId : ClientId
  deriving DecidableEq

/-- The durable part of a session. -/
def Session.durable (session : Session) : Durable :=
  let outbound := session.data.outbound
  { retained := outbound.retained.toList.map fun entry => (entry.kind, entry.packetId, entry.len)
    -- Two encodings that differ in DUP only are the same packet.
    bytes := (Outbound.markDupFrom 0 outbound.retained.toList outbound.buf).take
      outbound.retainedBytes
    releases := outbound.pendingRelease.toList.map fun entry => (entry.packetId, entry.reason)
    controls := outbound.pendingControl.toList.map (·.action)
    pendingServerPacketIds := session.data.pendingServerPacketIds.toList
    packetId := session.data.packetId
    generation := session.data.generation
    sessionPresent := session.data.sessionPresent
    clientId := session.clientId }

theorem firstId_ne_zero : (1 : UInt16) ≠ 0 := by decide

/-- What is left once the broker has discarded a session. -/
def Durable.reset (durable : Durable) : Durable :=
  { retained := []
    bytes := []
    releases := []
    controls := []
    pendingServerPacketIds := []
    packetId := ⟨1, firstId_ne_zero⟩
    generation := durable.generation + 1
    sessionPresent := false
    clientId := durable.clientId }

end Minimq

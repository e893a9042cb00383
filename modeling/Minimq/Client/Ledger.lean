import Minimq.Client.Transition

/-! The record of admitted operations, against which the retained packets are measured. -/

namespace Minimq

/-- An operation as it was admitted. -/
structure Admission where
  kind : OpKind
  packetId : UInt16
  packet : Bytes
  deriving DecidableEq

/-- The admission an occurrence records, if it records one. -/
def admissionOf : Async.Happening Event → Option Admission
  | .noted (.admitted _ kind packetId packet) => some ⟨kind, packetId, packet⟩
  | _ => none

/-- All admissions, in order. -/
def admissions (trace : List (Async.Happening Event)) : List Admission :=
  trace.filterMap admissionOf

/-- The latest admission under an identifier. -/
def latestAdmission (trace : List (Async.Happening Event)) (packetId : UInt16) :
    Option Admission :=
  (admissions trace).reverse.find? (·.packetId == packetId)

/-- The identifiers of the retained packets and of the pending releases. -/
def Outbound.packetIds (outbound : Outbound) : List UInt16 :=
  outbound.retained.toList.map (·.packetId) ++ outbound.pendingRelease.toList.map (·.packetId)

/-- Retained packets that start at an offset, each with its bytes in the arena. -/
def Outbound.contentsFrom (buf : Bytes) :
    (offset : Nat) → List RetainedPacket → List (RetainedPacket × Bytes)
  | _, [] => []
  | offset, entry :: rest =>
    (entry, (buf.drop offset).take entry.len) :: contentsFrom buf (offset + entry.len) rest

/-- The retained packets, each with its bytes in the arena. -/
def Outbound.contents (outbound : Outbound) : List (RetainedPacket × Bytes) :=
  contentsFrom outbound.buf 0 outbound.retained.toList

/-- How the outbound state changes, apart from the admission of an operation. -/
inductive Change : Outbound → Outbound → Prop where
  /-- Bytes of a packet are accepted. -/
  | wrote {outbound : Outbound} {packet : Packet} {written len : Nat} :
      Change outbound (outbound.setWritten written len packet)
  /-- What was accepted is drained. -/
  | flushed {outbound : Outbound} : Change outbound outbound.completeFlush
  /-- Every packet is started over. -/
  | armed {outbound : Outbound} : Change outbound outbound.armReplay
  /-- Every packet is forgotten. -/
  | cleared {outbound : Outbound} : Change outbound outbound.clearInflight
  /-- A control packet is queued. -/
  | queued {before after : Outbound} {action : ControlAction}
      (done : before.queueControl action = .ok after) : Change before after
  /-- A retained packet is acknowledged. -/
  | acked {before after : Outbound} {kind : OpKind} {packetId : UInt16}
      (done : before.ackPacket kind packetId = some after) : Change before after
  /-- A retained publication turns into a pending release. -/
  | released {before acked after : Outbound} {packetId : UInt16}
      (done : before.ackPacket .publishExactlyOnce packetId = some acked)
      (queued : acked.queueRelease packetId .success = .ok after) : Change before after
  /-- A pending release is completed. -/
  | completed {before after : Outbound} {packetId : UInt16}
      (done : before.ackRelease packetId = some after) : Change before after
  /-- The arena behind the retained packets is used as scratch space. -/
  | scratched {outbound : Outbound} {buf : Bytes}
      (kept : SameUpTo outbound.retainedBytes outbound.buf buf) :
      Change outbound { outbound with buf }
  /-- Room for the next connection request is reserved. -/
  | reserved {before after : Outbound} {len : Nat}
      (done : before.setConnectWorkspace len = .ok after) : Change before after

/-- Any number of changes. -/
abbrev Changes := Relation.ReflTransGen Change

theorem Changes.keep {P : Outbound → Prop} {before after : Outbound}
    (changes : Changes before after) (one : ∀ {before after}, Change before after → P before → P after)
    (holds : P before) : P after := by
  induction changes with
  | refl => exact holds
  | tail _ change ih => exact one change ih

/-- Between two moments an operation was admitted. -/
def Admits (before after : ClientMoment) : Prop :=
  ∃ kind packetId packet buf retained,
    Admissible before.self kind packetId packet buf retained ∧
    after.self = before.self.enlist kind buf retained ∧
    after.trace = before.trace ++
      [.noted (.admitted before.self.session.handling kind packetId packet)]

end Minimq

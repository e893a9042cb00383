import Minimq.Staging.Run

/-! What a staging service is for: the phases of one transfer and how calls lead through them. -/

namespace Minimq.Staging

/-- The phase of a transfer, with what matters in it. -/
inductive Phase where
  /-- No manifest was accepted. -/
  | idle
  /-- The storage is being prepared. -/
  | preparing (transfer : Transfer)
  /-- The next chunk is awaited. -/
  | ready (transfer : Transfer)
  /-- A chunk is being written. -/
  | writing (transfer : Transfer) (write : StagingWrite)
  /-- The object is staged. -/
  | complete (transfer : Transfer)
  | failed (transfer : Transfer)

/-- A manifest that a service with given limits accepts. -/
structure Transfer.Acceptable (config : Config) (transfer : Transfer) : Prop where
  /-- Nothing has been written. -/
  start : transfer.nextOffset = 0
  /-- The object is not empty. -/
  nonempty : 0 < transfer.size.toNat
  /-- The object is not larger than the storage. -/
  fits : transfer.size.toNat ≤ config.capacity.toNat

/-- A write that respects the limits of the storage. -/
structure StagingWrite.Sound (config : Config) (write : StagingWrite) : Prop where
  /-- It is not empty. -/
  nonempty : write.payload ≠ []
  /-- It is not larger than a chunk. -/
  short : write.payload.length ≤ config.maxChunkSize
  /-- It is a whole number of storage writes. -/
  aligned : config.writeSize ∣ write.payload.length
  /-- It ends within the storage. -/
  within : write.offset.toNat + write.payload.length ≤ config.capacity.toNat

/-- A write that continues a transfer. -/
structure StagingWrite.Continues (config : Config) (transfer : Transfer)
    (write : StagingWrite) : Prop extends write.Sound config where
  /-- It starts where the transfer stands. -/
  offset : write.offset = transfer.nextOffset
  /-- It knows the size of the object. -/
  size : write.size = transfer.size
  /-- It carries the checksum if it reaches the end of the object. -/
  fnv1a64 : write.fnv1a64 =
    if transfer.size.toNat ≤ write.offset.toNat + write.payload.length then some transfer.fnv1a64
    else none
  /-- What lies behind the object is erased storage. -/
  padding : ∀ byte ∈ write.payload.drop (transfer.size.toNat - write.offset.toNat), byte = 0xFF

namespace Phase

/-- The phase after the result of the outstanding request. -/
def completed (success : Bool) : Phase → Phase
  | .preparing transfer => if success then .ready transfer else .failed transfer
  | .writing transfer write =>
    if success = false then .failed transfer
    else if write.fnv1a64.isSome then .complete { transfer with nextOffset := transfer.size }
    else .ready { transfer with
      nextOffset := UInt32.ofNat (write.offset.toNat + write.payload.length) }
  | phase => phase

/-- Whether a transfer is under way. -/
def isActive : Phase → Bool
  | .preparing _ | .ready _ | .writing _ _ => true
  | _ => false

/-- The phase after an abort. -/
def aborted : Phase → Phase
  | .preparing transfer | .ready transfer | .writing transfer _ => .failed transfer
  | phase => phase

/-- What an inbound publication can lead to. -/
inductive Handled (config : Config) : Phase → Handle → Phase → Prop
  /-- It belongs to someone else. -/
  | unhandled (phase : Phase) : Handled config phase .unhandled phase
  /-- It is answered with a status or not at all. -/
  | consumed (phase : Phase) : Handled config phase .consumed phase
  /-- It is a manifest that starts the transfer. -/
  | manifest {transfer : Transfer} (acceptable : transfer.Acceptable config) :
      Handled config .idle (.request (.prepare transfer.size)) (.preparing transfer)
  /-- It is the next chunk. -/
  | chunk {transfer : Transfer} {write : StagingWrite} (continues : write.Continues config transfer) :
      Handled config (.ready transfer) (.request (.write write)) (.writing transfer write)
  /-- It is a chunk that fails the transfer. -/
  | rejected (transfer : Transfer) :
      Handled config (.ready transfer) .consumed (.failed transfer)

/-- The field of a service that tells its phase. -/
def state : Phase → State
  | .idle => .idle
  | .preparing _ => .preparing
  | .ready _ => .ready
  | .writing _ _ => .writing
  | .complete _ => .complete
  | .failed _ => .error

/-- The transfer of a phase. -/
def transfer : Phase → Option Transfer
  | .idle => none
  | .preparing transfer | .ready transfer | .writing transfer _ | .complete transfer
  | .failed transfer => some transfer

/-- What a call can lead to, and the requests it makes. -/
inductive Follows {τ : Type} (config : Config) :
    Call τ → Phase → List StagingRequest → Phase → Prop
  | handle (inbound : InboundPublish) {phase after : Phase} {handle : Handle}
      (handled : phase.Handled config handle after) :
      Follows config (.handle inbound) phase handle.requests after
  | completeRequest (success : Bool) (phase : Phase) :
      Follows config (.completeRequest success) phase [] (phase.completed success)
  | abort (phase : Phase) : Follows config .abort phase [] phase.aborted
  | beginStartup (event : ConnectEvent) (phase : Phase) :
      Follows config (.beginStartup event) phase [] phase
  | step (link : Link τ) (phase : Phase) : Follows config (.step link) phase [] phase

end Phase

namespace Service

/-- The limits a service was created with. -/
def config (service : Service) : Config :=
  ⟨service.capacity, service.maxChunkSize, service.writeSize⟩

/-- The phase a service is in, as its fields say it. -/
def Stands (service : Service) : Phase → Prop
  | .idle => service.state = .idle ∧ service.transfer = none ∧ service.request = none
  | .preparing transfer => service.state = .preparing ∧ service.transfer = some transfer ∧
      service.request = some .prepare
  | .ready transfer => service.state = .ready ∧ service.transfer = some transfer ∧
      service.request = none
  | .writing transfer write => service.state = .writing ∧ service.transfer = some transfer ∧
      -- The next offset of the final chunk is not used.
      ∃ nextOffset, service.request = some (.write nextOffset write.fnv1a64.isSome) ∧
        (write.fnv1a64 = none →
          nextOffset = UInt32.ofNat (write.offset.toNat + write.payload.length))
  | .complete transfer => service.state = .complete ∧ service.transfer = some transfer ∧
      service.request = none
  | .failed transfer => service.state = .error ∧ service.transfer = some transfer ∧
      service.request = none

end Service

end Minimq.Staging

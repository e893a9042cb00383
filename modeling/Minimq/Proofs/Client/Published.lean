import Minimq.Proofs.Client.Holdings
import Minimq.Proofs.Client.Ledger
import Minimq.Proofs.Codec.RoundTrip

/-! What an application publishes is what the broker reads. -/

namespace Minimq

open Async

variable {π τ : Type}

theorem Flow.admissions {before after : ClientMoment} (flow : Flow τ before after) :
    admissions after.trace = admissions before.trace := by
  induction flow with
  | refl => rfl
  | tail _ step ih => exact step.change.2.trans ih

theorem Granted.latest {op : Op} {packet : Bytes} {before after : ClientMoment}
    (granted : Granted τ op packet before after) :
    latestAdmission after.trace op.packetId = some ⟨op.kind, op.packetId, packet⟩ := by
  obtain ⟨flushed, taken, buf, retained, -, -, -, flow⟩ := granted.admitted
  unfold latestAdmission
  rw [flow.admissions, admissions_append]
  simp [Minimq.admissions, admissionOf]

/-- The part of the arena that a publication is encoded into. -/
def Outbound.free (outbound : Outbound) : Bytes :=
  (outbound.buf.take outbound.retainedCapacity).drop outbound.retainedBytes

end Minimq

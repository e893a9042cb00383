import Minimq.Lib.Tiling
import Minimq.Staging.Network

/-! The chunks of a host: where they belong and what they hold. -/

namespace Minimq.Staging

open Tiling

/-- The device reads a position as the host wrote it. -/
theorem parseU32_text {number : Nat} (small : number < 2 ^ 32) :
    parseU32 (Decimal.text number) = some (UInt32.ofNat number) := by
  have unsigned : digits (Decimal.text number) = Decimal.text number := by
    -- A position is written without a sign, so no byte is skipped.
    cases text : Decimal.text number with
    | nil => rfl
    | cons first rest =>
      have digit := Decimal.lt_of_mem_text (text ▸ List.mem_cons_self : first ∈ _)
      refine if_neg fun sign => ?_
      rw [sign] at digit
      exact absurd digit (by decide)
  simp only [parseU32, unsigned, Decimal.value_text, if_pos small]

/-- The device finds the transfer and the position in a delivered chunk. -/
theorem chunkProperties_delivered {properties : Properties} {id : Bytes} {offset : Nat}
    (small : offset < 2 ^ 32)
    (delivered : properties.iter = (Host.chunkProperties id offset).map .ok) :
    chunkProperties properties = some (id, UInt32.ofNat offset) := by
  simp only [chunkProperties, correlationData, chunkOffset, delivered, Host.chunkProperties,
    List.map_cons, List.map_nil, List.findSome?_cons, List.foldl_cons, List.foldl_nil, if_true,
    decimal, parseU32_text small]
  rfl

theorem slice_eq (data : Bytes) (start : Nat) (stop : Int) :
    ∃ count, slice data start stop = (data.drop start).take count := by
  simp only [slice, List.drop_take]
  exact ⟨_, rfl⟩

namespace Host

variable {host : Host} {message : StatusMessage} {publication : Publication}

/-- When the host answers with a chunk, and with which. -/
structure Serves (host : Host) (message : StatusMessage) (publication : Publication) : Prop where
  /-- The status is about the transfer. -/
  id : message.status.id = host.id
  /-- The transfer has a name. -/
  named : host.id ≠ []
  /-- The status knows the size of the object. -/
  size : message.status.size.toNat = host.size
  /-- The slice at the requested position is not empty. -/
  nonempty : slice host.data message.status.nextOffset.toNat (message.status.nextOffset.toNat +
    alignedChunkSize host.chunkSize message.status.mtu message.status.writeSize) ≠ []
  /-- The chunk is the one at the requested position. -/
  chunk : publication = ⟨host.root ++ chunkSuffix,
    host.chunkAt message.status.nextOffset.toNat message.status.writeSize
      (alignedChunkSize host.chunkSize message.status.mtu message.status.writeSize),
    chunkProperties host.id message.status.nextOffset.toNat⟩

/-- The host answers only a status that asks for a chunk of its object. -/
theorem serves_of_reply (reply : host.reply message = .chunk publication) :
    host.Serves message publication := by
  -- Every check of the host has to pass, one after the other.
  unfold Host.reply at reply
  split at reply
  · cases reply
  split at reply
  · cases reply
  rename_i offset _
  dsimp only at reply
  split at reply
  · split at reply <;> cases reply
  rename_i somebody
  split at reply
  · cases reply
  rename_i own
  simp only [matchesStatus, Bool.not_eq_false, Bool.and_eq_true, decide_eq_true_eq] at own
  obtain ⟨⟨id, correlation⟩, size⟩ := own
  split at reply
  · cases reply
  split at reply
  · cases reply
  split at reply
  · cases reply
  rename_i expected
  simp only [ne_eq, not_or, not_not] at expected
  obtain ⟨topic, rfl⟩ := expected
  split at reply
  · cases reply
  split at reply
  · cases reply
  split at reply
  · cases reply
  rename_i nonempty
  cases reply
  refine ⟨id, fun none => somebody ⟨id.trans none, correlation.trans none⟩, size, nonempty, ?_⟩
  rw [topic, correlation]

/-- A chunk holds the bytes of the object at its position. -/
theorem chunkAt_agrees {offset : Nat} {size : Int} (writeSize : Nat)
    (nonempty : slice host.data offset (offset + size) ≠ []) :
    Agrees host.data ⟨offset, host.chunkAt offset writeSize size⟩ := by
  obtain ⟨count, run⟩ := slice_eq host.data offset (offset + size)
  simp only [Agrees, chunkAt, run] at nonempty ⊢
  have inside : offset < host.data.length := by
    by_contra beyond
    exact nonempty (by rw [List.drop_of_length_le (by omega), List.take_nil])
  split
  · -- The slice reaches the end, so it is all that is left of the object.
    rename_i reaches
    rw [List.length_take, List.length_drop] at reaches
    have whole : (host.data.drop offset).take count = host.data.drop offset :=
      List.take_of_length_le (by rw [List.length_drop]; omega)
    rw [whole, List.take_append_of_le_length (by rw [List.length_drop]),
      List.take_of_length_le (by rw [List.length_drop]), List.take_of_length_le]
    rw [List.length_append]
    omega
  · have fits : ((host.data.drop offset).take count).length ≤ host.data.length - offset := by
      rw [List.length_take, List.length_drop]
      omega
    rw [List.take_of_length_le fits, List.length_take, ← List.take_take, List.take_length]

end Host

end Minimq.Staging

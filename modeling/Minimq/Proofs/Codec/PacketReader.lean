import Minimq.Lib.Hoare
import Minimq.Codec.PacketReader

/-! Laws of the packet reader: when a packet is complete, and what its steps leave alone. -/

namespace Minimq

open Hoare

namespace PacketReader

variable {reader : PacketReader}

@[simp] theorem packetAvailable_reset : reader.reset.packetAvailable = false := rfl

/-- Looking for the packet length leaves the bytes alone. -/
theorem probeFixedHeader_spec :
    wp probeFixedHeader
      (fun _ after => after.buffer = reader.buffer ∧ after.readBytes = reader.readBytes)
      (fun _ after => after.buffer = reader.buffer ∧ after.readBytes = reader.readBytes) reader := by
  unfold probeFixedHeader
  simp only [wp_bind, wp_get, wp_ite, wp_pure, wp_set, and_self]
  split
  · trivial
  · split <;> exact ⟨rfl, rfl⟩

/-- The window is empty exactly if the packet is complete, and ends within the buffer. -/
theorem window_eq_ok {size : Nat} (fits : reader.window = .ok size) :
    (size = 0 ↔ reader.packetAvailable = true) ∧
      (size ≠ 0 → reader.readBytes + size ≤ reader.buffer.length) := by
  unfold window at fits
  -- The window ends at the header or at the packet, depending on what is known.
  cases known : reader.packetLength with
  | none =>
    simp only [known] at fits
    split at fits
    · simp only [Except.ok.injEq] at fits
      simp only [packetAvailable, known, Bool.false_eq_true, iff_false]
      omega
    · simp at fits
  | some length =>
    simp only [known] at fits
    split at fits
    · simp only [Except.ok.injEq] at fits
      simp only [packetAvailable, known, decide_eq_true_eq]
      omega
    · simp at fits

/-- The size of the window is returned, or its error. -/
theorem wp_window {Q : Nat → PacketReader → Prop} {E : ProtocolError → PacketReader → Prop}
    (fits : ∀ size, reader.window = .ok size → Q size reader)
    (fails : ∀ error, reader.window = .error error → E error reader) :
    wp (match reader.window with
      | .error error => throw error
      | .ok size => return size : EStateM ProtocolError PacketReader Nat) Q E reader := by
  cases known : reader.window with
  | error error => exact fails error known
  | ok size => exact fits size known

/-- What asking for a window leaves alone, and what it says about the packet. -/
theorem receiveBuffer_spec :
    wp receiveBuffer
      (fun size after => after.buffer = reader.buffer ∧ after.readBytes = reader.readBytes ∧
        after.window = .ok size)
      (fun _ after => after.buffer = reader.buffer ∧ after.readBytes = reader.readBytes) reader := by
  unfold receiveBuffer
  simp only [wp_bind, wp_get, wp_ite]
  split
  · refine wp_mono probeFixedHeader_spec (fun _ middle same => ?_) (fun _ _ => id)
    simp only [wp_bind, wp_get]
    exact wp_window (fun size fits => ⟨same.1, same.2, fits⟩) (fun _ _ => same)
  · exact wp_window (fun size fits => ⟨rfl, rfl, fits⟩) (fun _ _ => ⟨rfl, rfl⟩)

theorem takePacket_spec :
    wp takePacket (fun _ after => after.packetAvailable = false)
      (fun _ after => after.packetAvailable = false) reader := by
  unfold takePacket
  simp only [wp_bind, wp_get]
  -- The reader is reset before the packet is decoded.
  cases known : reader.packetLength with
  | none => simp [wp, packetAvailable, known]
  | some length =>
    simp only [wp_bind, wp_set]
    cases ReceivedPacket.fromBuffer (reader.buffer.take length) <;> exact packetAvailable_reset

/-- Asking for a window fails only on a malformed header or a packet that does not fit. -/
theorem receiveBuffer_malformed :
    wp receiveBuffer (fun _ _ => True) (fun error _ => error = .malformedPacket) reader := by
  -- A window fails only for want of room, which is the fault of the packet.
  have malformed (middle : PacketReader) (error : ProtocolError)
      (fails : middle.window = .error error) : error = .malformedPacket := by
    unfold window at fails
    cases known : middle.packetLength <;>
    · simp only [known] at fails
      split at fails
      · simp at fails
      · exact (Except.error.inj fails).symm
  unfold receiveBuffer
  simp only [wp_bind, wp_get, wp_ite]
  split
  · unfold probeFixedHeader
    simp only [wp_bind, wp_get, wp_ite, wp_pure, wp_set]
    split
    · exact wp_window (fun _ _ => trivial) (malformed _)
    · split
      · rfl
      · exact wp_window (fun _ _ => trivial) (malformed _)
      · exact wp_window (fun _ _ => trivial) (malformed _)
  · exact wp_window (fun _ _ => trivial) (malformed _)

/-- The packet that waits, if one does, is inside the buffer. -/
def Contained (reader : PacketReader) : Prop :=
  reader.packetAvailable = true → ∃ length, reader.packetLength = some length ∧
    length ≤ reader.buffer.length

/-- A packet that has a window is inside the buffer. -/
theorem contained_of_window {size : Nat} (fits : reader.window = .ok size) : reader.Contained := by
  intro available
  cases known : reader.packetLength with
  | none => simp [packetAvailable, known] at available
  | some length =>
    -- The window was granted for this length.
    unfold window at fits
    simp only [known] at fits
    split at fits
    · exact ⟨length, rfl, ‹_›⟩
    · simp at fits

/-- What a read adds keeps the packet inside the buffer. -/
theorem contained_of_read {size : Nat} {chunk : Bytes} (fits : reader.window = .ok size)
    (within : chunk.length ≤ size) : ((reader.fill chunk).commit chunk.length).Contained := by
  intro available
  cases known : reader.packetLength with
  | none => simp [packetAvailable, fill, commit, known] at available
  | some length =>
    refine ⟨length, known, ?_⟩
    unfold window at fits
    simp only [known] at fits
    split at fits
    · rename_i inside
      -- An empty read changes nothing, and any other stays within the window.
      by_cases empty : chunk.length = 0
      · have none : chunk = [] := List.length_eq_zero_iff.mp empty
        simpa [fill, commit, none, Arena.overwrite_nil] using inside
      · simp only [Except.ok.injEq] at fits
        simpa [fill, commit, Arena.length_overwrite (show reader.readBytes + chunk.length ≤
          reader.buffer.length by omega)] using inside
    · simp at fits

/-- A packet that does not decode is the fault of the peer. -/
theorem toError_of_fromBuffer {τ : Type} {bytes : Bytes} {error : ProtocolError}
    (failed : ReceivedPacket.fromBuffer bytes = .error error) :
    (error.toError : Error τ) = .peer .invalidPacket := by
  unfold ReceivedPacket.fromBuffer at failed
  -- Every failing branch reports the same error.
  split at failed
  · cases failed
    rfl
  · split at failed
    · simp at failed
    · split at failed
      · simp at failed
      · simp at failed
      · simp at failed
      · cases failed
        rfl

/-- Taking a packet decodes the bytes it announced and begins a new packet. -/
theorem takePacket_decodes {τ : Type} :
    wp takePacket
      (fun taken after => reader.packetLength = some taken.1 ∧ after = reader.reset ∧
        ReceivedPacket.fromBuffer (reader.buffer.take taken.1) = .ok taken.2)
      (fun error _ => (error.toError : Error τ) = .peer .invalidPacket) reader := by
  unfold takePacket
  simp only [wp_bind, wp_get]
  -- Without a length there is no packet to take.
  cases known : reader.packetLength with
  | none => rfl
  | some length =>
    simp only [wp_bind, wp_set]
    cases decoded : ReceivedPacket.fromBuffer (reader.buffer.take length) with
    | error error => exact toError_of_fromBuffer decoded
    | ok packet => exact ⟨rfl, rfl, decoded⟩

end PacketReader

end Minimq

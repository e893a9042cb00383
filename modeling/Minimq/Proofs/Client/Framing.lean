import Minimq.Proofs.Codec.Framing
import Minimq.Proofs.Client.Run

/-! The client receives the packets of its inbound stream, however the transport splits it. -/

namespace Minimq

open Hoare Async

variable {τ : Type} {world : ClientWorld τ}

/-- The reader of a client holds the front of a stream of which the rest is still to come. -/
structure Receives (stream : Bytes) (capacity : Nat) (world : ClientWorld τ) : Prop where
  /-- The reader assembles the front of the stream. -/
  assembles : ∃ bytes, world.self.session.packetReader.Assembles bytes ∧
    bytes ++ world.inbound = stream
  /-- The buffer keeps its size. -/
  size : world.self.session.packetReader.capacity = capacity

/-- How filling the reader ends early: what was read, and what it says about the stream. -/
structure Starved (stream : Bytes) (capacity : Nat) (stop : Stop (Error τ))
    (world : ClientWorld τ) : Prop where
  /-- No byte is skipped or duplicated. -/
  held : world.self.session.packetReader.buffer.take world.self.session.packetReader.readBytes ++
    world.inbound = stream
  /-- A packet is refused only if the stream is malformed. -/
  refused : stop = .error (.peer .invalidPacket) → frameOf capacity stream = .malformed
  /-- A stream that ended without a complete packet is not malformed. -/
  ended : stop = .error .disconnected → world.inbound = [] → frameOf capacity stream = .pending

theorem fillPacketReader_receives {stream : Bytes} {capacity : Nat}
    (receives : Receives stream capacity world) :
    wp (fillPacketReader : Client τ (Error τ) Unit)
      (fun _ after => Receives stream capacity after ∧
        after.self.session.packetReader.packetAvailable = true)
      (fun stop after => Starved stream capacity stop after) world := by
  have held {world : ClientWorld τ} (receives : Receives stream capacity world) :
      world.self.session.packetReader.buffer.take world.self.session.packetReader.readBytes ++
        world.inbound = stream := by
    obtain ⟨bytes, assembles, whole⟩ := receives.assembles
    rw [assembles.held, whole]
  have quiet {world : ClientWorld τ} {stop : Stop (Error τ)} (receives : Receives stream capacity world)
      (other : ∀ error, stop ≠ .error error) : Starved stream capacity stop world :=
    ⟨held receives, fun same => absurd same (other _), fun same => absurd same (other _)⟩
  unfold fillPacketReader
  rw [wp_bind, wp_rounds]
  refine wp_iterate (fun _ => Receives stream capacity) receives (fun _ world receives => ?_)
    (fun _ _ receives => quiet receives (by simp))
  obtain ⟨bytes, assembles, whole⟩ := receives.assembles
  simp only [wp_bind, currentSession, wp_self, wp_pure, wp_ite, onPacketReader, wp_zoom]
  split
  · rename_i available
    exact ⟨receives, available⟩
  · refine wp_mono assembles.receiveBuffer (fun size after asked => ?_)
      (fun error after refused => ?_)
    · obtain ⟨assembles, same, unfinished, fits⟩ := asked
      have kept : after.capacity = capacity := by
        rw [← receives.size]
        exact congrArg List.length same
      have receives : Receives stream capacity
          { world with self := world.self.mapReader fun _ => after } :=
        ⟨⟨bytes, assembles, whole⟩, kept⟩
      split
      · rename_i complete
        exact ⟨receives, (PacketReader.window_eq_ok fits).1.mp complete⟩
      · rename_i more
        refine wp_read _ (fun error rest _ => ?_) (fun chunk rest inbound _ within split => ?_)
          (fun rest => quiet ⟨receives.assembles, receives.size⟩ (by simp))
          (fun rest _ => quiet ⟨receives.assembles, receives.size⟩ (by simp))
        · have whole := held receives
          exact ⟨whole, (fun other => by cases other), fun other => by cases other⟩
        · have behind : bytes ++ chunk ++ inbound = stream := by
            rw [← whole, List.append_assoc]
            exact congrArg (bytes ++ ·) split.symm
          dsimp only
          simp only [wp_ite, wp_bind, wp_pure, wp_fail, updateReader, wp_update]
          by_cases none : chunk = []
          · -- The stream has ended, or the transport gave up early.
            rw [if_pos none]
            subst none
            refine ⟨?_, (fun other => by cases other), fun _ empty => ?_⟩
            · show after.buffer.take after.readBytes ++ inbound = stream
              rw [assembles.held, ← behind, List.append_nil]
            · change inbound = [] at empty
              subst empty
              rw [← kept, ← behind, List.append_nil, List.append_nil]
              exact assembles.frameOf_pending unfinished fits more
          · rw [if_neg none]
            refine ⟨⟨bytes ++ chunk, assembles.read unfinished fits none within, behind⟩, ?_⟩
            have room := (PacketReader.window_eq_ok fits).2 more
            rw [← kept]
            exact Arena.length_overwrite
              (show after.readBytes + chunk.length ≤ after.buffer.length by omega)
    · obtain ⟨rfl, same, count, failed⟩ := refused
      refine ⟨?_, fun _ => ?_, fun other => by cases other⟩
      · show after.buffer.take after.readBytes ++ world.inbound = stream
        rw [same, count, assembles.held, whole]
      · rw [← receives.size, ← whole]
        exact failed world.inbound

/-- The bytes of the packet that a reader hands out. -/
def PacketReader.packet (reader : PacketReader) : Bytes :=
  reader.buffer.take (reader.packetLength.getD 0)

end Minimq

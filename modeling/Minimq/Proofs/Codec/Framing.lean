import Minimq.Proofs.Codec.Varint
import Minimq.Proofs.Codec.PacketReader

/-! The reference framing of an inbound stream, and how the packet reader assembles its packets. -/

namespace Minimq

open Hoare

variable {stream : Bytes}

/-- What a stream starts with, for a receiver with a buffer of limited size. -/
inductive Frame where
  /-- A complete packet of this length. -/
  | packet (length : Nat)
  /-- Nothing wrong, but no complete packet either. -/
  | pending
  /-- A length that is not canonical, or a packet or header that does not fit. -/
  | malformed
  deriving DecidableEq

/-- The frame in front of a stream: a type byte, a canonical length and that many bytes. -/
def frameOf (capacity : Nat) (stream : Bytes) : Frame :=
  match varintPrefix mqttVarintMaxBytes true (stream.drop 1) with
  | .invalid => .malformed
  -- The receiver must be able to hold at least one more byte of the header.
  | .incomplete => if stream.length < capacity then .pending else .malformed
  | .found value len =>
    if capacity < 1 + len + value then .malformed
    else if 1 + len + value ≤ stream.length then .packet (1 + len + value) else .pending

section Stream

variable {slots value len : Nat} {first : Bool} {bytes more : Bytes}

/-- A complete integer does not depend on what follows. -/
theorem varintPrefix_append_found (found : varintPrefix slots first bytes = .found value len) :
    varintPrefix slots first (bytes ++ more) = .found value len := by
  -- The recursion looks only at the bytes of the integer.
  induction slots generalizing first bytes value len with
  | zero => simp [varintPrefix] at found
  | succ slots ih =>
    cases bytes with
    | nil => simp [varintPrefix] at found
    | cons byte rest =>
      simp only [varintPrefix, List.cons_append] at found ⊢
      split at found
      · rename_i last
        rwa [if_pos last]
      · rename_i continued
        rw [if_neg continued]
        split at found
        · rename_i inner
          rw [ih inner]
          exact found
        · rename_i other
          exact absurd found (other _ _)

/-- What cannot become canonical stays so. -/
theorem varintPrefix_append_invalid (invalid : varintPrefix slots first bytes = .invalid) :
    varintPrefix slots first (bytes ++ more) = .invalid := by
  -- The bytes already seen decide, in the group where they went wrong.
  induction slots generalizing first bytes with
  | zero => rfl
  | succ slots ih =>
    cases bytes with
    | nil => simp [varintPrefix] at invalid
    | cons byte rest =>
      simp only [varintPrefix, List.cons_append] at invalid ⊢
      split at invalid
      · rename_i last
        rwa [if_pos last]
      · rename_i continued
        rw [if_neg continued]
        split at invalid
        · simp at invalid
        · rw [ih invalid]

/-- An integer that is complete only with more bytes ends among those. -/
theorem varintPrefix_append_incomplete (incomplete : varintPrefix slots first bytes = .incomplete)
    (found : varintPrefix slots first (bytes ++ more) = .found value len) :
    bytes.length < len := by
  induction slots generalizing first bytes value len with
  | zero => simp [varintPrefix] at found
  | succ slots ih =>
    cases bytes with
    | nil =>
      -- An integer takes at least one byte.
      cases more with
      | nil => simp [varintPrefix] at found
      | cons byte rest =>
        simp only [List.nil_append, varintPrefix] at found
        split at found
        · split at found
          · simp at found
          · simp only [VarintPrefix.found.injEq] at found
            simp [← found.2]
        · split at found
          · simp only [VarintPrefix.found.injEq] at found
            simp [← found.2]
          · rename_i other
            exact absurd found (other _ _)
    | cons byte rest =>
      simp only [varintPrefix, List.cons_append] at incomplete found
      split at incomplete
      · split at incomplete <;> simp at incomplete
      · rename_i continued
        rw [if_neg continued] at found
        split at incomplete
        · simp at incomplete
        · split at found
          · rename_i inner
            simp only [VarintPrefix.found.injEq] at found
            have := ih incomplete inner
            simp only [List.length_cons]
            omega
          · rename_i other
            exact absurd found (other _ _)

/-- An integer that is not complete yet can be completed. -/
theorem varintPrefix_completable (incomplete : varintPrefix slots first bytes = .incomplete) :
    ∃ value len, varintPrefix slots first (bytes ++ [1]) = .found value len := by
  -- One more byte without the continuation bit completes the integer.
  induction slots generalizing first bytes with
  | zero => simp [varintPrefix] at incomplete
  | succ slots ih =>
    cases bytes with
    | nil => exact ⟨1, 1, by cases first <;> rfl⟩
    | cons byte rest =>
      simp only [varintPrefix, List.cons_append] at incomplete ⊢
      split at incomplete
      · split at incomplete <;> simp at incomplete
      · rename_i continued
        split at incomplete
        · simp at incomplete
        · obtain ⟨value, len, inner⟩ := ih incomplete
          exact ⟨_, _, by rw [if_neg continued, inner]⟩

/-- An integer of at most four bytes is found in front exactly if its encoding is there. -/
theorem varintPrefix_eq_found :
    varintPrefix mqttVarintMaxBytes true bytes = .found value len ↔
      ∃ field, writeMqttU32Varint value = some field ∧ field <+: bytes ∧ len = field.length := by
  -- The writer is the inverse of the reader on canonical encodings.
  constructor
  · intro found
    obtain ⟨written, within, -⟩ := writeVarintLoop_of_found found
    refine ⟨bytes.take len, ?_, List.take_prefix _ _, by rw [List.length_take]; omega⟩
    have below := varintPrefix_lt found
    rw [writeMqttU32Varint, if_neg, written]
    simp only [mqttVarintMax, mqttVarintMaxBytes] at below ⊢
    omega
  · rintro ⟨field, written, ⟨more, rfl⟩, rfl⟩
    unfold writeMqttU32Varint at written
    split at written
    · simp at written
    · exact found_of_writeVarintLoop written (by simp)

/-- Bytes are beyond repair exactly if no encoding starts with them or is in front of them. -/
theorem varintPrefix_eq_invalid :
    varintPrefix mqttVarintMaxBytes true bytes = .invalid ↔
      ∀ more value field, writeMqttU32Varint value = some field → ¬ field <+: bytes ++ more := by
  constructor
  · intro invalid more value field written here
    have found := varintPrefix_eq_found.mpr ⟨field, written, here, rfl⟩
    rw [varintPrefix_append_invalid invalid] at found
    simp at found
  · intro hopeless
    -- In the other two cases an encoding exists, which was excluded.
    cases seen : varintPrefix mqttVarintMaxBytes true bytes with
    | invalid => rfl
    | incomplete =>
      obtain ⟨value, len, found⟩ := varintPrefix_completable seen
      obtain ⟨field, written, here, -⟩ := varintPrefix_eq_found.mp found
      exact absurd here (hopeless _ _ _ written)
    | found value len =>
      obtain ⟨field, written, here, -⟩ := varintPrefix_eq_found.mp seen
      exact absurd here (by simpa using hopeless [] _ _ written)

end Stream

/-- The frames are what they should be: a type byte, a canonical length and a body. -/
theorem frameOf_eq_packet {capacity length : Nat} :
    frameOf capacity stream = .packet length ↔
      length ≤ capacity ∧ ∃ kind field body rest, writeMqttU32Varint body.length = some field ∧
        stream = kind :: field ++ body ++ rest ∧ length = (kind :: field ++ body).length := by
  unfold frameOf
  constructor
  · intro complete
    -- A packet is complete only if its length is there and canonical.
    cases seen : varintPrefix mqttVarintMaxBytes true (stream.drop 1) with
    | invalid =>
      simp only [seen] at complete
      cases complete
    | incomplete =>
      simp only [seen] at complete
      split at complete <;> simp at complete
    | found value len =>
      obtain ⟨field, written, ⟨behind, split⟩, rfl⟩ := varintPrefix_eq_found.mp seen
      simp only [seen] at complete
      split at complete
      · simp at complete
      · split at complete
        · rename_i fits within
          simp only [Frame.packet.injEq] at complete
          cases stream with
          | nil => simp at within
          | cons kind after =>
            simp only [List.drop_succ_cons, List.drop_zero] at split
            -- The bytes behind the length hold the body and perhaps more.
            have enough : value ≤ behind.length := by
              simp only [← split, List.length_cons, List.length_append] at within
              omega
            have exactly : (behind.take value).length = value := by
              rw [List.length_take]
              omega
            refine ⟨by omega, kind, field, behind.take value, behind.drop value, ?_, ?_, ?_⟩
            · rwa [exactly]
            · simp [← split]
            · simp only [List.length_append, List.length_cons, exactly]
              omega
        · simp at complete
  · rintro ⟨fits, kind, field, body, rest, written, rfl, rfl⟩
    have seen : varintPrefix mqttVarintMaxBytes true
        ((kind :: field ++ body ++ rest).drop 1) = .found body.length field.length :=
      varintPrefix_eq_found.mpr ⟨field, written, ⟨body ++ rest, by simp⟩, rfl⟩
    simp only [List.length_append, List.length_cons] at fits ⊢
    rw [seen]
    simp only
    rw [if_neg (by omega), if_pos (by omega)]
    congr 1
    omega

namespace PacketReader

/-- The reader holds the first bytes of a packet, and knows its length once the header is in. -/
structure Assembles (reader : PacketReader) (bytes : Bytes) : Prop where
  /-- The bytes are in front of the buffer. -/
  held : reader.buffer.take reader.readBytes = bytes
  /-- They fit the buffer. -/
  within : reader.readBytes ≤ reader.buffer.length
  /-- An unknown length was not complete before the last byte came in. -/
  unknown : reader.packetLength = none →
    varintPrefix mqttVarintMaxBytes true (bytes.dropLast.drop 1) = .incomplete
  /-- A known length is the announced one, and is not exceeded. -/
  known : ∀ length, reader.packetLength = some length →
    ∃ value len, varintPrefix mqttVarintMaxBytes true (bytes.drop 1) = .found value len ∧
      length = 1 + len + value ∧ bytes.length ≤ length

section Assembly

variable {reader : PacketReader} {bytes : Bytes}

theorem assembles_nil (none : reader.packetLength = none) (empty : reader.readBytes = 0) :
    reader.Assembles [] where
  held := by simp [empty]
  within := by simp [empty]
  unknown _ := rfl
  known length some := by simp [none] at some

theorem Assembles.length (assembles : reader.Assembles bytes) : bytes.length = reader.readBytes := by
  rw [← assembles.held, List.length_take]
  have := assembles.within
  omega

theorem drop_one_append {bytes rest : Bytes} (some : bytes ≠ []) :
    (bytes ++ rest).drop 1 = bytes.drop 1 ++ rest := by
  cases bytes with
  | nil => exact absurd rfl some
  | cons => rfl

theorem varintPrefix_drop_append {bytes rest : Bytes} {value len : Nat}
    (found : varintPrefix mqttVarintMaxBytes true (bytes.drop 1) = .found value len) :
    varintPrefix mqttVarintMaxBytes true ((bytes ++ rest).drop 1) = .found value len := by
  rw [drop_one_append, varintPrefix_append_found found]
  rintro rfl
  simp [varintPrefix, mqttVarintMaxBytes] at found

/-- A complete packet in the reader is the frame in front of the stream. -/
theorem Assembles.frameOf_available (assembles : reader.Assembles bytes)
    (available : reader.packetAvailable = true) (rest : Bytes) :
    reader.packetLength = some bytes.length ∧
      frameOf reader.capacity (bytes ++ rest) = .packet bytes.length := by
  cases known : reader.packetLength with
  | none => simp [packetAvailable, known] at available
  | some length =>
    obtain ⟨value, len, found, rfl, within⟩ := assembles.known length known
    have all : 1 + len + value ≤ bytes.length := by
      simpa [packetAvailable, known, assembles.length] using available
    -- The reader never takes bytes behind a packet.
    have exactly : 1 + len + value = bytes.length := by omega
    have fits : bytes.length ≤ reader.capacity := assembles.length ▸ assembles.within
    refine ⟨by rw [exactly], ?_⟩
    unfold frameOf
    rw [varintPrefix_drop_append found]
    simp only [exactly, List.length_append]
    rw [if_neg (by omega), if_pos (by omega)]

/-- A window behind the end of the stream means that its last packet is not complete. -/
theorem Assembles.frameOf_pending {size : Nat} (assembles : reader.Assembles bytes)
    (unfinished : reader.packetLength = none →
      varintPrefix mqttVarintMaxBytes true (bytes.drop 1) = .incomplete)
    (fits : reader.window = .ok size) (more : size ≠ 0) :
    frameOf reader.capacity bytes = .pending := by
  have length := assembles.length
  unfold window at fits
  unfold frameOf
  -- With the length unknown the varint is incomplete, and otherwise the body is.
  cases known : reader.packetLength with
  | none =>
    simp only [known] at fits
    split at fits
    · rename_i inside
      rw [unfinished known]
      exact if_pos (show bytes.length < reader.buffer.length by omega)
    · simp at fits
  | some announced =>
    obtain ⟨value, len, found, rfl, within⟩ := assembles.known announced known
    simp only [known] at fits
    split at fits
    · rename_i inside
      simp only [Except.ok.injEq] at fits
      rw [found]
      simp only
      rw [if_neg (show ¬ reader.capacity < 1 + len + value from Nat.not_lt.mpr inside),
        if_neg (by omega)]
    · simp at fits

/-- Without a window the stream is malformed, whatever follows. -/
theorem Assembles.frameOf_malformed {error : ProtocolError} (assembles : reader.Assembles bytes)
    (unfinished : reader.packetLength = none →
      varintPrefix mqttVarintMaxBytes true (bytes.drop 1) = .incomplete)
    (full : reader.window = .error error) (rest : Bytes) :
    frameOf reader.capacity (bytes ++ rest) = .malformed := by
  have length := assembles.length
  have within := assembles.within
  unfold window at full
  unfold frameOf
  cases known : reader.packetLength with
  | none =>
    simp only [known] at full
    split at full
    · simp at full
    · rename_i outside
      -- The header does not end within the buffer, so neither does the packet.
      have rest_incomplete := unfinished known
      cases seen : varintPrefix mqttVarintMaxBytes true ((bytes ++ rest).drop 1) with
      | invalid => rfl
      | incomplete =>
        refine if_neg (show ¬ (bytes ++ rest).length < reader.buffer.length from ?_)
        rw [List.length_append]
        omega
      | found value len =>
        have long : (bytes.drop 1).length < len := by
          cases bytes with
          | nil =>
            exact @varintPrefix_append_incomplete _ _ _ _ _ (rest.drop 1) rest_incomplete seen
          | cons byte bytes => exact varintPrefix_append_incomplete rest_incomplete seen
        rw [List.length_drop] at long
        exact if_pos (show reader.buffer.length < 1 + len + value by omega)
  | some announced =>
    obtain ⟨value, len, found, rfl, -⟩ := assembles.known announced known
    simp only [known] at full
    split at full
    · simp at full
    · rename_i outside
      rw [varintPrefix_drop_append found]
      exact if_pos (show reader.buffer.length < 1 + len + value by omega)

/-- Bytes for the window extend what the reader holds. -/
theorem Assembles.read {size : Nat} {chunk : Bytes} (assembles : reader.Assembles bytes)
    (unfinished : reader.packetLength = none →
      varintPrefix mqttVarintMaxBytes true (bytes.drop 1) = .incomplete)
    (fits : reader.window = .ok size) (some : chunk ≠ []) (within : chunk.length ≤ size) :
    ((reader.fill chunk).commit chunk.length).Assembles (bytes ++ chunk) := by
  have length := assembles.length
  have positive := List.length_pos_iff.mpr some
  have room : reader.readBytes + chunk.length ≤ reader.buffer.length := by
    have := (window_eq_ok fits).2 (by omega)
    omega
  refine ⟨?_, ?_, fun unknown => ?_, fun announced known => ?_⟩
  · show (Arena.overwrite reader.buffer reader.readBytes chunk).take
        (reader.readBytes + chunk.length) = bytes ++ chunk
    rw [← assembles.held]
    exact Arena.take_overwrite_end ..
  · show reader.readBytes + chunk.length ≤
        (Arena.overwrite reader.buffer reader.readBytes chunk).length
    rwa [Arena.length_overwrite room]
  · -- An unknown length is asked for byte by byte.
    change reader.packetLength = none at unknown
    have one : chunk.length = 1 := by
      unfold window at fits
      simp only [unknown] at fits
      split at fits
      · simp only [Except.ok.injEq] at fits
        omega
      · simp at fits
    obtain ⟨byte, rfl⟩ := List.length_eq_one_iff.mp one
    rw [List.dropLast_concat]
    exact unfinished unknown
  · change reader.packetLength = _ at known
    obtain ⟨value, len, found, rfl, -⟩ := assembles.known announced known
    refine ⟨value, len, varintPrefix_drop_append found, rfl, ?_⟩
    unfold window at fits
    simp only [known] at fits
    split at fits
    · simp only [Except.ok.injEq] at fits
      rw [List.length_append]
      omega
    · simp at fits

/-- Probing the header finds the announced length, unless it is incomplete or beyond repair. -/
theorem Assembles.probeFixedHeader (assembles : reader.Assembles bytes)
    (unknown : reader.packetLength = none) :
    wp PacketReader.probeFixedHeader
      (fun _ after => after.Assembles bytes ∧ after.buffer = reader.buffer ∧
        (after.packetLength = none →
          varintPrefix mqttVarintMaxBytes true (bytes.drop 1) = .incomplete))
      (fun _ after => after.buffer = reader.buffer ∧ after.readBytes = reader.readBytes ∧
        varintPrefix mqttVarintMaxBytes true (bytes.drop 1) = .invalid ∧ bytes ≠ []) reader := by
  have length := assembles.length
  unfold PacketReader.probeFixedHeader
  simp only [wp_bind, wp_get, wp_ite, wp_set, assembles.held]
  split
  · rename_i short
    -- A single byte holds no length.
    have none : bytes.drop 1 = [] := List.drop_of_length_le (by omega)
    exact ⟨assembles, rfl, fun _ => by rw [none]; rfl⟩
  · rename_i long
    rw [probeMqttU32Varint_eq]
    cases seen : varintPrefix mqttVarintMaxBytes true (bytes.drop 1) with
    | invalid =>
      refine ⟨rfl, rfl, rfl, ?_⟩
      rintro rfl
      simp [← length] at long
    | incomplete =>
      refine ⟨⟨assembles.held, assembles.within, fun _ => assembles.unknown unknown, ?_⟩, rfl,
        fun _ => rfl⟩
      intro announced known
      cases known
    | found value len =>
      refine ⟨⟨assembles.held, assembles.within, (fun none => by cases none), ?_⟩, rfl,
        fun none => by cases none⟩
      intro announced known
      cases known
      refine ⟨value, len, seen, rfl, ?_⟩
      -- The length became complete with the last byte, so the header ends there.
      have some : bytes ≠ [] := by
        rintro rfl
        simp [← length] at long
      have last : bytes.drop 1 = bytes.dropLast.drop 1 ++ [bytes.getLast some] := by
        rw [← drop_one_append, List.dropLast_append_getLast]
        intro empty
        have := congrArg List.length empty
        simp only [List.length_dropLast, List.length_nil] at this
        omega
      rw [last] at seen
      have ends := varintPrefix_append_incomplete (assembles.unknown unknown) seen
      simp only [List.length_drop, List.length_dropLast] at ends
      omega

/-- The window for the next read, or a stream that is malformed whatever follows. -/
theorem Assembles.receiveBuffer (assembles : reader.Assembles bytes) :
    wp PacketReader.receiveBuffer
      (fun size after => after.Assembles bytes ∧ after.buffer = reader.buffer ∧
        (after.packetLength = none →
          varintPrefix mqttVarintMaxBytes true (bytes.drop 1) = .incomplete) ∧
        after.window = .ok size)
      (fun error after => error = .malformedPacket ∧ after.buffer = reader.buffer ∧
        after.readBytes = reader.readBytes ∧
        ∀ rest, frameOf reader.capacity (bytes ++ rest) = .malformed) reader := by
  have failed {middle : PacketReader} (held : middle.Assembles bytes)
      (same : middle.buffer = reader.buffer)
      (unfinished : middle.packetLength = none →
        varintPrefix mqttVarintMaxBytes true (bytes.drop 1) = .incomplete) :
      ∀ error, middle.window = .error error →
        middle.buffer = reader.buffer ∧ middle.readBytes = reader.readBytes ∧
          ∀ rest, frameOf reader.capacity (bytes ++ rest) = .malformed := by
    intro error fails
    refine ⟨same, held.length.symm.trans assembles.length, fun rest => ?_⟩
    have failed := held.frameOf_malformed unfinished fails rest
    rwa [capacity, same] at failed
  -- Both windows fail alike, so their failure is treated once.
  refine wp_mono (wp_and receiveBuffer_malformed ?_) (fun _ _ both => both.2)
    (fun _ _ both => both)
  unfold PacketReader.receiveBuffer
  simp only [wp_bind, wp_get, wp_ite]
  split
  · -- The header is probed as long as the length is not known.
    rename_i unknown
    refine wp_mono (assembles.probeFixedHeader (Option.isNone_iff_eq_none.mp unknown))
      (fun _ middle probed => ?_) (fun _ after probed => ?_)
    · obtain ⟨held, same, unfinished⟩ := probed
      simp only [wp_bind, wp_get]
      exact wp_window (fun size fits => ⟨held, same, unfinished, fits⟩)
        (failed held same unfinished)
    · obtain ⟨same, count, invalid, read⟩ := probed
      refine ⟨same, count, fun rest => ?_⟩
      unfold frameOf
      rw [drop_one_append read, varintPrefix_append_invalid invalid]
  · rename_i known
    have unfinished : reader.packetLength = none →
        varintPrefix mqttVarintMaxBytes true (bytes.drop 1) = .incomplete :=
      fun none => absurd none (by simpa using known)
    exact wp_window (fun size fits => ⟨assembles, rfl, unfinished, fits⟩)
      (failed assembles rfl unfinished)

end Assembly

end PacketReader

end Minimq

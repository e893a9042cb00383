import Minimq.Proofs.Client.Traffic

/-! The bytes of a connection are complete packets and at most one incomplete packet at the end. -/

namespace Minimq

open Async History

variable {π τ : Type} {fits : Bytes → Prop}

/-- The bytes that the transport accepted. -/
def acceptedBytes : List (Happening Event) → Bytes
  | [] => []
  | .accepted bytes :: rest => bytes ++ acceptedBytes rest
  | _ :: rest => acceptedBytes rest

section Bytes

variable {front back events : List (Happening Event)}

@[simp] theorem acceptedBytes_append :
    acceptedBytes (front ++ back) = acceptedBytes front ++ acceptedBytes back := by
  induction front with
  | nil => rfl
  | cons event rest ih => cases event <;> simp [acceptedBytes, ih]

theorem acceptedBytes_silent {event : Happening Event} (silent : Silent event) :
    acceptedBytes [event] = [] := by
  cases event with
  | accepted bytes => exact silent.elim
  | _ => rfl

theorem acceptedBytes_direct (packet : Bytes) (chunks : List Bytes) :
    acceptedBytes (.noted (.direct packet) :: chunks.map .accepted) = chunks.flatten := by
  change acceptedBytes (chunks.map .accepted) = _
  induction chunks with
  | nil => rfl
  | cons chunk rest ih => simp [acceptedBytes, ih]

end Bytes

/-- The bytes are complete packets and then a part of a packet. -/
structure Assembled (fits : Bytes → Prop) (underway : Option WriteStep) (cut : Bool) (bytes : Bytes)
    (packets : List Bytes) (part : Bytes) : Prop where
  /-- The bytes are put together from them. -/
  split : bytes = packets.flatten ++ part
  /-- The packets are complete. -/
  complete : ∀ packet ∈ packets, fits packet
  /-- The part is less than a packet. -/
  incomplete : part = [] ∨ ∃ packet, fits packet ∧ part <+: packet ∧ part ≠ packet
  /-- If a packet is in progress, the part is what was written of it. -/
  progress : ∀ current ∈ underway, part = current.bytes.take current.written
  /-- If none is and none was cut short, there is no part. -/
  whole : underway = none → cut = false → part = []

/-- A packet, or a part of one, behind complete packets. -/
theorem Assembled.of_part {underway : Option WriteStep} {cut : Bool}
    {bytes packet part : Bytes} {packets : List Bytes} (split : bytes = packets.flatten ++ part)
    (complete : ∀ packet ∈ packets, fits packet) (legal : fits packet) (within : part <+: packet)
    (done : part = packet → underway = none)
    (progress : part ≠ packet → ∀ current ∈ underway, part = current.bytes.take current.written)
    (whole : part ≠ packet → underway = none → cut = true) :
    ∃ packets part, Assembled fits underway cut bytes packets part := by
  -- The part is the whole packet, or the stream ends in the middle of it.
  by_cases same : part = packet
  · refine ⟨packets ++ [packet], [], ?_, ?_, .inl rfl, by simp [done same], fun _ _ => rfl⟩
    · rw [split, same]
      simp
    · intro other found
      rcases List.mem_append.mp found with found | found
      · exact complete other found
      · rw [List.mem_singleton.mp found]
        exact legal
  · refine ⟨packets, part, split, complete, .inr ⟨packet, legal, within, same⟩, progress same, ?_⟩
    intro none uncut
    rw [whole same none] at uncut
    cases uncut

/-- A packet is handed over only behind complete packets. -/
theorem Assembled.handed {cut : Bool} {back : List (Happening Event)}
    {packets : List Bytes} {part : Bytes}
    (assembled : Assembled fits none cut (acceptedBytes back) packets part)
    (whole : cut = true → False) (packet : Bytes) (chunks : List Bytes) :
    acceptedBytes (back ++ .noted (.direct packet) :: chunks.map .accepted) =
      packets.flatten ++ chunks.flatten := by
  rw [acceptedBytes_append, acceptedBytes_direct, assembled.split,
    assembled.whole rfl (Bool.eq_false_iff.mpr whole), List.append_nil]

/-- Traffic in which nothing follows a packet that was cut short. -/
theorem Traffic.assembled {underway : Option WriteStep} {cut : Bool}
    {back : List (Happening Event)} (traffic : Traffic False fits underway cut back) :
    ∃ packets part, Assembled fits underway cut (acceptedBytes back) packets part := by
  induction traffic with
  | nil => exact ⟨[], [], rfl, by simp, .inl rfl, by simp, fun _ _ => rfl⟩
  | silent earlier silent ih =>
    obtain ⟨packets, part, assembled⟩ := ih
    refine ⟨packets, part, ?_, assembled.complete, assembled.incomplete, assembled.progress,
      assembled.whole⟩
    rw [acceptedBytes_append, acceptedBytes_silent silent, List.append_nil]
    exact assembled.split
  | @wrote underway cut back current count earlier whole resumes legal positive within ih =>
    obtain ⟨packets, part, assembled⟩ := ih
    -- What was written of the packet before is the part that the bytes end with.
    have part_eq : part = current.bytes.take current.written := by
      cases underway with
      | none =>
        rw [assembled.whole rfl (Bool.eq_false_iff.mpr whole), show current.written = 0 from resumes]
        rfl
      | some other =>
        rw [show current = other from resumes]
        exact assembled.progress other rfl
    have written : part ++ (current.bytes.drop current.written).take count =
        current.bytes.take (current.written + count) := by
      rw [part_eq, List.take_add]
    have split : acceptedBytes (back ++
        [.accepted ((current.bytes.drop current.written).take count),
          .noted (.wrote current.packet current.bytes current.written count)]) =
        packets.flatten ++ current.bytes.take (current.written + count) := by
      rw [acceptedBytes_append, assembled.split, List.append_assoc, ← written]
      simp [acceptedBytes]
    refine Assembled.of_part split assembled.complete legal (List.take_prefix _ _) ?_ ?_ ?_
    · intro all
      have size := congrArg List.length all
      rw [List.length_take] at size
      rw [WriteStep.after, if_pos (by omega)]
    · intro some other found
      unfold WriteStep.after at found
      split at found
      · cases found
      · cases found
        rfl
    · intro some none
      unfold WriteStep.after at none
      split at none
      · exact absurd (List.take_of_length_le ‹_›) some
      · cases none
  | @direct cut back packet chunks earlier whole legal complete ih =>
    obtain ⟨packets, part, assembled⟩ := ih
    exact Assembled.of_part (assembled.handed whole packet chunks) assembled.complete legal
      (by rw [complete]) (fun _ => rfl) (by simp) (fun short => absurd complete short)
  | @cut cut back packet chunks earlier whole legal short ih =>
    obtain ⟨packets, part, assembled⟩ := ih
    exact Assembled.of_part (assembled.handed whole packet chunks) assembled.complete legal short
      (fun _ => rfl) (by simp) (fun _ _ => rfl)

/--
On every connection the bytes after the handshake are complete packets and then less than a packet.

A packet in progress is written on from the position it has got to before anything else is sent.
-/
theorem run_stream_framed (config : ConfigBuilder) (clock : Clock)
    (earlier calls : List (Invocation π τ))
    (unbroken : Unbroken (run (start config clock) earlier) calls)
    {front back : List (Happening Event)} {state : Handling} {ack : ConnAck}
    (during : (run (start config clock) earlier).trace <+: front)
    (chapter : Chapter Starts (run (run (start config clock) earlier) calls).trace front
      (.noted (.connected state ack)) back) :
    (∃ underway cut, Traffic False (Permitted ack) underway cut back) ∧
    ∃ (packets : List Bytes) (part : Bytes), acceptedBytes back = packets.flatten ++ part ∧
      (∀ packet ∈ packets, EncodedPacket packet) ∧
      (part = [] ∨ ∃ packet, EncodedPacket packet ∧ part <+: packet ∧ part ≠ packet) := by
  have all : Throughout (Sending False) _ _ := .run config clock unbroken Step.sending
  obtain ⟨connection, underway, cut, traffic, -⟩ := all.each chapter during state ack rfl
  obtain ⟨packets, part, assembled⟩ := traffic.assembled
  refine ⟨⟨underway, cut, traffic⟩, packets, part, assembled.split,
    fun packet found => (assembled.complete packet found).1, assembled.incomplete.imp_right ?_⟩
  rintro ⟨packet, legal, within, short⟩
  exact ⟨packet, legal.1, within, short⟩

/-- A publication that is written in two parts. -/
theorem run_stream_framed_publication : ∃ front state ack back,
    Chapter Starts (run (start (smallConfig 0) (steppingClock 0 0)) sentPublication).trace front
      (.noted (.connected state ack)) back ∧
    (∃ underway cut, Traffic False (Permitted ack) underway cut back) ∧
    ∃ (packets : List Bytes) (part : Bytes), acceptedBytes back = packets.flatten ++ part ∧
      (∀ packet ∈ packets, EncodedPacket packet) ∧
      (part = [] ∨ ∃ packet, EncodedPacket packet ∧ part <+: packet ∧ part ≠ packet) := by
  obtain ⟨front, state, ack, back, trace, last⟩ := run_connected (smallConfig 0) (steppingClock 0 0)
    sentPublication (by decide +kernel)
  have chapter : Chapter Starts _ front (.noted (.connected state ack)) back :=
    .latest ⟨trace, .inr ⟨state, ack, rfl⟩, last⟩
  exact ⟨front, state, ack, back, chapter,
    run_stream_framed (smallConfig 0) (steppingClock 0 0) [] sentPublication (by decide +kernel)
      List.nil_prefix chapter⟩

end Minimq

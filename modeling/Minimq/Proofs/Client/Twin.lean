import Minimq.Proofs.Client.Alike

/-! Two connections side by side: transport traffic does not reveal how they differ. -/

namespace Minimq

open Hoare Async

variable {τ ε α : Type} {left right : ClientWorld τ}

theorem Outbound.retainedBytes_completeFlush (outbound : Outbound) :
    outbound.completeFlush.retainedBytes = outbound.retainedBytes := by
  simp [retainedBytes, bytesOf, completeFlush, Function.comp_def]

theorem Outbound.retainedBytes_setWritten (outbound : Outbound) (written len : Nat)
    (packet : Packet) : (outbound.setWritten written len packet).retainedBytes =
      outbound.retainedBytes := by
  cases packet with
  | control index => rfl
  | release packetId => rfl
  | retained packetId => exact congrArg List.sum (FixedVec.map_toList_modify fun _ => rfl)

theorem Outbound.buf_setWritten (outbound : Outbound) (written len : Nat) (packet : Packet) :
    (outbound.setWritten written len packet).buf = outbound.buf := by
  cases packet <;> rfl

namespace PacketReader

variable {left right : PacketReader}

/-- Two readers that hold the same bytes of the same packet. -/
def Alike (left right : PacketReader) : Prop :=
  ∃ buffer, right = { left with buffer } ∧ SameUpTo left.readBytes left.buffer buffer

theorem Alike.reset (alike : left.Alike right) : left.reset.Alike right.reset := by
  obtain ⟨buffer, rfl, same⟩ := alike
  exact ⟨buffer, rfl, same.mono (Nat.zero_le _)⟩

theorem Alike.read (alike : left.Alike right) (chunk : Bytes) :
    ((left.fill chunk).commit chunk.length).Alike ((right.fill chunk).commit chunk.length) := by
  obtain ⟨buffer, rfl, same⟩ := alike
  exact ⟨_, rfl, same.write chunk⟩

theorem probeFixedHeader_agree (alike : left.Alike right) :
    Agree Alike Alike probeFixedHeader left right := by
  obtain ⟨buffer, rfl, same⟩ := alike
  -- The header is probed in the bytes read, which both readers share.
  unfold Agree probeFixedHeader
  simp only [both_get_bind, same.kept]
  refine both_ite Iff.rfl (fun _ => ⟨trivial, buffer, rfl, same⟩) (fun _ => ?_)
  simp only [both_set_bind]
  cases probeMqttU32Varint ((left.buffer.take left.readBytes).drop 1) with
  | error error => exact ⟨rfl, buffer, rfl, same⟩
  | ok found =>
    cases found with
    | none => exact ⟨trivial, buffer, rfl, same⟩
    | some found => exact ⟨trivial, buffer, rfl, same⟩

/-- The size of the window, once the header was probed. -/
theorem window_agree (alike : left.Alike right) :
    Agree Alike Alike (do
      match (← get).window with
      | .error error => throw error
      | .ok size => return size : EStateM ProtocolError PacketReader Nat) left right := by
  have window : right.window = left.window := by
    obtain ⟨buffer, rfl, same⟩ := alike
    simp only [PacketReader.window, same.size]
  unfold Agree
  simp only [both_get_bind, window]
  cases left.window with
  | error error => exact ⟨rfl, alike⟩
  | ok size => exact ⟨rfl, alike⟩

theorem receiveBuffer_agree (alike : left.Alike right) :
    Agree Alike Alike receiveBuffer left right := by
  have unknown : right.packetLength = left.packetLength := by
    obtain ⟨buffer, rfl, -⟩ := alike
    rfl
  unfold Agree receiveBuffer
  simp only [both_get_bind, unknown]
  refine both_ite Iff.rfl (fun _ => ?_) (fun _ => window_agree alike)
  exact (probeFixedHeader_agree alike).bind (fun _ _ _ alike => window_agree alike) (fun _ _ _ => id)

/-- Taking a complete packet; its bytes stay the same until the next read. -/
theorem takePacket_agree (alike : left.Alike right) (available : left.packetAvailable = true) :
    both takePacket takePacket
      (fun taken other left right => taken = other ∧ left.Alike right ∧
        SameUpTo taken.1 left.buffer right.buffer)
      (fun _ => Alike) left right := by
  obtain ⟨buffer, rfl, same⟩ := alike
  unfold takePacket
  simp only [both_get_bind]
  cases known : left.packetLength with
  | none => simp [packetAvailable, known] at available
  | some length =>
    -- The packet is complete, so it lies within the bytes read.
    have within : length ≤ left.readBytes := by
      simpa [packetAvailable, known] using available
    have fresh : left.reset.Alike (reset { left with buffer }) :=
      Alike.reset ⟨buffer, by rw [known], same⟩
    simp only [both_set_bind, (same.mono within).kept]
    cases ReceivedPacket.fromBuffer (left.buffer.take length) with
    | error error => exact ⟨rfl, fresh⟩
    | ok packet => exact ⟨rfl, fresh, same.mono within⟩

end PacketReader

namespace Connection

variable {left right : Connection}

/-- The same connection with other bytes where nobody may look, and another flush state. -/
def repaint (buf buffer : Bytes) (flushState : FlushState) (connection : Connection) : Connection :=
  { session := { connection.session with
      packetReader := { connection.session.packetReader with buffer }
      data := { connection.session.data with outbound := { connection.outbound with buf } } }
    live := connection.live
    flushState }

/-- Two connections that cannot be told apart; the flush state counts only while they are live. -/
def Alike (left right : Connection) : Prop :=
  ∃ buf buffer flushState, right = left.repaint buf buffer flushState ∧
    left.outbound.Repainted buf ∧
    SameUpTo left.session.packetReader.readBytes left.session.packetReader.buffer buffer ∧
    (left.live = true → flushState = left.flushState)

namespace Alike

theorem live (alike : left.Alike right) : right.live = left.live := by
  obtain ⟨buf, buffer, flushState, rfl, -⟩ := alike
  rfl

theorem flushState (alike : left.Alike right) (alive : left.live = true) :
    right.flushState = left.flushState := by
  obtain ⟨buf, buffer, flushState, rfl, -, -, flushes⟩ := alike
  exact flushes alive

theorem runtime (alike : left.Alike right) : right.runtime = left.runtime := by
  obtain ⟨buf, buffer, flushState, rfl, -⟩ := alike
  rfl

theorem reader (alike : left.Alike right) :
    left.session.packetReader.Alike right.session.packetReader := by
  obtain ⟨buf, buffer, flushState, rfl, -, same, -⟩ := alike
  exact ⟨buffer, rfl, same⟩

theorem handling (alike : left.Alike right) :
    left.session.handling.Alike right.session.handling := by
  obtain ⟨buf, buffer, flushState, rfl, same, -⟩ := alike
  exact ⟨buf, rfl, same⟩

theorem packetAvailable (alike : left.Alike right) :
    right.session.packetReader.packetAvailable = left.session.packetReader.packetAvailable := by
  obtain ⟨buf, buffer, flushState, rfl, -⟩ := alike
  rfl

theorem nextStep (alike : left.Alike right) :
    right.outbound.nextStep = left.outbound.nextStep := by
  obtain ⟨buf, buffer, flushState, rfl, -⟩ := alike
  rfl

theorem mapRuntime (alike : left.Alike right) (f : RuntimeState → RuntimeState) :
    (left.mapRuntime f).Alike (right.mapRuntime f) := by
  obtain ⟨buf, buffer, flushState, rfl, arena, reader, flushes⟩ := alike
  exact ⟨buf, buffer, flushState, rfl, arena, reader, flushes⟩

theorem mapReader (alike : left.Alike right) {reader other : PacketReader}
    (same : reader.Alike other) :
    (left.mapReader fun _ => reader).Alike (right.mapReader fun _ => other) := by
  obtain ⟨buf, -, flushState, rfl, arena, -, flushes⟩ := alike
  obtain ⟨buffer, rfl, same⟩ := same
  exact ⟨buf, buffer, flushState, rfl, arena, same, flushes⟩

theorem setHandling (alike : left.Alike right) {state other : Handling}
    (same : state.Alike other) : (left.setHandling state).Alike (right.setHandling other) := by
  obtain ⟨-, buffer, flushState, rfl, -, reader, flushes⟩ := alike
  obtain ⟨buf, rfl, same⟩ := same
  exact ⟨buf, buffer, flushState, rfl, same, reader, flushes⟩

theorem outbound (alike : left.Alike right) : ∃ buf,
    right.session.data.outbound = { left.session.data.outbound with buf } ∧
      left.session.data.outbound.Repainted buf := by
  obtain ⟨buf, buffer, flushState, rfl, same, -⟩ := alike
  exact ⟨buf, rfl, same⟩

theorem setOutbound {outbound : Outbound} {buf : Bytes} (alike : left.Alike right)
    (same : outbound.Repainted buf) :
    (left.mapOutbound fun _ => outbound).Alike
      (right.mapOutbound fun _ => { outbound with buf }) := by
  obtain ⟨-, buffer, flushState, rfl, -, reader, flushes⟩ := alike
  exact ⟨buf, buffer, flushState, rfl, same, reader, flushes⟩

theorem setData {data : SessionData} {buf : Bytes} (alike : left.Alike right)
    (same : data.outbound.Repainted buf) :
    (left.mapData fun _ => data).Alike
      (right.mapData fun _ => { data with outbound := { data.outbound with buf } }) := by
  obtain ⟨-, buffer, flushState, rfl, -, reader, flushes⟩ := alike
  exact ⟨buf, buffer, flushState, rfl, same, reader, flushes⟩

/-- Changing the outbound state. -/
theorem mapOutbound (alike : left.Alike right) {f : Outbound → Outbound}
    (step : ∀ buf, left.outbound.Repainted buf → ∃ buf',
      f { left.outbound with buf } = { f left.outbound with buf := buf' } ∧
        (f left.outbound).Repainted buf') :
    (left.mapOutbound f).Alike (right.mapOutbound f) := by
  obtain ⟨buf, buffer, flushState, rfl, arena, reader, flushes⟩ := alike
  obtain ⟨buf', same, arena'⟩ := step buf arena
  refine ⟨buf', buffer, flushState, ?_, arena', reader, flushes⟩
  unfold Connection.mapOutbound Connection.mapData Connection.mapSession repaint
  simp only [same]

theorem setFlush (alike : left.Alike right) (flushState : FlushState) :
    Alike { left with flushState } { right with flushState } := by
  obtain ⟨buf, buffer, _, rfl, arena, reader, -⟩ := alike
  exact ⟨buf, buffer, flushState, rfl, arena, reader, fun _ => rfl⟩

theorem handleDisconnect (alike : left.Alike right) :
    left.handleDisconnect.Alike right.handleDisconnect := by
  obtain ⟨buf, buffer, flushState, rfl, arena, reader, -⟩ := alike
  -- All packets start over in both, and the scratch space stays out of it.
  obtain ⟨buf', same, arena'⟩ := arena.armReplay
  refine ⟨buf', buffer, flushState, ?_, arena', reader.mono (Nat.zero_le _), (nomatch ·)⟩
  unfold Connection.handleDisconnect Session.handleDisconnect repaint
  simp only [same]
  rfl

end Alike

end Connection

/-- Two worlds that cannot be told apart. -/
structure Alike (left right : ClientWorld τ) : Prop where
  /-- The environments behave in the same way. -/
  synced : Synced left right
  /-- The connections are alike. -/
  self : left.self.Alike right.self

/-- Two worlds that cannot be told apart, with live connections. -/
structure Twin (left right : ClientWorld τ) : Prop extends Alike left right where
  /-- The connections are live. -/
  alive : left.self.live = true

namespace Alike

theorem update (alike : Alike left right) {own other : Connection} (same : own.Alike other) :
    Alike { left with self := own } { right with self := other } :=
  ⟨alike.synced.self own other, same⟩

theorem settled {left' right' : ClientWorld τ} (alike : Alike left right)
    (synced : Synced left' right') (own : left'.self = left.self)
    (other : right'.self = right.self) : Alike left' right' :=
  ⟨synced, by rw [own, other]; exact alike.self⟩

theorem note (alike : Alike left right) (event other : Event) :
    Alike (left.record (.noted event)) (right.record (.noted other)) :=
  ⟨alike.synced.note event other, alike.self⟩

theorem sampled (alike : Alike left right) :
    Alike { left with samples := left.samples + 1 } { right with samples := right.samples + 1 } :=
  ⟨alike.synced.sampled, alike.self⟩

theorem disconnect (alike : Alike left right) :
    Alike { left with self := left.self.handleDisconnect }
      { right with self := right.self.handleDisconnect } :=
  alike.update alike.self.handleDisconnect

end Alike

/-- Two programs that give up their connections with the same error. -/
theorem disconnected_agree {Q : α → α → ClientWorld τ → ClientWorld τ → Prop}
    (alike : Alike left right) (error : ε) :
    both (do
      disconnected
      Async.fail error : Client τ ε α) (do
      disconnected
      Async.fail error : Client τ ε α) Q (fun _ => Alike) left right :=
  ⟨rfl, alike.disconnect⟩

theorem fillPacketReader_agree (alike : Alike left right) :
    both (fillPacketReader : Client τ (Error τ) Unit) fillPacketReader
      (fun _ _ after other => Alike after other ∧ after.self.live = left.self.live ∧
        after.self.session.packetReader.packetAvailable = true)
      (fun _ after other => Alike after other ∧ after.self.live = left.self.live) left right := by
  suffices holds : both (fillPacketReader : Client τ (Error τ) Unit) fillPacketReader
      (fun _ _ => Alike) (fun _ => Alike) left right from
    both_mono (both_left holds fillPacketReader_spec)
      (fun _ _ _ _ ⟨alike, fed, available, _⟩ => ⟨alike, fed.live, available⟩)
      (fun _ _ _ ⟨alike, fed, _⟩ => ⟨alike, fed.live⟩)
  unfold fillPacketReader
  rw [both_rounds_bind, alike.synced.replies]
  -- Both readers ask for the same window and get the same bytes into it.
  refine both_iterate (fun _ => Alike) alike (fun _ left right alike => ?_) (fun _ _ _ => id)
  simp only [currentSession, bind_assoc, pure_bind, both_self_bind, alike.self.packetAvailable]
  refine both_ite Iff.rfl (fun _ => alike) (fun _ => ?_)
  refine both_bind (both_zoom (both_mono (PacketReader.receiveBuffer_agree alike.self.reader)
    (fun window other reader reader' => ?_) (fun error reader reader' same => ?_)))
  · rintro ⟨rfl, same⟩
    have alike := alike.update (alike.self.mapReader same)
    refine both_ite Iff.rfl (fun _ => alike) (fun _ => ?_)
    refine both_bind (both_read window alike.synced (fun result left' right' synced own other => ?_)
      (fun _ _ _ synced own other => alike.settled synced own other))
    have alike := alike.settled synced own other
    cases result with
    | error error => exact ⟨rfl, alike⟩
    | ok chunk =>
      refine both_ite Iff.rfl (fun _ => ⟨rfl, alike⟩) (fun _ => ⟨trivial, ?_⟩)
      exact alike.update (alike.self.mapReader (alike.self.reader.read chunk))
  · exact ⟨rfl, alike.update (alike.self.mapReader same)⟩

/-- Reading a packet; only an expired timer leaves the connections live. -/
theorem readPacket_agree (twin : Twin left right) :
    both (readPacket : Client τ (Error τ) Unit) readPacket (fun _ _ => Twin)
      (fun stop after other => Alike after other ∧ (stop = .expired → after.self.live = true))
      left right := by
  unfold readPacket
  simp only [both_self_bind, twin.self.live, twin.alive, Bool.not_true, Bool.false_eq_true,
    if_false]
  -- A failed read ends both connections, and an expired timer neither.
  refine both_bind (both_attempt (both_mono (fillPacketReader_agree twin.toAlike)
    (fun _ _ after other filled => ?_) (fun stop after other failed => ?_)))
  · exact ⟨filled.1, filled.2.1.trans twin.alive⟩
  · obtain ⟨alike, same⟩ := failed
    cases stop with
    | error error => exact ⟨rfl, alike.disconnect, fun expired => by cases expired⟩
    | dropped => exact ⟨alike, fun expired => by cases expired⟩
    | expired => exact ⟨alike, fun _ => same.trans twin.alive⟩

theorem flushCurrent_agree (twin : Twin left right) :
    Agree Twin Alike (flushCurrent : Client τ (Error τ) Unit) left right := by
  unfold Agree flushCurrent
  simp only [both_self_bind, twin.self.live, twin.alive, Bool.not_true, Bool.false_eq_true,
    if_false]
  rw [both_update_bind]
  have alike := twin.toAlike.update (twin.self.setFlush .flushing)
  refine both_bind (both_flush alike.synced (fun result left' right' synced own other => ?_)
    (fun _ _ _ synced own other => alike.settled synced own other))
  -- The transport gives both the same answer.
  have alike := alike.settled synced own other
  have alive : left'.self.live = true := by rw [own]; exact twin.alive
  cases result with
  | error error => exact disconnected_agree alike _
  | ok value =>
    simp only [both_now_bind, both_note_bind, updateOutbound, updateRuntime, both_update_bind,
      both_update, alike.synced.reading]
    have drained := alike.self.mapOutbound (f := Outbound.completeFlush)
      fun buf same => ⟨buf, rfl, by
        rwa [Outbound.Repainted, Outbound.retainedBytes_completeFlush]⟩
    exact ⟨trivial, ⟨(alike.sampled.note _ _).update ((drained.mapRuntime _).setFlush .clean),
      alive⟩⟩

theorem shouldQueuePingreq_alike (alike : left.self.Alike right.self) (now : Nat) :
    shouldQueuePingreq right.self.session now = shouldQueuePingreq left.self.session now := by
  obtain ⟨buf, buffer, flushState, same, -⟩ := alike
  rw [same]
  rfl

theorem maybeQueuePingreq_agree (twin : Twin left right) (now : Nat) :
    Agree Twin Alike (maybeQueuePingreq now : Client τ (Error τ) Unit) left right := by
  unfold Agree maybeQueuePingreq
  simp only [currentSession, bind_assoc, pure_bind, both_self_bind,
    shouldQueuePingreq_alike twin.self, twin.self.runtime]
  -- The decision reads the timers and the state of the queue, not the arena.
  refine both_ite Iff.rfl (fun _ => ?_) (fun _ => ⟨trivial, twin⟩)
  cases checkControlPacketSize left.self.runtime.maximumPacketSize .pingReq with
  | error error => exact ⟨rfl, twin.toAlike⟩
  | ok value =>
    obtain ⟨buf, same, arena⟩ := twin.self.outbound
    simp only [same, Outbound.queueControl]
    cases left.self.session.data.outbound.pendingControl.push ⟨.pingReq, .write 0⟩ with
    | none => exact ⟨rfl, twin.toAlike⟩
    | some controls =>
      exact ⟨trivial, twin.toAlike.update (twin.self.setOutbound arena), twin.alive⟩

/-- Both connections write the same bytes next. -/
theorem writeStep_alike (alike : left.self.Alike right.self) {step : OutboundStep}
    (next : left.self.outbound.nextStep = some step) :
    (writeStep right.self.session step : Except (Error τ) WriteStep) =
      writeStep left.self.session step := by
  have limit : right.self.session.runtime = left.self.session.runtime := alike.runtime
  cases step with
  | control index action written => simp only [writeStep, limit]
  | release packetId reason written => simp only [writeStep, limit]
  | retained packetId offset len written =>
    obtain ⟨buf, same, arena⟩ := alike.outbound
    -- The packet is one of the retained ones, so its bytes are the same.
    have inside : offset + len ≤ left.self.session.data.outbound.retainedBytes := by
      obtain ⟨found⟩ := (Outbound.at_of_nextStep next).1
      rename_i front back kind found
      rw [Outbound.retainedBytes]
      simp only [Connection.outbound] at found
      rw [found]
      simp only [Outbound.bytesOf, List.map_append, List.map_cons, List.sum_append, List.sum_cons]
      omega
    have bytes : right.self.session.data.outbound.retainedPacket offset len =
        left.self.session.data.outbound.retainedPacket offset len := by
      rw [same]
      exact arena.slice inside
    simp only [writeStep, limit, bytes]

theorem writeCurrent_agree {Q : Except (Error τ) Nat → Except (Error τ) Nat → ClientWorld τ →
      ClientWorld τ → Prop} {E : Stop ε → ClientWorld τ → ClientWorld τ → Prop} (bytes : Bytes)
    (alike : Alike left right)
    (settled : ∀ result (left' right' : ClientWorld τ), Alike left' right' →
      left'.self = left.self → Q result result left' right')
    (stopped : ∀ stop (left' right' : ClientWorld τ), Alike left' right' → E stop left' right') :
    both (writeCurrent bytes : Client τ ε (Except (Error τ) Nat)) (writeCurrent bytes) Q E
      left right := by
  refine both_bind (both_write bytes alike.synced (fun result left' right' synced own other => ?_)
    (fun stop left' right' synced own other => stopped _ _ _ (alike.settled synced own other)))
  -- The transport gives both the same answer.
  have alike := alike.settled synced own other
  cases result with
  | error error => exact settled _ _ _ alike own
  | ok count =>
    cases count with
    | zero => exact settled _ _ _ alike own
    | succ count => exact settled _ _ _ alike own

theorem performOutboundStep_agree (twin : Twin left right) {step : OutboundStep}
    (next : left.self.outbound.nextStep = some step) :
    Agree Twin Alike (performOutboundStep step : Client τ (Error τ) Bool) left right := by
  unfold Agree performOutboundStep
  -- A packet to write lies among the retained bytes, which both share.
  simp only [currentSession, bind_assoc, pure_bind, both_self_bind, writeStep_alike twin.self next]
  cases (writeStep left.self.session step : Except (Error τ) WriteStep) with
  | error error => exact ⟨rfl, twin.toAlike⟩
  | ok current =>
    simp only [Async.ofExcept, pure_bind, both_self_bind, twin.self.live, twin.alive,
      Bool.not_true, Bool.false_eq_true, if_false]
    refine both_bind (writeCurrent_agree _ twin.toAlike
      (fun result left' right' alike own => ?_) (fun _ _ _ => id))
    have alive : left'.self.live = true := by rw [own]; exact twin.alive
    cases result with
    | error error => exact disconnected_agree alike _
    | ok count =>
      -- Both note the same write and advance the same packet.
      have alike := alike.update (alike.self.setFlush .dirty)
      have written := alike.self.mapOutbound (f := fun outbound =>
        outbound.setWritten (current.written + count) current.bytes.length current.packet)
        fun buf same => by
          refine ⟨buf, ?_, ?_⟩
          · cases current.packet <;> rfl
          · rwa [Outbound.Repainted, Outbound.retainedBytes_setWritten, Outbound.buf_setWritten]
      have alike := (alike.update written).note
        (.wrote current.packet current.bytes current.written count)
        (.wrote current.packet current.bytes current.written count)
      simp only [updateOutbound, both_update_bind, both_note_bind]
      refine both_ite Iff.rfl (fun _ => ?_) (fun _ => ⟨rfl, alike, alive⟩)
      simp only [both_now_bind, alike.synced.reading, updateRuntime, both_update_bind]
      exact ⟨rfl, alike.sampled.update (alike.self.mapRuntime _), alive⟩

theorem serviceOutboundOnce_agree (twin : Twin left right) (now : Nat) :
    Agree Twin Alike (serviceOutboundOnce now : Client τ (Error τ) Bool) left right := by
  have flushed {left right : ClientWorld τ} (twin : Twin left right) :
      both (do
        flushCurrent
        return true : Client τ (Error τ) Bool) (do
        flushCurrent
        return true : Client τ (Error τ) Bool)
        (fun value other left right => value = other ∧ Twin left right) (fun _ => Alike)
        left right :=
    (flushCurrent_agree twin).bind (fun _ _ _ twin => ⟨rfl, twin⟩) (fun _ _ _ => id)
  -- Every decision reads the state of the queues, in which both agree.
  unfold Agree serviceOutboundOnce
  simp only [currentOutbound, bind_assoc, pure_bind, both_self_bind,
    twin.self.flushState twin.alive]
  refine both_ite Iff.rfl (fun _ => flushed twin) (fun _ => ?_)
  simp only [both_self_bind, twin.self.nextStep]
  cases next : left.self.outbound.nextStep with
  | some step => exact performOutboundStep_agree twin next
  | none =>
    simp only [both_self_bind, twin.self.flushState twin.alive]
    refine both_ite Iff.rfl (fun _ => flushed twin) (fun _ => ?_)
    refine (maybeQueuePingreq_agree twin now).bind (fun _ left right twin => ?_) (fun _ _ _ => id)
    simp only [both_self_bind, twin.self.nextStep]
    cases next : left.self.outbound.nextStep with
    | some step => exact performOutboundStep_agree twin next
    | none => exact ⟨rfl, twin⟩

/-- Progress, unless the PINGRESP is overdue. -/
theorem service_agree (twin : Twin left right) (now : Nat) :
    Agree Twin Alike (service now : Client τ (Error τ) Bool) left right := by
  have timer : right.self.session.runtime = left.self.session.runtime := twin.self.runtime
  unfold Agree service
  simp only [currentSession, bind_assoc, pure_bind, both_self_bind, timer]
  cases left.self.session.runtime.pingTimeout with
  | none => exact serviceOutboundOnce_agree twin now
  | some deadline =>
    exact both_ite Iff.rfl (fun _ => disconnected_agree twin.toAlike _)
      (fun _ => serviceOutboundOnce_agree twin now)

/-- Writing and flushing until nothing is left to send. -/
theorem flushOutbound_agree (twin : Twin left right) :
    Agree Twin Alike (flushOutbound : Client τ (Error τ) Unit) left right := by
  unfold Agree flushOutbound
  rw [both_rounds_bind, twin.synced.replies]
  -- Each round samples the clock once in both.
  refine both_iterate (fun _ => Twin) twin (fun _ left right twin => ?_)
    (fun _ _ _ twin => twin.toAlike)
  simp only [both_now_bind, twin.synced.reading]
  have sampled : Twin { left with samples := left.samples + 1 }
      { right with samples := right.samples + 1 } := ⟨twin.toAlike.sampled, twin.alive⟩
  refine (serviceOutboundOnce_agree sampled _).bind (fun progress _ _ twin => ?_)
    (fun _ _ _ => id)
  cases progress with
  | true => exact ⟨trivial, twin⟩
  | false => exact ⟨trivial, twin⟩

/-- A delivered packet is still in both receive buffers. -/
def Delivering (length : Option Nat) (left right : ClientWorld τ) : Prop :=
  Twin left right ∧ ∀ count, length = some count →
    SameUpTo count left.self.session.packetReader.buffer right.self.session.packetReader.buffer

theorem processReceivedPacket_agree (twin : Twin left right) :
    both (processReceivedPacket : Client τ (Error τ) (Option Nat)) processReceivedPacket
      (fun value other after after' => value = other ∧ Delivering value after after')
      (fun _ => Alike) left right := by
  unfold processReceivedPacket
  simp only [currentSession, bind_assoc, pure_bind, both_self_bind, twin.self.packetAvailable]
  refine both_ite Iff.rfl (fun _ => ⟨rfl, twin, fun _ => (nomatch ·)⟩) (fun waiting => ?_)
  have available : left.self.session.packetReader.packetAvailable = true := by
    simpa using waiting
  -- Both take the same packet and handle it alike.
  refine both_bind (both_zoom (both_mono (PacketReader.takePacket_agree twin.self.reader available)
    (fun taken other reader reader' => ?_) (fun error reader reader' same => ?_)))
  · rintro ⟨rfl, same, bytes⟩
    obtain ⟨packetLength, packet⟩ := taken
    have alike := twin.toAlike.update (twin.self.mapReader same)
    simp only [both_self_bind]
    refine both_bind (both_zoom (both_mono (handlePacket_agree alike.self.handling packet)
      (fun delivered other state state' => ?_) (fun error state state' handled => ?_)))
    · rintro ⟨rfl, handled⟩
      have alike := alike.update (alike.self.setHandling handled)
      cases delivered with
      | true =>
        refine ⟨rfl, ⟨alike.note _ _, twin.alive⟩, fun count known => ?_⟩
        cases known
        exact bytes
      | false => exact ⟨rfl, ⟨alike.note _ _, twin.alive⟩, fun _ => (nomatch ·)⟩
    · have alike := (alike.update (alike.self.setHandling handled)).note
        (.handled left.self.session.handling packet false)
        (.handled right.self.session.handling packet false)
      simp only [both_note_bind]
      exact both_ite Iff.rfl (fun _ => disconnected_agree alike _) (fun _ => ⟨rfl, alike⟩)
  · exact disconnected_agree (twin.toAlike.update (twin.self.mapReader same)) _

theorem decodeInboundPublish_agree {length : Nat} (delivering : Delivering (some length) left right) :
    Agree Twin Alike (decodeInboundPublish length : Client τ (Error τ) InboundPublish)
      left right := by
  obtain ⟨twin, bytes⟩ := delivering
  have same := bytes length rfl
  unfold Agree decodeInboundPublish
  -- The bytes of the delivered packet are still those that both read.
  simp only [currentSession, bind_assoc, pure_bind, both_self_bind, same.size, same.kept]
  refine both_ite Iff.rfl (fun _ => ⟨rfl, twin.toAlike⟩) (fun _ => ?_)
  cases ReceivedPacket.fromBuffer (left.self.session.packetReader.buffer.take length) with
  | error error => exact ⟨rfl, twin.toAlike⟩
  | ok packet =>
    cases packet with
    | publish info => exact ⟨rfl, twin⟩
    | _ => exact ⟨rfl, twin.toAlike⟩

/-- How a round of progress may end in both worlds. -/
def RoundAgrees (next result : Bool ⊕ Progress) (left right : ClientWorld τ) : Prop :=
  next = result ∧ match next with
    | .inl _ => Twin left right
    | .inr (.inbound length) => Delivering (some length) left right
    | .inr _ => Twin left right

theorem deliver_agree (twin : Twin left right) :
    both (deliver : Client τ (Error τ) (Bool ⊕ Progress)) deliver RoundAgrees (fun _ => Alike)
      left right := by
  refine both_bind (both_mono (processReceivedPacket_agree twin)
    (fun length other after after' => ?_) (fun _ _ _ => id))
  rintro ⟨rfl, delivering⟩
  -- A delivered publication is still in both readers.
  cases length with
  | none => exact ⟨rfl, delivering.1⟩
  | some length => exact ⟨rfl, delivering⟩

theorem driveRound_agree (twin : Twin left right) (advanced : Bool) :
    both (driveRound advanced : Client τ (Error τ) (Bool ⊕ Progress)) (driveRound advanced)
      RoundAgrees (fun _ => Alike) left right := by
  have controls : right.self.session.data.outbound.pendingControl =
      left.self.session.data.outbound.pendingControl := by
    obtain ⟨buf, same, -⟩ := twin.self.outbound
    rw [same]
  have sampled : Twin { left with samples := left.samples + 1 }
      { right with samples := right.samples + 1 } := ⟨twin.toAlike.sampled, twin.alive⟩
  unfold driveRound
  simp only [currentSession, bind_assoc, pure_bind, both_self_bind, twin.self.packetAvailable,
    controls]
  -- Each branch depends on the reader, the queues or the flush state alone.
  refine both_ite Iff.rfl (fun _ => ?_) (fun _ => ?_)
  · simp only [both_now_bind, twin.synced.reading]
    exact (serviceOutboundOnce_agree sampled _).bind (fun _ _ _ twin => ⟨rfl, twin⟩)
      (fun _ _ _ => id)
  · refine both_ite Iff.rfl (fun _ => deliver_agree twin) (fun _ => ?_)
    simp only [both_now_bind, twin.synced.reading]
    refine (service_agree sampled _).bind (fun progress left right twin => ?_) (fun _ _ _ => id)
    have next : right.self.session.data.outbound.nextStep =
        left.self.session.data.outbound.nextStep := twin.self.nextStep
    simp only [both_self_bind, twin.self.packetAvailable, twin.self.flushState twin.alive, next]
    refine both_ite Iff.rfl (fun _ => deliver_agree twin) (fun _ => ?_)
    refine both_ite Iff.rfl (fun _ => ?_) (fun _ => ⟨rfl, twin⟩)
    cases advanced || progress with
    | true => exact ⟨rfl, twin⟩
    | false => exact ⟨rfl, twin⟩

/-- Progress until a publication is delivered or nothing is left to do. -/
theorem drivePacket_agree (alike : Alike left right) :
    both (drivePacket : Client τ (Error τ) Progress) drivePacket
      (fun progress other after after' => RoundAgrees (.inr progress) (.inr other) after after')
      (fun _ => Alike) left right := by
  unfold drivePacket
  simp only [both_self_bind, alike.self.live]
  refine both_ite Iff.rfl (fun _ => ⟨rfl, alike⟩) (fun alive => ?_)
  rw [both_rounds_bind, alike.synced.replies]
  -- The rounds go on in both or stop in both, with the same result.
  refine both_iterate (fun _ => Twin) ⟨alike, by simpa using alive⟩
    (fun advanced left right twin => both_mono (driveRound_agree twin advanced)
      (fun next result after after' => ?_) (fun _ _ _ => id)) (fun _ _ _ twin => twin.toAlike)
  rintro ⟨rfl, holds⟩
  cases next with
  | inl advanced => exact ⟨rfl, holds⟩
  | inr progress => exact ⟨rfl, holds⟩

/-- What an application asks for without waiting. -/
theorem drive_agree (alike : Alike left right) :
    Agree Alike Alike (drive : Client τ (Error τ) (Option InboundPublish)) left right := by
  refine both_bind (both_mono (drivePacket_agree alike) (fun progress other after after' => ?_)
    (fun _ _ _ => id))
  rintro ⟨same, holds⟩
  cases same
  -- A publication is decoded from bytes that both share.
  cases progress with
  | inbound length =>
    exact (decodeInboundPublish_agree holds).bind (fun _ _ _ twin => ⟨rfl, twin.toAlike⟩)
      (fun _ _ _ => id)
  | idle => exact ⟨rfl, Twin.toAlike holds⟩
  | advanced => exact ⟨rfl, Twin.toAlike holds⟩

theorem awaitInput_agree (twin : Twin left right) :
    Agree Twin Alike (awaitInput : Client τ (Error τ) Unit) left right := by
  have timers : right.self.session.runtime = left.self.session.runtime := twin.self.runtime
  unfold Agree awaitInput
  simp only [currentSession, bind_assoc, pure_bind, both_self_bind, timers]
  cases left.self.session.runtime.nextDeadline with
  | none =>
    exact both_mono (readPacket_agree twin) (fun _ _ _ _ twin => ⟨trivial, twin⟩)
      (fun _ _ _ stopped => stopped.1)
  -- A timer that expires leaves both connections live.
  | some deadline =>
    refine both_bind (both_withDeadline (both_mono (readPacket_agree twin)
      (fun _ _ _ _ twin => ⟨trivial, twin⟩) (fun stop after after' ⟨alike, live⟩ => ?_)))
    cases stop with
    | error error => exact alike
    | dropped => exact alike
    | expired => exact ⟨alike.synced, alike, ⟨trivial, alike.sampled, live rfl⟩⟩

theorem waitForProgress_agree (alike : Alike left right) :
    both (waitForProgress : Client τ (Error τ) (Option Nat)) waitForProgress
      (fun value other after after' => value = other ∧ Delivering value after after')
      (fun _ => Alike) left right := by
  unfold waitForProgress
  rw [both_rounds_bind, alike.synced.replies]
  refine both_iterate (fun _ => Alike) alike (fun _ left right alike => ?_) (fun _ _ _ => id)
  refine both_bind (both_mono (drivePacket_agree alike) (fun progress other after after' => ?_)
    (fun _ _ _ => id))
  rintro ⟨same, holds⟩
  cases same
  -- Without progress both wait for input in the same way.
  cases progress with
  | inbound length => exact ⟨rfl, holds⟩
  | advanced => exact ⟨rfl, holds, fun _ => (nomatch ·)⟩
  | idle =>
    exact (awaitInput_agree holds).bind (fun _ _ _ twin => ⟨rfl, twin.toAlike⟩) (fun _ _ _ => id)

theorem poll_agree (alike : Alike left right) :
    Agree Alike Alike (poll : Client τ (Error τ) (Option InboundPublish)) left right := by
  refine both_bind (both_mono (waitForProgress_agree alike) (fun length other after after' => ?_)
    (fun _ _ _ => id))
  rintro ⟨rfl, delivering⟩
  cases length with
  | none => exact ⟨rfl, delivering.1.toAlike⟩
  | some length =>
    exact (decodeInboundPublish_agree delivering).bind (fun _ _ _ twin => ⟨rfl, twin.toAlike⟩)
      (fun _ _ _ => id)

theorem recv_agree (alike : Alike left right) :
    Agree Alike Alike (recv : Client τ (Error τ) InboundPublish) left right := by
  unfold Agree recv
  rw [both_rounds_bind, alike.synced.replies]
  refine both_iterate (fun _ => Alike) alike (fun _ left right alike => ?_) (fun _ _ _ => id)
  refine both_bind (both_mono (waitForProgress_agree alike) (fun length other after after' => ?_)
    (fun _ _ _ => id))
  rintro ⟨rfl, delivering⟩
  -- A round without a publication is followed by another one in both.
  cases length with
  | none => exact ⟨rfl, delivering.1.toAlike⟩
  | some length =>
    exact (decodeInboundPublish_agree delivering).bind (fun _ _ _ twin => ⟨rfl, twin.toAlike⟩)
      (fun _ _ _ => id)

end Minimq

import Minimq.Client.Durable
import Minimq.Proofs.Client.Framing

/-! A connection attempt that fails keeps the session, unless the broker discarded it. -/

namespace Minimq

open Hoare Async

variable {τ : Type} {world : ClientWorld τ}

/-- Marking publications treats every byte on its own. -/
theorem Outbound.take_markDupFrom (count offset : Nat) (entries : List RetainedPacket)
    (buf : Bytes) :
    (markDupFrom offset entries buf).take count = markDupFrom offset entries (buf.take count) := by
  -- A mark changes one byte in place, so it does not matter if the buffer is cut before or after.
  induction entries generalizing offset buf with
  | nil => rfl
  | cons entry rest ih =>
    simp only [markDupFrom]
    rw [ih]
    split
    · rw [List.take_modify]
    · rfl

namespace Session

variable {session other : Session}

theorem durable_congr (data : other.data = session.data)
    (clientId : other.clientId = session.clientId) : other.durable = session.durable := by
  unfold durable
  rw [data, clientId]

/-- Starting packets over keeps them. -/
theorem durable_armReplay (data : other.data =
      { session.data with outbound := session.data.outbound.armReplay })
    (clientId : other.clientId = session.clientId) : other.durable = session.durable := by
  -- Marking twice is marking once, and the bytes that count are marked in what survives.
  unfold durable
  rw [data, clientId]
  simp only
  unfold Outbound.armReplay
  split
  · have lens : Outbound.bytesOf (session.data.outbound.retained.toList.map fun entry =>
        { entry with state := .write 0 }) = session.data.outbound.retainedBytes := by
      simp [Outbound.bytesOf, Outbound.retainedBytes, Function.comp_def]
    have marked := Outbound.markDupFrom_map (f := fun entry => { entry with state := .write 0 })
      (fun _ => ⟨rfl, rfl⟩) 0 session.data.outbound.retained.toList
        (Outbound.markDupFrom 0 session.data.outbound.retained.toList session.data.outbound.buf)
    rw [Outbound.markDupFrom_idem] at marked
    simp [Outbound.markPublishDup, Function.comp_def, marked, Outbound.retainedBytes, lens]
  · rfl

/-- Writing behind the retained packets keeps them. -/
theorem durable_scratch {scratch : Bytes} (data : other.data = { session.data with
      outbound := { session.data.outbound with
        buf := Arena.overwrite session.data.outbound.buf session.data.outbound.retainedBytes
          scratch } })
    (size : scratch.length = session.data.outbound.scratchSpace.length)
    (clientId : other.clientId = session.clientId) : other.durable = session.durable := by
  have front : (Arena.overwrite session.data.outbound.buf session.data.outbound.retainedBytes
      scratch).take session.data.outbound.retainedBytes =
        session.data.outbound.buf.take session.data.outbound.retainedBytes := by
    rcases Nat.le_total session.data.outbound.retainedBytes session.data.outbound.buf.length
      with within | beyond
    · exact Arena.take_overwrite (Nat.le_refl _) within
    · -- Nothing can be written behind an arena that is full.
      have none : scratch = [] := by
        rw [← List.length_eq_zero_iff, size, Outbound.scratchSpace, List.length_drop]
        omega
      rw [none, Arena.overwrite_nil]
  unfold durable
  rw [data, clientId]
  simp only [Outbound.take_markDupFrom, Outbound.retainedBytes] at front ⊢
  rw [front]

theorem durable_reset (data : other.data = session.data.reset)
    (clientId : other.clientId = session.clientId) : other.durable = session.durable.reset := by
  unfold durable Durable.reset
  rw [data, clientId]
  simp [SessionData.reset, Outbound.clearInflight, Outbound.retainedBytes, Outbound.bytesOf]

end Session

/-- Writing bytes leaves the client and its inbound stream alone. -/
theorem writeAll_leaves (bytes : Bytes) :
    wp (writeAll bytes : Client τ (Error τ) Unit)
      (fun _ after => after.self = world.self ∧ after.inbound = world.inbound)
      (fun _ after => after.self = world.self ∧ after.inbound = world.inbound) world := by
  -- The transport sees the bytes, but neither the session nor the stream.
  unfold writeAll
  rw [wp_bind, wp_rounds]
  refine wp_iterate (fun _ after => after.self = world.self ∧ after.inbound = world.inbound)
    ⟨rfl, rfl⟩ (fun remaining current same => ?_) (fun _ _ => id)
  simp only [wp_ite, wp_pure, wp_bind]
  split
  · exact same
  · refine wp_write _ (fun _ _ _ => same) (fun _ _ => same) (fun count _ _ positive _ => ?_)
      (fun _ => same) (fun _ _ => same)
    simp only [wp_ite, wp_fail, wp_pure]
    split
    · exact same
    · exact same

theorem Fed.durable {before after : ClientMoment} (fed : Fed before after) :
    after.self.session.durable = before.self.session.durable := by
  obtain ⟨reader, chunks, rfl⟩ := fed
  exact Session.durable_congr rfl rfl

/-- An attempt that has not heard from the broker yet. -/
structure Unanswered (base : Durable) (stream : Bytes) (world : ClientWorld τ) : Prop where
  /-- The session is as it was. -/
  kept : world.self.session.durable = base
  /-- No byte was read. -/
  unread : world.inbound = stream
  /-- The reader is empty. -/
  empty : world.self.session.packetReader.readBytes = 0
  /-- The reader expects a header. -/
  unknown : world.self.session.packetReader.packetLength = none

variable {base : Durable} {stream : Bytes}

/-- Sending the request keeps the session. -/
theorem sendConnect_keeps (unanswered : Unanswered base stream world) :
    wp (sendConnect : Client τ (Error τ) Nat) (fun _ after => Unanswered base stream after)
      (fun _ after => after.self.session.durable = base) world := by
  -- The request is encoded behind the retained packets, which do not notice.
  unfold sendConnect
  simp only [currentSession, updateOutbound, wp_bind, wp_self, wp_pure, wp_update]
  have written {scratch : Bytes}
      (size : scratch.length = world.self.session.data.outbound.scratchSpace.length) :
      Unanswered base stream { world with self := world.self.mapOutbound fun outbound =>
        { outbound with buf := Arena.overwrite outbound.buf outbound.retainedBytes scratch } } :=
    ⟨by rw [← unanswered.kept]; exact Session.durable_scratch rfl size rfl, unanswered.unread,
      unanswered.empty, unanswered.unknown⟩
  unfold Session.connectEncoding
  obtain ⟨body, offset, bytes, scratch, result, size, -, -⟩ | ⟨error, scratch, result, size, -⟩ :=
    encodeWithOffset_cases world.self.session.data.outbound.scratchSpace
      world.self.session.connectPacket
  · simp only [result, wp_bind]
    have sent := written size
    refine wp_mono (writeAll_leaves bytes) (fun _ after same => ?_) (fun _ after same => ?_)
    · have after_sent : Unanswered base stream after :=
        ⟨same.1 ▸ sent.kept, same.2.trans sent.unread, same.1 ▸ sent.empty, same.1 ▸ sent.unknown⟩
      rw [wp_bind]
      refine wp_flush (fun _ _ _ => after_sent.kept) (fun _ _ => ?_)
        (fun _ => after_sent.kept) (fun _ _ => after_sent.kept)
      exact ⟨after_sent.kept, after_sent.unread, after_sent.empty, after_sent.unknown⟩
    · exact same.1 ▸ sent.kept
  · simp only [result, wp_fail]
    exact (written size).kept

/-- Reserving room changes nothing else, and nothing at all if it fails. -/
theorem reserveWorkspace_leaves (len : Nat) :
    wp (reserveWorkspace len : Client τ (Error τ) Unit)
      (fun _ after => after = { world with self := world.self.mapOutbound fun outbound =>
        { outbound with connectWorkspace := len } })
      (fun _ after => after = world) world := by
  -- Two checks stand before the change, and both come before anything is written.
  unfold reserveWorkspace Outbound.setConnectWorkspace
  simp only [currentOutbound, wp_bind, wp_self, wp_pure]
  by_cases large : world.self.outbound.buf.length < len
  · rw [if_pos large]
    rfl
  · rw [if_neg large]
    by_cases full : world.self.outbound.buf.length - len < world.self.outbound.retainedBytes
    · rw [if_pos full]
      rfl
    · rw [if_neg full]
      rfl

/-- The answer that is received is the first packet of the stream. -/
theorem receiveConnAck_keeps (unanswered : Unanswered base stream world) :
    wp (receiveConnAck : Client τ (Error τ) ConnAck)
      (fun ack after => after.self.session.durable = base ∧
        ∃ packet rest, stream = packet ++ rest ∧
          ReceivedPacket.fromBuffer packet = .ok (.connAck ack))
      (fun _ after => after.self.session.durable = base) world := by
  -- Giving up starts packets over, which is no change to what survives.
  have given_up {after : ClientWorld τ} (kept : after.self.session.durable = base) :
      after.self.handleDisconnect.session.durable = base := by
    rw [← kept]
    exact Session.durable_armReplay rfl rfl
  have start : Receives stream world.self.session.packetReader.capacity world :=
    ⟨⟨[], PacketReader.assembles_nil unanswered.unknown unanswered.empty, unanswered.unread⟩, rfl⟩
  unfold receiveConnAck
  rw [wp_bind, wp_attempt]
  refine wp_mono (wp_and (fillPacketReader_receives start) fillPacketReader_spec)
    -- The reader assembles the first packet of the stream and takes exactly that.
    (fun _ after ⟨⟨receives, available⟩, fed, _⟩ => ?_) (fun stop after ⟨_, fed, _⟩ => ?_)
  · have kept := fed.durable.trans unanswered.kept
    obtain ⟨bytes, assembles, whole⟩ := receives.assembles
    have known := (assembles.frameOf_available available []).1
    simp only [onPacketReader, wp_bind, wp_zoom]
    refine wp_mono (PacketReader.takePacket_decodes (τ := τ)) (fun taken reader done => ?_)
      (fun error reader _ => given_up kept)
    obtain ⟨length, -, decoded⟩ := done
    have exactly : bytes.length = taken.1 := Option.some.inj (known.symm.trans length)
    rw [← exactly, assembles.length, assembles.held] at decoded
    obtain ⟨count, packet⟩ := taken
    cases packet with
    | connAck ack => exact ⟨kept, bytes, after.inbound, whole.symm, decoded⟩
    | _ => exact given_up kept
  · have kept := fed.durable.trans unanswered.kept
    cases stop with
    | error error => exact given_up kept
    | dropped => exact kept
    | expired => exact kept

/-- A session is started over only if the broker does not have it. -/
theorem resumeOrReset_keeps (ack : ConnAck) (kept : world.self.session.durable = base) :
    wp (resumeOrReset ack : Client τ (Error τ) Unit)
      (fun _ after => after.self.session.durable = base ∨
        ack.sessionPresent = false ∧ after.self.session.durable = base.reset)
      (fun _ _ => False) world := by
  unfold resumeOrReset
  cases resumed : ack.sessionPresent with
  | true => exact .inl kept
  | false =>
    refine .inr ⟨rfl, ?_⟩
    rw [← kept]
    exact Session.durable_reset rfl rfl

/-- An answer that is not adopted keeps the session, or starts it over. -/
theorem adoptConnAck_keeps (connectWorkspace : Nat) (ack : ConnAck)
    (kept : world.self.session.durable = base) :
    wp (adoptConnAck connectWorkspace ack : Client τ (Error τ) ConnectEvent) (fun _ _ => True)
      (fun _ after => after.self.session.durable = base ∨
        ack.reasonCode.isSuccess = true ∧ ack.sessionPresent = false ∧
          after.self.session.durable = base.reset) world := by
  unfold adoptConnAck ReasonCode.asResult
  by_cases success : ack.reasonCode.isSuccess = true
  · simp only [if_pos success, wp_bind]
    refine wp_mono (resumeOrReset_keeps ack kept) (fun _ current decided => ?_)
      (fun _ _ never => never.elim)
    -- From here on nothing durable changes any more, unless the attempt succeeds.
    have failed {session : Session} (same : session.durable = current.self.session.durable) :
        session.durable = base ∨ ack.reasonCode.isSuccess = true ∧
          ack.sessionPresent = false ∧ session.durable = base.reset := by
      rw [same]
      exact decided.imp_right fun discarded => ⟨success, discarded⟩
    simp only [currentSession, wp_bind, wp_self, wp_pure]
    split
    · simp only [disconnected, wp_bind, wp_update, wp_fail]
      refine failed ?_
      exact Session.durable_armReplay rfl rfl
    · rename_i announced _
      simp only [updateSession, wp_bind, wp_update]
      cases assigned : announced.assignedClientId with
      | none => trivial
      | some clientId =>
        unfold adoptClientId
        rw [wp_bind]
        refine wp_mono (reserveWorkspace_leaves _) (fun _ _ _ => trivial) (fun _ after same => ?_)
        subst same
        refine failed ?_
        exact Session.durable_congr rfl rfl
  · simp only [if_neg success, wp_fail]
    exact .inl kept

/-- What a failed connection attempt may leave of a session. -/
def Survives (before : Durable) (stream : Bytes) (after : Durable) : Prop :=
  after = before ∨
    -- The broker's first packet said that it has no such session.
    ∃ packet rest ack, stream = packet ++ rest ∧
      ReceivedPacket.fromBuffer packet = .ok (.connAck ack) ∧ ack.reasonCode.isSuccess = true ∧
      ack.sessionPresent = false ∧ after = before.reset

/-- A connection attempt that fails or is dropped keeps the session, or starts it over. -/
theorem connect_survives (stop : Stop (Error τ)) (after : ClientWorld τ)
    (failed : connect world = .error stop after) :
    Survives world.self.session.durable world.inbound after.self.session.durable := by
  suffices spec : wp (connect : Client τ (Error τ) ConnectEvent) (fun _ _ => True)
      (fun _ after => Survives world.self.session.durable world.inbound
        after.self.session.durable) world by
    unfold wp at spec
    rwa [failed] at spec
  -- The session is kept up to the answer; from there on it is kept or started over.
  unfold connect connectHandshake
  simp only [updateSession, wp_bind, wp_note, wp_update]
  have start : Unanswered world.self.session.durable world.inbound
      { world.record (.noted .opened) with
        self := { world.self with live := false }.mapSession Session.rearm } :=
    ⟨Session.durable_armReplay rfl rfl, rfl, rfl, rfl⟩
  refine wp_mono (sendConnect_keeps start) (fun workspace sent unanswered => ?_)
    (fun _ _ kept => .inl kept)
  rw [wp_bind]
  refine wp_mono (reserveWorkspace_leaves workspace) (fun _ reserved same => ?_)
    (fun _ reserved same => .inl (same ▸ unanswered.kept))
  subst same
  simp only [updateRuntime, wp_bind, wp_update]
  refine wp_mono (@receiveConnAck_keeps τ _ world.self.session.durable world.inbound
      ⟨?_, unanswered.unread, unanswered.empty, unanswered.unknown⟩)
    (fun ack answered told => ?_) (fun _ _ kept => .inl kept)
  · rw [← unanswered.kept]
    rfl
  · obtain ⟨kept, packet, rest, whole, decoded⟩ := told
    refine wp_mono (adoptConnAck_keeps workspace ack kept) (fun _ _ _ => trivial)
      (fun _ after survives => ?_)
    refine survives.imp_right fun reset => ?_
    obtain ⟨success, absent, discarded⟩ := reset
    exact ⟨packet, rest, ack, whole, decoded, success, absent, discarded⟩

/--
A broker without the session that announces a receive maximum of zero.

The session has a publication in flight, and the release of another one.
-/
def mistaken : ClientWorld Unit :=
  { run (start (smallConfig 60) (steppingClock 1 4))
      (hesitantConnect 1 :: receivedPublication ++ receivedPublication.take 1) with
    replies := [.ready 64, .ready 0, .ready 1, .ready 1, .ready 6]
    inbound := [0x20, 6, 0, 0, 3, 0x21, 0, 0] }

/-- A connection attempt that fails after the session was started over. -/
theorem connect_survives_mistaken : mistaken.self.outbound.retained.length = 1 ∧
    mistaken.self.outbound.pendingRelease.length = 1 ∧
    ∃ stop after, connect mistaken = .error stop after ∧
      Survives mistaken.self.session.durable mistaken.inbound after.self.session.durable := by
  have fails : check (connect : Client Unit (Error Unit) ConnectEvent) (fun _ _ => true)
      mistaken = false := by decide +kernel
  cases failed : (connect : Client Unit (Error Unit) ConnectEvent) mistaken with
  | ok event after => simp [check, failed] at fails
  | error stop after =>
    exact ⟨by decide +kernel, by decide +kernel, stop, after, rfl,
      connect_survives stop after failed⟩

end Minimq

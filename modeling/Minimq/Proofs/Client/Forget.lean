import Minimq.Client.Durable
import Minimq.Client.Run
import Minimq.Proofs.Client.TwinOperations

/-! A new connection does not depend on how the last one ended. -/

namespace Minimq

open Hoare Async

variable {τ ε α : Type} {left right : ClientWorld τ}

theorem sendConnect_agree (alike : Alike left right) :
    Agree Alike Alike (sendConnect : Client τ (Error τ) Nat) left right := by
  -- Both requests are the same packet, encoded into scratch space of the same size.
  have request : right.self.session.connectPacket = left.self.session.connectPacket := by
    obtain ⟨buf, buffer, flushState, same, -, reader, -⟩ := alike.self
    rw [same, Session.connectPacket, Session.connectPacket]
    simp only [Connection.repaint, reader.size]
  have agree : right.self.session.connectEncoding.1 = left.self.session.connectEncoding.1 := by
    rw [Session.connectEncoding, Session.connectEncoding, request, encodeWithOffset_eq,
      encodeWithOffset_eq, alike.self.scratchSpace]
  have size (session : Session) :
      session.connectEncoding.2.length = session.data.outbound.scratchSpace.length := by
    unfold Session.connectEncoding
    obtain ⟨_, _, _, _, done, same, -, -⟩ | ⟨_, _, failed, same, -⟩ :=
      encodeWithOffset_cases session.data.outbound.scratchSpace session.connectPacket
    · rw [done]; exact same
    · rw [failed]; exact same
  have alike := alike.scratch (size left.self.session) (size right.self.session)
  unfold Agree sendConnect
  simp only [currentSession, updateOutbound, bind_assoc, pure_bind, both_self_bind, agree]
  rw [both_update_bind]
  rcases left.self.session.connectEncoding.1 with error | ⟨offset, packet⟩
  · exact ⟨rfl, alike⟩
  · refine both_bind (both_mono (writeAll_agree alike packet) (fun _ _ _ _ written => ?_)
      (fun _ _ _ failed => failed.1))
    have alike := written.1
    refine both_bind (both_flush alike.synced (fun result _ _ synced own other => ?_)
      (fun _ _ _ synced own other => alike.settled synced own other))
    have alike := alike.settled synced own other
    cases result with
    | error error => exact ⟨rfl, alike⟩
    | ok value => exact ⟨rfl, alike⟩

/-- Reserving space for the next request. -/
theorem reserveWorkspace_agree (alike : Alike left right) (len : Nat) :
    Agree Alike Alike (reserveWorkspace len : Client τ (Error τ) Unit) left right := by
  -- Sizes are common to both, so the same check fails or none does.
  obtain ⟨buf, same, arena⟩ := alike.self.outbound
  unfold Agree reserveWorkspace
  simp only [currentOutbound, bind_assoc, pure_bind, both_self_bind, Connection.outbound, same,
    Outbound.setConnectWorkspace, arena.size, Outbound.retainedBytes_buf]
  by_cases small : left.self.session.data.outbound.buf.length < len
  · simp only [if_pos small]
    exact ⟨rfl, alike⟩
  simp only [if_neg small]
  by_cases crowded : left.self.session.data.outbound.buf.length - len <
      left.self.session.data.outbound.retainedBytes
  · simp only [if_pos crowded]
    exact ⟨rfl, alike⟩
  · simp only [if_neg crowded]
    exact ⟨trivial, alike.update (alike.self.setOutbound arena)⟩

theorem receiveConnAck_agree (alike : Alike left right) :
    Agree Alike Alike (receiveConnAck : Client τ (Error τ) ConnAck) left right := by
  -- Both read the same bytes, so both take the same packet or neither does.
  unfold Agree receiveConnAck
  refine both_bind (both_attempt (both_mono (fillPacketReader_agree alike)
    (fun _ _ left right ⟨alike, _, available⟩ => ?_) (fun stop _ _ ⟨alike, _⟩ => ?_)))
  · refine both_bind (both_zoom (both_mono
      (PacketReader.takePacket_agree alike.self.reader available)
      (fun taken other reader reader' => ?_) (fun error reader reader' same => ?_)))
    · rintro ⟨rfl, same, -⟩
      have alike := alike.update (alike.self.mapReader same)
      obtain ⟨length, packet⟩ := taken
      cases packet with
      | connAck ack => exact ⟨rfl, alike⟩
      | _ => exact disconnected_agree alike _
    · exact disconnected_agree (alike.update (alike.self.mapReader same)) _
  · cases stop with
    | error error => exact disconnected_agree alike _
    | dropped => exact alike
    | expired => exact alike

theorem resumeOrReset_agree (alike : Alike left right) (ack : ConnAck) :
    Agree Alike Alike (resumeOrReset ack : Client τ (Error τ) Unit) left right := by
  unfold Agree resumeOrReset
  refine both_ite Iff.rfl (fun _ => ⟨rfl, Alike.note ?_ _ _⟩) (fun _ => ⟨rfl, alike⟩)
  obtain ⟨buf, buffer, flushState, same, arena, reader, flushes⟩ := alike.self
  refine alike.update ?_
  rw [same]
  -- No packet is left that could differ.
  exact ⟨buf, buffer, flushState, rfl, arena.mono (Nat.zero_le _), reader, flushes⟩

theorem adoptClientId_agree (alike : Alike left right) (connectWorkspace : Nat)
    (assigned : Option ClientId) :
    Agree Alike Alike (adoptClientId connectWorkspace assigned : Client τ (Error τ) Unit)
      left right := by
  -- The identifier is not in the arena, so only the room for it is to be compared.
  cases assigned with
  | none => exact ⟨rfl, alike⟩
  | some assigned =>
    refine (reserveWorkspace_agree alike _).bind (fun _ _ _ alike => ⟨rfl, alike.update ?_⟩)
      (fun _ _ _ => id)
    obtain ⟨buf, buffer, flushState, same, arena, reader, flushes⟩ := alike.self
    rw [same]
    exact ⟨buf, buffer, flushState, rfl, arena, reader, flushes⟩

/-- Establishing the session. -/
theorem activate_agree (alike : Alike left right) (ack : ConnAck) :
    Agree Alike Alike (activate ack : Client τ (Error τ) ConnectEvent) left right := by
  -- Only the session's own flag is set, which is none of what they may differ in.
  have present : Alike { left with self := left.self.mapData ({ · with sessionPresent := true }) }
      { right with self := right.self.mapData ({ · with sessionPresent := true }) } := by
    obtain ⟨buf, buffer, flushState, same, arena, reader, flushes⟩ := alike.self
    refine alike.update ?_
    rw [same]
    exact ⟨buf, buffer, flushState, rfl, arena, reader, flushes⟩
  unfold Agree activate
  simp only [updateData, updateRuntime, both_update_bind, both_now_bind, both_note_bind,
    alike.synced.reading]
  exact ⟨rfl, ((present.sampled.note _ _).update (present.self.mapRuntime _)).note _ _⟩

theorem adoptConnAck_agree (alike : Alike left right) (connectWorkspace : Nat) (ack : ConnAck) :
    Agree Alike Alike (adoptConnAck connectWorkspace ack : Client τ (Error τ) ConnectEvent)
      left right := by
  -- The answer and the limits are the same, so both take the same branch.
  unfold Agree adoptConnAck
  cases ack.reasonCode.asResult with
  | error error => exact ⟨rfl, alike⟩
  | ok value =>
    refine (resumeOrReset_agree alike ack).bind (fun _ left right alike => ?_) (fun _ _ _ => id)
    have clientId : right.self.session.clientId = left.self.session.clientId := by
      obtain ⟨buf, buffer, flushState, same, -⟩ := alike.self
      rw [same]
      rfl
    have limits : right.self.session.runtime = left.self.session.runtime := alike.self.runtime
    simp only [currentSession, bind_assoc, pure_bind, both_self_bind, clientId, limits]
    cases Announced.applyAll left.self.session.clientId (.initial left.self.session.runtime)
        ack.properties.iter with
    | error error => exact disconnected_agree alike _
    | ok announced =>
      simp only [updateSession, both_update_bind]
      refine (adoptClientId_agree (alike.update ?_) _ _).bind
        (fun _ _ _ alike => activate_agree alike ack) (fun _ _ _ => id)
      obtain ⟨buf, buffer, flushState, same, arena, reader, flushes⟩ := alike.self
      rw [same]
      exact ⟨buf, buffer, flushState, rfl, arena, reader, flushes⟩

theorem connectHandshake_agree (alike : Alike left right) :
    Agree Alike Alike (connectHandshake : Client τ (Error τ) ConnectEvent) left right := by
  refine (sendConnect_agree alike).bind (fun workspace _ _ alike => ?_) (fun _ _ _ => id)
  refine (reserveWorkspace_agree alike workspace).bind (fun _ _ _ alike => ?_) (fun _ _ _ => id)
  simp only [updateRuntime, both_update_bind]
  refine (receiveConnAck_agree (alike.update (alike.self.mapRuntime _))).bind
    (fun ack _ _ alike => adoptConnAck_agree alike workspace ack) (fun _ _ _ => id)

/-- Starting packets over forgets their progress, and nothing else. -/
theorem Outbound.armReplay_eq (outbound : Outbound) :
    outbound.armReplay = { outbound.markPublishDup with
      pendingControl := outbound.pendingControl.map fun entry => { entry with state := .write 0 }
      retained := outbound.retained.map fun entry => { entry with state := .write 0 }
      pendingRelease :=
        outbound.pendingRelease.map fun entry => { entry with state := .write 0 } } := by
  unfold armReplay
  split
  · rfl
  · -- Without a tracked packet there is nothing to mark and nothing to start over.
    rename_i idle
    simp only [hasPendingState, Bool.or_eq_true, Bool.not_eq_true', List.isEmpty_eq_false_iff,
      not_or, not_not, ne_eq] at idle
    obtain ⟨⟨controls, retained⟩, releases⟩ := idle
    have same {β : Type} {capacity : Nat} {vec : FixedVec β capacity} (f : β → β)
        (none : vec.toList = []) : vec.map f = vec :=
      FixedVec.ext (by rw [FixedVec.toList_map, none, List.map_nil])
    simp only [markPublishDup, retained, markDupFrom, same _ controls, same _ retained,
      same _ releases]

/-- Two sessions that differ only in what a connection leaves behind: the progress of packets,
timers, the packet under assembly, and bytes behind the retained packets. -/
structure Session.Akin (left right : Session) : Prop where
  /-- What survives a connection is the same. -/
  durable : right.durable = left.durable
  /-- The Will is the same. -/
  will : right.will = left.will
  /-- The credentials are the same. -/
  auth : right.auth = left.auth
  /-- The broker keeps the session equally long. -/
  expiry : right.sessionExpiryInterval = left.sessionExpiryInterval
  /-- The policy for the quality of service is the same. -/
  downgrade : right.downgradeQos = left.downgradeQos
  /-- The keepalive interval is the same. -/
  keepalive : right.runtime.keepaliveInterval = left.runtime.keepaliveInterval
  /-- The remaining quota is the same. -/
  sendQuota : right.runtime.sendQuota = left.runtime.sendQuota
  /-- The quota is the same. -/
  maxSendQuota : right.runtime.maxSendQuota = left.runtime.maxSendQuota
  /-- The limit on packets is the same. -/
  maximumPacketSize : right.runtime.maximumPacketSize = left.runtime.maximumPacketSize
  /-- The limit on the quality of service is the same. -/
  maxQos : right.runtime.maxQos = left.runtime.maxQos
  /-- The space kept for the connection request is the same. -/
  workspace : right.data.outbound.connectWorkspace = left.data.outbound.connectWorkspace
  /-- The receive buffers have the same size. -/
  receive : right.packetReader.buffer.length = left.packetReader.buffer.length
  /-- The arenas have the same size. -/
  arena : right.data.outbound.buf.length = left.data.outbound.buf.length

/-- What rearming leaves to the arena is durable. -/
theorem Session.Akin.outbound {left right : Session} (akin : left.Akin right) :
    ∃ buf, right.data.outbound.armReplay = { left.data.outbound.armReplay with buf } ∧
      left.data.outbound.armReplay.Repainted buf := by
  have durable := akin.durable
  simp only [Session.durable, Durable.mk.injEq] at durable
  obtain ⟨retained, bytes, releases, controls, -⟩ := durable
  -- A packet that starts over is what is durable about it.
  have retained' := FixedVec.map_eq_of_factor (f := fun entry => { entry with state := .write 0 })
    (g := fun entry => RetainedPacket.mk entry.1 entry.2.1 entry.2.2 (.write 0))
    (fun _ => rfl) retained
  have releases' := FixedVec.map_eq_of_factor (f := fun entry => { entry with state := .write 0 })
    (g := fun entry => PendingRelease.mk entry.1 entry.2 (.write 0)) (fun _ => rfl) releases
  have controls' := FixedVec.map_eq_of_factor (f := fun entry => { entry with state := .write 0 })
    (g := fun action => PendingControl.mk action (.write 0)) (fun _ => rfl) controls
  have lens : right.data.outbound.retainedBytes = left.data.outbound.retainedBytes := by
    have := congrArg (fun entries => (entries.map fun entry => entry.2.2).sum) retained
    simp only [List.map_map, Function.comp_def] at this
    exact this
  refine ⟨right.data.outbound.markPublishDup.buf, ?_, ?_, ?_⟩
  · rw [Outbound.armReplay_eq, Outbound.armReplay_eq, retained', releases', controls']
    simp only [Outbound.markPublishDup, akin.workspace]
  · rw [Outbound.armReplay_eq]
    simp only [Outbound.markPublishDup, Outbound.length_markDupFrom, akin.arena]
  · rw [Outbound.retainedBytes_armReplay, Outbound.armReplay_eq]
    simp only [Outbound.markPublishDup]
    rw [← bytes, lens]

/-- Rearming makes two connections alike. -/
theorem Session.Akin.rearm {left right : Session} (akin : left.Akin right)
    (flushState flushState' : FlushState) :
    (Connection.mk left.rearm false flushState).Alike ⟨right.rearm, false, flushState'⟩ := by
  -- Rearming forgets all that alike sessions may differ in, except the arena's rest.
  obtain ⟨buf, same, arena⟩ := akin.outbound
  have durable := akin.durable
  simp only [Session.durable, Durable.mk.injEq] at durable
  obtain ⟨-, -, -, -, awaited, packetId, generation, present, clientId⟩ := durable
  refine ⟨buf, right.packetReader.buffer, flushState', ?_, arena, ⟨akin.receive, rfl⟩,
    (nomatch ·)⟩
  simp only [Session.rearm, same, Connection.repaint, Connection.mk.injEq, Session.mk.injEq,
    SessionData.mk.injEq, RuntimeState.mk.injEq, RuntimeState.resetTransport, PacketReader.reset,
    true_and, and_true]
  exact ⟨clientId, ⟨packetId, generation, FixedVec.ext awaited, present⟩,
    ⟨akin.keepalive, akin.sendQuota, akin.maxSendQuota, akin.maximumPacketSize, akin.maxQos⟩,
    akin.will, akin.auth, akin.expiry, akin.downgrade⟩

theorem Connection.Alike.akin {left right : Connection} (alike : left.Alike right) :
    left.session.Akin right.session := by
  obtain ⟨buf, buffer, flushState, rfl, arena, reader, -⟩ := alike
  refine ⟨?_, rfl, rfl, rfl, rfl, rfl, rfl, rfl, rfl, rfl, rfl, reader.size, arena.size⟩
  simp only [Session.durable, Connection.repaint, Outbound.take_markDupFrom,
    Outbound.retainedBytes_buf, arena.kept]

theorem Connection.Alike.status {left right : Connection} (alike : left.Alike right) (op : Op) :
    right.session.status op = left.session.status op := by
  obtain ⟨buf, buffer, flushState, rfl, -⟩ := alike
  rfl

theorem connect_agree (synced : Synced left right)
    (akin : left.self.session.Akin right.self.session) :
    Agree Alike Alike (connect : Client τ (Error τ) ConnectEvent) left right := by
  -- The attempt clears both transports, and from there on the handshakes agree.
  unfold Agree connect
  simp only [both_note_bind, both_update_bind, updateSession]
  refine (connectHandshake_agree ⟨(synced.note _ _).self _ _, ?_⟩).bind
    (fun event left right alike => ?_) (fun _ _ _ => id)
  · exact akin.rearm _ _
  · refine ⟨rfl, alike.update ?_⟩
    obtain ⟨buf, buffer, flushState, same, arena, reader, -⟩ := alike.self
    rw [same]
    exact ⟨buf, buffer, .clean, rfl, arena, reader, fun _ => rfl⟩

/-- Whether the payload of a publication is a byte slice. -/
def Call.Sliced : Call Unit → Prop
  | .publish publication => ∃ data, publication.payload = .ofBytes data
  | _ => True

/-- What agreement means for a call. -/
theorem finish_agree {program : Client τ ε α} (agree : Agree Alike Alike program left right)
    (failed : ε → PubError Unit τ) (returned : α → Value) :
    resultOf failed returned (program right) = resultOf failed returned (program left) ∧
      Alike (finish (program left)).2 (finish (program right)).2 := by
  -- Both calls end in the same way, so the caller sees the same result.
  revert agree
  unfold Agree both
  cases program left with
  | ok value after =>
    cases program right with
    | ok other after' =>
      rintro ⟨rfl, alike⟩
      exact ⟨rfl, alike⟩
    | error stop after' => exact False.elim
  | error stop after =>
    cases program right with
    | ok other after' => exact False.elim
    | error other after' =>
      rintro ⟨rfl, alike⟩
      cases stop with
      | error error => exact ⟨rfl, alike⟩
      | dropped => exact ⟨rfl, alike⟩
      | expired => exact ⟨rfl, alike⟩

/-- One call has the same result, and leaves connections that cannot be told apart. -/
theorem Invocation.perform_agree (alike : Alike left right) (invocation : Invocation Unit τ)
    (sliced : invocation.call.Sliced) :
    invocation.call.result { right with replies := invocation.replies } =
        invocation.call.result { left with replies := invocation.replies } ∧
      Alike (invocation.perform left).2 (invocation.perform right).2 := by
  -- Each call has its own lemma, which takes the same script on both sides.
  obtain ⟨call, replies⟩ := invocation
  have alike : Alike { left with replies } { right with replies } :=
    ⟨alike.synced.settle replies, alike.self⟩
  cases call with
  | connect inbound =>
    have synced : Synced { left with replies, inbound } { right with replies, inbound } :=
      ⟨rfl, rfl, alike.synced.clock, alike.synced.samples, alike.synced.passed⟩
    exact finish_agree (connect_agree synced alike.self.akin) _ _
  | drive => exact finish_agree (drive_agree alike) _ _
  | poll => exact finish_agree (poll_agree alike) _ _
  | recv => exact finish_agree (recv_agree alike) _ _
  | publish publication =>
    obtain ⟨data, slice⟩ := sliced
    exact finish_agree (publish_agree alike slice) _ _
  | subscribe topics properties => exact finish_agree (subscribe_agree alike topics properties) _ _
  | unsubscribe topics properties =>
    exact finish_agree (unsubscribe_agree alike topics properties) _ _
  | disconnectWith disconnect => exact finish_agree (disconnectWith_agree alike disconnect) _ _
  | handleDisconnect => exact ⟨rfl, alike.disconnect⟩

/-- Neither do later calls tell the connections apart. -/
theorem run_agree (alike : Alike left right) (calls : List (Invocation Unit τ))
    (sliced : ∀ invocation ∈ calls, invocation.call.Sliced) :
    results right calls = results left calls ∧ Alike (run left calls) (run right calls) := by
  induction calls generalizing left right with
  | nil => exact ⟨rfl, alike⟩
  | cons invocation rest ih =>
    obtain ⟨result, alike⟩ := invocation.perform_agree alike (sliced _ List.mem_cons_self)
    obtain ⟨later, alike⟩ := ih alike fun _ member => sliced _ (List.mem_cons_of_mem _ member)
    exact ⟨congrArg₂ List.cons result later, alike⟩

/-- A world in which nothing has happened to a connection yet. -/
def resume (connection : Connection) (clock : Clock) : ClientWorld τ where
  self := connection
  replies := []
  inbound := []
  clock := clock
  samples := 0
  trace := []

/-- A new connection gives the same results, sends the same bytes and leads to the same status of
every operation, however the last connection ended. -/
theorem connect_forgets {left right : Connection} (akin : left.session.Akin right.session)
    (clock : Clock) (inbound : Bytes) (replies : List (Reply τ)) (calls : List (Invocation Unit τ))
    (sliced : ∀ invocation ∈ calls, invocation.call.Sliced) :
    results (resume right clock) (⟨.connect inbound, replies⟩ :: calls) =
        results (resume left clock) (⟨.connect inbound, replies⟩ :: calls) ∧
      wire (run (resume right clock) (⟨.connect inbound, replies⟩ :: calls)).trace =
        wire (run (resume left clock) (⟨.connect inbound, replies⟩ :: calls)).trace ∧
      ∀ op, (run (resume right clock) (⟨.connect inbound, replies⟩ :: calls)).self.session.status
          op =
        (run (resume left clock) (⟨.connect inbound, replies⟩ :: calls)).self.session.status op := by
  have synced : Synced { (resume left clock : ClientWorld τ) with replies, inbound }
      { (resume right clock : ClientWorld τ) with replies, inbound } := ⟨rfl, rfl, rfl, rfl, rfl⟩
  obtain ⟨first, alike⟩ := finish_agree (connect_agree synced akin) .session .event
  obtain ⟨later, alike⟩ := run_agree alike calls sliced
  exact ⟨congrArg₂ List.cons first later, alike.synced.passed, alike.self.status⟩

/-- A client that has published a message with QoS 1, given the answers to its writes. -/
def published (replies : List (Reply Unit)) : Connection :=
  (run (start (smallConfig 60) (steppingClock 1 4)) [acceptedConnect,
    ⟨.publish ⟨oncePublication.topic, .slice [], .atLeastOnce, .ofBytes [1, 2], .notRetained⟩,
      replies⟩] : ClientWorld Unit).self

/-- A broker that resumes the session, and one round of sending. -/
def resumption : List (Invocation Unit Unit) :=
  [⟨.connect [0x20, 3, 1, 0, 0], [.ready 64, .ready 0, .ready 1, .ready 1, .ready 3]⟩,
    ⟨.drive, [.ready 5, .ready 16, .ready 0]⟩]

/-- It does not matter whether the publication was written, or dropped after three bytes and the
connection marked dead. -/
theorem connect_forgets_published :
    (published [.ready 16, .ready 0]).session.Akin
        (published [.ready 3, .cancel]).handleDisconnect.session ∧
      results (resume (published [.ready 3, .cancel]).handleDisconnect (steppingClock 1 4))
          resumption =
        results (resume (published [.ready 16, .ready 0]) (steppingClock 1 4)) resumption := by
  have akin : (published [.ready 16, .ready 0]).session.Akin
      (published [.ready 3, .cancel]).handleDisconnect.session := by
    constructor <;> decide +kernel
  exact ⟨akin, (connect_forgets akin (steppingClock 1 4) _ _ _ (by simp [Call.Sliced])).1⟩

end Minimq

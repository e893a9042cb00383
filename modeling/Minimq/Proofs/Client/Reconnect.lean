import Mathlib
import Minimq.Proofs.Client.Ledger

/-! Once connected, the room for the next connection request is never given away. -/

namespace Minimq

open Async Hoare

variable {π τ : Type} {before after : ClientMoment} {packet scratch : Bytes} {packetId : UInt16}

/-- Whether an occurrence is a completed handshake. -/
def isConnected : Happening Event → Bool
  | .noted (.connected _ _) => true
  | _ => false

namespace Outbound

theorem connectWorkspace_of_ackPacket {outbound acked : Outbound} {kind : OpKind}
    (done : outbound.ackPacket kind packetId = some acked) :
    acked.connectWorkspace = outbound.connectWorkspace := by
  obtain ⟨front, gone, back, -, -, -, -, same⟩ := retained_of_ackPacket done
  rw [same]

theorem connectWorkspace_of_ackRelease {outbound acked : Outbound}
    (done : outbound.ackRelease packetId = some acked) :
    acked.connectWorkspace = outbound.connectWorkspace := by
  obtain ⟨gone, -, -, same⟩ := releases_of_ackRelease done
  rw [same]

theorem connectWorkspace_of_queueControl {outbound queued : Outbound} {action : ControlAction}
    (done : outbound.queueControl action = .ok queued) :
    queued.connectWorkspace = outbound.connectWorkspace := by
  obtain ⟨controls, rfl, -⟩ := controls_of_queueControl done
  rfl

theorem connectWorkspace_of_queueRelease {outbound queued : Outbound}
    {reason : ReasonCode} (done : outbound.queueRelease packetId reason = .ok queued) :
    queued.connectWorkspace = outbound.connectWorkspace := by
  obtain ⟨releases, rfl, -⟩ := releases_of_queueRelease done
  rfl

theorem connectWorkspace_armReplay (outbound : Outbound) :
    outbound.armReplay.connectWorkspace = outbound.connectWorkspace := by
  unfold armReplay
  split <;> rfl

end Outbound

/-- An inbound packet leaves the reserved room alone. -/
theorem Handled.connectWorkspace {packet : ReceivedPacket} {taken : Taken} {before after : Handling}
    (handled : Handled packet before taken after) :
    after.data.outbound.connectWorkspace = before.data.outbound.connectWorkspace := by
  cases handled.requeued with
  | same kept => exact congrArg _ kept
  | acked acked => exact Outbound.connectWorkspace_of_ackPacket acked
  | released acked queued =>
    exact (Outbound.connectWorkspace_of_queueRelease queued).trans
      (Outbound.connectWorkspace_of_ackPacket acked)
  | completed acked => exact Outbound.connectWorkspace_of_ackRelease acked
  | queued queued _ => exact Outbound.connectWorkspace_of_queueControl queued

namespace Connection.Reserved

variable {connection : Connection}

theorem of_same {other : Connection} (reserved : connection.Reserved)
    (will : other.session.will = connection.session.will)
    (auth : other.session.auth = connection.session.auth)
    (clientId : other.session.clientId = connection.session.clientId)
    (workspace : other.outbound.connectWorkspace = connection.outbound.connectWorkspace) :
    other.Reserved :=
  reserved.congr (Session.requestLength_congr will auth clientId) workspace

theorem handleDisconnect (reserved : connection.Reserved) : connection.handleDisconnect.Reserved :=
  reserved.of_same rfl rfl rfl (Outbound.connectWorkspace_armReplay _)

end Connection.Reserved

theorem Outflow.keeps_reserved (step : Outflow τ before after)
    (reserved : before.self.Reserved) : after.self.Reserved := by
  -- A write changes progress, and the end of a connection keeps the arena's layout.
  cases step with
  | tick later => exact reserved
  | @wrote step current count now alive idle next encoded positive within later =>
    have workspace : (before.self.afterWrite step current count now).outbound.connectWorkspace =
        before.self.outbound.connectWorkspace := by
      rw [Connection.afterWrite_outbound]
      cases current.packet <;> rfl
    refine reserved.of_same ?_ ?_ ?_ workspace <;>
    · dsimp only
      unfold Connection.afterWrite
      dsimp only
      split <;> rfl
  | flushing alive ready => exact reserved
  | flushed alive flushing later => exact reserved.of_same rfl rfl rfl rfl
  | disconnected => exact reserved.handleDisconnect
  | pinged alive quiet due queued =>
    exact reserved.of_same rfl rfl rfl (Outbound.connectWorkspace_of_queueControl queued)

/-- Every transition keeps the reserved room. -/
theorem Step.keeps_reserved (step : Step τ before after)
    (reserved : before.self.Reserved) : after.self.Reserved := by
  -- Only the handshake reserves room, and it does so for the request it has just sent.
  cases step with
  | outflow step => exact step.keeps_reserved reserved
  | upkeep step => cases step <;> exact reserved.of_same rfl rfl rfl rfl
  | opening step =>
    cases step with
    | preamble closed transport => exact reserved
    | @reserved len outbound closed request fits =>
      obtain ⟨-, -, rfl⟩ := Outbound.room_of_setConnectWorkspace fits
      exact ⟨len, (Session.requestLength_congr rfl rfl rfl).trans request, rfl⟩
    | untimed closed => exact reserved.of_same rfl rfl rfl rfl
    | limited closed => exact reserved.of_same rfl rfl rfl rfl
    | @assigned len outbound clientId closed anonymous request fits =>
      obtain ⟨-, -, rfl⟩ := Outbound.room_of_setConnectWorkspace fits
      exact ⟨len + clientId.text.len, Session.requestLength_assigned anonymous request rfl rfl,
        Nat.add_assoc _ _ _⟩
  | handled packet alive quiet =>
    obtain ⟨taken, state, handled, same | same⟩ := before.self.handle_cases packet
    · dsimp only
      rw [same]
      exact reserved.of_same rfl rfl rfl handled.connectWorkspace
    · dsimp only
      rw [same]
      exact Connection.Reserved.handleDisconnect
        (reserved.of_same rfl rfl rfl handled.connectWorkspace)
  | @admitted kind packetId packet buf retained admissible =>
    have workspace : (before.self.enlist kind buf retained).outbound.connectWorkspace =
        before.self.outbound.connectWorkspace := by
      rw [Connection.enlist_outbound]
    refine reserved.of_same ?_ ?_ ?_ workspace <;>
    · dsimp only
      unfold Connection.enlist
      dsimp only
      split <;> rfl
  | direct ready whole later => exact reserved.of_same rfl rfl rfl rfl
  | broken ready part => exact reserved.handleDisconnect
  | opened => exact reserved.of_same rfl rfl rfl (Outbound.connectWorkspace_armReplay _)
  | reset closed => exact reserved.of_same rfl rfl rfl rfl
  | connected closed later sized ready quota limit state =>
    subst state
    exact reserved.of_same rfl rfl rfl rfl

theorem any_isConnected {trace events : List (Happening Event)}
    (routine : ∀ event ∈ events, Routine event) (found : (trace ++ events).any isConnected = true) :
    trace.any isConnected = true := by
  rw [List.any_append, Bool.or_eq_true] at found
  refine found.resolve_right fun other => ?_
  obtain ⟨event, listed, known⟩ := List.any_eq_true.mp other
  cases routine event listed <;> simp [isConnected] at known

/-- A handshake completes only with room for the next one. -/
theorem Step.reserved_of_connected (step : Step τ before after)
    (once : before.trace.any isConnected = true → before.self.Reserved) :
    after.trace.any isConnected = true → after.self.Reserved := by
  -- A handshake completes only after it has reserved the room.
  have keeps := step.keeps_reserved
  cases step with
  | outflow step =>
    cases step <;> exact fun found => keeps (once (by simpa [isConnected] using found))
  | upkeep step =>
    cases step <;> exact fun found => keeps (once (by simpa [isConnected] using found))
  | opening step =>
    cases step with
    | preamble closed transport =>
      exact fun found => once (any_isConnected (routine_preamble transport) found)
    | _ => exact fun found => keeps (once found)
  | direct ready whole later =>
    exact fun found => keeps (once (any_isConnected routine_whole found))
  | broken ready part => exact fun found => keeps (once (any_isConnected part.routine found))
  | connected closed later sized ready quota limit state =>
    subst state
    exact fun _ => ready.of_same rfl rfl rfl rfl
  | _ => exact fun found => keeps (once (by simpa [isConnected] using found))

/-- In every run, once connected, the room for the next connection request is reserved. -/
theorem run_reserved (config : ConfigBuilder) (clock : Clock) (calls : List (Invocation π τ))
    (connected : (run (start config clock) calls).trace.any isConnected = true) :
    (run (start config clock) calls).self.Reserved := by
  refine run_keeps (P := fun moment =>
    moment.trace.any isConnected = true → moment.self.Reserved) (fun no => ?_)
    Step.reserved_of_connected (fun torn once found => ?_) calls connected
  · simp [World.moment, start] at no
  · cases torn with
    | torn ready part => exact once (any_isConnected part.routine found)

/-- A request that has its room is encoded, and takes exactly that room. -/
theorem Session.connectEncoding_of_room {session : Session} {len : Nat}
    (request : session.requestLength = some len) (small : len ≤ mqttVarintMax)
    (room : maxFixedHeaderSize + len ≤ session.data.outbound.scratchLen) :
    ∃ offset packet scratch, session.connectEncoding = (.ok (offset, packet), scratch) ∧
      scratch.length = session.data.outbound.scratchLen ∧
      offset + packet.length = maxFixedHeaderSize + len := by
  -- The length of the fields is that of the request, so the encoder cannot run out of space.
  have space : session.data.outbound.scratchSpace.length = session.data.outbound.scratchLen :=
    List.length_drop
  obtain ⟨body, fields, rfl⟩ := Option.map_eq_some_iff.mp request
  rcases encodeWithOffset_cases session.data.outbound.scratchSpace session.connectPacket with
    ⟨other, offset, packet, scratch, done, size, same, encoded⟩ | ⟨error, scratch, -, -, failed⟩
  · rw [fields, Option.some.injEq] at same
    subst same
    exact ⟨offset, packet, scratch, done, size.trans space, encoded.ends⟩
  · have none := failed body fields (by omega)
    have some := frame_isSome (ControlPacket.fixedHeader session.connectPacket) small
    simp [none] at some

/--
Once connected, every later state has room for the next connection request.

Whatever is retained by then, the request is encoded, and the same room can be reserved again.
-/
theorem run_reconnect_fits (config : ConfigBuilder) (clock : Clock) (calls : List (Invocation π τ))
    (connected : (run (start config clock) calls).trace.any isConnected = true)
    (small : ∀ len, (run (start config clock) calls).self.session.requestLength = some len →
      len ≤ mqttVarintMax) :
    let session := (run (start config clock) calls).self.session.rearm
    let outbound := session.data.outbound
    ∃ offset packet scratch reserved, session.connectEncoding = (.ok (offset, packet), scratch) ∧
      Outbound.setConnectWorkspace
        { outbound with buf := Arena.overwrite outbound.buf outbound.retainedBytes scratch }
        (offset + packet.length) = .ok reserved := by
  intro session outbound
  -- The room was reserved for a request of this length, and no packet may be kept in it.
  obtain ⟨files, archived⟩ := run_archived config clock calls
  obtain ⟨len, request, workspace⟩ := run_reserved config clock calls connected
  have roomy : outbound.Roomy := Change.armed.roomy archived.stored archived.roomy
  have reserved : outbound.connectWorkspace = maxFixedHeaderSize + len :=
    (Outbound.connectWorkspace_armReplay _).trans workspace
  obtain ⟨inside, free⟩ := roomy
  unfold Outbound.retainedCapacity at free
  have room : maxFixedHeaderSize + len ≤ outbound.scratchLen := by
    unfold Outbound.scratchLen
    omega
  obtain ⟨offset, packet, scratch, encoded, size, ends⟩ :=
    @Session.connectEncoding_of_room session len
      ((Session.requestLength_congr rfl rfl rfl).trans request) (small len request) room
  have size : scratch.length = outbound.buf.length - outbound.retainedBytes := size
  have same : (Arena.overwrite outbound.buf outbound.retainedBytes scratch).length =
      outbound.buf.length := Arena.length_overwrite (by omega)
  refine ⟨offset, packet, scratch, _, encoded, Outbound.setConnectWorkspace_of_room ?_ ?_⟩
  · dsimp only
    omega
  · change outbound.retainedBytes ≤ _
    dsimp only
    omega

/-- The broker assigns an identifier of one byte, and the client sends a publication. -/
def assignedPublication : List (Invocation Unit Unit) :=
  [⟨.connect [0x20, 7, 0, 0, 4, 0x12, 0, 1, 0x78],
      [.ready 64, .ready 0, .ready 1, .ready 1, .ready 7]⟩,
    ⟨.publish oncePublication, [.ready 64, .ready 0]⟩]

/-- With the publication in flight there is room for a request that carries the new identifier. -/
theorem run_reconnect_fits_small :
    let session := (run (start roomyConfig (steppingClock 1 0)) assignedPublication).self.session.rearm
    let outbound := session.data.outbound
    outbound.retained.length = 1 ∧ session.clientId.text.bytes = [0x78] ∧
    ∃ offset packet scratch reserved, session.connectEncoding = (.ok (offset, packet), scratch) ∧
      Outbound.setConnectWorkspace
        { outbound with buf := Arena.overwrite outbound.buf outbound.retainedBytes scratch }
        (offset + packet.length) = .ok reserved := by
  refine ⟨by decide +kernel, by decide +kernel, run_reconnect_fits roomyConfig (steppingClock 1 0)
    assignedPublication (by decide +kernel) fun len request => ?_⟩
  have known : (run (start roomyConfig (steppingClock 1 0))
      assignedPublication).self.session.requestLength = some 27 := by decide +kernel
  rw [known, Option.some.injEq] at request
  rw [← request]
  decide

/-- A request whose length has no encoding is not sent. -/
theorem Session.connectEncoding_of_long {session : Session} {len : Nat}
    (request : session.requestLength = some len) (long : mqttVarintMax < len) (small : len < 2 ^ 32) :
    ∃ error scratch, session.connectEncoding = (.error error, scratch) := by
  obtain ⟨body, fields, rfl⟩ := Option.map_eq_some_iff.mp request
  rcases encodeWithOffset_cases session.data.outbound.scratchSpace session.connectPacket with
    ⟨other, offset, packet, scratch, -, -, same, encoded⟩ | ⟨error, scratch, failed, -⟩
  · rw [fields, Option.some.injEq] at same
    subst same
    -- An encoding would begin with a length that has no varint.
    have framed := encoded.framed
    rw [frame, Nat.mod_eq_of_lt small, writeMqttU32Varint_eq_none.mpr long] at framed
    simp at framed
  · exact ⟨error, scratch, failed⟩

section Assigned

variable {world : ClientWorld τ} {E : Stop (Error τ) → ClientWorld τ → Prop}

/-- A transport may accept all bytes at once. -/
theorem writeAll_at_once {Q : Unit → ClientWorld τ → Prop} {bytes : Bytes}
    {rest : List (Reply τ)} (nonempty : bytes ≠ [])
    (replies : world.replies = .ready bytes.length :: rest)
    (done : Q () (World.record { world with replies := rest } (.accepted bytes))) :
    wp (writeAll bytes : Client τ (Error τ) Unit) Q E world := by
  have positive : bytes.length ≠ 0 := fun zero => nonempty (List.length_eq_zero_iff.mp zero)
  unfold writeAll
  simp only [wp_bind, wp_rounds]
  rw [show 2 * world.replies.length + 3 = (2 * world.replies.length + 1) + 1 + 1 from rfl,
    wp_iterate_succ, if_neg nonempty, wp_bind, wp_write_ready replies (by simpa using nonempty)]
  simp only [List.take_length, if_neg positive, wp_pure, wp_iterate_succ, List.drop_length, if_true]
  exact done

/-- A transport may accept and drain the connection request at once. -/
theorem sendConnect_at_once {Q : Nat → ClientWorld τ → Prop} {offset count : Nat}
    {rest : List (Reply τ)}
    (encoded : world.self.session.connectEncoding = (.ok (offset, packet), scratch))
    (nonempty : packet ≠ [])
    (replies : world.replies = .ready packet.length :: .ready count :: rest)
    (done : Q (offset + packet.length) { world with
      self := world.self.mapOutbound fun outbound =>
        { outbound with buf := Arena.overwrite outbound.buf outbound.retainedBytes scratch }
      replies := rest
      trace := world.trace ++ [.accepted packet] ++ [.flushing] ++ [.flushed] }) :
    wp (sendConnect : Client τ (Error τ) Nat) Q E world := by
  unfold sendConnect
  simp only [currentSession, wp_bind, wp_self, wp_pure, encoded, updateOutbound, wp_update]
  refine writeAll_at_once nonempty (by exact replies) ?_
  rw [wp_bind, wp_flush_ready rfl]
  exact done

/-- An answer that starts a fresh session and assigns the identifier `a`. -/
def assigningAnswer : Bytes := [0x20, 7, 0, 0, 4, 0x12, 0, 1, 0x61]

/-- The same answer, decoded. -/
def assigningAck : ConnAck := ⟨false, .success, .encoded [0x12, 0, 1, 0x61]⟩

/-- The assigned identifier. -/
def assignedId : ClientId := ⟨⟨[0x61], rfl⟩, by decide⟩

/-- The answer is read in three pieces. -/
theorem receiveConnAck_returns (clientId : ClientId) (data : SessionData) (runtime : RuntimeState)
    (will : Option Will) (auth : Option Auth) (expiry : UInt32) (downgrade live : Bool)
    (flushState : FlushState) (clock : Clock)
    (samples : Nat) (trace : List (Happening Event)) :
    (receiveConnAck : Client τ (Error τ) ConnAck)
      ⟨⟨⟨clientId, .new (List.replicate 16 0), data, runtime, will, auth, expiry, downgrade⟩, live,
        flushState⟩, [.ready 1, .ready 1, .ready 7], assigningAnswer, clock, samples, trace⟩ =
    .ok assigningAck ⟨⟨⟨clientId, .new (assigningAnswer ++ List.replicate 7 0), data, runtime, will,
      auth, expiry, downgrade⟩, live, flushState⟩, [], [], clock, samples,
      trace ++ [.received [0x20]] ++ [.received [7]] ++
        [.received [0, 0, 4, 0x12, 0, 1, 0x61]]⟩ := by
  cbv

/-- The answer is read in three pieces. -/
theorem receiveConnAck_assigning {Q : ConnAck → ClientWorld τ → Prop}
    (reader : world.self.session.packetReader = .new (List.replicate 16 0))
    (replies : world.replies = [.ready 1, .ready 1, .ready 7])
    (inbound : world.inbound = assigningAnswer)
    (done : Q assigningAck { world with
      self := world.self.mapReader fun _ => .new (assigningAnswer ++ List.replicate 7 0)
      replies := []
      inbound := []
      trace := world.trace ++ [.received [0x20]] ++ [.received [7]] ++
        [.received [0, 0, 4, 0x12, 0, 1, 0x61]] }) :
    wp (receiveConnAck : Client τ (Error τ) ConnAck) Q E world := by
  obtain ⟨⟨⟨clientId, packetReader, data, runtime, will, auth, expiry, downgrade⟩, live, flushState⟩,
    script, bytes, clock, samples, trace⟩ := world
  dsimp only at reader replies inbound
  subst reader replies inbound
  unfold wp
  rw [receiveConnAck_returns]
  exact done

/-- The identifier is taken over, if there is room for it in the next request. -/
theorem adoptConnAck_assigning {workspace : Nat}
    (anonymous : world.self.session.clientId = ⟨.empty, Nat.zero_le _⟩)
    (room : workspace + 1 ≤ world.self.outbound.buf.length) :
    wp (adoptConnAck workspace assigningAck : Client τ (Error τ) ConnectEvent)
      (fun _ after => after.trace.any isConnected = true ∧
        after.self.session.clientId = assignedId ∧
        after.self.session.will = world.self.session.will ∧
        after.self.session.auth = world.self.session.auth)
      (fun _ _ => False) world := by
  -- Each step of the handshake is evaluated on this one answer.
  have success : assigningAck.reasonCode.asResult = .ok () := by decide
  have announced (runtime : RuntimeState) :
      Announced.applyAll ⟨.empty, Nat.zero_le _⟩ (.initial runtime) assigningAck.properties.iter =
        .ok { Announced.initial runtime with assignedClientId := some assignedId } := by
    cbv
  have fresh : assigningAck.sessionPresent = false := rfl
  unfold adoptConnAck
  simp only [success, resumeOrReset, fresh, Bool.not_false, if_true, updateData, wp_bind, wp_update,
    wp_note, currentSession, wp_self, wp_pure, Connection.mapData, Connection.mapSession,
    World.record, anonymous, announced, updateSession, adoptClientId, reserveWorkspace,
    currentOutbound, Session.adoptLimits]
  rw [Outbound.setConnectWorkspace_of_room]
  · simp only [updateOutbound, wp_update, activate, wp_bind, updateData, wp_now, updateRuntime,
      currentSession, wp_self, wp_pure, wp_note]
    refine ⟨?_, rfl, rfl, rfl⟩
    simp [isConnected, World.record]
  · exact room
  · exact Nat.zero_le _

/-- The handshake completes once the request is sent, if there is room for the identifier. -/
theorem answered_assigning {workspace : Nat}
    (reader : world.self.session.packetReader = .new (List.replicate 16 0))
    (anonymous : world.self.session.clientId = ⟨.empty, Nat.zero_le _⟩)
    (empty : world.self.outbound.retainedBytes = 0)
    (room : workspace + 1 ≤ world.self.outbound.buf.length)
    (replies : world.replies = [.ready 1, .ready 1, .ready 7])
    (inbound : world.inbound = assigningAnswer) :
    wp (do
        reserveWorkspace workspace
        updateRuntime fun runtime => { runtime with nextPing := none, pingTimeout := none }
        let ack ← receiveConnAck
        adoptConnAck workspace ack : Client τ (Error τ) ConnectEvent)
      (fun _ after => after.trace.any isConnected = true ∧
        after.self.session.clientId = assignedId ∧
        after.self.session.will = world.self.session.will ∧
        after.self.session.auth = world.self.session.auth)
      (fun _ _ => False) world := by
  simp only [reserveWorkspace, currentOutbound, wp_bind, wp_self, wp_pure]
  rw [Outbound.setConnectWorkspace_of_room (by omega) (by omega)]
  simp only [updateOutbound, updateRuntime, wp_bind, wp_update]
  refine receiveConnAck_assigning reader replies inbound ?_
  exact adoptConnAck_assigning anonymous room

/-- A client without an identifier that can encode its request is assigned one. -/
theorem connectHandshake_assigning {offset : Nat}
    (encoded : world.self.session.connectEncoding = (.ok (offset, packet), scratch))
    (nonempty : packet ≠ []) (reader : world.self.session.packetReader = .new (List.replicate 16 0))
    (anonymous : world.self.session.clientId = ⟨.empty, Nat.zero_le _⟩)
    (empty : world.self.outbound.retainedBytes = 0)
    (size : scratch.length = world.self.outbound.buf.length)
    (room : offset + packet.length + 1 ≤ world.self.outbound.buf.length)
    (replies : world.replies = [.ready packet.length, .ready 0, .ready 1, .ready 1, .ready 7])
    (inbound : world.inbound = assigningAnswer) :
    wp (connectHandshake : Client τ (Error τ) ConnectEvent)
      (fun _ after => after.trace.any isConnected = true ∧
        after.self.session.clientId = assignedId ∧
        after.self.session.will = world.self.session.will ∧
        after.self.session.auth = world.self.session.auth)
      (fun _ _ => False) world := by
  have same : (Arena.overwrite world.self.outbound.buf world.self.outbound.retainedBytes
      scratch).length = world.self.outbound.buf.length := Arena.length_overwrite (by omega)
  unfold connectHandshake
  rw [wp_bind]
  refine sendConnect_at_once encoded nonempty replies ?_
  exact answered_assigning reader anonymous empty (Nat.le_trans room (Nat.le_of_eq same.symm)) rfl
    inbound

theorem connect_assigning {config : ConfigBuilder} (clock : Clock) {offset : Nat}
    (encoded : (Session.new config).connectEncoding = (.ok (offset, packet), scratch))
    (nonempty : packet ≠ []) (buffer : config.rx = List.replicate 16 0)
    (anonymous : config.clientId = ⟨.empty, Nat.zero_le _⟩)
    (size : scratch.length = config.tx.length)
    (room : offset + packet.length + 1 ≤ config.tx.length) :
    wp (connect : Client τ (Error τ) ConnectEvent)
      (fun _ after => after.trace.any isConnected = true ∧
        after.self.session.clientId = assignedId ∧ after.self.session.will = config.will ∧
        after.self.session.auth = config.auth)
      (fun _ _ => False) { (start config clock : ClientWorld τ) with
        replies := [.ready packet.length, .ready 0, .ready 1, .ready 1, .ready 7]
        inbound := assigningAnswer } := by
  -- A new connection has nothing to rearm.
  have untouched : Connection.mapSession Session.rearm
      { Connection.new config with live := false } = Connection.new config := rfl
  unfold connect
  simp only [wp_bind, wp_note, wp_update, updateSession, World.record, start, untouched]
  refine wp_mono (connectHandshake_assigning encoded nonempty ?_ anonymous rfl size room rfl rfl)
    (fun _ after done => done) (fun _ _ => id)
  change PacketReader.new config.rx = _
  rw [buffer]

end Assigned

theorem isUtf8_replicate (len : Nat) : isUtf8 (List.replicate len 0x61) = true := by
  induction len with
  | zero => rfl
  | succ len ih =>
    rw [List.replicate_succ]
    unfold isUtf8
    exact ih

/-- A text of some length. -/
def longText (len : Nat) : Utf8 := ⟨List.replicate len 0x61, isUtf8_replicate len⟩

@[simp] theorem len_longText (len : Nat) : (longText len).len = len := List.length_replicate

/-- A Will with many properties of the same length. -/
def bulkyWill (count len extra : Nat) : Will where
  topic := longText 1
  data := List.replicate extra 0
  qos := .atMostOnce
  retained := .notRetained
  properties := List.replicate count (.userProperty .empty (longText len))
  topicFits := by decide
  propertiesValid := by
    rw [List.all_eq_true]
    intro property found
    rw [List.eq_of_mem_replicate found]
    rfl

/-- Fields that are repeated take a multiple of their bytes. -/
theorem tokensLength_replicate {property : Property} {len : Nat}
    (one : tokensLength property.tokens = some len) (count : Nat) :
    tokensLength ((List.replicate count property).flatMap Property.tokens) = some (count * len) := by
  induction count with
  | zero => simp
  | succ count ih =>
    rw [List.replicate_succ, List.flatMap_cons, tokensLength_append, one, ih]
    simp [Nat.succ_mul, Nat.add_comm]

theorem size_bulky (len : Nat) :
    (Property.userProperty .empty (longText len)).size = 5 + len := by
  have name : encodedLen 0x26 = 1 := by decide
  have none : Utf8.empty.len = 0 := rfl
  simp only [Property.size, Property.identifier, name, len_longText, none]
  omega

theorem tokensLength_bulky {len : Nat} (short : len ≤ 65535) :
    tokensLength (Property.userProperty .empty (longText len)).tokens = some (5 + len) := by
  have encodable : (Property.userProperty .empty (longText len)).Encodable :=
    ⟨by decide, by simpa using short⟩
  rw [Property.tokensLength_tokens encodable, size_bulky]

theorem tokensLength_bulkyWill {count len extra : Nat} {encoded : Bytes} (short : len ≤ 65535)
    (small : extra ≤ 65535) (written : writeMqttU32Varint (count * (5 + len) % 2 ^ 32) = some encoded) :
    tokensLength (bulkyWill count len extra).tokens =
      some (encoded.length + count * (5 + len) + 3 + (2 + extra)) := by
  -- Each property takes as many bytes as the others, so the lengths multiply.
  have size : (Properties.slice (bulkyWill count len extra).properties).size =
      count * (5 + len) := by
    simp [Properties.size, bulkyWill, size_bulky]
  have length : tokensLength (varintTokens (count * (5 + len) % 2 ^ 32)) = some encoded.length := by
    rw [tokensLength, tokenBytes_varintTokens, written, Option.map_some]
  rw [Will.tokens, tokensLength_append, tokensLength_append, Properties.tokens, tokensLength_append,
    size, length, tokensLength_utf8 (by simp [bulkyWill])]
  simp only [bulkyWill]
  rw [tokensLength_replicate (tokensLength_bulky short), tokensLength_binary (by simpa using small)]
  simp

/-- A client whose request has the largest possible length, with room for one more byte. -/
def bulkyConfig : ConfigBuilder :=
  { rx := List.replicate 16 0
    tx := List.replicate (mqttVarintMax + 6) 0
    will := some (bulkyWill 4095 65531 65500) }

theorem requestLength_bulky : (Session.new bulkyConfig).requestLength = some mqttVarintMax := by
  have written : writeMqttU32Varint (4095 * (5 + 65531) % 2 ^ 32) = some [128, 128, 252, 127] := by
    decide
  have tail : tokensLength (requestTail (Session.new bulkyConfig).will (Session.new bulkyConfig).auth) =
      some (4 + 4095 * (5 + 65531) + 3 + (2 + 65500)) := by
    -- The properties of the will are all alike, so their lengths add up to a product.
    change tokensLength ((bulkyWill 4095 65531 65500).tokens ++ []) = _
    rw [List.append_nil, tokensLength_bulkyWill (by decide) (by decide) written]
    rfl
  rw [Session.requestLength_eq, tail]
  rfl

/-- A request of the largest possible length leaves no length for an assigned identifier. -/
theorem blocked_of_requestLength {config : ConfigBuilder} (clock : Clock)
    (request : (Session.new config).requestLength = some mqttVarintMax)
    (buffer : config.rx = List.replicate 16 0)
    (anonymous : config.clientId = ⟨.empty, Nat.zero_le _⟩)
    (arena : mqttVarintMax + 6 ≤ config.tx.length) : ∃ calls : List (Invocation Unit Unit),
    (run (start config clock) calls).trace.any isConnected = true ∧
      ∃ error scratch, (run (start config clock) calls).self.session.rearm.connectEncoding =
        (.error error, scratch) := by
  -- The request itself fits exactly, and the assigned identifier is one byte too many.
  have space : (Session.new config).data.outbound.scratchLen = config.tx.length := rfl
  obtain ⟨offset, packet, scratch, encoded, size, ends⟩ :=
    Session.connectEncoding_of_room request (Nat.le_refl _) (by
      rw [space, maxFixedHeaderSize]
      omega)
  have nonempty : packet ≠ [] := by
    obtain ⟨body, framed⟩ := framed_of_encode (congrArg Prod.fst encoded)
    have := frame_length framed
    rintro rfl
    simp at this
  obtain ⟨event, after, returned, connected, clientId, will, auth⟩ := returned_of_wp
    (connect_assigning clock encoded nonempty buffer anonymous (size.trans space) (by
      rw [ends, maxFixedHeaderSize]
      omega))
  let connects : Invocation Unit Unit := ⟨.connect assigningAnswer,
    [.ready packet.length, .ready 0, .ready 1, .ready 1, .ready 7]⟩
  have ran : run (start config clock) [connects] = after := by
    change (finish (connect _)).2 = after
    rw [returned]
    rfl
  refine ⟨[connects], by rw [ran]; exact connected, ?_⟩
  rw [ran]
  have empty : (Session.new config).clientId.text.len = 0 := congrArg (·.text.len) anonymous
  have longer : after.self.session.rearm.requestLength =
      some (mqttVarintMax + after.self.session.clientId.text.len) :=
    Session.requestLength_assigned empty request will auth
  have one : assignedId.text.len = 1 := rfl
  rw [clientId, one] at longer
  exact Session.connectEncoding_of_long longer (by decide) (by decide)

/--
An assigned identifier can make the next request one byte too long for its length field.

The first request has the largest length there is; the handshake reserves room for the identifier,
but the request with the identifier has no encoding.
-/
theorem assigned_blocks_reconnect : ∃ (config : ConfigBuilder) (clock : Clock)
    (calls : List (Invocation Unit Unit)),
    (run (start config clock) calls).trace.any isConnected = true ∧
      ∃ error scratch, (run (start config clock) calls).self.session.rearm.connectEncoding =
        (.error error, scratch) :=
  ⟨bulkyConfig, steppingClock 0 0, blocked_of_requestLength (steppingClock 0 0) requestLength_bulky
    rfl rfl (Nat.le_of_eq List.length_replicate.symm)⟩

end Minimq

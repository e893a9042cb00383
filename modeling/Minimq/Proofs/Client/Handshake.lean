import Minimq.Proofs.Client.Drive
import Minimq.Proofs.Codec.Properties

/-! Connecting follows the transitions, and reserves the room the next connection needs. -/

namespace Minimq

open Hoare Async History

variable {τ : Type} {origin : ClientMoment} {world : ClientWorld τ} {len : Nat}
variable {property : Property}

/-- The limits a client announces take 14 bytes, whatever they are. -/
theorem tokensLength_announced (packetSize expiry : UInt32) (receiveMax : UInt16) :
    tokensLength (Properties.slice [.maximumPacketSize packetSize, .sessionExpiryInterval expiry,
      .receiveMaximum receiveMax]).tokens = some 14 := by
  -- Every value has a fixed width, so the lengths are those of the identifiers.
  have size : writeMqttU32Varint 13 = some [13] := by decide
  have maximumPacketSize : writeMqttU32Varint 39 = some [39] := by decide
  have sessionExpiryInterval : writeMqttU32Varint 17 = some [17] := by decide
  have receiveMaximum : writeMqttU32Varint 33 = some [33] := by decide
  have total : (Properties.slice [.maximumPacketSize packetSize, .sessionExpiryInterval expiry,
      .receiveMaximum receiveMax]).size % 2 ^ 32 = 13 := rfl
  unfold Properties.tokens
  rw [total]
  simp [varintTokens, Property.tokens, Property.identifier, Property.valueTokens, size,
    maximumPacketSize, sessionExpiryInterval, receiveMaximum, u32Bytes, u16Bytes]

/-- The fields behind the client identifier of a connection request. -/
def requestTail (will : Option Will) (auth : Option Auth) : List Token :=
  (match will with
    | some will => will.tokens
    | none => []) ++
  (match auth with
    | some auth => utf8Tokens auth.userName ++ binaryTokens auth.password
    | none => [])

/-- The length of a request depends on the identifier, the Will and the credentials only. -/
theorem Session.requestLength_eq (session : Session) :
    session.requestLength =
      (tokensLength (requestTail session.will session.auth)).map
        (26 + session.clientId.text.len + ·) := by
  -- The identifier is short enough for its length prefix, and the rest is fixed.
  have short : session.clientId.text.len ≤ 65535 :=
    Nat.le_trans session.clientId.fits (by decide)
  have tokens : ControlPacket.tokens session.connectPacket =
      utf8Tokens protocolName ++ ([.push [5], .push [session.connectPacket.flags],
      .push (u16Bytes session.connectPacket.keepalive)] ++
        (session.connectPacket.properties.tokens ++ (utf8Tokens session.clientId.text ++
          requestTail session.will session.auth))) := by
    cases will : session.will <;> cases auth : session.auth <;>
      simp [ControlPacket.tokens, requestTail, connectPacket, will, auth]
  rw [requestLength, tokens, tokensLength_append, tokensLength_append, tokensLength_append,
    tokensLength_append, tokensLength_utf8 short, tokensLength_utf8 (by decide)]
  simp [connectPacket, tokensLength_announced, u16Bytes, protocolName, Utf8.len]
  cases tokensLength (requestTail session.will session.auth) <;> simp
  omega


/-- Writing bytes ends when all of them are accepted, or leaves some of them unwritten. -/
theorem writeAll_spec (bytes : Bytes) :
    wp (writeAll bytes : Client τ (Error τ) Unit)
      (fun _ after => ∃ chunks : List Bytes, chunks.flatten = bytes ∧
        after.moment = { world.moment with trace := world.trace ++ chunks.map .accepted })
      (fun _ after => ∃ chunks : List Bytes, chunks.flatten <+: bytes ∧
        after.moment = { world.moment with trace := world.trace ++ chunks.map .accepted })
      world := by
  -- The invariant: what was accepted and what remains make up the bytes.
  unfold writeAll
  simp only [wp_bind, wp_rounds]
  refine wp_iterate (fun remaining current => ∃ chunks : List Bytes,
      chunks.flatten ++ remaining = bytes ∧
      current.moment = { world.moment with trace := world.trace ++ chunks.map .accepted })
    ⟨[], rfl, by simp [World.moment]⟩ ?_ ?_
  · rintro remaining current ⟨chunks, written, reached⟩
    have part : chunks.flatten <+: bytes := ⟨remaining, written⟩
    simp only [wp_ite, wp_pure, wp_bind]
    split
    · rename_i none
      exact ⟨chunks, by simpa [none] using written, reached⟩
    · refine wp_write _ (fun error rest _ => ?_) (fun rest _ => ?_)
        (fun count rest _ positive within => ?_) (fun rest => ⟨chunks, part, reached⟩)
        (fun rest _ => ⟨chunks, part, reached⟩)
      · exact ⟨chunks, part, reached⟩
      · exact ⟨chunks, part, reached⟩
      · rw [wp_ite, if_neg (by omega)]
        refine ⟨chunks ++ [remaining.take count], ?_, ?_⟩
        · simpa [List.append_assoc] using written
        · simp only [World.moment, Moment.mk.injEq] at reached
          change (⟨current.self, current.trace ++ [_], current.time⟩ : ClientMoment) = _
          simp [reached, World.moment]
  · rintro remaining current ⟨chunks, written, reached⟩
    exact ⟨chunks, ⟨remaining, written⟩, reached⟩

/-- Scratch space behind the used part of an arena may be overwritten. -/
theorem SameUpTo.overwrite {used : Nat} {buf slice : Bytes}
    (size : slice.length ≤ buf.length - used) :
    SameUpTo used buf (Arena.overwrite buf used slice) := by
  by_cases within : used ≤ buf.length
  · exact ⟨Arena.length_overwrite (by omega), Arena.take_overwrite (Nat.le_refl _) within⟩
  · -- There is no scratch space at all.
    have none : slice = [] := List.length_eq_zero_iff.mp (by omega)
    subst none
    rw [Arena.overwrite_nil]
    exact ⟨rfl, rfl⟩

theorem Session.requestLength_congr {session other : Session} (will : other.will = session.will)
    (auth : other.auth = session.auth) (clientId : other.clientId = session.clientId) :
    other.requestLength = session.requestLength := by
  rw [requestLength_eq, requestLength_eq, will, auth, clientId]

theorem Connection.Reserved.congr {connection other : Connection} (reserved : connection.Reserved)
    (request : other.session.requestLength = connection.session.requestLength)
    (workspace : other.outbound.connectWorkspace = connection.outbound.connectWorkspace) :
    other.Reserved := by
  obtain ⟨len, needed, fits⟩ := reserved
  exact ⟨len, request.trans needed, workspace.trans fits⟩

/-- An identifier in place of an empty one adds its bytes to the request. -/
theorem Session.requestLength_assigned {session other : Session}
    (anonymous : session.clientId.text.len = 0) (request : session.requestLength = some len)
    (will : other.will = session.will) (auth : other.auth = session.auth) :
    other.requestLength = some (len + other.clientId.text.len) := by
  rw [requestLength_eq, anonymous] at request
  obtain ⟨rest, found, rfl⟩ := Option.map_eq_some_iff.mp request
  rw [requestLength_eq, will, auth, found, Option.map_some, Option.some.injEq]
  omega

/-- What holds while a connection is being established with a request of some length. -/
structure Shaking (origin : ClientMoment) (len : Nat) (world : ClientWorld τ) : Prop where
  /-- Transitions led here, and no packet is waiting. -/
  reached : Reached origin world
  /-- The connection is not live yet. -/
  closed : world.self.live = false
  /-- The request has the given length. -/
  request : world.self.session.requestLength = some len

/-- Before a connection is established, accepted bytes belong to the request. -/
theorem Reached.preamble {after : ClientWorld τ} {chunks : List Bytes}
    (reached : Reached origin world) (closed : world.self.live = false)
    (attempt : Since (· = .noted .opened) Starts world.trace)
    (moved : after.moment = { world.moment with trace := world.trace ++ chunks.map .accepted }) :
    Reached origin after := by
  have self : after.self = world.self := congrArg Moment.self moved
  refine ⟨?_, by rw [Connection.Rest, self]; exact reached.rest⟩
  rw [moved]
  refine reached.steps.tail (.opening (.preamble closed (fun event found => .inr (.inr ?_)) attempt))
  obtain ⟨bytes, -, rfl⟩ := List.mem_map.mp found
  exact ⟨bytes, rfl⟩

/-- The connection request is sent from the scratch space. -/
theorem sendConnect_spec (reached : Reached origin world) (closed : world.self.live = false)
    (attempt : Since (· = .noted .opened) Starts world.trace) :
    wp (sendConnect : Client τ (Error τ) Nat)
      (fun workspace after => ∃ len, workspace = maxFixedHeaderSize + len ∧
        Shaking origin len after)
      (fun _ after => Reached origin after) world := by
  unfold sendConnect
  -- The request is written behind the retained packets, and its length is kept for later.
  have size : (world.self.session.data.outbound.scratchSpace).length =
      world.self.outbound.buf.length - world.self.outbound.retainedBytes := by
    simp [Outbound.scratchSpace]
  simp only [currentSession, updateOutbound, wp_bind, wp_self, wp_pure, wp_update]
  unfold Session.connectEncoding
  rcases encodeWithOffset_cases world.self.session.data.outbound.scratchSpace
    world.self.session.connectPacket with
    ⟨body, offset, bytes, scratch, done, same, fields, encoded⟩ | ⟨error, scratch, failed, same, -⟩
  · rw [done]
    have kept : SameUpTo world.self.outbound.retainedBytes world.self.outbound.buf
        (Arena.overwrite world.self.outbound.buf world.self.outbound.retainedBytes scratch) :=
      .overwrite (by omega)
    have scratched : Reached origin { world with
        self := world.self.mapOutbound fun outbound => { outbound with
          buf := Arena.overwrite outbound.buf outbound.retainedBytes scratch } } :=
      ⟨reached.steps.tail (.upkeep (.scratched kept)), reached.rest⟩
    dsimp only
    rw [wp_bind]
    refine wp_mono (writeAll_spec bytes) (fun _ after sent => ?_) (fun _ after sent => ?_)
    · obtain ⟨chunks, -, moved⟩ := sent
      have written := scratched.preamble closed attempt moved
      have self := congrArg Moment.self moved
      have still : after.self.live = false := by
        rw [show after.self = _ from self]
        exact closed
      have trace : after.trace = world.trace ++ chunks.map .accepted := congrArg Moment.trace moved
      have sent : Since (· = .noted .opened) Starts after.trace := by
        rw [trace]
        refine attempt.append fun event found => ?_
        obtain ⟨bytes, -, rfl⟩ := List.mem_map.mp found
        simp [Starts]
      -- The flush is asked for before it is answered, so it is recorded either way.
      have asked : Steps τ origin { after.moment with trace := after.trace ++ [.flushing] } :=
        written.steps.tail (.opening (.preamble still (by simp) sent))
      rw [wp_bind]
      refine wp_flush (fun error rest _ => ?_) (fun rest _ => ?_) (fun rest => ?_) (fun rest _ => ?_)
      · exact ⟨asked, written.rest⟩
      · refine ⟨body.length, encoded.ends, ⟨?_, written.rest⟩, still, ?_⟩
        · have drained : ∀ event ∈ [(.flushed : Happening Event)],
              event = .flushing ∨ event = .flushed ∨ ∃ bytes, event = .accepted bytes := by simp
          exact asked.tail (.opening (.preamble still drained (sent.append (by simp [Starts]))))
        · have same : Session.requestLength after.self.session =
              world.self.session.requestLength := by
            rw [show after.self = _ from self]
            exact Session.requestLength_congr rfl rfl rfl
          change Session.requestLength after.self.session = _
          rw [same, Session.requestLength, tokensLength, fields, Option.map_some]
      · exact ⟨asked, written.rest⟩
      · exact ⟨asked, written.rest⟩
    · obtain ⟨chunks, -, moved⟩ := sent
      exact scratched.preamble closed attempt moved
  · rw [failed]
    have kept : SameUpTo world.self.outbound.retainedBytes world.self.outbound.buf
        (Arena.overwrite world.self.outbound.buf world.self.outbound.retainedBytes scratch) :=
      .overwrite (by omega)
    exact ⟨reached.steps.tail (.upkeep (.scratched kept)), reached.rest⟩

/-- Reading does not change the request or the room reserved for it. -/
theorem Shaking.fed {after : ClientWorld τ} (shaking : Shaking origin len world)
    (reserved : world.self.Reserved) (fed : Fed world.moment after.moment)
    (rest : after.self.Rest) : Shaking origin len after ∧ after.self.Reserved := by
  -- Only the reader changes, and a request does not depend on it.
  have steps := shaking.reached.steps.trans fed.steps
  obtain ⟨reader, chunks, same⟩ := fed
  have self : after.self = world.self.mapReader fun _ => reader := congrArg Moment.self same
  have request : after.self.session.requestLength = world.self.session.requestLength := by
    rw [self]
    exact Session.requestLength_congr rfl rfl rfl
  exact ⟨⟨⟨steps, rest⟩, by rw [self]; exact shaking.closed, request.trans shaking.request⟩,
    reserved.congr request (by rw [self]; rfl)⟩

/-- Waiting for the answer changes only the reader. -/
theorem receiveConnAck_spec (shaking : Shaking origin len world) (reserved : world.self.Reserved) :
    wp (receiveConnAck : Client τ (Error τ) ConnAck)
      (fun _ after => Shaking origin len after ∧ after.self.Reserved)
      (fun _ after => Reached origin after) world := by
  -- Any packet but a CONNACK ends the attempt.
  have steps := shaking.reached.steps
  unfold receiveConnAck
  rw [wp_bind, wp_attempt]
  refine wp_mono fillPacketReader_spec (fun _ after done => ?_) (fun stop after failed => ?_)
  · simp only [onPacketReader, wp_bind, wp_zoom]
    refine wp_mono PacketReader.takePacket_spec (fun taken reader rest => ?_)
      (fun error reader rest => ?_)
    · have fed := Fed.changed done.1 fun _ => reader
      obtain ⟨length, packet⟩ := taken
      cases packet with
      | connAck ack => exact shaking.fed reserved fed rest
      | _ => exact .given_up (steps.trans fed.steps)
    · exact .given_up (steps.trans (Fed.changed done.1 fun _ => reader).steps)
  · obtain ⟨fed, ended, -⟩ := failed
    cases stop with
    | error error => exact .given_up (steps.trans fed.steps)
    | dropped => exact ⟨steps.trans fed.steps, by simpa using ended⟩
    | expired => exact ⟨steps.trans fed.steps, by simpa using ended⟩

namespace Announced

variable {clientId : ClientId} {announced next final : Announced}
  {properties : List (Except PeerError Property)}

/-- What holds for the announced limits after properties with some ReceiveMaximum. -/
structure Sound (clientId : ClientId) (receiveMaximum : Nat) (announced : Announced) : Prop where
  /-- Nothing is under way yet. -/
  quota : announced.sendQuota = announced.maxSendQuota
  /-- The quota stays below the limits of the broker and of the client. -/
  limit : announced.maxSendQuota ≤ min receiveMaximum Outbound.maxInflight
  /-- Only a client without an identifier is assigned one. -/
  anonymous : announced.assignedClientId.isSome → clientId.text.len = 0

theorem initial_sound (runtime : RuntimeState) :
    (initial runtime).Sound clientId 65535 where
  quota := rfl
  limit := (by decide : Outbound.maxInflight ≤ min 65535 Outbound.maxInflight)
  anonymous some := by simp [initial] at some

/-- One property keeps the limits sound. -/
theorem apply_sound {receiveMaximum : Nat} (sound : announced.Sound clientId receiveMaximum)
    (done : announced.apply clientId property = .ok next) :
    next.Sound clientId (receiveMaximumOf receiveMaximum (.ok property)) := by
  -- Only a receive maximum sets the quota, and an identifier is assigned only once.
  unfold apply at done
  split at done
  · cases done
    exact ⟨sound.quota, sound.limit, sound.anonymous⟩
  · split at done
    · simp at done
    · rename_i once
      split at done
      · cases done
        exact ⟨sound.quota, sound.limit, fun _ => by omega⟩
      · simp at done
  · cases done
    exact ⟨sound.quota, sound.limit, sound.anonymous⟩
  · split at done
    · simp at done
    · cases done
      exact ⟨rfl, Nat.le_refl _, sound.anonymous⟩
  · split at done
    · cases done
      exact ⟨sound.quota, sound.limit, sound.anonymous⟩
    · simp at done
  · rename_i other _ _
    cases done
    have same : receiveMaximumOf receiveMaximum (.ok property) = receiveMaximum := by
      cases property <;> simp_all [receiveMaximumOf]
    rw [same]
    exact sound

/-- What every property keeps, along with a value that is folded over them, holds at the end. -/
theorem applyAll_fold {β : Type} {P : Announced → β → Prop}
    (fold : β → Except PeerError Property → β) {value : β}
    (step : ∀ {announced next property value}, P announced value →
      announced.apply clientId property = .ok next → P next (fold value (.ok property)))
    (holds : P announced value) (done : applyAll clientId announced properties = .ok final) :
    P final (properties.foldl fold value) := by
  -- An error among the properties ends the handshake, so all of them were applied.
  induction properties generalizing announced value with
  | nil =>
    cases done
    exact holds
  | cons property rest ih =>
    cases property with
    | error error => simp [applyAll] at done
    | ok property =>
      simp only [applyAll] at done
      cases applied : announced.apply clientId property with
      | error error =>
        rw [applied] at done
        simp [bind, Except.bind] at done
      | ok next =>
        rw [applied] at done
        exact ih (step holds applied) done

theorem applyAll_sound {receiveMaximum : Nat} (sound : announced.Sound clientId receiveMaximum)
    (done : applyAll clientId announced properties = .ok final) :
    final.Sound clientId (properties.foldl receiveMaximumOf receiveMaximum) :=
  applyAll_fold (P := fun announced maximum => announced.Sound clientId maximum) receiveMaximumOf
    apply_sound sound done

/-- One property sets the limit for packets if it announces one. -/
theorem apply_size (done : announced.apply clientId property = .ok next) :
    next.maximumPacketSize = maximumPacketSizeOf announced.maximumPacketSize (.ok property) := by
  -- A property that fails its check leaves nothing to compare.
  cases property
  all_goals
    simp only [apply] at done
    repeat' split at done
  all_goals first | (cases done; rfl) | cases done

theorem applyAll_size (done : applyAll clientId announced properties = .ok final) :
    final.maximumPacketSize =
      properties.foldl maximumPacketSizeOf announced.maximumPacketSize :=
  applyAll_fold (P := fun announced size => announced.maximumPacketSize = size) maximumPacketSizeOf
    (fun same applied => same ▸ apply_size applied) rfl done

/-- One property keeps the keepalive interval, or announces one of whole seconds. -/
theorem apply_keepalive (done : announced.apply clientId property = .ok next) :
    next.keepaliveInterval = announced.keepaliveInterval ∨
      ∃ seconds, next.keepaliveInterval = seconds * ticksPerSecond := by
  -- Only the server's own keepalive changes the interval.
  cases property
  case serverKeepAlive keepalive =>
    cases done
    exact .inr ⟨keepalive.toNat, rfl⟩
  all_goals
    simp only [apply] at done
    repeat' split at done
  all_goals first | (cases done; exact .inl rfl) | cases done

theorem applyAll_keepalive (done : applyAll clientId announced properties = .ok final) :
    final.keepaliveInterval = announced.keepaliveInterval ∨
      ∃ seconds, final.keepaliveInterval = seconds * ticksPerSecond :=
  @applyAll_fold _ _ _ _ Unit (fun last _ =>
      last.keepaliveInterval = announced.keepaliveInterval ∨
        ∃ seconds, last.keepaliveInterval = seconds * ticksPerSecond) (fun _ _ => ()) ()
    (fun same applied => (apply_keepalive applied).elim (fun equal => equal ▸ same) .inr) (.inl rfl)
    done

end Announced

/-- Starting the session over does not change the length of the request. -/
theorem resumeOrReset_spec (shaking : Shaking origin len world)
    (reserved : world.self.Reserved) (ack : ConnAck) :
    wp (resumeOrReset ack : Client τ (Error τ) Unit)
      (fun _ after => Shaking origin len after ∧ after.self.Reserved)
      (fun _ after => Reached origin after) world := by
  -- A reset touches neither the identifier nor the Will nor the credentials.
  obtain ⟨reached, closed, request⟩ := shaking
  have same : (world.self.mapData SessionData.reset).session.requestLength =
      world.self.session.requestLength := Session.requestLength_congr rfl rfl rfl
  unfold resumeOrReset
  simp only [updateData, wp_ite, wp_bind, wp_update, wp_note, wp_pure]
  split
  · exact ⟨⟨⟨reached.steps.tail (.reset closed), reached.rest⟩, closed, same.trans request⟩,
      reserved.congr same rfl⟩
  · exact ⟨⟨reached, closed, request⟩, reserved⟩

/-- An assigned identifier gets the room its bytes need. -/
theorem adoptClientId_spec (shaking : Shaking origin len world)
    (reserved : world.self.Reserved) (assigned : Option ClientId)
    (anonymous : assigned.isSome → world.self.session.clientId.text.len = 0) :
    wp (adoptClientId (maxFixedHeaderSize + len) assigned : Client τ (Error τ) Unit)
      (fun _ after => Reached origin after ∧ after.self.live = false ∧ after.self.Reserved ∧
        after.self.runtime = world.self.runtime)
      (fun _ after => Reached origin after) world := by
  -- The room is reserved for the identifier before it is adopted.
  obtain ⟨reached, closed, request⟩ := shaking
  cases assigned with
  | none => exact ⟨reached, closed, reserved, rfl⟩
  | some clientId =>
    simp only [adoptClientId, reserveWorkspace, currentOutbound, wp_bind, wp_self, wp_pure]
    cases fits : world.self.outbound.setConnectWorkspace
        (maxFixedHeaderSize + len + clientId.text.len) with
    | error error => exact reached
    | ok outbound =>
      simp only [updateOutbound, updateSession, wp_update]
      have step := reached.steps.tail
        (.opening (.assigned closed (anonymous rfl) request fits))
      refine ⟨⟨step, reached.rest⟩, closed, ⟨len + clientId.text.len, ?_, ?_⟩, rfl⟩
      · exact Session.requestLength_assigned (anonymous rfl) request rfl rfl
      · obtain ⟨-, -, rfl⟩ := Outbound.room_of_setConnectWorkspace fits
        exact Nat.add_assoc _ _ _

/-- Taking over the answer establishes the session, apart from handing out the connection. -/
theorem adoptConnAck_spec (shaking : Shaking origin len world)
    (reserved : world.self.Reserved) (ack : ConnAck) :
    wp (adoptConnAck (maxFixedHeaderSize + len) ack : Client τ (Error τ) ConnectEvent)
      (fun _ after => Reached origin
        { after with self := { after.self with live := true, flushState := .clean } })
      (fun _ after => Reached origin after) world := by
  -- The order is that of the source: code, session, limits, identifier, and then the clock.
  unfold adoptConnAck
  cases ack.reasonCode.asResult with
  | error error => exact shaking.reached
  | ok value =>
    simp only [currentSession, wp_bind]
    refine wp_mono (resumeOrReset_spec shaking reserved ack) (fun _ current resumed => ?_)
      (fun _ _ => id)
    obtain ⟨shaking, reserved⟩ := resumed
    simp only [wp_bind, wp_self, wp_pure]
    cases properties : Announced.applyAll current.self.session.clientId
        (.initial current.self.session.runtime) ack.properties.iter with
    | error error => exact .given_up shaking.reached.steps
    | ok announced =>
      have sound := Announced.applyAll_sound (Announced.initial_sound _) properties
      simp only [updateSession, wp_bind, wp_update]
      have same : (current.self.mapSession fun session =>
          session.adoptLimits ack.sessionPresent announced).session.requestLength =
            current.self.session.requestLength := Session.requestLength_congr rfl rfl rfl
      have limited : Shaking origin len { current with
          self := current.self.mapSession fun session =>
            session.adoptLimits ack.sessionPresent announced } :=
        ⟨⟨shaking.reached.steps.tail (.opening (.limited shaking.closed
          (Announced.applyAll_keepalive properties))), shaking.reached.rest⟩,
          shaking.closed, same.trans shaking.request⟩
      refine wp_mono (adoptClientId_spec limited (reserved.congr same rfl) _ sound.anonymous)
        (fun _ after adopted => ?_) (fun _ _ => id)
      obtain ⟨reached, closed, reserved, runtime⟩ := adopted
      have quota : after.self.runtime.sendQuota = after.self.runtime.maxSendQuota := by
        rw [runtime]
        exact sound.quota
      have limit : after.self.runtime.maxSendQuota ≤
          min ack.receiveMaximum Outbound.maxInflight := by
        rw [runtime]
        exact sound.limit
      have sized : after.self.runtime.maximumPacketSize = ack.maximumPacketSize := by
        rw [runtime]
        exact Announced.applyAll_size properties
      unfold activate
      simp only [updateData, updateRuntime, currentSession, wp_bind, wp_update, wp_now, wp_self,
        wp_pure, wp_note]
      have connected := reached.steps.tail
        (.connected closed (time_le_reading after) sized reserved quota limit rfl)
      refine ⟨?_, reached.rest⟩
      change Steps τ origin ⟨_, (after.trace ++ [_]) ++ [_], _⟩
      rw [List.append_assoc]
      exact connected

/-- Reserving room for a request of the same length. -/
theorem reserveWorkspace_spec (shaking : Shaking origin len world) :
    wp (reserveWorkspace (maxFixedHeaderSize + len) : Client τ (Error τ) Unit)
      (fun _ after => Shaking origin len after ∧ after.self.Reserved)
      (fun _ after => Reached origin after) world := by
  -- The length was kept from the request that was sent, so the room is what the next one needs.
  obtain ⟨reached, closed, request⟩ := shaking
  simp only [reserveWorkspace, currentOutbound, wp_bind, wp_self, wp_pure]
  cases fits : world.self.outbound.setConnectWorkspace (maxFixedHeaderSize + len) with
  | error error => exact reached
  | ok outbound =>
    have step := reached.steps.tail (.opening (.reserved closed request fits))
    obtain ⟨-, -, rfl⟩ := Outbound.room_of_setConnectWorkspace fits
    have same : Session.requestLength (world.self.mapOutbound fun _ => { world.self.outbound with
        connectWorkspace := maxFixedHeaderSize + len }).session = some len :=
      (Session.requestLength_congr rfl rfl rfl).trans request
    exact ⟨⟨⟨step, reached.rest⟩, closed, same⟩, len, same, rfl⟩

/-- The handshake establishes the session, apart from handing out the connection. -/
theorem connectHandshake_spec (reached : Reached origin world) (closed : world.self.live = false)
    (attempt : Since (· = .noted .opened) Starts world.trace) :
    wp (connectHandshake : Client τ (Error τ) ConnectEvent)
      (fun _ after => Reached origin
        { after with self := { after.self with live := true, flushState := .clean } })
      (fun _ after => Reached origin after) world := by
  -- Each part hands on that the request and the room for it are the same.
  unfold connectHandshake
  rw [wp_bind]
  refine wp_mono (sendConnect_spec reached closed attempt) (fun workspace after sent => ?_) (fun _ _ => id)
  obtain ⟨len, rfl, shaking⟩ := sent
  rw [wp_bind]
  refine wp_mono (reserveWorkspace_spec shaking) (fun _ after reserved => ?_) (fun _ _ => id)
  obtain ⟨⟨reached, closed, request⟩, reserved⟩ := reserved
  simp only [updateRuntime, wp_bind, wp_update]
  have same : Session.requestLength (after.self.mapRuntime fun runtime =>
      { runtime with nextPing := none, pingTimeout := none }).session =
        after.self.session.requestLength := Session.requestLength_congr rfl rfl rfl
  have untimed : Shaking origin len { after with self := after.self.mapRuntime fun runtime =>
      { runtime with nextPing := none, pingTimeout := none } } :=
    ⟨⟨reached.steps.tail (.opening (.untimed closed)), reached.rest⟩, closed, same.trans request⟩
  refine wp_mono (receiveConnAck_spec untimed (reserved.congr same rfl))
    (fun ack after received => ?_) (fun _ _ => id)
  exact adoptConnAck_spec received.1 received.2 ack

theorem connect_spec (steps : Steps τ origin world.moment) :
    wp (connect : Client τ (Error τ) ConnectEvent)
      (fun _ after => Reached origin after) (fun _ after => Reached origin after) world := by
  unfold connect
  simp only [updateSession, wp_bind, wp_note, wp_update]
  refine wp_mono (connectHandshake_spec ⟨steps.tail .opened, PacketReader.packetAvailable_reset⟩ rfl
    (since_concat.mpr (.inl rfl))) (fun _ _ => id) (fun _ _ => id)

end Minimq

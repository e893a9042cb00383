import Minimq.Proofs.Codec.Footprint
import Minimq.Proofs.Client.Supply

/-! A graceful disconnect: what it sends, and why a DISCONNECT with properties is refused. -/

namespace Minimq

open Hoare Async

variable {π τ : Type} {world : ClientWorld τ}

theorem Property.size_of_disconnect {property : Property}
    (valid : property.isValidFor .disconnect = true) : 3 ≤ property.size := by
  have one : encodedLen 0x11 = 1 ∧ encodedLen 0x1C = 1 ∧ encodedLen 0x1F = 1 ∧
      encodedLen 0x26 = 1 := by decide
  cases property <;> simp [isValidFor, hasValidValue] at valid <;>
    simp only [size, identifier, one] <;> omega

namespace Disconnect

variable {disconnect : Disconnect} {packet : Bytes}

/-- The packet is the encoding of a DISCONNECT. -/
def EncodedAs (disconnect : Disconnect) (packet : Bytes) : Prop :=
  ∃ body, tokenBytes (ControlPacket.tokens disconnect) = some body ∧
    Framed packet (ControlPacket.fixedHeader disconnect).byte body

/-- No property is attached. -/
def Bare (disconnect : Disconnect) : Prop :=
  ∀ properties, disconnect.properties = some properties → properties = .slice []

/-- Attached properties are decoded and stand behind a reason code. -/
theorem Built.attached (built : disconnect.Built) {properties : Properties}
    (attached : disconnect.properties = some properties) :
    ∃ code list, disconnect.reasonCode = some code ∧ properties = .slice list := by
  cases built with
  | success => cases attached
  | withReason code => cases attached
  | withWill => cases attached
  | withProperties built list =>
    cases attached
    exact ⟨_, list, rfl, rfl⟩

/-- The workspace for control packets is large enough without properties. -/
theorem encode_of_bare (bare : disconnect.Bare) (encoded : disconnect.EncodedAs packet) :
    encode smallBuf disconnect = .ok packet := by
  -- Without properties the body is one or two bytes at most.
  obtain ⟨body, fields, framed⟩ := encoded
  have small : body.length ≤ 2 := by
    obtain ⟨code, properties⟩ := disconnect
    have empty : tokenBytes (Properties.slice []).tokens = some [0] := by decide
    cases properties with
    | none => cases code <;> cases fields <;> simp
    | some properties =>
      cases bare properties rfl
      simp only [ControlPacket.tokens, tokenBytes_append, empty] at fields
      cases code <;> cases fields <;> simp
  refine encode_of_fits fields ?_ ((frame_eq_some_iff (by omega)).mpr framed)
  have size : smallBuf.length = 9 := by decide
  simp only [size, maxFixedHeaderSize]
  omega

/-- A block with a property takes four bytes. -/
theorem length_of_attached {list : List Property} {bytes : Bytes} (some : list ≠ [])
    (valid : (Properties.slice list).validFor .disconnect = true)
    (encoded : tokenBytes (Properties.slice list).tokens = .some bytes) : 4 ≤ bytes.length := by
  -- The length byte, an identifier and the value of a property make up four bytes.
  rw [Properties.tokens_eq, tokenBytes_append, tokenBytes_varintTokens] at encoded
  simp only [Option.bind_eq_some_iff, Option.map_eq_some_iff] at encoded
  obtain ⟨len, written, block, content, rfl⟩ := encoded
  have size := Properties.size_of_listBytes content
  have first := writeMqttU32Varint_length written
  cases list with
  | nil => exact absurd rfl some
  | cons property rest =>
    have own : property.isValidFor .disconnect = true := by
      simp only [Properties.validFor, Properties.iter, List.map_cons, List.all_cons,
        Bool.and_eq_true] at valid
      exact valid.1
    have := property.size_of_disconnect own
    rw [List.map_cons, List.sum_cons] at size
    rw [List.length_append]
    omega

/-- The workspace for control packets is too small for any property. -/
theorem bare_of_encode (built : disconnect.Built)
    (valid : ∀ properties, disconnect.properties = some properties →
      properties.validFor .disconnect = true)
    (encoded : encode smallBuf disconnect = .ok packet) : disconnect.Bare := by
  obtain ⟨offset, placed⟩ : ∃ offset,
      (encodeWithOffset smallBuf disconnect).1 = .ok (offset, packet) := by
    unfold encode at encoded
    cases done : (encodeWithOffset smallBuf disconnect).1 with
    | error error =>
      rw [done] at encoded
      cases encoded
    | ok placed =>
      rw [done] at encoded
      cases encoded
      exact ⟨placed.1, rfl⟩
  obtain ⟨body, fields, occupies⟩ := encodeWithOffset_eq_ok_iff.mp placed
  have room : maxFixedHeaderSize + body.length ≤ 9 := occupies.fits
  intro properties attached
  have valid := valid properties attached
  obtain ⟨code, list, reason, rfl⟩ := built.attached attached
  by_contra some
  -- Behind the reason code, four bytes are too many.
  simp only [ControlPacket.tokens, reason, attached, tokenBytes_append, tokenBytes_push,
    Option.bind_eq_some_iff, Option.map_eq_some_iff] at fields
  obtain ⟨front, first, block, encoded, rfl⟩ := fields
  cases first
  have long := length_of_attached (fun none => some (none ▸ rfl)) valid encoded
  rw [List.length_append, List.length_singleton, maxFixedHeaderSize] at room
  omega

end Disconnect

namespace Outbound

variable {outbound : Outbound} {P : SendState → Nat → Prop}

/-- What holds for every tracked packet and its length, queue by queue. -/
theorem forall_slots_iff : (∀ slot ∈ outbound.slots, P slot.2 slot.1.len) ↔
    (∀ entry ∈ outbound.pendingControl.toList, P entry.state entry.action.wire.length) ∧
    (∀ entry ∈ outbound.pendingRelease.toList,
      P entry.state (releaseWire entry.packetId entry.reason).length) ∧
    ∀ entry ∈ outbound.retained.toList, P entry.state entry.len := by
  -- Control and retained packets are numbered on the way, which does not matter here.
  have controls (index : Nat) (entries : List PendingControl) :
      (∀ slot ∈ controlSlots index entries, P slot.2 slot.1.len) ↔
        ∀ entry ∈ entries, P entry.state entry.action.wire.length := by
    induction entries generalizing index with
    | nil => simp [controlSlots]
    | cons entry rest ih =>
      rw [controlSlots, List.forall_mem_cons, List.forall_mem_cons, ih]
      rfl
  have retained (offset : Nat) (entries : List RetainedPacket) :
      (∀ slot ∈ retainedSlots offset entries, P slot.2 slot.1.len) ↔
        ∀ entry ∈ entries, P entry.state entry.len := by
    induction entries generalizing offset with
    | nil => simp [retainedSlots]
    | cons entry rest ih =>
      rw [retainedSlots, List.forall_mem_cons, List.forall_mem_cons, ih]
      rfl
  rw [slots, List.forall_mem_append, List.forall_mem_append, controls, retained,
    List.forall_mem_map]
  rfl

end Outbound

namespace Connection

/-- No packet that is to be written exceeds the limit of the broker. -/
def Fitting (connection : Connection) : Prop :=
  ∀ slot ∈ connection.outbound.slots, slot.2.Unwritten →
    exceeds connection.runtime.maximumPacketSize slot.1.len = false

variable {connection : Connection}

/-- The limit is kept queue by queue. -/
theorem fitting_iff : connection.Fitting ↔
    (∀ entry ∈ connection.outbound.pendingControl.toList, entry.state.Unwritten →
      exceeds connection.runtime.maximumPacketSize entry.action.wire.length = false) ∧
    (∀ entry ∈ connection.outbound.pendingRelease.toList, entry.state.Unwritten →
      exceeds connection.runtime.maximumPacketSize
        (releaseWire entry.packetId entry.reason).length = false) ∧
    ∀ entry ∈ connection.outbound.retained.toList, entry.state.Unwritten →
      exceeds connection.runtime.maximumPacketSize entry.len = false :=
  Outbound.forall_slots_iff (P := fun state len => state.Unwritten →
    exceeds connection.runtime.maximumPacketSize len = false)

/-- What is written next is within the limit. -/
theorem Fitting.free {now : Nat} (fitting : connection.Fitting)
    (identified : connection.outbound.Identified)
    (ping : exceeds connection.runtime.maximumPacketSize 2 = false) : ¬ connection.Barred now := by
  -- A packet in the queues is within the limit, and so is a PINGREQ.
  intro barred
  cases barred with
  | packet idle next large =>
    obtain ⟨front, back, split, -⟩ := (Outbound.at_of_nextStep next).1.slots identified
    have small := fitting _ (split ▸ List.mem_append_right _ (.head _)) ⟨_, rfl⟩
    rw [OutboundStep.len_advance, large] at small
    cases small
  | ping quiet due large =>
    rw [large] at ping
    cases ping

end Connection

/-- Writing, flushing and keepalive keep a live connection within the limit. -/
theorem Outflow.fitting {before after : ClientMoment} (step : Outflow τ before after)
    (alive : after.self.live = true) (identified : before.self.outbound.Identified)
    (ping : exceeds before.self.runtime.maximumPacketSize 2 = false)
    (fitting : before.self.Fitting) : after.self.Fitting := by
  -- A write changes the progress of one packet, and only a PINGREQ is added.
  cases step with
  | tick later => exact fitting
  | flushing alive ready => exact fitting
  | disconnected => cases alive
  | @wrote step current count now live idle next encoded positive within later =>
    have limit : (before.self.afterWrite step current count now).runtime.maximumPacketSize =
        before.self.runtime.maximumPacketSize := by
      unfold Connection.afterWrite
      dsimp only
      split <;> rfl
    cases writeStep_eq_load encoded
    obtain ⟨front, back, split, changed⟩ := (Outbound.at_of_nextStep next).1.slots identified
    unfold Connection.Fitting at fitting ⊢
    dsimp only
    rw [limit, Connection.afterWrite_outbound, Outbound.load_packet, changed]
    rw [split, List.forall_mem_append, List.forall_mem_cons] at fitting
    rw [List.forall_mem_append, List.forall_mem_cons]
    exact ⟨fitting.1, fun _ => fitting.2.1 ⟨_, rfl⟩, fitting.2.2⟩
  | flushed live flushing later =>
    have all := Connection.fitting_iff.mp fitting
    have still {state : SendState} (unwritten : (Outbound.flushedState state).Unwritten) :
        state.Unwritten := by
      cases state with
      | write written => exact ⟨written, rfl⟩
      | flush => obtain ⟨written, no⟩ := unwritten; cases no
      | sent => exact unwritten
    refine Connection.fitting_iff.mpr ⟨fun entry found => ?_, fun entry found => ?_,
      fun entry found => ?_⟩
    · exact all.1 entry (List.mem_of_mem_filter (FixedVec.toList_filter .. ▸ found))
    · obtain ⟨old, known, rfl⟩ := List.mem_map.mp (FixedVec.toList_map .. ▸ found)
      exact fun unwritten => all.2.1 old known (still unwritten)
    · obtain ⟨old, known, rfl⟩ := List.mem_map.mp (FixedVec.toList_map .. ▸ found)
      exact fun unwritten => all.2.2 old known (still unwritten)
  | pinged live quiet due queued =>
    have all := Connection.fitting_iff.mp fitting
    obtain ⟨pendingControl, rfl, appended⟩ := Outbound.controls_of_queueControl queued
    refine Connection.fitting_iff.mpr ⟨fun entry found => ?_, all.2.1, all.2.2⟩
    rw [show (before.self.mapOutbound fun _ => _).outbound.pendingControl = pendingControl from rfl,
      appended, List.mem_append, List.mem_singleton] at found
    rcases found with found | rfl
    · exact all.1 entry found
    · exact fun _ => ping

/-- Writing, flushing and keepalive keep a live connection within the limit. -/
theorem Flow.fitting {config : ConfigBuilder} {clock : Clock} {before after : ClientMoment}
    (moves : Moves τ (start config clock : ClientWorld τ).moment before)
    (flow : Flow τ before after) (alive : after.self.live = true)
    (ping : exceeds before.self.runtime.maximumPacketSize 2 = false)
    (fitting : before.self.Fitting) : after.self.Fitting := by
  -- The identifiers are distinct at every moment of a run.
  induction flow with
  | refl => exact fitting
  | tail flow step ih =>
    have live := step.alive alive
    refine step.fitting alive (Moves.sending (moves.trans (Flow.steps flow).moves)).1.identified ?_
      (ih live)
    rw [Flow.maximumPacketSize flow]
    exact ping

/-- A willing transport accepts all bytes, with one call for each of them at most. -/
theorem writeAll_willing (bytes : Bytes) (willing : Willing world.replies)
    (enough : bytes.length ≤ world.replies.length) :
    wp (writeAll bytes : Client τ (Error τ) Unit)
      (fun _ after => after.replies <:+ world.replies ∧
        world.replies.length ≤ after.replies.length + bytes.length)
      (fun _ _ => False) world := by
  unfold writeAll
  simp only [wp_bind, wp_rounds]
  -- Every round uses a reply and accepts a byte.
  refine wp_iterate_measure (fun remaining current => current.replies <:+ world.replies ∧
      remaining.length ≤ current.replies.length ∧
      world.replies.length + remaining.length ≤ current.replies.length + bytes.length)
    (fun current => current.replies.length) ⟨List.suffix_refl _, enough, Nat.le_refl _⟩ (by omega) ?_
  rintro remaining current ⟨suffix, room, used⟩
  simp only [wp_ite, wp_pure, wp_bind]
  split
  · exact ⟨suffix, by omega⟩
  · rename_i some
    have positive := List.length_pos_iff.mpr some
    cases script : current.replies with
    | nil =>
      rw [script, List.length_nil] at room
      omega
    | cons reply rest =>
      have found : reply ∈ world.replies := suffix.subset (script ▸ .head _)
      refine wp_write_settled script (willing.settles reply found) (fun error fail => ?_)
        (fun none => absurd none some) (fun count positive within => ?_)
      · exact willing.never_fails error (fail ▸ found)
      · rw [script, List.length_cons] at room used
        simp only [Nat.ne_of_gt positive, if_false, wp_pure, World.record]
        refine ⟨⟨List.IsSuffix.trans ⟨[reply], script.symm⟩ suffix, ?_, ?_⟩, by simp⟩
        · rw [List.length_drop]
          omega
        · rw [List.length_drop]
          omega

/--
A graceful disconnect: everything that was queued is sent, and then exactly one more packet.

The packet is handed to the transport in chunks and flushed, and the connection is dead.
-/
structure Graceful (packet : Bytes) (before after : ClientWorld τ) : Prop where
  /-- The connection first finishes its work, and then hands the packet over. -/
  handed : ∃ (middle : ClientMoment) (chunks : List Bytes), Flow τ before.moment middle ∧
    middle.self.live = true ∧ middle.self.Quiet ∧ chunks.flatten = packet ∧
    after.moment = { middle with
      self := middle.self.handleDisconnect
      trace := middle.trace ++ handover packet chunks [.flushing, .flushed] }
  /-- The connection is dead. -/
  dead : after.self.live = false

/-- With a willing transport and no packet that is too large, the last packet is sent. -/
theorem sendDisconnect_willing {config : ConfigBuilder} {clock : Clock} {packet : Bytes}
    (moves : Moves τ (start config clock : ClientWorld τ).moment world.moment)
    (alive : world.self.live = true) (fitting : world.self.Fitting) (two : 2 ≤ packet.length)
    (sized : exceeds world.self.runtime.maximumPacketSize packet.length = false)
    (willing : Willing world.replies)
    (enough : world.self.workload + (packet.length + 1) ≤ world.replies.length) :
    wp (sendDisconnect packet) (fun _ after => Graceful packet world after) (fun _ _ => False)
      world := by
  have provisioned : Provisioned (packet.length + 1) world := ⟨willing.settles, enough⟩
  have ping := exceeds_of_le two sized
  unfold sendDisconnect writeTerminal
  have size : exceeds world.self.session.runtime.maximumPacketSize packet.length = false := sized
  simp only [currentSession, wp_bind, wp_self, wp_pure, wp_ofExcept, RuntimeState.requirePacketSize,
    size, Bool.false_eq_true, if_false]
  refine wp_mono (flushOutbound_settled moves alive provisioned) (fun _ middle done => ?_)
    (fun stop after failed => ?_)
  · obtain ⟨flow, alive, quiet, provisioned, suffix⟩ := done
    have room := provisioned.enough
    have willing : Willing middle.replies := fun reply found => willing reply (suffix.subset found)
    simp only [disconnected, wp_bind, wp_note, wp_attempt, wp_update, wp_ofExcept]
    have write := @writeAll_willing τ (middle.record (.noted (.direct packet))) packet willing
      (by simp only [World.record]; omega)
    refine wp_mono (wp_and write (writeAll_spec packet)) (fun _ after done => ?_)
      (fun _ _ no => no.1.elim)
    obtain ⟨⟨suffix, used⟩, chunks, whole, moved⟩ := done
    rw [wp_bind]
    -- One reply is left for the flush.
    cases script : after.replies with
    | nil =>
      simp only [script, World.record, List.length_nil] at used
      omega
    | cons reply rest =>
      have found : reply ∈ middle.replies := suffix.subset (script ▸ .head _)
      refine wp_flush_settled script (willing.settles reply found) (fun error fail => ?_) ?_
      · exact absurd (fail ▸ found) (willing.never_fails error)
      · simp only [World.moment, Moment.mk.injEq] at moved
        refine ⟨⟨middle.moment, chunks, flow, alive, quiet, whole, ?_⟩, rfl⟩
        obtain ⟨own, trace, time⟩ := moved
        simp only [World.moment, World.record, Moment.mk.injEq]
        refine ⟨congrArg _ own, ?_, time⟩
        rw [trace]
        simp [handover, World.record]
  · obtain ⟨middle, now, flow, alive, -, suffix, stopped⟩ := failed
    have reached := moves.trans flow.steps.moves
    cases stopped with
    | failed failed =>
      obtain ⟨error, found, -⟩ := failed.reply
      exact willing.never_fails error (suffix.subset found)
    | barred large same unchanged =>
      refine (Flow.fitting moves flow alive ping fitting).free (Moves.sending reached).1.identified
        ?_ large
      rw [show _ = _ from flow.maximumPacketSize]
      exact ping

theorem Disconnect.EncodedAs.two {disconnect : Disconnect} {packet : Bytes}
    (encoded : disconnect.EncodedAs packet) : 2 ≤ packet.length := by
  obtain ⟨body, -, len, written, rfl⟩ := encoded
  have := writeMqttU32Varint_length written
  rw [List.length_cons, List.length_append]
  omega

/--
With a transport that takes every byte, a DISCONNECT is sent as it was built, behind everything that
was queued, exactly if no property is attached to it.

It is encoded in the workspace of an acknowledgement, where no property finds room.
-/
theorem disconnectWith_graceful (config : ConfigBuilder) (clock : Clock)
    (calls : List (Invocation π τ)) (world : ClientWorld τ)
    (reached : ∃ replies, world = { run (start config clock) calls with replies := replies })
    (alive : world.self.live = true) (fitting : world.self.Fitting) (disconnect : Disconnect)
    (built : disconnect.Built)
    (valid : ∀ properties, disconnect.properties = some properties →
      properties.validFor .disconnect = true)
    (packet : Bytes) (encoded : disconnect.EncodedAs packet)
    (sized : exceeds world.self.runtime.maximumPacketSize packet.length = false)
    (willing : Willing world.replies)
    (enough : world.self.workload + (packet.length + 1) ≤ world.replies.length) :
    (∃ after, disconnectWith disconnect world = .ok () after ∧ Graceful packet world after) ↔
      disconnect.Bare := by
  have moves : Moves τ (start config clock : ClientWorld τ).moment world.moment := by
    obtain ⟨replies, rfl⟩ := reached
    exact ((settled_start config clock).run calls).moves
  have checked : disconnect.properties.any (!·.validFor .disconnect) = false := by
    cases attached : disconnect.properties with
    | none => rfl
    | some properties => simp [valid properties attached]
  constructor
  · rintro ⟨after, done, -⟩
    cases small : encode smallBuf disconnect with
    | ok bytes => exact Disconnect.bare_of_encode built valid small
    | error error =>
      -- Without an encoding nothing is sent.
      have spec : wp (disconnectWith disconnect : Client τ (Error τ) Unit) (fun _ _ => False)
          (fun _ _ => True) world := by
        unfold disconnectWith
        simp only [wp_bind, wp_self, alive, checked, small, Bool.not_true, Bool.false_eq_true,
          if_false, wp_fail]
      unfold wp at spec
      rw [done] at spec
      exact spec.elim
  · intro bare
    have spec : wp (disconnectWith disconnect : Client τ (Error τ) Unit)
        (fun _ after => Graceful packet world after) (fun _ _ => False) world := by
      unfold disconnectWith
      simp only [wp_bind, wp_self, alive, checked, Disconnect.encode_of_bare bare encoded,
        Bool.not_true, Bool.false_eq_true, if_false]
      exact sendDisconnect_willing moves alive fitting encoded.two sized willing enough
    unfold wp at spec
    cases result : disconnectWith disconnect world with
    | ok value after =>
      rw [result] at spec
      exact ⟨after, rfl, spec⟩
    | error stop after =>
      rw [result] at spec
      exact spec.elim

/-- A DISCONNECT with an empty reason string. -/
def explainedDisconnect : Disconnect :=
  Disconnect.success.withProperties [.reasonString ⟨[], by decide⟩]

/-- Such a DISCONNECT is valid and has seven bytes, but it is refused for lack of memory. -/
theorem disconnectWith_graceful_explained :
    let world := run (start (smallConfig 60) (steppingClock 1 4)) [acceptedConnect]
    let call : Invocation Unit Unit :=
      ⟨.disconnectWith explainedDisconnect, List.replicate 64 (.ready 64)⟩
    explainedDisconnect.Built ∧ explainedDisconnect.EncodedAs [0xE0, 5, 0, 3, 0x1F, 0, 0] ∧
    world.self.live = true ∧ world.self.outbound.hasPendingState = false ∧
    world.self.runtime.maximumPacketSize = none ∧
    call.failure world = some (.resource .bufferTooSmall) ∧
    (call.perform world).2.self.live = true ∧
    (call.perform world).2.trace.length = world.trace.length := by
  -- The workspace has nine bytes, five of which are kept for the header.
  refine ⟨.withProperties .success _, ⟨[0, 3, 0x1F, 0, 0], by decide, [5], by decide, rfl⟩, ?_⟩
  decide +kernel

/-- A DISCONNECT that asks for the Will is sent. -/
theorem disconnectWith_graceful_will :
    let world : ClientWorld Unit :=
      { run (start (smallConfig 60) (steppingClock 1 4)) sentPublication with
        replies := List.replicate 64 (.ready 64) }
    ∃ after, disconnectWith .withWill world = .ok () after ∧ Graceful [0xE0, 1, 4] world after := by
  -- The broker sets no limit, and every reply grants enough bytes.
  intro world
  refine (disconnectWith_graceful (smallConfig 60) (steppingClock 1 4) sentPublication world
    ⟨_, rfl⟩ (by decide +kernel) ?_ .withWill .withWill nofun [0xE0, 1, 4]
    ⟨[4], by decide, [1], by decide, rfl⟩ (by decide +kernel) ?_ (by decide +kernel)).mpr nofun
  · have none : world.self.runtime.maximumPacketSize = none := by decide +kernel
    intro slot _ _
    simp [none, exceeds]
  · intro reply found
    exact ⟨64, by decide, List.eq_of_mem_replicate found⟩

end Minimq

import Minimq.Proofs.Client.Frame
import Minimq.Proofs.Client.Latch

/-! Admission is all or nothing: a request is taken on as a whole, or nothing is taken on. -/

namespace Minimq

open Hoare Async

variable {α ε π τ : Type} {world : ClientWorld τ} {before after : ClientMoment}
variable {failed : ε → PubError π τ} {returned : α → Value} {packetId : UInt16} {base : Holdings}
  {kind : OpKind}

/-- What a session has taken on, without the progress of its packets. -/
structure Holdings where
  /-- The retained packets: operation, identifier, length and bytes in the arena. -/
  retained : List (OpKind × UInt16 × Nat × Bytes)
  releases : List UInt16
  /-- The inbound QoS 2 publications that wait for their PUBREL. -/
  pendingServerPacketIds : List UInt16
  /-- How many more publications may be under way. -/
  sendQuota : Nat
  /-- How often the session was started over. -/
  generation : UInt32
  deriving DecidableEq

/-- One more operation. -/
def Holdings.admit (holdings : Holdings) (kind : OpKind) (packetId : UInt16) (packet : Bytes) :
    Holdings :=
  { holdings with
    retained := holdings.retained ++ [(kind, packetId, packet.length, packet)]
    sendQuota := if kind.isPublish then holdings.sendQuota - 1 else holdings.sendQuota }

/-- A retained packet without its progress. -/
def RetainedPacket.holding (content : RetainedPacket × Bytes) : OpKind × UInt16 × Nat × Bytes :=
  (content.1.kind, content.1.packetId, content.1.len, content.2)

/-- What a connection has taken on. -/
def Connection.holdings (connection : Connection) : Holdings where
  retained := connection.outbound.contents.map RetainedPacket.holding
  releases := connection.outbound.pendingRelease.toList.map (·.packetId)
  pendingServerPacketIds := connection.session.data.pendingServerPacketIds.toList
  sendQuota := connection.runtime.sendQuota
  generation := connection.session.data.generation

/-- The progress of retained packets does not matter. -/
theorem Outbound.holdings_of_key {buf : Bytes} {offset : Nat} {entries others : List RetainedPacket}
    (same : others.map RetainedPacket.key = entries.map RetainedPacket.key) :
    (contentsFrom buf offset others).map RetainedPacket.holding =
      (contentsFrom buf offset entries).map RetainedPacket.holding := by
  -- The bytes are found by the lengths of the packets in front of them.
  induction entries generalizing others offset with
  | nil =>
    rw [List.map_nil, List.map_eq_nil_iff] at same
    rw [same]
  | cons entry rest ih =>
    obtain ⟨first, tail, rfl, keys, tails⟩ := List.map_eq_cons_iff.mp same
    simp only [RetainedPacket.key, Prod.mk.injEq] at keys
    obtain ⟨kind, packetId, len⟩ := keys
    simp only [contentsFrom, List.map_cons, RetainedPacket.holding, kind, packetId, len, ih tails]

/-- Two outbound states that differ at most in progress and in control packets. -/
structure Outbound.Kept (before after : Outbound) : Prop where
  /-- The same packets are retained. -/
  entries : after.retained.toList.map RetainedPacket.key =
    before.retained.toList.map RetainedPacket.key
  /-- The arena is the same. -/
  buf : after.buf = before.buf
  /-- The same releases are pending. -/
  releases : after.pendingRelease.toList.map (·.packetId) =
    before.pendingRelease.toList.map (·.packetId)

/-- Two connections that differ at most in progress, control packets and timers. -/
structure Connection.Kept (before after : Connection) : Prop where
  /-- The same packets are outbound. -/
  outbound : before.outbound.Kept after.outbound
  /-- The same inbound publications wait for their PUBREL. -/
  inbound : after.session.data.pendingServerPacketIds = before.session.data.pendingServerPacketIds
  /-- The quota is the same. -/
  quota : after.runtime.sendQuota = before.runtime.sendQuota
  /-- The session is the same. -/
  generation : after.session.data.generation = before.session.data.generation

namespace Outbound.Kept

variable {before middle after outbound : Outbound}

theorem refl : outbound.Kept outbound := ⟨rfl, rfl, rfl⟩

theorem trans (first : before.Kept middle) (second : middle.Kept after) : before.Kept after :=
  ⟨second.entries.trans first.entries, second.buf.trans first.buf,
    second.releases.trans first.releases⟩

theorem retainedBytes (kept : before.Kept after) : after.retainedBytes = before.retainedBytes := by
  have lens (entries : List RetainedPacket) : bytesOf entries =
      ((entries.map RetainedPacket.key).map fun key => key.2.2).sum := by
    rw [List.map_map]
    rfl
  rw [Outbound.retainedBytes, Outbound.retainedBytes, lens, lens, kept.entries]

theorem packetEncoding [ControlPacket α] (kept : before.Kept after) (packet : α) :
    after.packetEncoding packet = before.packetEncoding packet := by
  unfold Outbound.packetEncoding scratchSpace
  rw [kept.retainedBytes, kept.buf]

theorem setWritten (packet : Packet) (written len : Nat) :
    outbound.Kept (outbound.setWritten written len packet) := by
  cases packet with
  | control index => exact ⟨rfl, rfl, rfl⟩
  | release packetId => exact ⟨rfl, rfl, FixedVec.map_toList_modify fun _ => rfl⟩
  | retained packetId => exact ⟨FixedVec.map_toList_modify fun _ => rfl, rfl, rfl⟩

end Outbound.Kept

namespace Connection

variable {before middle after connection : Connection}

theorem Kept.refl : connection.Kept connection := ⟨.refl, rfl, rfl, rfl⟩

theorem Kept.trans (first : before.Kept middle) (second : middle.Kept after) : before.Kept after :=
  ⟨first.outbound.trans second.outbound, second.inbound.trans first.inbound,
    second.quota.trans first.quota, second.generation.trans first.generation⟩

theorem Kept.holdings (kept : before.Kept after) : after.holdings = before.holdings := by
  unfold Connection.holdings Outbound.contents
  rw [kept.outbound.buf, kept.outbound.releases, kept.inbound, kept.quota, kept.generation,
    Outbound.holdings_of_key kept.outbound.entries]

theorem contents_of_same {buf : Bytes}
    (kept : SameUpTo connection.outbound.retainedBytes connection.outbound.buf buf) :
    Outbound.contentsFrom buf 0 connection.outbound.retained.toList =
      connection.outbound.contents :=
  Outbound.contentsFrom_congr kept.kept

theorem holdings_scratched {buf : Bytes}
    (kept : SameUpTo connection.outbound.retainedBytes connection.outbound.buf buf) :
    (connection.mapOutbound fun outbound => { outbound with buf }).holdings =
      connection.holdings :=
  congrArg (fun contents => Holdings.mk (contents.map RetainedPacket.holding) _ _ _ _)
    (contents_of_same kept)

/-- An admitted operation is taken on with its packet. -/
theorem holdings_enlist {packet buf : Bytes} {retained : FixedVec RetainedPacket maxRetained}
    (admissible : Admissible connection kind packetId packet buf retained) :
    (connection.enlist kind buf retained).holdings =
      connection.holdings.admit kind packetId packet := by
  -- The packet is placed behind all others, so the bytes of those are the same.
  have new : ({ connection.outbound with buf, retained } : Outbound).contents =
      connection.outbound.contents ++ [(⟨kind, packetId, packet.length, .write 0⟩, packet)] := by
    rw [Outbound.contents, FixedVec.toList_of_push admissible.slot, Outbound.contentsFrom_append,
      contents_of_same admissible.kept, Nat.zero_add]
    exact congrArg (fun bytes => _ ++ [(_, bytes)]) admissible.placed
  unfold holdings Holdings.admit
  rw [enlist_outbound, new, List.map_append]
  unfold enlist
  dsimp only
  split <;> rfl

end Connection

/-- Writing, flushing and keepalive keep what a live connection has taken on. -/
theorem Outflow.kept (step : Outflow τ before after)
    (alive : after.self.live = true) : before.self.Kept after.self := by
  -- A write changes progress only, and a flush forgets nothing that is tracked.
  cases step with
  | tick later => exact .refl
  | flushing live ready => exact ⟨.refl, rfl, rfl, rfl⟩
  | disconnected => cases alive
  | @wrote step current count now live idle next encoded positive within later =>
    refine ⟨Connection.afterWrite_outbound ▸ .setWritten _ _ _, ?_, ?_, ?_⟩
    all_goals
      unfold Connection.afterWrite
      dsimp only
      split <;> rfl
  | flushed live flushing later =>
    exact ⟨⟨List.map_map, rfl, List.map_map⟩, rfl, rfl, rfl⟩
  | pinged live quiet due queued =>
    obtain ⟨controls, rfl, -⟩ := Outbound.controls_of_queueControl queued
    exact ⟨⟨rfl, rfl, rfl⟩, rfl, rfl, rfl⟩

theorem Flow.kept (flow : Flow τ before after)
    (alive : after.self.live = true) : before.self.Kept after.self := by
  induction flow with
  | refl => exact .refl
  | tail _ step ih => exact (ih (step.alive alive)).trans (step.kept alive)

/-- The errors that refuse a request and leave the connection alone. -/
def Error.isRefusal : Error τ → Bool
  | .invalidRequest | .notReady | .resource .inflightExhausted | .resource .bufferTooSmall => true
  | _ => false

/-- The same for publications, whose payload may fail too. -/
def PubError.isRefusal : PubError π τ → Bool
  | .session error => error.isRefusal
  | .payload _ => true

theorem Error.isRefusal_of_isDeadly {error : Error τ} (deadly : error.isDeadly = true) :
    error.isRefusal = false := by
  cases error with
  | resource cause => cases deadly
  | notReady => cases deadly
  | invalidRequest => cases deadly
  | _ => rfl

/-- A request that was refused took nothing on. -/
def Declined (refusal : ε → Bool) (base : Holdings) (stop : Stop ε) (after : ClientWorld τ) : Prop :=
  ∀ error, stop = .error error → refusal error = true → after.self.holdings = base

namespace Declined

variable {refusal : ε → Bool}

theorem of_dropped : Declined refusal base .dropped world := by simp [Declined]

theorem of_expired : Declined refusal base .expired world := by simp [Declined]

theorem of_kept {stop : Stop ε} (kept : world.self.holdings = base) :
    Declined refusal base stop world := fun _ _ _ => kept

theorem of_other {error : ε} (other : refusal error = false) :
    Declined refusal base (.error error) world := by
  rintro same ⟨rfl⟩ refused
  simp [other] at refused

end Declined

theorem Hindered.declined {stop : Stop (Error τ)} (hindered : Hindered stop world) :
    Declined Error.isRefusal base stop world := by
  cases stop with
  | dropped => exact .of_dropped
  | expired => exact .of_expired
  | error error =>
    -- An error of the flush is deadly or comes from the broker's limit.
    rcases hindered error rfl with ⟨-, deadly⟩ | rfl
    · exact .of_other (Error.isRefusal_of_isDeadly deadly)
    · exact .of_other rfl

theorem flushOutbound_kept (base : Holdings) (tidy : world.self.Tidy)
    (alive : world.self.live = true) :
    wp (flushOutbound : Client τ (Error τ) Unit)
      (fun _ after => Flow τ world.moment after.moment ∧ after.self.live = true)
      (fun stop after => Declined Error.isRefusal base stop after) world :=
  wp_mono (wp_and (flushOutbound_hindered tidy alive) (flushOutbound_spec .refl alive))
    (fun _ _ done => ⟨done.2.1, done.2.2.1⟩) (fun _ _ failed => failed.1.declined)

theorem flushOutbound_mapped_kept {Q : Unit → ClientWorld τ → Prop}
    (tidy : world.self.Tidy) (alive : world.self.live = true)
    (flushed : ∀ after : ClientWorld τ, Flow τ world.moment after.moment →
      after.self.live = true → Q () after) :
    wp (mapError .session flushOutbound) Q
      (fun stop after => Declined (PubError.isRefusal : PubError π τ → Bool) base stop after)
      world := by
  rw [wp_mapError]
  refine wp_mono (flushOutbound_kept base tidy alive) (fun _ after done => flushed after done.1 done.2)
    (fun stop after failed => ?_)
  -- Only an error can be a refusal, and it stays one under the other type.
  cases stop with
  | dropped => exact .of_dropped
  | expired => exact .of_expired
  | error error =>
    rintro same ⟨rfl⟩ refused
    exact failed error rfl refused

/-- An operation was admitted after outbound progress, and followed by more of it. -/
structure Granted (τ : Type) (op : Op) (packet : Bytes) (before after : ClientMoment) : Prop where
  /-- The connection is still live. -/
  alive : after.self.live = true
  /-- The handle belongs to the session. -/
  generation : op.generation = after.self.session.data.generation
  /-- Nothing but the choice of an identifier stands between the progress and the admission. -/
  admitted : ∃ (flushed : ClientMoment) (taken : Connection) (buf : Bytes)
      (retained : FixedVec RetainedPacket maxRetained),
    Flow τ before flushed ∧
    (∃ cursor, taken = flushed.self.mapData fun data => { data with packetId := cursor }) ∧
    Admissible taken op.kind op.packetId packet buf retained ∧
    Flow τ { flushed with
      self := taken.enlist op.kind buf retained
      trace := flushed.trace ++
        [.noted (.admitted taken.session.handling op.kind op.packetId packet)] } after

/-- An admitted operation is the only thing that was taken on. -/
theorem Granted.holdings {op : Op} {packet : Bytes} (granted : Granted τ op packet before after) :
    after.self.holdings = before.self.holdings.admit op.kind op.packetId packet ∧
      (op.kind.isPublish = true → 0 < before.self.holdings.sendQuota) := by
  -- Two flows surround the admission, and neither takes anything on.
  obtain ⟨alive, -, flushed, taken, buf, retained, first, ⟨cursor, rfl⟩, admissible, second⟩ :=
    granted
  have kept := first.kept admissible.alive
  refine ⟨?_, fun publish => ?_⟩
  · rw [(second.kept alive).holdings, Connection.holdings_enlist admissible, ← kept.holdings]
    rfl
  · have quota : flushed.self.runtime.sendQuota ≠ 0 := admissible.quota publish
    rw [← kept.holdings]
    exact Nat.pos_of_ne_zero quota

theorem Admissible.tidy {connection : Connection}
    {packet buf : Bytes} {retained : FixedVec RetainedPacket maxRetained}
    (admissible : Admissible connection kind packetId packet buf retained)
    (tidy : connection.Tidy) : (connection.enlist kind buf retained).Tidy :=
  @Step.tidy Unit ⟨connection, [], 0⟩ _ (.admitted admissible) tidy

/-- Sending a request admits it, or takes nothing on. -/
theorem sendRequest_granted [ControlPacket α] {packet : UInt16 → α}
    (tidy : world.self.Tidy) (alive : world.self.live = true) (request : kind.isPublish = false)
    (legal : ∀ {packetId buf offset bytes},
      (encodeWithOffset buf (packet packetId)).1 = .ok (offset, bytes) →
        OpPacket kind packetId bytes) :
    wp (sendRequest kind packet : Client τ (Error τ) Op)
      (fun op after => op.kind = kind ∧ ∃ offset bytes,
        (world.self.outbound.packetEncoding (packet op.packetId)).1 = .ok (offset, bytes) ∧
        Granted τ op bytes world.moment after.moment)
      (fun stop after => Declined Error.isRefusal world.self.holdings stop after) world := by
  -- The request is encoded into the same arena that the caller saw, because flushing keeps it.
  unfold sendRequest
  rw [wp_bind]
  refine wp_mono (flushOutbound_kept _ tidy alive) (fun _ middle flushed => ?_) (fun _ _ => id)
  obtain ⟨first, alive⟩ := flushed
  have kept := first.kept alive
  have tidy := first.tidy tidy
  simp only [currentOutbound, currentSession, wp_bind, wp_self, wp_pure, wp_ofExcept]
  split
  · refine wp_mono takePacketId_cursor (fun packetId taken chosen => ?_) (fun _ _ stopped => ?_)
    · obtain ⟨⟨cursor, rfl⟩, nonzero, unused⟩ := chosen
      rw [wp_bind]
      refine wp_mono (admitRequest_cases (by exact alive) nonzero (by exact unused) request legal)
        (fun _ after admitted => ?_) (fun _ after refused => ?_)
      · obtain ⟨offset, bytes, buf, retained, encoded, admissible, rfl⟩ := admitted
        have encoded := (congrArg Prod.fst (kept.outbound.packetEncoding _)).symm.trans encoded
        simp only [wp_bind]
        refine wp_mono (flushOutbound_kept _ (admissible.tidy (tidy.of_same rfl rfl rfl))
          (Connection.enlist_live.trans alive)) (fun _ after flushed => ?_) (fun _ _ => id)
        exact ⟨rfl, offset, bytes, encoded, flushed.2, rfl, middle.moment, _, buf, retained, first,
          ⟨cursor, rfl⟩, admissible, flushed.1⟩
      · obtain ⟨buf, scratched, rfl⟩ := refused
        exact .of_kept ((Connection.holdings_scratched scratched).trans kept.holdings)
    · rw [stopped.1]
      exact .of_dropped
  · exact .of_kept kept.holdings

/-- Publishing with an acknowledgement admits the publication, or takes nothing on. -/
theorem publishRetained_granted {header : PublishHeader} {payload : Payload π}
    {cursor : NonZeroId} (tidy : world.self.Tidy) (alive : world.self.live = true)
    (nonzero : packetId ≠ 0) (unused : world.self.session.data.isLive packetId = false)
    (identified : header.packetId = some packetId) (level : header.qos ≠ .atMostOnce) :
    wp (publishRetained header payload packetId : Client τ (PubError π τ) (Option Op))
      (fun result after => ∀ op, result = some op → op.kind = publishKind header.qos ∧
        op.packetId = packetId ∧ ∃ offset bytes,
          (world.self.outbound.publishEncoding header payload).1 = .ok (offset, bytes) ∧
          Granted τ op bytes world.moment after.moment)
      (fun stop after => Declined PubError.isRefusal world.self.holdings stop after)
      { world with
        self := world.self.mapData fun data => { data with packetId := cursor } } := by
  -- The rule leaves three ways to end, and only the last one is an admission.
  refine publishRetained_rule (by exact alive) nonzero (by exact unused) identified level
    (fun error buf kept => ?_) (fun error buf kept => ?_)
    (fun offset bytes buf retained encoded admissible => ?_)
  · refine flushOutbound_mapped_kept (tidy.of_same rfl rfl rfl) alive (fun after flow alive => ?_)
    exact .of_kept ((flow.kept alive).holdings.trans (Connection.holdings_scratched kept))
  · exact .of_kept (Connection.holdings_scratched kept)
  · refine flushOutbound_mapped_kept (admissible.tidy (tidy.of_same rfl rfl rfl))
      (Connection.enlist_live.trans alive) (fun after flow alive => ?_)
    rintro op ⟨rfl⟩
    exact ⟨rfl, rfl, offset, bytes, encoded, alive, rfl, world.moment, _, buf, retained, .refl,
      ⟨cursor, rfl⟩, admissible, flow⟩

/-- Publishing without an acknowledgement takes nothing on. -/
theorem publishDirect_declined {header : PublishHeader} {payload : Payload π}
    (tidy : world.self.Tidy) (alive : world.self.live = true) :
    wp (publishDirect header payload : Client τ (PubError π τ) (Option Op))
      (fun result _ => result = none)
      (fun stop after => Declined PubError.isRefusal world.self.holdings stop after) world := by
  unfold publishDirect
  simp only [wp_bind, wp_self, wp_ite]
  split
  · exact flushOutbound_mapped_kept tidy alive fun after flow alive =>
      .of_kept (flow.kept alive).holdings
  · refine flushOutbound_mapped_kept tidy alive fun middle flow alive => ?_
    have kept := (flow.kept alive).holdings
    rw [wp_bind]
    refine wp_mono encodeScratch_cases (fun packet after done => ?_) (fun _ after failed => ?_)
    · -- From here on only the transport can fail.
      obtain ⟨-, buf, -, rfl⟩ := done
      simp only [currentSession, wp_bind, wp_self, wp_pure, wp_mapError, wp_ofExcept]
      split
      · have alive : (middle.self.mapOutbound fun outbound => { outbound with buf }).live = true :=
          alive
        simp only [alive, Bool.not_true, Bool.false_eq_true, if_false, wp_bind, wp_note, wp_attempt]
        refine wp_mono (writeAll_excused packet) (fun _ after _ => ?_) (fun stop after deadly => ?_)
        · rw [wp_bind]
          refine wp_flush (fun error rest _ => ?_) (fun rest _ => ?_) (fun rest => .of_dropped)
            (fun rest _ => .of_expired)
          · simp only [disconnected, wp_bind, wp_update, wp_fail]
            exact .of_other rfl
          · rfl
        · cases stop with
          | error error =>
            simp only [disconnected, wp_update, wp_fail]
            exact .of_other (Error.isRefusal_of_isDeadly (deadly error rfl))
          | dropped => exact .of_dropped
          | expired => exact .of_expired
      · rename_i error refused
        rw [RuntimeState.requirePacketSize_eq_error refused]
        exact .of_other rfl
    · obtain ⟨buf, scratched, rfl⟩ := failed
      exact .of_kept ((Connection.holdings_scratched scratched).trans kept)

/-- The request of a call is encoded in the free part of the arena, under the handle's identifier. -/
def Call.Encodes (connection : Connection) (op : Op) (packet : Bytes) : Call π → Prop
  | .publish publication => ∃ qos offset,
    effectiveQos connection.session publication.qos = some qos ∧ qos ≠ .atMostOnce ∧
    op.kind = publishKind qos ∧
    (connection.outbound.publishEncoding ⟨publication.topic, some op.packetId,
      publication.properties, publication.retain, qos, false⟩ publication.payload).1 =
      .ok (offset, packet)
  | .subscribe topics properties => op.kind = .subscribe ∧ ∃ offset,
    (connection.outbound.packetEncoding
      (Subscribe.mk op.packetId (.slice properties) topics)).1 = .ok (offset, packet)
  | .unsubscribe topics properties => op.kind = .unsubscribe ∧ ∃ offset,
    (connection.outbound.packetEncoding
      (Unsubscribe.mk op.packetId (.slice properties) topics)).1 = .ok (offset, packet)
  | _ => False

/-- A call of `publish` admits the publication, or takes nothing on. -/
theorem publish_granted (tidy : world.self.Tidy) (alive : world.self.live = true)
    (publication : Publication π) :
    wp (publish publication : Client τ (PubError π τ) (Option Op))
      (fun result after => ∀ op, result = some op → ∃ packet,
        (Call.publish publication).Encodes world.self op packet ∧
        Granted τ op packet world.moment after.moment)
      (fun stop after => Declined PubError.isRefusal world.self.holdings stop after) world := by
  -- Both levels that are retained take an identifier first.
  have retained (qos : QoS) (effective : effectiveQos world.self.session publication.qos = some qos)
      (level : qos ≠ .atMostOnce) :
      wp (do
        let packetId ← takePacketId
        publishRetained ⟨publication.topic, some packetId, publication.properties,
          publication.retain, qos, false⟩ publication.payload packetId :
          Client τ (PubError π τ) (Option Op))
        (fun result after => ∀ op, result = some op → ∃ packet,
          (Call.publish publication).Encodes world.self op packet ∧
          Granted τ op packet world.moment after.moment)
        (fun stop after => Declined PubError.isRefusal world.self.holdings stop after) world := by
    rw [wp_bind]
    refine wp_mono takePacketId_cursor (fun packetId taken chosen => ?_) (fun _ _ stopped => ?_)
    · obtain ⟨⟨cursor, rfl⟩, nonzero, unused⟩ := chosen
      refine wp_mono (publishRetained_granted tidy alive nonzero unused rfl level)
        (fun result after granted op same => ?_) (fun _ _ => id)
      obtain ⟨kind, rfl, offset, packet, encoded, granted⟩ := granted op same
      exact ⟨packet, ⟨qos, offset, effective, level, kind, encoded⟩, granted⟩
    · rw [stopped.1]
      exact .of_dropped
  unfold publish
  simp only [currentSession, wp_bind, wp_self, wp_ite, wp_fail, wp_pure, alive, Bool.not_true,
    Bool.false_eq_true, if_false]
  split
  · exact .of_kept rfl
  · cases effective : effectiveQos world.self.session publication.qos with
    | none => exact .of_kept rfl
    | some qos =>
      cases qos with
      | atMostOnce =>
        refine wp_mono (publishDirect_declined tidy alive) (fun result after none op same => ?_)
          (fun _ _ => id)
        rw [none] at same
        cases same
      | atLeastOnce => exact retained _ effective (by simp)
      | exactlyOnce => exact retained _ effective (by simp)

/-- A call of `subscribe` admits the request, or takes nothing on. -/
theorem subscribe_granted (tidy : world.self.Tidy) (alive : world.self.live = true)
    (topics : List TopicFilter) (properties : List Property) :
    wp (subscribe topics properties : Client τ (Error τ) Op)
      (fun op after => ∃ packet,
        (Call.subscribe topics properties : Call π).Encodes world.self op packet ∧
        Granted τ op packet world.moment after.moment)
      (fun stop after => Declined Error.isRefusal world.self.holdings stop after) world := by
  -- The checks before the request take nothing on.
  unfold subscribe
  simp only [wp_bind, wp_self, wp_ite, wp_fail, alive, Bool.not_true, Bool.false_eq_true, if_false]
  split
  · exact .of_kept rfl
  · split
    · exact .of_kept rfl
    · refine wp_mono (sendRequest_granted tidy alive rfl fun encoded => .subscribe encoded)
        (fun op after granted => ?_) (fun _ _ => id)
      obtain ⟨kind, offset, packet, encoded, granted⟩ := granted
      exact ⟨packet, ⟨kind, offset, encoded⟩, granted⟩

/-- A call of `unsubscribe` admits the request, or takes nothing on. -/
theorem unsubscribe_granted (tidy : world.self.Tidy) (alive : world.self.live = true)
    (topics : List Utf8) (properties : List Property) :
    wp (unsubscribe topics properties : Client τ (Error τ) Op)
      (fun op after => ∃ packet,
        (Call.unsubscribe topics properties : Call π).Encodes world.self op packet ∧
        Granted τ op packet world.moment after.moment)
      (fun stop after => Declined Error.isRefusal world.self.holdings stop after) world := by
  -- The checks before the request take nothing on.
  unfold unsubscribe
  simp only [wp_bind, wp_self, wp_ite, wp_fail, alive, Bool.not_true, Bool.false_eq_true, if_false]
  split
  · exact .of_kept rfl
  · split
    · exact .of_kept rfl
    · refine wp_mono (sendRequest_granted tidy alive rfl fun encoded => .unsubscribe encoded)
        (fun op after granted => ?_) (fun _ _ => id)
      obtain ⟨kind, offset, packet, encoded, granted⟩ := granted
      exact ⟨packet, ⟨kind, offset, encoded⟩, granted⟩

/-- What a program that returned a value left behind. -/
theorem post_of_resultOf {value : Value}
    {program : Client τ ε α} {Q : α → ClientWorld τ → Prop} {E : Stop ε → ClientWorld τ → Prop}
    (spec : wp program Q E world) (result : resultOf failed returned (program world) = .ok value) :
    ∃ actual, returned actual = value ∧ Q actual (finish (program world)).2 := by
  revert spec result
  unfold wp
  cases program world with
  | ok actual after => exact fun post result => ⟨actual, Except.ok.inj result, post⟩
  | error stop after =>
    intro _ result
    cases stop <;> cases result

theorem returned_of_resultOf {value : Value} {result : EStateM.Result (Stop ε) (ClientWorld τ) α}
    (same : resultOf failed returned result = .ok value) : ∃ actual, returned actual = value := by
  cases result with
  | ok actual after => exact ⟨actual, Except.ok.inj same⟩
  | error stop after => cases stop <;> cases same

/-- What a program that was refused left behind. -/
theorem holdings_of_resultOf {refusal : ε → Bool} {error : PubError π τ} {program : Client τ ε α}
    {Q : α → ClientWorld τ → Prop} (same : ∀ cause, (failed cause).isRefusal = refusal cause)
    (spec : wp program Q (fun stop after => Declined refusal base stop after) world)
    (result : resultOf failed returned (program world) = .error (.error error))
    (refused : error.isRefusal = true) : (finish (program world)).2.self.holdings = base := by
  -- The result of the call tells how the program ended.
  revert spec result
  unfold wp
  cases program world with
  | ok actual after =>
    intro _ result
    cases result
  | error stop after =>
    intro declined result
    cases stop with
    | dropped => cases result
    | expired => cases result
    | error cause =>
      cases result
      exact declined cause rfl ((same cause).symm.trans refused)

/-- Whether a call asks for an operation. -/
def Call.isRequest : Call π → Bool
  | .publish _ | .subscribe _ _ | .unsubscribe _ _ => true
  | _ => false

/-- A request that is refused takes nothing on. -/
theorem Invocation.holdings_of_refused (tidy : world.self.Tidy) (alive : world.self.live = true)
    (invocation : Invocation π τ) (request : invocation.call.isRequest = true)
    {error : PubError π τ} (failed : invocation.result world = .error (.error error))
    (refused : error.isRefusal = true) :
    (invocation.perform world).2.self.holdings = world.self.holdings := by
  -- Only these three calls can be refused.
  obtain ⟨call, replies⟩ := invocation
  have tidy : ({ world with replies } : ClientWorld τ).self.Tidy := tidy
  cases call with
  | publish publication =>
    exact holdings_of_resultOf (fun _ => rfl) (publish_granted tidy alive publication) failed refused
  | subscribe topics properties =>
    exact holdings_of_resultOf (fun _ => rfl)
      (@subscribe_granted π _ _ tidy alive topics properties) failed refused
  | unsubscribe topics properties =>
    exact holdings_of_resultOf (fun _ => rfl)
      (@unsubscribe_granted π _ _ tidy alive topics properties) failed refused
  | _ => cases request

/-- A handle is returned only for an operation that was admitted. -/
theorem Invocation.granted (tidy : world.self.Tidy) (alive : world.self.live = true)
    (invocation : Invocation π τ) {op : Op}
    (returned : invocation.result world = .ok (.op (some op))) : ∃ packet,
      invocation.call.Encodes world.self op packet ∧
      Granted τ op packet world.moment (invocation.perform world).2.moment := by
  obtain ⟨call, replies⟩ := invocation
  have tidy : ({ world with replies } : ClientWorld τ).self.Tidy := tidy
  cases call with
  | publish publication =>
    obtain ⟨result, same, granted⟩ := post_of_resultOf (publish_granted tidy alive publication) returned
    cases same
    exact granted op rfl
  | subscribe topics properties =>
    obtain ⟨result, same, granted⟩ :=
      post_of_resultOf (@subscribe_granted π _ _ tidy alive topics properties) returned
    cases same
    exact granted
  | unsubscribe topics properties =>
    obtain ⟨result, same, granted⟩ :=
      post_of_resultOf (@unsubscribe_granted π _ _ tidy alive topics properties) returned
    cases same
    exact granted
  | handleDisconnect => cases returned
  | _ =>
    -- Every other operation returns something else.
    obtain ⟨_, same⟩ := returned_of_resultOf returned
    cases same

/-- A request is taken on as a whole, or nothing is taken on. -/
structure AllOrNothing (before : ClientWorld τ) (invocation : Invocation π τ) : Prop where
  /-- A request that is refused takes nothing on. -/
  nothing : ∀ error, invocation.result before = .error (.error error) → error.isRefusal = true →
    (invocation.perform before).2.self.holdings = before.self.holdings
  /-- A handle stands for one more operation at the end, with its own encoding. -/
  all : ∀ op, invocation.result before = .ok (.op (some op)) →
    ∃ packet, invocation.call.Encodes before.self op packet ∧
      (invocation.perform before).2.self.holdings =
        before.self.holdings.admit op.kind op.packetId packet
  /-- A publication finds some quota. -/
  quota : ∀ op, invocation.result before = .ok (.op (some op)) → op.kind.isPublish = true →
    0 < before.self.holdings.sendQuota

/-- On every live connection admission is all or nothing. -/
theorem admission_atomic (config : ConfigBuilder) (clock : Clock) (calls : List (Invocation π τ))
    (alive : (run (start config clock) calls).self.live = true) (invocation : Invocation π τ)
    (request : invocation.call.isRequest = true) :
    AllOrNothing (run (start config clock) calls) invocation := by
  have tidy := ((settled_start config clock).run calls).tidy
  refine ⟨fun error failed refused => ?_, fun op returned => ?_, fun op returned => ?_⟩
  · exact invocation.holdings_of_refused tidy alive request failed refused
  · obtain ⟨packet, encodes, granted⟩ := invocation.granted tidy alive returned
    exact ⟨packet, encodes, granted.holdings.1⟩
  · obtain ⟨packet, -, granted⟩ := invocation.granted tidy alive returned
    exact granted.holdings.2

/-- The refusal a request returned. -/
def refusalOf : Except (Stop (PubError π τ)) Value → Option (PubError π τ)
  | .error (.error error) => if error.isRefusal then some error else none
  | _ => none

/-- The handle a request returned. -/
def handleOf : Except (Stop (PubError π τ)) Value → Option Op
  | .ok (.op op) => op
  | _ => none

/-- A refusal is an error. -/
theorem exists_of_refusalOf {result : Except (Stop (PubError π τ)) Value}
    (some : (refusalOf result).isSome = true) :
    ∃ error, result = .error (.error error) ∧ error.isRefusal = true := by
  unfold refusalOf at some
  split at some
  · split at some
    · rename_i error refused
      exact ⟨error, rfl, refused⟩
    · cases some
  · cases some

theorem eq_of_handleOf {result : Except (Stop (PubError π τ)) Value} {op : Op}
    (some : handleOf result = some op) : result = .ok (.op (.some op)) := by
  unfold handleOf at some
  split at some
  · rw [some]
  · cases some

/-- A new connection. -/
def newlyConnected : ClientWorld Unit :=
  run (start (smallConfig 60) (steppingClock 1 4)) [acceptedConnect]

/-- A subscription to nothing. -/
def emptySubscription : Invocation Unit Unit := ⟨.subscribe [] [], []⟩

/-- A publication that is sent at once. -/
def promptPublication : Invocation Unit Unit := ⟨.publish oncePublication, [.ready 64, .ready 0]⟩

/-- The first publication of a session is admitted, and a subscription to nothing is refused. -/
theorem admission_atomic_first :
    (refusalOf (emptySubscription.result newlyConnected)).isSome = true ∧
    (emptySubscription.perform newlyConnected).2.self.holdings = newlyConnected.self.holdings ∧
    handleOf (promptPublication.result newlyConnected) = some ⟨.publishExactlyOnce, 1, 1⟩ ∧
    ∃ packet, promptPublication.call.Encodes newlyConnected.self ⟨.publishExactlyOnce, 1, 1⟩ packet ∧
      (promptPublication.perform newlyConnected).2.self.holdings =
        newlyConnected.self.holdings.admit .publishExactlyOnce 1 packet := by
  -- One call of each kind on the same connection, for the two halves of the theorem.
  have refused : (refusalOf (emptySubscription.result newlyConnected)).isSome = true := by
    decide +kernel
  have returned : handleOf (promptPublication.result newlyConnected) =
      some ⟨.publishExactlyOnce, 1, 1⟩ := by decide +kernel
  have nothing : AllOrNothing newlyConnected emptySubscription :=
    admission_atomic (smallConfig 60) (steppingClock 1 4) [acceptedConnect] (by decide +kernel) _ rfl
  have all : AllOrNothing newlyConnected promptPublication :=
    admission_atomic (smallConfig 60) (steppingClock 1 4) [acceptedConnect] (by decide +kernel) _ rfl
  obtain ⟨error, failed, refusal⟩ := exists_of_refusalOf refused
  exact ⟨refused, nothing.nothing error failed refusal, returned,
    all.all _ (eq_of_handleOf returned)⟩

end Minimq

import Minimq.Proofs.Client.Handshake

/-! Publishing, subscribing and disconnecting follow the transitions. -/

namespace Minimq

open Hoare Async

variable {α ε π τ : Type} {origin : ClientMoment} {world : ClientWorld τ}
variable {header : PublishHeader} {packetId : UInt16} {payload : Payload π} {kind : OpKind}

/-- A search that ends finds an identifier that is not in use, and moves only the cursor. -/
theorem SessionData.nextPacketIdLoop_eq_some {fuel : Nat} {data next : SessionData}
    (found : nextPacketIdLoop fuel data = some (packetId, next)) :
    packetId ≠ 0 ∧ data.isLive packetId = false ∧
      ∃ cursor, next = { data with packetId := cursor } := by
  -- Only the cursor moves while the identifiers that are tried are in use.
  induction fuel generalizing data with
  | zero => simp [nextPacketIdLoop] at found
  | succ fuel ih =>
    simp only [nextPacketIdLoop] at found
    split at found
    · rename_i unused
      cases found
      refine ⟨data.packetId.property, ?_, _, rfl⟩
      simpa [isLive] using unused
    · obtain ⟨nonzero, unused, cursor, rfl⟩ := ih found
      exact ⟨nonzero, unused, cursor, rfl⟩

theorem takePacketId_cursor : wp (takePacketId : Client τ ε UInt16)
    (fun packetId after => (∃ cursor, after = { world with
        self := world.self.mapData fun data => { data with packetId := cursor } }) ∧
      packetId ≠ 0 ∧ world.self.session.data.isLive packetId = false)
    (fun stop after => stop = .dropped ∧ after = world) world := by
  unfold takePacketId SessionData.nextPacketId
  simp only [currentSession, wp_bind, wp_self, wp_pure]
  cases found : SessionData.nextPacketIdLoop 65536 world.self.session.data with
  | none => exact ⟨rfl, rfl⟩
  | some next =>
    obtain ⟨packetId, data⟩ := next
    obtain ⟨nonzero, unused, cursor, rfl⟩ := SessionData.nextPacketIdLoop_eq_some found
    exact ⟨⟨cursor, rfl⟩, nonzero, unused⟩

/-- Taking an identifier follows the transitions. -/
theorem takePacketId_spec (reached : Reached origin world) (alive : world.self.live = true) :
    wp (takePacketId : Client τ ε UInt16)
      (fun packetId after => Reached origin after ∧ after.self.live = true ∧
        packetId ≠ 0 ∧ after.self.session.data.isLive packetId = false)
      (fun _ after => Reached origin after) world := by
  refine wp_mono takePacketId_cursor (fun packetId after taken => ?_) (fun _ after stopped => ?_)
  · obtain ⟨⟨cursor, rfl⟩, nonzero, unused⟩ := taken
    exact ⟨⟨reached.steps.tail (.upkeep .skipped), reached.rest⟩, alive, nonzero, unused⟩
  · obtain ⟨-, rfl⟩ := stopped
    exact reached

/-- A packet lies right behind the retained packets, within the part they may use. -/
structure Outbound.Placed (outbound : Outbound) (packet buf : Bytes) : Prop where
  /-- The retained packets are still in the arena. -/
  kept : SameUpTo outbound.retainedBytes outbound.buf buf
  /-- The packet is right behind them. -/
  placed : (buf.drop outbound.retainedBytes).take packet.length = packet
  /-- The reserved room stays free. -/
  room : outbound.retainedBytes + packet.length ≤ outbound.retainedCapacity

theorem Outbound.retainedBytes_buf (outbound : Outbound) (buf : Bytes) :
    ({ outbound with buf } : Outbound).retainedBytes = outbound.retainedBytes := rfl

/-- Packing moves an encoded packet to the start of the scratch space. -/
theorem Outbound.packEncoded_placed {outbound packed : Outbound} {slice packet : Bytes}
    {offset : Nat} (size : slice.length ≤ outbound.buf.length - outbound.retainedBytes)
    (encoded : (slice.drop offset).take packet.length = packet) (nonempty : 0 < packet.length)
    (done : ({ outbound with buf := Arena.overwrite outbound.buf outbound.retainedBytes slice } :
      Outbound).packEncoded offset packet.length = .ok packed) :
    ∃ buf, packed = { outbound with buf } ∧ outbound.Placed packet buf := by
  -- The encoder left the packet inside the free part, from where it moves up to its start.
  have inside : offset + packet.length ≤ slice.length := by
    have := congrArg List.length encoded
    rw [List.length_take, List.length_drop] at this
    omega
  have within : outbound.retainedBytes ≤ outbound.buf.length := by omega
  have kept : SameUpTo outbound.retainedBytes outbound.buf
      (Arena.overwrite outbound.buf outbound.retainedBytes slice) := .overwrite size
  have copied := Arena.part_overwrite within inside
  rw [encoded] at copied
  unfold packEncoded at done
  dsimp only at done
  split at done
  · simp at done
  · rename_i room
    simp only [retainedBytes_buf, retainedCapacity, kept.size, Nat.not_lt] at room
    simp only [retainedBytes_buf, Arena.copyWithin, copied, Except.ok.injEq] at done
    have fits : outbound.retainedBytes + packet.length ≤
        (Arena.overwrite outbound.buf outbound.retainedBytes slice).length := by
      rw [kept.size]
      omega
    refine ⟨_, done.symm, ⟨?_, ?_⟩, ?_, ?_⟩
    · rw [Arena.length_overwrite fits, kept.size]
    · rw [Arena.take_overwrite (Nat.le_refl _) (by omega), kept.kept]
    · exact Arena.slice_overwrite (by omega)
    · unfold retainedCapacity
      omega

/-- An encoder left the retained packets alone. -/
def Outbound.Scratched (before after : Outbound) : Prop :=
  ∃ buf, after = { before with buf } ∧ SameUpTo before.retainedBytes before.buf buf

/-- Encoding a request places it behind the retained packets, or leaves them alone. -/
theorem Outbound.encodePacket_spec [ControlPacket α] (packet : α) (outbound : Outbound) :
    wp (encodePacket packet)
      (fun len after => ∃ offset bytes buf, (outbound.packetEncoding packet).1 = .ok (offset, bytes) ∧
        len = bytes.length ∧ after = { outbound with buf } ∧ outbound.Placed bytes buf)
      (fun _ after => outbound.Scratched after) outbound := by
  -- The encoder works on the free part only, whether it succeeds or not.
  have space : outbound.scratchSpace.length = outbound.buf.length - outbound.retainedBytes := by
    simp [scratchSpace]
  unfold encodePacket
  simp only [wp_bind, wp_get, wp_set]
  unfold packetEncoding
  rcases encodeWithOffset_cases outbound.scratchSpace packet with
    ⟨body, offset, bytes, slice, done, same, -, encoded⟩ | ⟨error, slice, failed, same, -⟩
  · rw [done]
    have nonempty := (frame_length encoded.framed).1
    simp only
    cases packed : ({ outbound with
        buf := Arena.overwrite outbound.buf outbound.retainedBytes slice } :
          Outbound).packEncoded offset bytes.length with
    | error error => exact ⟨_, rfl, .overwrite (by omega)⟩
    | ok result =>
      obtain ⟨buf, rfl, placed⟩ := packEncoded_placed (by omega) encoded.placed (by omega) packed
      exact ⟨offset, bytes, buf, rfl, rfl, rfl, placed⟩
  · rw [failed]
    exact ⟨_, rfl, .overwrite (by dsimp only; omega)⟩

/-- Encoding a publication places it behind the retained packets, or leaves them alone. -/
theorem Outbound.encodePublish_spec (header : PublishHeader) (payload : Payload π)
    (outbound : Outbound) :
    wp (encodePublish header payload : EStateM (PubError π τ) Outbound Nat)
      (fun len after => ∃ offset bytes buf,
        (outbound.publishEncoding header payload).1 = .ok (offset, bytes) ∧
        len = bytes.length ∧ after = { outbound with buf } ∧ outbound.Placed bytes buf)
      (fun _ after => outbound.Scratched after) outbound := by
  -- A publication may not use the room reserved for the next request.
  have space : ((outbound.buf.take outbound.retainedCapacity).drop
      outbound.retainedBytes).length ≤ outbound.buf.length - outbound.retainedBytes := by
    rw [List.length_drop, List.length_take]
    omega
  unfold encodePublish
  simp only [wp_bind, wp_get, wp_set]
  unfold publishEncoding
  rcases encodePublishWithOffset_cases
    ((outbound.buf.take outbound.retainedCapacity).drop outbound.retainedBytes) header payload with
    ⟨body, offset, bytes, slice, done, same, encoded, -⟩ | ⟨error, slice, failed, same⟩
  · rw [done]
    have nonempty := (frame_length encoded.framed).1
    simp only
    cases packed : ({ outbound with
        buf := Arena.overwrite outbound.buf outbound.retainedBytes slice } :
          Outbound).packEncoded offset bytes.length with
    | error error => exact ⟨_, rfl, .overwrite (by omega)⟩
    | ok result =>
      obtain ⟨buf, rfl, placed⟩ := packEncoded_placed (by omega) encoded.placed (by omega) packed
      exact ⟨offset, bytes, buf, rfl, rfl, rfl, placed⟩
  · rw [failed]
    cases error <;> exact ⟨_, rfl, .overwrite (by dsimp only; omega)⟩

theorem Reached.scratched {buf : Bytes} (reached : Reached origin world)
    (kept : SameUpTo world.self.outbound.retainedBytes world.self.outbound.buf buf) :
    Reached origin { world with
      self := world.self.mapOutbound fun outbound => { outbound with buf } } :=
  ⟨reached.steps.tail (.upkeep (.scratched kept)), reached.rest⟩

theorem Reached.flow {after : ClientWorld τ} (reached : Reached origin world)
    (flow : Flow τ world.moment after.moment) : Reached origin after :=
  ⟨reached.steps.trans flow.steps, flow.rest reached.rest⟩

/-- An admissible operation may be admitted at any moment. -/
theorem Reached.admitted {packet buf : Bytes}
    {retained : FixedVec RetainedPacket maxRetained} (reached : Reached origin world)
    (admissible : Admissible world.self kind packetId packet buf retained) :
    Reached origin { world with
      self := world.self.enlist kind buf retained
      trace := world.trace ++
        [.noted (.admitted world.self.session.handling kind packetId packet)] } := by
  refine ⟨reached.steps.tail (.admitted admissible), ?_⟩
  unfold Connection.enlist
  dsimp only
  split <;> exact reached.rest

/-- A request is admitted with its encoding, or only scratches the arena. -/
theorem admitRequest_cases [ControlPacket α] {packet : α}
    (alive : world.self.live = true) (nonzero : packetId ≠ 0)
    (unused : world.self.session.data.isLive packetId = false) (request : kind.isPublish = false)
    (legal : ∀ {buf offset bytes}, (encodeWithOffset buf packet).1 = .ok (offset, bytes) →
      OpPacket kind packetId bytes) :
    wp (admitRequest kind packetId packet : Client τ (Error τ) Unit)
      (fun _ after => ∃ offset bytes buf retained,
        (world.self.outbound.packetEncoding packet).1 = .ok (offset, bytes) ∧
        Admissible world.self kind packetId bytes buf retained ∧
        after = { world with
          self := world.self.enlist kind buf retained
          trace := world.trace ++
            [.noted (.admitted world.self.session.handling kind packetId bytes)] })
      (fun _ after => ∃ buf, SameUpTo world.self.outbound.retainedBytes world.self.outbound.buf buf ∧
        after = { world with
          self := world.self.mapOutbound fun outbound => { outbound with buf } }) world := by
  -- The size is checked after encoding and the slot after that, so both leave scratch only.
  unfold admitRequest
  simp only [currentSession, currentOutbound, onOutbound, wp_bind, wp_self, wp_pure, wp_zoom]
  refine wp_mono (Outbound.encodePacket_spec packet world.self.outbound)
    (fun len after placed => ?_) (fun error after scratched => ?_)
  · obtain ⟨offset, bytes, buf, encoded, rfl, rfl, placed⟩ := placed
    simp only [wp_bind, wp_self, wp_pure, wp_ofExcept]
    split
    · split
      · exact ⟨buf, placed.kept, rfl⟩
      · rename_i kept retains
        obtain ⟨retained, rfl, slot⟩ := Outbound.retained_of_retainPacket retains
        have admissible : Admissible world.self kind packetId bytes buf retained :=
          { alive, nonzero, unused, legal := legal encoded, slot, kept := placed.kept,
            placed := placed.placed, room := placed.room, quota := by simp [request] }
        simp only [updateOutbound, wp_bind, wp_update]
        rw [show (world.self.session.data.outbound.packetEncoding packet).1 = _ from encoded]
        simp only [noteAdmission, wp_note]
        refine ⟨offset, bytes, buf, retained, rfl, admissible, ?_⟩
        rw [Connection.enlist, if_neg (by simp [request])]
        rfl
    · exact ⟨buf, placed.kept, rfl⟩
  · obtain ⟨buf, rfl, kept⟩ := scratched
    exact ⟨buf, kept, rfl⟩

/-- Admitting a request follows the transitions. -/
theorem admitRequest_spec [ControlPacket α] {packet : α}
    (reached : Reached origin world) (alive : world.self.live = true) (nonzero : packetId ≠ 0)
    (unused : world.self.session.data.isLive packetId = false) (request : kind.isPublish = false)
    (legal : ∀ {buf offset bytes}, (encodeWithOffset buf packet).1 = .ok (offset, bytes) →
      OpPacket kind packetId bytes) :
    wp (admitRequest kind packetId packet : Client τ (Error τ) Unit)
      (fun _ after => Reached origin after ∧ after.self.live = true)
      (fun _ after => Reached origin after) world := by
  refine wp_mono (admitRequest_cases alive nonzero unused request legal) (fun _ after admitted => ?_)
    (fun _ after refused => ?_)
  · obtain ⟨offset, bytes, buf, retained, -, admissible, rfl⟩ := admitted
    exact ⟨reached.admitted admissible, Connection.enlist_live.trans alive⟩
  · obtain ⟨buf, kept, rfl⟩ := refused
    exact reached.scratched kept

/-- Sending a request follows the transitions. -/
theorem sendRequest_spec [ControlPacket α] {packet : UInt16 → α}
    (reached : Reached origin world) (alive : world.self.live = true)
    (request : kind.isPublish = false)
    (legal : ∀ {packetId buf offset bytes},
      (encodeWithOffset buf (packet packetId)).1 = .ok (offset, bytes) →
        OpPacket kind packetId bytes) :
    wp (sendRequest kind packet : Client τ (Error τ) Op)
      (fun _ after => Reached origin after) (fun _ after => Reached origin after) world := by
  -- Flow, identifier, admission, flow: each part is a sequence of transitions.
  unfold sendRequest
  rw [wp_bind]
  refine wp_mono (flushOutbound_spec .refl alive) (fun _ after flushed => ?_)
    (fun _ after flow => reached.flow flow)
  have reached := reached.flow flushed.1
  simp only [currentOutbound, wp_bind, wp_self, wp_pure, wp_ofExcept]
  split
  · refine wp_mono (takePacketId_spec reached flushed.2.1) (fun packetId after taken => ?_)
      (fun _ _ => id)
    obtain ⟨reached, alive, nonzero, unused⟩ := taken
    rw [wp_bind]
    refine wp_mono (admitRequest_spec reached alive nonzero unused request legal)
      (fun _ after admitted => ?_) (fun _ _ => id)
    rw [wp_bind]
    refine wp_mono (flushOutbound_spec .refl admitted.2) (fun _ after flushed => ?_)
      (fun _ after flow => admitted.1.flow flow)
    exact admitted.1.flow flushed.1
  · exact reached

/-- A call of `subscribe` follows the transitions. -/
theorem subscribe_spec (reached : Reached origin world) (topics : List TopicFilter)
    (properties : List Property) :
    wp (subscribe topics properties : Client τ (Error τ) Op)
      (fun _ after => Reached origin after) (fun _ after => Reached origin after) world := by
  -- Four checks stand before the request, and none of them changes anything.
  unfold subscribe
  simp only [wp_bind, wp_self, wp_ite, wp_fail]
  split
  · exact reached
  · rename_i alive
    simp only [Bool.not_eq_true', Bool.not_eq_false] at alive
    split
    · exact reached
    · split
      · exact reached
      · exact sendRequest_spec reached alive rfl fun encoded => .subscribe encoded

/-- A call of `unsubscribe` follows the transitions. -/
theorem unsubscribe_spec (reached : Reached origin world) (topics : List Utf8)
    (properties : List Property) :
    wp (unsubscribe topics properties : Client τ (Error τ) Op)
      (fun _ after => Reached origin after) (fun _ after => Reached origin after) world := by
  -- Four checks stand before the request, and none of them changes anything.
  unfold unsubscribe
  simp only [wp_bind, wp_self, wp_ite, wp_fail]
  split
  · exact reached
  · rename_i alive
    simp only [Bool.not_eq_true', Bool.not_eq_false] at alive
    split
    · exact reached
    · split
      · exact reached
      · exact sendRequest_spec reached alive rfl fun encoded => .unsubscribe encoded

/-- Flushing under the error type of publications follows the transitions. -/
theorem flushOutbound_mapped {Q : Unit → ClientWorld τ → Prop}
    {E : Stop (PubError π τ) → ClientWorld τ → Prop} (reached : Reached origin world)
    (alive : world.self.live = true)
    (after : ∀ after : ClientWorld τ, Reached origin after → after.self.live = true →
      after.self.Quiet → Q () after)
    (stopped : ∀ stop (after : ClientWorld τ), Reached origin after → E stop after) :
    wp (mapError .session flushOutbound) Q E world := by
  rw [wp_mapError]
  refine wp_mono (flushOutbound_spec .refl alive)
    (fun _ current done => after current (reached.flow done.1) done.2.1 done.2.2)
    (fun stop current flow => ?_)
  cases stop <;> exact stopped _ current (reached.flow flow)

/-- Encoding a publication to retain places it, or leaves the retained packets alone. -/
theorem encodeRetained_spec {Q : Except (PubError π τ) Nat → ClientWorld τ → Prop}
    {E : Stop ε → ClientWorld τ → Prop} (header : PublishHeader) (payload : Payload π)
    (refused : ∀ error buf,
      SameUpTo world.self.outbound.retainedBytes world.self.outbound.buf buf →
      Q (.error error) { world with
        self := world.self.mapOutbound fun outbound => { outbound with buf } })
    (placed : ∀ offset bytes buf,
      (world.self.outbound.publishEncoding header payload).1 = .ok (offset, bytes) →
      world.self.outbound.Placed bytes buf →
      Q (.ok bytes.length) { world with
        self := world.self.mapOutbound fun outbound => { outbound with buf } }) :
    wp (encodeRetained header payload : Client τ ε (Except (PubError π τ) Nat)) Q E world := by
  -- A packet above the limit was encoded already, but nothing points to it.
  unfold encodeRetained
  simp only [currentSession, onOutbound, wp_bind, wp_zoom]
  refine wp_mono (Outbound.encodePublish_spec header payload world.self.outbound)
    (fun len after done => ?_) (fun error after scratched => ?_)
  · obtain ⟨offset, bytes, buf, encoded, rfl, rfl, done⟩ := done
    simp only [wp_self, wp_pure]
    split
    · exact refused _ buf done.kept
    · exact placed offset bytes buf encoded done
  · obtain ⟨buf, rfl, kept⟩ := scratched
    exact refused error buf kept

/-- The operation a publication becomes under a quality of service that is acknowledged. -/
def publishKind (qos : QoS) : OpKind :=
  if qos = .exactlyOnce then .publishExactlyOnce else .publishAtLeastOnce

theorem publishKind_isPublish (qos : QoS) : (publishKind qos).isPublish = true := by
  unfold publishKind
  split <;> rfl

/-- A retained publication is admitted before any byte is written, or not at all. -/
theorem publishRetained_rule
    {Q : Option Op → ClientWorld τ → Prop} {E : Stop (PubError π τ) → ClientWorld τ → Prop}
    (alive : world.self.live = true) (nonzero : packetId ≠ 0)
    (unused : world.self.session.data.isLive packetId = false)
    (identified : header.packetId = some packetId) (level : header.qos ≠ .atMostOnce)
    (refused : ∀ (error : PubError π τ) buf,
      SameUpTo world.self.outbound.retainedBytes world.self.outbound.buf buf →
      wp (mapError .session flushOutbound) (fun _ after => E (.error error) after) E { world with
        self := world.self.mapOutbound fun outbound => { outbound with buf } })
    (unretained : ∀ (error : PubError π τ) buf,
      SameUpTo world.self.outbound.retainedBytes world.self.outbound.buf buf →
      E (.error error) { world with
        self := world.self.mapOutbound fun outbound => { outbound with buf } })
    (admitted : ∀ offset bytes buf retained,
      (world.self.outbound.publishEncoding header payload).1 = .ok (offset, bytes) →
      Admissible world.self (publishKind header.qos) packetId bytes buf retained →
      wp (mapError .session flushOutbound) (fun _ after =>
        Q (some ⟨publishKind header.qos, packetId, after.self.session.data.generation⟩) after) E
        { world with
          self := world.self.enlist (publishKind header.qos) buf retained
          trace := world.trace ++ [.noted (.admitted world.self.session.handling
            (publishKind header.qos) packetId bytes)] }) :
    wp (publishRetained header payload packetId : Client τ (PubError π τ) (Option Op)) Q E
      world := by
  -- The slot and the quota are checked before anything is encoded.
  unfold publishRetained
  simp only [currentOutbound, currentSession, wp_bind, wp_self, wp_pure]
  split
  · rw [wp_bind]
    exact refused _ world.self.outbound.buf ⟨rfl, rfl⟩
  · simp only [wp_ite, wp_bind, wp_self]
    split
    · exact refused _ world.self.outbound.buf ⟨rfl, rfl⟩
    · -- With quota in hand only the encoder, the size and the slot can refuse the publication.
      rename_i ready
      have quota : world.self.runtime.sendQuota ≠ 0 := by
        simp only [Connection.canPublish, Session.canPublish, if_neg level] at ready
        intro none
        simp [none] at ready
      simp only [wp_bind, wp_pure]
      refine encodeRetained_spec header payload (fun error buf kept => ?_)
        (fun offset bytes buf encoded placed => ?_)
      · simp only [wp_bind]
        exact refused error buf kept
      · simp only [retainPublication, currentOutbound, wp_bind, wp_self, wp_pure]
        split
        · exact unretained _ buf placed.kept
        · rename_i kept retains
          obtain ⟨retained, rfl, slot⟩ := Outbound.retained_of_retainPacket retains
          have admissible : Admissible world.self (publishKind header.qos) packetId bytes buf
              retained :=
            { alive, nonzero, unused, legal := .publish identified rfl encoded, slot,
              kept := placed.kept, placed := placed.placed, room := placed.room,
              quota := fun _ => quota }
          -- From here on nothing can fail but the flush, and the packet is tracked.
          have flushed := admitted offset bytes buf retained encoded admissible
          rw [Connection.enlist, if_pos (publishKind_isPublish _)] at flushed
          simp only [updateOutbound, updateRuntime, wp_bind, wp_update]
          rw [show (world.self.session.data.outbound.publishEncoding header payload).1 = _
            from encoded]
          simp only [noteAdmission, wp_note]
          rw [wp_bind]
          exact flushed

/-- Publishing with an acknowledgement follows the transitions. -/
theorem publishRetained_spec
    (reached : Reached origin world) (alive : world.self.live = true) (nonzero : packetId ≠ 0)
    (unused : world.self.session.data.isLive packetId = false)
    (identified : header.packetId = some packetId) (level : header.qos ≠ .atMostOnce) :
    wp (publishRetained header payload packetId : Client τ (PubError π τ) (Option Op))
      (fun _ after => Reached origin after) (fun _ after => Reached origin after) world := by
  refine publishRetained_rule alive nonzero unused identified level (fun error buf kept => ?_)
    (fun error buf kept => reached.scratched kept)
    (fun offset bytes buf retained encoded admissible => ?_)
  · exact flushOutbound_mapped (reached.scratched kept) alive (fun _ reached _ _ => reached)
      (fun _ _ => id)
  · exact flushOutbound_mapped (reached.admitted admissible) (Connection.enlist_live.trans alive)
      (fun _ reached _ _ => reached) (fun _ _ => id)

/-- An operation that is not cancel-safe was dropped before its packet was flushed. -/
structure Dropped (origin : ClientMoment) (stop : Stop ε) (world : ClientWorld τ) : Prop where
  /-- It did not fail. -/
  dropped : ∀ error, stop ≠ .error error
  /-- Part of its packet was accepted. -/
  torn : ∃ middle, Steps τ origin middle ∧ Torn middle world.moment
  /-- No complete packet is waiting. -/
  rest : world.self.Rest

/-- A packet that is not tracked is on its way: what happened since it was ready. -/
structure Underway (origin : ClientMoment) (packet : Bytes) (chunks : List Bytes)
    (drain : List (Happening Event)) (world : ClientWorld τ) : Prop where
  /-- Transitions led to where it was ready. -/
  began : ∃ base, Steps τ origin base ∧ Ready base.self packet ∧
    world.moment = { base with trace := base.trace ++ handover packet chunks drain }
  /-- No complete packet is waiting. -/
  rest : world.self.Rest

namespace Underway

variable {packet : Bytes} {chunks : List Bytes} {drain : List (Happening Event)}

theorem begin (reached : Reached origin world) (ready : Ready world.self packet) :
    Underway origin packet [] [] (world.record (.noted (.direct packet))) :=
  ⟨⟨world.moment, reached.steps, ready, rfl⟩, reached.rest⟩

/-- More of the packet is accepted. -/
theorem wrote {after : ClientWorld τ} {more : List Bytes}
    (underway : Underway origin packet [] [] world)
    (moved : after.moment = { world.moment with trace := world.trace ++ more.map .accepted }) :
    Underway origin packet more [] after := by
  obtain ⟨⟨base, steps, ready, same⟩, rest⟩ := underway
  have self : after.self = world.self := congrArg Moment.self moved
  refine ⟨⟨base, steps, ready, ?_⟩, by rw [self]; exact rest⟩
  have trace : world.trace = base.trace ++ handover packet [] [] := congrArg Moment.trace same
  rw [moved, same, trace]
  simp [handover]

theorem replied (underway : Underway origin packet chunks drain world)
    (rest : List (Reply τ)) : Underway origin packet chunks drain { world with replies := rest } :=
  ⟨underway.began, underway.rest⟩

/-- The transport is asked to drain the packet, or has done so. -/
theorem record (underway : Underway origin packet chunks drain world)
    (event : Happening Event) : Underway origin packet chunks (drain ++ [event])
      (world.record event) := by
  obtain ⟨⟨base, steps, ready, same⟩, rest⟩ := underway
  refine ⟨⟨base, steps, ready, ?_⟩, rest⟩
  simp only [World.moment, Moment.mk.injEq] at same
  obtain ⟨self, trace, time⟩ := same
  simp [self, trace, time, handover]

theorem dropped (underway : Underway origin packet chunks drain world)
    (part : Partly packet chunks drain) {stop : Stop ε} (pending : ∀ error, stop ≠ .error error) :
    Dropped origin stop world := by
  obtain ⟨⟨base, steps, ready, same⟩, rest⟩ := underway
  refine ⟨pending, ⟨base, steps, ?_⟩, rest⟩
  rw [same]
  exact .torn ready part

/-- The connection ends. -/
theorem broken (underway : Underway origin packet chunks drain world)
    (part : Partly packet chunks drain) :
    Reached origin { world with self := world.self.handleDisconnect } := by
  obtain ⟨⟨base, steps, ready, same⟩, rest⟩ := underway
  refine ⟨?_, .handleDisconnect⟩
  have step := steps.tail (.broken ready part)
  simp only [World.moment, Moment.mk.injEq] at same
  obtain ⟨self, trace, time⟩ := same
  rw [moment_self, self, trace, time]
  exact step

/-- The packet is flushed, and the keepalive interval starts anew. -/
theorem settled (underway : Underway origin packet chunks [.flushing, .flushed] world)
    (whole : chunks.flatten = packet) :
    Reached origin { world with
      self := world.self.mapRuntime (·.noteOutboundActivity (world.clock.reading world.samples))
      samples := world.samples + 1
      trace := world.trace ++ [.noted (.active (world.clock.reading world.samples))] } := by
  -- The record shows the packet, its bytes and the flush as one transition.
  obtain ⟨⟨base, steps, ready, same⟩, rest⟩ := underway
  refine ⟨?_, rest⟩
  simp only [World.moment, Moment.mk.injEq] at same
  obtain ⟨self, trace, time⟩ := same
  have later := time_le_reading world
  rw [time] at later
  have step := steps.tail (.direct ready whole later)
  have grown : world.trace ++ [.noted (.active (world.clock.reading world.samples))] =
      base.trace ++ handover packet chunks
        [.flushing, .flushed, .noted (.active (world.clock.reading world.samples))] := by
    rw [trace]
    simp [handover]
  rw [World.moment, grown, self]
  exact step

end Underway

/-- A packet passes the check of its size only if the broker accepts it. -/
theorem RuntimeState.sized_of_requirePacketSize {runtime : RuntimeState} {len : Nat}
    (passed : (runtime.requirePacketSize len : Except (Error τ) Unit) = .ok ()) :
    exceeds runtime.maximumPacketSize len = false := by
  unfold requirePacketSize at passed
  split at passed
  · simp at passed
  · rename_i small
    simpa using small

/-- Writing, flushing and keepalive do not change the limits of the broker. -/
theorem Flow.maximumPacketSize {before after : ClientMoment} (flow : Flow τ before after) :
    after.self.runtime.maximumPacketSize = before.self.runtime.maximumPacketSize := by
  -- None of these transitions touches the limits.
  induction flow with
  | refl => rfl
  | tail _ step ih =>
    rw [← ih]
    cases step with
    | wrote =>
      unfold Connection.afterWrite
      dsimp only
      split <;> rfl
    | _ => rfl

/-- Writing a packet that is not tracked completes it, or tears it, or ends the connection. -/
theorem writeDirect_spec {packet : Bytes} (underway : Underway origin packet [] [] world)
    {Q : Unit → ClientWorld τ → Prop} {E : Stop (Error τ) → ClientWorld τ → Prop}
    (written : ∀ (chunks : List Bytes) (after : ClientWorld τ), chunks.flatten = packet →
      Underway origin packet chunks [] after → Q () after)
    (broken : ∀ (error : Error τ) (after : ClientWorld τ),
      Reached origin { after with self := after.self.handleDisconnect } → E (.error error) after)
    (dropped : ∀ stop (after : ClientWorld τ), Dropped origin stop after → E stop after) :
    wp (writeAll packet) Q E world := by
  -- What was accepted is a part of the packet however the write ends.
  refine wp_mono (writeAll_spec packet) (fun _ after sent => ?_) (fun stop after sent => ?_)
  · obtain ⟨chunks, whole, moved⟩ := sent
    exact written chunks after whole (underway.wrote moved)
  · obtain ⟨chunks, part, moved⟩ := sent
    have reached := underway.wrote moved
    cases stop with
    | error error => exact broken error after (reached.broken (.some part))
    | dropped => exact dropped _ after (reached.dropped (.some part) (by simp))
    | expired => exact dropped _ after (reached.dropped (.some part) (by simp))

/-- Encoding into the scratch space leaves the retained packets alone. -/
theorem encodeScratch_cases :
    wp (encodeScratch header payload : Client τ (PubError π τ) Bytes)
      (fun packet after => (∃ offset, (encodePublishWithOffset world.self.outbound.scratchSpace
          header payload).1 = .ok (offset, packet)) ∧
        ∃ buf, SameUpTo world.self.outbound.retainedBytes world.self.outbound.buf buf ∧
          after = { world with
            self := world.self.mapOutbound fun outbound => { outbound with buf } })
      (fun _ after => ∃ buf, SameUpTo world.self.outbound.retainedBytes world.self.outbound.buf buf ∧
        after = { world with
          self := world.self.mapOutbound fun outbound => { outbound with buf } }) world := by
  -- The encoder works on the free part only, whether it succeeds or not.
  have space : world.self.outbound.scratchSpace.length =
      world.self.outbound.buf.length - world.self.outbound.retainedBytes := by
    simp [Outbound.scratchSpace]
  unfold encodeScratch
  simp only [currentOutbound, updateOutbound, wp_bind, wp_self, wp_pure, wp_update]
  rcases encodePublishWithOffset_cases world.self.outbound.scratchSpace header payload with
    ⟨body, offset, bytes, slice, done, same, -⟩ | ⟨error, slice, failed, same⟩
  · rw [done]
    exact ⟨⟨offset, rfl⟩, _, .overwrite (by dsimp only; omega), rfl⟩
  · rw [failed]
    cases error <;> exact ⟨_, .overwrite (by dsimp only; omega), rfl⟩

/-- Encoding into the scratch space follows the transitions. -/
theorem encodeScratch_spec
    (reached : Reached origin world) (alive : world.self.live = true) (quiet : world.self.Quiet)
    (level : header.qos = .atMostOnce) :
    wp (encodeScratch header payload : Client τ (PubError π τ) Bytes)
      (fun packet after => Reached origin after ∧ after.self.live = true ∧ after.self.Quiet ∧
        EncodedPacket packet)
      (fun _ after => Reached origin after) world := by
  refine wp_mono encodeScratch_cases (fun packet after done => ?_) (fun _ after failed => ?_)
  · obtain ⟨⟨offset, encoded⟩, buf, kept, rfl⟩ := done
    exact ⟨reached.scratched kept, alive, quiet, .direct level encoded⟩
  · obtain ⟨buf, kept, rfl⟩ := failed
    exact reached.scratched kept

/-- A publication that is not retained is written as a whole, unless it is dropped. -/
theorem publishDirect_spec (reached : Reached origin world) (alive : world.self.live = true)
    (level : header.qos = .atMostOnce) :
    wp (publishDirect header payload : Client τ (PubError π τ) (Option Op))
      (fun _ after => Reached origin after)
      (fun stop after => Reached origin after ∨ Dropped origin stop after) world := by
  -- What is queued is flushed first, so the packet does not cut into another one.
  unfold publishDirect
  simp only [wp_bind, wp_self, wp_ite]
  split
  · exact flushOutbound_mapped reached alive (fun _ reached _ _ => .inl reached)
      (fun _ _ => .inl)
  · refine flushOutbound_mapped reached alive (fun after reached alive quiet => ?_) (fun _ _ => .inl)
    rw [wp_bind]
    refine wp_mono (encodeScratch_spec reached alive quiet level) (fun packet after done => ?_)
      (fun _ _ => .inl)
    obtain ⟨reached, alive, quiet, legal⟩ := done
    simp only [currentSession, wp_bind, wp_self, wp_pure, wp_mapError, wp_ofExcept]
    split
    · -- From the first byte on the call ends with the whole packet, with the connection, or torn.
      rename_i passed
      have ready : Ready after.self packet :=
        ⟨alive, quiet, legal, RuntimeState.sized_of_requirePacketSize passed⟩
      simp only [wp_bind, alive, Bool.not_true, Bool.false_eq_true, if_false, wp_note, wp_attempt]
      refine writeDirect_spec (.begin reached ready) (fun chunks after whole sent => ?_)
        (fun error after broken => ?_) (fun stop after dropped => ?_)
      · have asked (rest : List (Reply τ)) := (sent.replied rest).record .flushing
        rw [wp_bind]
        refine wp_flush (fun error rest _ => ?_) (fun rest _ => ?_) (fun rest => .inr ?_)
          (fun rest _ => .inr ?_)
        · exact .inl ((asked rest).broken (.accepted whole))
        · exact ((asked rest).record .flushed).settled whole
        · exact (asked rest).dropped (.accepted whole) (by simp)
        · exact (asked rest).dropped (.accepted whole) (by simp)
      · simp only [disconnected, wp_update, wp_fail]
        exact .inl broken
      · cases stop with
        | error error => exact absurd rfl (dropped.dropped error)
        | dropped => exact .inr ⟨by simp, dropped.torn, dropped.rest⟩
        | expired => exact .inr ⟨by simp, dropped.torn, dropped.rest⟩
    · exact .inl reached

/-- A call of `publish` follows the transitions, unless it is dropped in the middle of a packet. -/
theorem publish_spec (reached : Reached origin world) (publication : Publication π) :
    wp (publish publication : Client τ (PubError π τ) (Option Op))
      (fun _ after => Reached origin after)
      (fun stop after => Reached origin after ∨
        (Dropped origin stop after ∧
          effectiveQos world.self.session publication.qos = some .atMostOnce)) world := by
  -- The level decides how the publication is sent, after all checks.
  unfold publish
  simp only [currentSession, wp_bind, wp_self, wp_ite, wp_fail, wp_pure]
  split
  · exact .inl reached
  · rename_i alive
    simp only [Bool.not_eq_true', Bool.not_eq_false] at alive
    split
    · exact .inl reached
    · cases level : effectiveQos world.self.session publication.qos with
      | none => exact .inl reached
      | some qos =>
        cases qos with
        | atMostOnce =>
          refine wp_mono (publishDirect_spec reached alive rfl) (fun _ _ => id)
            (fun stop after stopped => ?_)
          exact stopped.imp_right fun dropped => ⟨dropped, rfl⟩
        | atLeastOnce =>
          simp only [wp_bind]
          refine wp_mono (takePacketId_spec reached alive) (fun packetId after taken => ?_)
            (fun _ _ => .inl)
          exact wp_mono (publishRetained_spec taken.1 taken.2.1 taken.2.2.1 taken.2.2.2 rfl (by simp))
            (fun _ _ => id) (fun _ _ => .inl)
        | exactlyOnce =>
          simp only [wp_bind]
          refine wp_mono (takePacketId_spec reached alive) (fun packetId after taken => ?_)
            (fun _ _ => .inl)
          exact wp_mono (publishRetained_spec taken.1 taken.2.1 taken.2.2.1 taken.2.2.2 rfl (by simp))
            (fun _ _ => id) (fun _ _ => .inl)

/-- The last packet of a connection is written as a whole, unless it is dropped. -/
theorem sendDisconnect_spec {packet : Bytes} (reached : Reached origin world)
    (alive : world.self.live = true) (legal : EncodedPacket packet) :
    wp (sendDisconnect packet : Client τ (Error τ) Unit)
      (fun _ after => Reached origin after)
      (fun stop after => Reached origin after ∨ Dropped origin stop after) world := by
  unfold sendDisconnect writeTerminal
  simp only [currentSession, wp_bind, wp_self, wp_pure, wp_ofExcept]
  split
  · rename_i passed
    refine wp_mono (flushOutbound_spec .refl alive) (fun _ after flushed => ?_)
      (fun _ after flow => .inl (reached.flow flow))
    obtain ⟨flow, alive, quiet⟩ := flushed
    have ready : Ready after.self packet := by
      refine ⟨alive, quiet, legal, ?_⟩
      rw [show after.self.runtime.maximumPacketSize = _ from flow.maximumPacketSize]
      exact RuntimeState.sized_of_requirePacketSize passed
    have reached := reached.flow flow
    simp only [disconnected, wp_bind, wp_note, wp_attempt, wp_update, wp_ofExcept]
    refine writeDirect_spec (.begin reached ready) (fun chunks after whole sent => ?_)
      (fun error after broken => ?_) (fun stop after dropped => ?_)
    · have asked (rest : List (Reply τ)) := (sent.replied rest).record .flushing
      rw [wp_bind]
      refine wp_flush (fun error rest _ => ?_) (fun rest _ => ?_) (fun rest => .inr ?_)
        (fun rest _ => .inr ?_)
      · exact .inl ((asked rest).broken (.accepted whole))
      · -- The timers a flush would restart are cleared with the connection.
        exact ((asked rest).record .flushed).broken (.flushed whole)
      · exact (asked rest).dropped (.accepted whole) (by simp)
      · exact (asked rest).dropped (.accepted whole) (by simp)
    · exact .inl broken
    · cases stop with
      | error error => exact absurd rfl (dropped.dropped error)
      | dropped => exact .inr dropped
      | expired => exact .inr dropped
  · exact .inl reached

/-- A call of `disconnectWith` follows the transitions, unless it is dropped. -/
theorem disconnectWith_spec (reached : Reached origin world) (disconnect : Disconnect) :
    wp (disconnectWith disconnect : Client τ (Error τ) Unit)
      (fun _ after => Reached origin after)
      (fun stop after => Reached origin after ∨ Dropped origin stop after) world := by
  -- The packet is encoded before anything is flushed, so a bad one ends nothing.
  unfold disconnectWith
  simp only [wp_bind, wp_self, wp_ite, wp_pure, wp_fail]
  split
  · exact reached
  · rename_i alive
    simp only [Bool.not_eq_true', Bool.not_eq_false] at alive
    split
    · exact .inl reached
    · cases encoded : encode smallBuf disconnect with
      | error error => exact .inl reached
      | ok packet => exact sendDisconnect_spec reached alive (.disconnect encoded)

end Minimq

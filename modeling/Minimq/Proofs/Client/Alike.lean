import Minimq.Lib.Relational
import Minimq.Proofs.Codec.Encoding
import Minimq.Proofs.Client.Durable
import Minimq.Proofs.Client.Operations
import Minimq.Proofs.Client.Ledger

/-! Connections that differ only in bytes nobody may look at, and handlers that keep it so. -/

namespace Minimq

open Hoare Async

variable {τ ε α : Type} {left right : Bytes}

theorem SameUpTo.eq_of_le {used : Nat} (same : SameUpTo used left right)
    (all : left.length ≤ used) : right = left := by
  have kept := same.kept
  rwa [List.take_of_length_le (same.size ▸ all), List.take_of_length_le all] at kept

theorem SameUpTo.write {used : Nat} (same : SameUpTo used left right)
    (data : Bytes) : SameUpTo (used + data.length) (Arena.overwrite left used data)
      (Arena.overwrite right used data) := by
  refine ⟨?_, ?_⟩
  · simp only [Arena.overwrite, List.length_append, List.length_take, List.length_drop, same.size]
  · rw [Arena.take_overwrite_end, Arena.take_overwrite_end, same.kept]

/-- Closing the same gap keeps the area behind it. -/
theorem SameUpTo.close {front gone back : Nat} (same : SameUpTo (front + gone + back) left right) :
    SameUpTo (front + back)
      (Arena.copyWithin left (front + gone) (front + gone + back) front)
      (Arena.copyWithin right (front + gone) (front + gone + back) front) := by
  -- If the arenas end here they are equal, and otherwise the same bytes are moved.
  rcases Nat.le_total left.length (front + gone + back) with all | within
  · rw [same.eq_of_le all]
    exact ⟨rfl, rfl⟩
  · have moved : ((left.take (front + gone + back)).drop (front + gone)).length = back := by
      rw [List.length_drop, List.length_take]
      omega
    have written := (same.mono (show front ≤ front + gone + back by omega)).write
      ((left.take (front + gone + back)).drop (front + gone))
    rw [moved] at written
    rwa [Arena.copyWithin, Arena.copyWithin, same.kept]

namespace Outbound

variable {outbound : Outbound} {buf : Bytes}

/-- An arena with other bytes behind the retained packets. -/
abbrev Repainted (outbound : Outbound) (buf : Bytes) : Prop :=
  SameUpTo outbound.retainedBytes outbound.buf buf

theorem retainedBytes_armReplay : outbound.armReplay.retainedBytes = outbound.retainedBytes := by
  unfold armReplay
  split
  · simp [retainedBytes, bytesOf, markPublishDup, Function.comp_def]
  · rfl

/-- Starting packets over marks the same publications. -/
theorem Repainted.armReplay (same : outbound.Repainted buf) :
    ∃ buf', armReplay { outbound with buf } = { outbound.armReplay with buf := buf' } ∧
      outbound.armReplay.Repainted buf' := by
  -- Marking depends on the lengths of the packets only, which both arenas share.
  unfold Repainted
  rw [retainedBytes_armReplay]
  unfold Outbound.armReplay
  by_cases pending : outbound.hasPendingState = true
  · refine ⟨markDupFrom 0 outbound.retained.toList buf, ?_, ?_⟩
    · rw [if_pos pending, if_pos (by exact pending)]
      rfl
    · rw [if_pos pending]
      refine ⟨?_, ?_⟩
      · simp only [markPublishDup, length_markDupFrom, same.size]
      · simp only [markPublishDup, take_markDupFrom, same.kept]
  · exact ⟨buf, by rw [if_neg pending, if_neg (by exact pending)], by rwa [if_neg pending]⟩

/-- The same packet is dropped, and the same packets move up. -/
theorem Repainted.ackPacket (same : outbound.Repainted buf) (kind : OpKind) (packetId : UInt16) :
    (outbound.ackPacket kind packetId = none ∧
      ({ outbound with buf } : Outbound).ackPacket kind packetId = none) ∨
    ∃ acked buf', outbound.ackPacket kind packetId = some acked ∧
      ({ outbound with buf } : Outbound).ackPacket kind packetId =
        some { acked with buf := buf' } ∧ acked.Repainted buf' := by
  unfold Outbound.ackPacket
  simp only
  cases found : outbound.retained.toList.findIdx?
      (fun entry => entry.kind == kind && entry.packetId == packetId) with
  | none => exact .inl ⟨rfl, rfl⟩
  | some position =>
    refine .inr ⟨_, _, rfl, rfl, ?_⟩
    -- What stays is what is in front of the dropped packet and what is behind it.
    have total : outbound.retainedBytes = bytesOf (outbound.retained.toList.take position) +
        bytesOf ((outbound.retained.toList.drop position).take 1) +
          bytesOf (outbound.retained.toList.drop (position + 1)) := by
      have whole : outbound.retained.toList = outbound.retained.toList.take position ++
          (outbound.retained.toList.drop position).take 1 ++
            outbound.retained.toList.drop (position + 1) := by
        rw [← List.drop_drop, List.append_assoc, List.take_append_drop, List.take_append_drop]
      rw [retainedBytes]
      conv_lhs => rw [whole]
      simp only [bytesOf, List.map_append, List.sum_append]
    have left : ({ outbound with retained := outbound.retained.remove position } :
        Outbound).retainedBytes = bytesOf (outbound.retained.toList.take position) +
          bytesOf (outbound.retained.toList.drop (position + 1)) := by
      simp [retainedBytes, bytesOf, List.eraseIdx_eq_take_drop_succ]
    unfold Repainted
    rw [retainedBytes] at left
    rw [retainedBytes, left]
    show SameUpTo _ (Arena.copyWithin outbound.buf _ outbound.retainedBytes _)
      (Arena.copyWithin buf _ outbound.retainedBytes _)
    rw [total]
    exact SameUpTo.close (total ▸ same)

end Outbound

/-- The same state over an arena with other bytes. -/
def Handling.repaint (buf : Bytes) (state : Handling) : Handling :=
  { state with data := { state.data with outbound := { state.data.outbound with buf } } }

/-- Two states that differ only behind the retained packets. -/
def Handling.Alike (left right : Handling) : Prop :=
  ∃ buf, right = left.repaint buf ∧ left.data.outbound.Repainted buf

namespace Handler

variable {left right : Handling}

/-- Dropping an acknowledged packet. -/
theorem ackPacket_agree (alike : left.Alike right) (kind : OpKind) (packetId : UInt16) :
    Agree Handling.Alike Handling.Alike (ackPacket kind packetId) left right := by
  -- The search does not look at the arena, so it ends the same way in both.
  obtain ⟨buf, rfl, same⟩ := alike
  unfold Agree ackPacket
  simp only [both_get_bind, Handling.repaint]
  obtain ⟨none, none'⟩ | ⟨acked, buf', done, done', same'⟩ := same.ackPacket kind packetId
  · rw [none, none']
    exact ⟨rfl, buf, rfl, same⟩
  · rw [done, done']
    exact ⟨rfl, buf', rfl, same'⟩

/-- Dropping a completed publication. -/
theorem ackRelease_agree (alike : left.Alike right) (packetId : UInt16) :
    Agree Handling.Alike Handling.Alike (ackRelease packetId) left right := by
  -- The pending releases are not in the arena at all.
  obtain ⟨buf, rfl, same⟩ := alike
  unfold Agree ackRelease
  simp only [both_get_bind, Handling.repaint]
  unfold Outbound.ackRelease
  simp only
  cases left.data.outbound.pendingRelease.toList.findIdx? (·.packetId == packetId) with
  | none => exact ⟨rfl, buf, rfl, same⟩
  | some position => exact ⟨rfl, buf, rfl, same⟩

theorem returnQuota_agree (alike : left.Alike right) :
    Agree Handling.Alike Handling.Alike returnQuota left right := by
  obtain ⟨buf, rfl, same⟩ := alike
  exact ⟨rfl, buf, rfl, same⟩

theorem require_agree (alike : left.Alike right) (code : ReasonCode) :
    Agree Handling.Alike Handling.Alike (require code) left right := by
  unfold Agree require
  cases code.asResult with
  | ok value => exact ⟨rfl, alike⟩
  | error error => exact ⟨rfl, alike⟩

theorem protocol_agree {β : Type} (alike : left.Alike right) (result : Except ProtocolError β) :
    Agree Handling.Alike Handling.Alike (protocol result) left right := by
  cases result with
  | ok value => exact ⟨rfl, alike⟩
  | error error => exact ⟨rfl, alike⟩

theorem requireAll_agree (alike : left.Alike right) (codes : Bytes) :
    Agree Handling.Alike Handling.Alike (requireAll codes) left right := by
  induction codes generalizing left right with
  | nil => exact ⟨rfl, alike⟩
  | cons code rest ih =>
    exact (require_agree alike _).bind (fun _ _ _ alike => ih alike) (fun _ _ _ => id)

theorem queueControl_agree (alike : left.Alike right) (action : ControlAction) :
    Agree Handling.Alike Handling.Alike (queueControl action) left right := by
  -- The limit on sizes and the room in the queue are common to both.
  have limit : right.runtime = left.runtime := by
    obtain ⟨buf, rfl, -⟩ := alike
    rfl
  unfold Agree queueControl
  simp only [both_get_bind, limit]
  refine (protocol_agree alike _).bind (fun _ left right alike => ?_) (fun _ _ _ => id)
  obtain ⟨buf, rfl, same⟩ := alike
  simp only [both_get_bind, Handling.repaint, Outbound.queueControl]
  cases left.data.outbound.pendingControl.push ⟨action, .write 0⟩ with
  | none => exact ⟨rfl, buf, rfl, same⟩
  | some controls => exact ⟨trivial, buf, rfl, same⟩

theorem queueRelease_agree (alike : left.Alike right) (packetId : UInt16) (reason : ReasonCode) :
    Agree Handling.Alike Handling.Alike (queueRelease packetId reason) left right := by
  obtain ⟨buf, rfl, same⟩ := alike
  unfold Agree queueRelease
  simp only [both_get_bind, Handling.repaint, Outbound.queueRelease]
  -- Both queues have the same free slots.
  cases left.data.outbound.pendingRelease.push ⟨packetId, reason, .write 0⟩ with
  | none => exact ⟨rfl, buf, rfl, same⟩
  | some releases => exact ⟨trivial, buf, rfl, same⟩

theorem subAck_agree (alike : left.Alike right) (kind : OpKind) (ack : SubAck) :
    Agree Handling.Alike Handling.Alike (subAck kind ack) left right := by
  refine (ackPacket_agree alike _ _).bind (fun acked _ _ alike => ?_) (fun _ _ _ => id)
  cases acked with
  | true => exact (requireAll_agree alike _).bind (fun _ _ _ alike => ⟨rfl, alike⟩) (fun _ _ _ => id)
  | false => exact ⟨rfl, alike⟩

theorem pubAck_agree (alike : left.Alike right) (ack : PubAck) :
    Agree Handling.Alike Handling.Alike (pubAck ack) left right := by
  -- The publication is tracked in both or in neither.
  refine (ackPacket_agree alike _ _).bind (fun acked _ _ alike => ?_) (fun _ _ _ => id)
  cases acked with
  | true =>
    refine (returnQuota_agree alike).bind (fun _ _ _ alike => ?_) (fun _ _ _ => id)
    exact (require_agree alike _).bind (fun _ _ _ alike => ⟨rfl, alike⟩) (fun _ _ _ => id)
  | false => exact ⟨rfl, alike⟩

/-- A PUBREC. -/
theorem pubRec_agree (alike : left.Alike right) (rec : PubRec) :
    Agree Handling.Alike Handling.Alike (pubRec rec) left right := by
  -- Both states answer the same questions: what is tracked, and what the limits are.
  refine (ackPacket_agree alike _ _).bind (fun acked left right alike => ?_) (fun _ _ _ => id)
  cases acked with
  | true =>
    refine (returnQuota_agree alike).bind (fun _ _ _ alike => ?_) (fun _ _ _ => id)
    refine (require_agree alike _).bind (fun _ left right alike => ?_) (fun _ _ _ => id)
    have limit : right.runtime = left.runtime := by
      obtain ⟨buf, rfl, -⟩ := alike
      rfl
    simp only [both_get_bind, limit]
    refine (protocol_agree alike _).bind (fun _ _ _ alike => ?_) (fun _ _ _ => id)
    exact (queueRelease_agree alike _ _).bind (fun _ _ _ alike => ⟨rfl, alike⟩) (fun _ _ _ => id)
  | false =>
    have tracked : right.data.outbound.hasPendingRelease rec.packetId =
        left.data.outbound.hasPendingRelease rec.packetId := by
      obtain ⟨buf, rfl, -⟩ := alike
      rfl
    simp only [both_get_bind, tracked, Bool.false_eq_true, if_false]
    refine both_ite Iff.rfl (fun _ => ?_) (fun _ => ⟨rfl, alike⟩)
    exact (require_agree alike _).bind (fun _ _ _ alike => ⟨rfl, alike⟩) (fun _ _ _ => id)

theorem pubComp_agree (alike : left.Alike right) (comp : PubComp) :
    Agree Handling.Alike Handling.Alike (pubComp comp) left right := by
  refine (ackRelease_agree alike _).bind (fun acked _ _ alike => ?_) (fun _ _ _ => id)
  cases acked with
  | true => exact (require_agree alike _).bind (fun _ _ _ alike => ⟨rfl, alike⟩) (fun _ _ _ => id)
  | false => exact ⟨rfl, alike⟩

/-- A PUBREL. -/
theorem pubRel_agree (alike : left.Alike right) (rel : PubRel) :
    Agree Handling.Alike Handling.Alike (pubRel rel) left right := by
  -- The handshakes are common to both, so the same one is ended.
  obtain ⟨buf, rfl, same⟩ := alike
  unfold Agree pubRel
  simp only [both_get_bind, Handling.repaint]
  cases left.data.pendingServerPacketIds.toList.findIdx? (· == rel.packetId) with
  | none =>
    simp only [pure_bind]
    exact (queueControl_agree ⟨buf, rfl, same⟩ _).bind (fun _ _ _ alike => ⟨rfl, alike⟩)
      (fun _ _ _ => id)
  | some index =>
    simp only [both_set_bind, pure_bind]
    refine (@queueControl_agree _ (Handling.repaint buf _) ⟨buf, rfl, ?_⟩ _).bind
      (fun _ _ _ alike => ⟨rfl, alike⟩) (fun _ _ _ => id)
    exact same

theorem requirePacketId_agree (alike : left.Alike right) (info : Publish) :
    Agree Handling.Alike Handling.Alike (requirePacketId info) left right := by
  unfold Agree requirePacketId
  cases info.packetId with
  | none => exact ⟨rfl, alike⟩
  | some packetId => exact ⟨rfl, alike⟩

/-- An inbound publication. -/
theorem publish_agree (alike : left.Alike right) (info : Publish) :
    Agree Handling.Alike Handling.Alike (publish info) left right := by
  -- The answer depends on the level, the identifier and the handshakes only.
  unfold publish
  cases info.qos with
  | atMostOnce => exact ⟨rfl, alike⟩
  | atLeastOnce =>
    refine (requirePacketId_agree alike info).bind (fun packetId left right alike => ?_)
      (fun _ _ _ => id)
    obtain ⟨buf, rfl, same⟩ := alike
    simp only [both_get_bind, Handling.repaint]
    exact (queueControl_agree ⟨buf, rfl, same⟩ _).bind (fun _ _ _ alike => ⟨rfl, alike⟩)
      (fun _ _ _ => id)
  | exactlyOnce =>
    refine (requirePacketId_agree alike info).bind (fun packetId left right alike => ?_)
      (fun _ _ _ => id)
    obtain ⟨buf, rfl, same⟩ := alike
    simp only [both_get_bind, Handling.repaint]
    have answered {next : Handling} (reason : ReasonCode) (duplicate : Bool)
        (same : next.data.outbound.Repainted buf) :
        both (do
          queueControl (.pubRec packetId reason)
          return !(duplicate || !reason.isSuccess)) (do
          queueControl (.pubRec packetId reason)
          return !(duplicate || !reason.isSuccess))
          (fun value other left right => value = other ∧ left.Alike right)
          (fun _ => Handling.Alike) next (next.repaint buf) :=
      (queueControl_agree ⟨buf, rfl, same⟩ _).bind (fun _ _ _ alike => ⟨rfl, alike⟩)
        (fun _ _ _ => id)
    cases duplicate : left.data.pendingServerPacketIds.toList.contains packetId with
    | true => exact answered .success true same
    | false =>
      cases left.data.pendingServerPacketIds.push packetId with
      | some pushed => exact answered .success false same
      | none => exact answered .receiveMaxExceeded false same

end Handler

/-- Handling a packet looks only at what alike states have in common. -/
theorem handlePacket_agree {left right : Handling} (alike : left.Alike right)
    (packet : ReceivedPacket) :
    Agree Handling.Alike Handling.Alike (handlePacket packet) left right := by
  -- Each kind of packet is handled by its own function, which keeps states alike.
  cases packet with
  | connAck ack => exact ⟨rfl, alike⟩
  | subAck ack => exact Handler.subAck_agree alike _ ack
  | unsubAck ack => exact Handler.subAck_agree alike _ ack
  | pingResp =>
    obtain ⟨buf, rfl, same⟩ := alike
    exact ⟨rfl, buf, rfl, same⟩
  | pubAck ack => exact Handler.pubAck_agree alike ack
  | pubRec rec => exact Handler.pubRec_agree alike rec
  | pubComp comp => exact Handler.pubComp_agree alike comp
  | pubRel rel => exact Handler.pubRel_agree alike rel
  | publish info => exact Handler.publish_agree alike info
  | disconnect reason => exact ⟨rfl, alike⟩

end Minimq

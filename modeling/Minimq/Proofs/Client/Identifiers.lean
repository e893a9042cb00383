import Minimq.Proofs.Client.Change

/-! Packet identifiers are unique, and the search for a new one always ends. -/

namespace Minimq

open Async

variable {π τ : Type}

namespace Outbound

variable {outbound : Outbound}

/-- Changing the progress of a packet does not change its identifier. -/
theorem packetIds_setWritten (packet : Packet) (written len : Nat) :
    (outbound.setWritten written len packet).packetIds = outbound.packetIds := by
  cases packet with
  | control index => rfl
  | release packetId =>
    exact congrArg (_ ++ ·) (FixedVec.map_toList_modify fun _ => rfl)
  | retained packetId =>
    exact congrArg (· ++ _) (FixedVec.map_toList_modify fun _ => rfl)

theorem packetIds_armReplay : outbound.armReplay.packetIds = outbound.packetIds := by
  unfold armReplay
  split
  · simp [packetIds, markPublishDup, Function.comp_def]
  · rfl

/-- Acknowledging a packet takes its identifier away. -/
theorem packetIds_of_ackPacket {kind : OpKind} {packetId : UInt16} {acked : Outbound}
    (done : outbound.ackPacket kind packetId = some acked) :
    outbound.packetIds.Perm (packetId :: acked.packetIds) := by
  obtain ⟨front, gone, back, was, -, rfl, left, same⟩ := retained_of_ackPacket done
  have releases : acked.pendingRelease = outbound.pendingRelease := by rw [same]
  simp only [packetIds, was, left, releases, List.map_append, List.map_cons, List.append_assoc,
    List.cons_append]
  exact List.perm_middle

end Outbound

/-- A change adds no identifier. -/
theorem Change.packetIds {before after : Outbound} (change : Change before after) :
    after.packetIds.Subperm before.packetIds := by
  cases change with
  | wrote => rw [Outbound.packetIds_setWritten]
  | flushed =>
    refine List.Perm.subperm (List.Perm.of_eq ?_)
    simp [Outbound.packetIds, Outbound.completeFlush, Function.comp_def]
  | armed => rw [Outbound.packetIds_armReplay]
  | cleared => exact List.nil_subperm
  | queued done =>
    obtain ⟨controls, rfl, -⟩ := Outbound.controls_of_queueControl done
    exact .refl _
  | acked done => exact List.Subperm.cons_self.trans (Outbound.packetIds_of_ackPacket done).symm.subperm
  | released done queued =>
    -- The identifier moves from one queue to the other.
    obtain ⟨releases, rfl, appended⟩ := Outbound.releases_of_queueRelease queued
    refine List.Perm.subperm (List.Perm.trans ?_ (Outbound.packetIds_of_ackPacket done).symm)
    simp only [Outbound.packetIds, appended, List.map_append, List.map_cons, List.map_nil,
      ← List.append_assoc]
    exact List.perm_append_singleton _ _
  | completed done =>
    obtain ⟨gone, -, left, same⟩ := Outbound.releases_of_ackRelease done
    have retained : after.retained = before.retained := by rw [same]
    rw [Outbound.packetIds, Outbound.packetIds, retained]
    refine (List.subperm_append_left _).mpr ?_
    exact List.Subperm.cons_self.trans (left.map _).symm.subperm
  | scratched kept => exact .refl _
  | reserved done =>
    obtain ⟨-, -, rfl⟩ := Outbound.room_of_setConnectWorkspace done
    exact .refl _

/-- Identifiers in use are distinct and not zero. -/
structure Outbound.Identified (outbound : Outbound) : Prop where
  /-- No identifier is used twice. -/
  distinct : outbound.packetIds.Nodup
  /-- Zero is not an identifier. -/
  nonzero : 0 ∉ outbound.packetIds

theorem Outbound.Identified.of_subperm {before after : Outbound} (identified : before.Identified)
    (fewer : after.packetIds.Subperm before.packetIds) : after.Identified := by
  refine ⟨?_, fun zero => identified.nonzero (fewer.subset zero)⟩
  obtain ⟨kept, same, part⟩ := fewer
  exact same.nodup_iff.mp (identified.distinct.sublist part)

theorem SessionData.isLive_iff {data : SessionData} {packetId : UInt16} :
    data.isLive packetId = true ↔ packetId ∈ data.outbound.packetIds := by
  simp [isLive, Outbound.hasRetained, Outbound.hasPendingRelease, Outbound.packetIds]

/-- An admitted operation adds an identifier that is not in use. -/
theorem Admits.identified {before after : ClientMoment} (admits : Admits before after)
    (identified : before.self.outbound.Identified) : after.self.outbound.Identified := by
  obtain ⟨kind, packetId, packet, buf, retained, admissible, self, -⟩ := admits
  -- The identifier was searched for among those in use, so it is new.
  have unused : packetId ∉ before.self.outbound.packetIds := by
    rw [← SessionData.isLive_iff, admissible.unused]
    simp
  have added : after.self.outbound.packetIds.Perm (packetId :: before.self.outbound.packetIds) := by
    rw [self, Connection.enlist_outbound]
    simp only [Outbound.packetIds, FixedVec.toList_of_push admissible.slot, List.map_append,
      List.map_cons, List.map_nil, List.append_assoc, List.singleton_append]
    exact List.perm_middle
  refine ⟨added.nodup_iff.mpr (List.nodup_cons.mpr ⟨unused, identified.distinct⟩), fun zero => ?_⟩
  rcases List.mem_cons.mp (added.mem_iff.mp zero) with zero | zero
  · exact admissible.nonzero zero.symm
  · exact identified.nonzero zero

theorem Step.identified {before after : ClientMoment} (step : Step τ before after)
    (identified : before.self.outbound.Identified) : after.self.outbound.Identified := by
  rcases step.change with ⟨changes, -⟩ | admits
  · exact changes.keep (fun change known => known.of_subperm change.packetIds) identified
  · exact admits.identified identified

theorem run_identified (config : ConfigBuilder) (clock : Clock) (calls : List (Invocation π τ)) :
    (run (start config clock) calls).self.outbound.Identified :=
  run_keeps (P := fun moment => moment.self.outbound.Identified)
    ⟨List.nodup_nil, List.not_mem_nil⟩ Step.identified
    (fun torn identified => by rw [torn.self]; exact identified) calls

namespace NonZeroId

/-- The place of an identifier in the cycle of all identifiers. -/
def place (id : NonZeroId) : Nat := id.val.toNat - 1

theorem place_lt (id : NonZeroId) : id.place < 65535 := by
  have := id.val.toNat_lt
  have positive : id.val.toNat ≠ 0 := fun zero => id.property (UInt16.toNat_inj.mp zero)
  unfold place
  omega

/-- The next identifier is one place further, or back at the start. -/
theorem place_succ (id : NonZeroId) : id.succ.place = (id.place + 1) % 65535 := by
  -- The successor of the largest identifier is one, because zero is none.
  have bound := id.val.toNat_lt
  have positive : id.val.toNat ≠ 0 := fun zero => id.property (UInt16.toNat_inj.mp zero)
  have next : (id.val + 1).toNat = (id.val.toNat + 1) % 2 ^ 16 := UInt16.toNat_add _ _
  unfold succ place
  split
  · rename_i nonzero
    have : (id.val + 1).toNat ≠ 0 := fun zero => nonzero (UInt16.toNat_inj.mp zero)
    dsimp only
    omega
  · rename_i wrapped
    simp only [ne_eq, not_not] at wrapped
    rw [wrapped] at next
    simp at next ⊢
    omega

theorem eq_of_place {first second : NonZeroId} (same : first.place = second.place) :
    first = second := by
  -- Places are counted without the zero, which no identifier is.
  have positive (id : NonZeroId) : id.val.toNat ≠ 0 :=
    fun zero => id.property (UInt16.toNat_inj.mp zero)
  have left := positive first
  have right := positive second
  unfold place at same
  exact Subtype.ext (UInt16.toNat_inj.mp (by omega))

theorem place_iterate (id : NonZeroId) (count : Nat) :
    (succ^[count] id).place = (id.place + count) % 65535 := by
  induction count with
  | zero => exact (Nat.mod_eq_of_lt id.place_lt).symm
  | succ count ih =>
    rw [Function.iterate_succ_apply', place_succ, ih]
    omega

end NonZeroId

/-- A search that finds nothing has tried only identifiers in use. -/
theorem SessionData.isLive_of_nextPacketIdLoop {fuel : Nat} {data : SessionData}
    (none : nextPacketIdLoop fuel data = none) {count : Nat} (tried : count < fuel) :
    data.isLive (NonZeroId.succ^[count] data.packetId).val = true := by
  -- Each round tries one identifier and passes on to the next.
  induction fuel generalizing data count with
  | zero => omega
  | succ fuel ih =>
    simp only [nextPacketIdLoop] at none
    split at none
    · simp at none
    · rename_i used
      cases count with
      | zero => simpa [isLive, Classical.or_iff_not_imp_left] using used
      | succ count =>
        have later := ih none (Nat.lt_of_succ_lt_succ tried)
        rw [Function.iterate_succ_apply]
        exact later

/-- At most sixteen identifiers are in use, so one of the next seventeen is free. -/
theorem SessionData.nextPacketId_isSome (data : SessionData) : data.nextPacketId.isSome := by
  -- Seventeen consecutive identifiers are distinct, and only sixteen can be in use.
  rw [Option.isSome_iff_ne_none]
  intro none
  have tried : ∀ id ∈ (List.range 17).map fun count =>
      (NonZeroId.succ^[count] data.packetId).val, id ∈ data.outbound.packetIds := by
    intro id found
    obtain ⟨count, small, rfl⟩ := List.mem_map.mp found
    rw [List.mem_range] at small
    exact isLive_iff.mp (isLive_of_nextPacketIdLoop none (Nat.lt_of_lt_of_le small (by decide)))
  have distinct : ((List.range 17).map fun count =>
      (NonZeroId.succ^[count] data.packetId).val).Nodup := by
    refine List.Nodup.map_on (fun first small second small' same => ?_) List.nodup_range
    rw [List.mem_range] at small small'
    have places := congrArg NonZeroId.place (Subtype.val_injective same)
    rw [NonZeroId.place_iterate, NonZeroId.place_iterate] at places
    omega
  have few := (List.subperm_of_subset distinct tried).length_le
  have retained := data.outbound.retained.bounded
  have releases := data.outbound.pendingRelease.bounded
  simp only [Outbound.packetIds, List.length_map, List.length_range, List.length_append, maxRetained,
    maxPendingRelease] at few retained releases
  omega

/--
In every run the identifiers in use are distinct and not zero, and a new one is always found.

The search ends because at most sixteen identifiers are in use at once, wherever the cursor is.
-/
theorem run_packetIds_unique_available (config : ConfigBuilder) (clock : Clock)
    (calls : List (Invocation π τ)) :
    let data := (run (start config clock) calls).self.session.data
    data.outbound.packetIds.Nodup ∧ (∀ packetId ∈ data.outbound.packetIds, packetId ≠ 0) ∧
      ∃ packetId next, data.nextPacketId = some (packetId, next) ∧ packetId ≠ 0 ∧
        packetId ∉ data.outbound.packetIds := by
  intro data
  have identified := run_identified config clock calls
  refine ⟨identified.distinct, fun packetId used zero => identified.nonzero (zero ▸ used), ?_⟩
  obtain ⟨⟨packetId, next⟩, found⟩ := Option.isSome_iff_exists.mp data.nextPacketId_isSome
  obtain ⟨nonzero, unused, -⟩ := SessionData.nextPacketIdLoop_eq_some found
  refine ⟨packetId, next, found, nonzero, fun used => ?_⟩
  rw [← SessionData.isLive_iff, unused] at used
  simp at used

end Minimq

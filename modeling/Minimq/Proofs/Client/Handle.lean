import Minimq.Proofs.Client.Chapter
import Minimq.Proofs.Client.Holdings
import Minimq.Proofs.Client.Release

/-! A handle speaks about its own operation until its identifier is given away again. -/

namespace Minimq

open Hoare Async

variable {π τ : Type} {before after : ClientMoment} {world : ClientWorld τ} {op : Op}
variable {packet : ReceivedPacket} {packetId : UInt16}

/-- The identifiers in use. -/
def Docket.packetIds (docket : Docket) : List UInt16 := docket.keys.map Prod.snd ++ docket.releases

/-- An operation is tracked, as a packet or as a pending release. -/
def Docket.Carries (docket : Docket) (op : Op) : Prop :=
  (op.kind, op.packetId) ∈ docket.keys ∨
    op.kind = .publishExactlyOnce ∧ op.packetId ∈ docket.releases

/-- A packet that brings an operation to its end. -/
def Handling.Concludes (before : Handling) (op : Op) : ReceivedPacket → Prop
  | .subAck ack => op.kind = .subscribe ∧ ack.packetId = op.packetId
  | .unsubAck ack => op.kind = .unsubscribe ∧ ack.packetId = op.packetId
  | .pubAck ack => op.kind = .publishAtLeastOnce ∧ ack.packetId = op.packetId
  -- A QoS 2 publication goes on if its PUBREC reports success and its release can be tracked.
  | .pubRec rec => op.kind = .publishExactlyOnce ∧ rec.packetId = op.packetId ∧
    (.publishExactlyOnce, op.packetId) ∈ before.data.outbound.docket.keys ∧
    ¬ (rec.reason.code.isSuccess = true ∧ before.TakesRelease op.packetId)
  | .pubComp comp => op.kind = .publishExactlyOnce ∧ comp.packetId = op.packetId ∧
    op.packetId ∈ before.data.outbound.docket.releases
  | _ => False

/-- An operation was brought to its end. -/
def Ends (op : Op) (event : Happening Event) : Prop :=
  ∃ before packet delivered, event = .noted (.handled before packet delivered) ∧
    before.Concludes op packet

/-- The session was not started over, and no operation took over the identifier. -/
structure Unshared (op : Op) (later : List (Happening Event)) : Prop where
  /-- The session was not started over. -/
  kept : .noted .reset ∉ later
  /-- No other operation was admitted under the identifier. -/
  alone : ∀ event ∈ later, ∀ admission, admissionOf event = some admission →
    admission.packetId ≠ op.packetId

namespace Dispatch

variable {before : Handling} {taken : Taken} {after : Docket}

/-- No packet brings an identifier into use. -/
theorem packetIds_subset (dispatch : Dispatch packet before taken after) :
    after.packetIds ⊆ before.data.outbound.docket.packetIds := by
  -- An acknowledged packet may leave its identifier to its release.
  have left {kind : OpKind} {packetId : UInt16} {added : List UInt16}
      (left : before.data.outbound.docket.keys.Perm ((kind, packetId) :: after.keys))
      (releases : after.releases = before.data.outbound.docket.releases ++ added)
      (own : ∀ other ∈ added, other = packetId) :
      after.packetIds ⊆ before.data.outbound.docket.packetIds := by
    intro known found
    have perm := left.map Prod.snd
    simp only [Docket.packetIds, releases, List.mem_append] at found ⊢
    rcases found with kept | old | new
    · exact .inl (perm.mem_iff.mpr (List.mem_cons_of_mem _ kept))
    · exact .inr old
    · rw [own known new]
      exact .inl (perm.mem_iff.mpr List.mem_cons_self)
  cases dispatch with
  | same => exact List.Subset.refl _
  | answered _ gone releases _ => exact left gone (by rw [releases, List.append_nil]) (by simp)
  | published _ gone releases => exact left gone (by rw [releases, List.append_nil]) (by simp)
  | refused _ _ gone releases => exact left gone (by rw [releases, List.append_nil]) (by simp)
  | lost _ _ gone releases _ => exact left gone (by rw [releases, List.append_nil]) (by simp)
  | released _ _ gone releases _ => exact left gone releases (by simp)
  | completed _ found keys releases =>
    have perm := (swapRemove_findIdx? found).1
    intro known
    simp only [Docket.packetIds, keys, releases, List.mem_append]
    exact Or.imp_right fun kept => perm.mem_iff.mpr (List.mem_cons_of_mem _ kept)

/-- A tracked operation stays tracked unless the packet brings it to its end. -/
theorem carries (dispatch : Dispatch packet before taken after)
    (carries : before.data.outbound.docket.Carries op) (going : ¬ before.Concludes op packet) :
    after.Carries op := by
  -- Only the acknowledged packet leaves the retained ones.
  have kept {kind : OpKind} {packetId : UInt16}
      (left : before.data.outbound.docket.keys.Perm ((kind, packetId) :: after.keys))
      (releases : before.data.outbound.docket.releases ⊆ after.releases)
      (other : (op.kind, op.packetId) ≠ (kind, packetId)) : after.Carries op := by
    rcases carries with retained | ⟨level, pending⟩
    · exact .inl ((List.mem_cons.mp (left.mem_iff.mp retained)).resolve_left other)
    · exact .inr ⟨level, releases pending⟩
  cases dispatch with
  | same => exact carries
  | answered _ left releases answers =>
    refine kept left (by rw [releases]; exact List.Subset.refl _) fun same => going ?_
    cases answers <;> exact ⟨(Prod.mk.inj same).1, (Prod.mk.inj same).2.symm⟩
  | published same left releases =>
    refine kept left (by rw [releases]; exact List.Subset.refl _) fun own => going ?_
    rw [same]
    exact ⟨(Prod.mk.inj own).1, (Prod.mk.inj own).2.symm⟩
  | refused same failure left releases =>
    refine kept left (by rw [releases]; exact List.Subset.refl _) fun own => going ?_
    obtain ⟨level, id⟩ := Prod.mk.inj own
    rw [same]
    refine ⟨level, id.symm, ?_, fun fine => by simp [failure] at fine⟩
    rw [id]
    exact left.mem_iff.mpr List.mem_cons_self
  | lost same success left releases cause =>
    refine kept left (by rw [releases]; exact List.Subset.refl _) fun own => going ?_
    obtain ⟨level, id⟩ := Prod.mk.inj own
    rw [same]
    refine ⟨level, id.symm, ?_, fun fine => ?_⟩
    · rw [id]
      exact left.mem_iff.mpr List.mem_cons_self
    · rw [id] at fine
      rcases cause with ⟨large, -⟩ | full
      · simp [fine.2.sized] at large
      · have slot := fine.2.slot
        simp only [Outbound.docket, List.length_map] at full
        simp [FixedVec.length, full] at slot
  | @released _ rec same success left releases fits =>
    by_cases own : (op.kind, op.packetId) = (.publishExactlyOnce, rec.packetId)
    · obtain ⟨level, id⟩ := Prod.mk.inj own
      exact .inr ⟨level, by rw [releases, id]; simp⟩
    · exact kept left (by rw [releases]; exact List.subset_append_left _ _) own
  | @completed _ comp index same found keys releases =>
    rcases carries with retained | ⟨level, pending⟩
    · exact .inl (keys ▸ retained)
    · -- Up to order, only the completed release leaves.
      have split := (swapRemove_findIdx? found).1
      rcases List.mem_cons.mp (split.mem_iff.mp pending) with own | other
      · exact absurd (same ▸ ⟨level, own.symm, pending⟩) going
      · exact .inr ⟨level, releases ▸ other⟩

end Dispatch

theorem Outbound.packetIds_docket (outbound : Outbound) :
    outbound.docket.packetIds = outbound.packetIds := (packetIds_eq_docket outbound).symm

/-- What removes an operation changes the tracked ones. -/
theorem Removes.docket_ne {before after : Outbound} {stage : Stage}
    (removes : Removes before after stage packetId) : after.docket ≠ before.docket := by
  -- One entry fewer is another list.
  intro same
  cases removes with
  | retained was own only left releases queued =>
    have entries (outbound : Outbound) : outbound.docket.keys.length = outbound.contents.length := by
      rw [Outbound.docket, List.length_map, Outbound.contents,
        ← congrArg List.length (Outbound.map_fst_contentsFrom outbound.buf 0 _), List.length_map]
    have lengths := congrArg (·.keys.length) same
    simp only [entries, was, left, List.length_append, List.length_cons] at lengths
    omega
  | release own left only contents =>
    have lengths := congrArg (·.releases.length) same
    simp only [Outbound.docket, List.length_map, left.length_eq, List.length_cons] at lengths
    omega

/-- An operation that a packet brings to its end is tracked where the packet looks for it. -/
theorem Handling.Concludes.acknowledges {before : Handling}
    (concludes : before.Concludes op packet) (carries : before.data.outbound.docket.Carries op) :
    ∃ ack : Acknowledgement, packet = ack.packet ∧
      before.data.outbound.Tracks ack.stage ack.packetId := by
  -- A stage is where the packet looks for the operation.
  have retained {kind : OpKind} {packetId : UInt16} (id : packetId = op.packetId)
      (found : (kind, op.packetId) ∈ before.data.outbound.docket.keys) :
      before.data.outbound.Tracks (.retained kind) packetId := by
    obtain ⟨entry, known, same⟩ := List.mem_map.mp found
    exact ⟨entry, known, (Prod.mk.inj same).1, (Prod.mk.inj same).2.trans id.symm⟩
  have first {kind : OpKind} (level : op.kind = kind) (other : kind ≠ .publishExactlyOnce) :
      (kind, op.packetId) ∈ before.data.outbound.docket.keys := by
    rcases carries with found | ⟨once, -⟩
    · exact level ▸ found
    · exact absurd (level.symm.trans once) other
  cases packet with
  | subAck ack =>
    obtain ⟨level, id⟩ := concludes
    exact ⟨.subAck ack, rfl, retained id (first level (by simp))⟩
  | unsubAck ack =>
    obtain ⟨level, id⟩ := concludes
    exact ⟨.unsubAck ack, rfl, retained id (first level (by simp))⟩
  | pubAck ack =>
    obtain ⟨level, id⟩ := concludes
    exact ⟨.pubAck ack, rfl, retained id (first level (by simp))⟩
  | pubRec rec =>
    obtain ⟨-, id, found, -⟩ := concludes
    exact ⟨.pubRec rec, rfl, retained id found⟩
  | pubComp comp =>
    obtain ⟨-, id, found⟩ := concludes
    obtain ⟨entry, known, same⟩ := List.mem_map.mp found
    exact ⟨.pubComp comp, rfl, entry, known, same.trans id.symm⟩
  | _ => exact concludes.elim

/-- A packet that brings an operation to its end sets its identifier free. -/
theorem Dispatch.absent {before : Handling} {taken : Taken} (sound : before.data.outbound.Sound)
    (dispatch : Dispatch packet before taken
      ((handlePacket packet).outcome before).2.data.outbound.docket)
    (carries : before.data.outbound.docket.Carries op) (concludes : before.Concludes op packet) :
    op.packetId ∉ ((handlePacket packet).outcome before).2.data.outbound.docket.packetIds := by
  obtain ⟨ack, acknowledges, tracked⟩ := concludes.acknowledges carries
  have changed := (acknowledges ▸ ((ack.confined sound).own tracked).2).docket_ne
  have few : ((handlePacket packet).outcome before).2.data.outbound.docket.releases.length ≤
      maxPendingRelease := by
    rw [Outbound.docket, List.length_map]
    exact FixedVec.bounded _
  have distinct := sound.distinct
  rw [← Outbound.packetIds_docket] at distinct
  generalize ((handlePacket packet).outcome before).2.data.outbound.docket = after at *
  -- The acknowledged packet was the only one with its identifier.
  have gone {kind : OpKind} {packetId : UInt16} (id : packetId = op.packetId)
      (left : before.data.outbound.docket.keys.Perm ((kind, packetId) :: after.keys))
      (releases : after.releases = before.data.outbound.docket.releases) :
      op.packetId ∉ after.packetIds := by
    have perm := (left.map Prod.snd).append_right before.data.outbound.docket.releases
    rw [Docket.packetIds, perm.nodup_iff] at distinct
    rw [← id, Docket.packetIds, releases]
    exact (List.nodup_cons.mp distinct).1
  cases dispatch with
  | same => exact absurd rfl changed
  | answered _ left releases answers => cases answers <;> exact gone concludes.2 left releases
  | published same left releases => exact gone (same ▸ concludes).2 left releases
  | refused same _ left releases => exact gone (same ▸ concludes).2.1 left releases
  | lost same _ left releases _ => exact gone (same ▸ concludes).2.1 left releases
  | released same success left releases fits =>
    subst same
    obtain ⟨-, id, -, impossible⟩ := concludes
    refine absurd ⟨success, ?_, id ▸ fits⟩ impossible
    rw [releases, List.length_append, Outbound.docket, List.length_map] at few
    exact few
  | completed same found keys releases =>
    subst same
    obtain ⟨-, id, -⟩ := concludes
    have perm := (swapRemove_findIdx? found).1.append_left
      (before.data.outbound.docket.keys.map Prod.snd)
    rw [Docket.packetIds, perm.nodup_iff, List.nodup_middle] at distinct
    rw [← id, Docket.packetIds, keys, releases]
    exact (List.nodup_cons.mp distinct).1

/-- Without a new session there is nothing to count. -/
theorem resets_eq_zero {trace : List (Happening Event)} :
    resets trace = 0 ↔ .noted .reset ∉ trace := by
  rw [resets, List.countP_eq_zero]
  refine ⟨fun none found => none _ found rfl, fun none event found reset => ?_⟩
  unfold isReset at reset
  split at reset
  · exact none found
  · cases reset

/-- How the generation of a session changes. -/
inductive Aging (before after : ClientMoment) : Prop where
  /-- The session is the same. -/
  | same {events : List (Happening Event)} (trace : after.trace = before.trace ++ events)
      (none : ∀ event ∈ events, isReset event = false)
      (generation : after.self.session.data.generation = before.self.session.data.generation)
  /-- The session is started over. -/
  | reset (trace : after.trace = before.trace ++ [.noted .reset])
      (generation : after.self.session.data.generation = before.self.session.data.generation + 1)

theorem Routine.isReset {event : Happening Event} (routine : Routine event) :
    isReset event = false := by
  cases routine <;> rfl

theorem Handled.generation {taken : Taken} {before after : Handling}
    (handled : Handled packet before taken after) :
    after.data.generation = before.data.generation := by
  cases handled <;> rfl

/-- Writing, flushing and keepalive do not start the session over. -/
theorem Outflow.aging (step : Outflow τ before after) : Aging before after := by
  -- None of these transitions notes a reset.
  cases step with
  | tick later => exact .same (List.append_nil _).symm (by simp) rfl
  | wrote alive idle next encoded positive within later =>
    refine .same rfl (by simp [isReset]) ?_
    unfold Connection.afterWrite
    dsimp only
    split <;> rfl
  | flushing alive ready => exact .same rfl (by simp [isReset]) rfl
  | flushed alive flushing later => exact .same rfl (by simp [isReset]) rfl
  | disconnected => exact .same (List.append_nil _).symm (by simp) rfl
  | pinged alive quiet due queued => exact .same (List.append_nil _).symm (by simp) rfl

/-- Only a new session changes the generation. -/
theorem Move.aging (move : Move τ before after) : Aging before after := by
  -- The generation is part of the session's data, which only a reset starts over.
  cases move with
  | torn torn =>
    obtain ⟨ready, part⟩ := torn
    exact .same rfl (fun event found => (part.routine event found).isReset) rfl
  | step step =>
    cases step with
    | outflow step => exact step.aging
    | upkeep step =>
      obtain ⟨events, trace, routine⟩ := step.routine
      refine .same trace (fun event found => (routine event found).isReset) ?_
      cases step <;> rfl
    | opening step =>
      obtain ⟨events, trace, routine⟩ := step.routine
      refine .same trace (fun event found => (routine event found).isReset) ?_
      cases step <;> rfl
    | handled packet alive quiet =>
      obtain ⟨taken, state, handled, -, same⟩ := before.self.handle_taken packet
      refine .same rfl (by simp [isReset]) ?_
      dsimp only
      rw [same]
      split <;> exact handled.generation
    | admitted admissible =>
      refine .same rfl (by simp [isReset]) ?_
      unfold Connection.enlist
      dsimp only
      split <;> rfl
    | direct ready whole later =>
      exact .same rfl (fun event found => (routine_whole event found).isReset) rfl
    | broken ready part =>
      exact .same rfl (fun event found => (part.routine event found).isReset) rfl
    | opened => exact .same rfl (by simp [isReset]) rfl
    | reset closed => exact .reset rfl rfl
    | connected closed later sized reserved quota limit state =>
      subst state
      exact .same rfl (by simp [isReset]) rfl

/-- The generation counts how often the session was started over. -/
def Aged (moment : ClientMoment) : Prop :=
  moment.self.session.data.generation = .ofNat (resets moment.trace)

/-- Every move keeps the count. -/
theorem Move.aged (move : Move τ before after) (aged : Aged before) : Aged after := by
  -- The generation counts the resets that were noted, modulo 2^32.
  unfold Aged resets at *
  cases move.aging with
  | @same events trace none generation =>
    have zero : events.countP isReset = 0 := List.countP_eq_zero.mpr (by simpa using none)
    rw [generation, aged, trace, List.countP_append, zero, Nat.add_zero]
  | reset trace generation =>
    rw [generation, aged, trace, List.countP_append]
    exact (UInt32.ofNat_add _ 1).symm

/-- What became of an operation, told by what happened since its handle was handed out. -/
structure Followed (op : Op) (base : List (Happening Event)) (moment : ClientMoment) : Prop where
  /-- The reachable state is sound. -/
  grounded : Grounded moment
  /-- The generation counts the sessions. -/
  aged : Aged moment
  /-- As long as the handle's identifier is its own, the operation is tracked until it ends. -/
  own : ∃ later, moment.trace = base ++ later ∧ (Unshared op later →
    ((∀ event ∈ later, ¬ Ends op event) → moment.self.outbound.docket.Carries op) ∧
    ((∃ event ∈ later, Ends op event) → op.packetId ∉ moment.self.outbound.docket.packetIds))

theorem Grounded.sound {moment : ClientMoment} (grounded : Grounded moment) :
    moment.self.outbound.Sound := by
  obtain ⟨files, archived⟩ := grounded.archived
  have retained := archived.roomy.retained
  unfold Outbound.retainedCapacity at retained
  exact ⟨Nat.le_trans retained (Nat.sub_le _ _), grounded.identified.distinct⟩

theorem Unshared.of_append {later events : List (Happening Event)}
    (unshared : Unshared op (later ++ events)) : Unshared op later :=
  ⟨fun found => unshared.kept (List.mem_append_left _ found),
    fun event found => unshared.alone event (List.mem_append_left _ found)⟩

/-- Every move keeps track of the operation. -/
theorem Move.followed {base : List (Happening Event)}
    (move : Move τ before after) (followed : Followed op base before) : Followed op base after := by
  obtain ⟨grounded, aged, later, was, own⟩ := followed
  refine ⟨move.grounded grounded, move.aged aged, ?_⟩
  cases move.tracking with
  | @steady events same trace steady =>
    refine ⟨later ++ events, by rw [trace, was, List.append_assoc], fun unshared => ?_⟩
    obtain ⟨carried, absent⟩ := own unshared.of_append
    have quiet : ∀ event ∈ events, ¬ Ends op event := by
      rintro event found ⟨state, packet, delivered, rfl, -⟩
      exact (steady _ found).unhandled state packet delivered rfl
    rw [same]
    refine ⟨fun going => carried fun event found => going event (List.mem_append_left _ found), ?_⟩
    rintro ⟨event, found, ended⟩
    rcases List.mem_append.mp found with old | new
    · exact absent ⟨event, old, ended⟩
    · exact absurd ended (quiet event new)
  | @admitted kind packetId packet unused quota same trace =>
    refine ⟨later ++ [_], by rw [trace, was, List.append_assoc], fun unshared => ?_⟩
    obtain ⟨carried, absent⟩ := own unshared.of_append
    have other : packetId ≠ op.packetId := unshared.alone _
      (List.mem_append_right _ (List.mem_singleton_self _)) ⟨kind, packetId, packet⟩ rfl
    rw [same]
    refine ⟨fun going => ?_, ?_⟩
    · exact (carried fun event found => going event (List.mem_append_left _ found)).imp_left
        (List.mem_append_left _)
    · rintro ⟨event, found, ended⟩
      rcases List.mem_append.mp found with old | new
      · have gone := absent ⟨event, old, ended⟩
        simp only [Docket.packetIds, List.mem_append, List.map_append, List.map_cons, List.map_nil,
          List.mem_singleton, not_or] at gone ⊢
        exact ⟨⟨gone.1, Ne.symm other⟩, gone.2⟩
      · obtain ⟨state, handled, delivered, same, -⟩ := ended
        rw [List.mem_singleton.mp new] at same
        cases same
  | @handled packet delivered taken dispatch fatal trace outcome =>
    refine ⟨later ++ [_], by rw [trace, was, List.append_assoc], fun unshared => ?_⟩
    obtain ⟨carried, absent⟩ := own unshared.of_append
    by_cases finished : ∃ event ∈ later, Ends op event
    · -- The identifier was set free before, and no packet brings it into use.
      obtain ⟨event, found, ended⟩ := finished
      refine ⟨fun going => ?_, fun _ used => ?_⟩
      · exact absurd ended (going event (List.mem_append_left _ found))
      · exact absent ⟨event, found, ended⟩ (dispatch.packetIds_subset used)
    · have carries := carried fun event found ended => finished ⟨event, found, ended⟩
      by_cases concludes : before.self.session.handling.Concludes op packet
      · refine ⟨fun going => ?_, fun _ => ?_⟩
        · have last := going _ (List.mem_append_right _ (List.mem_singleton_self _))
          exact absurd ⟨_, _, _, rfl, concludes⟩ last
        · rw [outcome] at dispatch ⊢
          exact dispatch.absent grounded.sound carries concludes
      · refine ⟨fun _ => dispatch.carries carries concludes, ?_⟩
        rintro ⟨event, found, ended⟩
        rcases List.mem_append.mp found with old | new
        · exact absurd ⟨event, old, ended⟩ finished
        · obtain ⟨state, other, known, same, ends⟩ := ended
          rw [List.mem_singleton.mp new] at same
          cases same
          exact absurd ends concludes
  | reset closed empty trace =>
    refine ⟨later ++ [_], by rw [trace, was, List.append_assoc], fun unshared => ?_⟩
    exact absurd (List.mem_append_right _ (List.mem_singleton_self _)) unshared.kept

theorem Move.extends_trace (move : Move τ before after) : before.trace <+: after.trace := by
  cases move.aging with
  | same trace none generation => exact ⟨_, trace.symm⟩
  | reset trace generation => exact ⟨_, trace.symm⟩

theorem Moves.extends_trace (moves : Moves τ before after) : before.trace <+: after.trace := by
  induction moves with
  | refl => exact List.prefix_refl _
  | tail _ move ih => exact ih.trans move.extends_trace

theorem Connection.docket_of_holdings {connection : Connection} {kind : OpKind}
    {len : Nat} {bytes : Bytes} (found : (kind, packetId, len, bytes) ∈ connection.holdings.retained) :
    (kind, packetId) ∈ connection.outbound.docket.keys := by
  obtain ⟨content, known, same⟩ := List.mem_map.mp found
  have entry := List.mem_map_of_mem (f := Prod.fst) known
  rw [Outbound.contents, Outbound.map_fst_contentsFrom] at entry
  simp only [RetainedPacket.holding, Prod.mk.injEq] at same
  exact List.mem_map.mpr ⟨content.1, entry, by rw [same.1, same.2.1]⟩

/-- What became of an operation is told by the docket. -/
theorem Session.status_of_docket {session : Session}
    (same : op.generation = session.data.generation) :
    (session.data.outbound.docket.Carries op → session.status op = .pending) ∧
    (op.packetId ∉ session.data.outbound.docket.packetIds → session.status op = .complete) := by
  -- The two queues of the docket are those that the status looks at.
  have retained : session.data.outbound.hasRetained op.packetId = true ↔
      op.packetId ∈ session.data.outbound.docket.keys.map Prod.snd := by
    simp [Outbound.hasRetained, Outbound.docket]
  have released : session.data.outbound.hasPendingRelease op.packetId = true ↔
      op.packetId ∈ session.data.outbound.docket.releases := by
    simp [Outbound.hasPendingRelease, Outbound.docket]
  have current : ¬ op.generation ≠ session.data.generation := not_not.mpr same
  unfold status
  rw [if_neg current]
  refine ⟨fun carries => if_pos ?_, fun absent => if_neg ?_⟩
  · rcases carries with found | ⟨level, found⟩
    · have found := retained.mpr (List.mem_map_of_mem (f := Prod.snd) found)
      cases op.kind <;> simp [found]
    · simp [level, released.mpr found]
  · rw [Docket.packetIds, List.mem_append, not_or, ← retained, ← released] at absent
    cases op.kind <;> simp [absent.1, absent.2]

/-- What happened between two worlds of a run. -/
def since (earlier world : ClientWorld τ) : List (Happening Event) :=
  world.trace.drop earlier.trace.length

/-- A handle tells what became of its own operation. -/
structure Tells (op : Op) (handed world : ClientWorld τ) : Prop where
  /-- After the session was started over, the operation is given up for good. -/
  invalidated : .noted .reset ∈ since handed world → world.self.session.status op = .invalidated
  /-- The operation is pending exactly as long as nothing brought it to its end. -/
  pending : Unshared op (since handed world) →
    (world.self.session.status op = .pending ↔ ∀ event ∈ since handed world, ¬ Ends op event)
  /-- It is complete exactly if something did. -/
  complete : Unshared op (since handed world) →
    (world.self.session.status op = .complete ↔ ∃ event ∈ since handed world, Ends op event)

/-- An operation that is followed since its handle was handed out is told truthfully. -/
theorem Followed.tells {handed world : ClientWorld τ}
    (followed : Followed op handed.trace world.moment) (aged : Aged handed.moment)
    (current : op.generation = handed.self.session.data.generation)
    (few : resets world.trace < 2 ^ 32) : Tells op handed world := by
  obtain ⟨-, counted, later, trace, own⟩ := followed
  have trace : world.trace = handed.trace ++ later := trace
  have since_eq : since handed world = later := by rw [since, trace, List.drop_left]
  have total : resets world.trace = resets handed.trace + resets later := by
    rw [trace, resets, List.countP_append]
    rfl
  have aged : op.generation = .ofNat (resets handed.trace) := current.trans aged
  have counted : world.self.session.data.generation =
      .ofNat (resets handed.trace + resets later) := total ▸ counted
  have same (unshared : Unshared op later) : op.generation = world.self.session.data.generation := by
    rw [aged, counted, resets_eq_zero.mpr unshared.kept, Nat.add_zero]
  refine ⟨fun reset => ?_, fun unshared => ?_, fun unshared => ?_⟩
  · -- So few sessions have different generations.
    rw [since_eq] at reset
    have some : resets later ≠ 0 := fun none => resets_eq_zero.mp none reset
    refine if_pos fun equal => ?_
    rw [aged, counted] at equal
    have equal := congrArg UInt32.toNat equal
    rw [UInt32.toNat_ofNat', UInt32.toNat_ofNat'] at equal
    omega
  all_goals
    rw [since_eq] at unshared ⊢
    obtain ⟨carried, absent⟩ := own unshared
    obtain ⟨pending, complete⟩ := Session.status_of_docket (same unshared)
  · refine ⟨fun status event found ended => ?_, fun going => pending (carried going)⟩
    rw [complete (absent ⟨event, found, ended⟩)] at status
    cases status
  · refine ⟨fun status => ?_, fun ended => complete (absent ended)⟩
    by_contra going
    rw [pending (carried fun event found ended => going ⟨event, found, ended⟩)] at status
    cases status

/-- A handle is returned only on a live connection. -/
theorem Invocation.alive_of_returned {invocation : Invocation π τ}
    (returned : invocation.result world = .ok (.op (some op))) : world.self.live = true := by
  -- Each operation checks the connection before it does anything else.
  by_contra dead
  obtain ⟨call, replies⟩ := invocation
  rw [Bool.not_eq_true] at dead
  cases call with
  | publish publication =>
    have refused : wp (publish publication : Client τ (PubError π τ) (Option Op)) (fun _ _ => False)
        (fun _ _ => True) { world with replies } := by
      simp only [publish, wp_bind, wp_self, dead, Bool.not_false, if_true, wp_fail]
    exact (post_of_resultOf refused returned).choose_spec.2
  | subscribe topics properties =>
    have refused : wp (subscribe topics properties : Client τ (Error τ) Op) (fun _ _ => False)
        (fun _ _ => True) { world with replies } := by
      simp only [subscribe, wp_bind, wp_self, dead, Bool.not_false, if_true, wp_fail]
    exact (post_of_resultOf refused returned).choose_spec.2
  | unsubscribe topics properties =>
    have refused : wp (unsubscribe topics properties : Client τ (Error τ) Op) (fun _ _ => False)
        (fun _ _ => True) { world with replies } := by
      simp only [unsubscribe, wp_bind, wp_self, dead, Bool.not_false, if_true, wp_fail]
    exact (post_of_resultOf refused returned).choose_spec.2
  | handleDisconnect => cases returned
  | _ =>
    obtain ⟨_, same⟩ := returned_of_resultOf returned
    cases same

theorem Moves.aged (moves : Moves τ before after) (aged : Aged before) : Aged after := by
  induction moves with
  | refl => exact aged
  | tail _ move ih => exact move.aged ih

theorem Moves.followed {base : List (Happening Event)}
    (moves : Moves τ before after) (followed : Followed op base before) : Followed op base after := by
  induction moves with
  | refl => exact followed
  | tail _ move ih => exact move.followed ih

/-- A handle that was just handed out belongs to an operation that is under way. -/
theorem followed_of_returned {config : ConfigBuilder} {clock : Clock}
    {first : List (Invocation π τ)} {invocation : Invocation π τ}
    (returned : invocation.result (run (start config clock) first) = .ok (.op (some op))) :
    op.generation =
        (invocation.perform (run (start config clock) first)).2.self.session.data.generation ∧
      Followed op (invocation.perform (run (start config clock) first)).2.trace
        (invocation.perform (run (start config clock) first)).2.moment := by
  -- What was granted is the last packet that is retained.
  have settled := (settled_start config clock).run first
  have moves := (settled.perform invocation).moves
  obtain ⟨packet, -, granted⟩ :=
    invocation.granted settled.tidy (Invocation.alive_of_returned returned) returned
  have last : (op.kind, op.packetId, packet.length, packet) ∈
      (invocation.perform (run (start config clock) first)).2.moment.self.holdings.retained := by
    rw [granted.holdings.1]
    exact List.mem_append_right _ (List.mem_singleton_self _)
  have grounded := moves.grounded (run_grounded config clock ([] : List (Invocation π τ)))
  refine ⟨granted.generation, grounded, moves.aged rfl, [], (List.append_nil _).symm,
    fun _ => ⟨fun _ => ?_, by simp⟩⟩
  exact .inl (Connection.docket_of_holdings last)

/-- A handle speaks about its own operation, and what is complete stays complete. -/
structure Truthful (op : Op) (handed : ClientWorld τ) (rest : List (Invocation π τ)) : Prop where
  /-- It tells what became of the operation. -/
  tells : Tells op handed (run handed rest)
  /-- A complete operation stays complete. -/
  lasting : Unshared op (since handed (run handed rest)) → ∀ earlier more, rest = earlier ++ more →
    (run handed earlier).self.session.status op = .complete →
    (run handed rest).self.session.status op = .complete

/--
A handle speaks about its own operation until its identifier is given away again.

Fewer than 2^32 sessions are told apart. As long as no other operation of the session is admitted
under the handle's identifier, the operation is pending until it is brought to its end, and then
complete for good.
-/
theorem status_own (config : ConfigBuilder) (clock : Clock) (first : List (Invocation π τ))
    (invocation : Invocation π τ) (op : Op)
    (returned : invocation.result (run (start config clock) first) = .ok (.op (some op)))
    (rest : List (Invocation π τ))
    (few : resets (run (start config clock) (first ++ invocation :: rest)).trace < 2 ^ 32) :
    Truthful op (invocation.perform (run (start config clock) first)).2 rest := by
  obtain ⟨current, followed⟩ := followed_of_returned returned
  have settled := ((settled_start config clock).run first).perform invocation
  have aged := settled.moves.aged rfl
  rw [run_append, run] at few
  generalize (invocation.perform (run (start config clock) first)).2 = handed at *
  have based : Settled handed.moment handed := ⟨.refl, settled.tidy, settled.rest⟩
  have tells (calls : List (Invocation π τ)) (few : resets (run handed calls).trace < 2 ^ 32) :
      Tells op handed (run handed calls) :=
    ((based.run calls).moves.followed followed).tells aged current few
  refine ⟨tells rest few, fun unshared earlier more split complete => ?_⟩
  have now := based.run earlier
  have next : Settled (run handed earlier).moment (run handed earlier) := ⟨.refl, now.tidy, now.rest⟩
  obtain ⟨later, first⟩ := now.moves.extends_trace
  obtain ⟨added, second⟩ := (next.run more).moves.extends_trace
  have first : (run handed earlier).trace = handed.trace ++ later := first.symm
  have second : (run handed rest).trace = handed.trace ++ (later ++ added) := by
    rw [split, run_append, ← List.append_assoc, ← first]
    exact second.symm
  rw [since, second, List.drop_left] at unshared
  -- What brought the operation to its end is still on record.
  have fewer : resets (run handed earlier).trace < 2 ^ 32 := by
    refine Nat.lt_of_le_of_lt ?_ few
    rw [first, second, ← List.append_assoc]
    exact List.Sublist.countP_le (List.sublist_append_left _ _)
  have ended := (tells earlier fewer).complete
  have still := (tells rest few).complete
  rw [since, first, List.drop_left] at ended
  rw [since, second, List.drop_left] at still
  obtain ⟨event, found, ends⟩ := (ended unshared.of_append).mp complete
  exact (still unshared).mpr ⟨event, List.mem_append_left _ found, ends⟩

/-- A connection on which nothing can be published and nothing is left to do. -/
structure Stalled (world : ClientWorld τ) : Prop where
  /-- The connection is live. -/
  alive : world.self.live = true
  /-- The quota is used up. -/
  exhausted : world.self.runtime.sendQuota = 0
  /-- A slot is left. -/
  slot : world.self.outbound.retained.isFull = false
  /-- Nothing is left to write or to flush. -/
  quiet : world.self.Quiet
  /-- No PINGREQ is due. -/
  idle : world.self.runtime.nextPing = none
  /-- Every quality of service is accepted. -/
  unlimited : world.self.runtime.maxQos = none
  /-- The transport has nothing to say. -/
  silent : world.replies = []

/-- The world with the cursor at another identifier, after some readings of the clock. -/
def advanced (world : ClientWorld τ) (cursor : NonZeroId) (readings : Nat) : ClientWorld τ :=
  { world with
    self := world.self.mapData fun data => { data with packetId := cursor }
    samples := world.samples + readings }

/-- Flushing a connection that has nothing to do only looks at the clock. -/
theorem flushOutbound_of_stalled {Q : Unit → ClientWorld τ → Prop}
    {E : Stop (Error τ) → ClientWorld τ → Prop} (quiet : world.self.Quiet)
    (idle : world.self.runtime.nextPing = none)
    (flushed : Q () { world with samples := world.samples + 1 }) : wp flushOutbound Q E world := by
  obtain ⟨none, clean⟩ := quiet
  unfold flushOutbound
  simp only [wp_bind, wp_rounds]
  rw [wp_iterate_succ]
  simp only [wp_bind, wp_now, serviceOutboundOnce, maybeQueuePingreq, shouldQueuePingreq,
    currentOutbound, currentSession, wp_self, wp_pure, wp_ite, clean, none, idle]
  simpa using flushed

/-- A publication that is not ready is refused. -/
theorem publishRetained_of_stalled (stalled : Stalled world)
    {header : PublishHeader} {payload : Payload π} (level : header.qos = .atLeastOnce) :
    wp (publishRetained header payload packetId : Client τ (PubError π τ) (Option Op))
      (fun _ after => after = { world with samples := world.samples + 1 })
      (fun _ after => after = { world with samples := world.samples + 1 }) world := by
  -- There is a slot, but no quota, which is checked next.
  have slot : ¬ world.self.outbound.retained.isFull = true := by simp [stalled.slot]
  have unready : world.self.canPublish header.qos = false := by
    have exhausted : world.self.session.runtime.sendQuota = 0 := stalled.exhausted
    simp [Connection.canPublish, Session.canPublish, exhausted, level]
  unfold publishRetained requireRetainedSlot
  simp only [currentOutbound, wp_bind, wp_self, wp_pure, if_neg slot, unready, Bool.not_false,
    if_true, wp_mapError]
  exact flushOutbound_of_stalled stalled.quiet stalled.idle rfl

/-- A publication that is not ready is refused, but takes an identifier. -/
theorem publish_of_stalled (stalled : Stalled world)
    (free : world.self.session.data.isLive world.self.session.data.packetId.val = false)
    {publication : Publication π} (valid : publication.properties.validFor .publish = true)
    (level : publication.qos = .atLeastOnce) :
    (finish (publish publication world : EStateM.Result (Stop (PubError π τ)) _ _)).2 =
      advanced world world.self.session.data.packetId.succ 1 := by
  -- The identifier is taken before the quota is looked at.
  have next : world.self.session.data.nextPacketId = some (world.self.session.data.packetId.val,
      { world.self.session.data with packetId := world.self.session.data.packetId.succ }) := by
    rw [SessionData.isLive, Bool.or_eq_false_iff] at free
    simp [SessionData.nextPacketId, SessionData.nextPacketIdLoop, free.1, free.2]
  have effective : effectiveQos world.self.session publication.qos = some .atLeastOnce := by
    have unlimited : world.self.session.runtime.maxQos = none := stalled.unlimited
    rw [effectiveQos, unlimited, level]
  have still : Stalled { world with self := world.self.mapData fun _ =>
      { world.self.session.data with packetId := world.self.session.data.packetId.succ } } :=
    ⟨stalled.alive, stalled.exhausted, stalled.slot, stalled.quiet, stalled.idle,
      stalled.unlimited, stalled.silent⟩
  refine finished_of_wp (P := (· = _)) ?_
  simp only [publish, currentSession, wp_bind, wp_self, wp_pure, stalled.alive, valid, effective,
    Bool.not_true, Bool.false_eq_true, if_false, takePacketId, next, updateData, wp_update]
  exact publishRetained_of_stalled still rfl

/-- A publication that finds no quota. -/
def unreadyPublication (publication : Publication π) : Invocation π τ := ⟨.publish publication, []⟩

/-- Publications that are not ready take one identifier after the other. -/
theorem run_of_stalled (stalled : Stalled world)
    {publication : Publication π} (valid : publication.properties.validFor .publish = true)
    (level : publication.qos = .atLeastOnce) (count : Nat)
    (free : ∀ tried < count, world.self.session.data.isLive
      (NonZeroId.succ^[tried] world.self.session.data.packetId).val = false) :
    run world (List.replicate count (unreadyPublication publication)) =
      advanced world (NonZeroId.succ^[count] world.self.session.data.packetId) count := by
  -- Each call takes one identifier and leaves the connection as stalled as it was.
  induction count generalizing world with
  | zero => rfl
  | succ count ih =>
    have silent : ({ world with replies := [] } : ClientWorld τ) = world := by
      rw [← stalled.silent]
    have one := publish_of_stalled stalled (free 0 (Nat.zero_lt_succ _)) valid level
    rw [List.replicate_succ, run, unreadyPublication, Invocation.perform, Call.perform, silent, one]
    have still : Stalled (advanced world world.self.session.data.packetId.succ 1) :=
      ⟨stalled.alive, stalled.exhausted, stalled.slot, stalled.quiet, stalled.idle,
        stalled.unlimited, stalled.silent⟩
    refine (ih still fun tried few => ?_).trans ?_
    · exact free (tried + 1) (Nat.succ_lt_succ few)
    · unfold advanced
      rw [Function.iterate_succ_apply, Nat.add_assoc, Nat.add_comm 1 count]
      rfl

/-- A connection on which one publication may be under way, with two acknowledgements to come. -/
def tightConnect : Invocation Unit Unit :=
  ⟨.connect [0x20, 6, 0, 0, 3, 0x21, 0, 1, 0x40, 2, 0, 1, 0x40, 2, 0, 2],
    [.ready 64, .ready 0, .ready 1, .ready 1, .ready 6]⟩

/-- A small QoS 1 publication. -/
def ackedPublication : Publication Unit :=
  ⟨oncePublication.topic, .slice [], .atLeastOnce, .ofBytes [], .notRetained⟩

/-- It is sent at once. -/
def ackedSent : Invocation Unit Unit := ⟨.publish ackedPublication, [.ready 64, .ready 0]⟩

/-- Its acknowledgement is read. -/
def ackRead : Invocation Unit Unit := ⟨.poll, [.ready 1, .ready 1, .ready 2]⟩

/-- A session without keepalive. -/
def patientStart : ClientWorld Unit := start (smallConfig 0) (steppingClock 1 4)

/-- The handle of the first publication. -/
def firstHandle : Op := ⟨.publishAtLeastOnce, 1, 1⟩

/-- While a second publication waits for its acknowledgement, all other identifiers are used up. -/
def goneAround : List (Invocation Unit Unit) :=
  [tightConnect, ackedSent, ackRead, ackedSent] ++
    (List.replicate 65533 (unreadyPublication ackedPublication) ++ [ackRead, ackedSent])

/-- The first publication is complete once its acknowledgement was read. -/
theorem status_own_acknowledged :
    Truthful firstHandle (ackedSent.perform (run patientStart [tightConnect])).2 [ackRead] ∧
    (run patientStart [tightConnect, ackedSent, ackRead]).self.session.status firstHandle =
      .complete := by
  refine ⟨?_, by decide +kernel⟩
  exact status_own (smallConfig 0) (steppingClock 1 4) [tightConnect] ackedSent firstHandle
    (eq_of_handleOf (by decide +kernel)) [ackRead] (by decide +kernel)

/-- The second publication waits for its acknowledgement. -/
def waitingSecond : ClientWorld Unit :=
  run patientStart [tightConnect, ackedSent, ackRead, ackedSent]

/-- After as many refused publications as there are other identifiers, the first one is next. -/
theorem run_goneAround : run patientStart goneAround =
    run (advanced waitingSecond ⟨1, by decide⟩ 65533) [ackRead, ackedSent] := by
  have stalled : Stalled waitingSecond :=
    ⟨by decide +kernel, by decide +kernel, by decide +kernel, ⟨by decide +kernel, by decide +kernel⟩,
      by decide +kernel, by decide +kernel, by decide +kernel⟩
  have used : waitingSecond.self.session.data.outbound.packetIds = [2] := by decide +kernel
  have cursor : waitingSecond.self.session.data.packetId = ⟨3, by decide⟩ := by decide +kernel
  have free : ∀ tried < 65533, waitingSecond.self.session.data.isLive
      (NonZeroId.succ^[tried] waitingSecond.self.session.data.packetId).val = false := by
    intro tried few
    rw [Bool.eq_false_iff]
    intro live
    -- Only the second identifier is in use, and it is the last one on the way around.
    have two := SessionData.isLive_iff.mp live
    rw [used, List.mem_singleton, cursor] at two
    have place := congrArg (fun id : UInt16 => id.toNat - 1) two
    have ahead := NonZeroId.place_iterate ⟨3, by decide⟩ tried
    unfold NonZeroId.place at ahead
    simp only at place ahead
    rw [place] at ahead
    change 1 = (2 + tried) % 65535 at ahead
    omega
  have back : NonZeroId.succ^[65533] waitingSecond.self.session.data.packetId = ⟨1, by decide⟩ := by
    refine NonZeroId.eq_of_place ?_
    rw [NonZeroId.place_iterate, cursor]
    rfl
  have around := @run_of_stalled Unit Unit _ stalled ackedPublication rfl rfl 65533 free
  rw [goneAround, run_append, run_append]
  exact congrArg (run · [ackRead, ackedSent]) (around.trans (by rw [back]))

/-- Its handle says pending again when its identifier is given away in the same session. -/
theorem status_own_reused :
    handleOf (ackedSent.result (run patientStart [tightConnect])) = some firstHandle ∧
    (run patientStart [tightConnect, ackedSent, ackRead]).self.session.status firstHandle =
      .complete ∧
    (run patientStart goneAround).self.session.status firstHandle = .pending ∧
    resets (run patientStart goneAround).trace =
      resets (run patientStart [tightConnect, ackedSent]).trace := by
  rw [run_goneAround]
  decide +kernel

end Minimq

import Minimq.Lib.History
import Minimq.Proofs.Client.Docket

/-! A QoS 2 publication is tracked until its handshake ends, as long as its release can be. -/

namespace Minimq

open Hoare Async History

variable {π τ : Type} {packetId : UInt16}

/-- A QoS 2 publication is tracked, as a packet or as a pending release. -/
def Docket.Awaits (docket : Docket) (packetId : UInt16) : Prop :=
  (.publishExactlyOnce, packetId) ∈ docket.keys ∨ packetId ∈ docket.releases

/-- There is a slot for another release, and the broker takes its PUBREL. -/
structure Handling.TakesRelease (state : Handling) (packetId : UInt16) : Prop where
  /-- A slot is left. -/
  slot : state.data.outbound.pendingRelease.length < maxPendingRelease
  /-- The PUBREL is small enough. -/
  sized : exceeds state.runtime.maximumPacketSize (releaseWire packetId .success).length = false

/-- The handshake of a publication was ended by the broker. -/
def EndsPublication (packetId : UInt16) (event : Happening Event) : Prop :=
  ∃ before packet delivered, event = .noted (.handled before packet delivered) ∧
    ((∃ comp, packet = .pubComp comp ∧ comp.packetId = packetId) ∨
      ∃ rec, packet = .pubRec rec ∧ rec.packetId = packetId ∧ rec.reason.code.isSuccess = false)

/-- A PUBREC arrived for a publication whose release cannot be tracked. -/
def Overflows (packetId : UInt16) (event : Happening Event) : Prop :=
  ∃ before rec delivered, event = .noted (.handled before (.pubRec rec) delivered) ∧
    rec.packetId = packetId ∧ rec.reason.code.isSuccess = true ∧
    (.publishExactlyOnce, packetId) ∈ before.data.outbound.docket.keys ∧
    ¬ before.TakesRelease packetId

/-- A QoS 2 publication was admitted. -/
def AdmitsOnce (packetId : UInt16) (event : Happening Event) : Prop :=
  ∃ before packet, event = .noted (.admitted before .publishExactlyOnce packetId packet)

/-- What ends the tracking of a publication. -/
def EndsTracking (packetId : UInt16) (event : Happening Event) : Prop :=
  EndsPublication packetId event ∨ Overflows packetId event ∨ event = .noted .reset

/-- A tracked publication stays tracked unless the packet ends its handshake or overflows. -/
theorem Dispatch.awaits {packet : ReceivedPacket} {before : Handling} {taken : Taken}
    {after : Docket} {delivered : Bool} (dispatch : Dispatch packet before taken after)
    (awaits : before.data.outbound.docket.Awaits packetId) :
    after.Awaits packetId ∨
      EndsTracking packetId (.noted (.handled before packet delivered)) := by
  -- A publication that is retained stays so, unless it is the one that is acknowledged.
  have kept {kind : OpKind} {other : UInt16}
      (left : before.data.outbound.docket.keys.Perm ((kind, other) :: after.keys))
      (releases : ∀ known ∈ before.data.outbound.docket.releases, known ∈ after.releases)
      (different : (OpKind.publishExactlyOnce, packetId) ≠ (kind, other)) :
      after.Awaits packetId := by
    rcases awaits with retained | released
    · exact .inl ((List.mem_cons.mp (left.mem_iff.mp retained)).resolve_left different)
    · exact .inr (releases _ released)
  cases dispatch with
  | same => exact .inl awaits
  | answered request left releases =>
    refine .inl (kept left (by rw [releases]; exact fun _ => id) fun same => ?_)
    cases same
    cases request
  | published same left releases =>
    exact .inl (kept left (by rw [releases]; exact fun _ => id) (by simp))
  | @refused _ rec same failure left releases =>
    by_cases own : rec.packetId = packetId
    · exact .inr (.inl ⟨before, packet, delivered, rfl, .inr ⟨rec, same, own, failure⟩⟩)
    · exact .inl (kept left (by rw [releases]; exact fun _ => id) fun same => own (by cases same; rfl))
  | @lost _ rec same success left releases cause =>
    by_cases own : rec.packetId = packetId
    · subst own
      refine .inr (.inr (.inl ⟨before, rec, delivered, by rw [same], rfl, success, ?_, fun takes => ?_⟩))
      · exact left.mem_iff.mpr List.mem_cons_self
      · rcases cause with ⟨large, -⟩ | full
        · simp [takes.sized] at large
        · have slot := takes.slot
          simp only [Outbound.docket, List.length_map] at full
          simp [FixedVec.length, full] at slot
    · exact .inl (kept left (by rw [releases]; exact fun _ => id) fun same => own (by cases same; rfl))
  | @released _ rec same success left releases fits =>
    by_cases own : rec.packetId = packetId
    · exact .inl (.inr (by simp [releases, own]))
    · refine .inl (kept left (by rw [releases]; simp +contextual) fun same => own (by cases same; rfl))
  | @completed _ comp index same found keys releases =>
    by_cases own : comp.packetId = packetId
    · exact .inr (.inl ⟨before, packet, delivered, rfl, .inl ⟨comp, same, own⟩⟩)
    · rcases awaits with retained | pending
      · exact .inl (.inl (keys ▸ retained))
      · -- Up to order, only the completed release leaves.
        have split := (swapRemove_findIdx? found).1
        rcases List.mem_cons.mp (split.mem_iff.mp pending) with equal | other
        · exact absurd equal.symm own
        · exact .inl (.inr (releases ▸ other))

/-- A publication is tracked from its admission until the tracking ends. -/
def Faithful (moment : ClientMoment) : Prop :=
  ∀ packetId, Since (AdmitsOnce packetId) (EndsTracking packetId) moment.trace →
    moment.self.outbound.docket.Awaits packetId

/-- Every change of the tracked operations keeps publications tracked. -/
theorem Tracking.faithful {before after : ClientMoment} (tracking : Tracking before after)
    (faithful : Faithful before) : Faithful after := by
  -- Only an admission starts the wait, and what ends it is what removes the entry.
  intro packetId since
  cases tracking with
  | steady same trace steady =>
    rw [trace] at since
    rw [same]
    refine faithful packetId (since_of_append (fun event found => ?_) since)
    rintro ⟨state, packet, rfl⟩
    cases (steady _ found).unadmitted
  | @admitted kind other packet unused quota same trace =>
    rw [trace, since_concat] at since
    rw [same]
    rcases since with ⟨state, packet, here⟩ | ⟨since, -⟩
    · simp only [Happening.noted.injEq, Event.admitted.injEq] at here
      obtain ⟨-, rfl, rfl, -⟩ := here
      exact .inl (by simp)
    · exact (faithful packetId since).imp (List.mem_append_left _) id
  | handled dispatch fatal trace =>
    rw [trace, since_concat] at since
    rcases since with ⟨state, packet, here⟩ | ⟨since, unended⟩
    · cases here
    · exact (dispatch.awaits (faithful packetId since)).resolve_right unended
  | reset closed empty trace =>
    rw [trace, since_concat] at since
    rcases since with ⟨state, packet, here⟩ | ⟨since, unended⟩
    · cases here
    · exact absurd (.inr (.inr rfl)) unended

theorem run_faithful (config : ConfigBuilder) (clock : Clock) (calls : List (Invocation π τ)) :
    Faithful (run (start config clock) calls).moment := by
  refine run_moves (fun packetId since => ?_) (fun move => move.tracking.faithful) calls
  exact absurd since not_since_nil

/-- What a PUBREC leaves of a publication that was dropped from the retained packets. -/
structure Retired (before : Handling) (packetId : UInt16) (acked : Outbound) (after : Handling) :
    Prop where
  /-- Its release is tracked, if that is possible. -/
  kept : before.TakesRelease packetId → packetId ∈ after.data.outbound.docket.releases
  /-- Otherwise nothing is. -/
  lost : ¬ before.TakesRelease packetId → after.data.outbound.docket = acked.docket

/-- A PUBREC for a retained publication drops it, and tracks its release if that is possible. -/
theorem Handler.pubRec_retired {state : Handling} {rec : PubRec} {acked : Outbound}
    (success : rec.reason.code.isSuccess = true)
    (done : state.data.outbound.ackPacket .publishExactlyOnce rec.packetId = some acked) :
    wp (Handler.pubRec rec) (fun _ => Retired state rec.packetId acked)
      (fun _ => Retired state rec.packetId acked) state := by
  have releases := Outbound.pendingRelease_of_ackPacket done
  simp only [Handler.pubRec, wp_bind]
  refine Handler.wp_ackPacket (fun none => by simp [none] at done) (fun outbound same => ?_)
  cases Option.some.inj (done.symm.trans same)
  simp only [if_true, wp_bind, Handler.wp_returnQuota]
  refine Handler.wp_require _ (fun _ => ?_) (fun failure => by simp [success] at failure)
  simp only [wp_bind, wp_get]
  refine Handler.wp_protocol _ (fun _ sized => ?_) (fun error sized => ?_)
  · rw [wp_bind]
    refine Handler.wp_queueRelease (fun error failed => ?_) (fun queued pushed => ?_)
    · -- Every slot is taken.
      have full : acked.pendingRelease.toList.length = maxPendingRelease :=
        (Outbound.full_of_queueRelease failed).1
      rw [releases] at full
      exact ⟨fun takes => absurd takes.slot (by simp [FixedVec.length, full]), fun _ => rfl⟩
    · obtain ⟨queue, rfl, appended⟩ := Outbound.releases_of_queueRelease pushed
      have appended : queue.toList = acked.pendingRelease.toList ++ _ := appended
      have slot : state.data.outbound.pendingRelease.length < maxPendingRelease := by
        have bounded := queue.bounded
        rw [appended, releases, List.length_append, List.length_singleton] at bounded
        exact bounded
      have takes : state.TakesRelease rec.packetId := ⟨slot, checkPubrelSize_eq_ok.mp sized⟩
      refine ⟨fun _ => ?_, fun refused => absurd takes refused⟩
      simp [Outbound.docket, Handling.setOutbound, appended]
  · -- The PUBREL is too large.
    refine ⟨fun takes => ?_, fun _ => rfl⟩
    have fine := checkPubrelSize_eq_ok.mpr takes.sized
    exact absurd (fine.symm.trans sized) (by simp)

/-- A retained publication whose identifier is taken once is gone after it was dropped. -/
theorem Outbound.not_awaits_of_ackPacket {outbound acked : Outbound} (sound : outbound.Sound)
    (done : outbound.ackPacket .publishExactlyOnce packetId = some acked) :
    ¬ acked.docket.Awaits packetId := by
  have distinct := sound.distinct
  rw [(packetIds_of_ackPacket done).nodup_iff, List.nodup_cons, packetIds_eq_docket,
    List.mem_append, not_or] at distinct
  rintro (retained | pending)
  · exact distinct.1.1 (List.mem_map_of_mem (f := Prod.snd) retained)
  · exact distinct.1.2 pending

/-- A tracked publication is not complete. -/
theorem Session.status_of_awaits {session : Session} {generation : UInt32}
    (awaits : session.data.outbound.docket.Awaits packetId) :
    session.status ⟨.publishExactlyOnce, packetId, generation⟩ ≠ .complete := by
  -- The status looks at the same two queues.
  have pending : (session.data.outbound.hasRetained packetId ||
      session.data.outbound.hasPendingRelease packetId) = true := by
    simp only [Docket.Awaits, Outbound.docket, List.mem_map, Prod.mk.injEq] at awaits
    simp only [Outbound.hasRetained, Outbound.hasPendingRelease, Bool.or_eq_true, List.any_eq_true,
      beq_iff_eq]
    refine awaits.imp_left fun retained => ?_
    obtain ⟨entry, found, -, same⟩ := retained
    exact ⟨entry, found, same⟩
  unfold status
  dsimp only
  rw [pending]
  split <;> simp

/--
A publication whose PUBREC arrives stays tracked exactly if its release can be tracked.

If that was possible for every PUBREC of a run, a publication is complete only after the broker
ended its handshake.
-/
theorem run_release_tracked (config : ConfigBuilder) (clock : Clock)
    (calls : List (Invocation π τ)) :
    let world : ClientWorld τ := run (start config clock) calls
    (∀ rec : PubRec, rec.reason.code.isSuccess = true →
      (.publishExactlyOnce, rec.packetId) ∈ world.self.outbound.docket.keys →
      ((world.self.handle (.pubRec rec)).1.outbound.docket.Awaits rec.packetId ↔
        world.self.session.handling.TakesRelease rec.packetId)) ∧
    ((∀ packetId, ∀ event ∈ world.trace, ¬ Overflows packetId event) →
      ∀ early before packetId packet later,
        world.trace = early ++ .noted (.admitted before .publishExactlyOnce packetId packet) :: later →
        .noted .reset ∉ later →
        world.self.session.status ⟨.publishExactlyOnce, packetId, before.data.generation⟩ =
          .complete → ∃ event ∈ later, EndsPublication packetId event) := by
  intro world
  refine ⟨fun rec success retained => ?_, fun fits early before packetId packet later trace kept
    complete => ?_⟩
  · rw [Connection.docket_handle]
    have sound : world.self.outbound.Sound := run_sound config clock calls
    cases done : world.self.outbound.ackPacket .publishExactlyOnce rec.packetId with
    | none =>
      rw [Outbound.ackPacket_eq_none] at done
      obtain ⟨entry, found, same⟩ := List.mem_map.mp retained
      exact absurd ⟨entry, found, Prod.mk.inj same⟩ done
    | some acked =>
      have spec := @Handler.pubRec_retired world.self.session.handling rec acked success done
      have retired := @Handler.outcome_of_wp _ _ (fun _ => Retired _ rec.packetId acked) spec
      refine ⟨fun awaits => ?_, fun takes => .inr (retired.kept takes)⟩
      by_contra refused
      rw [show handlePacket (.pubRec rec) = Handler.pubRec rec from rfl, retired.lost refused] at awaits
      exact Outbound.not_awaits_of_ackPacket sound done awaits
  · -- If nothing ended the handshake, the publication would still be tracked.
    by_contra unended
    refine Session.status_of_awaits ?_ complete
    refine run_faithful config clock calls packetId
      ⟨early, _, later, trace, ⟨before, packet, rfl⟩, fun event found => ?_⟩
    rintro (ended | lost | rfl)
    · exact unended ⟨event, found, ended⟩
    · refine fits packetId event ?_ lost
      rw [trace]
      simp [found]
    · exact kept found

/-- Whether an occurrence is a PUBCOMP or a PUBREC with a failure. -/
def isCompletion : Happening Event → Bool
  | .noted (.handled _ (.pubComp _) _) => true
  | .noted (.handled _ (.pubRec rec) _) => !rec.reason.code.isSuccess
  | _ => false

/-- The ninth publication is lost, and reported complete although nothing ended its handshake. -/
theorem run_release_tracked_ninth :
    (.publishExactlyOnce, 9) ∈ ninthSent.self.outbound.docket.keys ∧
    ¬ (ninthSent.self.handle (.pubRec ⟨9, .ofCode .success⟩)).1.outbound.docket.Awaits 9 ∧
    (run ninthSent (receivedPublication.drop 1)).self.session.status ⟨.publishExactlyOnce, 9, 1⟩ =
      .complete ∧
    (run ninthSent (receivedPublication.drop 1)).trace.any isCompletion = false := by
  unfold Docket.Awaits
  decide +kernel

end Minimq

import Minimq.Lib.History
import Minimq.Proofs.Client.Docket
import Minimq.Proofs.Client.Tenure

/-! How many publications a broker has to keep track of, and when that is more than it announced. -/

namespace Minimq

open Async History

variable {π τ : Type} {docket : Docket} {submission : Submission} {packetId : UInt16}

/-- An admitted operation, with the number of admissions before it. -/
structure Submission where
  kind : OpKind
  packetId : UInt16
  /-- How many operations were admitted before. -/
  serial : Nat
  deriving DecidableEq

/-- Whether an inbound packet ends the handshake of a publication. -/
def Submission.endedBy (submission : Submission) : ReceivedPacket → Bool
  | .pubAck ack =>
    submission.kind == .publishAtLeastOnce && submission.packetId == ack.packetId
  | .pubComp comp =>
    submission.kind == .publishExactlyOnce && submission.packetId == comp.packetId
  | .pubRec rec =>
    submission.kind == .publishExactlyOnce && submission.packetId == rec.packetId &&
      !rec.reason.code.isSuccess
  | _ => false

/-- A count of the publications on the current connection. -/
structure Tally where
  /-- All admissions, the latest first. -/
  admitted : List Submission
  /-- The publications written on this connection whose handshake has not ended. -/
  outstanding : List Submission

namespace Tally

/-- The latest admission under an identifier. -/
def latest (tally : Tally) (packetId : UInt16) : Option Submission :=
  tally.admitted.find? (·.packetId == packetId)

/-- Count one publication that is written, unless it was counted before. -/
def write (tally : Tally) (submission : Submission) : Tally :=
  if submission.kind.isPublish && !tally.outstanding.contains submission then
    { tally with outstanding := submission :: tally.outstanding }
  else tally

/-- Account for one more occurrence. -/
def next (tally : Tally) : Happening Event → Tally
  | .noted (.admitted _ kind packetId _) =>
    { tally with admitted := ⟨kind, packetId, tally.admitted.length⟩ :: tally.admitted }
  | .noted (.wrote (.retained packetId) _ _ _) =>
    match tally.latest packetId with
    | some submission => tally.write submission
    | none => tally
  | .noted (.handled _ packet _) =>
    { tally with outstanding := tally.outstanding.filter (!·.endedBy packet) }
  | .noted (.connected _ _) => { tally with outstanding := [] }
  | _ => tally

end Tally

/-- The count after a whole record. -/
def tally (trace : List (Happening Event)) : Tally := trace.foldl Tally.next ⟨[], []⟩

/-- The publications a session tracks, as packets or as pending releases. -/
def Docket.publications (docket : Docket) : List (OpKind × UInt16) :=
  docket.keys.filter (·.1.isPublish) ++ docket.releases.map (OpKind.publishExactlyOnce, ·)

/-- The publications a session tracks. -/
abbrev Handling.publications (state : Handling) : List (OpKind × UInt16) :=
  state.data.outbound.docket.publications

/--
Whether a connection starts with at most as many publications as the quota allows, and a publication
is admitted while fewer are tracked than that.
-/
def isModerate : Happening Event → Bool
  | .noted (.connected state _) => state.publications.length ≤ state.runtime.maxSendQuota
  | .noted (.admitted before kind _ _) =>
    !kind.isPublish || before.publications.length < before.runtime.maxSendQuota
  | _ => true

/-- What is written was admitted under the kind with which it is tracked. -/
structure Recorded (docket : Docket) (tally : Tally) : Prop where
  /-- Retained operations were admitted last under their identifiers. -/
  keys : ∀ kind packetId, (kind, packetId) ∈ docket.keys →
    ∃ submission, tally.latest packetId = some submission ∧ submission.kind = kind
  /-- So were the publications that wait for their PUBCOMP. -/
  releases : ∀ packetId ∈ docket.releases,
    ∃ submission, tally.latest packetId = some submission ∧
      submission.kind = .publishExactlyOnce

/-- Outstanding publications are tracked, and none is counted twice. -/
structure Covered (docket : Docket) (tally : Tally) : Prop where
  /-- None is counted twice. -/
  distinct : tally.outstanding.Nodup
  /-- Each is tracked. -/
  tracked : ∀ submission ∈ tally.outstanding,
    (submission.kind, submission.packetId) ∈ docket.publications
  /-- Each was admitted last under its identifier. -/
  latest : ∀ submission ∈ tally.outstanding, tally.latest submission.packetId = some submission

/-- No more publications are outstanding than are tracked. -/
theorem Covered.length_le {tally : Tally} (covered : Covered docket tally) :
    tally.outstanding.length ≤ docket.publications.length := by
  -- Under one identifier at most one publication is outstanding.
  have distinct : (tally.outstanding.map fun submission =>
      (submission.kind, submission.packetId)).Nodup := by
    refine covered.distinct.map_on fun one found other found' same => ?_
    have equal := covered.latest one found
    rw [(Prod.mk.inj same).2, covered.latest other found'] at equal
    exact (Option.some.inj equal).symm
  have within : (tally.outstanding.map fun submission =>
      (submission.kind, submission.packetId)) ⊆ docket.publications := by
    intro key found
    obtain ⟨submission, counted, rfl⟩ := List.mem_map.mp found
    exact covered.tracked submission counted
  have fewer := (List.subperm_of_subset distinct within).length_le
  rwa [List.length_map] at fewer

namespace Tally

variable {tally : Tally} {event : Happening Event} {events : List (Happening Event)}

theorem admitted_write (submission : Submission) :
    (tally.write submission).admitted = tally.admitted := by
  unfold write
  split <;> rfl

/-- What admits nothing does not change the admissions. -/
theorem admitted_next (plain : admissionOf event = none) :
    (tally.next event).admitted = tally.admitted := by
  unfold next
  split
  · cases plain
  · split
    · exact admitted_write _
    · rfl
  all_goals rfl

theorem admitted_foldl (plain : ∀ event ∈ events, admissionOf event = none) :
    (events.foldl next tally).admitted = tally.admitted := by
  induction events generalizing tally with
  | nil => rfl
  | cons event rest ih =>
    rw [List.foldl_cons, ih fun other found => plain other (List.mem_cons_of_mem _ found),
      admitted_next (plain event List.mem_cons_self)]

theorem latest_of_admitted {other : Tally} (same : other.admitted = tally.admitted)
    (packetId : UInt16) : other.latest packetId = tally.latest packetId := by
  rw [latest, latest, same]

theorem packetId_of_latest
    (found : tally.latest packetId = some submission) : submission.packetId = packetId := by
  simpa using List.find?_some found

end Tally

/-- Operations stay recorded as long as the admissions are the same. -/
theorem Recorded.of_admitted {before after : Tally}
    (recorded : Recorded docket before) (same : after.admitted = before.admitted) :
    Recorded docket after := by
  refine ⟨fun kind packetId found => ?_, fun packetId found => ?_⟩
  · rw [Tally.latest_of_admitted same]
    exact recorded.keys kind packetId found
  · rw [Tally.latest_of_admitted same]
    exact recorded.releases packetId found

/-- A tracked publication that is written is covered. -/
theorem Covered.write {tally : Tally} (covered : Covered docket tally)
    (latest : tally.latest submission.packetId = some submission)
    (tracked : (submission.kind, submission.packetId) ∈ docket.keys) :
    Covered docket (tally.write submission) := by
  -- It is counted once, however many times it is written.
  unfold Tally.write
  split
  · rename_i counted
    simp only [Bool.and_eq_true, Bool.not_eq_true', List.contains_eq_mem, decide_eq_false_iff_not]
      at counted
    refine ⟨List.nodup_cons.mpr ⟨counted.2, covered.distinct⟩, ?_, ?_⟩
    · intro other found
      rcases List.mem_cons.mp found with rfl | found
      · exact List.mem_append_left _ (List.mem_filter.mpr ⟨tracked, counted.1⟩)
      · exact covered.tracked other found
    · intro other found
      rcases List.mem_cons.mp found with rfl | found
      · exact latest
      · exact covered.latest other found
  · exact covered

/-- An occurrence that leaves the tracked operations alone keeps publications covered. -/
theorem Covered.steady {tally : Tally} {event : Happening Event}
    (covered : Covered docket tally) (recorded : Recorded docket tally)
    (steady : Steady docket event) (silent : ¬ Starts event) : Covered docket (tally.next event) := by
  -- Only a write of a publication counts, and that publication is tracked.
  unfold Tally.next
  split
  · cases steady.unadmitted
  · rename_i packetId bytes start count
    obtain ⟨kind, tracked⟩ := steady.retained packetId bytes start count rfl
    obtain ⟨submission, latest, same⟩ := recorded.keys kind packetId tracked
    have own := Tally.packetId_of_latest latest
    rw [latest]
    exact covered.write (own ▸ latest) (by rw [own, same]; exact tracked)
  · exact absurd rfl (steady.unhandled _ _ _)
  · exact absurd (.inr ⟨_, _, rfl⟩) silent
  · exact covered

/-- So do several occurrences of that kind. -/
theorem Covered.foldl {tally : Tally} {events : List (Happening Event)}
    (covered : Covered docket tally) (recorded : Recorded docket tally)
    (steady : ∀ event ∈ events, Steady docket event) (silent : ∀ event ∈ events, ¬ Starts event) :
    Covered docket (events.foldl Tally.next tally) := by
  induction events generalizing tally with
  | nil => exact covered
  | cons event rest ih =>
    have first := steady event List.mem_cons_self
    exact ih (covered.steady recorded first (silent event List.mem_cons_self))
      (recorded.of_admitted (Tally.admitted_next first.unadmitted))
      (fun other found => steady other (List.mem_cons_of_mem _ found))
      (fun other found => silent other (List.mem_cons_of_mem _ found))

/-- A publication is tracked as a packet or as a pending release. -/
theorem Docket.mem_publications {kind : OpKind} :
    (kind, packetId) ∈ docket.publications ↔
      ((kind, packetId) ∈ docket.keys ∧ kind.isPublish = true) ∨
        kind = .publishExactlyOnce ∧ packetId ∈ docket.releases := by
  simp only [publications, List.mem_append, List.mem_filter, List.mem_map, Prod.mk.injEq]
  refine or_congr_right ⟨?_, ?_⟩
  · rintro ⟨other, found, rfl, rfl⟩
    exact ⟨rfl, found⟩
  · rintro ⟨rfl, found⟩
    exact ⟨packetId, found, rfl, rfl⟩

theorem Docket.length_publications (docket : Docket) : docket.publications.length =
    (docket.keys.filter (·.1.isPublish)).length + docket.releases.length := by
  simp [publications]

theorem Docket.length_publications_append (docket : Docket) (kind : OpKind) (packetId : UInt16) :
    (Docket.mk (docket.keys ++ [(kind, packetId)]) docket.releases).publications.length =
      docket.publications.length + if kind.isPublish then 1 else 0 := by
  simp only [length_publications, List.filter_append, List.filter_singleton, List.length_append]
  cases kind.isPublish <;> simp
  omega

section Dispatch

variable {packet : ReceivedPacket} {before : Handling} {taken : Taken} {after : Docket}

theorem Dispatch.keys_subset (dispatch : Dispatch packet before taken after) :
    ∀ key ∈ after.keys, key ∈ before.data.outbound.docket.keys := by
  cases dispatch with
  | same => exact fun key => id
  | completed same found keys releases => exact keys ▸ fun key => id
  | answered _ left | published _ left | refused _ _ left | lost _ _ left | released _ _ left =>
    exact fun key found => left.mem_iff.mpr (List.mem_cons_of_mem _ found)

/-- Every pending release was pending before, or its publication was retained. -/
theorem Dispatch.releases_subset (dispatch : Dispatch packet before taken after) :
    ∀ packetId ∈ after.releases, packetId ∈ before.data.outbound.docket.releases ∨
      (.publishExactlyOnce, packetId) ∈ before.data.outbound.docket.keys := by
  -- A release is added for a publication that was retained until then.
  cases dispatch with
  | same => exact fun packetId => .inl
  | answered _ _ same | published _ _ same | refused _ _ _ same | lost _ _ _ same =>
    rw [same]
    exact fun packetId => .inl
  | @released _ rec same success left releases fits =>
    intro packetId found
    rw [releases, List.mem_append, List.mem_singleton] at found
    rcases found with found | rfl
    · exact .inl found
    · exact .inr (left.mem_iff.mpr List.mem_cons_self)
  | completed same found keys releases =>
    intro packetId pending
    rw [releases] at pending
    exact .inl ((swapRemove_findIdx? found).1.mem_iff.mpr (List.mem_cons_of_mem _ pending))

theorem Recorded.dispatch {tally : Tally} (dispatch : Dispatch packet before taken after)
    (recorded : Recorded before.data.outbound.docket tally) : Recorded after tally := by
  refine ⟨fun kind packetId found => recorded.keys kind packetId (dispatch.keys_subset _ found),
    fun packetId found => ?_⟩
  rcases dispatch.releases_subset packetId found with pending | retained
  · exact recorded.releases packetId pending
  · exact recorded.keys _ packetId retained

/-- An inbound packet adds no publication. -/
theorem Dispatch.publications_le (dispatch : Dispatch packet before taken after) :
    after.publications.length ≤ before.publications.length := by
  -- Dropping a retained packet drops at most one publication.
  have fewer {key : OpKind × UInt16}
      (left : before.data.outbound.docket.keys.Perm (key :: after.keys)) :
      (after.keys.filter (·.1.isPublish)).length + (if key.1.isPublish then 1 else 0) =
        (before.data.outbound.docket.keys.filter (·.1.isPublish)).length := by
    rw [(left.filter _).length_eq, List.filter_cons]
    split <;> simp
  simp only [Handling.publications, Docket.length_publications]
  cases dispatch with
  | same => exact Nat.le_refl _
  | answered _ left same | published _ left same | refused _ _ left same | lost _ _ left same =>
    have dropped := fewer left
    rw [same]
    omega
  | released same success left releases fits =>
    have dropped : (after.keys.filter (·.1.isPublish)).length + 1 = _ := fewer left
    rw [releases, List.length_append, List.length_singleton]
    omega
  | completed same found keys releases =>
    rw [keys, releases, List.length_swapRemove]
    omega

/-- A publication whose handshake does not end stays tracked, unless too many are. -/
theorem Dispatch.tracked (dispatch : Dispatch packet before taken after)
    (alive : taken.isFatal = false) (few : before.publications.length ≤ maxPendingRelease)
    (tracked : (submission.kind, submission.packetId) ∈ before.publications)
    (unended : submission.endedBy packet = false) :
    (submission.kind, submission.packetId) ∈ after.publications := by
  rw [Docket.mem_publications] at tracked ⊢
  -- A packet that is dropped is another one, or its handshake has ended.
  have kept {kind : OpKind} {packetId : UInt16}
      (left : before.data.outbound.docket.keys.Perm ((kind, packetId) :: after.keys))
      (releases : ∀ known ∈ before.data.outbound.docket.releases, known ∈ after.releases)
      (different : submission.kind.isPublish = true →
        (submission.kind, submission.packetId) ≠ (kind, packetId)) :
      ((submission.kind, submission.packetId) ∈ after.keys ∧ submission.kind.isPublish = true) ∨
        submission.kind = .publishExactlyOnce ∧ submission.packetId ∈ after.releases := by
    rcases tracked with ⟨retained, publish⟩ | ⟨once, pending⟩
    · refine .inl ⟨?_, publish⟩
      exact (List.mem_cons.mp (left.mem_iff.mp retained)).resolve_left (different publish)
    · exact .inr ⟨once, releases _ pending⟩
  cases dispatch with
  | same => exact tracked
  | answered request left same =>
    refine kept left (by rw [same]; exact fun _ => id) fun publish equal => ?_
    rw [(Prod.mk.inj equal).1, request] at publish
    cases publish
  | published same left releases =>
    refine kept left (by rw [releases]; exact fun _ => id) fun _ equal => ?_
    simp [Submission.endedBy, same, Prod.mk.inj equal] at unended
  | refused same failure left releases =>
    refine kept left (by rw [releases]; exact fun _ => id) fun _ equal => ?_
    simp [Submission.endedBy, same, Prod.mk.inj equal, failure] at unended
  | @lost _ rec same success left releases cause =>
    exfalso
    rcases cause with ⟨-, fatal⟩ | full
    · simp [alive] at fatal
    · -- Eight releases are pending, and the publication was retained as well.
      have retained : (OpKind.publishExactlyOnce, rec.packetId) ∈
          before.data.outbound.docket.keys.filter (·.1.isPublish) :=
        List.mem_filter.mpr ⟨left.mem_iff.mpr List.mem_cons_self, rfl⟩
      have positive := List.length_pos_of_mem retained
      rw [Handling.publications, Docket.length_publications, full] at few
      omega
  | @released _ rec same success left releases fits =>
    by_cases own : (submission.kind, submission.packetId) =
        (.publishExactlyOnce, rec.packetId)
    · obtain ⟨once, packetId⟩ := Prod.mk.inj own
      exact .inr ⟨once, by rw [packetId, releases]; simp⟩
    · exact kept left (by rw [releases]; simp +contextual) fun _ => own
  | @completed _ comp index same found keys releases =>
    rcases tracked with ⟨retained, publish⟩ | ⟨once, pending⟩
    · exact .inl ⟨keys ▸ retained, publish⟩
    · have split := (swapRemove_findIdx? found).1
      rcases List.mem_cons.mp (split.mem_iff.mp pending) with equal | other
      · simp [Submission.endedBy, same, once, equal] at unended
      · exact .inr ⟨once, releases ▸ other⟩

end Dispatch

/-- An identifier that is not in use is not tracked. -/
theorem SessionData.untracked {data : SessionData}
    (unused : data.isLive packetId = false) : (∀ kind, (kind, packetId) ∉ data.outbound.docket.keys) ∧
      packetId ∉ data.outbound.docket.releases := by
  have missing : packetId ∉ data.outbound.packetIds := by
    rw [← SessionData.isLive_iff, unused]
    exact Bool.false_ne_true
  rw [Outbound.packetIds_eq_docket, List.mem_append, not_or] at missing
  exact ⟨fun kind found => missing.1 (List.mem_map_of_mem (f := Prod.snd) found), missing.2⟩

section Admitted

variable {tally : Tally} {before : Handling} {kind : OpKind} {packet : Bytes}

theorem Tally.latest_admitted (other : UInt16) :
    (tally.next (.noted (.admitted before kind packetId packet))).latest other =
      if packetId = other then some ⟨kind, packetId, tally.admitted.length⟩
      else tally.latest other := by
  simp only [next, latest, List.find?_cons]
  split <;> simp_all

/-- An admitted operation is recorded. -/
theorem Recorded.admitted (recorded : Recorded docket tally)
    (unused : (∀ kind, (kind, packetId) ∉ docket.keys) ∧ packetId ∉ docket.releases) :
    Recorded ⟨docket.keys ++ [(kind, packetId)], docket.releases⟩
      (tally.next (.noted (.admitted before kind packetId packet))) := by
  refine ⟨fun other known found => ?_, fun known found => ?_⟩
  · -- The identifier is new, so the others keep their latest admission.
    rw [Tally.latest_admitted]
    rcases List.mem_append.mp found with found | found
    · rw [if_neg fun same : packetId = known => unused.1 other (same ▸ found)]
      exact recorded.keys other known found
    · obtain ⟨rfl, rfl⟩ := Prod.mk.inj (List.mem_singleton.mp found)
      exact ⟨_, if_pos rfl, rfl⟩
  · rw [Tally.latest_admitted, if_neg fun same : packetId = known => unused.2 (same ▸ found)]
    exact recorded.releases known found

/-- An admitted operation covers no other. -/
theorem Covered.admitted (covered : Covered docket tally)
    (unused : (∀ kind, (kind, packetId) ∉ docket.keys) ∧ packetId ∉ docket.releases) :
    Covered ⟨docket.keys ++ [(kind, packetId)], docket.releases⟩
      (tally.next (.noted (.admitted before kind packetId packet))) := by
  refine ⟨covered.distinct, fun submission found => ?_, fun submission found => ?_⟩
  · have tracked := covered.tracked submission found
    rw [Docket.mem_publications] at tracked ⊢
    exact tracked.imp_left fun retained => ⟨List.mem_append_left _ retained.1, retained.2⟩
  · rw [Tally.latest_admitted, if_neg]
    · exact covered.latest submission found
    · -- Its identifier would be in use.
      intro same
      rcases Docket.mem_publications.mp (covered.tracked submission found) with retained | pending
      · exact unused.1 _ (same ▸ retained.1)
      · exact unused.2 (same ▸ pending.2)

end Admitted

/-- A handled packet that leaves the connection live keeps publications covered. -/
theorem Covered.handled {tally : Tally} {packet : ReceivedPacket} {before : Handling} {taken : Taken}
    {after : Docket} {delivered : Bool} (covered : Covered before.data.outbound.docket tally)
    (dispatch : Dispatch packet before taken after) (alive : taken.isFatal = false)
    (few : before.publications.length ≤ maxPendingRelease) :
    Covered after (tally.next (.noted (.handled before packet delivered))) := by
  refine ⟨covered.distinct.filter _, fun submission found => ?_, fun submission found => ?_⟩
  · obtain ⟨found, unended⟩ := List.mem_filter.mp found
    exact dispatch.tracked alive few (covered.tracked submission found) (by simpa using unended)
  · exact covered.latest submission (List.mem_filter.mp found).1

/-- What holds of the count in every run. -/
structure Tallied (moment : ClientMoment) : Prop where
  /-- Tracked operations are recorded. -/
  recorded : Recorded moment.self.outbound.docket (tally moment.trace)
  /-- On a live connection the outstanding publications are tracked, and few. -/
  few : moment.trace.all isModerate = true → moment.self.live = true →
    moment.self.outbound.docket.publications.length ≤ moment.self.runtime.maxSendQuota ∧
    moment.self.runtime.maxSendQuota ≤ Outbound.maxInflight ∧
    Covered moment.self.outbound.docket (tally moment.trace)

theorem tally_append (front back : List (Happening Event)) :
    tally (front ++ back) = back.foldl Tally.next (tally front) :=
  List.foldl_append

/-- Every move keeps the count in order. -/
theorem Move.tallied {before after : ClientMoment} (move : Move τ before after)
    (tallied : Tallied before) : Tallied after := by
  obtain ⟨recorded, few⟩ := tallied
  have tenure := move.tenure
  refine ⟨?_, fun moderate live => ?_⟩
  · cases move.tracking with
    | steady same trace steady =>
      rw [same, trace, tally_append]
      exact recorded.of_admitted (Tally.admitted_foldl fun event found => (steady event found).unadmitted)
    | admitted unused quota same trace =>
      rw [same, trace, tally_append, List.foldl_cons, List.foldl_nil]
      exact recorded.admitted (SessionData.untracked unused)
    | handled dispatch fatal trace =>
      rw [trace, tally_append, List.foldl_cons, List.foldl_nil]
      exact (recorded.dispatch dispatch).of_admitted (Tally.admitted_next rfl)
    | reset closed empty trace =>
      rw [empty]
      exact ⟨by simp, by simp⟩
  · cases tenure live with
    | @begins now ack closed same sized limit trace =>
      -- The count starts over with the connection.
      rw [trace, List.all_append, Bool.and_eq_true] at moderate
      have within : after.self.session.handling.publications.length ≤
          after.self.session.handling.runtime.maxSendQuota := by
        simpa [isModerate] using moderate.2
      refine ⟨within, Nat.le_trans limit (Nat.min_le_right _ _), ?_⟩
      rw [trace, tally_append]
      exact ⟨List.nodup_nil, by simp [Tally.next], by simp [Tally.next]⟩
    | @goes_on events alive terms trace silent =>
      rw [trace, List.all_append, Bool.and_eq_true] at moderate
      obtain ⟨within, slots, covered⟩ := few moderate.1 alive
      rw [terms]
      dsimp only
      cases move.tracking with
      | @steady others same again steady =>
        obtain rfl : others = events := List.append_cancel_left (again.symm.trans trace)
        rw [same, trace, tally_append]
        exact ⟨within, slots, covered.foldl recorded steady silent⟩
      | @admitted kind packetId packet unused quota same again =>
        rw [same, again, tally_append, List.foldl_cons, List.foldl_nil]
        refine ⟨?_, slots, covered.admitted (SessionData.untracked unused)⟩
        rw [Docket.length_publications_append]
        split
        · rename_i publish
          obtain rfl : events = _ := List.append_cancel_left (trace.symm.trans again)
          have room : before.self.session.handling.publications.length <
              before.self.session.handling.runtime.maxSendQuota := by
            simpa [isModerate, publish] using moderate.2
          exact room
        · exact within
      | handled dispatch fatal again =>
        rw [again, tally_append, List.foldl_cons, List.foldl_nil]
        refine ⟨Nat.le_trans dispatch.publications_le within, slots, ?_⟩
        refine covered.handled dispatch ?_ (Nat.le_trans within slots)
        by_contra dead
        rw [Bool.not_eq_false] at dead
        rw [fatal dead] at live
        cases live
      | reset closed empty again =>
        rw [closed] at live
        cases live

theorem run_tallied (config : ConfigBuilder) (clock : Clock) (calls : List (Invocation π τ)) :
    Tallied (run (start config clock) calls).moment := by
  -- Nothing is tracked yet.
  have empty : (start config clock : ClientWorld τ).self.outbound.docket = ⟨[], []⟩ := rfl
  have first : Tallied (start config clock : ClientWorld τ).moment := by
    refine ⟨?_, fun _ live => by cases live⟩
    change Recorded (start config clock : ClientWorld τ).self.outbound.docket _
    rw [empty]
    exact ⟨by simp, by simp⟩
  exact run_moves first Move.tallied calls

/--
On a live connection no more publications are outstanding than the broker announced to receive, if
connections start and publications are admitted with no more of them under way.
-/
theorem run_receive_maximum (config : ConfigBuilder) (clock : Clock)
    (calls : List (Invocation π τ)) (front back : List (Happening Event)) (state : Handling)
    (ack : ConnAck)
    (connected : (run (start config clock) calls).trace =
      front ++ .noted (.connected state ack) :: back)
    (last : ∀ event ∈ back, ¬ Starts event)
    (live : (run (start config clock) calls).self.live = true)
    (moderate : (run (start config clock) calls).trace.all isModerate = true) :
    (tally (run (start config clock) calls).trace).outstanding.length ≤ ack.receiveMaximum := by
  -- What is outstanding is tracked, and what is tracked was paid for with quota.
  obtain ⟨within, -, covered⟩ := (run_tallied config clock calls).few moderate live
  obtain ⟨state', ack', established⟩ := run_established config clock calls live
  obtain ⟨front', back', trace, silent⟩ := established.since
  obtain ⟨-, same, -⟩ := last_unique (connected.symm.trans trace)
    (.inr ⟨state, ack, rfl⟩) (.inr ⟨state', ack', rfl⟩) last silent
  cases same
  calc (tally (run (start config clock) calls).trace).outstanding.length
      ≤ (run (start config clock) calls).self.outbound.docket.publications.length :=
        covered.length_le
    _ ≤ (run (start config clock) calls).self.runtime.maxSendQuota := within
    _ = state.runtime.maxSendQuota := established.terms.maxSendQuota
    _ ≤ ack.receiveMaximum := Nat.le_trans established.limit (Nat.min_le_left _ _)

/-- The limits announced by the answers of the broker. -/
def receiveMaxima (trace : List (Happening Event)) : List Nat :=
  trace.filterMap fun
    | .noted (.connected _ ack) => some ack.receiveMaximum
    | _ => none

/-- A broker that takes one publication at a time, and sends the PUBREC of the first one. -/
def frugalConnect : Invocation Unit Unit :=
  ⟨.connect [0x20, 6, 0, 0, 3, 0x21, 0, 1, 0x50, 2, 0, 1],
    [.ready 64, .ready 0, .ready 1, .ready 1, .ready 6]⟩

/-- The second publication is sent before the handshake of the first one has ended. -/
def secondSent : ClientWorld Unit :=
  run (start (smallConfig 60) (steppingClock 1 4))
    (frugalConnect :: receivedPublication ++ receivedPublication.take 1)

/-- A PUBREC makes room for another publication although the first one is still under way. -/
theorem run_receive_maximum_second : secondSent.self.live = true ∧
    receiveMaxima secondSent.trace = [1] ∧ (tally secondSent.trace).outstanding.length = 2 := by
  decide +kernel

/-- The calls with which the first publication is sent and received. -/
def firstCalls : List (Invocation Unit Unit) := frugalConnect :: receivedPublication

/-- The first publication is within the limit. -/
theorem run_receive_maximum_first : ∃ front state ack back,
    (run (start (smallConfig 60) (steppingClock 1 4)) firstCalls).trace =
      front ++ .noted (.connected state ack) :: back ∧
    (tally (run (start (smallConfig 60) (steppingClock 1 4)) firstCalls).trace).outstanding.length ≤
      ack.receiveMaximum := by
  have live : (run (start (smallConfig 60) (steppingClock 1 4)) firstCalls).self.live = true := by
    decide +kernel
  have moderate : (run (start (smallConfig 60) (steppingClock 1 4)) firstCalls).trace.all
      isModerate = true := by decide +kernel
  obtain ⟨front, state, ack, back, trace, last⟩ :=
    run_connected (smallConfig 60) (steppingClock 1 4) firstCalls live
  exact ⟨front, state, ack, back, trace, run_receive_maximum (smallConfig 60) (steppingClock 1 4)
    firstCalls front back state ack trace last live moderate⟩

end Minimq

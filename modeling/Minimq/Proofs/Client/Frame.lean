import Minimq.Proofs.Client.Ledger

/-! An acknowledgement touches only the operation it is for. -/

namespace Minimq

open Hoare Async

variable {π τ : Type} {kind : OpKind}

/-- The acknowledgements a broker can send for the operations of a client. -/
inductive Acknowledgement where
  | subAck (ack : SubAck)
  | unsubAck (ack : SubAck)
  | pubAck (ack : PubAck)
  | pubRec (rec : PubRec)
  | pubComp (comp : PubComp)

/-- Where an operation is tracked until its acknowledgement arrives. -/
inductive Stage where
  | retained (kind : OpKind)
  | release
  deriving DecidableEq

namespace Acknowledgement

/-- The packet that carries an acknowledgement. -/
def packet : Acknowledgement → ReceivedPacket
  | .subAck ack => .subAck ack
  | .unsubAck ack => .unsubAck ack
  | .pubAck ack => .pubAck ack
  | .pubRec rec => .pubRec rec
  | .pubComp comp => .pubComp comp

/-- The stage of the operation an acknowledgement is for. -/
def stage : Acknowledgement → Stage
  | .subAck _ => .retained .subscribe
  | .unsubAck _ => .retained .unsubscribe
  | .pubAck _ => .retained .publishAtLeastOnce
  | .pubRec _ => .retained .publishExactlyOnce
  | .pubComp _ => .release

/-- The packet identifier of the operation an acknowledgement is for. -/
def packetId : Acknowledgement → UInt16
  | .subAck ack | .unsubAck ack => ack.packetId
  | .pubAck ack => ack.packetId
  | .pubRec rec => rec.packetId
  | .pubComp comp => comp.packetId

/-- Whether an acknowledgement is a PUBREC. -/
def isPubRec : Acknowledgement → Bool
  | .pubRec _ => true
  | _ => false

end Acknowledgement

/-- An operation is tracked at a stage. -/
def Outbound.Tracks (outbound : Outbound) : Stage → UInt16 → Prop
  | .retained kind, packetId =>
    ∃ entry ∈ outbound.retained.toList, entry.kind = kind ∧ entry.packetId = packetId
  | .release, packetId => ∃ entry ∈ outbound.pendingRelease.toList, entry.packetId = packetId

/-- Nothing of a session changed, apart from its tracked operations and the quota. -/
structure Undisturbed (before after : Handling) : Prop where
  /-- Identifiers, inbound handshakes, control packets and reserved room are the same. -/
  data : after.data = { before.data with outbound := { before.data.outbound with
    buf := after.data.outbound.buf
    retained := after.data.outbound.retained
    pendingRelease := after.data.outbound.pendingRelease } }
  /-- Limits and timers are the same. -/
  runtime : after.runtime = { before.runtime with sendQuota := after.runtime.sendQuota }
  /-- The arena has the same size. -/
  size : after.data.outbound.buf.length = before.data.outbound.buf.length
  /-- The arena behind the retained packets has the same bytes. -/
  free : after.data.outbound.buf.drop after.data.outbound.retainedBytes =
    before.data.outbound.buf.drop after.data.outbound.retainedBytes

/-- Exactly one operation was removed from where it was tracked. -/
inductive Removes (before after : Outbound) : Stage → UInt16 → Prop where
  /-- A retained packet leaves, and a PUBREC may queue the release of the same publication. -/
  | retained {kind : OpKind} {packetId : UInt16} {front back : List (RetainedPacket × Bytes)}
      {gone : RetainedPacket × Bytes} {added : List PendingRelease}
      (was : before.contents = front ++ gone :: back)
      (own : gone.1.kind = kind ∧ gone.1.packetId = packetId)
      (only : ∀ other ∈ front ++ back, other.1.packetId ≠ packetId)
      (left : after.contents = front ++ back)
      (releases : after.pendingRelease.toList = before.pendingRelease.toList ++ added)
      (queued : added = [] ∨
        kind = .publishExactlyOnce ∧ added = [⟨packetId, .success, .write 0⟩]) :
      Removes before after (.retained kind) packetId
  /-- A release leaves, and the others stay as they are. -/
  | release {packetId : UInt16} {gone : PendingRelease}
      (own : gone.packetId = packetId)
      (left : before.pendingRelease.toList.Perm (gone :: after.pendingRelease.toList))
      (only : ∀ other ∈ after.pendingRelease.toList, other.packetId ≠ packetId)
      (same : after.contents = before.contents) : Removes before after .release packetId

/-- What an acknowledgement may do: nothing, or remove its own operation. -/
structure Confined (ack : Acknowledgement) (before : Handling) (taken : Taken) (after : Handling) :
    Prop where
  /-- A stale acknowledgement is ignored; only a repeated PUBREC may report its reason code. -/
  stale : ¬ before.data.outbound.Tracks ack.stage ack.packetId → after = before ∧
    (taken = .ok false ∨
      ack.isPubRec = true ∧ before.data.outbound.Tracks .release ack.packetId)
  /-- Any other removes its operation and nothing else. -/
  own : before.data.outbound.Tracks ack.stage ack.packetId → Undisturbed before after ∧
    Removes before.data.outbound after.data.outbound ack.stage ack.packetId

namespace Outbound

variable {outbound acked : Outbound}

/-- The contents start with those of the first packets. -/
theorem contentsFrom_append (buf : Bytes) (offset : Nat) (front back : List RetainedPacket) :
    contentsFrom buf offset (front ++ back) =
      contentsFrom buf offset front ++ contentsFrom buf (offset + bytesOf front) back := by
  induction front generalizing offset with
  | nil => rfl
  | cons entry rest ih =>
    simp only [List.cons_append, contentsFrom, ih]
    simp [bytesOf, Nat.add_assoc]

theorem map_fst_contentsFrom (buf : Bytes) (offset : Nat) (entries : List RetainedPacket) :
    (contentsFrom buf offset entries).map Prod.fst = entries := by
  induction entries generalizing offset with
  | nil => rfl
  | cons entry rest ih => simp [contentsFrom, ih]

/-- Packets that lie at the same bytes have the same contents. -/
theorem contentsFrom_congr {buf other : Bytes} {offset shifted : Nat}
    {entries : List RetainedPacket}
    (same : (other.drop shifted).take (bytesOf entries) =
      (buf.drop offset).take (bytesOf entries)) :
    contentsFrom other shifted entries = contentsFrom buf offset entries := by
  induction entries generalizing offset shifted with
  | nil => rfl
  | cons entry rest ih =>
    have total : bytesOf (entry :: rest) = entry.len + bytesOf rest := by simp [bytesOf]
    rw [total] at same
    -- The first packet is the front of the common bytes, the others are what follows it.
    have first := congrArg (List.take entry.len) same
    have others := congrArg (List.drop entry.len) same
    simp only [List.take_take, Nat.min_eq_left (Nat.le_add_right _ _)] at first
    simp only [List.drop_take, List.drop_drop, Nat.add_sub_cancel_left] at others
    rw [contentsFrom, contentsFrom, first, ih others]

/-- No operation is tracked under a stale acknowledgement of a retained packet. -/
theorem ackPacket_eq_none {packetId : UInt16} :
    outbound.ackPacket kind packetId = none ↔ ¬ outbound.Tracks (.retained kind) packetId := by
  -- The queue is searched for the kind and the identifier, as tracking is defined.
  unfold ackPacket Tracks
  dsimp only
  cases found : outbound.retained.toList.findIdx? fun entry =>
      entry.kind == kind && entry.packetId == packetId with
  | none =>
    rw [List.findIdx?_eq_none_iff] at found
    simpa using found
  | some position =>
    obtain ⟨within, matched, -⟩ := List.findIdx?_eq_some_iff_getElem.mp found
    simp only [Bool.and_eq_true, beq_iff_eq] at matched
    simp only [reduceCtorEq, false_iff, not_not]
    exact ⟨_, List.getElem_mem within, matched⟩

/-- No operation is tracked under a stale PUBCOMP. -/
theorem ackRelease_eq_none {packetId : UInt16} :
    outbound.ackRelease packetId = none ↔ ¬ outbound.Tracks .release packetId := by
  -- The queue is searched for the identifier, as tracking is defined.
  unfold ackRelease Tracks
  dsimp only
  cases found : outbound.pendingRelease.toList.findIdx? fun pending =>
      pending.packetId == packetId with
  | none =>
    rw [List.findIdx?_eq_none_iff] at found
    simpa using found
  | some position =>
    obtain ⟨within, matched, -⟩ := List.findIdx?_eq_some_iff_getElem.mp found
    simp only [beq_iff_eq] at matched
    simp only [reduceCtorEq, false_iff, not_not]
    exact ⟨_, List.getElem_mem within, matched⟩

/-- Closing the gap of an acknowledged packet moves the later packets and nothing else. -/
theorem contents_of_ackPacket {packetId : UInt16}
    (inside : outbound.retainedBytes ≤ outbound.buf.length)
    (done : outbound.ackPacket kind packetId = some acked) : ∃ front gone back,
      outbound.contents = front ++ gone :: back ∧ gone.1.kind = kind ∧ gone.1.packetId = packetId ∧
      acked.contents = front ++ back ∧
      acked = { outbound with buf := acked.buf, retained := acked.retained } ∧
      acked.buf.length = outbound.buf.length ∧
      acked.buf.drop acked.retainedBytes = outbound.buf.drop acked.retainedBytes := by
  obtain ⟨front, gone, back, was, ownKind, ownId, left, same⟩ := retained_of_ackPacket done
  have total : outbound.retainedBytes = bytesOf front + gone.len + bytesOf back := by
    simp [retainedBytes, bytesOf, was, Nat.add_assoc]
  have remaining : acked.retainedBytes = bytesOf front + bytesOf back := by
    simp [retainedBytes, bytesOf, left]
  have buf : acked.buf = Arena.copyWithin outbound.buf (bytesOf front + gone.len)
      outbound.retainedBytes (bytesOf front) := by rw [same]
  -- What is moved are the bytes of the later packets.
  have moved : ((outbound.buf.take outbound.retainedBytes).drop
      (bytesOf front + gone.len)).length = bytesOf back := by
    rw [List.length_drop, List.length_take]
    omega
  have before : acked.buf.take (bytesOf front) = outbound.buf.take (bytesOf front) := by
    rw [buf]
    exact Arena.take_overwrite (Nat.le_refl _) (by omega)
  have behind : (acked.buf.drop (bytesOf front)).take (bytesOf back) =
      (outbound.buf.drop (bytesOf front + gone.len)).take (bytesOf back) := by
    have written := @Arena.slice_overwrite _ outbound.buf
      ((outbound.buf.take outbound.retainedBytes).drop (bytesOf front + gone.len)) (bytesOf front)
      (by omega)
    rw [moved] at written
    rw [buf, Arena.copyWithin, written, List.drop_take]
    congr 1
    omega
  refine ⟨contentsFrom outbound.buf 0 front,
    (gone, (outbound.buf.drop (bytesOf front)).take gone.len),
    contentsFrom outbound.buf (bytesOf front + gone.len) back, ?_, ownKind, ownId, ?_, ?_, ?_, ?_⟩
  · rw [contents, was, contentsFrom_append, Nat.zero_add, contentsFrom]
  · rw [contents, left, contentsFrom_append, Nat.zero_add, contentsFrom_congr behind]
    congr 1
    exact contentsFrom_congr (by simpa using before)
  · rw [same]
  · rw [buf]
    exact Arena.length_copyWithin (by omega) (by omega)
  · have rest := @Arena.drop_overwrite_end _ outbound.buf
      ((outbound.buf.take outbound.retainedBytes).drop (bytesOf front + gone.len)) (bytesOf front)
      (by omega)
    rw [moved] at rest
    rw [remaining, buf]
    exact rest

end Outbound

/-- What holds of the retained packets of every reachable session. -/
structure Outbound.Sound (outbound : Outbound) : Prop where
  /-- They are inside the arena. -/
  inside : outbound.retainedBytes ≤ outbound.buf.length
  /-- No identifier is used twice. -/
  distinct : outbound.packetIds.Nodup

theorem run_sound (config : ConfigBuilder) (clock : Clock) (calls : List (Invocation π τ)) :
    (run (start config clock) calls).self.outbound.Sound := by
  obtain ⟨files, archived⟩ := run_archived config clock calls
  have retained := archived.roomy.retained
  unfold Outbound.retainedCapacity at retained
  exact ⟨Nat.le_trans retained (Nat.sub_le _ _), (run_identified config clock calls).distinct⟩

/-- Dropping an acknowledged packet removes its operation and nothing else. -/
theorem Outbound.Sound.ackPacket {outbound acked : Outbound} (sound : outbound.Sound)
    {packetId : UInt16} (done : outbound.ackPacket kind packetId = some acked) :
    Removes outbound acked (.retained kind) packetId ∧
      acked = { outbound with buf := acked.buf, retained := acked.retained } ∧
      acked.buf.length = outbound.buf.length ∧
      acked.buf.drop acked.retainedBytes = outbound.buf.drop acked.retainedBytes := by
  obtain ⟨front, gone, back, was, ownKind, ownId, left, same, size, free⟩ :=
    contents_of_ackPacket sound.inside done
  refine ⟨.retained was ⟨ownKind, ownId⟩ (fun other found => ?_) left ?_ (.inl rfl), same, size, free⟩
  · -- Another packet with the same identifier would use it twice.
    have entries := congrArg (List.map Prod.fst) was
    rw [contents, map_fst_contentsFrom, List.map_append, List.map_cons] at entries
    have distinct := (List.nodup_append.mp sound.distinct).1
    rw [entries, List.map_append, List.map_cons] at distinct
    have apart := (List.nodup_middle.mp distinct)
    rw [List.nodup_cons, ← List.map_append, ← List.map_append] at apart
    intro again
    exact apart.1 (List.mem_map.mpr ⟨other.1, List.mem_map_of_mem found, by rw [again, ownId]⟩)
  · rw [pendingRelease_of_ackPacket done, List.append_nil]

section Handlers

variable {state : Handling}

/-- A session with another arena and other queues is otherwise undisturbed. -/
theorem undisturbed_of_outbound {outbound : Outbound}
    (same : outbound = { state.data.outbound with
      buf := outbound.buf, retained := outbound.retained, pendingRelease := outbound.pendingRelease })
    (size : outbound.buf.length = state.data.outbound.buf.length)
    (free : outbound.buf.drop outbound.retainedBytes =
      state.data.outbound.buf.drop outbound.retainedBytes) :
    Undisturbed state (state.setOutbound outbound) := by
  refine ⟨?_, rfl, size, free⟩
  change { state.data with outbound := outbound } = _
  rw [same]
  rfl

theorem Undisturbed.returnQuota {after : Handling} (undisturbed : Undisturbed state after) :
    Undisturbed state after.returnQuota := by
  refine ⟨undisturbed.data, ?_, undisturbed.size, undisturbed.free⟩
  have runtime := undisturbed.runtime
  simp only [Handling.returnQuota]
  rw [runtime]

theorem undisturbed_of_ackPacket (sound : state.data.outbound.Sound)
    {packetId : UInt16} {acked : Outbound}
    (done : state.data.outbound.ackPacket kind packetId = some acked) :
    Undisturbed state (state.setOutbound acked) := by
  obtain ⟨-, same, size, free⟩ := sound.ackPacket done
  exact undisturbed_of_outbound (by rw [same]) size free

/-- An acknowledgement whose operation leaves the retained packets. -/
theorem Confined.of_ackPacket {ack : Acknowledgement} {taken : Taken}
    {after : Handling} {acked : Outbound} (stage : ack.stage = .retained kind)
    (done : state.data.outbound.ackPacket kind ack.packetId = some acked)
    (undisturbed : Undisturbed state after)
    (removes : Removes state.data.outbound after.data.outbound (.retained kind) ack.packetId) :
    Confined ack state taken after := by
  refine ⟨fun untracked => ?_, fun _ => ⟨undisturbed, stage ▸ removes⟩⟩
  rw [stage, ← Outbound.ackPacket_eq_none, done] at untracked
  simp at untracked

theorem Confined.of_stale {ack : Acknowledgement} {taken : Taken}
    (untracked : ¬ state.data.outbound.Tracks ack.stage ack.packetId)
    (ignored : taken = .ok false ∨
      ack.isPubRec = true ∧ state.data.outbound.Tracks .release ack.packetId) :
    Confined ack state taken state :=
  ⟨fun _ => ⟨rfl, ignored⟩, fun tracked => absurd tracked untracked⟩

/-- An answer to a subscription request touches only that request. -/
theorem Handler.subAck_confined (sound : state.data.outbound.Sound) (ack : SubAck)
    {answer : Acknowledgement} (stage : answer.stage = .retained kind)
    (packetId : answer.packetId = ack.packetId) :
    wp (Handler.subAck kind ack) (fun delivered => Confined answer state (.ok delivered))
      (fun error => Confined answer state (.error error)) state := by
  -- An answer that is not stale is removed before its reason codes are looked at.
  simp only [Handler.subAck, wp_bind]
  refine Handler.wp_ackPacket (fun none => ?_) (fun acked done => ?_)
  · rw [Outbound.ackPacket_eq_none, ← stage, ← packetId] at none
    exact .of_stale none (.inl rfl)
  · have undisturbed := undisturbed_of_ackPacket sound done
    rw [← packetId] at done
    have confined {taken : Taken} : Confined answer state taken (state.setOutbound acked) :=
      .of_ackPacket stage done undisturbed (sound.ackPacket done).1
    simp only [if_true, wp_bind]
    exact Handler.wp_requireAll _ confined (fun _ => confined)

/-- A PUBACK touches only its publication. -/
theorem Handler.pubAck_confined (sound : state.data.outbound.Sound) (ack : PubAck) :
    wp (Handler.pubAck ack) (fun delivered => Confined (.pubAck ack) state (.ok delivered))
      (fun error => Confined (.pubAck ack) state (.error error)) state := by
  -- The slot and the quota are returned before the reason code is looked at.
  simp only [Handler.pubAck, wp_bind]
  refine Handler.wp_ackPacket (fun none => ?_) (fun acked done => ?_)
  · exact .of_stale (Outbound.ackPacket_eq_none.mp none) (.inl rfl)
  · have confined {taken : Taken} :
        Confined (.pubAck ack) state taken (state.setOutbound acked).returnQuota :=
      .of_ackPacket rfl done (undisturbed_of_ackPacket sound done).returnQuota
        (sound.ackPacket done).1
    simp only [if_true, wp_bind, Handler.wp_returnQuota]
    exact Handler.wp_require _ (fun _ => confined) (fun _ => confined)

/-- A PUBREC touches only its publication, whose release it may queue. -/
theorem Handler.pubRec_confined (sound : state.data.outbound.Sound) (rec : PubRec) :
    wp (Handler.pubRec rec) (fun delivered => Confined (.pubRec rec) state (.ok delivered))
      (fun error => Confined (.pubRec rec) state (.error error)) state := by
  simp only [Handler.pubRec, wp_bind]
  refine Handler.wp_ackPacket (fun none => ?_) (fun acked done => ?_)
  · have untracked := Outbound.ackPacket_eq_none.mp none
    simp only [Bool.false_eq_true, if_false, wp_bind, wp_get, wp_ite, wp_pure]
    split
    · -- The publication is already released.
      rename_i known
      have pending : state.data.outbound.Tracks .release rec.packetId := by
        simpa [Outbound.hasPendingRelease, Outbound.Tracks] using known
      exact Handler.wp_require _ (fun _ => .of_stale untracked (.inl rfl))
        (fun _ => .of_stale untracked (.inr ⟨rfl, pending⟩))
    · exact .of_stale untracked (.inl rfl)
  · obtain ⟨removes, same, size, free⟩ := sound.ackPacket done
    have dropped {taken : Taken} :
        Confined (.pubRec rec) state taken (state.setOutbound acked).returnQuota :=
      .of_ackPacket rfl done (undisturbed_of_ackPacket sound done).returnQuota removes
    simp only [if_true, wp_bind, Handler.wp_returnQuota]
    refine Handler.wp_require _ (fun _ => ?_) (fun _ => dropped)
    simp only [wp_bind, wp_get]
    refine Handler.wp_protocol _ (fun _ _ => ?_) (fun _ _ => dropped)
    rw [wp_bind]
    refine Handler.wp_queueRelease (fun _ _ => dropped) (fun queued pushed => ?_)
    obtain ⟨releases, rfl, appended⟩ := Outbound.releases_of_queueRelease pushed
    have appended : releases.toList =
        state.data.outbound.pendingRelease.toList ++ [⟨rec.packetId, .success, .write 0⟩] := by
      rw [appended]
      exact congrArg (·.toList ++ _) (Outbound.pendingRelease_of_ackPacket done)
    refine .of_ackPacket rfl done ?_ ?_
    · have undisturbed : Undisturbed state
          (state.setOutbound { acked with pendingRelease := releases }) :=
        undisturbed_of_outbound (by rw [same]) size free
      exact undisturbed.returnQuota
    · cases removes with
      | retained was own only left _ _ =>
        exact .retained was own only left appended (.inr ⟨rfl, rfl⟩)

/-- A PUBCOMP touches only its publication. -/
theorem Handler.pubComp_confined (sound : state.data.outbound.Sound) (comp : PubComp) :
    wp (Handler.pubComp comp) (fun delivered => Confined (.pubComp comp) state (.ok delivered))
      (fun error => Confined (.pubComp comp) state (.error error)) state := by
  simp only [Handler.pubComp, wp_bind]
  refine Handler.wp_ackRelease (fun none => ?_) (fun acked done => ?_)
  · exact .of_stale (Outbound.ackRelease_eq_none.mp none) (.inl rfl)
  · obtain ⟨gone, own, left, same⟩ := Outbound.releases_of_ackRelease done
    have confined {taken : Taken} :
        Confined (.pubComp comp) state taken (state.setOutbound acked) := by
      refine ⟨fun untracked => ?_, fun _ => ⟨?_, ?_⟩⟩
      · have none := Outbound.ackRelease_eq_none.mpr untracked
        rw [show (Acknowledgement.pubComp comp).packetId = comp.packetId from rfl, done] at none
        simp at none
      · refine undisturbed_of_outbound (by rw [same]) ?_ ?_ <;> rw [same]
      · refine .release own left (fun other found again => ?_) ?_
        · -- Another release with the same identifier would use it twice.
          have distinct := (List.nodup_append.mp sound.distinct).2.1
          rw [(left.map _).nodup_iff, List.map_cons, List.nodup_cons] at distinct
          exact distinct.1 (List.mem_map.mpr ⟨other, found, again.trans own.symm⟩)
        · change acked.contents = _
          rw [same]
          rfl
    simp only [if_true, wp_bind]
    exact Handler.wp_require _ (fun _ => confined) (fun _ => confined)

end Handlers

/-- The outcome of a handler and the state it left. -/
def Handler.outcome (handler : Handler Bool) (state : Handling) : Taken × Handling :=
  match handler state with
  | .ok delivered after => (.ok delivered, after)
  | .error error after => (.error error, after)

theorem Handler.outcome_of_wp {handler : Handler Bool} {state : Handling}
    {P : Taken → Handling → Prop}
    (spec : wp handler (fun delivered => P (.ok delivered)) (fun error => P (.error error)) state) :
    P (handler.outcome state).1 (handler.outcome state).2 := by
  revert spec
  unfold wp outcome
  cases handler state <;> exact id

/-- An acknowledgement removes exactly the operation it is for, or changes nothing. -/
theorem Acknowledgement.confined {state : Handling} (sound : state.data.outbound.Sound)
    (ack : Acknowledgement) : Confined ack state ((handlePacket ack.packet).outcome state).1
      ((handlePacket ack.packet).outcome state).2 := by
  refine Handler.outcome_of_wp ?_
  cases ack with
  | subAck ack => exact Handler.subAck_confined sound ack rfl rfl
  | unsubAck ack => exact Handler.subAck_confined sound ack rfl rfl
  | pubAck ack => exact Handler.pubAck_confined sound ack
  | pubRec rec => exact Handler.pubRec_confined sound rec
  | pubComp comp => exact Handler.pubComp_confined sound comp

/--
In every run an acknowledgement removes exactly the operation it is for, or changes nothing.

Every other retained packet keeps its place, its progress and its bytes.
-/
theorem run_acknowledgement_confined (config : ConfigBuilder) (clock : Clock)
    (calls : List (Invocation π τ)) (ack : Acknowledgement) :
    let before := (run (start config clock) calls).self.session.handling
    Confined ack before ((handlePacket ack.packet).outcome before).1
      ((handlePacket ack.packet).outcome before).2 := by
  intro before
  exact ack.confined (run_sound config clock calls)

end Minimq

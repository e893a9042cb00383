import Minimq.Proofs.Client.Handle

/-! A subscription that is no longer pending was acknowledged in the session in use. -/

namespace Minimq

open Hoare Async

variable {π τ : Type} {topics : List TopicFilter} {op : Op} {before after : ClientMoment}

/-- The bytes of a SUBSCRIBE for some topics, without properties. -/
def IsSubscribe (topics : List TopicFilter) (packetId : UInt16) (packet : Bytes) : Prop :=
  ∃ buf offset, (encodeWithOffset buf (Subscribe.mk packetId (.slice []) topics)).1 =
    .ok (offset, packet)

/-- In the session in use, a SUBSCRIBE for the topics was admitted and then acknowledged. -/
inductive Answered (topics : List TopicFilter) (fine : SubAck → Prop)
    (trace : List (Happening Event)) : Prop where
  | intro {early between later : List (Happening Event)} {state before : Handling}
      {packet : Bytes} {ack : SubAck} {delivered : Bool}
      (record : trace = early ++ .noted (.admitted state .subscribe ack.packetId packet) ::
        (between ++ .noted (.handled before (.subAck ack) delivered) :: later))
      (request : IsSubscribe topics ack.packetId packet)
      (unshared : ∀ event ∈ between, ∀ admission, admissionOf event = some admission →
        admission.packetId ≠ ack.packetId)
      (pending : (.subscribe, ack.packetId) ∈ before.data.outbound.docket.keys)
      (kept : .noted .reset ∉ between ++ later) (fine : fine ack)

/-- A SUBSCRIBE for the topics is pending in the session in use. -/
structure Awaiting (topics : List TopicFilter) (op : Op) (moment : ClientMoment) : Prop where
  /-- The operation is a subscription. -/
  kind : op.kind = .subscribe
  /-- It is tracked. -/
  carries : moment.self.outbound.docket.Carries op
  /-- It was admitted, and since then its identifier is its own. -/
  requested : ∃ early state packet later,
    moment.trace = early ++ .noted (.admitted state .subscribe op.packetId packet) :: later ∧
    IsSubscribe topics op.packetId packet ∧ Unshared op later

/-- A SUBSCRIBE for the topics is pending, or one was acknowledged. -/
def Sought (topics : List TopicFilter) (op : Op) (moment : ClientMoment) : Prop :=
  Awaiting topics op moment ∨ Answered topics (fun _ => True) moment.trace

theorem reset_not_mem_of_resets {trace events : List (Happening Event)}
    (same : resets (trace ++ events) = resets trace) : .noted .reset ∉ events := by
  rw [← resets_eq_zero]
  unfold resets at same ⊢
  rw [List.countP_append] at same
  omega

namespace Answered

variable {fine : SubAck → Prop} {trace events : List (Happening Event)}

/-- An acknowledged subscription lasts until the session is started over. -/
theorem append (answered : Answered topics fine trace)
    (same : resets (trace ++ events) = resets trace) : Answered topics fine (trace ++ events) := by
  obtain @⟨early, between, later, state, before, packet, ack, delivered, record, request, unshared,
    pending, kept, good⟩ := answered
  -- The new events come behind the acknowledgement, with no reset among them.
  have longer : trace ++ events = early ++
      .noted (.admitted state .subscribe ack.packetId packet) ::
        (between ++ .noted (.handled before (.subAck ack) delivered) :: (later ++ events)) := by
    rw [record, List.append_assoc, List.cons_append, List.append_assoc, List.cons_append]
  refine ⟨longer, request, unshared, pending, ?_, good⟩
  rw [← List.append_assoc, List.mem_append, not_or]
  exact ⟨kept, reset_not_mem_of_resets same⟩

/-- The acknowledgement is on record. -/
theorem and_recorded (answered : Answered topics fine trace) {good : SubAck → Prop}
    (all : ∀ before ack delivered, .noted (.handled before (.subAck ack) delivered) ∈ trace →
      (.subscribe, ack.packetId) ∈ before.data.outbound.docket.keys → good ack) :
    Answered topics good trace := by
  obtain @⟨early, between, later, state, before, packet, ack, delivered, record, request, unshared,
    pending, kept, -⟩ := answered
  have known : .noted (.handled before (.subAck ack) delivered) ∈ trace := by
    rw [record]
    simp
  exact ⟨record, request, unshared, pending, kept, all before ack delivered known pending⟩

end Answered

theorem Moves.resets_le (moves : Moves τ before after) :
    resets before.trace ≤ resets after.trace := by
  obtain ⟨events, same⟩ := Moves.extends_trace moves
  rw [← same]
  exact List.Sublist.countP_le (List.sublist_append_left _ _)

theorem Unshared.append {later events : List (Happening Event)} (unshared : Unshared op later)
    (kept : .noted .reset ∉ events)
    (alone : ∀ event ∈ events, ∀ admission, admissionOf event = some admission →
      admission.packetId ≠ op.packetId) : Unshared op (later ++ events) := by
  refine ⟨fun found => ?_, fun event found => ?_⟩
  · exact (List.mem_append.mp found).elim unshared.kept kept
  · exact (List.mem_append.mp found).elim (unshared.alone event) (alone event)

/-- A pending subscription stays pending or is acknowledged. -/
theorem Move.sought (move : Move τ before after)
    (same : resets after.trace = resets before.trace) (awaiting : Awaiting topics op before) :
    Sought topics op after := by
  obtain ⟨kind, carries, early, state, packet, later, record, request, unshared⟩ := awaiting
  have longer {events : List (Happening Event)} (trace : after.trace = before.trace ++ events) :
      after.trace = early ++ .noted (.admitted state .subscribe op.packetId packet) ::
        (later ++ events) := by
    rw [trace, record, List.append_assoc, List.cons_append]
  cases move.tracking with
  | @steady events docket trace steady =>
    refine .inl ⟨kind, docket ▸ carries, early, state, packet, _, longer trace, request,
      unshared.append ?_ fun event found admission admits => ?_⟩
    · rw [trace] at same
      exact reset_not_mem_of_resets same
    · rw [(steady event found).unadmitted] at admits
      cases admits
  | @admitted other packetId bytes unused quota docket trace =>
    -- An identifier that is taken is not in use.
    have distinct : packetId ≠ op.packetId := by
      intro own
      have used : op.packetId ∈ before.self.outbound.docket.packetIds := by
        rcases carries with retained | ⟨-, release⟩
        · exact List.mem_append_left _ (List.mem_map_of_mem (f := Prod.snd) retained)
        · exact List.mem_append_right _ release
      rw [Outbound.packetIds_docket] at used
      rw [own, SessionData.isLive_iff.mpr used] at unused
      cases unused
    refine .inl ⟨kind, docket ▸ carries.imp_left (List.mem_append_left _), early, state, packet, _,
      longer trace, request, unshared.append (by simp) fun event found admission admits => ?_⟩
    rw [List.mem_singleton.mp found] at admits
    cases admits
    exact distinct
  | @handled inbound delivered taken dispatch fatal trace outcome =>
    by_cases concludes : before.self.session.handling.Concludes op inbound
    · -- Only a SUBACK with its identifier brings a subscription to its end.
      cases inbound with
      | subAck ack =>
        obtain ⟨-, own⟩ := concludes
        have tracked : (.subscribe, ack.packetId) ∈ before.self.outbound.docket.keys := by
          rcases carries with retained | ⟨level, -⟩
          · rwa [kind, ← own] at retained
          · rw [kind] at level
            cases level
        have whole := longer trace
        rw [← own] at whole request
        refine .inr ⟨whole, request, fun event found admission admits => ?_, tracked, ?_, trivial⟩
        · rw [own]
          exact unshared.alone event found admission admits
        · rw [List.append_nil]
          exact unshared.kept
      | unsubAck ack => cases kind.symm.trans concludes.1
      | pubAck ack => cases kind.symm.trans concludes.1
      | pubRec rec => cases kind.symm.trans concludes.1
      | pubComp comp => cases kind.symm.trans concludes.1
      | _ => exact concludes.elim
    · refine .inl ⟨kind, dispatch.carries carries concludes, early, state, packet, _, longer trace,
        request, unshared.append (by simp) fun event found admission admits => ?_⟩
      rw [List.mem_singleton.mp found] at admits
      cases admits
  | reset closed empty trace =>
    rw [trace] at same
    exact absurd (List.mem_singleton_self _) (reset_not_mem_of_resets same)

/-- A subscription that is sought stays so until the session is started over. -/
theorem Moves.sought (moves : Moves τ before after)
    (same : resets after.trace = resets before.trace) (sought : Sought topics op before) :
    Sought topics op after := by
  -- Resets are only counted up, so there is none on the way either.
  induction moves with
  | refl => exact sought
  | @tail middle after moves move ih =>
    have first := Moves.resets_le moves
    have second := Moves.resets_le (.single move : Moves τ middle after)
    rcases ih (by omega) with awaiting | answered
    · exact move.sought (by omega) awaiting
    · obtain ⟨events, extended⟩ := move.extends_trace
      refine .inr ?_
      rw [← extended] at second same ⊢
      exact answered.append (by omega)

/-- A subscription that is complete was acknowledged. -/
theorem Sought.answered {world : ClientWorld τ} (sought : Sought topics op world.moment)
    (complete : world.self.session.status op = .complete) :
    Answered topics (fun _ => True) world.trace := by
  rcases sought with awaiting | answered
  · -- While the request is tracked its status is pending, so it was answered.
    have same : op.generation = world.self.session.data.generation := by
      by_contra other
      rw [Session.status, if_pos other] at complete
      cases complete
    have pending := (Session.status_of_docket same).1 awaiting.carries
    rw [pending] at complete
    cases complete
  · exact answered

/-- A handle of a subscription that was just returned is awaited. -/
theorem sought_of_returned {origin : ClientMoment} {world : ClientWorld τ} {replies : List (Reply τ)}
    (settled : Settled origin world)
    (returned : Invocation.result world (⟨.subscribe topics [], replies⟩ : Invocation π τ) =
      .ok (.op (some op)))
    (same : resets (Invocation.perform world
      (⟨.subscribe topics [], replies⟩ : Invocation π τ)).2.trace = resets world.trace) :
    Sought topics op (Invocation.perform world
      (⟨.subscribe topics [], replies⟩ : Invocation π τ)).2.moment := by
  obtain ⟨packet, ⟨kind, offset, encoded⟩, granted⟩ :=
    Invocation.granted settled.tidy (Invocation.alive_of_returned returned) _ returned
  obtain ⟨-, -, flushed, taken, buf, retained, first, -, admissible, second⟩ := granted
  have before := Moves.resets_le (Steps.moves first.steps)
  have after := Moves.resets_le (Steps.moves second.steps)
  rw [kind] at admissible second after
  have plain : resets (flushed.trace ++
      [.noted (.admitted taken.session.handling .subscribe op.packetId packet)]) =
      resets flushed.trace := by
    simp [resets, isReset]
  have tracked : (.subscribe, op.packetId, packet.length, packet) ∈
      (taken.enlist .subscribe buf retained).holdings.retained := by
    rw [Connection.holdings_enlist admissible]
    exact List.mem_append_right _ (List.mem_singleton_self _)
  -- Right after the admission nothing else has happened yet.
  refine Moves.sought (Steps.moves second.steps) ?_ (.inl ⟨kind, .inl ?_, flushed.trace,
    taken.session.handling, packet, [], rfl, ⟨_, offset, encoded⟩, by simp, by simp⟩)
  · dsimp only at after ⊢
    rw [plain] at after ⊢
    exact Nat.le_antisymm (Nat.le_trans (Nat.le_of_eq same) before) after
  · rw [kind]
    exact Connection.docket_of_holdings tracked

end Minimq

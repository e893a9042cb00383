import Minimq.Staging.Phase

/-! The service goes through the phases of a transfer. -/

namespace Minimq.Staging

variable {inbound : InboundPublish} {payload : Bytes}

namespace Service

variable {τ : Type} {json : Json} {service : Service} {phase : Phase}

/-- What never changes: the limits and the topic root. -/
def fixed (service : Service) : Config × Bytes := (service.config, service.root)

/-- The fields that describe the transfer and the pending request, and what never changes. -/
def core (service : Service) :
    State × Option Transfer × Option PendingRequest × (Config × Bytes) :=
  (service.state, service.transfer, service.request, service.fixed)

theorem Stands.congr {other : Service} (same : other.core = service.core)
    (stands : service.Stands phase) : other.Stands phase := by
  simp only [core, Prod.mk.injEq] at same
  obtain ⟨state, transfer, request, -⟩ := same
  cases phase <;> simpa only [Stands, state, transfer, request] using stands

theorem new_spec {root : Bytes} {config : Config} (created : new root config = .ok service) :
    service.fixed = (config, root) ∧ service.Stands .idle ∧ service.inflight = none ∧
      service.pending = none ∧ service.startupPublish = none ∧ service.subscribed = false := by
  unfold new at created
  repeat' split at created
  all_goals cases created
  exact ⟨rfl, ⟨rfl, rfl, rfl⟩, rfl, rfl, rfl, rfl⟩

@[simp] theorem core_queue (action : Action) (service : Service) :
    (service.queue action).core = service.core := by
  unfold queue
  split
  · cases action <;> rfl
  · rfl

/-- A startup does not touch the transfer. -/
theorem core_beginStartup (event : ConnectEvent) (service : Service) :
    (service.beginStartup event).core = service.core := by
  unfold beginStartup
  -- Only the queue and the flags of the startup change.
  split <;> dsimp only <;> split
  · split
    · exact core_queue ..
    · rfl
  · exact core_queue ..
  · split
    · exact core_queue ..
    · rfl
  · exact core_queue ..

/-- Starting an action does not touch the transfer. -/
theorem core_startPending (link : Link τ) (service : Service) :
    (service.startPending link).2.1.core = service.core := by
  unfold startPending
  -- What is started goes into flight, and the transfer is not involved.
  split
  · rfl
  · split
    · rfl
    · dsimp only
      split
      · rfl
      · rfl
      · split <;> rfl
      · rfl
    · rfl

/-- A step does not touch the transfer. -/
theorem core_step (link : Link τ) (service : Service) :
    (service.step link).2.1.core = service.core := by
  unfold step
  dsimp only
  -- The action in flight is looked at first, and then the next one is started.
  split
  · exact core_startPending ..
  · split
    · rfl
    · exact core_queue ..
    · split
      · split
        · rw [core_startPending, core_queue]
          rfl
        · exact core_startPending ..
      · exact core_startPending ..

@[simp] theorem fixed_queue (action : Action) (service : Service) :
    (service.queue action).fixed = service.fixed :=
  congrArg (fun core => core.2.2.2) (core_queue action service)

/-- Completing a request does not change the limits. -/
theorem fixed_completeRequest (success : Bool) (service : Service) :
    (service.completeRequest success).fixed = service.fixed := by
  unfold completeRequest
  -- Each outcome queues a status and leaves the limits.
  split
  · rfl
  · dsimp only
    split
    · exact fixed_queue ..
    · split
      · exact fixed_queue ..
      · split
        · exact fixed_queue ..
        · split <;> exact fixed_queue ..

theorem fixed_abort (service : Service) : service.abort.2.fixed = service.fixed := by
  unfold abort
  split
  · exact fixed_queue ..
  · rfl

/-- An inbound publication does not change the limits. -/
theorem fixed_handle (json : Json) (inbound : InboundPublish) (service : Service) :
    (service.handle json inbound).2.fixed = service.fixed := by
  -- Both kinds of message change the transfer or queue a status.
  have manifest (payload : Bytes) :
      (service.handleManifest json payload).2.fixed = service.fixed := by
    unfold handleManifest
    repeat' split
    all_goals first | rfl | exact fixed_queue ..
  have chunk (id : Bytes) (offset : UInt32) (payload : Bytes) :
      (service.handleChunk id offset payload).2.fixed = service.fixed := by
    unfold handleChunk
    repeat' split
    all_goals first | rfl | exact fixed_queue ..
  unfold handle
  dsimp only
  repeat' split
  all_goals first | rfl | exact manifest _ | exact chunk ..

theorem completeRequest_none (none : service.request = none) (success : Bool) :
    service.completeRequest success = service := by
  simp only [completeRequest, none]

/-- Completing a request leads to the next phase. -/
theorem Stands.completeRequest (stands : service.Stands phase) (success : Bool) :
    (service.completeRequest success).Stands (phase.completed success) := by
  cases phase with
  | idle =>
    rw [completeRequest_none stands.2.2]
    exact stands
  | ready transfer =>
    rw [completeRequest_none stands.2.2]
    exact stands
  | complete transfer =>
    rw [completeRequest_none stands.2.2]
    exact stands
  | failed transfer =>
    rw [completeRequest_none stands.2.2]
    exact stands
  | preparing transfer =>
    obtain ⟨state, some, request⟩ := stands
    simp only [Service.completeRequest, request, some, Phase.completed]
    cases success with
    | false => exact Stands.congr (core_queue ..) ⟨rfl, rfl, rfl⟩
    | true => exact Stands.congr (core_queue ..) ⟨rfl, rfl, rfl⟩
  | writing transfer write =>
    obtain ⟨state, some, nextOffset, request, next⟩ := stands
    simp only [Service.completeRequest, request, some, Phase.completed]
    cases success with
    | false => exact Stands.congr (core_queue ..) ⟨rfl, rfl, rfl⟩
    | true =>
      -- The request remembers whether the chunk was the final one.
      cases final : write.fnv1a64 with
      | some checksum => exact Stands.congr (core_queue ..) ⟨rfl, rfl, rfl⟩
      | none =>
        rw [next final]
        exact Stands.congr (core_queue ..) ⟨rfl, rfl, rfl⟩

theorem Stands.abort (stands : service.Stands phase) :
    service.abort.1 = phase.isActive ∧ service.abort.2.Stands phase.aborted := by
  cases phase <;> obtain ⟨state, some, request⟩ := stands <;>
    simp only [Service.abort, state, State.isActive, Phase.isActive, Phase.aborted, if_true]
  case idle => exact ⟨rfl, state, some, request⟩
  case complete => exact ⟨rfl, state, some, request⟩
  case failed => exact ⟨rfl, state, some, request⟩
  all_goals exact ⟨trivial, Stands.congr (core_queue ..) ⟨rfl, some, rfl⟩⟩

theorem Stands.state (stands : service.Stands phase) : service.state = phase.state := by
  cases phase <;> exact stands.1

theorem Stands.transfer (stands : service.Stands phase) : service.transfer = phase.transfer := by
  cases phase <;> exact stands.2.1

end Service

/-- An accepted chunk continues the transfer, and the next offset is its end within the object. -/
theorem continues_of_validateChunk (config : Config) {transfer : Transfer} {offset next : UInt32}
    (short : payload.length < 2 ^ 32)
    (behind : transfer.nextOffset.toNat ≤ transfer.size.toNat)
    (valid : validateChunk transfer offset payload config.capacity config.maxChunkSize
      config.writeSize = .ok next) :
    StagingWrite.Continues config transfer ⟨offset, payload, transfer.size,
      if next == transfer.size then some transfer.fnv1a64 else none⟩ ∧
    (next ≠ transfer.size → next = UInt32.ofNat (offset.toNat + payload.length)) := by
  simp only [validateChunk, Nat.mod_eq_of_lt short] at valid
  split at valid
  · cases valid
  split at valid
  · cases valid
  split at valid
  · cases valid
  split at valid
  · cases valid
  split at valid
  · cases valid
  split at valid
  · cases valid
  rename_i before there chunk aligned range within
  simp only [ne_eq, not_not, not_or, Nat.not_lt] at there chunk aligned range within
  subst there
  have limits : StagingWrite.Sound config ⟨transfer.nextOffset, payload, transfer.size,
      if next == transfer.size then some transfer.fnv1a64 else none⟩ :=
    ⟨chunk.1, chunk.2, aligned, within⟩
  split at valid
  · -- The chunk ends within the object, so there is no padding.
    rename_i inside
    cases valid
    have number : (UInt32.ofNat (transfer.nextOffset.toNat + payload.length)).toNat =
        transfer.nextOffset.toNat + payload.length :=
      UInt32.toNat_ofNat_of_lt' (show _ < 2 ^ 32 by omega)
    refine ⟨{ limits with
      offset := rfl
      size := rfl
      fnv1a64 := ?_
      padding := ?_ }, fun _ => rfl⟩
    · dsimp only
      congr 1
      rw [beq_iff_eq, ← UInt32.toNat_inj, number]
      exact propext ⟨fun same => by omega, fun same => by omega⟩
    · dsimp only
      rw [List.drop_of_length_le (by omega)]
      simp
  · rename_i beyond
    have object : (transfer.size - transfer.nextOffset).toNat =
        transfer.size.toNat - transfer.nextOffset.toNat :=
      UInt32.toNat_sub_of_le _ _ (UInt32.le_iff_toNat_le.mpr behind)
    simp only [payloadPadding, object] at valid
    split at valid
    · cases valid
    · rename_i padding some
      split at valid
      · rename_i erased
        cases valid
        split at some
        · cases some
          refine ⟨{ limits with
            offset := rfl
            size := rfl
            fnv1a64 := by simp only [beq_self_eq_true, if_true]; rw [if_pos (by omega)]
            padding := fun byte member => ?_ }, fun other => absurd rfl other⟩
          exact beq_iff_eq.mp (List.all_eq_true.mp erased byte member)
        · cases some
      · cases valid

namespace Service

variable {json : Json} {service : Service} {phase : Phase}

/-- Handling a publication leads from one phase to another. -/
def Leads (service : Service) (phase : Phase) (result : Handle × Service) : Prop :=
  ∃ after, phase.Handled service.config result.1 after ∧ result.2.Stands after

theorem Stands.ignored (stands : service.Stands phase) : service.Leads phase (.consumed, service) :=
  ⟨phase, .consumed phase, stands⟩

theorem Stands.answered (stands : service.Stands phase) (action : Action) :
    service.Leads phase (.consumed, service.queue action) :=
  ⟨phase, .consumed phase, stands.congr (core_queue action service)⟩

/-- A decoded manifest has not made any progress. -/
theorem nextOffset_of_parseManifest {transfer : Transfer}
    (parsed : parseManifest json payload = some transfer) : transfer.nextOffset = 0 := by
  unfold parseManifest at parsed
  -- The only manifest that is accepted starts at zero.
  split at parsed
  · cases parsed
  · split at parsed
    · split at parsed
      · cases parsed
        rfl
      · cases parsed
    · cases parsed

theorem Stands.handleManifest (stands : service.Stands phase) (payload : Bytes) :
    service.Leads phase (service.handleManifest json payload) := by
  unfold Service.handleManifest
  split
  · split
    · exact stands.answered _
    · exact stands.ignored
  · rename_i manifest parsed
    split
    · split
      · exact stands.answered _
      · exact stands.ignored
    · rename_i idle
      rw [not_not] at idle
      split
      · exact stands.answered _
      · rename_i nonempty
        split
        · exact stands.answered _
        · rename_i fits
          split
          · exact stands.answered _
          · -- Only an idle service accepts a manifest.
            have acceptable : manifest.Acceptable service.config := by
              refine ⟨nextOffset_of_parseManifest parsed, Nat.pos_of_ne_zero fun zero => ?_, ?_⟩
              · exact nonempty (UInt32.toNat_inj.mp zero)
              · exact UInt32.le_iff_toNat_le.mp (UInt32.not_lt.mp fits)
            have same := core_queue (.publish .accepted)
              { service with transfer := some manifest, state := .preparing }
            simp only [core, Prod.mk.injEq] at same
            obtain ⟨state, transfer, -, -⟩ := same
            cases phase <;> obtain ⟨other, -⟩ := stands <;> rw [idle] at other <;> cases other
            exact ⟨.preparing manifest, .manifest acceptable, state, transfer, rfl⟩

theorem Stands.handleChunk (stands : service.Stands phase) (id : Bytes) (offset : UInt32)
    (short : payload.length < 2 ^ 32)
    (behind : ∀ transfer, phase = .ready transfer →
      transfer.nextOffset.toNat ≤ transfer.size.toNat) :
    service.Leads phase (service.handleChunk id offset payload) := by
  unfold Service.handleChunk
  split
  · exact stands.answered _
  · rename_i transfer some
    split
    · exact stands.ignored
    · split
      · exact stands.ignored
      · exact stands.ignored
      · exact stands.answered _
      · exact stands.answered _
      · exact stands.answered _
      · -- Only a service that is ready looks at the chunk itself.
        rename_i ready
        cases phase <;> obtain ⟨other, known, request⟩ := stands <;> rw [ready] at other <;>
          cases other
        rw [some] at known
        cases known
        have stands : service.Stands (.ready transfer) := ⟨ready, some, request⟩
        split
        · exact stands.answered _
        · rename_i code failed
          exact ⟨.failed transfer, .rejected transfer,
            Stands.congr (core_queue ..) ⟨rfl, some, request⟩⟩
        · rename_i next valid
          obtain ⟨continues, step⟩ :=
            continues_of_validateChunk service.config short (behind transfer rfl) valid
          refine ⟨.writing transfer _, .chunk continues, rfl, some, next, ?_, ?_⟩
          · cases next == transfer.size <;> rfl
          · intro none
            refine step fun same => ?_
            simp [same] at none

theorem Stands.handle (stands : service.Stands phase) (json : Json)
    (short : inbound.payload.length < 2 ^ 32)
    (behind : ∀ transfer, phase = .ready transfer →
      transfer.nextOffset.toNat ≤ transfer.size.toNat) :
    service.Leads phase (service.handle json inbound) := by
  unfold Service.handle
  dsimp only
  -- What is not for the service is left alone, and the rest is told apart by its topic.
  split
  · exact ⟨phase, .unhandled phase, stands⟩
  · split
    · exact stands.ignored
    · split
      · exact stands.handleManifest _
      · split
        · exact stands.ignored
        · exact stands.handleChunk _ _ short behind

/-- What follows the topic root is what was appended to it. -/
theorem suffix_eq_some {topic rest : Bytes} :
    service.suffix topic = some rest ↔ topic = service.root ++ rest := by
  unfold suffix
  split
  · rename_i starts
    obtain ⟨tail, rfl⟩ := List.isPrefixOf_iff_prefix.mp starts
    simp
  · rename_i other
    refine ⟨nofun, fun same => absurd ?_ other⟩
    exact List.isPrefixOf_iff_prefix.mpr ⟨rest, same.symm⟩

theorem handle_chunk {id : Bytes} {offset : UInt32} (topic : inbound.topic = service.chunkTopic)
    (properties : chunkProperties inbound.properties = some (id, offset)) :
    service.handle json inbound =
      if inbound.retained then (.consumed, service)
      else service.handleChunk id offset inbound.payload := by
  have suffix : service.suffix inbound.topic = some chunkSuffix := suffix_eq_some.mpr topic
  have other : ¬ some chunkSuffix = some manifestSuffix := by decide
  simp only [Service.handle, suffix, other, properties, ne_eq, not_true_eq_false, and_false,
    if_false]

/-- A write is the payload of a chunk of the transfer, at the position the chunk names. -/
theorem handle_write {write : StagingWrite} {after : Service}
    (handled : service.handle json inbound = (.request (.write write), after)) :
    ∃ transfer, service.transfer = some transfer ∧ inbound.topic = service.chunkTopic ∧
      chunkProperties inbound.properties = some (transfer.id, write.offset) ∧
      write.payload = inbound.payload := by
  unfold Service.handle at handled
  dsimp only at handled
  split at handled
  · cases handled
  rename_i staging
  split at handled
  · cases handled
  split at handled
  · -- A manifest never leads to a write.
    unfold Service.handleManifest at handled
    repeat' split at handled
    all_goals cases handled
  rename_i chunk
  split at handled
  · cases handled
  rename_i id offset properties
  have topic : inbound.topic = service.chunkTopic := by
    rw [chunkTopic, ← suffix_eq_some]
    by_contra other
    exact staging ⟨chunk, other⟩
  unfold Service.handleChunk at handled
  split at handled
  · cases handled
  rename_i transfer some
  split at handled
  · cases handled
  rename_i own
  rw [not_not] at own
  split at handled
  any_goals cases handled
  split at handled
  any_goals cases handled
  exact ⟨transfer, some, topic, own ▸ properties, rfl⟩

/-- The storage is prepared for a manifest only. -/
theorem handle_prepare {size : UInt32}
    (handled : (service.handle json inbound).1 = .request (.prepare size)) :
    inbound.topic = service.manifestTopic ∧
      ∃ transfer, parseManifest json inbound.payload = some transfer := by
  unfold Service.handle at handled
  dsimp only at handled
  split at handled
  · cases handled
  split at handled
  · cases handled
  split at handled
  · rename_i manifest
    refine ⟨suffix_eq_some.mp manifest, ?_⟩
    unfold Service.handleManifest at handled
    split at handled
    · cases handled
    · rename_i transfer parsed
      exact ⟨transfer, parsed⟩
  · -- A chunk never leads to a preparation.
    unfold Service.handleChunk at handled
    repeat' split at handled
    all_goals cases handled

/-- A manifest never fails a transfer. -/
theorem handleManifest_state
    (failed : (service.handleManifest json payload).2.state = .error) : service.state = .error := by
  have queued (action : Action) (other : Service) : (other.queue action).state = other.state :=
    congrArg Prod.fst (core_queue action other)
  unfold handleManifest at failed
  repeat' split at failed
  all_goals first
    | exact failed
    | exact (queued _ _).symm.trans failed
    | exact absurd ((queued _ _).symm.trans failed) nofun

/-- Only a chunk of the transfer can fail it. -/
theorem chunk_of_handle_error (running : service.state ≠ .error)
    (failed : (service.handle json inbound).2.state = .error) :
    ∃ transfer, service.transfer = some transfer ∧ inbound.topic = service.chunkTopic ∧
      correlationData inbound.properties = some transfer.id := by
  unfold Service.handle at failed
  dsimp only at failed
  -- Each earlier branch leaves the state, and the running state is no error.
  split at failed
  · exact absurd failed running
  rename_i staging
  split at failed
  · exact absurd failed running
  split at failed
  · exact absurd (handleManifest_state failed) running
  rename_i chunk
  split at failed
  · exact absurd failed running
  rename_i id offset properties
  have topic : inbound.topic = service.chunkTopic := by
    rw [chunkTopic, ← suffix_eq_some]
    by_contra other
    exact staging ⟨chunk, other⟩
  have correlation : correlationData inbound.properties = some id := by
    simp only [chunkProperties, Option.bind_eq_bind, Option.bind_eq_some_iff] at properties
    obtain ⟨found, correlation, position, _, same⟩ := properties
    cases same
    exact correlation
  -- A chunk of another transfer is not even looked at.
  unfold Service.handleChunk at failed
  split at failed
  · exact absurd ((congrArg Prod.fst (core_queue _ service)).symm.trans failed) running
  rename_i transfer some
  split at failed
  · exact absurd failed running
  rename_i own
  rw [not_not] at own
  exact ⟨transfer, some, topic, own ▸ correlation⟩

theorem statusMessage_congr {other : Service} (same : other.core = service.core)
    (code : StatusCode) : other.statusMessage code = service.statusMessage code := by
  simp only [core, fixed, config, Prod.mk.injEq, Config.mk.injEq] at same
  obtain ⟨state, transfer, -, ⟨-, mtu, writeSize⟩, root⟩ := same
  simp only [statusMessage, statusTopic, chunkTopic, statusWith, state, transfer, mtu, writeSize,
    root]

/-- What is published when an action is started. -/
theorem startPending_message {τ : Type} {link : Link τ} {message : StatusMessage}
    (published : (service.startPending link).2.2 = some message) :
    ∃ code, message = service.statusMessage code := by
  -- Only a status is published, and a subscription is not one.
  have own {action : Action} (some : service.published action = some message) :
      ∃ code, message = service.statusMessage code := by
    cases action with
    | publish code => exact ⟨code, (Option.some.inj some).symm⟩
    | subscribe => cases some
  unfold startPending at published
  dsimp only at published
  repeat' split at published
  all_goals first | cases published | exact own published

/-- A step publishes the status of the service, or nothing. -/
theorem step_message {τ : Type} {link : Link τ} {message : StatusMessage}
    (published : (service.step link).2.2 = some message) :
    ∃ code, message = service.statusMessage code := by
  -- What is published is the status of the service before the step.
  have same {other : Service} (published : (other.startPending link).2.2 = some message)
      (core : other.core = service.core) : ∃ code, message = service.statusMessage code := by
    obtain ⟨code, message⟩ := startPending_message published
    exact ⟨code, message.trans (statusMessage_congr core code)⟩
  unfold step at published
  dsimp only at published
  split at published
  · exact same published rfl
  · split at published
    · cases published
    · cases published
    · split at published
      · split at published
        · exact same published (core_queue ..)
        · exact same published rfl
      · exact same published rfl

end Service

end Minimq.Staging

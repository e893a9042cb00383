import Minimq.Proofs.Staging.Log

/-! The status of a device is never lost: what is not queued was published. -/

namespace Minimq.Staging

variable {τ : Type} {json : Json} {code : StatusCode}

/-- The codes that say how a transfer failed. -/
def StatusCode.isFailure : StatusCode → Bool
  | .oversize | .mtu | .unaligned | .storage | .error => true
  | .idle | .accepted | .duplicate | .offset | .complete => false

/-- Whether a code may be published in a state. -/
def State.Suits : State → StatusCode → Prop
  | .complete, code => code = .complete
  | .error, code => code.isFailure = true
  | _, _ => True

namespace Service

variable {service changed : Service} {latest : Option StatusMessage}

/-- The codes of the publications that are queued. -/
def queued (service : Service) : List StatusCode :=
  (match service.pending with
    | some (.publish code) => [code]
    | _ => []) ++ service.startupPublish.toList

/-- Whether a subscription is under way. -/
def Subscribing (service : Service) : Prop :=
  service.pending = some .subscribe ∨ service.inflight.map InFlightAction.action = some .subscribe

/-- How the slots for actions are used. -/
structure Orderly (service : Service) : Prop where
  /-- Nothing is pending while a subscription is in flight. -/
  alone : service.inflight.map InFlightAction.action = some .subscribe → service.pending = none
  /-- A status is deferred for a subscription only. -/
  deferred : service.startupPublish ≠ none → service.Subscribing
  /-- Without a transfer nothing goes on. -/
  begun : service.transfer = none → service.state = .idle ∧ service.request = none

/-- The last status publication tells how the transfer stands, except that a write has begun. -/
def Current (service : Service) (latest : Option StatusMessage) : Prop :=
  ∃ transfer message, service.transfer = some transfer ∧ latest = some message ∧
    message.status.id = transfer.id ∧ message.status.nextOffset = transfer.nextOffset ∧
    (service.state ≠ .writing → message.status.state = service.state)

/-- The host was told how the transfer stands, or will be. -/
structure Told (service : Service) (latest : Option StatusMessage) : Prop where
  /-- If nothing is queued, the last status publication is current. -/
  latest : service.queued = [] → service.state ≠ .idle → service.Current latest
  /-- What is queued suits the state. -/
  queued : ∀ code ∈ service.queued, service.state.Suits code

/-- Queueing keeps the order. -/
theorem Orderly.queue (orderly : service.Orderly) (action : Action) :
    (service.queue action).Orderly := by
  unfold Service.queue
  -- Behind a subscription a status waits, and otherwise it takes the free place.
  split
  · rename_i subscribing
    cases action with
    | publish code => exact ⟨orderly.alone, fun _ => subscribing, orderly.begun⟩
    | subscribe => exact orderly
  · rename_i free
    refine ⟨fun inflight => absurd (.inr inflight) free, fun deferred => ?_, orderly.begun⟩
    exact absurd (orderly.deferred deferred) free

/-- A status that is queued replaces what was queued before. -/
theorem Orderly.queued_queue (orderly : service.Orderly) (code : StatusCode) :
    (service.queue (.publish code)).queued = [code] := by
  unfold Service.queue
  split
  · rename_i subscribing
    -- The subscription is pending or in flight, and one status waits behind it.
    rcases subscribing with pending | inflight
    · simp [queued, pending]
    · simp [queued, orderly.alone inflight]
  · rename_i free
    have none : service.startupPublish = none := by
      by_contra deferred
      exact free (orderly.deferred deferred)
    simp [queued, none]

theorem Orderly.told_queue (orderly : service.Orderly)
    (suits : service.state.Suits code) (latest : Option StatusMessage) :
    (service.queue (.publish code)).Told latest := by
  have state : (service.queue (.publish code)).state = service.state :=
    congrArg Prod.fst (core_queue _ service)
  refine ⟨fun none => ?_, fun other member => ?_⟩
  · rw [orderly.queued_queue] at none
    cases none
  · rw [orderly.queued_queue, List.mem_singleton] at member
    rw [state, member]
    exact suits

theorem suits_currentCode (service : Service) : service.state.Suits service.currentCode := by
  unfold currentCode
  cases service.state <;> trivial

/-- The slots for actions. -/
def slots (service : Service) :
    Option InFlightAction × Option Action × Option StatusCode × Bool :=
  (service.inflight, service.pending, service.startupPublish, service.subscribed)

/-- What a call that concerns the transfer can lead to. -/
inductive Reacts (service : Service) : Service → Prop
  /-- Nothing happens. -/
  | same : Reacts service service
  /-- A status is queued, perhaps because the transfer went on. -/
  | reported {changed : Service} {code : StatusCode} (slots : changed.slots = service.slots)
      (begun : changed.transfer = none → changed.state = .idle ∧ changed.request = none)
      (suits : changed.state.Suits code) : Reacts service (changed.queue (.publish code))
  /-- A chunk is accepted, which is not reported. -/
  | writing (ready : service.state = .ready) (request : PendingRequest) :
      Reacts service { service with state := .writing, request := some request }

/-- Other fields do not matter for the use of the slots. -/
theorem Orderly.congr (orderly : service.Orderly) (slots : changed.slots = service.slots)
    (begun : changed.transfer = none → changed.state = .idle ∧ changed.request = none) :
    changed.Orderly := by
  simp only [Service.slots, Prod.mk.injEq] at slots
  obtain ⟨inflight, pending, startupPublish, -⟩ := slots
  refine ⟨?_, ?_, begun⟩
  · rw [inflight, pending]
    exact orderly.alone
  · rw [startupPublish, Subscribing, inflight, pending]
    exact orderly.deferred

/-- A call that concerns the transfer keeps the order and tells what it did. -/
theorem Reacts.told (reacts : service.Reacts changed) (orderly : service.Orderly)
    (told : service.Told latest) : changed.Orderly ∧ changed.Told latest := by
  cases reacts with
  | same => exact ⟨orderly, told⟩
  | reported slots begun suits =>
    have orderly := orderly.congr slots begun
    exact ⟨orderly.queue _, orderly.told_queue suits latest⟩
  | writing ready request =>
    -- A device without a transfer is idle, so it cannot be ready.
    have some : service.transfer ≠ none := by
      intro none
      rw [(orderly.begun none).1] at ready
      cases ready
    refine ⟨orderly.congr rfl fun none => absurd none some, fun none _ => ?_, fun _ _ => trivial⟩
    obtain ⟨transfer, message, known, sent, id, nextOffset, -⟩ :=
      told.latest none (by rw [ready]; nofun)
    exact ⟨transfer, message, known, sent, id, nextOffset, fun other => absurd rfl other⟩

theorem Orderly.reports (orderly : service.Orderly)
    (suits : service.state.Suits code) : service.Reacts (service.queue (.publish code)) :=
  .reported rfl orderly.begun suits

theorem isFailure_of_validateChunk {transfer : Transfer} {offset : UInt32} {payload : Bytes}
    {capacity : UInt32} {maxChunkSize writeSize : Nat}
    (failed : validateChunk transfer offset payload capacity maxChunkSize writeSize =
      .error (.fail code)) : code.isFailure = true := by
  unfold validateChunk at failed
  dsimp only at failed
  repeat' split at failed
  all_goals first | (cases failed; rfl) | cases failed

theorem queue_request (action : Action) (request : Option PendingRequest) (service : Service) :
    { service.queue action with request } = queue action { service with request } := by
  unfold queue
  dsimp only
  split
  · cases action <;> rfl
  · rfl

theorem Orderly.handleManifest (orderly : service.Orderly) (payload : Bytes) :
    service.Reacts (service.handleManifest json payload).2 := by
  have idle (code : StatusCode) (idle : service.state = .idle) : service.state.Suits code := by
    rw [idle]
    trivial
  -- Every answer to a manifest suits the state it leaves.
  unfold Service.handleManifest
  split
  · dsimp only
    split
    · exact orderly.reports (idle _ ‹_›)
    · exact .same
  · rename_i manifest parsed
    split
    · split
      · exact orderly.reports service.suits_currentCode
      · exact .same
    · rename_i begin
      rw [not_not] at begin
      split
      · exact orderly.reports (idle _ begin)
      split
      · exact orderly.reports (idle _ begin)
      split
      · exact orderly.reports (idle _ begin)
      · have same := queue_request (.publish .accepted) (some .prepare)
          { service with transfer := some manifest, state := .preparing }
        exact (congrArg service.Reacts same).mpr (.reported rfl (fun none => by cases none) trivial)

theorem Orderly.handleChunk (orderly : service.Orderly) (id : Bytes) (offset : UInt32)
    (payload : Bytes) : service.Reacts (service.handleChunk id offset payload).2 := by
  unfold Service.handleChunk
  -- Every answer to a chunk suits the state it leaves.
  split
  · rename_i none
    refine orderly.reports ?_
    rw [(orderly.begun none).1]
    trivial
  · rename_i transfer some
    split
    · exact .same
    · split
      · exact .same
      · exact .same
      · exact orderly.reports service.suits_currentCode
      · exact orderly.reports service.suits_currentCode
      · rename_i idle
        refine orderly.reports ?_
        rw [idle]
        trivial
      · rename_i ready
        split
        · refine orderly.reports ?_
          rw [ready]
          trivial
        · rename_i failed
          refine .reported rfl (fun none => ?_) (isFailure_of_validateChunk failed)
          rw [some] at none
          cases none
        · exact .writing ready _

theorem Orderly.handle (orderly : service.Orderly) (json : Json) (inbound : InboundPublish) :
    service.Reacts (service.handle json inbound).2 := by
  unfold Service.handle
  dsimp only
  -- What is not for the service is left alone.
  split
  · exact .same
  · split
    · exact .same
    · split
      · exact orderly.handleManifest _
      · split
        · exact .same
        · exact orderly.handleChunk ..

theorem Orderly.completeRequest (orderly : service.Orderly) (success : Bool) :
    service.Reacts (service.completeRequest success) := by
  unfold Service.completeRequest
  split
  · exact .same
  · rename_i request outstanding
    dsimp only
    split
    · -- A request is outstanding only with a transfer.
      rename_i none
      rw [(orderly.begun none).2] at outstanding
      cases outstanding
    · rename_i transfer some
      have begun {other : Option Transfer} {P : Prop} (same : other = .some transfer)
          (none : other = none) : P := by
        rw [same] at none
        cases none
      split
      · exact .reported rfl (begun some) rfl
      · split
        · exact .reported rfl (begun some) trivial
        · split
          · exact .reported rfl (fun none => by cases none) rfl
          · exact .reported rfl (fun none => by cases none) trivial

theorem Orderly.abort (orderly : service.Orderly) : service.Reacts service.abort.2 := by
  unfold Service.abort
  split
  · rename_i active
    refine .reported rfl (fun none => ?_) rfl
    rw [(orderly.begun none).1] at active
    cases active
  · exact .same

theorem suits_of_replayStatus (replay : service.replayStatus = some code) :
    service.state.Suits code := by
  unfold replayStatus at replay
  split at replay
  · cases replay
  · cases replay
    exact service.suits_currentCode

theorem told_of_replayStatus (none : service.replayStatus = none) (latest : Option StatusMessage) :
    service.Told latest := by
  unfold replayStatus at none
  split at none
  · rename_i idle
    refine ⟨fun _ begun => absurd idle begun, fun _ _ => ?_⟩
    rw [idle]
    trivial
  · cases none

/-- What is repeated tells the state. -/
theorem told_of_queued (queued : service.queued = service.replayStatus.toList)
    (latest : Option StatusMessage) : service.Told latest := by
  -- Nothing to repeat means that there is nothing to tell.
  cases replay : service.replayStatus with
  | none => exact told_of_replayStatus replay latest
  | some code =>
    rw [replay, Option.toList_some] at queued
    refine ⟨fun none => ?_, fun other member => ?_⟩
    · rw [queued] at none
      cases none
    · rw [queued, List.mem_singleton] at member
      rw [member]
      exact suits_of_replayStatus replay

/-- A subscription is queued, and the status waits for it. -/
theorem told_queue_subscribe
    (alone : service.inflight.map InFlightAction.action = some .subscribe → service.pending = none)
    (begun : service.transfer = none → service.state = .idle ∧ service.request = none)
    (replay : service.startupPublish = service.replayStatus) (latest : Option StatusMessage) :
    (service.queue .subscribe).Orderly ∧ (service.queue .subscribe).Told latest := by
  unfold queue
  -- The status is sent behind the subscription, which may be under way already.
  split
  · rename_i subscribing
    refine ⟨⟨alone, fun _ => subscribing, begun⟩, told_of_queued ?_ latest⟩
    rcases subscribing with pending | inflight
    · simp [queued, pending, replay]
    · simp [queued, alone inflight, replay]
  · rename_i free
    refine ⟨⟨fun inflight => absurd (.inr inflight) free, fun _ => .inl rfl, begun⟩,
      told_of_queued ?_ latest⟩
    simp only [queued, List.nil_append, replay]
    rfl

/-- A startup keeps the order and queues the status again. -/
theorem Orderly.beginStartup (orderly : service.Orderly) (event : ConnectEvent)
    (latest : Option StatusMessage) :
    (service.beginStartup event).Orderly ∧ (service.beginStartup event).Told latest := by
  unfold Service.beginStartup
  -- A new session subscribes again, and a resumed one only where it has to.
  cases event with
  | connected =>
    simp only [if_true, Bool.false_eq_true, if_false]
    refine told_queue_subscribe ?_ ?_ ?_ latest
    · exact fun other => by cases other
    · exact orderly.begun
    · rfl
  | reconnected =>
    simp only [reduceCtorEq, if_false]
    split
    · have cleared : Orderly { service with startupPublish := none } :=
        ⟨orderly.alone, (fun some => absurd rfl some), orderly.begun⟩
      split
      · rename_i code replay
        exact ⟨cleared.queue _, cleared.told_queue (suits_of_replayStatus replay) latest⟩
      · rename_i none
        refine ⟨cleared, told_of_replayStatus ?_ latest⟩
        exact none
    · refine told_queue_subscribe ?_ ?_ ?_ latest
      · exact orderly.alone
      · exact orderly.begun
      · rfl

/-- The status of a service tells how its transfer stands. -/
theorem Orderly.current (orderly : service.Orderly) (begun : service.state ≠ .idle)
    (code : StatusCode) : service.Current (some (service.statusMessage code)) := by
  cases known : service.transfer with
  | none => exact absurd (orderly.begun known).1 begun
  | some transfer =>
    refine ⟨transfer, _, known, rfl, ?_, ?_, fun _ => rfl⟩
    · simp [statusMessage, statusWith, known]
    · simp [statusMessage, statusWith, known]

theorem Orderly.told_published (orderly : service.Orderly) (told : service.Told latest)
    (action : Action) : service.Told ((service.published action).or latest) := by
  cases action with
  | publish code => exact ⟨fun _ begun => orderly.current begun code, told.queued⟩
  | subscribe => exact told

/-- An action that is started is in flight, and what it publishes is told. -/
theorem Orderly.started (orderly : service.Orderly) (told : service.Told latest)
    (free : service.inflight = none) {action : Action} (pending : service.pending = some action)
    (op : Op) :
    Orderly { service with pending := none, inflight := some ⟨action, op⟩ } ∧
      Told { service with pending := none, inflight := some ⟨action, op⟩ }
        ((service.published action).or latest) := by
  cases action with
  | publish code =>
    -- Without a subscription under way, nothing else was queued.
    have none : service.startupPublish = none := by
      by_contra deferred
      rcases orderly.deferred deferred with subscribe | subscribe
      · rw [pending] at subscribe
        cases subscribe
      · rw [free] at subscribe
        cases subscribe
    refine ⟨⟨nofun, fun deferred => absurd none deferred, orderly.begun⟩, ?_, ?_⟩
    · exact fun _ begun => orderly.current begun code
    · simp [queued, none]
  | subscribe =>
    have same : service.queued =
        queued { service with pending := none, inflight := some ⟨.subscribe, op⟩ } := by
      simp [queued, pending]
    refine ⟨⟨fun _ => rfl, fun _ => .inr rfl, orderly.begun⟩, ?_, ?_⟩
    · rw [← same]
      exact told.latest
    · rw [← same]
      exact told.queued

/-- Starting an action keeps the order, and what is no longer queued was told. -/
theorem Orderly.startPending (orderly : service.Orderly) (told : service.Told latest)
    (free : service.inflight = none) (link : Link τ) :
    (service.startPending link).2.1.Orderly ∧
      (service.startPending link).2.1.Told ((service.startPending link).2.2.or latest) := by
  -- An attempt that fails leaves the action queued, or it was published.
  have tries (queued : Bool) (action : Action) :
      service.Told ((if queued then service.published action else none).or latest) := by
    cases queued with
    | false => exact told
    | true => exact orderly.told_published told action
  unfold Service.startPending
  split
  · exact ⟨orderly, told⟩
  · rename_i action pending
    split
    · rename_i op attempt
      exact orderly.started told free pending op
    · dsimp only
      split
      · exact ⟨orderly, tries ..⟩
      · exact ⟨orderly, tries ..⟩
      · split
        · exact ⟨orderly, tries ..⟩
        · exact ⟨orderly, tries ..⟩
      · exact ⟨orderly, tries ..⟩
    · exact ⟨orderly, tries ..⟩

theorem inflight_queue (action : Action) (service : Service) :
    (service.queue action).inflight = service.inflight := by
  unfold queue
  split
  · cases action <;> rfl
  · rfl

/-- A step keeps the order, and what is no longer queued was told. -/
theorem Orderly.step (orderly : service.Orderly) (told : service.Told latest) {link : Link τ}
    (lasting : ∀ inflight, service.inflight = some inflight →
      link.status inflight.op ≠ .invalidated) :
    (service.step link).2.1.Orderly ∧
      (service.step link).2.1.Told ((service.step link).2.2.or latest) := by
  unfold Service.step
  dsimp only
  split
  · rename_i free
    refine startPending ?_ ?_ ?_ link
    · exact orderly.congr rfl orderly.begun
    · exact ⟨told.latest, told.queued⟩
    · exact free
  · rename_i inflight flying
    split
    · exact ⟨orderly.congr rfl orderly.begun, told.latest, told.queued⟩
    · rename_i invalidated
      exact absurd invalidated (lasting inflight flying)
    · split
      · rename_i subscribe
        have pending : service.pending = none := orderly.alone (by simp [flying, subscribe])
        split
        · -- The status that waited for the subscription takes the free slot.
          rename_i code deferred
          have free : Orderly { service with
              maxRxPacketSize := link.maxRxPacketSize, inflight := none, subscribed := true,
              startupPublish := none } :=
            ⟨(fun flying => by cases flying), (fun some => absurd rfl some), orderly.begun⟩
          have suits : service.state.Suits code := told.queued code (by simp [queued, deferred])
          refine startPending (free.queue _) (free.told_queue suits latest) ?_ link
          exact inflight_queue ..
        · rename_i none
          refine startPending ?_ ?_ rfl link
          · exact ⟨(fun flying => by cases flying), fun deferred => absurd none deferred,
              orderly.begun⟩
          · exact ⟨told.latest, told.queued⟩
      · rename_i publish
        refine startPending ?_ ?_ rfl link
        · refine ⟨(fun flying => by cases flying), fun deferred => ?_, orderly.begun⟩
          rcases orderly.deferred deferred with pending | subscribe
          · exact .inl pending
          · rw [flying] at subscribe
            exact absurd (Option.some.inj subscribe) publish
        · exact ⟨told.latest, told.queued⟩

end Service

namespace Journal

variable {journal : Journal}

/-- What holds in a journal as long as only fresh connections invalidate operations. -/
structure Told (journal : Journal) : Prop where
  /-- The slots for actions are in order. -/
  orderly : journal.device.1.Orderly
  /-- The host was told how the transfer stands, or will be. -/
  told : journal.device.1.Told journal.latest
  /-- The operation in flight belongs to the current session. -/
  inflight : ∀ inflight, journal.device.1.inflight = some inflight →
    inflight.op ∈ journal.operations

theorem told_start {root : Bytes} {config : Config} {service : Service}
    (created : Service.new root config = .ok service) : (start service).Told := by
  obtain ⟨-, ⟨state, transfer, request⟩, inflight, pending, startupPublish, -⟩ :=
    Service.new_spec created
  refine ⟨⟨?_, ?_, fun _ => ⟨state, request⟩⟩, Service.told_of_replayStatus ?_ _, ?_⟩
  · simp [start, inflight]
  · simp [start, startupPublish]
  · simp [start, Service.replayStatus, state]
  · simp [start, inflight]

/-- A call keeps it so. -/
theorem Told.note (told : journal.Told) {call : Call τ} (lasting : journal.Lasting call)
    (json : Json) : (journal.note json call).Told := by
  obtain ⟨orderly, known, inflight⟩ := told
  have fresh {service : Service} {operations : List Op} :
      ∀ inflight, service.inflight = some inflight →
        inflight.op ∈ (service.inflight.map InFlightAction.op).toList ++ operations := by
    intro inflight some
    simp [some]
  cases call with
  | handle inbound =>
    obtain ⟨orderly, known⟩ := (orderly.handle json inbound).told orderly known
    exact ⟨orderly, known, fresh⟩
  | completeRequest success =>
    obtain ⟨orderly, known⟩ := (orderly.completeRequest success).told orderly known
    exact ⟨orderly, known, fresh⟩
  | abort =>
    obtain ⟨orderly, known⟩ := orderly.abort.told orderly known
    exact ⟨orderly, known, fresh⟩
  | beginStartup event =>
    obtain ⟨orderly, known⟩ := orderly.beginStartup event journal.latest
    refine ⟨orderly, known, ?_⟩
    cases event with
    | connected =>
      intro inflight some
      have cleared : (journal.device.1.beginStartup .connected).inflight = none :=
        Service.inflight_queue ..
      cases cleared.symm.trans some
    | reconnected => exact fresh
  | step link =>
    obtain ⟨orderly, known⟩ :=
      orderly.step known fun flying some => lasting _ (inflight flying some)
    exact ⟨orderly, known, fresh⟩

theorem Told.notes {calls : List (Call τ)} (told : journal.Told)
    (lasts : Lasts json calls journal) : (journal.notes json calls).Told := by
  induction calls generalizing journal with
  | nil => exact told
  | cons call calls ih => exact ih (told.note lasts.1 json) lasts.2

end Journal

/-- Whatever is called on a service, its status is not lost. -/
theorem status_not_lost {root : Bytes} {config : Config} {service : Service}
    {calls : List (Call τ)} (created : Service.new root config = .ok service)
    (lasts : Journal.Lasts json calls (.start service)) :
    ((Journal.start service).notes json calls).device.1.Told
      ((Journal.start service).notes json calls).latest :=
  ((Journal.told_start created).notes lasts).told

/-- A connection is made, a manifest arrives, and its storage is prepared while a status is sent. -/
def announcement : List (Call Unit) :=
  [.beginStartup .connected, .step openLink, .step openLink,
    .handle ⟨[0x61] ++ manifestSuffix, [], .slice [], false⟩, .step openLink,
    .completeRequest true, .step openLink]

/-- What the small device notes of it. -/
def announcementJournal : Journal :=
  (Journal.start smallService).notes (fun _ => some (⟨[0x74], 5, 7⟩, 0)) announcement

/-- After the announcement the device is ready, nothing is queued, and the host was told. -/
theorem status_not_lost_announcement :
    announcementJournal.device.1.state = .ready ∧ announcementJournal.device.1.queued = [] ∧
      announcementJournal.device.1.Told announcementJournal.latest := by
  have created : Service.new [0x61] smallLimits = .ok smallService := rfl
  refine ⟨by decide +kernel, by decide +kernel, status_not_lost created ?_⟩
  simp [announcement, Journal.Lasts, Journal.Lasting, openLink]

end Minimq.Staging

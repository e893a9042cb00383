import Minimq.Proofs.Staging.Log

/-! A manifest or a chunk that was accepted once does nothing when it arrives again. -/

namespace Minimq.Staging

variable {τ : Type} {json : Json} {config : Config} {phase after : Phase} {log : Log}
variable {requests : List StagingRequest} {call : Call τ}

/-- What a publication says to a device. -/
inductive Message where
  /-- An object is announced; its identifier, size and checksum count. -/
  | manifest (transfer : Transfer)
  /-- A piece of the object. -/
  | chunk (id : Bytes) (offset : UInt32) (payload : Bytes)
  deriving DecidableEq

/-- What a publication says to the device at a topic root, if anything. -/
def InboundPublish.message (json : Json) (root : Bytes) (inbound : InboundPublish) :
    Option Message :=
  if inbound.topic = root ++ manifestSuffix then (parseManifest json inbound.payload).map .manifest
  else if inbound.topic = root ++ chunkSuffix then
    (chunkProperties inbound.properties).map fun (id, offset) => .chunk id offset inbound.payload
  else none

namespace InboundPublish

variable {root : Bytes} {inbound : InboundPublish}

theorem message_manifest (topic : inbound.topic = root ++ manifestSuffix) :
    inbound.message json root = (parseManifest json inbound.payload).map .manifest := if_pos topic

theorem message_chunk (topic : inbound.topic = root ++ chunkSuffix) :
    inbound.message json root = (chunkProperties inbound.properties).map
      fun (id, offset) => .chunk id offset inbound.payload := by
  have other : ¬ inbound.topic = root ++ manifestSuffix := by
    rw [topic, List.append_cancel_left_eq]
    decide
  rw [message, if_neg other, if_pos topic]

end InboundPublish

namespace Phase

/-- The piece at a position was accepted: it is written, being written, or the transfer is over. -/
def Beyond (offset : UInt32) : Phase → Prop
  | .idle | .preparing _ => False
  | .ready transfer => offset.toNat < transfer.nextOffset.toNat
  | .writing transfer _ => offset.toNat ≤ transfer.nextOffset.toNat
  | .complete _ | .failed _ => True

/-- A message is a thing of the past. -/
def Past (phase : Phase) : Message → Prop
  | .manifest _ => phase ≠ .idle
  | .chunk _ offset _ => phase.Beyond offset

theorem eq_idle (idle : phase.state = .idle) : phase = .idle := by
  cases phase <;> first | rfl | cases idle

/-- A transfer that has begun never becomes idle again. -/
theorem Follows.begun (follows : phase.Follows config call requests after) (begun : phase ≠ .idle) :
    after ≠ .idle := by
  -- Every call leads from a phase of a transfer to another one.
  cases follows with
  | handle inbound handled => cases handled <;> first | exact begun | simp
  | completeRequest success =>
    cases phase with
    | idle => exact absurd rfl begun
    | preparing => cases success <;> simp [completed]
    | writing =>
      simp only [completed]
      repeat' split
      all_goals simp
    | _ => simp [completed]
  | abort =>
    cases phase with
    | idle => exact absurd rfl begun
    | _ => simp [aborted]
  | beginStartup event => exact begun
  | step link => exact begun

/-- A transfer never goes back behind a piece that was accepted. -/
theorem Follows.beyond {offset : UInt32}
    (follows : phase.Follows config call requests after) (kept : log.Kept config phase)
    (beyond : phase.Beyond offset) : after.Beyond offset := by
  cases follows with
  | handle inbound handled =>
    cases handled with
    | unhandled => exact beyond
    | consumed => exact beyond
    | manifest => exact beyond.elim
    | chunk => exact Nat.le_of_lt beyond
    | rejected => trivial
  | abort => cases phase <;> first | exact beyond | trivial
  | beginStartup event => exact beyond
  | step link => exact beyond
  | completeRequest success =>
    cases phase with
    | writing transfer write =>
      obtain ⟨-, -, -, continues⟩ := kept
      simp only [completed]
      split
      · trivial
      · split
        · trivial
        · -- The write is not empty, so its end lies behind its start.
          have some := List.length_pos_iff.mpr continues.nonempty
          have limit := config.capacity.toNat_lt
          have within := continues.within
          have start := congrArg UInt32.toNat continues.offset
          simp only [Beyond] at beyond ⊢
          rw [UInt32.toNat_ofNat_of_lt' (show _ < 2 ^ 32 by omega)]
          omega
    | preparing => exact beyond.elim
    | _ => exact beyond

theorem Follows.past {message : Message}
    (follows : phase.Follows config call requests after) (kept : log.Kept config phase)
    (past : phase.Past message) : after.Past message := by
  cases message with
  | manifest => exact follows.begun past
  | chunk => exact follows.beyond kept past

end Phase

namespace Service

variable {service later : Service}

/-- Two services differ in the queued status only. -/
def Restated (service later : Service) : Prop :=
  ∃ pending startupPublish, later = { service with pending, startupPublish } ∧
    (pending = some .subscribe ↔ service.pending = some .subscribe)

namespace Restated

theorem refl (service : Service) : service.Restated service := ⟨_, _, rfl, Iff.rfl⟩

theorem trans {last : Service} (first : service.Restated later) (second : later.Restated last) :
    service.Restated last := by
  obtain ⟨_, _, rfl, subscribing⟩ := first
  obtain ⟨pending, startupPublish, rfl, still⟩ := second
  exact ⟨pending, startupPublish, rfl, still.trans subscribing⟩

theorem core (restated : service.Restated later) : later.core = service.core := by
  obtain ⟨_, _, rfl, -⟩ := restated
  rfl

end Restated

theorem restated_queue (code : StatusCode) (service : Service) :
    service.Restated (service.queue (.publish code)) := by
  unfold queue
  split
  · exact ⟨_, _, rfl, Iff.rfl⟩
  · rename_i free
    refine ⟨_, _, rfl, iff_of_false ?_ fun subscribing => free (.inl subscribing)⟩
    intro same
    cases same

/-- Without a request, handling a publication restates the service. -/
structure Quiet (service : Service) (result : Handle × Service) : Prop where
  /-- No request is made. -/
  requests : result.1.requests = []
  /-- Only the queued status may change. -/
  restated : service.Restated result.2

theorem Quiet.ignored (service : Service) : service.Quiet (.consumed, service) := ⟨rfl, .refl _⟩

theorem Quiet.answered (code : StatusCode) (service : Service) :
    service.Quiet (.consumed, service.queue (.publish code)) := ⟨rfl, restated_queue code service⟩

/-- A manifest makes a difference to an idle device only. -/
theorem quiet_handleManifest {payload : Bytes}
    (past : ∀ transfer, parseManifest json payload = some transfer → service.state ≠ .idle) :
    service.Quiet (service.handleManifest json payload) := by
  unfold handleManifest
  -- Where the manifest is refused the device answers or stays silent.
  split
  · split
    · exact .answered ..
    · exact .ignored _
  · rename_i transfer parsed
    rw [if_pos (past transfer parsed)]
    split
    · exact .answered ..
    · exact .ignored _

/-- A chunk that was accepted before makes no difference. -/
theorem quiet_handleChunk {offset : UInt32} (stands : service.Stands phase)
    (beyond : phase.Beyond offset) (id payload : Bytes) :
    service.Quiet (service.handleChunk id offset payload) := by
  unfold handleChunk
  split
  · exact .answered ..
  · rename_i transfer some
    split
    · exact .ignored _
    · split
      · exact .ignored _
      · exact .ignored _
      · exact .answered ..
      · exact .answered ..
      · exact .answered ..
      · -- Only a service that is ready looks at the chunk, and it is behind the chunk already.
        rename_i ready
        cases phase <;> obtain ⟨other, known, -⟩ := stands <;> rw [ready] at other <;> cases other
        rw [some] at known
        cases known
        have duplicate : offset < transfer.nextOffset := UInt32.lt_iff_toNat_lt.mpr beyond
        simp only [validateChunk, if_pos duplicate]
        exact .answered ..

/-- A message of the past makes no difference. -/
theorem quiet_handle {inbound : InboundPublish} (stands : service.Stands phase)
    (past : ∀ message, inbound.message json service.root = some message → phase.Past message) :
    service.Quiet (service.handle json inbound) := by
  unfold handle
  dsimp only
  simp only [ne_eq, suffix_eq_some]
  split
  · exact ⟨rfl, .refl _⟩
  rename_i staging
  split
  · exact .ignored _
  split
  · -- The topic tells what kind of message it is.
    rename_i topic
    refine quiet_handleManifest fun transfer parsed idle => ?_
    refine past (.manifest transfer) ?_ (Phase.eq_idle (stands.state.symm.trans idle))
    rw [InboundPublish.message_manifest topic, parsed]
    rfl
  · rename_i other
    have topic : inbound.topic = service.root ++ chunkSuffix := by
      by_contra none
      exact staging ⟨other, none⟩
    split
    · exact .ignored _
    · rename_i id offset properties
      refine quiet_handleChunk stands (past (.chunk id offset inbound.payload) ?_) ..
      rw [InboundPublish.message_chunk topic, properties]
      rfl

/-- A message that is accepted is a thing of the past. -/
theorem past_of_handle {inbound : InboundPublish} {request : StagingRequest}
    (accepted : (service.handle json inbound).1 = .request request)
    (handled : phase.Handled config (.request request) after) {message : Message}
    (said : inbound.message json service.root = some message) : after.Past message := by
  -- The device has moved on to what the message asked for.
  cases handled with
  | manifest acceptable =>
    obtain ⟨topic, transfer, parsed⟩ := handle_prepare accepted
    rw [InboundPublish.message_manifest topic, parsed] at said
    cases said
    nofun
  | chunk continues =>
    rename_i write
    have written : service.handle json inbound =
        (.request (.write write), (service.handle json inbound).2) := Prod.ext accepted rfl
    obtain ⟨transfer, -, topic, properties, -⟩ := handle_write written
    rw [InboundPublish.message_chunk topic, properties] at said
    cases said
    exact Nat.le_of_eq (congrArg UInt32.toNat continues.offset)

end Service

/-- A device and its record after a message that was accepted before. -/
structure Unmoved (device later : Service × Log) : Prop where
  /-- The record is the same: no request was made. -/
  log : later.2 = device.2
  /-- Only the queued status may have changed. -/
  service : device.1.Restated later.1

/-- Messages of the past leave a device as it is. -/
theorem InPhase.unmoved {device : Service × Log} (inPhase : InPhase config device phase)
    {inbounds : List InboundPublish}
    (past : ∀ inbound ∈ inbounds, ∀ message,
      inbound.message json device.1.root = some message → phase.Past message) :
    Unmoved device (Staging.run json (inbounds.map (Call.handle (τ := τ))) device) := by
  induction inbounds generalizing device with
  | nil => exact ⟨rfl, .refl _⟩
  | cons inbound inbounds ih =>
    obtain ⟨requests, restated⟩ := Service.quiet_handle inPhase.2.1 (past inbound (.head _))
    -- No request was made, so nothing is added to the log.
    have same : device.2.handled (device.1.handle json inbound).1 = device.2 := by
      cases made : (device.1.handle json inbound).1 with
      | request request => simp [made, Handle.requests] at requests
      | _ => rfl
    -- The configuration and the root are still the same.
    have fixed : (device.1.handle json inbound).2.fixed = device.1.fixed :=
      congrArg (fun core => core.2.2.2) restated.core
    have next : InPhase config ((device.1.handle json inbound).2, device.2) phase :=
      ⟨(congrArg Prod.fst fixed).trans inPhase.1, inPhase.2.1.congr restated.core, inPhase.2.2⟩
    have root : (device.1.handle json inbound).2.root = device.1.root := congrArg Prod.snd fixed
    obtain ⟨log, service⟩ := ih next fun other member message said =>
      past other (.tail _ member) message (root ▸ said)
    have step : Staging.perform json (Call.handle (τ := τ) inbound) device =
        ((device.1.handle json inbound).2, device.2) := Prod.ext rfl same
    rw [List.map_cons, Staging.run, List.foldl_cons, step]
    exact ⟨log, restated.trans service⟩

/-- A message that was accepted once leaves the device as it is, whenever and however often it
arrives again. -/
theorem duplicates_harmless {root : Bytes} {service : Service}
    (created : Service.new root config = .ok service) (earlier later : List (Call τ))
    (inbound : InboundPublish) {request : StagingRequest} (repeats : List InboundPublish)
    (short : ∀ call ∈ earlier ++ .handle inbound :: later, call.Short)
    (accepted : ((run json earlier (service, .empty)).1.handle json inbound).1 = .request request)
    (same : ∀ again ∈ repeats, again.message json root = inbound.message json root) :
    Unmoved (run json (earlier ++ .handle inbound :: later) (service, .empty))
      (run json (earlier ++ .handle inbound :: later ++ repeats.map .handle) (service, .empty)) := by
  have home (calls : List (Call τ)) : (run json calls (service, .empty)).1.root = root :=
    (congrArg Prod.snd (fixed_run json calls (service, .empty))).trans
      (congrArg Prod.snd (Service.new_spec created).1)
  obtain ⟨phase, before⟩ := (inPhase_new created).run
    (fun call member => short call (List.mem_append_left _ member)) json
  obtain ⟨after, handled, next⟩ := before.handle (τ := τ)
    (short (.handle inbound) (List.mem_append_right _ (.head _))) json
  rw [accepted] at handled
  -- The message is past as soon as it is accepted, and whatever follows leaves it so.
  obtain ⟨last, now, past⟩ := next.keeps
    (P := fun phase => ∀ message, inbound.message json root = some message → phase.Past message)
    (fun follows kept past message said => follows.past kept (past message said))
    (fun message said => Service.past_of_handle accepted handled ((home earlier).symm ▸ said))
    (fun call member => short call (List.mem_append_right _ (.tail _ member))) json
  have now : InPhase config (run json (earlier ++ .handle inbound :: later) (service, .empty))
      last := by
    rw [run_append]
    exact now
  rw [run_append json (earlier ++ _) (repeats.map _)]
  refine now.unmoved fun again member message said => past message ?_
  rw [home] at said
  exact (same again member).symm.trans said

/-- The first chunk of the upload. -/
def firstChunk : InboundPublish :=
  ⟨[0x61] ++ chunkSuffix, [1, 2, 3, 4],
    .slice [.correlationData [0x74], .userProperty offsetKey ⟨[0x30], rfl⟩], false⟩

/-- The first chunk of the upload arrives twice more after the object is complete. -/
theorem duplicates_harmless_upload :
    (run readManifest upload (smallService, .empty)).1.state = .complete ∧
    Unmoved (run readManifest upload (smallService, .empty))
      (run readManifest (upload ++ [.handle firstChunk, .handle firstChunk])
        (smallService, .empty)) := by
  have created : Service.new [0x61] smallLimits = .ok smallService := rfl
  have accepted : ((run readManifest (upload.take 3) (smallService, .empty)).1.handle readManifest
      firstChunk).1 = .request (.write ⟨0, [1, 2, 3, 4], 5, none⟩) := by
    decide +kernel
  refine ⟨by decide +kernel, duplicates_harmless created (upload.take 3) (upload.drop 4) firstChunk
    [firstChunk, firstChunk] ?_ accepted (by simp)⟩
  have manifest : (jsonManifest [0x74] 5 7).length < 2 ^ 32 := by decide +kernel
  simpa [upload, smallChunk, Call.Short, firstChunk] using manifest

end Minimq.Staging

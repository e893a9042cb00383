import Minimq.Proofs.Staging.Host
import Minimq.Proofs.Staging.Log

/-! However the messages travel, a device stages the object of its host. -/

namespace Minimq.Staging

open Tiling

variable {τ : Type} {json : Json} {host : Host} {id : Bytes} {config : Config}
  {transfer : Transfer} {log : Log} {phase after : Phase}

/-- A later stage of a transfer. -/
structure Transfer.Precedes (transfer later : Transfer) : Prop where
  /-- The name is the same. -/
  id : later.id = transfer.id
  /-- The size is the same. -/
  size : later.size = transfer.size
  /-- The transfer has not gone back. -/
  progress : transfer.nextOffset.toNat ≤ later.nextOffset.toNat

theorem Transfer.Precedes.refl (transfer : Transfer) : transfer.Precedes transfer :=
  ⟨rfl, rfl, Nat.le_refl _⟩

/-- A transfer never changes its name or its size, and never goes back. -/
theorem Phase.Follows.precedes {call : Call τ} {requests : List StagingRequest}
    (follows : phase.Follows config call requests after) (kept : log.Kept config phase)
    (some : phase.transfer = some transfer) :
    ∃ later, after.transfer = .some later ∧ transfer.Precedes later := by
  have same (same : after.transfer = phase.transfer) :
      ∃ later, after.transfer = .some later ∧ transfer.Precedes later :=
    ⟨transfer, same.trans some, .refl transfer⟩
  -- The position changes only with the result of a write.
  cases follows with
  | handle inbound handled =>
    cases handled with
    | manifest => cases some
    | _ => exact same rfl
  | abort => exact same (by cases phase <;> rfl)
  | beginStartup event => exact same rfl
  | step link => exact same rfl
  | completeRequest success =>
    cases phase with
    | preparing transfer => exact same (by cases success <;> rfl)
    | writing own write =>
      obtain ⟨-, unfinished, -, continues⟩ := kept
      cases some
      cases success with
      | false => exact same rfl
      | true =>
        simp only [Phase.completed, if_neg (by decide : ¬ true = false)]
        split
        · exact ⟨_, rfl, rfl, rfl, Nat.le_of_lt unfinished.behind⟩
        · refine ⟨_, rfl, rfl, rfl, ?_⟩
          -- The position behind a chunk within the capacity does not wrap.
          have limit := config.capacity.toNat_lt
          have within := continues.within
          rw [← continues.offset]
          dsimp only
          rw [UInt32.toNat_ofNat_of_lt' (show _ < 2 ^ 32 by omega)]
          omega
    | _ => exact same rfl

theorem Phase.Follows.no_write {call : Call τ} {requests : List StagingRequest}
    {write : StagingWrite} (follows : phase.Follows config call requests after)
    (kept : log.Kept config phase) (none : phase.transfer = none) :
    ¬ .write write ∈ log.emitted ++ requests := by
  cases phase <;> cases none
  obtain rfl : log = .empty := kept
  cases follows with
  | handle inbound handled => cases handled <;> simp [Log.empty, Handle.requests]
  | _ => simp [Log.empty]

/-- A status of this device that is not ahead of it. -/
structure Service.Announced (service : Service) (message : StatusMessage) : Prop where
  /-- It tells the largest chunk. -/
  mtu : message.status.mtu = service.maxChunkSize
  /-- It tells the alignment. -/
  writeSize : message.status.writeSize = service.writeSize
  /-- It tells an earlier stage of the transfer. -/
  transfer : message.status.id ≠ [] → ∃ transfer, service.transfer = some transfer ∧
    message.status.id = transfer.id ∧ message.status.size = transfer.size ∧
    message.status.nextOffset.toNat ≤ transfer.nextOffset.toNat

theorem Service.announced_statusMessage (service : Service) (code : StatusCode) :
    service.Announced (service.statusMessage code) := by
  refine ⟨rfl, rfl, fun named => ?_⟩
  simp only [statusMessage, statusWith] at named ⊢
  cases some : service.transfer with
  | none => simp [some] at named
  | some transfer => exact ⟨transfer, rfl, rfl, rfl, Nat.le_refl _⟩

theorem announced_eq_some {call : Call τ} {service : Service} {message : StatusMessage}
    (published : announced call service = some message) : service.Announced message := by
  cases call with
  | step link =>
    obtain ⟨code, rfl⟩ := Service.step_message published
    exact service.announced_statusMessage code
  | _ => cases published

namespace Network

/-- What holds at any time between the host and the device. -/
structure Consistent (host : Host) (id : Bytes) (config : Config) (network : Network) : Prop where
  /-- The device is in some phase. -/
  device : ∃ phase, InPhase config (network.service, network.log) phase
  /-- The device and the host use the same topics. -/
  root : network.service.root = host.root
  /-- The device is not behind any of its statuses. -/
  statuses : ∀ message ∈ network.statuses, network.service.Announced message
  /-- All chunks answer a status. -/
  publications : ∀ publication ∈ network.publications, publication = host.announcement ∨
    ∃ message ∈ network.statuses, host.Serves message publication
  /-- What was written for the transfer are bytes of the object. -/
  writes : ∀ transfer, network.service.transfer = some transfer → transfer.id = id →
    ∀ write, .write write ∈ network.log.emitted →
      transfer.size.toNat = host.size ∧ Agrees host.data write.piece

variable {network : Network}

theorem consistent_start {service : Service} (created : Service.new host.root config = .ok service) :
    (start host service).Consistent host id config where
  device := ⟨.idle, inPhase_new created⟩
  root := congrArg Prod.snd (Service.new_spec created).1
  statuses := by simp [start]
  publications := by simp [start]
  writes := by simp [start, Log.empty]

/-- A call keeps the network consistent if its writes are right. -/
theorem Consistent.call (consistent : network.Consistent host id config) {call : Call τ}
    (short : call.Short) (json : Json)
    (right : ∀ transfer write, network.service.transfer = some transfer → transfer.id = id →
      .write write ∈ requested json call network.service →
        transfer.size.toNat = host.size ∧ Agrees host.data write.piece) :
    (network.call json call).Consistent host id config := by
  obtain ⟨phase, inPhase⟩ := consistent.device
  obtain ⟨after, follows, next⟩ := inPhase.perform short json
  have fixed := fixed_perform json call (network.service, network.log)
  obtain ⟨-, stands, kept⟩ := inPhase
  have forward {transfer : Transfer} (some : network.service.transfer = some transfer) :
      ∃ later, (network.call json call).service.transfer = .some later ∧
        transfer.Precedes later := by
    obtain ⟨later, found, precedes⟩ := follows.precedes kept (stands.transfer.symm.trans some)
    exact ⟨later, next.2.1.transfer.trans found, precedes⟩
  have announced {message : StatusMessage} (old : network.service.Announced message) :
      (network.call json call).service.Announced message := by
    have limits := congrArg Prod.fst fixed
    refine ⟨old.mtu.trans (congrArg Config.maxChunkSize limits).symm,
      old.writeSize.trans (congrArg Config.writeSize limits).symm, fun named => ?_⟩
    obtain ⟨transfer, some, name, size, position⟩ := old.transfer named
    obtain ⟨later, found, precedes⟩ := forward some
    exact ⟨later, found, name.trans precedes.id.symm, size.trans precedes.size.symm,
      Nat.le_trans position precedes.progress⟩
  refine ⟨⟨after, next⟩, (congrArg Prod.snd fixed).trans consistent.root, ?_, ?_, ?_⟩
  · intro message member
    rcases List.mem_append.mp member with old | new
    · exact announced (consistent.statuses message old)
    · exact announced (announced_eq_some (Option.mem_toList.mp new))
  · intro publication member
    rcases consistent.publications publication member with manifest | ⟨message, old, serves⟩
    · exact .inl manifest
    · exact .inr ⟨message, List.mem_append_left _ old, serves⟩
  · intro later found name write member
    have emitted := emitted_perform json call (network.service, network.log)
    have member : .write write ∈ network.log.emitted ++ requested json call network.service := by
      rw [← emitted]
      exact member
    -- Only a transfer makes writes, and it was the same before the call.
    cases some : network.service.transfer with
    | none => exact absurd member (follows.no_write kept (stands.transfer.symm.trans some))
    | some transfer =>
      obtain ⟨other, same, precedes⟩ := forward some
      rw [found] at same
      cases same
      rw [precedes.size]
      have own := precedes.id.symm.trans name
      rcases List.mem_append.mp member with old | new
      · exact consistent.writes transfer some own write old
      · exact right transfer write some own new

/-- A write that a handled publication leads to. -/
theorem write_of_requested {service : Service} {inbound : InboundPublish} {write : StagingWrite}
    {transfer : Transfer} (some : service.transfer = some transfer)
    (made : .write write ∈ requested json (.handle inbound : Call τ) service) :
    inbound.topic = service.chunkTopic ∧
      chunkProperties inbound.properties = .some (transfer.id, write.offset) ∧
      write.payload = inbound.payload := by
  simp only [requested] at made
  cases handled : service.handle json inbound with
  | mk handle after =>
    rw [handled] at made
    -- Only a request holds a write.
    cases handle with
    | unhandled => simp [Handle.requests] at made
    | consumed => simp [Handle.requests] at made
    | request request =>
      obtain rfl := List.mem_singleton.mp made
      obtain ⟨own, found, topic, properties, payload⟩ := Service.handle_write handled
      rw [some] at found
      cases found
      exact ⟨topic, properties, payload⟩

/-- Whatever happens keeps the network consistent. -/
theorem Consistent.step (consistent : network.Consistent host id config) {later : Network}
    (step : Step τ json host id network later) :
    later.Consistent host id config := by
  cases step with
  | @deliver publication inbound sent delivers short =>
    have short : (Call.handle inbound : Call τ).Short := short
    refine consistent.call short json fun transfer write some name made => ?_
    obtain ⟨topic, properties, payload⟩ := write_of_requested some made
    rcases consistent.publications publication sent with rfl | ⟨message, published, serves⟩
    · -- A manifest is not a chunk.
      rw [delivers.topic, Service.chunkTopic, consistent.root] at topic
      exact absurd (List.append_cancel_left topic) (by decide)
    · obtain ⟨own, found, named, sameSize, -⟩ := (consistent.statuses message published).transfer
        (serves.id ▸ serves.named)
      rw [some] at found
      cases found
      have delivered := delivers.properties
      rw [serves.chunk] at delivered
      have position := chunkProperties_delivered message.status.nextOffset.toNat_lt delivered
      rw [properties, UInt32.ofNat_toNat] at position
      have offset := (Prod.mk.inj (Option.some.inj position)).2
      refine ⟨by rw [← sameSize, serves.size], ?_⟩
      rw [StagingWrite.piece, offset, payload, delivers.payload, serves.chunk]
      exact Host.chunkAt_agrees _ serves.nonempty
  | @foreign inbound other short =>
    have short : (Call.handle inbound : Call τ).Short := short
    refine consistent.call short json fun transfer write some name made => ?_
    obtain ⟨topic, properties, -⟩ := write_of_requested some made
    -- The chunk carries the name of the transfer, which only the host may use.
    refine absurd ⟨?_, ?_⟩ other
    · rw [topic, Service.chunkTopic, consistent.root]
    · simp only [chunkProperties, Option.bind_eq_bind, Option.bind_eq_some_iff] at properties
      obtain ⟨found, correlation, offset, position, same⟩ := properties
      cases same
      rw [correlation, name]
  | @device call own =>
    have short : call.Short := by
      cases call with
      | handle inbound => cases own
      | _ => trivial
    refine consistent.call short json fun transfer write some name made => ?_
    cases call with
    | handle inbound => cases own
    | _ => cases made
  | @status message waiting sent =>
    unfold receive
    split
    · exact consistent
    · exact ⟨consistent.device, consistent.root, consistent.statuses, consistent.publications,
        consistent.writes⟩
    · exact ⟨consistent.device, consistent.root, consistent.statuses, consistent.publications,
        consistent.writes⟩
    · rename_i publication reply
      refine ⟨consistent.device, consistent.root, consistent.statuses, ?_, consistent.writes⟩
      intro other member
      rcases List.mem_append.mp member with old | new
      · exact consistent.publications other old
      · rw [List.mem_singleton.mp new]
        exact .inr ⟨message, sent, Host.serves_of_reply reply⟩
  | timeout =>
    exact ⟨consistent.device, consistent.root, consistent.statuses, consistent.publications,
      consistent.writes⟩

theorem Consistent.reaches (consistent : network.Consistent host id config) {later : Network}
    (reaches : Reaches τ json host id network later) : later.Consistent host id config := by
  induction reaches with
  | refl => exact consistent
  | tail _ step ih => exact ih.step step

/-- A schedule is one of the things that can happen. -/
theorem reaches_play (events : List (Event τ)) (network : Network) :
    Reaches τ json host id network (network.play json host events) := by
  induction events generalizing network with
  | nil => exact .refl
  | cons event events ih =>
    refine .trans ?_ (ih (network.follow json host event))
    -- A schedule may name what does not exist, and then nothing happens.
    cases event with
    | call call =>
      simp only [follow]
      split
      · exact .refl
      · rename_i own
        exact .single (.device (Bool.eq_false_iff.mpr own))
    | deliver index =>
      simp only [follow]
      split
      · rename_i publication found
        split
        · rename_i short
          exact .single (.deliver (List.mem_of_getElem? found) ⟨rfl, rfl, rfl⟩ short)
        · exact .refl
      · exact .refl
    | status index =>
      simp only [follow]
      split
      · rename_i message found
        split
        · rename_i waiting
          exact .single (.status waiting (List.mem_of_getElem? found))
        · exact .refl
      · exact .refl

end Network

/-- A device that completes a transfer, all of whose chunks come from one host, holds its object. -/
theorem network_stages (config : Config) {dumps : Bytes → Nat → UInt64 → Bytes}
    {root data : Bytes} {chunkSize : Int} {service : Service} {network : Network}
    (created : Service.new root config = .ok service)
    (reaches : Network.Reaches τ json (.serve dumps root data chunkSize) id
      (.start (.serve dumps root data chunkSize) service) network)
    (complete : network.service.state = .complete) :
    ∃ transfer, network.service.transfer = some transfer ∧
      (transfer.id = id → network.log.content.take transfer.size.toNat = data) := by
  have consistent := (Network.consistent_start created).reaches reaches
  obtain ⟨phase, inPhase⟩ := consistent.device
  have state := inPhase.state
  rw [complete] at state
  obtain ⟨-, stands, kept⟩ := inPhase
  cases phase <;> cases state
  rename_i transfer
  obtain ⟨traced, -, -, ⟨front, last, written, -⟩, covered, -⟩ := kept
  refine ⟨transfer, stands.2.1, fun name => ?_⟩
  -- Every write comes from the host, so it agrees with the object.
  have right (write : StagingWrite) (member : write ∈ network.log.written) :
      transfer.size.toNat = data.length ∧ Agrees data write.piece := by
    refine consistent.writes transfer stands.2.1 name write ?_
    rw [traced.emitted, List.append_nil]
    exact List.mem_cons_of_mem _ (List.mem_map_of_mem member)
  have size := (right last (by rw [written]; simp)).1
  have whole := traced.tiles.take_content data fun piece member => by
    obtain ⟨write, found, rfl⟩ := List.mem_map.mp member
    exact (right write found).2
  rw [Log.content_eq] at whole
  rw [size, whole, List.take_of_length_le (size ▸ covered)]

/-- The host of an object of five bytes, with chunks of four. -/
def smallHost : Host := .serve jsonManifest [0x61] [1, 2, 3, 4, 5] 4

/-- A transfer in two chunks, the first of which arrives twice. -/
def smallSchedule : List (Network.Event Unit) :=
  [.call (.step openLink), .deliver 0, .call (.completeRequest true), .call (.step openLink),
    .status 0, .deliver 1, .deliver 1, .call (.completeRequest true), .deliver 1,
    .call (.step openLink), .status 1, .deliver 2, .call (.completeRequest true)]

/-- The small device completes the transfer of the small host. -/
theorem network_stages_small :
    (Network.play readManifest smallHost smallSchedule
      (.start smallHost smallService)).service.state = .complete ∧
    ∃ transfer, (Network.play readManifest smallHost smallSchedule
        (.start smallHost smallService)).service.transfer = some transfer ∧
      (transfer.id = smallHost.id →
        (Network.play readManifest smallHost smallSchedule
          (.start smallHost smallService)).log.content.take transfer.size.toNat =
            [1, 2, 3, 4, 5]) := by
  have complete : (Network.play readManifest smallHost smallSchedule
      (.start smallHost smallService)).service.state = .complete := by decide +kernel
  exact ⟨complete, network_stages smallLimits rfl (Network.reaches_play _ _) complete⟩

end Minimq.Staging

import Minimq.Proofs.Staging.Network

/-! The chunks of a host are never the reason why a transfer fails. -/

namespace Minimq.Staging

open Tiling

variable {transfer : Transfer}

/-- The size of an object whose end is padded to the write alignment. -/
def paddedSize (size writeSize : Nat) : Nat := size + ((-(size : Int)) % writeSize).toNat

theorem paddedSize_lt {writeSize : Nat} (size : Nat) (positive : 0 < writeSize) :
    paddedSize size writeSize < size + writeSize := by
  have bound := Int.emod_lt_of_pos (-(size : Int)) (Int.natCast_pos.mpr positive)
  unfold paddedSize
  omega

theorem dvd_paddedSize {writeSize : Nat} (size : Nat) (positive : 0 < writeSize) :
    writeSize ∣ paddedSize size writeSize := by
  have nonneg := Int.emod_nonneg (-(size : Int)) (Int.natCast_ne_zero.mpr (Nat.ne_of_gt positive))
  rw [← Int.natCast_dvd_natCast, paddedSize, Int.natCast_add, Int.toNat_of_nonneg nonneg,
    Int.dvd_iff_emod_eq_zero, Int.add_emod, Int.emod_emod, ← Int.add_emod, Int.add_right_neg,
    Int.zero_emod]

/-- Whole writes in front of an object do not change its padding. -/
theorem paddedSize_add {writeSize front : Nat} (size : Nat) (whole : writeSize ∣ front) :
    paddedSize (front + size) writeSize = front + paddedSize size writeSize := by
  have same : (-((front + size : Nat) : Int)) % writeSize = (-(size : Int)) % writeSize := by
    apply Int.emod_eq_emod_iff_emod_sub_eq_zero.mpr
    rw [← Int.dvd_iff_emod_eq_zero]
    have : (-((front + size : Nat) : Int)) - -(size : Int) = -(front : Int) := by omega
    rw [this, Int.dvd_neg]
    exact Int.natCast_dvd_natCast.mpr whole
  rw [paddedSize, same, paddedSize, Nat.add_assoc]

/-- A padded object is not larger than any whole number of writes that holds it. -/
theorem paddedSize_le {writeSize size limit : Nat} (positive : 0 < writeSize) (fits : size ≤ limit)
    (whole : writeSize ∣ limit) : paddedSize size writeSize ≤ limit := by
  have small := paddedSize_lt size positive
  obtain ⟨count, count_eq⟩ := dvd_paddedSize size positive
  obtain ⟨room, rfl⟩ := whole
  rw [count_eq] at small ⊢
  have : writeSize * count < writeSize * (room + 1) := by
    rw [Nat.mul_add, Nat.mul_one]
    omega
  exact Nat.mul_le_mul_left _ (Nat.lt_succ_iff.mp (Nat.lt_of_mul_lt_mul_left this))

/-- A chunk size that is not negative is a whole number of writes within the limit. -/
theorem alignedChunkSize_eq {requested : Int} (mtu writeSize : Nat)
    (sensible : 0 ≤ requested) :
    ∃ size : Nat, alignedChunkSize requested mtu writeSize = size ∧ size ≤ mtu ∧
      writeSize ∣ size := by
  obtain ⟨least, limit⟩ : ∃ least : Nat, min requested mtu = least :=
    Int.eq_ofNat_of_zero_le (le_min sensible (Int.natCast_nonneg mtu))
  have bound : least ≤ mtu := by omega
  refine ⟨least - least % writeSize, ?_, by omega, Nat.dvd_sub_mod least⟩
  have less := Nat.mod_le least writeSize
  simp only [alignedChunkSize, limit]
  omega

theorem slice_add (data : Bytes) (start size : Nat) :
    slice data start ((start : Int) + (size : Int)) = (data.drop start).take size := by
  have positive : ¬ ((start : Int) + (size : Int)) < 0 := by omega
  have sum : ((start : Int) + (size : Int)).toNat = start + size := by omega
  simp only [slice, if_neg positive, sum, List.drop_take, Nat.add_sub_cancel_left]

/-- The shape of a chunk: it ends within the object, or it is the padded rest of it. -/
structure ChunkShape (data : Bytes) (writeSize size offset : Nat) (payload : Bytes) : Prop where
  /-- It is not empty. -/
  nonempty : payload ≠ []
  /-- It is not larger than requested. -/
  short : payload.length ≤ size
  /-- It is a whole number of writes. -/
  aligned : writeSize ∣ payload.length
  /-- It starts within the object. -/
  inside : offset < data.length
  /-- It ends before the end of the object, or at the end of its last write. -/
  ends : offset + payload.length < data.length ∨
    payload.length = paddedSize (data.length - offset) writeSize
  /-- Behind the object it is erased storage. -/
  padding : ∀ byte ∈ payload.drop (data.length - offset), byte = 0xFF

/-- The host builds chunks of that shape. -/
theorem Host.chunkAt_shape (host : Host) {writeSize size offset : Nat} (positive : 0 < writeSize)
    (whole : writeSize ∣ size)
    (nonempty : slice host.data offset ((offset : Int) + (size : Int)) ≠ []) :
    ChunkShape host.data writeSize size offset (host.chunkAt offset writeSize size) := by
  rw [slice_add] at nonempty
  have inside : offset < host.data.length := by
    by_contra beyond
    exact nonempty (by rw [List.drop_of_length_le (by omega), List.take_nil])
  have length : ((host.data.drop offset).take size).length = min size (host.data.length - offset) := by
    rw [List.length_take, List.length_drop]
  simp only [chunkAt, slice_add]
  split
  · rename_i reaches
    -- The rest of the object fits the chunk, and so does its padding.
    have rest : ((host.data.drop offset).take size).length = host.data.length - offset := by omega
    have padded : ((host.data.drop offset).take size ++ List.replicate
        ((-(((host.data.drop offset).take size).length : Int)) % writeSize).toNat 0xFF).length =
          paddedSize (host.data.length - offset) writeSize := by
      rw [List.length_append, List.length_replicate, rest, paddedSize]
    refine ⟨by simp [nonempty], ?_, ?_, inside, .inr padded, ?_⟩
    · rw [padded]
      exact paddedSize_le positive (by omega) whole
    · rw [padded]
      exact dvd_paddedSize _ positive
    · intro byte member
      rw [List.drop_append, List.drop_of_length_le (Nat.le_of_eq rest), List.nil_append] at member
      exact List.eq_of_mem_replicate (List.mem_of_mem_drop member)
  · rename_i within
    have full : ((host.data.drop offset).take size).length = size := by omega
    refine ⟨nonempty, Nat.le_of_eq full, by rw [full]; exact whole, inside, .inl (by omega), ?_⟩
    rw [List.drop_of_length_le (by omega)]
    simp

/-- What the service makes of such a chunk at the position it expects. -/
theorem validateChunk_of_shape (config : Config) {data payload : Bytes}
    {size : Nat} {offset : UInt32}
    (shape : ChunkShape data config.writeSize size offset.toNat payload)
    (limit : size ≤ config.maxChunkSize) (object : transfer.size.toNat = data.length)
    (capacity : paddedSize data.length config.writeSize ≤ config.capacity.toNat)
    (position : offset.toNat ≤ transfer.nextOffset.toNat)
    (whole : config.writeSize ∣ transfer.nextOffset.toNat) (short : payload.length < 2 ^ 32) :
    validateChunk transfer offset payload config.capacity config.maxChunkSize config.writeSize =
      .error (.queue .duplicate) ∨
    ∃ next, validateChunk transfer offset payload config.capacity config.maxChunkSize
      config.writeSize = .ok next := by
  unfold validateChunk
  by_cases early : offset < transfer.nextOffset
  · exact .inl (if_pos early)
  · right
    have there : offset = transfer.nextOffset := by
      rw [UInt32.lt_iff_toNat_lt] at early
      exact UInt32.toNat_inj.mp (by omega)
    have range := config.capacity.toNat_lt
    have padded : data.length ≤ paddedSize data.length config.writeSize := Nat.le_add_right _ _
    have inside := shape.inside
    have stop : offset.toNat + payload.length ≤ config.capacity.toNat := by
      rcases shape.ends with within | rest
      · omega
      · -- The whole writes in front of the rest do not change its padding.
        have := paddedSize_add (data.length - offset.toNat) (there ▸ whole)
        rw [Nat.add_sub_cancel' (Nat.le_of_lt inside)] at this
        omega
    rw [if_neg early, if_neg (not_not.mpr there),
      if_neg (not_or.mpr ⟨shape.nonempty, Nat.not_lt.mpr (Nat.le_trans shape.short limit)⟩),
      if_neg (not_not.mpr shape.aligned)]
    simp only [Nat.mod_eq_of_lt short, if_neg (by omega : ¬ 2 ^ 32 ≤ offset.toNat + payload.length),
      if_neg (Nat.not_lt.mpr stop)]
    split
    · exact ⟨_, rfl⟩
    · rename_i beyond
      have rest : (transfer.size - offset).toNat = data.length - offset.toNat := by
        rw [UInt32.toNat_sub_of_le _ _ (UInt32.le_iff_toNat_le.mpr (by omega)), object]
      have some : data.length - offset.toNat < payload.length := by omega
      have erased : (payload.drop (data.length - offset.toNat)).all (· == 0xFF) = true :=
        List.all_eq_true.mpr fun byte member => beq_iff_eq.mpr (shape.padding byte member)
      simp only [payloadPadding, rest, if_pos some, erased, if_true]
      exact ⟨_, rfl⟩

/-- What becomes of a chunk that is not at fault. -/
inductive Taken (service : Service) : Handle × Service → Prop
  /-- It is written. -/
  | accepted (write : StagingWrite) {after : Service} (writing : after.state = .writing) :
      Taken service (.request (.write write), after)
  /-- Nothing happens. -/
  | ignored : Taken service (.consumed, service)
  /-- It is reported as a duplicate. -/
  | duplicate : Taken service (.consumed, service.queue (.publish .duplicate))
  /-- The transfer is over, and how it ended is reported again. -/
  | repeated (ended : service.state = .complete ∨ service.state = .error) :
      Taken service (.consumed, service.queue (.publish service.currentCode))

/-- A chunk that is not at fault does not fail the transfer. -/
theorem Taken.state {service : Service} {result : Handle × Service} (taken : Taken service result)
    (failed : result.2.state = .error) : service.state = .error := by
  have queued (action : Action) : (service.queue action).state = service.state :=
    congrArg Prod.fst (Service.core_queue action service)
  -- Answers are queued without touching the state, and a write goes on.
  cases taken with
  | accepted write writing =>
    rw [writing] at failed
    cases failed
  | ignored => exact failed
  | duplicate => exact (queued _).symm.trans failed
  | repeated => exact (queued _).symm.trans failed

/-- The bytes written so far are a whole number of writes. -/
theorem Log.Traced.dvd_content {config : Config} {last : List StagingWrite}
    {log : Log} (traced : log.Traced config transfer last) :
    config.writeSize ∣ log.content.length := by
  have aligned : ∀ write ∈ log.written, config.writeSize ∣ write.payload.length :=
    fun write member => (traced.sound write (List.mem_append_left _ member)).aligned
  unfold Log.content
  generalize log.written = written at aligned
  -- Every write was aligned when it was accepted.
  induction written with
  | nil => simp
  | cons first rest ih =>
    rw [List.flatMap_cons, List.length_append]
    exact Nat.dvd_add (aligned first (.head _)) (ih fun write member => aligned write (.tail _ member))

namespace Network

variable {τ : Type} {json : Json} {host : Host} {id : Bytes} {config : Config} {network : Network}

/-- A chunk of the host is not at fault, whenever it arrives. -/
theorem Consistent.taken (consistent : network.Consistent host id config) (json : Json)
    (size : host.size = host.data.length) (sensible : 0 ≤ host.chunkSize)
    (capacity : paddedSize host.data.length config.writeSize ≤ config.capacity.toNat)
    {message : StatusMessage} {publication : Publication} {inbound : InboundPublish}
    (published : message ∈ network.statuses) (serves : host.Serves message publication)
    (delivers : inbound.Delivers publication) (short : inbound.payload.length < 2 ^ 32) :
    Taken network.service (network.service.handle json inbound) := by
  have announced := consistent.statuses message published
  obtain ⟨phase, limits, stands, kept⟩ := consistent.device
  dsimp only at limits stands kept
  obtain ⟨transfer, some, named, sameSize, position⟩ := announced.transfer (serves.id ▸ serves.named)
  have delivered := delivers.properties
  rw [serves.chunk] at delivered
  have properties := chunkProperties_delivered message.status.nextOffset.toNat_lt delivered
  rw [UInt32.ofNat_toNat] at properties
  have topic : inbound.topic = network.service.chunkTopic := by
    rw [delivers.topic, serves.chunk, Service.chunkTopic, consistent.root]
  have own : host.id = transfer.id := serves.id.symm.trans named
  rw [Service.handle_chunk topic properties]
  split
  · exact .ignored
  · simp only [Service.handleChunk, some, if_neg (not_not.mpr own)]
    split
    · exact .ignored
    · exact .ignored
    · rename_i ended
      exact .repeated (.inl ended)
    · rename_i ended
      exact .repeated (.inr ended)
    · -- A service with a transfer is not idle.
      rename_i idle
      cases phase <;> obtain ⟨state, found, -⟩ := stands <;> rw [idle] at state <;> cases state
      rw [some] at found
      cases found
    · rename_i ready
      cases phase <;> obtain ⟨state, found, -⟩ := stands <;> rw [ready] at state <;> cases state
      rw [some] at found
      cases found
      obtain ⟨traced, unfinished, -⟩ := kept
      subst limits
      obtain ⟨chunk, aligned, limit, whole⟩ := alignedChunkSize_eq network.service.maxChunkSize
        network.service.writeSize sensible
      have payload : inbound.payload =
          host.chunkAt message.status.nextOffset.toNat network.service.writeSize chunk := by
        rw [delivers.payload, serves.chunk, announced.mtu, announced.writeSize, aligned]
      have nonempty := serves.nonempty
      rw [announced.mtu, announced.writeSize, aligned] at nonempty
      have shape := host.chunkAt_shape network.service.writeSizePos whole nonempty
      rw [← payload] at shape
      have object : transfer.size.toNat = host.data.length := by
        rw [← sameSize, serves.size, size]
      have whole' := unfinished.stands ▸ traced.dvd_content
      rcases validateChunk_of_shape network.service.config shape limit object capacity position
        whole' short with duplicate | ⟨next, valid⟩
      · simp only [Service.config] at duplicate
        simp only [duplicate]
        exact .duplicate
      · simp only [Service.config] at valid
        simp only [valid]
        exact .accepted _ rfl

/-- A transfer of the host fails only by a storage failure or an abort. -/
theorem Consistent.failure (consistent : network.Consistent host host.id config)
    (size : host.size = host.data.length) (sensible : 0 ≤ host.chunkSize)
    (capacity : paddedSize host.data.length config.writeSize ≤ config.capacity.toNat)
    (some : network.service.transfer = some transfer)
    (own : transfer.id = host.id) {later : Network} (step : Step τ json host host.id network later)
    (running : network.service.state ≠ .error) (failed : later.service.state = .error) :
    ∃ call : Call τ, later = network.call json call ∧
      (call = .completeRequest false ∨ call = .abort) := by
  cases step with
  | @deliver publication inbound sent delivers short =>
    exfalso
    obtain ⟨-, -, topic, -⟩ := Service.chunk_of_handle_error running failed
    -- A manifest is no chunk, and a chunk of the host is taken without fault.
    rcases consistent.publications publication sent with rfl | ⟨message, published, serves⟩
    · rw [delivers.topic, Service.chunkTopic, consistent.root] at topic
      exact absurd (List.append_cancel_left topic) (by decide)
    · have taken := consistent.taken json size sensible capacity published serves delivers short
      exact running (taken.state failed)
  | @foreign inbound other short =>
    obtain ⟨found, transfer, topic, correlation⟩ := Service.chunk_of_handle_error running failed
    rw [some] at transfer
    cases transfer
    refine absurd ⟨?_, own ▸ correlation⟩ other
    rw [topic, Service.chunkTopic, consistent.root]
  | @device call foreign =>
    refine ⟨call, rfl, ?_⟩
    obtain ⟨phase, inPhase⟩ := consistent.device
    have short : call.Short := by
      cases call with
      | handle inbound => cases foreign
      | _ => trivial
    -- What the device does by itself follows the phases of a transfer.
    obtain ⟨after, follows, next⟩ := inPhase.perform short json
    have before := inPhase.state
    have afterwards := next.state
    have failed : after.state = .error := afterwards.symm.trans failed
    have running : phase.state ≠ .error := fun same => running (before.trans same)
    generalize requested json call _ = requests at follows
    cases follows with
    | handle => cases foreign
    | abort => exact .inr rfl
    | beginStartup => exact absurd failed running
    | step => exact absurd failed running
    | completeRequest success =>
      cases success with
      | false => exact .inl rfl
      | true =>
        cases phase with
        | preparing => cases failed
        | writing transfer write =>
          simp only [Phase.completed, if_neg (by decide : ¬ true = false)] at failed
          split at failed <;> cases failed
        | _ => exact absurd failed running
  | @status message waiting sent =>
    have same : (network.receive host message).service = network.service := by
      unfold receive
      split <;> rfl
    rw [same] at failed
    exact absurd failed running
  | timeout => exact absurd failed running

end Network

/-- A host with a sensible chunk size never fails a transfer whose padded object fits. -/
theorem conforming_host {τ : Type} {json : Json} (config : Config)
    {dumps : Bytes → Nat → UInt64 → Bytes} {root data : Bytes} {chunkSize : Int}
    {service : Service} {network : Network} (sensible : 0 ≤ chunkSize)
    (capacity : paddedSize data.length config.writeSize ≤ config.capacity.toNat)
    (created : Service.new root config = .ok service)
    (reaches : Network.Reaches τ json (.serve dumps root data chunkSize)
      (Host.serve dumps root data chunkSize).id
      (.start (.serve dumps root data chunkSize) service) network) :
    (∀ message ∈ network.statuses, ∀ publication,
      (Host.serve dumps root data chunkSize).reply message = .chunk publication →
      ∀ inbound : InboundPublish, inbound.Delivers publication →
        inbound.payload.length < 2 ^ 32 →
        Taken network.service (network.service.handle json inbound)) ∧
    ∀ transfer later, network.service.transfer = some transfer →
      transfer.id = (Host.serve dumps root data chunkSize).id →
      Network.Step τ json (.serve dumps root data chunkSize)
        (Host.serve dumps root data chunkSize).id network later →
      network.service.state ≠ .error → later.service.state = .error →
      ∃ call : Call τ, later = network.call json call ∧
        (call = .completeRequest false ∨ call = .abort) := by
  have consistent := (Network.consistent_start created).reaches reaches
  constructor
  · intro message published publication reply inbound delivers short
    exact consistent.taken json rfl sensible capacity published (Host.serves_of_reply reply)
      delivers short
  · intro transfer later some own step running failed
    exact consistent.failure rfl sensible capacity some own step running failed

/-- What the small device and the small host have done after their schedule. -/
def smallNetwork : Network :=
  Network.play readManifest smallHost smallSchedule (.start smallHost smallService)

/-- The small device takes every chunk of the small host. -/
theorem conforming_host_small : smallNetwork.statuses.length = 2 ∧
    ∀ message ∈ smallNetwork.statuses, ∀ publication,
      smallHost.reply message = .chunk publication → publication.payload.length < 2 ^ 32 →
      Taken smallNetwork.service
        (smallNetwork.service.handle readManifest (Network.arrival publication)) := by
  have reaches : Network.Reaches Unit readManifest smallHost smallHost.id
      (.start smallHost smallService) smallNetwork := Network.reaches_play _ _
  have conforming := conforming_host smallLimits (by decide) (by decide) rfl reaches
  refine ⟨by decide +kernel, fun message published publication reply short => ?_⟩
  exact conforming.1 message published publication reply _ ⟨rfl, rfl, rfl⟩ short

/-- A device whose capacity is not a whole number of writes. -/
def tightLimits : Config := ⟨5, 4, 4⟩

/-- The service of that device. -/
def tightService : Service :=
  { smallService with
    capacity := 5
    maxChunkSize := 4
    writeSize := 4
    writeSizePos := by decide
    chunkAligned := by decide }

/-- The first chunk is written and the second one requested. -/
def tightSchedule : List (Network.Event Unit) :=
  [.call (.step openLink), .deliver 0, .call (.completeRequest true), .call (.step openLink),
    .status 0, .deliver 1, .call (.completeRequest true), .call (.step openLink)]

/-- The request for the second chunk. -/
def tightRequest : StatusMessage :=
  ⟨[0x61] ++ statusSuffix, ⟨.ready, .accepted, smallHost.id, 4, 5, 4, 4⟩, [0x61] ++ chunkSuffix,
    smallHost.id, Decimal.text 4⟩

/-- The second chunk, padded to a whole write. -/
def tightChunk : Publication :=
  ⟨[0x61] ++ chunkSuffix, [5, 0xFF, 0xFF, 0xFF], Host.chunkProperties smallHost.id 4⟩

/-- The padding of an object that fits exceeds the capacity, and the host's chunk fails the transfer. -/
theorem tight_device_fails : ∃ network,
    Service.new smallHost.root tightLimits = .ok tightService ∧
    Network.Reaches Unit readManifest smallHost smallHost.id (.start smallHost tightService) network ∧
    network.service.transfer.map Transfer.id = some smallHost.id ∧
    network.service.state = .ready ∧
    tightRequest ∈ network.statuses ∧ smallHost.reply tightRequest = .chunk tightChunk ∧
    (network.service.handle readManifest (Network.arrival tightChunk)).2.state = .error ∧
    (network.service.handle readManifest (Network.arrival tightChunk)).2.pending =
      some (.publish .oversize) := by
  refine ⟨Network.play readManifest smallHost tightSchedule (.start smallHost tightService), rfl,
    Network.reaches_play _ _, ?_⟩
  decide +kernel

end Minimq.Staging

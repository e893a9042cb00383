import Minimq.Lib.Tiling
import Minimq.Proofs.Staging.Service
import Minimq.Staging.Host

/-! What the owner of the storage sees: the writes of a service tile the object. -/

namespace Minimq.Staging

open Tiling

variable {config : Config} {transfer : Transfer} {log : Log} {phase after : Phase}

/-- A write as a piece of the object. -/
def StagingWrite.piece (write : StagingWrite) : Piece UInt8 := ⟨write.offset.toNat, write.payload⟩

namespace Log

theorem content_eq (log : Log) : Tiling.content (log.written.map StagingWrite.piece) = log.content := by
  simp only [Tiling.content, content, List.flatMap_map]
  rfl

/-- The requests of a transfer: the successful writes, and perhaps a last one that is not. -/
structure Traced (config : Config) (transfer : Transfer) (last : List StagingWrite) (log : Log) :
    Prop where
  /-- The storage was prepared once, before all writes. -/
  emitted : log.emitted = .prepare transfer.size :: (log.written ++ last).map .write
  /-- The successful writes tile. -/
  tiles : Tiles 0 (log.written.map StagingWrite.piece)
  /-- All writes respect the limits. -/
  sound : ∀ write ∈ log.written ++ last, write.Sound config

/-- A transfer that still expects chunks. -/
structure Open (transfer : Transfer) (log : Log) : Prop where
  /-- It was not aborted. -/
  aborted : log.aborted = false
  /-- The transfer stands behind what was written. -/
  stands : log.content.length = transfer.nextOffset.toNat
  /-- The object is not complete. -/
  behind : transfer.nextOffset.toNat < transfer.size.toNat
  /-- No successful write was the final one. -/
  unfinished : ∀ write ∈ log.written, write.fnv1a64 = none

/-- What the owner has seen in each phase. -/
def Kept (config : Config) (log : Log) : Phase → Prop
  | .idle => log = .empty
  | .preparing transfer => transfer.Acceptable config ∧
      log = ⟨[.prepare transfer.size], [.prepare transfer.size], [], false⟩
  | .ready transfer => log.Traced config transfer [] ∧ log.Open transfer ∧ log.outstanding = []
  | .writing transfer write => log.Traced config transfer [write] ∧ log.Open transfer ∧
      log.outstanding = [.write write] ∧ write.Continues config transfer
  | .complete transfer => log.Traced config transfer [] ∧ log.outstanding = [] ∧
      log.aborted = false ∧
      (∃ front last, log.written = front ++ [last] ∧ last.fnv1a64 = some transfer.fnv1a64 ∧
        ∀ write ∈ front, write.fnv1a64 = none) ∧
      transfer.size.toNat ≤ log.content.length ∧
      ∀ byte ∈ log.content.drop transfer.size.toNat, byte = 0xFF
  | .failed transfer => (∃ last, log.Traced config transfer last ∧ last.length ≤ 1) ∧
      log.outstanding.length ≤ 1 ∧ (log.outstanding ≠ [] → log.aborted = true) ∧
      ∀ write ∈ log.written, write.fnv1a64 = none

/-- Inbound publications keep the record. -/
theorem Kept.handled {handle : Handle} (kept : log.Kept config phase)
    (handled : phase.Handled config handle after) : (log.handled handle).Kept config after := by
  -- Only a manifest and the next chunk change the record.
  cases handled with
  | unhandled => exact kept
  | consumed => exact kept
  | manifest acceptable =>
    obtain rfl : log = .empty := kept
    exact ⟨acceptable, rfl⟩
  | chunk continues =>
    obtain ⟨traced, unfinished, none⟩ := kept
    refine ⟨⟨?_, traced.tiles, ?_⟩, ⟨unfinished.aborted, unfinished.stands, unfinished.behind,
      unfinished.unfinished⟩, ?_, continues⟩
    · simp only [Log.handled, traced.emitted, List.append_nil, List.map_append, List.map_cons,
        List.map_nil, List.cons_append]
    · intro write member
      rcases List.mem_append.mp member with before | last
      · exact traced.sound write (List.mem_append_left _ before)
      · obtain rfl := List.mem_singleton.mp last
        exact continues.toSound
    · simp only [Log.handled, none, List.nil_append]
  | rejected =>
    obtain ⟨traced, unfinished, none⟩ := kept
    refine ⟨⟨[], traced, by simp⟩, ?_, ?_, unfinished.unfinished⟩
    · simp [Log.handled, none]
    · simp [Log.handled, none]

/-- An abort keeps the record. -/
theorem Kept.abort (kept : log.Kept config phase) :
    ({ log with aborted := log.aborted || phase.isActive } : Log).Kept config phase.aborted := by
  -- An abort is noted while a transfer is going on, and not behind its end.
  cases phase with
  | idle =>
    obtain rfl : log = .empty := kept
    rfl
  | preparing transfer =>
    obtain ⟨-, rfl⟩ := kept
    exact ⟨⟨[], ⟨rfl, trivial, by simp⟩, by simp⟩, by simp, fun _ => rfl, by simp⟩
  | ready transfer =>
    obtain ⟨traced, unfinished, none⟩ := kept
    exact ⟨⟨[], ⟨traced.emitted, traced.tiles, traced.sound⟩, by simp⟩, by simp [none],
      fun _ => Bool.or_true _, unfinished.unfinished⟩
  | writing transfer write =>
    obtain ⟨traced, unfinished, one, -⟩ := kept
    exact ⟨⟨[write], ⟨traced.emitted, traced.tiles, traced.sound⟩, by simp⟩, by simp [one],
      fun _ => Bool.or_true _, unfinished.unfinished⟩
  | complete transfer =>
    simp only [Phase.isActive, Bool.or_false]
    exact kept
  | failed transfer =>
    simp only [Phase.isActive, Bool.or_false]
    exact kept

/-- A successful write is one more piece. -/
theorem Traced.wrote {write : StagingWrite} (traced : log.Traced config transfer [write])
    (offset : write.offset.toNat = log.content.length) (rest : List StagingRequest) :
    ({ log with outstanding := rest, written := log.written ++ [write] } : Log).Traced config
      transfer [] := by
  refine ⟨?_, ?_, ?_⟩
  · simp only [traced.emitted, List.append_nil]
  · simp only [List.map_append, List.map_cons, List.map_nil]
    refine tiles_concat.mpr ⟨traced.tiles, ?_⟩
    rw [content_eq, Nat.zero_add]
    exact offset
  · simpa only [List.append_nil] using traced.sound

theorem content_concat (log : Log) (write : StagingWrite) (rest : List StagingRequest) :
    ({ log with outstanding := rest, written := log.written ++ [write] } : Log).content =
      log.content ++ write.payload := by
  simp [content]

section Results

variable {write : StagingWrite}

/-- The result of the preparation keeps the record. -/
theorem Kept.prepared (kept : log.Kept config (.preparing transfer)) (success : Bool) :
    (log.completed success).Kept config ((Phase.preparing transfer).completed success) := by
  obtain ⟨acceptable, rfl⟩ := kept
  show Log.Kept config ⟨[.prepare transfer.size], [], [], false⟩ _
  have traced : Log.Traced config transfer [] ⟨[.prepare transfer.size], [], [], false⟩ :=
    ⟨rfl, trivial, by simp⟩
  cases success with
  | false => exact ⟨⟨[], traced, by simp⟩, by simp, by simp, by simp⟩
  | true =>
    -- The first chunk is expected at position zero, which is not the end of the object.
    refine ⟨traced, ⟨rfl, ?_, ?_, by simp⟩, rfl⟩
    · rw [acceptable.start]
      rfl
    · rw [acceptable.start]
      exact acceptable.nonempty

/-- A late result keeps the record of a transfer that failed. -/
theorem Kept.late (kept : log.Kept config (.failed transfer)) (success : Bool) :
    (log.completed success).Kept config (.failed transfer) := by
  obtain ⟨⟨last, traced, one⟩, few, aborted, unfinished⟩ := kept
  -- If a request is outstanding, the abort gave it up, so its result is not noted as a write.
  cases pending : log.outstanding with
  | nil =>
    simp only [Log.completed, pending]
    exact ⟨⟨last, traced, one⟩, few, aborted, unfinished⟩
  | cons request rest =>
    have gone := aborted (by simp [pending])
    rw [pending, List.length_cons] at few
    obtain rfl : rest = [] := List.eq_nil_of_length_eq_zero (by omega)
    have same : log.completed success = { log with outstanding := [] } := by
      cases request <;> simp [Log.completed, pending, gone]
    rw [same]
    exact ⟨⟨last, ⟨traced.emitted, traced.tiles, traced.sound⟩, one⟩, by simp, by simp,
      unfinished⟩

theorem Kept.unwritten (kept : log.Kept config (.writing transfer write)) :
    (log.completed false).Kept config (.failed transfer) := by
  obtain ⟨traced, unfinished, one, -⟩ := kept
  have same : log.completed false = { log with outstanding := [] } := by
    simp [Log.completed, one]
  rw [same]
  exact ⟨⟨[write], ⟨traced.emitted, traced.tiles, traced.sound⟩, by simp⟩, by simp, by simp,
    unfinished.unfinished⟩

theorem Kept.noted (kept : log.Kept config (.writing transfer write)) :
    log.completed true = { log with outstanding := [], written := log.written ++ [write] } := by
  obtain ⟨-, unfinished, one, -⟩ := kept
  simp [Log.completed, one, unfinished.aborted]

theorem Kept.position (kept : log.Kept config (.writing transfer write)) :
    write.offset.toNat = log.content.length := by
  obtain ⟨-, unfinished, -, continues⟩ := kept
  rw [continues.offset, unfinished.stands]

/-- The write that reaches the end completes the object. -/
theorem Kept.finished (kept : log.Kept config (.writing transfer write))
    (reaches : transfer.size.toNat ≤ write.offset.toNat + write.payload.length) :
    (log.completed true).Kept config (.complete { transfer with nextOffset := transfer.size }) := by
  have position := kept.position
  rw [kept.noted]
  obtain ⟨traced, unfinished, one, continues⟩ := kept
  have whole := traced.wrote position []
  have bytes := content_concat log write []
  have checksum := continues.fnv1a64
  rw [if_pos reaches] at checksum
  refine ⟨⟨whole.emitted, whole.tiles, whole.sound⟩, rfl, unfinished.aborted,
    ⟨log.written, write, rfl, checksum, unfinished.unfinished⟩, ?_, ?_⟩
  · rw [bytes, List.length_append]
    dsimp only
    omega
  · -- What was written before ends inside the object, so all that is behind it is padding.
    intro byte member
    have behind := unfinished.behind
    have stands := unfinished.stands
    dsimp only at member
    rw [bytes, List.drop_append, List.drop_of_length_le (by omega), List.nil_append,
      ← position] at member
    exact continues.padding byte member

/-- After any other write the transfer stands behind it. -/
theorem Kept.advanced (kept : log.Kept config (.writing transfer write))
    (inside : ¬ transfer.size.toNat ≤ write.offset.toNat + write.payload.length) :
    (log.completed true).Kept config (.ready { transfer with
      nextOffset := UInt32.ofNat (write.offset.toNat + write.payload.length) }) := by
  have position := kept.position
  rw [kept.noted]
  obtain ⟨traced, unfinished, one, continues⟩ := kept
  have whole := traced.wrote position []
  have checksum := continues.fnv1a64
  rw [if_neg inside] at checksum
  -- The new position is inside the object, so it does not wrap.
  have limit := transfer.size.toNat_lt
  have number : (UInt32.ofNat (write.offset.toNat + write.payload.length)).toNat =
      write.offset.toNat + write.payload.length :=
    UInt32.toNat_ofNat_of_lt' (show _ < 2 ^ 32 by omega)
  refine ⟨⟨whole.emitted, whole.tiles, whole.sound⟩, ⟨unfinished.aborted, ?_, ?_, ?_⟩, rfl⟩
  · rw [content_concat log write [], List.length_append, ← position, number]
  · rw [number]
    exact Nat.lt_of_not_le inside
  · intro other member
    rcases List.mem_append.mp member with before | last
    · exact unfinished.unfinished other before
    · rw [List.mem_singleton.mp last]
      exact checksum

end Results

/-- A result keeps the record. -/
theorem Kept.completed (kept : log.Kept config phase) (success : Bool) :
    (log.completed success).Kept config (phase.completed success) := by
  -- Only a phase with a request awaits a result; the others leave it alone.
  cases phase with
  | idle =>
    obtain rfl : log = .empty := kept
    rfl
  | ready transfer =>
    simp only [Log.completed, kept.2.2]
    exact kept
  | complete transfer =>
    simp only [Log.completed, kept.2.1]
    exact kept
  | preparing transfer => exact kept.prepared success
  | failed transfer => exact kept.late success
  | writing transfer write =>
    cases success with
    | false => exact kept.unwritten
    | true =>
      have checksum := kept.2.2.2.fnv1a64
      simp only [Phase.completed, if_neg (by decide : ¬ true = false)]
      -- The service tells the last write by its checksum.
      split at checksum
      · rename_i reaches
        rw [checksum]
        exact kept.finished reaches
      · rename_i inside
        rw [checksum]
        exact kept.advanced inside

end Log

variable {τ : Type} {json : Json} {device : Service × Log}

/-- A device that is in a phase, with a record that fits it. -/
def InPhase (config : Config) (device : Service × Log) (phase : Phase) : Prop :=
  device.1.config = config ∧ device.1.Stands phase ∧ device.2.Kept config phase

theorem InPhase.state (inPhase : InPhase config device phase) : device.1.state = phase.state := by
  exact inPhase.2.1.state

theorem Log.emitted_completed (log : Log) (success : Bool) :
    (log.completed success).emitted = log.emitted := by
  unfold Log.completed
  split
  · rfl
  · dsimp only
    split
    · split <;> rfl
    · rfl

/-- A call does not change the limits and the topic root. -/
theorem fixed_perform (json : Json) (call : Call τ) (device : Service × Log) :
    (perform json call device).1.fixed = device.1.fixed := by
  obtain ⟨service, log⟩ := device
  cases call with
  | handle inbound => exact service.fixed_handle json inbound
  | completeRequest success => exact service.fixed_completeRequest success
  | abort => exact service.fixed_abort
  | beginStartup event => exact congrArg (fun core => core.2.2.2) (service.core_beginStartup event)
  | step link => exact congrArg (fun core => core.2.2.2) (service.core_step link)

theorem run_append (json : Json) (front back : List (Call τ)) (device : Service × Log) :
    run json (front ++ back) device = run json back (run json front device) := List.foldl_append

theorem fixed_run (json : Json) (calls : List (Call τ)) (device : Service × Log) :
    (run json calls device).1.fixed = device.1.fixed := by
  induction calls generalizing device with
  | nil => rfl
  | cons call calls ih => exact (ih _).trans (fixed_perform json call device)

theorem emitted_perform (json : Json) (call : Call τ) (device : Service × Log) :
    (perform json call device).2.emitted = device.2.emitted ++ requested json call device.1 := by
  obtain ⟨service, log⟩ := device
  -- Only an inbound publication makes a request.
  cases call with
  | handle inbound =>
    simp only [perform, requested]
    cases (service.handle json inbound).1 <;> simp [Log.handled, Handle.requests]
  | completeRequest success => exact (log.emitted_completed success).trans (List.append_nil _).symm
  | abort => exact (List.append_nil _).symm
  | beginStartup event => exact (List.append_nil _).symm
  | step link => exact (List.append_nil _).symm

/-- An inbound publication leads from one phase to another. -/
theorem InPhase.handle (inPhase : InPhase config device phase) {inbound : InboundPublish}
    (short : inbound.payload.length < 2 ^ 32) (json : Json) :
    ∃ after, phase.Handled config (device.1.handle json inbound).1 after ∧
      InPhase config (perform json (Call.handle (τ := τ) inbound) device) after := by
  have same := congrArg Prod.fst (fixed_perform json (Call.handle (τ := τ) inbound) device)
  obtain ⟨rfl, stands, kept⟩ := inPhase
  have behind : ∀ transfer, phase = .ready transfer →
      transfer.nextOffset.toNat ≤ transfer.size.toNat := by
    rintro transfer rfl
    exact Nat.le_of_lt kept.2.1.behind
  obtain ⟨after, handled, stands⟩ := stands.handle json short behind
  exact ⟨after, handled, same, stands, kept.handled handled⟩

/-- A call leads from one phase to another. -/
theorem InPhase.perform (inPhase : InPhase config device phase) {call : Call τ}
    (short : call.Short) (json : Json) :
    ∃ after, phase.Follows config call (requested json call device.1) after ∧
      InPhase config (perform json call device) after := by
  have same := congrArg Prod.fst (fixed_perform json call device)
  have handles {inbound : InboundPublish} (short : inbound.payload.length < 2 ^ 32) :=
    inPhase.handle (τ := τ) short json
  obtain ⟨service, log⟩ := device
  obtain ⟨rfl, stands, kept⟩ := inPhase
  -- Each call moves the service and the record together.
  cases call with
  | handle inbound =>
    obtain ⟨after, handled, next⟩ := handles short
    exact ⟨after, .handle inbound handled, next⟩
  | completeRequest success =>
    exact ⟨_, .completeRequest success phase, same, stands.completeRequest success,
      kept.completed success⟩
  | abort =>
    obtain ⟨active, stands⟩ := stands.abort
    refine ⟨_, .abort phase, same, stands, ?_⟩
    simp only [Staging.perform, active]
    exact kept.abort
  | beginStartup event =>
    exact ⟨phase, .beginStartup event phase, same, stands.congr (service.core_beginStartup event),
      kept⟩
  | step link => exact ⟨phase, .step link phase, same, stands.congr (service.core_step link), kept⟩

theorem inPhase_new {root : Bytes} {service : Service}
    (created : Service.new root config = .ok service) : InPhase config (service, .empty) .idle := by
  obtain ⟨fixed, stands, -⟩ := Service.new_spec created
  exact ⟨congrArg Prod.fst fixed, stands, rfl⟩

/-- What every call keeps of the phase holds after any calls. -/
theorem InPhase.keeps {P : Phase → Prop}
    (step : ∀ {phase after : Phase} {call : Call τ} {requests : List StagingRequest} {log : Log},
      phase.Follows config call requests after → log.Kept config phase → P phase → P after)
    {calls : List (Call τ)} (inPhase : InPhase config device phase) (holds : P phase)
    (short : ∀ call ∈ calls, call.Short) (json : Json) :
    ∃ after, InPhase config (run json calls device) after ∧ P after := by
  induction calls generalizing device phase with
  | nil => exact ⟨phase, inPhase, holds⟩
  | cons call calls ih =>
    obtain ⟨after, follows, next⟩ := inPhase.perform (short call (.head _)) json
    exact ih next (step follows inPhase.2.2 holds) fun other member => short other (.tail _ member)

theorem InPhase.run {calls : List (Call τ)} (inPhase : InPhase config device phase)
    (short : ∀ call ∈ calls, call.Short) (json : Json) :
    ∃ after, InPhase config (run json calls device) after := by
  obtain ⟨after, next, -⟩ :=
    inPhase.keeps (P := fun _ => True) (fun _ _ _ => trivial) trivial short json
  exact ⟨after, next⟩

/-- A transfer that is over stays so and makes no request. -/
theorem Phase.Follows.ended {call : Call τ} {requests : List StagingRequest}
    (follows : phase.Follows config call requests after)
    (ended : phase.state = .complete ∨ phase.state = .error) : requests = [] ∧ after = phase := by
  -- A manifest and a chunk are taken only before the end.
  cases follows with
  | handle inbound handled =>
    cases handled with
    | unhandled => exact ⟨rfl, rfl⟩
    | consumed => exact ⟨rfl, rfl⟩
    | manifest => simp [Phase.state] at ended
    | chunk => simp [Phase.state] at ended
    | rejected => simp [Phase.state] at ended
  | completeRequest success => cases phase <;> simp [Phase.state] at ended <;> exact ⟨rfl, rfl⟩
  | abort => cases phase <;> simp [Phase.state] at ended <;> exact ⟨rfl, rfl⟩
  | beginStartup event => exact ⟨rfl, rfl⟩
  | step link => exact ⟨rfl, rfl⟩

/-- Calls on a transfer that is over change nothing. -/
theorem InPhase.ended {calls : List (Call τ)} (inPhase : InPhase config device phase)
    (ended : phase.state = .complete ∨ phase.state = .error)
    (short : ∀ call ∈ calls, call.Short) (json : Json) :
    InPhase config (Staging.run json calls device) phase ∧
      (Staging.run json calls device).2.emitted = device.2.emitted := by
  induction calls generalizing device with
  | nil => exact ⟨inPhase, rfl⟩
  | cons call calls ih =>
    obtain ⟨after, follows, next⟩ := inPhase.perform (short call (.head _)) json
    obtain ⟨quiet, rfl⟩ := follows.ended ended
    obtain ⟨stays, same⟩ := ih next fun other member => short other (.tail _ member)
    refine ⟨stays, same.trans ?_⟩
    rw [emitted_perform, quiet, List.append_nil]

/-- Only the success of the final write completes a transfer. -/
theorem InPhase.completes (inPhase : InPhase config device phase) {call : Call τ}
    (short : call.Short) (json : Json) :
    (Staging.perform json call device).1.state = .complete ∧ device.1.state ≠ .complete ↔
      call = .completeRequest true ∧ device.2.aborted = false ∧
        ∃ write, device.2.outstanding = [.write write] ∧ write.fnv1a64.isSome := by
  obtain ⟨after, follows, next⟩ := inPhase.perform short json
  generalize requested json call device.1 = requests at follows
  rw [next.state, inPhase.state]
  obtain ⟨-, -, kept⟩ := inPhase
  constructor
  · -- Of all calls, only the result of a write can end in completion.
    rintro ⟨done, before⟩
    cases follows with
    | handle inbound handled =>
      cases handled <;> simp_all [Phase.state]
    | abort => cases phase <;> simp_all [Phase.state, Phase.aborted]
    | beginStartup event => exact absurd done before
    | step link => exact absurd done before
    | completeRequest success =>
      cases phase with
      | preparing transfer => cases success <;> simp [Phase.state, Phase.completed] at done
      | writing transfer write =>
        obtain ⟨-, unfinished, one, -⟩ := kept
        cases success with
        | false => simp [Phase.state, Phase.completed] at done
        | true =>
          refine ⟨rfl, unfinished.aborted, write, one, ?_⟩
          by_contra none
          simp [Phase.state, Phase.completed, none] at done
      | _ => exact absurd done before
  · rintro ⟨rfl, going, write, one, final⟩
    cases follows
    -- In every other phase no final write is outstanding.
    cases phase with
    | idle =>
      rw [show device.2 = .empty from kept] at one
      cases one
    | preparing transfer =>
      rw [kept.2] at one
      cases one
    | ready transfer =>
      rw [kept.2.2] at one
      cases one
    | complete transfer =>
      rw [kept.2.1] at one
      cases one
    | failed transfer =>
      rw [kept.2.2.1 (by simp [one])] at going
      cases going
    | writing transfer own =>
      rw [kept.2.2.1] at one
      cases one
      simp [Phase.state, Phase.completed, final]

/-- The requests of a service and their results, after any calls. -/
structure Tiled (τ : Type) (json : Json) (config : Config) (device : Service × Log) : Prop where
  /-- At most one request awaits its result. -/
  single : device.2.outstanding.length ≤ 1
  /-- The storage is prepared once, before any write. -/
  prepared : device.2.emitted = [] ∨ ∃ size writes,
    device.2.emitted = .prepare size :: List.map .write writes
  /-- Every successful write starts behind the bytes of those before it. -/
  offsets : ∀ front write back, device.2.written = front ++ write :: back →
    write.offset.toNat = (front.flatMap StagingWrite.payload).length
  /-- Every successful write respects the limits. -/
  sound : ∀ write ∈ device.2.written, write.Sound config
  /-- At most one write carries the checksum. -/
  checksums : ∀ front write back, device.2.emitted = front ++ .write write :: back →
    write.fnv1a64.isSome → back = []
  /-- The transfer is completed exactly by the success of that write. -/
  completes : ∀ call : Call τ, call.Short →
    ((perform json call device).1.state = .complete ∧ device.1.state ≠ .complete ↔
      call = .completeRequest true ∧ device.2.aborted = false ∧
        ∃ write, device.2.outstanding = [.write write] ∧ write.fnv1a64.isSome)
  /-- A complete object has all its bytes, and erased storage behind them. -/
  complete : device.1.state = .complete → ∃ transfer, device.1.transfer = some transfer ∧
    device.2.emitted = .prepare transfer.size :: List.map .write device.2.written ∧
    (∃ write ∈ device.2.written, write.fnv1a64 = some transfer.fnv1a64) ∧
    transfer.size.toNat ≤ device.2.content.length ∧
    ∀ byte ∈ device.2.content.drop transfer.size.toNat, byte = 0xFF
  /-- A transfer that is over stays so and makes no request. -/
  ended : device.1.state = .complete ∨ device.1.state = .error →
    ∀ calls : List (Call τ), (∀ call ∈ calls, call.Short) →
      (run json calls device).1.state = device.1.state ∧
      (run json calls device).2.emitted = device.2.emitted

/-- The record of a phase: the writes without a checksum, and at most one behind them. -/
theorem Log.Kept.writes (kept : log.Kept config phase) :
    log.emitted = [] ∨ ∃ size front last, log.emitted = .prepare size :: List.map .write (front ++ last) ∧
      (∀ write ∈ front, write.fnv1a64 = none) ∧ last.length ≤ 1 := by
  -- The writes before the last one were not final, or the transfer were over.
  cases phase with
  | idle =>
    obtain rfl : log = .empty := kept
    exact .inl rfl
  | preparing transfer =>
    obtain ⟨-, rfl⟩ := kept
    exact .inr ⟨transfer.size, [], [], rfl, by simp, by simp⟩
  | ready transfer =>
    obtain ⟨traced, unfinished, -⟩ := kept
    exact .inr ⟨_, log.written, [], traced.emitted, unfinished.unfinished, by simp⟩
  | writing transfer write =>
    obtain ⟨traced, unfinished, -⟩ := kept
    exact .inr ⟨_, log.written, [write], traced.emitted, unfinished.unfinished, by simp⟩
  | complete transfer =>
    obtain ⟨traced, -, -, ⟨front, last, written, -, unfinished⟩, -⟩ := kept
    refine .inr ⟨transfer.size, front, [last], ?_, unfinished, by simp⟩
    rw [traced.emitted, List.append_nil, written]
  | failed transfer =>
    obtain ⟨⟨last, traced, one⟩, -, -, unfinished⟩ := kept
    exact .inr ⟨_, log.written, last, traced.emitted, unfinished, one⟩

/-- The successful writes of a phase tile and respect the limits. -/
theorem Log.Kept.written (kept : log.Kept config phase) :
    Tiles 0 (log.written.map StagingWrite.piece) ∧ ∀ write ∈ log.written, write.Sound config := by
  -- The record of each phase says so.
  cases phase with
  | idle =>
    obtain rfl : log = .empty := kept
    exact ⟨trivial, by simp [Log.empty]⟩
  | preparing transfer =>
    obtain ⟨-, rfl⟩ := kept
    exact ⟨trivial, by simp⟩
  | ready transfer =>
    exact ⟨kept.1.tiles, fun write member => kept.1.sound write (List.mem_append_left _ member)⟩
  | writing transfer write =>
    exact ⟨kept.1.tiles, fun write member => kept.1.sound write (List.mem_append_left _ member)⟩
  | complete transfer =>
    exact ⟨kept.1.tiles, fun write member => kept.1.sound write (List.mem_append_left _ member)⟩
  | failed transfer =>
    obtain ⟨⟨last, traced, -⟩, -⟩ := kept
    exact ⟨traced.tiles, fun write member => traced.sound write (List.mem_append_left _ member)⟩

/-- At most one request awaits its result in any phase. -/
theorem Log.Kept.single (kept : log.Kept config phase) : log.outstanding.length ≤ 1 := by
  -- A request is made only where none is outstanding.
  cases phase with
  | idle =>
    obtain rfl : log = .empty := kept
    exact Nat.zero_le _
  | preparing transfer =>
    obtain ⟨-, rfl⟩ := kept
    exact Nat.le_refl _
  | ready transfer => simp [kept.2.2]
  | writing transfer write => simp [kept.2.2.1]
  | complete transfer => simp [kept.2.1]
  | failed transfer => exact kept.2.1

/-- A write with a checksum is the last request. -/
theorem Log.Kept.checksum (kept : log.Kept config phase) {front back : List StagingRequest}
    {write : StagingWrite} (split : log.emitted = front ++ .write write :: back)
    (final : write.fnv1a64.isSome) : back = [] := by
  obtain none | ⟨size, plain, last, emitted, unfinished, one⟩ := kept.writes
  · simp [none] at split
  · by_contra more
    -- All but the last request are the preparation and writes without a checksum.
    have member : .write write ∈ log.emitted.dropLast := by
      rw [split, List.dropLast_append_of_ne_nil (by simp), List.dropLast_cons_of_ne_nil more]
      simp
    have early : .write write ∈ .prepare size :: List.map StagingRequest.write plain := by
      rw [emitted] at member
      rcases last with _ | ⟨last, _ | _⟩
      · rw [List.append_nil] at member
        exact List.mem_of_mem_dropLast member
      · rwa [List.map_append, ← List.cons_append, List.map_singleton,
          List.dropLast_concat] at member
      · simp at one
    obtain ⟨other, found, same⟩ : ∃ other ∈ plain, StagingRequest.write other = .write write := by
      simpa using early
    cases same
    simp [unfinished _ found] at final

/-- Whatever is called on a service, its writes tile the object. -/
theorem run_tiled (root : Bytes) {service : Service} {calls : List (Call τ)}
    (created : Service.new root config = .ok service) (short : ∀ call ∈ calls, call.Short)
    (json : Json) : Tiled τ json config (run json calls (service, .empty)) := by
  obtain ⟨phase, inPhase⟩ := (inPhase_new created).run short json
  generalize run json calls (service, .empty) = device at inPhase
  obtain ⟨same, stands, kept⟩ := inPhase
  have inPhase : InPhase config device phase := ⟨same, stands, kept⟩
  obtain ⟨tiles, sound⟩ := kept.written
  -- The invariant of the phase that was reached gives each part.
  refine ⟨kept.single, ?_, ?_, sound, fun _ _ _ => kept.checksum, ?_, ?_, ?_⟩
  · rcases kept.writes with none | ⟨size, front, last, emitted, -⟩
    · exact .inl none
    · exact .inr ⟨size, front ++ last, emitted⟩
  · intro front write back split
    rw [split, List.map_append, List.map_cons] at tiles
    have offset := tiles.offset_eq
    rw [Nat.zero_add, Tiling.content, List.flatMap_map] at offset
    exact offset
  · exact fun call short => inPhase.completes short json
  · intro done
    cases phase <;> rw [inPhase.state] at done <;> cases done
    rename_i transfer
    obtain ⟨traced, -, -, ⟨front, last, written, final, -⟩, size, padding⟩ := kept
    refine ⟨transfer, stands.2.1, ?_, ⟨last, ?_, final⟩, size, padding⟩
    · rw [traced.emitted, List.append_nil]
    · simp [written]
  · intro ended calls short
    rw [inPhase.state] at ended
    obtain ⟨stays, none⟩ := inPhase.ended ended short json
    exact ⟨stays.state.trans inPhase.state.symm, none⟩

/-- A small device with chunks of four bytes and writes of two. -/
def smallLimits : Config := ⟨16, 4, 2⟩

/-- The service of the small device, at the topic root `a`. -/
def smallService : Service where
  root := [0x61]
  inflight := none
  pending := none
  startupPublish := none
  subscribed := false
  state := .idle
  transfer := none
  request := none
  capacity := 16
  maxChunkSize := 4
  maxRxPacketSize := 0
  writeSize := 2
  writeSizePos := by decide
  chunkAligned := by decide
  topicsFit := by decide

/-- A connection with room for packets of 200 bytes, whose publications are dropped. -/
def smallLink : Link Unit := ⟨200, fun _ => .complete, true, .dropped false⟩

/-- A connection that accepts and acknowledges every publication. -/
def openLink : Link Unit :=
  ⟨200, fun _ => .complete, true, .started ⟨.publishAtLeastOnce, 1, 0⟩⟩

/-- A chunk of the transfer `t` at a position of one digit. -/
def smallChunk (digit : UInt8) (small : isUtf8 [digit] = true) (payload : Bytes) : Call Unit :=
  .handle ⟨[0x61] ++ chunkSuffix, payload,
    .slice [.correlationData [0x74], .userProperty offsetKey ⟨[digit], small⟩], false⟩

/-- An object of five bytes in two chunks, the second one padded. -/
def upload : List (Call Unit) :=
  [.step smallLink, .handle ⟨[0x61] ++ manifestSuffix, jsonManifest [0x74] 5 7, .slice [], false⟩,
    .completeRequest true, smallChunk 0x30 (by decide) [1, 2, 3, 4], .completeRequest true,
    smallChunk 0x34 (by decide) [5, 0xFF], .completeRequest true]

/-- The upload completes, and its writes tile the object. -/
theorem run_tiled_upload :
    (run readManifest upload (smallService, .empty)).1.state = .complete ∧
    (run readManifest upload (smallService, .empty)).2.content = [1, 2, 3, 4, 5, 0xFF] ∧
    Tiled Unit readManifest smallLimits (run readManifest upload (smallService, .empty)) := by
  refine ⟨by decide +kernel, by decide +kernel, run_tiled [0x61] rfl ?_ _⟩
  have manifest : (jsonManifest [0x74] 5 7).length < 2 ^ 32 := by decide +kernel
  simpa [upload, smallChunk, Call.Short] using manifest

end Minimq.Staging

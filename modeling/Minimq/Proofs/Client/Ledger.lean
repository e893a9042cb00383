import Mathlib.Data.List.Flatten
import Minimq.Proofs.Client.Identifiers

/-! Every retained packet is in the arena as it was encoded when its operation was admitted. -/

namespace Minimq

open Async

variable {π τ : Type} {before after : Outbound} {packetId : UInt16} {kind : OpKind}

/-- What is on file for a retained packet. -/
structure Filed where
  /-- The place of its admission in the record. -/
  index : Nat
  admission : Admission
  /-- Whether it carries the DUP flag. -/
  marked : Bool

namespace Filed

/-- The bytes of the packet in the arena. -/
def bytes (file : Filed) : Bytes :=
  if file.marked then duplicate file.admission.packet else file.admission.packet

/-- The admission and its place in the record. -/
def origin (file : Filed) : Nat × Admission := (file.index, file.admission)

/-- What the queue of retained packets knows about the packet, apart from its progress. -/
def key (file : Filed) : OpKind × UInt16 × Nat :=
  (file.admission.kind, file.admission.packetId, file.admission.packet.length)

/-- The packet as it is sent again. -/
def remark (file : Filed) : Filed := { file with marked := file.admission.kind.isPublish }

end Filed

/-- What the queue of retained packets knows about a packet, apart from its progress. -/
def RetainedPacket.key (entry : RetainedPacket) : OpKind × UInt16 × Nat :=
  (entry.kind, entry.packetId, entry.len)

@[simp] theorem length_duplicate (packet : Bytes) : (duplicate packet).length = packet.length := by
  simp [duplicate]

theorem duplicate_duplicate (packet : Bytes) : duplicate (duplicate packet) = duplicate packet := by
  cases packet with
  | nil => rfl
  | cons first rest =>
    simp [duplicate, markPublishDuplicate, FixedHeader.withPublishDuplicate, UInt8.or_assoc]

@[simp] theorem Filed.length_bytes (file : Filed) :
    file.bytes.length = file.admission.packet.length := by
  unfold bytes
  split <;> simp

@[simp] theorem Filed.admission_remark (file : Filed) : file.remark.admission = file.admission := rfl

@[simp] theorem Filed.key_remark (file : Filed) : file.remark.key = file.key := rfl

@[simp] theorem Filed.origin_remark (file : Filed) : file.remark.origin = file.origin := rfl

theorem Filed.bytes_remark (file : Filed) (publish : file.admission.kind.isPublish = true) :
    file.remark.bytes = duplicate file.bytes := by
  unfold remark bytes
  simp only [publish, if_true]
  split
  · rw [duplicate_duplicate]
  · rfl

theorem Filed.remark_of_not_publish (file : Filed)
    (other : ¬ file.admission.kind.isPublish = true)
    (marks : file.marked = true → file.admission.kind.isPublish = true) : file.remark = file := by
  obtain ⟨index, admission, marked⟩ := file
  have unmarked : marked = false := Bool.eq_false_iff.mpr fun set => other (marks set)
  have plain : admission.kind.isPublish = false := Bool.eq_false_iff.mpr other
  rw [remark, plain, unmarked]

theorem OpPacket.framed {packet : Bytes}
    (legal : OpPacket kind packetId packet) : ∃ header body, frame header body = some packet := by
  cases legal with
  | publish identified level encoded => exact ⟨_, framed_of_encodePublish encoded⟩
  | subscribe encoded => exact ⟨_, framed_of_encode encoded⟩
  | unsubscribe encoded => exact ⟨_, framed_of_encode encoded⟩

theorem SameUpTo.mono {used less : Nat} {left right : Bytes} (same : SameUpTo used left right)
    (fewer : less ≤ used) : SameUpTo less left right := by
  refine ⟨same.size, ?_⟩
  rw [← Nat.min_eq_left fewer, ← List.take_take, same.kept, List.take_take]

theorem SameUpTo.slice {used offset len : Nat} {left right : Bytes}
    (same : SameUpTo used left right) (inside : offset + len ≤ used) :
    (right.drop offset).take len = (left.drop offset).take len := by
  have kept := (same.mono inside).kept
  rw [← Nat.add_sub_cancel_left offset len, ← List.drop_take, kept, List.drop_take]

/-- The files of all retained packets are in the arena. -/
structure Stored (files : List Filed) (outbound : Outbound) : Prop where
  /-- The bytes are in the arena, one packet behind the other. -/
  packed : Arena.Packed (files.map Filed.bytes) outbound.buf
  /-- The queue lists the same packets. -/
  entries : outbound.retained.toList.map RetainedPacket.key = files.map Filed.key
  /-- Only publications carry the DUP flag. -/
  publish : ∀ file ∈ files, file.marked = true → file.admission.kind.isPublish = true
  /-- Every packet is one of its operation. -/
  legal : ∀ file ∈ files,
    OpPacket file.admission.kind file.admission.packetId file.admission.packet

namespace Stored

variable {files : List Filed} {before after outbound : Outbound}

/-- The lengths in the queue add up to the bytes in the arena. -/
theorem bytesOf_eq {entries : List RetainedPacket} {files : List Filed}
    (same : entries.map RetainedPacket.key = files.map Filed.key) :
    Outbound.bytesOf entries = (files.map Filed.bytes).flatten.length := by
  have sizes : List.length ∘ Filed.bytes = (fun key => key.2.2) ∘ Filed.key := by
    funext file
    exact file.length_bytes
  have lens := congrArg (List.map fun key => key.2.2) same
  rw [List.map_map, List.map_map, ← sizes] at lens
  rw [List.length_flatten, List.map_map, ← lens]
  rfl

theorem retainedBytes_eq (stored : Stored files outbound) :
    outbound.retainedBytes = (files.map Filed.bytes).flatten.length := bytesOf_eq stored.entries

theorem nil (empty : outbound.retained.toList = []) : Stored [] outbound :=
  ⟨.nil _, by simp [empty], by simp, by simp⟩

/-- The queue and the arena may change apart from what is on file. -/
theorem of_same (stored : Stored files before)
    (entries : after.retained.toList.map RetainedPacket.key =
      before.retained.toList.map RetainedPacket.key)
    (kept : SameUpTo before.retainedBytes before.buf after.buf) : Stored files after := by
  refine ⟨?_, entries.trans stored.entries, stored.publish, stored.legal⟩
  have packed := stored.packed.take_eq
  rw [← stored.retainedBytes_eq] at packed
  rw [Arena.Packed, ← packed, ← kept.kept]
  exact List.take_prefix _ _

/-- Setting the DUP flag of the publications among the last packets. -/
theorem packed_markDupFrom {front : List Bytes} {entries : List RetainedPacket}
    {files : List Filed} {buf : Bytes}
    (same : entries.map RetainedPacket.key = files.map Filed.key)
    (nonempty : ∀ file ∈ files, file.bytes ≠ [])
    (marks : ∀ file ∈ files, file.marked = true → file.admission.kind.isPublish = true)
    (packed : Arena.Packed (front ++ files.map Filed.bytes) buf) :
    Arena.Packed (front ++ (files.map Filed.remark).map Filed.bytes)
      (Outbound.markDupFrom front.flatten.length entries buf) := by
  induction entries generalizing front files buf with
  | nil =>
    obtain rfl : files = [] := by simpa using same.symm
    exact packed
  | cons entry rest ih =>
    cases files with
    | nil => simp at same
    | cons file more =>
      simp only [List.map_cons, List.cons.injEq] at same
      simp only [List.forall_mem_cons] at nonempty marks
      obtain ⟨kind, -, len⟩ : entry.kind = file.admission.kind ∧
          entry.packetId = file.admission.packetId ∧ entry.len = file.admission.packet.length := by
        simpa [RetainedPacket.key, Filed.key] using same.1
      have head : Arena.Packed (front ++ file.remark.bytes :: more.map Filed.bytes)
          (if entry.kind.isPublish then buf.modify front.flatten.length markPublishDuplicate
            else buf) := by
        rw [kind]
        split
        · rename_i publish
          rw [file.bytes_remark publish]
          exact packed.modifyHead nonempty.1 _
        · rename_i other
          rw [file.remark_of_not_publish other marks.1]
          exact packed
      -- The next packet starts behind this one.
      have next := @ih (front ++ [file.remark.bytes]) _ _ same.2 nonempty.2 marks.2
        (by simpa using head)
      simpa [Outbound.markDupFrom, len] using next

theorem nonempty (stored : Stored files outbound) {file : Filed} (found : file ∈ files) :
    file.bytes ≠ [] := by
  obtain ⟨header, body, framed⟩ := (stored.legal file found).framed
  have := frame_length framed
  rw [ne_eq, ← List.length_eq_zero_iff, Filed.length_bytes]
  omega

/-- Starting every packet over sets the DUP flag of the publications. -/
theorem armReplay (stored : Stored files outbound) :
    Stored (files.map Filed.remark) outbound.armReplay := by
  have marks : ∀ file ∈ files.map Filed.remark,
      file.marked = true → file.admission.kind.isPublish = true := by
    intro file found marked
    obtain ⟨old, -, rfl⟩ := List.mem_map.mp found
    exact marked
  have legal : ∀ file ∈ files.map Filed.remark,
      OpPacket file.admission.kind file.admission.packetId file.admission.packet := by
    intro file found
    obtain ⟨old, known, rfl⟩ := List.mem_map.mp found
    exact stored.legal old known
  have keys : outbound.retained.toList.map RetainedPacket.key =
      (files.map Filed.remark).map Filed.key := by
    rw [List.map_map]
    exact stored.entries
  unfold Outbound.armReplay
  split
  · refine ⟨?_, ?_, marks, legal⟩
    · exact @packed_markDupFrom [] _ _ _ stored.entries (fun file => stored.nonempty)
        stored.publish stored.packed
    · rw [← keys]
      exact List.map_map
  · -- Nothing is retained, so there is nothing to mark.
    rename_i nothing
    simp only [Outbound.hasPendingState, Bool.or_eq_true, Bool.not_eq_true',
      List.isEmpty_eq_false_iff, not_or, not_not] at nothing
    obtain rfl : files = [] := by simpa [nothing.1.2] using stored.entries.symm
    exact stored

/-- An acknowledged packet is taken off file. -/
theorem ackPacket (stored : Stored files before)
    (done : before.ackPacket kind packetId = some after) : ∃ front gone back,
      files = front ++ gone :: back ∧ Stored (front ++ back) after := by
  -- The arena closes the gap, so the files behind the one that is gone move up.
  obtain ⟨entries, entry, others, was, -, -, left, same⟩ := Outbound.retained_of_ackPacket done
  have split := stored.entries
  rw [was, List.map_append, List.map_cons] at split
  obtain ⟨front, rest, rfl, frontKeys, restKeys⟩ := List.map_eq_append_iff.mp split.symm
  obtain ⟨gone, back, rfl, goneKey, backKeys⟩ := List.map_eq_cons_iff.mp restKeys
  have inFiles {file : Filed} (found : file ∈ front ++ back) : file ∈ front ++ gone :: back := by
    rw [List.mem_append] at found ⊢
    exact found.imp_right (List.mem_cons_of_mem _)
  refine ⟨front, gone, back, rfl, ?_, ?_, fun file found => stored.publish file (inFiles found),
    fun file found => stored.legal file (inFiles found)⟩
  · have packed := stored.packed
    rw [List.map_append, List.map_cons] at packed
    have removed := packed.remove
    have len : gone.bytes.length = entry.len := by
      rw [Filed.length_bytes]
      exact congrArg (fun key => key.2.2) goneKey
    have total := stored.retainedBytes_eq
    rw [List.map_append, List.map_cons] at total
    rw [← total, ← bytesOf_eq frontKeys.symm, len] at removed
    rw [List.map_append, same]
    exact removed
  · rw [left, List.map_append, List.map_append, frontKeys, backKeys]

theorem setWritten (stored : Stored files outbound) (packet : Packet) (written len : Nat) :
    Stored files (outbound.setWritten written len packet) := by
  cases packet with
  | control index => exact stored.of_same rfl ⟨rfl, rfl⟩
  | release packetId => exact stored.of_same rfl ⟨rfl, rfl⟩
  | retained packetId =>
    exact stored.of_same (FixedVec.map_toList_modify fun _ => rfl) ⟨rfl, rfl⟩

/-- An admitted packet is put on file. -/
theorem enlist {packet buf : Bytes}
    {retained : FixedVec RetainedPacket maxRetained} (stored : Stored files outbound) (index : Nat)
    (legal : OpPacket kind packetId packet)
    (slot : outbound.retained.push ⟨kind, packetId, packet.length, .write 0⟩ = some retained)
    (kept : SameUpTo outbound.retainedBytes outbound.buf buf)
    (placed : (buf.drop outbound.retainedBytes).take packet.length = packet) :
    Stored (files ++ [⟨index, ⟨kind, packetId, packet⟩, false⟩])
      { outbound with buf, retained } := by
  -- The arena is written behind all files, and the new one begins there.
  have moved : Stored files { outbound with buf } := stored.of_same rfl kept
  refine ⟨?_, ?_, ?_, ?_⟩
  · rw [List.map_append]
    refine moved.packed.push ?_
    rw [← moved.retainedBytes_eq]
    exact placed
  · rw [FixedVec.toList_of_push slot, List.map_append, List.map_append, stored.entries]
    rfl
  · intro file found
    rcases List.mem_append.mp found with old | new
    · exact stored.publish file old
    · rw [List.mem_singleton.mp new]
      exact fun marked => by simp at marked
  · intro file found
    rcases List.mem_append.mp found with old | new
    · exact stored.legal file old
    · rw [List.mem_singleton.mp new]
      exact legal

end Stored

/-- Every change takes packets off file, or marks all of them as sent again. -/
theorem Change.stored {files : List Filed} (change : Change before after)
    (stored : Stored files before) : ∃ files', Stored files' after ∧
      (files'.Sublist files ∨ files' = files.map Filed.remark) := by
  -- Only an acknowledgement, a reset and a replay touch the files.
  cases change with
  | wrote => exact ⟨files, stored.setWritten _ _ _, .inl (.refl _)⟩
  | flushed =>
    exact ⟨files, stored.of_same (List.map_map) ⟨rfl, rfl⟩, .inl (.refl _)⟩
  | armed => exact ⟨_, stored.armReplay, .inr rfl⟩
  | cleared => exact ⟨[], .nil rfl, .inl (List.nil_sublist _)⟩
  | queued done =>
    obtain ⟨controls, rfl, -⟩ := Outbound.controls_of_queueControl done
    exact ⟨files, stored.of_same rfl ⟨rfl, rfl⟩, .inl (.refl _)⟩
  | acked done =>
    obtain ⟨front, gone, back, rfl, left⟩ := stored.ackPacket done
    exact ⟨_, left, .inl ((List.sublist_cons_self _ _).append_left _)⟩
  | released done queued =>
    obtain ⟨front, gone, back, rfl, left⟩ := stored.ackPacket done
    obtain ⟨releases, rfl, -⟩ := Outbound.releases_of_queueRelease queued
    exact ⟨_, left.of_same rfl ⟨rfl, rfl⟩, .inl ((List.sublist_cons_self _ _).append_left _)⟩
  | completed done =>
    obtain ⟨gone, -, -, same⟩ := Outbound.releases_of_ackRelease done
    rw [same]
    exact ⟨files, stored.of_same rfl ⟨rfl, rfl⟩, .inl (.refl _)⟩
  | scratched kept => exact ⟨files, stored.of_same rfl kept, .inl (.refl _)⟩
  | reserved done =>
    obtain ⟨-, -, rfl⟩ := Outbound.room_of_setConnectWorkspace done
    exact ⟨files, stored.of_same rfl ⟨rfl, rfl⟩, .inl (.refl _)⟩

/-- The retained packets leave the reserved room free. -/
structure Outbound.Roomy (outbound : Outbound) : Prop where
  /-- The reserved room is inside the arena. -/
  workspace : outbound.connectWorkspace ≤ outbound.buf.length
  /-- The retained packets are in front of it. -/
  retained : outbound.retainedBytes ≤ outbound.retainedCapacity

/-- Setting DUP flags does not change the size of the arena. -/
theorem Outbound.length_markDupFrom (offset : Nat) (entries : List RetainedPacket) (buf : Bytes) :
    (markDupFrom offset entries buf).length = buf.length := by
  induction entries generalizing offset buf with
  | nil => rfl
  | cons entry rest ih =>
    rw [markDupFrom, ih]
    split
    · exact List.length_modify ..
    · rfl

/-- A change keeps the size of the arena, and the reserved room unless it is reserved anew. -/
theorem Change.size (change : Change before after)
    (inside : before.retainedBytes ≤ before.buf.length) :
    after.buf.length = before.buf.length ∧
      (after.connectWorkspace = before.connectWorkspace ∨ after.Roomy) := by
  -- Dropping a packet moves bytes inside the arena.
  have acks {kind : OpKind} {packetId : UInt16} {acked : Outbound}
      (done : before.ackPacket kind packetId = some acked) :
      acked.buf.length = before.buf.length ∧
        acked.connectWorkspace = before.connectWorkspace := by
    obtain ⟨front, entry, back, was, -, -, -, same⟩ := Outbound.retained_of_ackPacket done
    have part : Outbound.bytesOf front ≤ before.retainedBytes := by
      simp [Outbound.retainedBytes, Outbound.bytesOf, was]
    rw [same]
    exact ⟨Arena.length_copyWithin (by omega) (by omega), rfl⟩
  cases change with
  | @wrote packet => cases packet <;> exact ⟨rfl, .inl rfl⟩
  | flushed => exact ⟨rfl, .inl rfl⟩
  | armed =>
    unfold Outbound.armReplay
    split
    · exact ⟨Outbound.length_markDupFrom .., .inl rfl⟩
    · exact ⟨rfl, .inl rfl⟩
  | cleared => exact ⟨rfl, .inl rfl⟩
  | queued done =>
    obtain ⟨controls, rfl, -⟩ := Outbound.controls_of_queueControl done
    exact ⟨rfl, .inl rfl⟩
  | acked done => exact ⟨(acks done).1, .inl (acks done).2⟩
  | released done queued =>
    obtain ⟨releases, rfl, -⟩ := Outbound.releases_of_queueRelease queued
    exact ⟨(acks done).1, .inl (acks done).2⟩
  | completed done =>
    obtain ⟨gone, -, -, same⟩ := Outbound.releases_of_ackRelease done
    rw [same]
    exact ⟨rfl, .inl rfl⟩
  | scratched kept => exact ⟨kept.size, .inl rfl⟩
  | reserved done =>
    obtain ⟨within, room, rfl⟩ := Outbound.room_of_setConnectWorkspace done
    exact ⟨rfl, .inr ⟨within, room⟩⟩

/-- Packets that are taken off file or marked take no more bytes than before. -/
theorem Stored.retainedBytes_le {files files' : List Filed}
    (stored : Stored files before) (stored' : Stored files' after)
    (kept : files'.Sublist files ∨ files' = files.map Filed.remark) :
    after.retainedBytes ≤ before.retainedBytes := by
  rw [stored.retainedBytes_eq, stored'.retainedBytes_eq]
  rcases kept with fewer | rfl
  · exact ((fewer.map _).flatten).length_le
  · refine Nat.le_of_eq ?_
    simp [List.length_flatten, Function.comp_def]

/-- Every change leaves the reserved room free. -/
theorem Change.roomy {files : List Filed} (change : Change before after)
    (stored : Stored files before) (roomy : before.Roomy) : after.Roomy := by
  obtain ⟨workspace, retained⟩ := roomy
  unfold Outbound.retainedCapacity at retained
  obtain ⟨files', stored', kept⟩ := change.stored stored
  -- The files only get fewer, so the packets take no more room than before.
  have fewer := stored.retainedBytes_le stored' kept
  obtain ⟨size, same | roomy⟩ := change.size (by omega)
  · refine ⟨by omega, ?_⟩
    unfold Outbound.retainedCapacity
    omega
  · exact roomy

/-- What the record knows about packets on file. -/
structure OnRecord (record : List Admission) (origins : List (Nat × Admission)) : Prop where
  /-- Each was admitted. -/
  admitted : ∀ origin ∈ origins, record[origin.1]? = some origin.2
  /-- They are in the order of their admission. -/
  ordered : (origins.map Prod.fst).Pairwise (· < ·)
  /-- None was admitted later under the same identifier. -/
  latest : ∀ origin ∈ origins, ∀ later, origin.1 < later →
    ∀ admission, record[later]? = some admission → admission.packetId ≠ origin.2.packetId

namespace OnRecord

variable {record : List Admission} {origins : List (Nat × Admission)}

theorem sublist {fewer : List (Nat × Admission)} (known : OnRecord record origins)
    (part : fewer.Sublist origins) : OnRecord record fewer :=
  ⟨fun origin found => known.admitted origin (part.subset found),
    known.ordered.sublist (part.map _),
    fun origin found => known.latest origin (part.subset found)⟩

/-- An operation with an unused identifier is put on record. -/
theorem enlist (known : OnRecord record origins) (admission : Admission)
    (unused : ∀ origin ∈ origins, origin.2.packetId ≠ admission.packetId) :
    OnRecord (record ++ [admission]) (origins ++ [(record.length, admission)]) := by
  -- A later admission under the same identifier would have found it in use.
  have within {origin : Nat × Admission} (found : origin ∈ origins) : origin.1 < record.length :=
    (List.getElem?_eq_some_iff.mp (known.admitted origin found)).1
  refine ⟨fun origin found => ?_, ?_, fun origin found later behind other taken => ?_⟩
  · rcases List.mem_append.mp found with old | new
    · rw [List.getElem?_append_left (within old)]
      exact known.admitted origin old
    · rw [List.mem_singleton.mp new, List.getElem?_concat_length]
  · rw [List.map_append, List.pairwise_append]
    refine ⟨known.ordered, List.pairwise_singleton _ _, fun first found second new => ?_⟩
    obtain ⟨origin, old, rfl⟩ := List.mem_map.mp found
    rw [List.mem_singleton.mp new]
    exact within old
  · have bound := (List.getElem?_eq_some_iff.mp taken).1
    rw [List.length_append, List.length_singleton] at bound
    rcases List.mem_append.mp found with old | new
    · by_cases last : later = record.length
      · subst last
        rw [List.getElem?_concat_length, Option.some.injEq] at taken
        rw [← taken]
        exact (unused origin old).symm
      · rw [List.getElem?_append_left (by omega)] at taken
        exact known.latest origin old later behind other taken
    · rw [List.mem_singleton.mp new] at behind
      omega

/-- A packet on record is the latest admission under its identifier. -/
theorem find_eq (known : OnRecord record origins) {origin : Nat × Admission}
    (found : origin ∈ origins) :
    record.reverse.find? (·.packetId == origin.2.packetId) = some origin.2 := by
  obtain ⟨within, here⟩ := List.getElem?_eq_some_iff.mp (known.admitted origin found)
  have later : (record.drop (origin.1 + 1)).reverse.find?
      (·.packetId == origin.2.packetId) = none := by
    rw [List.find?_eq_none]
    intro other taken
    obtain ⟨position, taken⟩ := List.mem_iff_getElem?.mp (List.mem_reverse.mp taken)
    rw [List.getElem?_drop] at taken
    simpa using known.latest origin found _ (by omega) other taken
  -- Everything behind the admission carries another identifier.
  have split : record = record.take origin.1 ++ origin.2 :: record.drop (origin.1 + 1) := by
    rw [← here, ← List.drop_eq_getElem_cons within, List.take_append_drop]
  rw [split, List.reverse_append, List.reverse_cons, List.append_assoc, List.find?_append, later]
  simp

end OnRecord

/-- The retained packets are on file and on record. -/
structure Archived (files : List Filed) (moment : ClientMoment) : Prop where
  /-- They are in the arena. -/
  stored : Stored files moment.self.outbound
  /-- They leave the reserved room free. -/
  roomy : moment.self.outbound.Roomy
  /-- They were admitted in this order. -/
  known : OnRecord (admissions moment.trace) (files.map Filed.origin)
  /-- Without a transport they are as they are sent again. -/
  armed : moment.self.live = false → ∀ file ∈ files, file.remark = file

/-- Changes take packets off file, or mark them as sent again. -/
theorem Changes.stored {files : List Filed}
    (changes : Changes before after) (stored : Stored files before) (roomy : before.Roomy) :
    ∃ files', Stored files' after ∧ after.Roomy ∧
      (files'.map Filed.origin).Sublist (files.map Filed.origin) ∧
      ((∀ file ∈ files, file.remark = file) → ∀ file ∈ files', file.remark = file) := by
  -- Changes in sequence: files are dropped or marked, and a mark is never taken back.
  induction changes with
  | refl => exact ⟨files, stored, roomy, .refl _, id⟩
  | tail _ change ih =>
    obtain ⟨middle, stored, roomy, fewer, armed⟩ := ih
    obtain ⟨files', stored', kept⟩ := change.stored stored
    refine ⟨files', stored', change.roomy stored roomy, ?_, fun all => ?_⟩
    · rcases kept with part | rfl
      · exact (part.map _).trans fewer
      · rw [List.map_map]
        exact fewer
    · rcases kept with part | rfl
      · exact fun file found => armed all file (part.subset found)
      · intro file found
        obtain ⟨old, -, rfl⟩ := List.mem_map.mp found
        rfl

/-- A connection that ends starts every packet over. -/
theorem Step.armed_of_dead {before after : ClientMoment} (step : Step τ before after)
    (dead : after.self.live = false) : before.self.live = false ∨
      ∃ middle, Changes before.self.outbound middle ∧ after.self.outbound = middle.armReplay := by
  -- A connection ends by giving it up, which arms the replay, or by a new attempt.
  cases step with
  | outflow step =>
    cases step with
    | tick later => exact .inl dead
    | wrote alive =>
      dsimp only at dead
      rw [Connection.afterWrite_live] at dead
      exact .inl dead
    | flushing alive => exact .inl dead
    | flushed alive => exact .inl dead
    | disconnected => exact .inr ⟨_, .refl, rfl⟩
    | pinged alive => exact .inl dead
  | upkeep step => cases step <;> exact .inl dead
  | opening step => cases step <;> exact .inl dead
  | handled packet alive quiet =>
    obtain ⟨taken, state, handled, same | same⟩ := before.self.handle_cases packet
    · dsimp only at dead
      rw [same] at dead
      exact .inl dead
    · refine .inr ⟨_, handled.change, ?_⟩
      dsimp only
      rw [same]
      rfl
  | admitted admissible =>
    dsimp only at dead
    rw [Connection.enlist_live] at dead
    exact .inl dead
  | direct ready => exact .inl dead
  | broken ready => exact .inr ⟨_, .refl, rfl⟩
  | opened => exact .inr ⟨_, .refl, rfl⟩
  | reset closed => exact .inl closed
  | connected closed later sized reserved quota limit state =>
    subst state
    simp [Connection.mapSession] at dead

/-- An admitted operation is put on file. -/
theorem Admits.archived {before after : ClientMoment} {files : List Filed}
    (admits : Admits before after) (archived : Archived files before) :
    ∃ files', Archived files' after := by
  obtain ⟨kind, packetId, packet, buf, retained, admissible, self, trace⟩ := admits
  obtain ⟨stored, roomy, known, -⟩ := archived
  have outbound : after.self.outbound = { before.self.outbound with buf, retained } := by
    rw [self, Connection.enlist_outbound]
  have record : admissions after.trace =
      admissions before.trace ++ [⟨kind, packetId, packet⟩] := by
    rw [trace, admissions_append]
    rfl
  have filed := stored.enlist (admissions before.trace).length admissible.legal admissible.slot
    admissible.kept admissible.placed
  refine ⟨_, outbound ▸ filed, ?_, ?_, fun dead => ?_⟩
  · have size := admissible.kept.size
    have room := admissible.room
    have workspace := roomy.workspace
    have bytes : ({ before.self.outbound with buf, retained } : Outbound).retainedBytes =
        before.self.outbound.retainedBytes + packet.length := by
      simp [Outbound.retainedBytes, Outbound.bytesOf, FixedVec.toList_of_push admissible.slot]
    rw [outbound]
    refine ⟨by dsimp only; omega, ?_⟩
    rw [bytes]
    unfold Outbound.retainedCapacity at room ⊢
    dsimp only
    omega
  · rw [record, List.map_append]
    refine known.enlist _ fun origin found same => ?_
    obtain ⟨file, old, rfl⟩ := List.mem_map.mp found
    -- The identifier of a packet on file is in use.
    have listed : file.key ∈ before.self.outbound.retained.toList.map RetainedPacket.key := by
      rw [stored.entries]
      exact List.mem_map_of_mem old
    obtain ⟨entry, present, key⟩ := List.mem_map.mp listed
    have used : packetId ∈ before.self.outbound.packetIds := by
      refine List.mem_append_left _ (List.mem_map.mpr ⟨entry, present, ?_⟩)
      exact (congrArg (fun key => key.2.1) key).trans same
    rw [← SessionData.isLive_iff, admissible.unused] at used
    simp at used
  · rw [self, Connection.enlist_live, admissible.alive] at dead
    simp at dead

/-- Every transition keeps the retained packets on file and on record. -/
theorem Step.archived {before after : ClientMoment} (step : Step τ before after)
    (archived : ∃ files, Archived files before) : ∃ files, Archived files after := by
  -- A connection that ends marks its files; what was marked stays so until the next one.
  obtain ⟨files, archived⟩ := archived
  rcases step.change with ⟨changes, record⟩ | admits
  · by_cases dead : after.self.live = false
    · rcases step.armed_of_dead dead with closed | ⟨middle, changes, same⟩
      · obtain ⟨files', stored, roomy, fewer, armed⟩ :=
          changes.stored archived.stored archived.roomy
        exact ⟨files', stored, roomy, record ▸ archived.known.sublist fewer,
          fun _ => armed (archived.armed closed)⟩
      · obtain ⟨files', stored, roomy, fewer, -⟩ := changes.stored archived.stored archived.roomy
        refine ⟨files'.map Filed.remark, same ▸ stored.armReplay, same ▸ Change.armed.roomy stored roomy,
          ?_, fun _ file found => ?_⟩
        · rw [record, List.map_map]
          exact archived.known.sublist fewer
        · obtain ⟨old, -, rfl⟩ := List.mem_map.mp found
          rfl
    · obtain ⟨files', stored, roomy, fewer, -⟩ := changes.stored archived.stored archived.roomy
      exact ⟨files', stored, roomy, record ▸ archived.known.sublist fewer,
        fun closed => absurd closed dead⟩
  · exact admits.archived archived

theorem Torn.archived {before after : ClientMoment} (torn : Torn before after)
    (known : ∃ files, Archived files before) : ∃ files, Archived files after := by
  obtain ⟨files, archived⟩ := known
  refine ⟨files, ?_, ?_, ?_, ?_⟩
  · exact torn.self ▸ archived.stored
  · exact torn.self ▸ archived.roomy
  · exact torn.admissions ▸ archived.known
  · exact torn.self ▸ archived.armed

theorem run_archived (config : ConfigBuilder) (clock : Clock) (calls : List (Invocation π τ)) :
    ∃ files, Archived files (run (start config clock) calls).moment := by
  refine run_keeps (P := fun moment => ∃ files, Archived files moment) ?_ Step.archived
    Torn.archived calls
  exact ⟨[], .nil rfl, ⟨Nat.zero_le _, Nat.zero_le _⟩, ⟨by simp, by simp, by simp⟩, by simp⟩

/-- Each entry of the queue has its file, whose bytes are found in the arena. -/
theorem Stored.slice {files : List Filed} {outbound : Outbound} (stored : Stored files outbound)
    {position : Nat} {entry : RetainedPacket}
    (found : outbound.retained.toList[position]? = some entry) :
    ∃ file, files[position]? = some file ∧ entry.key = file.key ∧
      outbound.retainedPacket (Outbound.bytesOf (outbound.retained.toList.take position))
        entry.len = file.bytes := by
  -- Entries and files are in step, so the bytes in front add up to the offset.
  have keys := congrArg (·[position]?) stored.entries
  simp only [List.getElem?_map, found, Option.map_some] at keys
  obtain ⟨file, listed, key⟩ := Option.map_eq_some_iff.mp keys.symm
  refine ⟨file, listed, key.symm, ?_⟩
  obtain ⟨within, here⟩ := List.getElem?_eq_some_iff.mp listed
  have front : Outbound.bytesOf (outbound.retained.toList.take position) =
      ((files.take position).map Filed.bytes).flatten.length :=
    bytesOf_eq (by rw [List.map_take, List.map_take, stored.entries])
  have len : entry.len = file.bytes.length := by
    rw [Filed.length_bytes]
    exact (congrArg (fun key => key.2.2) key).symm
  have packed := stored.packed
  rw [← List.take_append_drop position files, List.drop_eq_getElem_cons within, here,
    List.map_append, List.map_cons] at packed
  rw [front, len]
  exact packed.slice

/--
In every run the retained packets lie in the arena as they were encoded, in front of the reserved
room.

Only the DUP flag of a publication may have been set since.
-/
theorem run_arena_exact (config : ConfigBuilder) (clock : Clock) (calls : List (Invocation π τ)) :
    let world := run (start config clock) calls
    let outbound := world.self.outbound
    outbound.connectWorkspace ≤ outbound.buf.length ∧
    outbound.retainedBytes ≤ outbound.buf.length - outbound.connectWorkspace ∧
    ∀ position entry, outbound.retained.toList[position]? = some entry →
      let offset := Outbound.bytesOf (outbound.retained.toList.take position)
      ∃ admission, latestAdmission world.trace entry.packetId = some admission ∧
        admission.kind = entry.kind ∧ admission.packet.length = entry.len ∧
        (outbound.retainedPacket offset entry.len = admission.packet ∨
          entry.kind.isPublish = true ∧
            outbound.retainedPacket offset entry.len = duplicate admission.packet) := by
  -- The file of the entry is the latest admission, with or without the mark.
  intro world outbound
  obtain ⟨files, archived⟩ := run_archived config clock calls
  have stored : Stored files outbound := archived.stored
  refine ⟨archived.roomy.workspace, archived.roomy.retained, fun position entry found => ?_⟩
  obtain ⟨file, listed, key, slice⟩ := stored.slice found
  have filed := List.mem_of_getElem? listed
  obtain ⟨kind, packetId, len⟩ : entry.kind = file.admission.kind ∧
      entry.packetId = file.admission.packetId ∧ entry.len = file.admission.packet.length := by
    simpa [RetainedPacket.key, Filed.key] using key
  refine ⟨file.admission, ?_, kind.symm, len.symm, ?_⟩
  · rw [packetId]
    exact archived.known.find_eq (List.mem_map_of_mem (f := Filed.origin) filed)
  · rw [slice, Filed.bytes]
    split
    · rename_i marked
      exact .inr ⟨kind ▸ stored.publish file filed marked, rfl⟩
    · exact .inl rfl

end Minimq

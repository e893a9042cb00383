import Minimq.Proofs.Client.Backlog

/-! Which retained packets a connection starts to write, and in which order. -/

namespace Minimq

open Async History

variable {π τ : Type}

/-- The packet of an operation as it is sent again: a publication has its DUP flag set. -/
def Admission.replay (admission : Admission) : Bytes :=
  if admission.kind.isPublish then duplicate admission.packet else admission.packet

/-- The identifier and the bytes of a retained packet. -/
def RetainedPacket.piece (content : RetainedPacket × Bytes) : UInt16 × Bytes :=
  (content.1.packetId, content.2)

/-- The retained packets that are still to be started, in order. -/
def Outbound.unstarted (outbound : Outbound) : List (UInt16 × Bytes) :=
  (outbound.contents.filter fun content => content.1.state == .write 0).map RetainedPacket.piece

/-- The retained packet whose first bytes an occurrence writes, if it does. -/
def startOf : Happening Event → Option (UInt16 × Bytes)
  | .noted (.wrote (.retained packetId) bytes 0 _) => some (packetId, bytes)
  | _ => none

/-- The retained packets that were started, in order. -/
def starts (events : List (Happening Event)) : List (UInt16 × Bytes) := events.filterMap startOf

/--
The retained packets of a connection, in the order of their admission.

Those that it began with are followed by those that were admitted on it.
-/
def roster (state : Handling) (back : List (Happening Event)) : List (UInt16 × Bytes) :=
  state.data.outbound.contents.map RetainedPacket.piece ++
    (admissions back).map fun admission => (admission.packetId, admission.packet)

theorem Filed.bytes_of_remark {file : Filed} (same : file.remark = file) :
    file.bytes = file.admission.replay := by
  have marked : file.marked = file.admission.kind.isPublish := (congrArg Filed.marked same).symm
  rw [bytes, Admission.replay, marked]

/-- The packets of the queue lie in the arena as they are on file. -/
theorem Stored.contentsFrom_eq {front : List Bytes} {entries : List RetainedPacket}
    {files : List Filed} {buf : Bytes}
    (same : entries.map RetainedPacket.key = files.map Filed.key)
    (packed : Arena.Packed (front ++ files.map Filed.bytes) buf) :
    (Outbound.contentsFrom buf front.flatten.length entries).map RetainedPacket.piece =
      files.map fun file => (file.admission.packetId, file.bytes) := by
  induction entries generalizing front files with
  | nil =>
    obtain rfl : files = [] := by simpa using same.symm
    rfl
  | cons entry rest ih =>
    cases files with
    | nil => simp at same
    | cons file more =>
      simp only [List.map_cons, List.cons.injEq] at same packed
      obtain ⟨-, packetId, len⟩ : entry.kind = file.admission.kind ∧
          entry.packetId = file.admission.packetId ∧ entry.len = file.admission.packet.length := by
        simpa [RetainedPacket.key, Filed.key] using same.1
      have first : (buf.drop front.flatten.length).take entry.len = file.bytes := by
        rw [len, ← file.length_bytes]
        exact packed.slice
      -- The next packet starts behind this one.
      have others := @ih (front ++ [file.bytes]) more same.2 (by simpa using packed)
      rw [List.flatten_append, List.length_append, List.flatten_singleton, file.length_bytes,
        ← len] at others
      simp only [Outbound.contentsFrom, List.map_cons, RetainedPacket.piece, packetId, first] at others ⊢
      rw [others]

theorem Stored.contents_eq {files : List Filed} {outbound : Outbound}
    (stored : Stored files outbound) : outbound.contents.map RetainedPacket.piece =
      files.map fun file => (file.admission.packetId, file.bytes) :=
  @contentsFrom_eq [] _ _ _ stored.entries stored.packed

/-- Packets on record were admitted in their order. -/
theorem OnRecord.admitted_sublist {record : List Admission} {origins : List (Nat × Admission)}
    (known : OnRecord record origins) : (origins.map Prod.snd).Sublist record := by
  -- Every packet is found behind the one before it.
  have general (start : Nat) (bound : ∀ origin ∈ origins, start ≤ origin.1)
      (admitted : ∀ origin ∈ origins, record[origin.1]? = some origin.2)
      (ordered : (origins.map Prod.fst).Pairwise (· < ·)) :
      (origins.map Prod.snd).Sublist (record.drop start) := by
    clear known
    induction origins generalizing start with
    | nil => exact List.nil_sublist _
    | cons origin rest ih =>
      rw [List.map_cons, List.pairwise_cons] at ordered
      obtain ⟨within, here⟩ := List.getElem?_eq_some_iff.mp (admitted origin (.head _))
      have later := ih (origin.1 + 1)
        (fun other found => ordered.1 other.1 (List.mem_map_of_mem found))
        (fun other found => admitted other (.tail _ found)) ordered.2
      have first := bound origin (.head _)
      have split : record.drop start =
          (record.drop start).take (origin.1 - start) ++ origin.2 :: record.drop (origin.1 + 1) := by
        rw [← here, ← List.drop_eq_getElem_cons within]
        nth_rewrite 1 [← List.take_append_drop (origin.1 - start) (record.drop start)]
        rw [List.drop_drop, Nat.add_sub_cancel' first]
      rw [List.map_cons, split]
      exact (later.cons_cons _).trans (List.sublist_append_right _ _)
  exact general 0 (fun _ _ => Nat.zero_le _) known.admitted known.ordered

/-- Without a transport, the retained packets are those of the record, as they are sent again. -/
theorem Archived.replays {files : List Filed} {moment : ClientMoment}
    (archived : Archived files moment) (dead : moment.self.live = false) :
    ∃ admitted : List Admission, admitted.Sublist (admissions moment.trace) ∧
      moment.self.outbound.contents.map RetainedPacket.piece =
        admitted.map fun admission => (admission.packetId, admission.replay) := by
  refine ⟨files.map Filed.admission, ?_, ?_⟩
  · have part := archived.known.admitted_sublist
    rw [List.map_map] at part
    exact part
  · rw [archived.stored.contents_eq, List.map_map]
    refine List.map_congr_left fun file found => ?_
    rw [Function.comp_apply, Filed.bytes_of_remark (archived.armed dead file found)]

namespace Outbound

variable {outbound : Outbound} {step : OutboundStep}

theorem unstarted_completeFlush : outbound.completeFlush.unstarted = outbound.unstarted := by
  -- A flush never turns a packet into one to be started.
  have state (state : SendState) : (flushedState state == .write 0) = (state == .write 0) := by
    cases state <;> rfl
  simp only [unstarted, contents, completeFlush, FixedVec.toList_map]
  rw [contentsFrom_map (fun entry => { entry with state := flushedState entry.state }) fun _ => rfl,
    List.filter_map, List.map_map]
  simp only [Function.comp_def, state]
  rfl

theorem unstarted_of_armed (armed : outbound.Holds (· = .write 0) (· = .write 0)) :
    outbound.unstarted = outbound.contents.map RetainedPacket.piece := by
  -- Every packet passes the filter, as all are to be started.
  refine congrArg (List.map _) (List.filter_eq_self.mpr fun content found => ?_)
  have entry : content.1 ∈ outbound.retained.toList := by
    rw [← map_fst_contentsFrom outbound.buf 0 outbound.retained.toList]
    exact List.mem_map_of_mem found
  rw [armed.retained content.1 entry]
  rfl

/-- The packets that are to be started around one of the retained packets. -/
theorem unstarted_of_retained {front back : List RetainedPacket} {entry : RetainedPacket}
    (split : outbound.retained.toList = front ++ entry :: back) :
    outbound.unstarted =
      ((contentsFrom outbound.buf 0 front).filter fun content =>
        content.1.state == .write 0).map RetainedPacket.piece ++
      ((if entry.state == .write 0 then
        [(entry.packetId, outbound.retainedPacket (bytesOf front) entry.len)] else []) ++
      ((contentsFrom outbound.buf (bytesOf front + entry.len) back).filter fun content =>
        content.1.state == .write 0).map RetainedPacket.piece) := by
  rw [unstarted, contents, split, contentsFrom_append, Nat.zero_add, contentsFrom, List.filter_append,
    List.map_append, List.filter_cons]
  split <;> rfl

theorem map_snd_retainedSlots (offset : Nat) (entries : List RetainedPacket) :
    (retainedSlots offset entries).map Prod.snd = entries.map (·.state) := by
  induction entries generalizing offset with
  | nil => rfl
  | cons entry rest ih => rw [retainedSlots, List.map_cons, List.map_cons, ih]

/-- Nothing in front of the packet that is started is to be started. -/
theorem unstarted_of_passed {front : List RetainedPacket} {offset : Nat} {buf : Bytes}
    (passed : ∀ slot ∈ retainedSlots offset front, Slot.pick false slot = none) :
    ((contentsFrom buf offset front).filter fun content => content.1.state == .write 0) = [] := by
  -- A packet that is to be started would have been picked in this pass.
  rw [List.filter_eq_nil_iff]
  intro content member fresh
  have entry : content.1 ∈ front := by
    rw [← map_fst_contentsFrom buf offset front]
    exact List.mem_map_of_mem member
  have state : content.1.state ∈ (retainedSlots offset front).map Prod.snd := by
    rw [map_snd_retainedSlots]
    exact List.mem_map_of_mem entry
  obtain ⟨slot, listed, same⟩ := List.mem_map.mp state
  have none := passed slot listed
  rw [Slot.pick, same, beq_iff_eq.mp fresh] at none
  cases none

/-- A write starts the first packet that is to be started, or none. -/
theorem unstarted_setWritten {count : Nat} (identified : outbound.Identified)
    (next : outbound.nextStep = some step) (positive : 0 < count) (accepted : Bytes) :
    starts [.accepted accepted,
        .noted (.wrote step.packet (outbound.load step).bytes step.written count)] ++
      (outbound.setWritten (step.written + count) (outbound.load step).bytes.length
        step.packet).unstarted = outbound.unstarted := by
  cases (at_of_nextStep next).1 with
  | control found => rfl
  | release found => rfl
  | @retained front back kind packetId len written found =>
    have distinct := (List.nodup_append.mp identified.distinct).1
    have changed := @retained_setRetainedWritten (.write written) packetId outbound front back kind
      len (written + count)
      (outbound.load (.retained packetId (bytesOf front) len written)).bytes.length distinct found
    have moved : (SendState.setWritten (written + count)
        (outbound.load (.retained packetId (bytesOf front) len written)).bytes.length ==
          .write 0) = false := by
      unfold SendState.setWritten
      split
      · rfl
      · simp only [beq_eq_false_iff_ne, ne_eq, SendState.write.injEq]
        omega
    have after := unstarted_of_retained changed
    simp only [moved, Bool.false_eq_true, if_false, List.nil_append] at after
    rw [unstarted_of_retained found]
    cases written with
    | succ written => exact after
    | zero =>
      -- It is the first packet that is to be started.
      have passed := passed_of_nextStep identified next rfl (slots_of_retained found)
      have none (buf : Bytes) := @unstarted_of_passed front 0 buf fun slot member =>
        passed slot (List.mem_append_right _ (List.mem_append_right _ member))
      rw [none] at after
      rw [none]
      exact congrArg ((packetId, _) :: ·) after

end Outbound

/-- An inbound packet removes retained packets only. -/
theorem Handled.contents {packet : ReceivedPacket} {before after : Handling} {taken : Taken}
    (handled : Handled packet before taken after)
    (inside : before.data.outbound.retainedBytes ≤ before.data.outbound.buf.length) :
    after.data.outbound.contents.Sublist before.data.outbound.contents := by
  -- An acknowledged packet leaves, and the bytes of the others are the same.
  have acks {kind : OpKind} {packetId : UInt16} {outbound : Outbound}
      (done : before.data.outbound.ackPacket kind packetId = some outbound) :
      outbound.contents.Sublist before.data.outbound.contents := by
    obtain ⟨front, gone, back, was, -, -, left, -⟩ := Outbound.contents_of_ackPacket inside done
    rw [was, left]
    exact (List.sublist_cons_self _ _).append_left _
  cases handled.requeued with
  | same kept => exact kept ▸ .refl _
  | acked done => exact acks done
  | released done released =>
    have removed := acks done
    obtain ⟨releases, same, -⟩ := Outbound.releases_of_queueRelease released
    rw [same]
    exact removed
  | completed done =>
    obtain ⟨gone, -, -, kept⟩ := Outbound.releases_of_ackRelease done
    rw [kept]
    exact .refl _
  | queued done _ =>
    obtain ⟨controls, same, -⟩ := Outbound.controls_of_queueControl done
    rw [same]
    exact .refl _

/-- An admitted packet is the last one that is to be started. -/
theorem Admissible.unstarted {connection : Connection} {kind : OpKind} {packetId : UInt16}
    {packet buf : Bytes} {retained : FixedVec RetainedPacket maxRetained}
    (admissible : Admissible connection kind packetId packet buf retained) :
    (connection.enlist kind buf retained).outbound.unstarted =
      connection.outbound.unstarted ++ [(packetId, packet)] := by
  have new : ({ connection.outbound with buf, retained } : Outbound).contents =
      connection.outbound.contents ++ [(⟨kind, packetId, packet.length, .write 0⟩, packet)] := by
    rw [Outbound.contents, FixedVec.toList_of_push admissible.slot, Outbound.contentsFrom_append,
      Connection.contents_of_same admissible.kept, Nat.zero_add]
    exact congrArg (fun bytes => _ ++ [(_, bytes)]) admissible.placed
  rw [Connection.enlist_outbound, Outbound.unstarted, new, List.filter_append, List.map_append]
  rfl

/--
The packets that a connection started, and those that it is to start, are in the order of admission.
-/
def Lined : Chronicle := fun connection front state _ back =>
  (∃ admitted : List Admission, admitted.Sublist (admissions front) ∧
    state.data.outbound.contents.map RetainedPacket.piece =
      admitted.map fun admission => (admission.packetId, admission.replay)) ∧
  (starts back).Sublist (roster state back) ∧
  (connection.live = true →
    (starts back ++ connection.outbound.unstarted).Sublist (roster state back))

section Lined

variable {base events : List (Happening Event)} {before after : ClientMoment}

/-- An occurrence that neither starts a retained packet nor admits one. -/
def Idles (event : Happening Event) : Prop :=
  startOf event = none ∧ admissionOf event = none ∧ ¬ Starts event

theorem Routine.idles {event : Happening Event} (routine : Routine event) : Idles event := by
  refine ⟨?_, ?_, routine.not_starts⟩ <;> cases routine <;> rfl

theorem idle_append {state : Handling} {back : List (Happening Event)}
    (idles : ∀ event ∈ events, Idles event) :
    starts (back ++ events) = starts back ∧ roster state (back ++ events) = roster state back := by
  have none : starts events = [] := List.filterMap_eq_nil_iff.mpr fun event found =>
    (idles event found).1
  have unadmitted : admissions events = [] := List.filterMap_eq_nil_iff.mpr fun event found =>
    (idles event found).2.1
  rw [starts, List.filterMap_append, roster, admissions_append, unadmitted, List.append_nil]
  exact ⟨(congrArg (starts back ++ ·) none).trans (List.append_nil _), rfl⟩

/-- Nothing is started or admitted, and what is to be started may be acknowledged. -/
theorem Throughout.idle (all : Throughout Lined base before)
    (trace : after.trace = before.trace ++ events) (idles : ∀ event ∈ events, Idles event)
    (fewer : after.self.live = true → before.self.live = true ∧
      after.self.outbound.unstarted.Sublist before.self.outbound.unstarted) :
    Throughout Lined base after := by
  refine all.append trace (fun event found => (idles event found).2.2) ?_
  intro front state ack back latest known
  obtain ⟨first, part, now⟩ := known
  obtain ⟨same, roster⟩ := @idle_append events state back idles
  refine ⟨first, by rwa [same, roster], fun live => ?_⟩
  obtain ⟨alive, fewer⟩ := fewer live
  rw [same, roster]
  exact (fewer.append_left _).trans (now alive)

/-- Writing, flushing and keepalive start the retained packets in their order. -/
theorem Outflow.lined (step : Outflow τ before after) (grounded : Grounded before)
    (all : Throughout Lined base before) : Throughout Lined base after := by
  cases step with
  | tick later => exact all
  | @wrote step current count now alive idle next encoded positive within later =>
    refine all.append rfl (by simp [Starts]) ?_
    intro front state ack back latest known
    obtain ⟨first, part, line⟩ := known
    have loaded : current = before.self.outbound.load step := writeStep_eq_load encoded
    subst loaded
    have order := Outbound.unstarted_setWritten grounded.identified next positive
      (((before.self.outbound.load step).bytes.drop
        (before.self.outbound.load step).written).take count)
    rw [Outbound.load_written] at order
    rw [Outbound.load_packet, Outbound.load_written]
    -- What is started is taken from the front of what was to be started.
    have line := line alive
    rw [← order, ← List.append_assoc, starts, starts, ← List.filterMap_append] at line
    have same : roster state (back ++ [.accepted
        (((before.self.outbound.load step).bytes.drop step.written).take count), .noted
          (.wrote step.packet (before.self.outbound.load step).bytes step.written count)]) =
        roster state back := by
      rw [roster, admissions_append]
      exact congrArg (fun added => _ ++ List.map _ added) (List.append_nil _)
    unfold Lined
    rw [same]
    refine ⟨first, (List.sublist_append_left _ _).trans line, fun _ => ?_⟩
    dsimp only
    rw [Connection.afterWrite_outbound, Outbound.load_packet, Outbound.load_written]
    exact line
  | flushing alive ready =>
    exact all.idle rfl (by simpa using Routine.flushing.idles) fun _ => ⟨alive, .refl _⟩
  | @flushed now alive flushing later =>
    refine all.idle rfl (by simpa using ⟨Routine.flushed.idles, (Routine.active now).idles⟩)
      fun _ => ⟨alive, ?_⟩
    have same : (before.self.afterFlush now).outbound.unstarted = before.self.outbound.unstarted :=
      Outbound.unstarted_completeFlush
    rw [same]
  | disconnected => exact all.idle (List.append_nil _).symm (by simp) fun live => by cases live
  | pinged alive quiet due queued =>
    obtain ⟨controls, rfl, -⟩ := Outbound.controls_of_queueControl queued
    exact all.idle (List.append_nil _).symm (by simp) fun _ => ⟨alive, .refl _⟩

/-- Reading and encoding start and admit nothing. -/
theorem Upkeep.lined (step : Upkeep before after) (all : Throughout Lined base before) :
    Throughout Lined base after := by
  cases step with
  | @reading reader chunks =>
    refine all.idle rfl (fun event found => ?_) fun live => ⟨live, .refl _⟩
    obtain ⟨bytes, -, rfl⟩ := List.mem_map.mp found
    exact (Routine.received bytes).idles
  | @scratched buf kept =>
    -- The arena is written behind the retained packets only.
    refine all.idle (List.append_nil _).symm (by simp) fun live => ⟨live, ?_⟩
    have same : (before.self.mapOutbound fun outbound =>
        { outbound with buf }).outbound.contents = before.self.outbound.contents :=
      Connection.contents_of_same kept
    unfold Outbound.unstarted
    rw [same]
  | skipped => exact all.idle (List.append_nil _).symm (by simp) fun live => ⟨live, .refl _⟩

/-- An inbound packet may only take packets from those that are to be started. -/
theorem Grounded.unstarted_handle (grounded : Grounded before) {packet : ReceivedPacket}
    (live : (before.self.handle packet).1.live = true) :
    (before.self.handle packet).1.outbound.unstarted.Sublist before.self.outbound.unstarted := by
  obtain ⟨files, archived⟩ := grounded.archived
  have inside : before.self.outbound.retainedBytes ≤ before.self.outbound.buf.length :=
    Nat.le_trans archived.roomy.retained (Nat.sub_le _ _)
  obtain ⟨taken, state, handled, same | same⟩ := before.self.handle_cases packet
  · rw [same]
    exact ((handled.contents inside).filter _).map _
  · rw [same] at live
    cases live

/-- An admitted packet comes behind all others, in the queue and in the record. -/
theorem Throughout.admitted (all : Throughout Lined base before) {kind : OpKind}
    {packetId : UInt16} {packet buf : Bytes} {retained : FixedVec RetainedPacket maxRetained}
    (admissible : Admissible before.self kind packetId packet buf retained)
    (trace : after.trace = before.trace ++
      [.noted (.admitted before.self.session.handling kind packetId packet)])
    (self : after.self = before.self.enlist kind buf retained) : Throughout Lined base after := by
  -- The connection goes on, with one more packet to be started.
  refine all.append trace (by simp [Starts]) ?_
  intro front state ack back latest known
  obtain ⟨first, part, line⟩ := known
  have same : starts (back ++ [.noted (.admitted before.self.session.handling kind packetId
      packet)]) = starts back := by
    rw [starts, List.filterMap_append]
    exact List.append_nil _
  have more : roster state (back ++ [.noted (.admitted before.self.session.handling kind packetId
      packet)]) = roster state back ++ [(packetId, packet)] := by
    rw [roster, admissions_append, List.map_append, ← List.append_assoc]
    rfl
  unfold Lined
  rw [same, more, self]
  refine ⟨first, part.trans (List.sublist_append_left _ _), fun _ => ?_⟩
  rw [admissible.unstarted, ← List.append_assoc]
  exact (line admissible.alive).append (.refl _)

/-- A connection begins with all retained packets still to be started. -/
theorem Throughout.begun (all : Throughout Lined base before) (grounded : Grounded before)
    {now : Nat} {ack : ConnAck} (closed : before.self.live = false)
    (contents : after.self.outbound = before.self.outbound)
    (trace : after.trace = before.trace ++
      [.noted (.active now), .noted (.connected after.self.session.handling ack)]) :
    Throughout Lined base after := by
  obtain ⟨files, archived⟩ := grounded.archived
  obtain ⟨admitted, part, same⟩ := archived.replays closed
  have armed := Outbound.unstarted_of_armed (grounded.sparse.tidy.armed closed)
  have held : after.self.session.handling.data.outbound = before.self.outbound := contents
  refine all.connected trace ?_ ⟨⟨admitted, ?_, ?_⟩, List.nil_sublist _, fun _ => ?_⟩
  · -- The connection before it has ended and gets no more packets.
    intro front state ack back known
    obtain ⟨first, part, line⟩ := known
    obtain ⟨same, roster⟩ := @idle_append [.noted (.active now)] state back
      (by simpa using (Routine.active now).idles)
    unfold Lined
    rw [same, roster]
    exact ⟨first, part, line⟩
  · rw [admissions_append]
    exact part.trans (List.sublist_append_left _ _)
  · rw [held]
    exact same
  · rw [contents, armed, roster, held]
    exact List.sublist_append_left _ _

/-- Every transition starts the retained packets in their order. -/
theorem Step.lined (step : Step τ before after) (grounded : Grounded before)
    (all : Throughout Lined base before) : Throughout Lined base after := by
  -- Only a write starts a packet, and only an admission adds one.
  cases step with
  | outflow step => exact step.lined grounded all
  | upkeep step => exact step.lined all
  | opening step =>
    exact all.opening step fun trace => all.idle trace (by simp) fun live =>
      absurd (step.dead.symm.trans live) Bool.false_ne_true
  | handled packet alive quiet =>
    exact all.idle rfl (by simp [Idles, startOf, admissionOf, Starts]) fun live =>
      ⟨alive, grounded.unstarted_handle live⟩
  | admitted admissible => exact all.admitted admissible rfl rfl
  | direct ready whole later =>
    exact all.idle rfl (fun event found => (routine_whole event found).idles)
      fun _ => ⟨ready.alive, .refl _⟩
  | broken ready part =>
    exact all.idle rfl (fun event found => (part.routine event found).idles)
      fun live => by cases live
  | opened => exact all.opened rfl
  | reset closed =>
    refine all.idle rfl (by simp [Idles, startOf, admissionOf, Starts]) fun live => ?_
    have live : before.self.live = true := live
    rw [closed] at live
    cases live
  | connected closed later sized reserved quota limit state =>
    subst state
    exact all.begun grounded closed rfl rfl

theorem Move.lined (move : Move τ before after) (grounded : Grounded before)
    (all : Throughout Lined base before) : Throughout Lined base after := by
  cases move with
  | step step => exact step.lined grounded all
  -- A dropped write starts and admits no tracked packet.
  | torn dropped =>
    cases dropped with
    | torn ready part =>
      exact all.idle rfl (fun event found => (part.routine event found).idles)
        fun live => ⟨live, .refl _⟩

end Lined

/-- In every run the retained packets of each connection are started in the order of admission. -/
theorem run_lined (config : ConfigBuilder) (clock : Clock) (calls : List (Invocation π τ)) :
    Throughout Lined [] (run (start config clock) calls).moment := by
  have told : Grounded (run (start config clock) calls).moment ∧
      Throughout Lined [] (run (start config clock) calls).moment := by
    refine run_moves (P := fun moment => Grounded moment ∧ Throughout Lined [] moment)
      ⟨run_grounded config clock ([] : List (Invocation π τ)), Told.nil⟩ ?_ calls
    intro before after move ⟨grounded, all⟩
    exact ⟨move.grounded grounded, move.lined grounded all⟩
  exact told.2

end Minimq

import Minimq.Proofs.Client.Forget
import Minimq.Proofs.Client.ReleaseOrder
import Minimq.Proofs.Client.Roster

/-! A resumed session is replayed: every tracked packet is written once, in order. -/

namespace Minimq

open Hoare Async History

variable {π τ : Type} {world : ClientWorld τ}

/-- Two outbound states with the same packets, wherever the scratch space is used or reserved. -/
structure Outbound.SamePackets (before after : Outbound) : Prop where
  /-- The control packets are the same. -/
  controls : after.pendingControl = before.pendingControl
  /-- The releases are the same. -/
  releases : after.pendingRelease = before.pendingRelease
  /-- The retained packets are the same. -/
  retained : after.retained = before.retained
  /-- So are their bytes. -/
  kept : SameUpTo before.retainedBytes before.buf after.buf

namespace Outbound.SamePackets

variable {before middle after outbound : Outbound}

theorem refl : outbound.SamePackets outbound := ⟨rfl, rfl, rfl, rfl, rfl⟩

theorem trans (first : before.SamePackets middle) (second : middle.SamePackets after) :
    before.SamePackets after := by
  have bytes : middle.retainedBytes = before.retainedBytes := by
    rw [retainedBytes, retainedBytes, first.retained]
  have kept := second.kept
  rw [bytes] at kept
  exact ⟨second.controls.trans first.controls, second.releases.trans first.releases,
    second.retained.trans first.retained, kept.size.trans first.kept.size,
    kept.kept.trans first.kept.kept⟩

theorem holds {control tracked : SendState → Prop} (same : before.SamePackets after)
    (all : before.Holds control tracked) : after.Holds control tracked :=
  ⟨same.controls ▸ all.control, same.releases ▸ all.release, same.retained ▸ all.retained⟩

theorem stored {files : List Filed} (same : before.SamePackets after)
    (stored : Stored files before) : Stored files after :=
  stored.of_same (by rw [same.retained]) same.kept

end Outbound.SamePackets

/-- The connection request is sent from the scratch space. -/
theorem sendConnect_packets :
    wp (sendConnect : Client τ (Error τ) Nat)
      (fun _ after => world.self.outbound.SamePackets after.self.outbound) (fun _ _ => True)
      world := by
  -- The request is written behind the retained packets.
  unfold sendConnect
  simp only [currentSession, updateOutbound, wp_bind, wp_self, wp_pure, wp_update]
  unfold Session.connectEncoding
  obtain ⟨body, offset, bytes, scratch, result, size, -, -⟩ | ⟨error, scratch, result, size, -⟩ :=
    encodeWithOffset_cases world.self.session.data.outbound.scratchSpace
      world.self.session.connectPacket
  · simp only [result, wp_bind]
    have room : scratch.length ≤
        world.self.outbound.buf.length - world.self.outbound.retainedBytes := by
      rw [size, Outbound.scratchSpace, List.length_drop]
    refine wp_mono (writeAll_leaves bytes) (fun _ after same => ?_) (fun _ _ _ => trivial)
    rw [wp_bind]
    refine wp_flush (fun _ _ _ => trivial) (fun rest _ => ?_) (fun _ => trivial) (fun _ _ => trivial)
    show world.self.outbound.SamePackets after.self.outbound
    rw [same.1]
    exact ⟨rfl, rfl, rfl, .overwrite room⟩
  · simp only [result, wp_fail]

theorem receiveConnAck_packets :
    wp (receiveConnAck : Client τ (Error τ) ConnAck)
      (fun _ after => after.self.outbound = world.self.outbound) (fun _ _ => True) world := by
  -- Only the reader changes while the answer is awaited.
  unfold receiveConnAck
  rw [wp_bind, wp_attempt]
  refine wp_mono fillPacketReader_spec (fun _ after done => ?_) (fun stop after _ => ?_)
  · have same : after.self.outbound = world.self.outbound := by
      obtain ⟨reader, chunks, moved⟩ := done.1
      rw [show after.self = _ from congrArg Moment.self moved]
      rfl
    simp only [onPacketReader, wp_bind, wp_zoom]
    refine wp_mono (PacketReader.takePacket_decodes (τ := τ)) (fun taken reader _ => ?_)
      (fun error reader _ => trivial)
    obtain ⟨length, packet⟩ := taken
    cases packet with
    | connAck ack => exact same
    | _ => trivial
  · cases stop <;> trivial

/-- Taking over an answer keeps the packets if the session is resumed. -/
theorem adoptConnAck_packets (connectWorkspace : Nat) (ack : ConnAck) :
    wp (adoptConnAck connectWorkspace ack : Client τ (Error τ) ConnectEvent)
      (fun event after => after.self.runtime.DueAfter after.time ∧
        (event = .reconnected → world.self.outbound.SamePackets after.self.outbound))
      (fun _ _ => True) world := by
  unfold adoptConnAck ReasonCode.asResult
  by_cases success : ack.reasonCode.isSuccess = true
  · simp only [if_pos success, wp_bind]
    -- A session that is not resumed is reported as such.
    have resumed : wp (resumeOrReset ack : Client τ (Error τ) Unit)
        (fun _ after => ack.sessionPresent = true → after.self.outbound = world.self.outbound)
        (fun _ _ => False) world := by
      unfold resumeOrReset
      cases ack.sessionPresent with
      | true => exact fun _ => rfl
      | false => exact fun no => by cases no
    refine wp_mono resumed (fun _ current same => ?_) (fun _ _ never => never.elim)
    simp only [currentSession, wp_bind, wp_self, wp_pure]
    split
    · simp only [disconnected, wp_bind, wp_update, wp_fail]
    · rename_i announced _
      simp only [updateSession, wp_bind, wp_update]
      have adopted : wp (adoptClientId connectWorkspace announced.assignedClientId :
          Client τ (Error τ) Unit)
          (fun _ after => ack.sessionPresent = true →
            world.self.outbound.SamePackets after.self.outbound) (fun _ _ => True)
          { current with self := current.self.mapSession fun session =>
            session.adoptLimits ack.sessionPresent announced } := by
        cases announced.assignedClientId with
        | none =>
          intro present
          show world.self.outbound.SamePackets current.self.outbound
          rw [same present]
          exact .refl
        | some clientId =>
          unfold adoptClientId
          rw [wp_bind]
          refine wp_mono (reserveWorkspace_leaves _) (fun _ after reserved => ?_)
            (fun _ _ _ => trivial)
          subst reserved
          intro present
          have kept := same present
          refine ⟨?_, ?_, ?_, ?_, ?_⟩
          all_goals
            rw [← kept]
            rfl
      refine wp_mono adopted (fun _ after kept => ?_) (fun _ _ => id)
      unfold activate
      simp only [updateData, updateRuntime, currentSession, wp_bind, wp_update, wp_now, wp_self,
        wp_pure, wp_note]
      refine ⟨rfl, fun event => kept ?_⟩
      cases present : ack.sessionPresent with
      | true => rfl
      | false =>
        rw [present] at event
        cases event
  · simp only [if_neg success, wp_fail]

/-- A connection begins with a new keepalive interval, and with the packets of a resumed session. -/
theorem connect_packets :
    wp (connect : Client τ (Error τ) ConnectEvent)
      (fun event after => after.self.live = true ∧ after.self.runtime.DueAfter after.time ∧
        (event = .reconnected →
          world.self.outbound.armReplay.SamePackets after.self.outbound))
      (fun _ _ => True) world := by
  unfold connect connectHandshake
  simp only [updateSession, wp_bind, wp_note, wp_update]
  refine wp_mono sendConnect_packets (fun workspace sent first => ?_) (fun _ _ => id)
  rw [wp_bind]
  refine wp_mono (reserveWorkspace_leaves workspace) (fun _ reserved same => ?_) (fun _ _ _ => trivial)
  subst same
  simp only [updateRuntime, wp_bind, wp_update]
  refine wp_mono receiveConnAck_packets (fun ack answered second => ?_) (fun _ _ => id)
  refine wp_mono (adoptConnAck_packets workspace ack) (fun event after done => ?_) (fun _ _ => id)
  refine ⟨rfl, done.1, fun resumed => ?_⟩
  -- Only the scratch space and the room reserved in it differ.
  have kept := done.2 resumed
  rw [second] at kept
  have first : world.self.outbound.armReplay.SamePackets sent.self.outbound := first
  refine Outbound.SamePackets.trans ?_ kept
  exact ⟨first.controls, first.releases, first.retained, first.kept⟩

/-- No PINGREQ becomes due up to an instant. -/
def Connection.Undue (connection : Connection) (limit : Nat) : Prop :=
  ∀ deadline, connection.runtime.nextPing = some deadline → limit < deadline

/-- No PINGREQ is due at such an instant. -/
theorem Connection.Undue.not_due {connection : Connection} {limit now : Nat}
    (undue : connection.Undue limit) (early : now ≤ limit) :
    shouldQueuePingreq connection.session now = false := by
  unfold shouldQueuePingreq
  cases next : connection.session.runtime.nextPing with
  | none => simp
  | some deadline =>
    have later : ¬ deadline ≤ now := by
      have := undue deadline next
      omega
    simp [later]

/-- The keepalive interval of a live connection was restarted in the past. -/
def Clocked (moment : ClientMoment) : Prop :=
  moment.self.live = true → ∃ now ≤ moment.time, moment.self.runtime.DueAfter now

section Outflow

variable {before after : ClientMoment} {limit : Nat}

theorem Outflow.time_le (step : Outflow τ before after) : before.time ≤ after.time := by
  cases step with
  | tick later => exact later
  | wrote alive idle next encoded positive within later => exact later
  | flushing alive ready => exact Nat.le_refl _
  | flushed alive flushing later => exact later
  | disconnected => exact Nat.le_refl _
  | pinged alive quiet due queued => exact Nat.le_refl _

theorem Flow.time_le (flow : Flow τ before after) : before.time ≤ after.time := by
  induction flow with
  | refl => exact Nat.le_refl _
  | tail _ step ih => exact Nat.le_trans ih step.time_le

/-- A write leaves the keepalive interval alone. -/
theorem Connection.afterWrite_interval {connection : Connection} {step : OutboundStep}
    {current : WriteStep} {count now : Nat} :
    (connection.afterWrite step current count now).runtime.nextPing =
        connection.runtime.nextPing ∧
      (connection.afterWrite step current count now).runtime.keepaliveInterval =
        connection.runtime.keepaliveInterval ∧
      (connection.afterWrite step current count now).runtime.maximumPacketSize =
        connection.runtime.maximumPacketSize := by
  unfold afterWrite
  dsimp only
  split <;> exact ⟨rfl, rfl, rfl⟩

/-- The keepalive interval is restarted at the present instant only. -/
theorem Outflow.clocked (step : Outflow τ before after) (clocked : Clocked before) :
    Clocked after := by
  -- Only a flush restarts the interval, and it does so at the clock's last reading.
  cases step with
  | tick later =>
    intro alive
    obtain ⟨now, past, due⟩ := clocked alive
    exact ⟨now, Nat.le_trans past later, due⟩
  | @wrote step current count now alive idle next encoded positive within later =>
    intro _
    obtain ⟨last, past, due⟩ := clocked alive
    refine ⟨last, Nat.le_trans past later, ?_⟩
    obtain ⟨next, interval, -⟩ :=
      @Connection.afterWrite_interval before.self step current count now
    unfold RuntimeState.DueAfter RuntimeState.keepaliveSendInterval at due ⊢
    rw [next, interval, due]
  | flushing alive ready => exact fun _ => clocked alive
  | @flushed now alive flushing later => exact fun _ => ⟨now, Nat.le_refl _, rfl⟩
  | disconnected => exact fun alive => by cases alive
  | pinged alive quiet due queued => exact fun _ => clocked alive

/-- A PINGREQ that is not due does not become due earlier. -/
theorem Outflow.undue (step : Outflow τ before after) (clocked : Clocked before)
    (alive : after.self.live = true) (undue : before.self.Undue limit) :
    after.self.Undue limit := by
  cases step with
  | tick later => exact undue
  | @wrote step current count now live idle next encoded positive within later =>
    intro deadline known
    dsimp only at known
    rw [Connection.afterWrite_interval.1] at known
    exact undue deadline known
  | flushing live ready => exact undue
  | @flushed now live flushing later =>
    -- The new deadline is an interval from now, the old one an interval from an earlier instant.
    obtain ⟨last, past, due⟩ := clocked live
    intro deadline known
    obtain ⟨interval, same, rfl⟩ := Option.map_eq_some_iff.mp known
    have earlier := undue (last + interval) (by
      rw [show before.self.runtime.nextPing = _ from due]
      exact congrArg (Option.map (last + ·)) same)
    omega
  | disconnected => cases alive
  | pinged live quiet due queued => exact undue

/-- What writing and flushing keep as long as no PINGREQ is due, any number of transitions keep. -/
theorem Flow.keep_undue {P : ClientMoment → Prop} (flow : Flow τ before after)
    (clocked : Clocked before) (undue : before.self.live = true → before.self.Undue limit)
    (early : after.time ≤ limit)
    (one : ∀ {first second}, Outflow τ first second → first.time ≤ limit →
      (first.self.live = true → first.self.Undue limit) → P first → P second)
    (holds : P before) : P after ∧ (after.self.live = true → after.self.Undue limit) := by
  -- The induction begins with the first transition, so that the last instant stays the same.
  induction flow using Relation.ReflTransGen.head_induction_on with
  | refl => exact ⟨holds, undue⟩
  | head step rest ih =>
    have soon := Nat.le_trans (Flow.time_le (.head step rest)) early
    refine ih (step.clocked clocked) (fun alive => ?_) (one step soon undue holds)
    exact step.undue clocked alive (undue (step.alive alive))

end Outflow

/--
What was accepted since the connection began is the front of what there is to write.

On a live connection the rest of it is still to be written.
-/
structure Replaying (base : List (Happening Event)) (total : Bytes) (moment : ClientMoment) :
    Prop where
  /-- The bytes that were accepted. -/
  sent : ∃ events, moment.trace = base ++ events ∧ acceptedBytes events <+: total ∧
    (moment.self.live = true → acceptedBytes events ++ moment.self.outbound.backlog = total)
  /-- The keepalive interval was restarted in the past. -/
  clocked : Clocked moment

namespace Replaying

variable {config : ConfigBuilder} {clock : Clock} {base : List (Happening Event)} {total : Bytes}
  {limit : Nat} {before after : ClientMoment}

/-- More is accepted, and that much less is still to be written. -/
theorem sends {events : List (Happening Event)} (replaying : Replaying base total before)
    (alive : before.self.live = true) (trace : after.trace = before.trace ++ events)
    (rest : acceptedBytes events ++ after.self.outbound.backlog = before.self.outbound.backlog)
    (clocked : Clocked after) : Replaying base total after := by
  obtain ⟨earlier, split, -, whole⟩ := replaying.sent
  have whole : acceptedBytes (earlier ++ events) ++ after.self.outbound.backlog = total := by
    rw [acceptedBytes_append, List.append_assoc, rest]
    exact whole alive
  refine ⟨⟨earlier ++ events, ?_, ⟨_, whole⟩, fun _ => whole⟩, clocked⟩
  rw [trace, split, List.append_assoc]

/-- Writing and flushing go on with the replay, as long as no PINGREQ is due. -/
theorem outflow (replaying : Replaying base total before) (step : Outflow τ before after)
    (moves : Moves τ (start config clock : ClientWorld τ).moment before)
    (early : before.time ≤ limit) (undue : before.self.live = true → before.self.Undue limit) :
    Replaying base total after := by
  -- What is accepted is taken from the front of the backlog.
  have clocked := step.clocked replaying.clocked
  cases step with
  | tick later => exact ⟨replaying.sent, clocked⟩
  | @wrote step current count now alive idle next encoded positive within later =>
    have loaded : current = before.self.outbound.load step := writeStep_eq_load encoded
    subst loaded
    refine replaying.sends alive rfl ?_ clocked
    have rest := Outbound.backlog_setWritten moves.sending.1.identified moves.orderly.single next
      positive
    dsimp only
    rw [Connection.afterWrite_outbound, Outbound.load_packet, Outbound.load_written]
    simpa [acceptedBytes] using rest
  | flushing alive ready => exact replaying.sends alive rfl rfl clocked
  | flushed alive flushing later =>
    exact replaying.sends alive rfl Outbound.backlog_completeFlush clocked
  | disconnected =>
    obtain ⟨events, trace, part, -⟩ := replaying.sent
    exact ⟨⟨events, trace, part, fun alive => by cases alive⟩, clocked⟩
  | pinged alive quiet due queued =>
    rw [(undue alive).not_due early] at due
    cases due

/-- Any number of transitions that write and flush go on with the replay. -/
theorem flow (flow : Flow τ before after)
    (moves : Moves τ (start config clock : ClientWorld τ).moment before)
    (undue : before.self.live = true → before.self.Undue after.time)
    (replaying : Replaying base total before) : Replaying base total after := by
  have both := Flow.keep_undue (P := fun moment =>
      Moves τ (start config clock : ClientWorld τ).moment moment ∧ Replaying base total moment)
    flow replaying.clocked undue (Nat.le_refl _)
    (fun step early undue known => ⟨known.1.tail (.step (.outflow step)),
      known.2.outflow step known.1 early undue⟩) ⟨moves, replaying⟩
  exact both.1.2

end Replaying

/-- A call of `drive` without a complete packet only writes, flushes and keeps alive. -/
theorem drive_flow (rest : world.self.Rest) :
    Flow τ world.moment (finish (drive world)).2.moment := by
  -- Nothing is read, so no packet can complete and no publication is returned.
  have spec : wp (drive : Client τ (Error τ) (Option InboundPublish))
      (fun _ after => Flow τ world.moment after.moment)
      (fun _ after => Flow τ world.moment after.moment) world := by
    unfold drive
    rw [wp_bind]
    cases alive : world.self.live with
    | true =>
      refine wp_mono (drivePacket_flow alive rest) (fun progress after flow => ?_) (fun _ _ => id)
      cases progress with
      | inbound length =>
        rw [wp_bind]
        exact decodeInboundPublish_spec flow length
      | idle => exact flow
      | advanced => exact flow
    | false =>
      unfold drivePacket
      simp only [wp_bind, wp_self, alive, Bool.not_false, if_true, wp_fail]
      exact .refl
  revert spec
  unfold wp
  cases drive world with
  | ok value after => exact id
  | error stop after => cases stop <;> exact id

/-- The world after a call of `drive`. -/
def afterDrive (world : ClientWorld τ) (replies : List (Reply τ)) : ClientWorld τ :=
  (finish (drive { world with replies })).2

/-- The world after several calls of `drive`, each of which may be dropped at any await. -/
def afterDrives (world : ClientWorld τ) (scripts : List (List (Reply τ))) : ClientWorld τ :=
  scripts.foldl afterDrive world

/-- Each of several calls of `drive` ends before the next PINGREQ is due. -/
def Timely (world : ClientWorld τ) : List (List (Reply τ)) → Prop
  | [] => True
  | replies :: rest =>
    world.self.Undue (afterDrive world replies).time ∧ Timely (afterDrive world replies) rest

theorem timely_append {first second : List (List (Reply τ))} :
    Timely world (first ++ second) ↔ Timely world first ∧ Timely (afterDrives world first) second := by
  induction first generalizing world with
  | nil => simp [Timely, afterDrives]
  | cons replies rest ih =>
    rw [List.cons_append, Timely, Timely, ih, and_assoc]
    rfl

/-- The world after some rounds of driving, or after the last one if it takes fewer. -/
def afterRounds (world : ClientWorld τ) (rounds : Nat) : ClientWorld τ :=
  (finish (iterate rounds (driveRound : Bool → Client τ (Error τ) (Bool ⊕ Progress)) false world)).2

/--
A call of `drive` ends before a PINGRESP is overdue.

The deadline is looked at between two rounds. It was there before the call, or is set five seconds
after the instant that the clock shows when the last byte of a PINGREQ is written.
-/
def Answerable (world : ClientWorld τ) (replies : List (Reply τ)) : Prop :=
  ∀ rounds deadline,
    (afterRounds { world with replies } rounds).self.runtime.pingTimeout = some deadline →
      (afterDrive world replies).time < deadline

/-- Every tracked packet is within a limit of the broker. -/
structure Outbound.Within (limit : Option UInt32) (outbound : Outbound) : Prop where
  /-- The control packets are. -/
  control : ∀ entry ∈ outbound.pendingControl.toList,
    exceeds limit entry.action.wire.length = false
  /-- The releases are. -/
  release : ∀ entry ∈ outbound.pendingRelease.toList,
    exceeds limit (releaseWire entry.packetId entry.reason).length = false
  /-- The retained packets are. -/
  retained : ∀ entry ∈ outbound.retained.toList, exceeds limit entry.len = false

namespace Outbound

variable {outbound : Outbound} {limit : Option UInt32} {step : OutboundStep}

/-- The next packet is one of them. -/
theorem Within.next (within : outbound.Within limit) (next : outbound.nextStep = some step) :
    exceeds limit step.len = false := by
  -- The next packet is in one of the queues.
  cases (at_of_nextStep next).1 with
  | control found => exact within.control _ (List.mem_of_getElem? found)
  | @release front back packetId reason written split =>
    have listed : ⟨packetId, reason, .write written⟩ ∈ outbound.pendingRelease.toList := by
      rw [split]
      exact List.mem_append_right _ (.head _)
    have small := within.release _ listed
    exact small
  | @retained front back kind packetId len written split =>
    have listed : ⟨kind, packetId, len, .write written⟩ ∈ outbound.retained.toList := by
      rw [split]
      exact List.mem_append_right _ (.head _)
    exact within.retained _ listed

/-- Packets may be forgotten, and their progress does not matter. -/
theorem Within.of_subset {after : Outbound} (within : outbound.Within limit)
    (controls : after.pendingControl.toList.map (·.action) ⊆
      outbound.pendingControl.toList.map (·.action))
    (releases : after.pendingRelease.toList.map (fun entry => (entry.packetId, entry.reason)) =
      outbound.pendingRelease.toList.map fun entry => (entry.packetId, entry.reason))
    (retained : after.retained.toList.map RetainedPacket.key =
      outbound.retained.toList.map RetainedPacket.key) : after.Within limit := by
  -- Queue by queue: each entry was there before, with the same size.
  refine ⟨fun entry found => ?_, fun entry found => ?_, fun entry found => ?_⟩
  · obtain ⟨other, listed, same⟩ := List.mem_map.mp (controls (List.mem_map_of_mem found))
    exact same ▸ within.control other listed
  · have listed := List.mem_map_of_mem (f := fun entry => (entry.packetId, entry.reason)) found
    rw [releases] at listed
    obtain ⟨other, listed, same⟩ := List.mem_map.mp listed
    obtain ⟨packetId, reason⟩ := Prod.mk.inj same
    exact packetId ▸ reason ▸ within.release other listed
  · have listed := List.mem_map_of_mem (f := RetainedPacket.key) found
    rw [retained] at listed
    obtain ⟨other, listed, same⟩ := List.mem_map.mp listed
    have len : other.len = entry.len := congrArg (fun key => key.2.2) same
    exact len ▸ within.retained other listed

/-- Progress does not change the size of a packet. -/
theorem Within.setWritten (within : outbound.Within limit) (packet : Packet) (written len : Nat) :
    (outbound.setWritten written len packet).Within limit := by
  -- Marking a packet as written changes its state and nothing else.
  cases packet with
  | control index =>
    have same : (outbound.setControlWritten index written len).pendingControl.toList.map (·.action) =
        outbound.pendingControl.toList.map (·.action) := FixedVec.map_toList_modify fun _ => rfl
    exact within.of_subset (same ▸ List.Subset.refl _) rfl rfl
  | release packetId =>
    exact within.of_subset (List.Subset.refl _) (FixedVec.map_toList_modify fun _ => rfl) rfl
  | retained packetId =>
    exact within.of_subset (List.Subset.refl _) rfl (FixedVec.map_toList_modify fun _ => rfl)

theorem Within.completeFlush (within : outbound.Within limit) :
    outbound.completeFlush.Within limit :=
  within.of_subset (List.map_subset _ (List.filter_subset_self _)) List.map_map List.map_map

end Outbound

theorem Outflow.within {before after : ClientMoment} {limit : Nat} (step : Outflow τ before after)
    (early : before.time ≤ limit) (undue : before.self.live = true → before.self.Undue limit)
    (within : before.self.live = true →
      before.self.outbound.Within before.self.runtime.maximumPacketSize) :
    after.self.live = true → after.self.outbound.Within after.self.runtime.maximumPacketSize := by
  -- Without a PINGREQ that is due nothing is added to the queues.
  cases step with
  | tick later => exact within
  | wrote live idle next encoded positive fits later =>
    intro _
    dsimp only
    rw [Connection.afterWrite_outbound, Connection.afterWrite_interval.2.2]
    exact (within live).setWritten _ _ _
  | flushing live ready => exact within
  | flushed live flushing later => exact fun _ => (within live).completeFlush
  | disconnected => exact fun alive => by cases alive
  | pinged live quiet due queued =>
    rw [(undue live).not_due early] at due
    cases due

/-- A round of driving begins with a reading of the clock and then writes and flushes. -/
theorem driveRound_flow (alive : world.self.live = true) (rest : world.self.Rest) (advanced : Bool) :
    wp (driveRound advanced : Client τ (Error τ) (Bool ⊕ Progress))
      (fun _ after => Flow τ { world with samples := world.samples + 1 }.moment after.moment)
      (fun _ after => Flow τ { world with samples := world.samples + 1 }.moment after.moment)
      world := by
  -- No packet is waiting, so the round reads the clock before anything else.
  have incomplete : world.self.session.packetReader.packetAvailable = false := rest
  unfold driveRound
  simp only [currentSession, wp_bind, wp_self, wp_pure, incomplete, Bool.false_and,
    Bool.false_eq_true, if_false, wp_now]
  have sampled := @service_spec τ _ { world with samples := world.samples + 1 } .refl alive _ rfl
  refine wp_mono sampled (fun progress after done => ?_) (fun _ _ => id)
  have incomplete : after.self.session.packetReader.packetAvailable = false := done.1.rest rest
  simp only [wp_bind, wp_self, wp_pure, incomplete, Bool.false_eq_true, if_false, wp_ite]
  split <;> exact done.1

section Rounds

variable {config : ConfigBuilder} {clock : Clock} {spare : Nat}
  (moves : Moves τ (start config clock : ClientWorld τ).moment world.moment)
  (alive : world.self.live = true) (rest : world.self.Rest)

include moves alive rest

/-- What stops driving is found at the beginning of a round. -/
theorem drivePacket_halted (provisioned : Provisioned spare world) :
    wp (drivePacket : Client τ (Error τ) Progress)
      (fun progress _ => ∀ length, progress ≠ .inbound length)
      (fun stop after => ∃ middle : ClientWorld τ,
        Flow τ world.moment middle.moment ∧ (∃ rounds, middle.self = (afterRounds world rounds).self) ∧
        middle.self.live = true ∧ middle.time ≤ after.time ∧ middle.replies <:+ world.replies ∧
        Halted middle middle.time stop after) world := by
  have enough := provisioned.enough
  unfold drivePacket
  simp only [wp_bind, wp_self, alive, Bool.not_true, Bool.false_eq_true, if_false, wp_rounds]
  -- The loop is followed round by round, so that the world it stops in can be named.
  refine wp_iterate_measure (fun advanced current => Flow τ world.moment current.moment ∧
      (∃ rounds, Continues driveRound false world rounds advanced current) ∧
      current.self.live = true ∧ Provisioned spare current ∧ current.replies <:+ world.replies)
    (fun current => current.self.workload)
    ⟨.refl, ⟨0, fun more => by rw [Nat.zero_add]⟩, alive, provisioned, List.suffix_refl _⟩
    (by omega) ?_
  intro advanced current holds
  obtain ⟨flow, ⟨rounds, continues⟩, alive, provisioned, suffix⟩ := holds
  refine wp_mono (wp_and (driveRound_settled (moves.trans flow.steps.moves) alive provisioned
      (flow.rest rest) advanced) (wp_and (driveRound_flow alive (flow.rest rest) advanced)
        (wp_of_result (fun _ _ same => same) fun _ _ same => same)))
    (fun next after done => ?_) (fun stop after failed => ?_)
  · obtain ⟨⟨more, alive, provisioned, fewer, ended⟩, -, round⟩ := done
    cases next with
    | inl next =>
      exact ⟨⟨flow.trans more, ⟨_, continues.round round⟩, alive, provisioned, fewer.trans suffix⟩,
        ended⟩
    | inr progress => exact ended
  · obtain ⟨halted, further, -⟩ := failed
    have time : ({ current with samples := current.samples + 1 } : ClientWorld τ).time =
        current.clock.reading current.samples := rfl
    refine ⟨{ current with samples := current.samples + 1 }, Flow.sampled flow, ⟨rounds, ?_⟩, alive,
      Flow.time_le further, suffix, time ▸ halted⟩
    have reached : iterate rounds (driveRound : Bool → Client τ (Error τ) _) false world =
      .error .dropped current := continues 0
    rw [afterRounds, reached]
    rfl

/--
A connection that can send everything does so.

A transport that accepts some bytes of every write and completes every flush lets `drive` return, if
every packet is within the limit of the broker, and neither the next PINGREQ nor a PINGRESP becomes
due in the meantime.
-/
theorem drive_returns (clocked : Clocked world.moment)
    (willing : Willing world.replies) (enough : world.self.workload ≤ world.replies.length)
    (within : world.self.outbound.Within world.self.runtime.maximumPacketSize)
    (undue : world.self.Undue (finish (drive world)).2.time)
    (answerable : ∀ rounds deadline,
      (afterRounds world rounds).self.runtime.pingTimeout = some deadline →
        (finish (drive world)).2.time < deadline) :
    ∃ after, drive world = .ok none after := by
  have provisioned : Provisioned 0 world := ⟨willing.settles, enough⟩
  have spec : wp (drive : Client τ (Error τ) (Option InboundPublish))
      (fun value _ => value = none)
      (fun stop after => ∃ middle : ClientWorld τ,
        Flow τ world.moment middle.moment ∧ (∃ rounds, middle.self = (afterRounds world rounds).self) ∧
        middle.self.live = true ∧ middle.time ≤ after.time ∧ middle.replies <:+ world.replies ∧
        Halted middle middle.time stop after) world := by
    unfold drive
    rw [wp_bind]
    refine wp_mono (drivePacket_halted moves alive rest provisioned) (fun progress after other => ?_)
      (fun _ _ => id)
    cases progress with
    | inbound length => exact absurd rfl (other length)
    | idle => rfl
    | advanced => rfl
  unfold wp at spec
  cases result : (drive : Client τ (Error τ) (Option InboundPublish)) world with
  | ok value after =>
    rw [result] at spec
    exact ⟨after, by rw [show value = none from spec]⟩
  | error stop after =>
    rw [result] at spec
    obtain ⟨middle, flow, ⟨rounds, round⟩, live, early, suffix, halted⟩ := spec
    obtain ⟨error, rfl⟩ := halted.error
    have last : (finish ((drive : Client τ (Error τ) (Option InboundPublish)) world)).2 = after := by
      rw [result]
      rfl
    rw [last] at undue answerable
    -- At the instant at which it stopped nothing got in the way.
    obtain ⟨within, undue⟩ := Flow.keep_undue (P := fun moment => moment.self.live = true →
        moment.self.outbound.Within moment.self.runtime.maximumPacketSize)
      flow clocked (fun _ => undue) early (fun step early undue => step.within early undue)
      (fun _ => within)
    cases halted with
    | overdue late same dead replies =>
      obtain ⟨deadline, waiting, past⟩ := late
      have bound := answerable rounds deadline (round ▸ waiting)
      omega
    | stopped inTime stopped =>
      cases stopped with
      | failed failed =>
        obtain ⟨cause, found, -⟩ := failed.reply
        exact absurd (suffix.subset found) (willing.never_fails cause)
      | barred large same unchanged =>
        cases large with
        | packet idle next large =>
          have small : exceeds middle.self.runtime.maximumPacketSize _ = false :=
            (within live).next next
          rw [small] at large
          cases large
        | ping quiet due large =>
          have none : shouldQueuePingreq middle.self.session middle.time = false :=
            (undue live).not_due early
          rw [none] at due
          cases due

end Rounds

/-- A world in which the replay of a session goes on. -/
structure Resuming (config : ConfigBuilder) (clock : Clock) (fits : Prop)
    (base : List (Happening Event)) (total : Bytes) (world : ClientWorld τ) : Prop where
  /-- A client can reach it. -/
  moves : Moves τ (start config clock : ClientWorld τ).moment world.moment
  /-- No complete packet is waiting. -/
  rest : world.self.Rest
  /-- What was accepted is the front of what there is to write. -/
  replaying : Replaying base total world.moment
  /-- If the broker admits all packets, it admits those that are left. -/
  within : fits → world.self.live = true →
    world.self.outbound.Within world.self.runtime.maximumPacketSize

namespace Resuming

variable {config : ConfigBuilder} {clock : Clock} {fits : Prop} {base : List (Happening Event)}
  {total : Bytes}

/-- Calls of `drive` go on with the replay. -/
theorem drives (resuming : Resuming config clock fits base total world)
    {scripts : List (List (Reply τ))} (timely : Timely world scripts) :
    Resuming config clock fits base total (afterDrives world scripts) := by
  -- Each call is a flow in which no PINGREQ is due.
  induction scripts generalizing world with
  | nil => exact resuming
  | cons replies rest ih =>
    have flow := @drive_flow τ { world with replies } resuming.rest
    refine ih ⟨resuming.moves.trans flow.steps.moves, flow.rest resuming.rest, ?_, fun fit => ?_⟩
      timely.2
    · exact Replaying.flow flow resuming.moves (fun _ => timely.1) resuming.replaying
    · exact (Flow.keep_undue (P := fun moment => moment.self.live = true →
          moment.self.outbound.Within moment.self.runtime.maximumPacketSize) flow
        resuming.replaying.clocked (fun _ => timely.1) (Nat.le_refl _)
        (fun step early undue => step.within early undue) (resuming.within fit)).1

/-- When `drive` returns without a publication, everything was written and nothing is left. -/
theorem complete (resuming : Resuming config clock fits base total world) {replies : List (Reply τ)}
    (undue : world.self.Undue (afterDrive world replies).time) {after : ClientWorld τ}
    (done : drive { world with replies } = .ok none after) :
    (∃ events, after.trace = base ++ events ∧ acceptedBytes events = total) ∧
      Resuming config clock fits after.trace [] after := by
  have last : afterDrive world replies = after := by
    rw [afterDrive, done]
    rfl
  have timely : Timely world [replies] := ⟨undue, trivial⟩
  have resumed := resuming.drives timely
  change Resuming config clock fits base total (afterDrive world replies) at resumed
  rw [last] at resumed
  have tidy := resuming.moves.sending.1.sparse.tidy
  have reached : Reached world.moment { world with replies } := ⟨.refl, resuming.rest⟩
  obtain ⟨progress, driven, undelivered⟩ := drive_driven tidy reached done
  have quiet := driven.quiet.resolve_left fun ⟨length, same⟩ => undelivered length same
  -- Nothing is left to be written on a quiet connection.
  have none : after.moment.self.outbound.backlog = [] := Outbound.backlog_of_nextStep quiet.1
  obtain ⟨events, trace, -, whole⟩ := resumed.replaying.sent
  refine ⟨⟨events, trace, ?_⟩, resumed.moves, resumed.rest, ⟨?_, resumed.replaying.clocked⟩,
    resumed.within⟩
  · have whole := whole driven.alive
    rwa [none, List.append_nil] at whole
  · exact ⟨[], (List.append_nil _).symm, List.prefix_refl _, fun _ => none⟩

end Resuming

/-- What there is to write when a session is resumed. -/
structure Outstanding (outbound : Outbound) (trace : List (Happening Event))
    (controls releases : List Bytes) (admitted : List Admission) : Prop where
  /-- One packet for each queued control action, in the order of the queue. -/
  controls : (outbound.pendingControl.toList.map fun entry =>
    encodeControlPacket smallBuf entry.action) = controls.map .ok
  /-- One PUBREL for each pending release, in the order of the queue. -/
  releases : (outbound.pendingRelease.toList.map fun entry =>
    encodePubrel smallBuf entry.packetId entry.reason) = releases.map .ok
  /-- The operations whose packets are retained. -/
  retained : (outbound.retained.toList.map fun entry => (entry.kind, entry.packetId)) =
    admitted.map fun admission => (admission.kind, admission.packetId)
  /-- They are in the order of their admission. -/
  ordered : admitted.Sublist (admissions trace)
  /-- Each is the last one that was admitted under its identifier. -/
  latest : ∀ admission ∈ admitted, latestAdmission trace admission.packetId = some admission

/-- The packets of a resumed session in the order in which they are written. -/
def replayed (controls releases : List Bytes) (admitted : List Admission) : List Bytes :=
  controls ++ (releases ++ admitted.map Admission.replay)

/-- The packets of the queued control actions. -/
def Outbound.controlWires (outbound : Outbound) : List Bytes :=
  outbound.pendingControl.toList.map fun entry => entry.action.wire

/-- The packets of the pending releases. -/
def Outbound.releaseWires (outbound : Outbound) : List Bytes :=
  outbound.pendingRelease.toList.map fun entry => releaseWire entry.packetId entry.reason

section Resumption

variable {config : ConfigBuilder} {clock : Clock} {files : List Filed}

/-- The packets on file, the queued control packets and the releases are outstanding. -/
theorem Archived.outstanding {moment : ClientMoment} (archived : Archived files moment) :
    Outstanding moment.self.outbound moment.trace moment.self.outbound.controlWires
      moment.self.outbound.releaseWires (files.map Filed.admission) := by
  -- Files and entries are in step, so their admissions are in the order of the queue.
  refine ⟨?_, ?_, ?_, ?_, ?_⟩
  · rw [Outbound.controlWires, List.map_map]
    exact List.map_congr_left fun entry _ => encodeControlPacket_eq entry.action
  · rw [Outbound.releaseWires, List.map_map]
    exact List.map_congr_left fun entry _ => encodePubrel_eq entry.packetId entry.reason
  · have keys := congrArg (List.map fun key => (key.1, key.2.1)) archived.stored.entries
    rw [List.map_map, List.map_map] at keys
    rw [List.map_map]
    exact keys
  · have part := archived.known.admitted_sublist
    rw [List.map_map] at part
    exact part
  · intro admission found
    obtain ⟨file, listed, rfl⟩ := List.mem_map.mp found
    exact archived.known.find_eq (List.mem_map_of_mem listed)

/-- All outstanding packets are to be written when the session is started over. -/
theorem Stored.backlog_armed {outbound opened : Outbound} (stored : Stored files outbound)
    (same : outbound.armReplay.SamePackets opened) :
    opened.backlog = (replayed outbound.controlWires outbound.releaseWires
      (files.map Filed.admission)).flatten := by
  -- All packets start over, so the backlog is every packet in full.
  have armed : opened.Holds (· = .write 0) (· = .write 0) := same.holds (.armReplay rfl rfl)
  have stored' := same.stored stored.armReplay
  have packets : opened.buf.take opened.retainedBytes =
      ((files.map Filed.admission).map Admission.replay).flatten := by
    rw [stored'.retainedBytes_eq, stored'.packed.take_eq, List.map_map, List.map_map]
    exact congrArg List.flatten (List.map_congr_left fun file _ => Filed.bytes_of_remark rfl)
  rw [Outbound.backlog_of_armed armed, packets, same.controls, same.releases,
    Outbound.armReplay_eq, replayed, List.flatten_append, List.flatten_append]
  simp only [List.flatMap_def, FixedVec.toList_map, List.map_map]
  rfl

/-- A broker that admits all outstanding packets admits what is to be written. -/
theorem Stored.within_armed {outbound opened : Outbound} {limit : Option UInt32}
    (stored : Stored files outbound) (same : outbound.armReplay.SamePackets opened)
    (fits : ∀ packet ∈ replayed outbound.controlWires outbound.releaseWires
      (files.map Filed.admission), exceeds limit packet.length = false) :
    opened.Within limit := by
  have within : outbound.Within limit := by
    refine ⟨fun entry found => ?_, fun entry found => ?_, fun entry found => ?_⟩
    · exact fits _ (List.mem_append_left _ (List.mem_map_of_mem found))
    · refine fits _ (List.mem_append_right _ (List.mem_append_left _ ?_))
      exact List.mem_map.mpr ⟨entry, found, rfl⟩
    · -- The packet on file has the length that is in the queue, marked or not.
      have listed := List.mem_map_of_mem (f := RetainedPacket.key) found
      rw [stored.entries] at listed
      obtain ⟨file, known, key⟩ := List.mem_map.mp listed
      have size : entry.len = file.admission.replay.length := by
        have bytes : file.remark.bytes = file.admission.replay := Filed.bytes_of_remark rfl
        rw [← bytes, Filed.length_bytes]
        exact (congrArg (fun key => key.2.2) key).symm
      rw [size]
      refine fits _ (List.mem_append_right _ (List.mem_append_right _ ?_))
      exact List.mem_map_of_mem (List.mem_map_of_mem known)
  refine within.of_subset ?_ ?_ ?_
  · rw [same.controls, Outbound.armReplay_eq, FixedVec.toList_map, List.map_map]
    exact List.Subset.refl _
  · rw [same.releases, Outbound.armReplay_eq, FixedVec.toList_map, List.map_map]
    rfl
  · rw [same.retained, Outbound.armReplay_eq, FixedVec.toList_map, List.map_map]
    rfl

/-- A resumed session begins with all outstanding packets to be written. -/
theorem Settled.resuming {before opened : ClientWorld τ} {inbound : Bytes}
    {replies : List (Reply τ)} (settled : Settled (start config clock : ClientWorld τ).moment before)
    (archived : Archived files before.moment)
    (done : connect { before with inbound, replies } = .ok .reconnected opened) :
    Resuming config clock
      (∀ packet ∈ replayed before.self.outbound.controlWires before.self.outbound.releaseWires
        (files.map Filed.admission),
        exceeds opened.self.runtime.maximumPacketSize packet.length = false)
      opened.trace (replayed before.self.outbound.controlWires before.self.outbound.releaseWires
        (files.map Filed.admission)).flatten opened := by
  -- The attempt arms the replay, and the handshake leaves the packets alone.
  have performed := settled.perform (⟨.connect inbound, replies⟩ : Invocation Unit τ)
  have last : ((⟨.connect inbound, replies⟩ : Invocation Unit τ).perform before).2 = opened := by
    rw [Invocation.perform, Call.perform]
    dsimp only
    rw [done]
    rfl
  rw [last] at performed
  have packets := @connect_packets τ { before with inbound, replies }
  unfold wp at packets
  rw [done] at packets
  obtain ⟨-, due, same⟩ := packets
  have same : before.self.outbound.armReplay.SamePackets opened.self.outbound := same rfl
  refine ⟨performed.moves, performed.rest, ⟨⟨[], (List.append_nil _).symm, List.nil_prefix,
    fun _ => ?_⟩, fun _ => ⟨_, Nat.le_refl _, due⟩⟩, fun fits _ => ?_⟩
  · exact archived.stored.backlog_armed same
  · exact archived.stored.within_armed same fits

end Resumption

/--
A resumed session is replayed exactly.

After `connect` returns with the session resumed, and as long as no PINGREQ becomes due, the bytes
that the transport accepts are the front of the outstanding packets: the control packets, then the
releases, then the retained packets in the order of their admission with the DUP flag set on
publications. When `drive` returns without a publication all of them were accepted, and nothing more
is written afterwards. It does return if the transport takes some bytes of every write, the broker
admits all packets and there is time for the answer to a replayed PINGREQ.

On every connection each retained packet is started at most once, in the order of admission, and a
packet that was started is written on from where the transport left off.
-/
theorem resumed_replay_exact (config : ConfigBuilder) (clock : Clock)
    (calls : List (Invocation π τ)) :
    (∀ (inbound : Bytes) (replies : List (Reply τ)) (opened : ClientWorld τ),
      connect { run (start config clock) calls with inbound, replies } =
        .ok .reconnected opened →
      ∃ controls releases admitted,
        Outstanding (run (start config clock : ClientWorld τ) calls).self.outbound
          (run (start config clock : ClientWorld τ) calls).trace controls releases admitted ∧
        (∀ scripts, Timely opened scripts → ∃ events,
          (afterDrives opened scripts).trace = opened.trace ++ events ∧
          acceptedBytes events <+: (replayed controls releases admitted).flatten) ∧
        (∀ scripts replies after, Timely opened (scripts ++ [replies]) →
          drive { afterDrives opened scripts with replies } = .ok none after →
          (∃ events, after.trace = opened.trace ++ events ∧
            acceptedBytes events = (replayed controls releases admitted).flatten) ∧
          ∀ more, Timely after more → ∃ events,
            (afterDrives after more).trace = after.trace ++ events ∧ acceptedBytes events = []) ∧
        ((∀ packet ∈ replayed controls releases admitted,
            exceeds opened.self.runtime.maximumPacketSize packet.length = false) →
          ∀ scripts replies, Timely opened (scripts ++ [replies]) →
          (afterDrives opened scripts).self.live = true → Willing replies →
          (afterDrives opened scripts).self.workload ≤ replies.length →
          Answerable (afterDrives opened scripts) replies →
          ∃ after, drive { afterDrives opened scripts with replies } = .ok none after)) ∧
    ∀ front state ack back, Chapter Starts (run (start config clock : ClientWorld τ) calls).trace
        front (.noted (.connected state ack)) back →
      (∃ underway cut, Traffic True (Permitted ack) underway cut back) ∧
      (starts back).Sublist (roster state back) ∧
      ∃ admitted : List Admission, admitted.Sublist (admissions front) ∧
        roster state back =
          (admitted.map fun admission => (admission.packetId, admission.replay)) ++
            (admissions back).map fun admission => (admission.packetId, admission.packet) := by
  -- The first half follows the files of the run through the calls of `drive`.
  have settled := (settled_start (τ := τ) config clock).run calls
  refine ⟨fun inbound replies opened done => ?_, fun front state ack back chapter => ?_⟩
  · obtain ⟨files, archived⟩ := run_archived (τ := τ) config clock calls
    have resuming := settled.resuming archived done
    refine ⟨_, _, _, archived.outstanding, fun scripts timely => ?_,
      fun scripts replies after timely done => ?_,
      fun fits scripts replies timely live willing enough answerable => ?_⟩
    · obtain ⟨events, trace, part, -⟩ := (resuming.drives timely).replaying.sent
      exact ⟨events, trace, part⟩
    · obtain ⟨first, second⟩ := timely_append.mp timely
      obtain ⟨whole, idle⟩ := (resuming.drives first).complete second.1 done
      refine ⟨whole, fun more timely => ?_⟩
      obtain ⟨events, trace, part, -⟩ := (idle.drives timely).replaying.sent
      exact ⟨events, trace, List.prefix_nil.mp part⟩
    · obtain ⟨first, second⟩ := timely_append.mp timely
      have ready := resuming.drives first
      exact @drive_returns τ { afterDrives opened scripts with replies } config clock ready.moves
        live ready.rest ready.replaying.clocked willing enough (ready.within fits live) second.1
        answerable
  · -- The second half is about every connection and needs no assumption on the transport.
    obtain ⟨connection, underway, cut, traffic, -⟩ :=
      settled.moves.sending.2.each chapter List.nil_prefix state ack rfl
    obtain ⟨connection, ⟨admitted, part, same⟩, order, -⟩ :=
      (run_lined config clock calls).each chapter List.nil_prefix state ack rfl
    exact ⟨⟨underway, cut, traffic⟩, order, admitted, part, by rw [roster, same]⟩

/-- The broker resumes the session of a small client, which sends its publication again. -/
theorem resumed_replay_exact_publication : ∃ opened after : ClientWorld Unit,
    connect { run (start (smallConfig 60) (steppingClock 0 0)) sentPublication with
      inbound := [0x20, 3, 1, 0, 0]
      replies := resumedConnect.replies } = .ok .reconnected opened ∧
    drive { opened with replies := List.replicate 20 (.ready 2) } = .ok none after ∧
    ∃ controls releases admitted,
      Outstanding (run (start (smallConfig 60) (steppingClock 0 0) : ClientWorld Unit)
          sentPublication).self.outbound
        (run (start (smallConfig 60) (steppingClock 0 0) : ClientWorld Unit) sentPublication).trace
        controls releases admitted ∧
      ∃ events, after.trace = opened.trace ++ events ∧
        acceptedBytes events = (replayed controls releases admitted).flatten ∧
        acceptedBytes events = [0x3c, 6, 0, 1, 0x61, 0, 1, 0] := by
  -- All checks on this run are evaluated at once.
  have sends : check connect (fun event (opened : ClientWorld Unit) =>
      event == .reconnected && opened.self.runtime.nextPing.all (0 < ·) &&
      check drive (fun publication (after : ClientWorld Unit) =>
        publication.isNone && after.time == 0 &&
        acceptedBytes (after.trace.drop opened.trace.length) == [0x3c, 6, 0, 1, 0x61, 0, 1, 0])
        { opened with replies := List.replicate 20 (.ready 2) })
      { run (start (smallConfig 60) (steppingClock 0 0)) sentPublication with
        inbound := [0x20, 3, 1, 0, 0]
        replies := resumedConnect.replies } = true := by decide +kernel
  obtain ⟨event, opened, connected, test⟩ := returned_of_check sends
  rw [Bool.and_eq_true, Bool.and_eq_true, beq_iff_eq] at test
  obtain ⟨⟨rfl, quiet⟩, drives⟩ := test
  obtain ⟨publication, after, driven, test⟩ := returned_of_check drives
  rw [Bool.and_eq_true, Bool.and_eq_true, beq_iff_eq, beq_iff_eq, Option.isNone_iff_eq_none] at test
  obtain ⟨⟨rfl, instant⟩, bytes⟩ := test
  refine ⟨opened, after, connected, driven, ?_⟩
  obtain ⟨controls, releases, admitted, outstanding, -, ends, -⟩ :=
    (resumed_replay_exact (smallConfig 60) (steppingClock 0 0) sentPublication).1 _ _ _ connected
  have timely : Timely opened ([] ++ [List.replicate 20 (.ready 2)]) := by
    refine ⟨fun deadline next => ?_, trivial⟩
    rw [afterDrive, driven]
    show after.time < deadline
    rw [next] at quiet
    rw [instant]
    simpa using quiet
  obtain ⟨events, trace, whole⟩ := (ends [] _ after timely driven).1
  rw [trace, List.drop_left] at bytes
  exact ⟨controls, releases, admitted, outstanding, events, trace, whole, bytes⟩

/-- A client that is driven every six seconds, until a PINGREQ is queued but not written. -/
def stalePing : List (Invocation Unit Unit) :=
  [acceptedConnect, ⟨.publish oncePublication, [.ready 64, .ready 0]⟩] ++
    List.replicate 4 ⟨.drive, []⟩

/--
A PINGREQ of the last connection can end the replay.

It is the first packet of the resumed session. The next PINGREQ is not due yet, but its answer is
overdue by the time the client looks at the clock again. So the connection is closed before the
retained packet is written, although the transport takes all bytes of every write.
-/
theorem resumed_replay_cut_short : ∃ opened after : ClientWorld Unit,
    connect { run (start (smallConfig 30) (steppingClock (6 * ticksPerSecond) 100)) stalePing with
      inbound := [0x20, 3, 1, 0, 0]
      replies := resumedConnect.replies } = .ok .reconnected opened ∧
    opened.self.outbound.retained.toList.length = 1 ∧
    opened.self.runtime.maximumPacketSize = none ∧
    opened.self.workload ≤ 20 ∧
    drive { opened with replies := List.replicate 20 (.ready 64) } =
      .error (.error .disconnected) after ∧
    (∃ deadline, opened.self.runtime.nextPing = some deadline ∧ after.time < deadline) ∧
    acceptedBytes (after.trace.drop opened.trace.length) = [0xc0, 0] := by
  -- All checks on this run are evaluated at once.
  have closes : check connect (fun event (opened : ClientWorld Unit) =>
      event == .reconnected && opened.self.outbound.retained.toList.length == 1 &&
      opened.self.runtime.maximumPacketSize.isNone && decide (opened.self.workload ≤ 20) &&
      (Invocation.failure opened
          (⟨.drive, List.replicate 20 (.ready 64)⟩ : Invocation Unit Unit) == some .disconnected &&
        opened.self.runtime.nextPing.any
          ((afterDrive opened (List.replicate 20 (.ready 64))).time < ·) &&
        acceptedBytes ((afterDrive opened (List.replicate 20 (.ready 64))).trace.drop
          opened.trace.length) == [0xc0, 0]))
      { run (start (smallConfig 30) (steppingClock (6 * ticksPerSecond) 100)) stalePing with
        inbound := [0x20, 3, 1, 0, 0]
        replies := resumedConnect.replies } = true := by decide +kernel
  obtain ⟨event, opened, connected, test⟩ := returned_of_check closes
  simp only [Bool.and_eq_true, beq_iff_eq, Option.isNone_iff_eq_none, decide_eq_true_eq,
    Option.any_eq_true] at test
  obtain ⟨⟨⟨⟨rfl, retained⟩, limit⟩, enough⟩, ⟨failed, deadline, next, early⟩, bytes⟩ := test
  have failed : failureOf some (drive { opened with replies := List.replicate 20 (.ready 64) }) =
    some .disconnected := failed
  obtain ⟨cause, after, result, same⟩ := failureOf_eq_some failed
  cases Option.some.inj same
  rw [afterDrive, result] at early bytes
  exact ⟨opened, after, connected, retained, limit, enough, result, ⟨deadline, next, early⟩, bytes⟩

end Minimq

import Minimq.Proofs.Client.Latch

/-! The queue of acknowledgements never overflows, and none leaves it before it is on the wire. -/

namespace Minimq

open Hoare Async

variable {π τ : Type} {before after : ClientMoment} {current : WriteStep} {session : Session}

/-- The queued control packets, in order. -/
abbrev controlsOf (moment : ClientMoment) : List PendingControl :=
  moment.self.outbound.pendingControl.toList

/-- What can happen to the queued control packets. -/
inductive ControlMove (before after : ClientMoment) : Prop where
  /-- They stay as they are, and new ones are queued behind them. -/
  | kept (added : List ControlAction)
      (same : controlsOf after = controlsOf before ++ added.map fun action => ⟨action, .write 0⟩)
  /-- The connection is lost, so all of them are written again from their first byte. -/
  | armed (added : List ControlAction)
      (same : controlsOf after = ((controlsOf before).map fun entry =>
        { entry with state := .write 0 }) ++ added.map fun action => ⟨action, .write 0⟩)
  /-- The transport accepts the next bytes of one of them. -/
  | wrote {index written count : Nat} {action : ControlAction}
      (found : (controlsOf before)[index]? = some ⟨action, .write written⟩) (positive : 0 < count)
      (within : written + count ≤ action.wire.length)
      (accepted : after.trace = before.trace ++ [.accepted ((action.wire.drop written).take count),
        .noted (.wrote (.control index) action.wire written count)])
      (same : controlsOf after = (controlsOf before).modify index fun entry =>
        { entry with state := .setWritten (written + count) action.wire.length })
  /-- Those that were written completely are flushed and leave. -/
  | flushed {now : Nat} (drained : after.trace = before.trace ++ [.flushed, .noted (.active now)])
      (same : controlsOf after = (controlsOf before).filter fun entry => entry.state != .flush)
  /-- The session is started over, and all of them leave. -/
  | reset (noted : after.trace = before.trace ++ [.noted .reset]) (same : controlsOf after = [])

theorem ControlMove.of_same
    (same : after.self.outbound.pendingControl = before.self.outbound.pendingControl) :
    ControlMove before after :=
  .kept [] (by rw [controlsOf, same]; simp)

/-- Starting over keeps the control packets. -/
theorem Outbound.controls_armReplay (outbound : Outbound) :
    outbound.armReplay.pendingControl.toList =
      outbound.pendingControl.toList.map fun entry => { entry with state := .write 0 } := by
  unfold armReplay
  split
  · rfl
  · rename_i nothing
    simp only [hasPendingState, Bool.or_eq_true, Bool.not_eq_true', List.isEmpty_eq_false_iff,
      not_or, not_not] at nothing
    simp [nothing.1.1]

/-- The bytes of a control packet that is next. -/
theorem writeStep_control {index written : Nat} {action : ControlAction}
    (encoded : (writeStep session (.control index action written) : Except (Error τ) WriteStep) =
      .ok current) : current = ⟨.control index, action.wire, written⟩ := by
  -- The packet is refused if it is too large, and else is written as encoded.
  simp only [writeStep, serializeControlPacket, encodeControlPacket_eq, withinLimit, bind,
    Except.bind, Except.mapError] at encoded
  split at encoded
  · simp at encoded
  · rename_i kept
    split at kept
    · simp at kept
    · cases kept
      exact (Except.ok.inj encoded).symm

/-- The packet of a step that writes something else is not a control packet. -/
theorem writeStep_release {packetId : UInt16} {reason : ReasonCode} {written : Nat}
    (encoded : (writeStep session (.release packetId reason written) : Except (Error τ) WriteStep) =
      .ok current) : current = ⟨.release packetId, releaseWire packetId reason, written⟩ := by
  -- A release is encoded or exceeds the limit, and only the first gives a step.
  simp only [writeStep, serializePubrel, encodePubrel_eq, withinLimit, bind,
    Except.bind, Except.mapError] at encoded
  split at encoded
  · simp at encoded
  · rename_i kept
    split at kept
    · simp at kept
    · cases kept
      exact (Except.ok.inj encoded).symm

theorem writeStep_retained {packetId : UInt16} {offset len written : Nat}
    (encoded : (writeStep session (.retained packetId offset len written) :
      Except (Error τ) WriteStep) = .ok current) :
    current = ⟨.retained packetId, session.data.outbound.retainedPacket offset len, written⟩ := by
  simp only [writeStep, bind, Except.bind] at encoded
  split at encoded
  · simp at encoded
  · exact (Except.ok.inj encoded).symm

/-- Writing, flushing and keepalive move the control packets along. -/
theorem Outflow.controls (step : Outflow τ before after) : ControlMove before after := by
  -- Only a write of a control packet, a flush and a PINGREQ touch the queue.
  cases step with
  | tick later => exact .of_same rfl
  | flushing alive ready => exact .of_same rfl
  | flushed alive flushing later => exact .flushed rfl rfl
  | disconnected =>
    exact .armed [] (by
      rw [List.map_nil, List.append_nil]
      exact Outbound.controls_armReplay _)
  | pinged alive quiet due queued =>
    obtain ⟨controls, rfl, appended⟩ := Outbound.controls_of_queueControl queued
    exact .kept [.pingReq] appended
  | @wrote step current count now alive idle next encoded positive within later =>
    have outbound := @Connection.afterWrite_outbound before.self step current count now
    obtain ⟨found, -⟩ := Outbound.at_of_nextStep next
    cases found with
    | control found =>
      cases writeStep_control encoded
      simp only [List.length_drop] at within
      refine .wrote found positive (by omega) rfl ?_
      rw [controlsOf, outbound]
      rfl
    | release found =>
      cases writeStep_release encoded
      exact .of_same (by rw [outbound]; rfl)
    | retained found =>
      cases writeStep_retained encoded
      exact .of_same (by rw [outbound]; rfl)

/-- An inbound packet only adds to the control packets, and never a PINGREQ. -/
theorem Handled.controls {packet : ReceivedPacket} {taken : Taken} {state next : Handling}
    (handled : Handled packet state taken next) : ∃ added : List ControlAction,
      next.data.outbound.pendingControl.toList =
        state.data.outbound.pendingControl.toList ++ (added.map fun action => ⟨action, .write 0⟩) ∧
      .pingReq ∉ added := by
  -- An acknowledgement of the broker touches other queues only.
  have unchanged {outbound : Outbound}
      (same : outbound.pendingControl = state.data.outbound.pendingControl) :
      ∃ added : List ControlAction, outbound.pendingControl.toList =
        state.data.outbound.pendingControl.toList ++ (added.map fun action => ⟨action, .write 0⟩) ∧
      .pingReq ∉ added :=
    ⟨[], by rw [same]; simp, by simp⟩
  cases handled.requeued with
  | same kept => exact unchanged (congrArg _ kept)
  | acked done => exact unchanged (Outbound.pendingControl_of_ackPacket done)
  | released done released =>
    obtain ⟨releases, same, -⟩ := Outbound.releases_of_queueRelease released
    have controls := Outbound.pendingControl_of_ackPacket done
    rw [same]
    exact unchanged controls
  | completed done => exact unchanged (Outbound.pendingControl_of_ackRelease done)
  | queued queued answer =>
    obtain ⟨controls, same, appended⟩ := Outbound.controls_of_queueControl queued
    rw [same]
    exact ⟨[_], appended, by simpa using answer.symm⟩

/-- Every transition moves the control packets along. -/
theorem Step.controls (step : Step τ before after) : ControlMove before after := by
  have armed {connection : Connection} {trace : List (Happening Event)} {time : Nat}
      (same : connection.outbound = before.self.outbound.armReplay) :
      ControlMove before ⟨connection, trace, time⟩ :=
    .armed [] (by rw [List.map_nil, List.append_nil, controlsOf, same]
                  exact Outbound.controls_armReplay _)
  cases step with
  | outflow step => exact step.controls
  | upkeep step => cases step <;> exact .of_same rfl
  | opening step =>
    obtain ⟨room, same⟩ := step.queues
    exact .of_same (by rw [same])
  | handled packet alive quiet =>
    obtain ⟨taken, state, handled, same | same⟩ := before.self.handle_cases packet
    · obtain ⟨added, appended, -⟩ := handled.controls
      refine .kept added ?_
      rw [controlsOf, same]
      exact appended
    · -- What a packet adds before it ends the connection is written again with the rest.
      obtain ⟨added, appended, -⟩ := handled.controls
      have replayed := Outbound.controls_armReplay state.data.outbound
      refine .armed added ?_
      rw [controlsOf, same]
      change state.data.outbound.armReplay.pendingControl.toList = _
      rw [replayed, appended, List.map_append, List.map_map]
      rfl
  | admitted admissible =>
    refine .of_same ?_
    dsimp only
    rw [Connection.enlist_outbound]
  | direct ready whole later => exact .of_same rfl
  | broken ready part => exact armed rfl
  | opened => exact armed rfl
  | reset closed => exact .reset rfl rfl
  | connected closed later sized reserved quota limit state =>
    subst state
    exact .of_same rfl

theorem Move.controls (move : Move τ before after) : ControlMove before after := by
  cases move with
  | step step => exact step.controls
  | torn torn => exact .of_same (by rw [torn.self])

theorem Outbound.length_controls_setWritten {outbound : Outbound} {written len : Nat}
    {packet : Packet} : (outbound.setWritten written len packet).pendingControl.toList.length =
      outbound.pendingControl.toList.length := by
  cases packet <;> simp [setWritten, setControlWritten, setReleaseWritten, setRetainedWritten]

/-- An inbound packet queues at most one acknowledgement. -/
theorem Handled.controls_length {packet : ReceivedPacket} {taken : Taken} {before after : Handling}
    (handled : Handled packet before taken after) : after.data.outbound.pendingControl.length ≤
      before.data.outbound.pendingControl.length + 1 := by
  -- Each way to handle a packet queues one answer or none.
  have same {outbound : Outbound}
      (controls : outbound.pendingControl = before.data.outbound.pendingControl) :
      outbound.pendingControl.length ≤ before.data.outbound.pendingControl.length + 1 := by
    rw [controls]
    exact Nat.le_succ _
  cases handled.requeued with
  | same kept => exact same (congrArg _ kept)
  | acked acked => exact same (Outbound.pendingControl_of_ackPacket acked)
  | released acked released =>
    obtain ⟨releases, kept, -⟩ := Outbound.releases_of_queueRelease released
    have controls := Outbound.pendingControl_of_ackPacket acked
    rw [kept]
    exact same controls
  | completed acked => exact same (Outbound.pendingControl_of_ackRelease acked)
  | queued queued _ =>
    obtain ⟨controls, kept, appended⟩ := Outbound.controls_of_queueControl queued
    rw [kept]
    exact Nat.le_of_eq (by simp [FixedVec.length, appended])

/-- A transition queues a control packet only on a quiet connection, and only one. -/
theorem Step.controls_length {before after : ClientMoment} (step : Step τ before after) :
    (controlsOf after).length ≤ (controlsOf before).length ∨
      before.self.Quiet ∧ (controlsOf after).length ≤ (controlsOf before).length + 1 := by
  -- A connection that ends keeps its control packets and starts them over.
  have armed {connection : Connection} {trace : List (Happening Event)} {time : Nat}
      (same : connection.outbound = before.self.outbound.armReplay) :
      (controlsOf ⟨connection, trace, time⟩).length ≤ (controlsOf before).length := by
    rw [controlsOf, same, Outbound.controls_armReplay, List.length_map]
  cases step with
  | outflow step =>
    cases step with
    | tick later => exact .inl (Nat.le_refl _)
    | wrote alive idle next encoded positive within later =>
      refine .inl (Nat.le_of_eq ?_)
      rw [controlsOf, Connection.afterWrite_outbound]
      exact Outbound.length_controls_setWritten
    | flushing alive ready => exact .inl (Nat.le_refl _)
    | flushed alive flushing later => exact .inl (List.length_filter_le _ _)
    | disconnected => exact .inl (armed rfl)
    | pinged alive quiet due queued =>
      obtain ⟨controls, rfl, appended⟩ := Outbound.controls_of_queueControl queued
      refine .inr ⟨quiet, Nat.le_of_eq ?_⟩
      change controls.toList.length = _
      rw [appended, List.length_append, List.length_singleton]
  | upkeep step => cases step <;> exact .inl (Nat.le_refl _)
  | opening step =>
    obtain ⟨room, same⟩ := step.queues
    exact .inl (by rw [controlsOf, same])
  | handled packet alive quiet =>
    refine .inr ⟨quiet, ?_⟩
    obtain ⟨taken, state, handled, same | same⟩ := before.self.handle_cases packet
    · rw [controlsOf, same]
      exact handled.controls_length
    · rw [controlsOf, same]
      change state.data.outbound.armReplay.pendingControl.toList.length ≤ _
      rw [Outbound.controls_armReplay, List.length_map]
      exact handled.controls_length
  | admitted admissible =>
    refine .inl (Nat.le_of_eq ?_)
    rw [controlsOf, Connection.enlist_outbound]
  | direct ready whole later => exact .inl (Nat.le_refl _)
  | broken ready part => exact .inl (armed rfl)
  | opened => exact .inl (armed rfl)
  | reset closed => exact .inl (Nat.zero_le _)
  | connected closed later sized reserved quota limit state =>
    subst state
    exact .inl (Nat.le_refl _)

/-- At most one control packet is queued at any time. -/
structure Sparse (moment : ClientMoment) : Prop where
  /-- The progress of tracked packets agrees with the state of the connection. -/
  tidy : moment.self.Tidy
  /-- There is at most one control packet. -/
  few : (controlsOf moment).length ≤ 1

/-- A transition adds a control packet only to an empty queue. -/
theorem Step.sparse {before after : ClientMoment} (step : Step τ before after)
    (sparse : Sparse before) : Sparse after := by
  refine ⟨step.tidy sparse.tidy, ?_⟩
  have few := sparse.few
  rcases step.controls_length with fewer | ⟨quiet, one⟩
  · omega
  · -- Whatever is queued on a quiet connection has been flushed.
    have empty : (controlsOf before).length = 0 := by
      rw [controlsOf, sparse.tidy.controls_of_quiet quiet, List.length_nil]
    omega

theorem Torn.sparse (torn : Torn before after) (sparse : Sparse before) : Sparse after :=
  ⟨by rw [torn.self]; exact sparse.tidy, by rw [controlsOf, torn.self]; exact sparse.few⟩

theorem run_sparse (config : ConfigBuilder) (clock : Clock) (calls : List (Invocation π τ)) :
    Sparse (run (start config clock) calls).moment :=
  run_keeps ⟨.of_armed (.new config.tx), Nat.zero_le _⟩ Step.sparse Torn.sparse calls

/-- Every packet that was handled found room for its acknowledgement. -/
structure Roomy (moment : ClientMoment) : Prop where
  /-- The progress of tracked packets agrees with the state of the connection. -/
  tidy : moment.self.Tidy
  /-- There was room whenever a packet was handled. -/
  room : ∀ before packet delivered, .noted (.handled before packet delivered) ∈ moment.trace →
    before.data.outbound.pendingControl.length < maxPendingControl

/-- An event that does not record a handled packet. -/
def Unhandled (event : Happening Event) : Prop :=
  ∀ before packet delivered, event ≠ .noted (.handled before packet delivered)

/-- Events that record no handled packet do not matter. -/
theorem Roomy.append {events : List (Happening Event)} (roomy : Roomy before)
    (tidy : after.self.Tidy) (trace : after.trace = before.trace ++ events)
    (unhandled : ∀ event ∈ events, Unhandled event) : Roomy after := by
  refine ⟨tidy, fun state packet delivered found => ?_⟩
  rw [trace, List.mem_append] at found
  rcases found with found | found
  · exact roomy.room state packet delivered found
  · exact absurd rfl (unhandled _ found state packet delivered)

theorem Routine.unhandled {event : Happening Event} (routine : Routine event) :
    Unhandled event := by
  intro before packet delivered
  cases routine <;> simp

/-- A transition that handles a packet finds room for its acknowledgement. -/
theorem Step.roomy (step : Step τ before after) (roomy : Roomy before) : Roomy after := by
  have tidy := step.tidy roomy.tidy
  cases step with
  | outflow step =>
    cases step with
    | tick later => exact ⟨tidy, roomy.room⟩
    | wrote alive idle next encoded positive within later =>
      exact roomy.append tidy rfl (by simp [Unhandled])
    | flushing alive ready => exact roomy.append tidy rfl (by simp [Unhandled])
    | flushed alive flushing later => exact roomy.append tidy rfl (by simp [Unhandled])
    | disconnected => exact ⟨tidy, roomy.room⟩
    | pinged alive quiet due queued => exact ⟨tidy, roomy.room⟩
  | upkeep step =>
    obtain ⟨events, trace, routine⟩ := step.routine
    exact roomy.append tidy trace fun event found => (routine event found).unhandled
  | opening step =>
    obtain ⟨events, trace, routine⟩ := step.routine
    exact roomy.append tidy trace fun event found => (routine event found).unhandled
  | handled packet alive quiet =>
    refine ⟨tidy, fun state packet delivered found => ?_⟩
    rcases List.mem_append.mp found with found | found
    · exact roomy.room state packet delivered found
    · -- The packet is handled on a quiet connection, which has flushed every control packet.
      simp only [List.mem_singleton, Happening.noted.injEq, Event.handled.injEq] at found
      rw [found.1]
      exact roomy.tidy.room_of_quiet quiet
  | admitted admissible => exact roomy.append tidy rfl (by simp [Unhandled])
  | direct ready whole later =>
    exact roomy.append tidy rfl fun event found => (routine_whole event found).unhandled
  | broken ready part =>
    exact roomy.append tidy rfl fun event found => (part.routine event found).unhandled
  | opened => exact roomy.append tidy rfl (by simp [Unhandled])
  | reset closed => exact roomy.append tidy rfl (by simp [Unhandled])
  | connected closed later sized reserved quota limit state =>
    exact roomy.append tidy rfl (by simp [Unhandled])

/-- In every run there was room whenever a packet was handled. -/
theorem run_roomy (config : ConfigBuilder) (clock : Clock) (calls : List (Invocation π τ)) :
    Roomy (run (start config clock) calls).moment := by
  have first : Roomy (start config clock : ClientWorld τ).moment :=
    ⟨.of_armed (.new config.tx), fun _ _ _ found => by simp [start, World.moment] at found⟩
  refine run_keeps first Step.roomy (fun torn roomy => ?_) calls
  cases torn with
  | torn ready part =>
    exact roomy.append roomy.tidy rfl fun event found => (part.routine event found).unhandled

/--
The queue of acknowledgements never overflows.

Every inbound packet finds a free slot, so a required acknowledgement is queued unless it exceeds the
limit of the broker. So does every PINGREQ, at every moment of a run. What is queued leaves only
after its bytes were accepted and flushed, or with the session.
-/
theorem run_acknowledgements (config : ConfigBuilder) (clock : Clock)
    (calls : List (Invocation π τ)) :
    (∀ before packet delivered,
      .noted (.handled before packet delivered) ∈ (run (start config clock) calls).trace →
        before.data.outbound.pendingControl.length < maxPendingControl ∧
        wp (handlePacket packet) (fun delivered => Answers packet before (.ok delivered))
          (fun error => Answers packet before (.error error)) before) ∧
    (∀ current : ClientWorld τ, Moves τ (start config clock : ClientWorld τ).moment current.moment →
      current.self.live = true →
        wp (serviceOutboundOnce current.time) (fun _ _ => True)
          (fun stop _ => stop ≠ .error (.resource .inflightExhausted)) current) ∧
    (∀ invocation : Invocation π τ, (run (start config clock) calls).self.live = true →
      invocation.call.onHandle = true →
      invocation.failure (run (start config clock) calls) = some (.resource .inflightExhausted) →
        Exhausted (invocation.perform (run (start config clock) calls)).2) ∧
    Relation.ReflTransGen (fun before after => Move τ before after ∧ ControlMove before after)
      (start config clock : ClientWorld τ).moment (run (start config clock) calls).moment := by
  -- Each part is a fact about every moment of the run, taken at its end.
  have settled := (settled_start config clock).run calls
  refine ⟨fun before packet delivered found => ?_, fun current moves alive => ?_,
    fun invocation alive operation failed => ?_, ?_⟩
  · have room := (run_roomy config clock calls).room before packet delivered found
    exact ⟨room, handlePacket_answers packet before room⟩
  · have tidy := moves.tidy (.of_armed (.new config.tx))
    exact wp_mono (serviceOutboundOnce_hindered tidy alive rfl) (fun _ _ _ => trivial)
      (fun _ _ hindered => (hindered.excused : Excused (fun _ => False) _ _).exhausted)
  · exact (invocation.perform_excused settled.tidy settled.rest alive operation failed).exhausted rfl
  · exact settled.moves.lift id fun _ _ move => ⟨move, move.controls⟩

/-- What each handled packet required, the error it met, and how many control packets it left. -/
def handlings (trace : List (Happening Event)) :
    List (Option ControlAction × Option (Error Empty) × Nat) :=
  trace.filterMap fun
    | .noted (.handled before packet _) =>
      let required := packet.answer before.data.pendingServerPacketIds
      match handlePacket packet before with
      | .ok _ after => some (required, none, after.data.outbound.pendingControl.length)
      | .error error after =>
        some (required, some error, after.data.outbound.pendingControl.length)
    | _ => none

/--
The queue of acknowledgements has room, and yet two packets fail.

The ninth PUBREC finds eight pending releases. The acknowledgement of a publication is larger than
the broker admits, so it is not queued.
-/
theorem run_acknowledgements_refused :
    (handlings (run ninthSent (receivedPublication.drop 1)).trace).getLast? =
      some (none, some (.resource .inflightExhausted), 0) ∧
    handlings (run (start roomyConfig (steppingClock 1 4)) [narrowConnect, pollOnce]).trace =
      [(some (.pubRec 7 .success), some (.resource .packetTooLarge), 0)] := by
  decide +kernel

end Minimq

import Minimq.Proofs.Client.Operations

/-! Whole runs follow the transitions, so an invariant of the transitions holds in every run. -/

namespace Minimq

open Hoare Async

variable {α ε π τ : Type} {origin : ClientMoment} {world : ClientWorld τ}
variable {before after : ClientMoment} {chunks : List Bytes}
variable {safe : Bool} {P : ClientMoment → Prop} {packet : Bytes} {outcome : Outcome}

/-- Whether a call may be dropped at any await without tearing a packet. -/
def Call.cancelSafe (session : Session) : Call π → Bool
  | .publish publication => effectiveQos session publication.qos != some .atMostOnce
  | .disconnectWith _ => false
  | _ => true

/-- All transitions of a client, a direct write that is dropped midway included. -/
inductive Move (τ : Type) : ClientMoment → ClientMoment → Prop where
  | step {before after : ClientMoment} (step : Step τ before after) : Move τ before after
  | torn {before after : ClientMoment} (torn : Torn before after) : Move τ before after

/-- How a call can end. -/
inductive Ended (origin : ClientMoment) (safe : Bool) (outcome : Outcome) (after : ClientWorld τ) :
    Prop where
  /-- Transitions lead to the end of the call. -/
  | whole (reached : Reached origin after)
  /-- The call was dropped in the middle of a packet. -/
  | torn (dropped : outcome = .dropped) (fragile : safe = false)
      (torn : ∃ middle, Steps τ origin middle ∧ Torn middle after.moment) (rest : after.self.Rest)

/-- A program whose outcome is always reached by transitions. -/
theorem finish_of_wp {program : Client τ ε α}
    (spec : wp program (fun _ after => Reached origin after) (fun _ after => Reached origin after)
      world) : Ended origin safe (finish (program world)).1 (finish (program world)).2 := by
  revert spec
  unfold wp
  cases program world with
  | ok value after => exact .whole
  | error stop after => cases stop <;> exact .whole

/-- A program that may be dropped in the middle of a packet. -/
theorem finish_of_wp_dropped {program : Client τ ε α}
    (spec : wp program (fun _ after => Reached origin after)
      (fun stop after => Reached origin after ∨ (Dropped origin stop after ∧ safe = false)) world) :
    Ended origin safe (finish (program world)).1 (finish (program world)).2 := by
  -- A call that returned an error was not dropped, so nothing is torn.
  revert spec
  unfold wp
  cases program world with
  | ok value after => exact .whole
  | error stop after =>
    rintro (reached | ⟨dropped, fragile⟩)
    · cases stop <;> exact .whole reached
    · cases stop with
      | error error => exact absurd rfl (dropped.dropped error)
      | dropped => exact .torn rfl fragile dropped.torn dropped.rest
      | expired => exact .torn rfl fragile dropped.torn dropped.rest

/-- Every call follows the transitions, apart from the last packet of a call that is dropped. -/
theorem Invocation.perform_ended (tidy : world.self.Tidy) (rest : world.self.Rest)
    (invocation : Invocation π τ) :
    Ended world.moment (invocation.call.cancelSafe world.self.session)
      (invocation.perform world).1 (invocation.perform world).2 := by
  -- Only a direct write can be torn by a drop, and the call knows if it makes one.
  have reached : Reached world.moment { world with replies := invocation.replies } := ⟨.refl, rest⟩
  obtain ⟨call, replies⟩ := invocation
  unfold perform
  cases call with
  | connect inbound =>
    exact finish_of_wp (connect_spec .refl)
  | drive => exact finish_of_wp (drive_spec tidy reached)
  | poll => exact finish_of_wp (poll_spec tidy reached)
  | recv => exact finish_of_wp (recv_spec tidy reached)
  | publish publication =>
    refine finish_of_wp_dropped (wp_mono (publish_spec reached publication) (fun _ _ => id)
      (fun stop after stopped => ?_))
    exact stopped.imp_right fun dropped => ⟨dropped.1, by simpa [Call.cancelSafe] using dropped.2⟩
  | subscribe topics properties => exact finish_of_wp (subscribe_spec reached topics properties)
  | unsubscribe topics properties => exact finish_of_wp (unsubscribe_spec reached topics properties)
  | disconnectWith disconnect =>
    exact finish_of_wp_dropped (wp_mono (disconnectWith_spec reached disconnect) (fun _ _ => id)
      (fun _ _ stopped => stopped.imp_right fun dropped => ⟨dropped, rfl⟩))
  | handleDisconnect => exact .whole (.given_up reached.steps)

/-- Any number of transitions, direct writes that are dropped midway included. -/
abbrev Moves (τ : Type) := Relation.ReflTransGen (Move τ)

theorem Steps.moves (steps : Steps τ before after) : Moves τ before after := by
  induction steps with
  | refl => exact .refl
  | tail _ step ih => exact ih.tail (.step step)

/-- What every transition keeps, every sequence of moves keeps. -/
theorem Moves.keep
    (moves : Moves τ before after) (one : ∀ {before after}, Step τ before after → P before → P after)
    (torn : ∀ {before after}, Torn before after → P before → P after) (holds : P before) :
    P after := by
  induction moves with
  | refl => exact holds
  | tail _ move ih =>
    cases move with
    | step step => exact one step ih
    | torn broken => exact torn broken ih

theorem Torn.self (torn : Torn before after) : after.self = before.self := by
  cases torn
  rfl

theorem Ended.moves {after : ClientWorld τ}
    (ended : Ended origin safe outcome after) : Moves τ origin after.moment := by
  cases ended with
  | whole reached => exact reached.steps.moves
  | torn dropped fragile torn rest =>
    obtain ⟨middle, steps, torn⟩ := torn
    exact steps.moves.tail (.torn torn)

theorem Ended.rest {after : ClientWorld τ}
    (ended : Ended origin safe outcome after) : after.self.Rest := by
  cases ended with
  | whole reached => exact reached.rest
  | torn dropped fragile torn rest => exact rest

theorem Moves.tidy (moves : Moves τ before after) (tidy : before.self.Tidy) : after.self.Tidy :=
  moves.keep Step.tidy (fun torn tidy => by rw [torn.self]; exact tidy) tidy

/-- What holds between two calls. -/
structure Settled (origin : ClientMoment) (world : ClientWorld τ) : Prop where
  /-- Moves led here. -/
  moves : Moves τ origin world.moment
  /-- The progress of tracked packets agrees with the state of the connection. -/
  tidy : world.self.Tidy
  /-- No complete packet is waiting. -/
  rest : world.self.Rest

theorem Settled.perform (settled : Settled origin world) (invocation : Invocation π τ) :
    Settled origin (invocation.perform world).2 := by
  have ended := invocation.perform_ended settled.tidy settled.rest
  exact ⟨settled.moves.trans ended.moves, ended.moves.tidy settled.tidy, ended.rest⟩

theorem Settled.run (settled : Settled origin world) (calls : List (Invocation π τ)) :
    Settled origin (run world calls) := by
  induction calls generalizing world with
  | nil => exact settled
  | cons invocation rest ih => exact ih (settled.perform invocation)

theorem settled_start (config : ConfigBuilder) (clock : Clock) :
    Settled (start config clock : ClientWorld τ).moment (start config clock : ClientWorld τ) where
  moves := .refl
  tidy := .of_armed (.new config.tx)
  rest := rfl

theorem run_keeps {config : ConfigBuilder} {clock : Clock}
    (first : P (start config clock : ClientWorld τ).moment)
    (one : ∀ {before after}, Step τ before after → P before → P after)
    (torn : ∀ {before after}, Torn before after → P before → P after)
    (calls : List (Invocation π τ)) : P (run (start config clock) calls).moment :=
  ((settled_start config clock).run calls).moves.keep one torn first

theorem run_moves {config : ConfigBuilder} {clock : Clock}
    (first : P (start config clock : ClientWorld τ).moment)
    (one : ∀ {before after}, Move τ before after → P before → P after)
    (calls : List (Invocation π τ)) : P (run (start config clock) calls).moment :=
  run_keeps first (fun step => one (.step step)) (fun torn => one (.torn torn)) calls

/-- No call is dropped that may tear a packet. -/
def Unbroken (world : ClientWorld τ) : List (Invocation π τ) → Prop
  | [] => True
  | invocation :: rest =>
    ((invocation.perform world).1 = .dropped →
      invocation.call.cancelSafe world.self.session = true) ∧
    Unbroken (invocation.perform world).2 rest

/-- Whether a call is dropped that may tear a packet can be seen from the calls. -/
instance decidableUnbroken (world : ClientWorld τ) :
    (calls : List (Invocation π τ)) → Decidable (Unbroken world calls)
  | [] => .isTrue trivial
  | invocation :: rest =>
    have := decidableUnbroken (invocation.perform world).2 rest
    inferInstanceAs (Decidable (_ ∧ _))

theorem unbroken_append {first second : List (Invocation π τ)} :
    Unbroken world (first ++ second) ↔
      Unbroken world first ∧ Unbroken (Minimq.run world first) second := by
  induction first generalizing world with
  | nil => simp [Unbroken, Minimq.run]
  | cons invocation rest ih => simp [Unbroken, Minimq.run, ih, and_assoc]

/-- A call that tears no packet follows the transitions. -/
theorem Ended.steps {after : ClientWorld τ}
    (ended : Ended origin safe outcome after) (whole : outcome = .dropped → safe = true) :
    Steps τ origin after.moment := by
  cases ended with
  | whole reached => exact reached.steps
  | torn dropped fragile torn rest =>
    rw [whole dropped] at fragile
    cases fragile

theorem Settled.steps (settled : Settled origin world) {calls : List (Invocation π τ)}
    (unbroken : Unbroken world calls) : Steps τ world.moment (Minimq.run world calls).moment := by
  induction calls generalizing world with
  | nil => exact .refl
  | cons invocation rest ih =>
    have ended := invocation.perform_ended settled.tidy settled.rest
    exact (ended.steps unbroken.1).trans (ih (settled.perform invocation) unbroken.2)

theorem Routine.not_starts {event : Happening Event} (routine : Routine event) :
    ¬ Starts event := by
  cases routine <;> simp [Starts]

theorem Routine.unwritten {event : Happening Event} (routine : Routine event) (packet : Packet)
    (bytes : Bytes) (start count : Nat) : event ≠ .noted (.wrote packet bytes start count) := by
  cases routine <;> simp

theorem routine_map {wrap : Bytes → Happening Event} (routine : ∀ bytes, Routine (wrap bytes))
    (chunks : List Bytes) : ∀ event ∈ chunks.map wrap, Routine event := by
  intro event found
  obtain ⟨chunk, -, rfl⟩ := List.mem_map.mp found
  exact routine chunk

/-- What happens before a connection is established is routine. -/
theorem routine_preamble {events : List (Happening Event)} (transport : ∀ event ∈ events,
    event = .flushing ∨ event = .flushed ∨ ∃ bytes, event = .accepted bytes) :
    ∀ event ∈ events, Routine event := by
  intro event found
  rcases transport event found with rfl | rfl | ⟨bytes, rfl⟩
  · exact .flushing
  · exact .flushed
  · exact .accepted bytes

theorem Opening.dead (step : Opening before after) : after.self.live = false := by
  cases step <;> assumption

theorem Opening.routine (step : Opening before after) :
    ∃ events, after.trace = before.trace ++ events ∧ ∀ event ∈ events, Routine event := by
  cases step with
  | preamble closed transport => exact ⟨_, rfl, routine_preamble transport⟩
  | _ => exact ⟨[], (List.append_nil _).symm, by simp⟩

theorem Upkeep.routine (step : Upkeep before after) :
    ∃ events, after.trace = before.trace ++ events ∧ ∀ event ∈ events, Routine event := by
  cases step with
  | reading => exact ⟨_, rfl, routine_map .received _⟩
  | _ => exact ⟨[], (List.append_nil _).symm, by simp⟩

theorem Opening.queues (step : Opening before after) :
    ∃ room, after.self.outbound = { before.self.outbound with connectWorkspace := room } := by
  cases step with
  | reserved closed request fits =>
    obtain ⟨-, -, rfl⟩ := Outbound.room_of_setConnectWorkspace fits
    exact ⟨_, rfl⟩
  | assigned closed anonymous request fits =>
    obtain ⟨-, -, rfl⟩ := Outbound.room_of_setConnectWorkspace fits
    exact ⟨_, rfl⟩
  | _ => exact ⟨_, rfl⟩

/-- Handing a packet over is routine if draining it is. -/
theorem routine_handover {drain : List (Happening Event)}
    (drained : ∀ event ∈ drain, Routine event) :
    ∀ event ∈ handover packet chunks drain, Routine event := by
  intro event found
  rw [handover, List.cons_append, List.mem_cons, List.mem_append] at found
  rcases found with rfl | found | found
  · exact .direct packet
  · exact routine_map .accepted chunks event found
  · exact drained event found

theorem routine_whole {now : Nat} : ∀ event ∈
    handover packet chunks [.flushing, .flushed, .noted (.active now)], Routine event := by
  refine routine_handover ?_
  simp [Routine.flushing, Routine.flushed, Routine.active]

theorem handover_whole {back : List (Happening Event)}
    {now : Nat} : back ++ handover packet chunks [.flushing, .flushed, .noted (.active now)] =
      (back ++ handover packet chunks [.flushing]) ++ [.flushed, .noted (.active now)] := by
  simp [handover]

theorem Partly.routine {drain : List (Happening Event)}
    (part : Partly packet chunks drain) : ∀ event ∈ handover packet chunks drain, Routine event := by
  refine routine_handover ?_
  cases part <;> simp [Routine.flushing, Routine.flushed]

/-- A clock that shows a later instant at each of its first readings and then stands still. -/
def steppingClock (step count : Nat) : Clock where
  reading sample := min sample count * step
  monotone _ _ later := Nat.mul_le_mul_right _ (min_le_min_right _ later)

/-- A client with a small arena. -/
def smallConfig (keepaliveSeconds : UInt16) : ConfigBuilder :=
  { rx := List.replicate 8 0, tx := List.replicate 64 0, keepaliveSeconds }

/-- A connection attempt that the broker accepts without announcing anything. -/
def acceptedConnect : Invocation Unit Unit :=
  ⟨.connect [0x20, 3, 0, 0, 0], [.ready 64, .ready 0, .ready 1, .ready 1, .ready 3]⟩

/-- A small QoS 2 publication. -/
def oncePublication : Publication Unit :=
  ⟨⟨[0x61], by decide⟩, .slice [], .exactlyOnce, .ofBytes [], .notRetained⟩

/-- A publication is sent on a new connection, in two parts. -/
def sentPublication : List (Invocation Unit Unit) :=
  [acceptedConnect, ⟨.publish oncePublication, [.ready 3, .ready 64, .ready 0]⟩]

/-- A publication is sent, and its PUBREC is read and answered. -/
def receivedPublication : List (Invocation Unit Unit) :=
  [⟨.publish oncePublication, [.ready 64, .ready 0]⟩, ⟨.poll, [.ready 1, .ready 1, .ready 2]⟩,
    ⟨.drive, [.ready 64, .ready 0]⟩]

/-- A connection on which the broker receives publications and completes none of them. -/
def hesitantConnect (count : Nat) : Invocation Unit Unit :=
  ⟨.connect ([0x20, 3, 0, 0, 0] ++
    (List.range count).flatMap fun index => [0x50, 2, 0, index.toUInt8 + 1]),
    [.ready 64, .ready 0, .ready 1, .ready 1, .ready 3]⟩

/-- Eight publications wait for their PUBCOMP, and the ninth was sent. -/
def ninthSent : ClientWorld Unit :=
  run (start (smallConfig 60) (steppingClock 1 4)) (hesitantConnect 9 ::
    (List.replicate 8 receivedPublication).flatten ++ receivedPublication.take 1)

/-- A QoS 2 publication of the broker, and its repetition. -/
def onceWire : Bytes := [0x34, 6, 0, 1, 0x61, 0, 7, 0]

/-- A client with a receive buffer that is large enough for a limit in the CONNACK. -/
def roomyConfig : ConfigBuilder := { smallConfig 60 with rx := List.replicate 16 0 }

/-- A broker that takes packets of four bytes at most, and sends a publication. -/
def narrowConnect : Invocation Unit Unit :=
  ⟨.connect ([0x20, 8, 0, 0, 5, 0x27, 0, 0, 0, 4] ++ onceWire),
    [.ready 64, .ready 0, .ready 1, .ready 1, .ready 8]⟩

/-- Read a packet and flush its acknowledgement. -/
def pollOnce : Invocation Unit Unit :=
  ⟨.poll, [.ready 1, .ready 1, .ready 6, .ready 5, .ready 0]⟩

end Minimq

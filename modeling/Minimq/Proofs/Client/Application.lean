import Minimq.Client.Application
import Minimq.Proofs.Client.Subscription

/-! A service that waits for its subscription is ready only after it was acknowledged. -/

namespace Minimq

open Hoare Async

variable {π τ σ β : Type} {topics : List TopicFilter}

/-- How a step of a service uses the client, and the handle of a subscription it starts. -/
inductive Uses (topics : List TopicFilter) (replies : List (Reply τ)) (world : ClientWorld τ) :
    ClientWorld τ → Option Op → Prop
  /-- It leaves the client alone. -/
  | idle : Uses topics replies world world none
  /-- It calls an operation that starts no subscription. -/
  | called (call : Call Unit) :
      Uses topics replies world (Invocation.perform world ⟨call, replies⟩).2 none
  /-- It subscribes to the topics. -/
  | subscribed {op : Op} (returned : Invocation.result world
        (⟨.subscribe topics [], replies⟩ : Invocation Unit τ) = .ok (.op (some op))) :
      Uses topics replies world (Invocation.perform world
        (⟨.subscribe topics [], replies⟩ : Invocation Unit τ)).2 (some op)

namespace Uses

variable {replies : List (Reply τ)} {world after : ClientWorld τ} {handle : Option Op}

theorem settled {origin : ClientMoment} (uses : Uses topics replies world after handle)
    (settled : Settled origin world) : Settled origin after := by
  cases uses with
  | idle => exact settled
  | called call => exact settled.perform _
  | subscribed returned => exact settled.perform _

theorem sought {origin : ClientMoment} {op : Op} (uses : Uses topics replies world after (some op))
    (settled : Settled origin world) (same : resets after.trace = resets world.trace) :
    Sought topics op after.moment := by
  cases uses with
  | subscribed returned => exact sought_of_returned settled returned same

theorem of_subscribe {op : Op}
    (done : Minimq.subscribe topics [] { world with replies } = .ok op after) :
    Uses topics replies world after (some op) := by
  have returned : Invocation.result world (⟨.subscribe topics [], replies⟩ : Invocation Unit τ) =
      .ok (.op (some op)) := by
    simp only [Invocation.result, Call.result, done, resultOf]
  have uses := Uses.subscribed returned
  simpa only [Invocation.perform, Call.perform, done, finish] using uses

theorem of_subscribe_failed {stop : Stop (Error τ)}
    (failed : Minimq.subscribe topics [] { world with replies } = .error stop after) :
    Uses topics replies world after none := by
  have uses : Uses topics replies world _ none := .called (.subscribe topics [])
  cases stop <;> simpa only [Invocation.perform, Call.perform, failed, finish] using uses

end Uses

/--
A service that waits for its subscription.

Its state tells the subscription it waits for and whether it is ready; `own` holds in all its states.
-/
structure Component.Waits (component : Component τ σ β) (topics : List TopicFilter)
    (own : σ → Prop) (awaited : σ → Option Op) (ready : σ → Bool) : Prop where
  /-- A new session starts it over. -/
  fresh : ∀ service, own service → own (component.begin .connected service) ∧
    awaited (component.begin .connected service) = none ∧
    ready (component.begin .connected service) = false
  /-- A resumed session adds nothing. -/
  resumed : ∀ service, own service → own (component.begin .reconnected service) ∧
    (∀ op, awaited (component.begin .reconnected service) = some op → awaited service = some op) ∧
    (ready (component.begin .reconnected service) = true → ready service = true)
  /-- Neither does an input. -/
  taken : ∀ input service, own service → own (component.take input service) ∧
    awaited (component.take input service) = awaited service ∧
    ready (component.take input service) = ready service
  /-- A step may start the subscription, and makes the service ready once it is complete. -/
  stepped : ∀ replies world service, own service →
    own (component.step replies world service).1 ∧
    ∃ handle, Uses topics replies world (component.step replies world service).2 handle ∧
      (∀ op, awaited (component.step replies world service).1 = some op →
        awaited service = some op ∨ handle = some op) ∧
      (ready (component.step replies world service).1 = true → ready service = true ∨
        ∃ op, awaited service = some op ∧ world.self.session.status op = .complete)

namespace Application

/-- What an application knows of the subscription of its service. -/
structure Honest (origin : ClientMoment) (topics : List TopicFilter) (own : σ → Prop)
    (awaited : σ → Option Op) (ready : σ → Bool) (application : Application τ σ) : Prop where
  /-- The client is at a quiet point of a run. -/
  settled : Settled origin application.world
  /-- The service is in one of its states. -/
  own : own application.service
  /-- The subscription it waits for is pending or was acknowledged. -/
  awaited : application.informed = true → ∀ op, awaited application.service = some op →
    Sought topics op application.world.moment
  /-- If it is ready, its subscription was acknowledged. -/
  ready : application.informed = true → ready application.service = true →
    Answered topics (fun _ => True) application.world.trace

variable {component : Component τ σ β} {own : σ → Prop} {awaited : σ → Option Op}
  {ready : σ → Bool} {origin : ClientMoment} {application : Application τ σ}

theorem informed_of_knows {before after : ClientWorld τ} {event : Option ConnectEvent}
    {informed : Bool} (known : knows before after event informed = true) :
    (resets after.trace = resets before.trace ∧ informed = true) ∨ event = some .connected := by
  unfold knows at known
  split at known
  · exact .inl ⟨‹_›, known⟩
  · exact .inr (beq_iff_eq.mp known)

/-- What is known of a subscription is not lost by a call within a session. -/
theorem Honest.kept (honest : application.Honest origin topics own awaited ready)
    {after : ClientWorld τ} (moves : Moves τ application.world.moment after.moment)
    (same : resets after.trace = resets application.world.trace)
    (informed : application.informed = true) :
    (∀ op, awaited application.service = some op → Sought topics op after.moment) ∧
      (ready application.service = true → Answered topics (fun _ => True) after.trace) := by
  refine ⟨fun op waiting => Moves.sought moves same (honest.awaited informed op waiting),
    fun now => ?_⟩
  obtain ⟨events, extended⟩ := Moves.extends_trace moves
  have extended : application.world.trace ++ events = after.trace := extended
  rw [← extended] at same ⊢
  exact (honest.ready informed now).append same

/-- A call of the application. -/
theorem Honest.call (waits : component.Waits topics own awaited ready)
    (honest : application.Honest origin topics own awaited ready) (invocation : Invocation π τ) :
    (application.perform component (.call invocation)).Honest origin topics own awaited ready := by
  obtain ⟨world, service, informed⟩ := application
  have settled := honest.settled
  have base : Settled world.moment world := ⟨.refl, settled.tidy, settled.rest⟩
  have moves := (base.perform invocation).moves
  -- Either the service starts over, or the call stays within a session the service knows.
  cases made : connected (invocation.result world) with
  | none =>
    simp only [perform, made, Option.elim_none]
    refine ⟨settled.perform invocation, honest.own, fun known => ?_, fun known => ?_⟩
    · rcases informed_of_knows known with ⟨same, informed⟩ | fresh
      · exact (honest.kept moves same informed).1
      · cases fresh
    · rcases informed_of_knows known with ⟨same, informed⟩ | fresh
      · exact (honest.kept moves same informed).2
      · cases fresh
  | some event =>
    simp only [perform, made, Option.elim_some]
    cases event with
    | connected =>
      obtain ⟨mine, none, unready⟩ := waits.fresh service honest.own
      refine ⟨settled.perform invocation, mine, fun _ op waiting => ?_, fun _ now => ?_⟩
      · rw [none] at waiting
        cases waiting
      · rw [unready] at now
        cases now
    | reconnected =>
      obtain ⟨mine, fewer, less⟩ := waits.resumed service honest.own
      refine ⟨settled.perform invocation, mine, fun known op waiting => ?_, fun known now => ?_⟩
      · rcases informed_of_knows known with ⟨same, informed⟩ | fresh
        · exact (honest.kept moves same informed).1 op (fewer op waiting)
        · cases fresh
      · rcases informed_of_knows known with ⟨same, informed⟩ | fresh
        · exact (honest.kept moves same informed).2 (less now)
        · cases fresh

/-- A step of the service. -/
theorem Honest.step (waits : component.Waits topics own awaited ready)
    (honest : application.Honest origin topics own awaited ready) (replies : List (Reply τ)) :
    (application.perform component (.step replies : Act π τ β)).Honest origin topics own awaited
      ready := by
  obtain ⟨world, service, informed⟩ := application
  obtain ⟨mine, handle, uses, waiting, now⟩ := waits.stepped replies world service honest.own
  have settled := honest.settled
  have moves := (uses.settled ⟨.refl, settled.tidy, settled.rest⟩).moves
  refine ⟨uses.settled settled, mine, fun known op same => ?_, fun known same => ?_⟩
  · rcases informed_of_knows known with ⟨kept, informed⟩ | fresh
    · rcases waiting op same with old | new
      · exact (honest.kept moves kept informed).1 op old
      · exact (new ▸ uses).sought settled kept
    · cases fresh
  · rcases informed_of_knows known with ⟨kept, informed⟩ | fresh
    · rcases now same with old | ⟨op, old, complete⟩
      · exact (honest.kept moves kept informed).2 old
      · -- The subscription was acknowledged before the step looked at it.
        have answered := (honest.awaited informed op old).answered complete
        obtain ⟨events, extended⟩ := Moves.extends_trace moves
        have extended : world.trace ++ events = (component.step replies world service).2.trace :=
          extended
        dsimp only [perform] at kept ⊢
        rw [← extended] at kept ⊢
        exact answered.append kept
    · cases fresh

theorem Honest.take (waits : component.Waits topics own awaited ready)
    (honest : application.Honest origin topics own awaited ready) (input : β) :
    (application.perform component (.take input : Act π τ β)).Honest origin topics own awaited
      ready := by
  obtain ⟨world, service, informed⟩ := application
  obtain ⟨mine, waiting, now⟩ := waits.taken input service honest.own
  refine ⟨honest.settled, mine, fun known op same => ?_, fun known same => ?_⟩
  · exact honest.awaited known op (waiting.symm.trans same)
  · exact honest.ready known (now.symm.trans same)

/-- Whatever an application does, a service that is ready was told that its subscription is. -/
theorem run_honest (waits : component.Waits topics own awaited ready) {service : σ}
    (mine : own service) (idle : awaited service = none) (unready : ready service = false)
    (config : ConfigBuilder) (clock : Clock) (acts : List (Act π τ β)) :
    (run component acts (start config clock service)).Honest
      (Minimq.start config clock : ClientWorld τ).moment topics own awaited ready := by
  -- A service that waits for nothing and is not ready claims nothing.
  have begun : (start config clock service : Application τ σ).Honest
      (Minimq.start config clock : ClientWorld τ).moment topics own awaited ready := by
    refine ⟨settled_start config clock, mine, fun _ op waiting => ?_, fun _ now => ?_⟩
    · cases idle.symm.trans waiting
    · cases unready.symm.trans now
  generalize start config clock service = application at begun ⊢
  induction acts generalizing application with
  | nil => exact begun
  | cons act acts ih =>
    refine ih _ ?_
    cases act with
    | call invocation => exact begun.call waits invocation
    | step replies => exact begun.step waits replies
    | take input => exact begun.take waits input

end Application

end Minimq

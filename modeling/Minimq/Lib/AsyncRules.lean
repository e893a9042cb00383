import Minimq.Lib.Hoare
import Minimq.Lib.Async

/-! Rules for programs over a scripted transport: one for each primitive, and one for loops. -/

namespace Async

open Hoare

variable {ω τ σ ε ε' α β : Type} {Q : α → World ω τ σ → Prop}
  {E : Stop ε → World ω τ σ → Prop} {world : World ω τ σ}
variable {rest : List (Reply τ)} {body : β → Program ω τ σ ε (β ⊕ α)} {reply : Reply τ}

@[simp] theorem moment_replies (rest : List (Reply τ)) :
    World.moment { world with replies := rest } = world.moment := rfl

@[simp] theorem moment_inbound (rest : List UInt8) :
    World.moment { world with inbound := rest } = world.moment := rfl

@[simp] theorem moment_record (event : Happening ω) :
    (world.record event).moment = ⟨world.self, world.trace ++ [event], world.time⟩ := rfl

@[simp] theorem moment_self (own : σ) :
    World.moment { world with self := own } = ⟨own, world.trace, world.time⟩ := rfl

theorem time_le_reading (world : World ω τ σ) : world.time ≤ world.clock.reading world.samples :=
  world.clock.monotone (Nat.sub_le _ _)

@[simp] theorem time_sampled :
    World.time { world with samples := world.samples + 1 } =
      world.clock.reading world.samples := rfl

@[simp] theorem wp_self {Q : σ → World ω τ σ → Prop} :
    wp (self : Program ω τ σ ε σ) Q E world ↔ Q world.self world := Iff.rfl

@[simp] theorem wp_update {Q : Unit → World ω τ σ → Prop} (f : σ → σ) :
    wp (update f : Program ω τ σ ε Unit) Q E world ↔
      Q () { world with self := f world.self } := Iff.rfl

@[simp] theorem wp_note {Q : Unit → World ω τ σ → Prop} (event : ω) :
    wp (note event : Program ω τ σ ε Unit) Q E world ↔
      Q () (world.record (.noted event)) := Iff.rfl

@[simp] theorem wp_now {Q : Nat → World ω τ σ → Prop} :
    wp (now : Program ω τ σ ε Nat) Q E world ↔
      Q (world.clock.reading world.samples) { world with samples := world.samples + 1 } := Iff.rfl

@[simp] theorem wp_rounds {Q : Nat → World ω τ σ → Prop} :
    wp (rounds : Program ω τ σ ε Nat) Q E world ↔ Q (2 * world.replies.length + 3) world := Iff.rfl

@[simp] theorem wp_fail (error : ε) :
    wp (fail error : Program ω τ σ ε α) Q E world ↔ E (.error error) world := Iff.rfl

@[simp] theorem wp_ofExcept (result : Except ε α) :
    wp (ofExcept result : Program ω τ σ ε α) Q E world ↔ match result with
      | .ok value => Q value world
      | .error error => E (.error error) world := by
  cases result <;> rfl

/-- Running a computation on a part of the own state. -/
@[simp] theorem wp_zoom {ρ : Type} {Q : Except ε' α → World ω τ σ → Prop} (part : σ → ρ)
    (replace : ρ → σ → σ) (action : EStateM ε' ρ α) :
    wp (zoom part replace action : Program ω τ σ ε (Except ε' α)) Q E world ↔
      wp action (fun value changed => Q (.ok value) { world with self := replace changed world.self })
        (fun error changed => Q (.error error) { world with self := replace changed world.self })
        (part world.self) := by
  simp only [wp, zoom]
  cases action (part world.self) <;> rfl

/-- Handing an error to the caller. -/
@[simp] theorem wp_attempt {Q : Except ε α → World ω τ σ → Prop} {E : Stop ε' → World ω τ σ → Prop}
    (program : Program ω τ σ ε α) :
    wp (attempt program : Program ω τ σ ε' (Except ε α)) Q E world ↔
      wp program (fun value => Q (.ok value)) (fun stop after => match stop with
        | .error error => Q (.error error) after
        | .dropped => E .dropped after
        | .expired => E .expired after) world := by
  simp only [wp, attempt]
  cases program world with
  | ok value after => rfl
  | error stop after => cases stop <;> rfl

/-- Running a program under another error type. -/
@[simp] theorem wp_mapError {E : Stop ε' → World ω τ σ → Prop} (f : ε → ε')
    (program : Program ω τ σ ε α) :
    wp (mapError f program) Q E world ↔
      wp program Q (fun stop after => match stop with
        | .error error => E (.error (f error)) after
        | .dropped => E .dropped after
        | .expired => E .expired after) world := by
  simp only [wp, mapError, bind_apply, attempt]
  cases program world with
  | ok value after => rfl
  | error stop after => cases stop <;> rfl

/-- Running a program under a deadline. -/
theorem wp_withDeadline {Q : Option α → World ω τ σ → Prop} {deadline : Nat}
    {program : Program ω τ σ ε α}
    (inside : wp program (fun value => Q (some value)) (fun stop after => match stop with
      | .expired => (deadline ≤ after.clock.reading after.samples →
          Q none { after with samples := after.samples + 1 }) ∧ E .dropped after
      | other => E other after) world) :
    wp (withDeadline deadline program) Q E world := by
  -- Only an expired timer is caught, and only if its deadline has passed on the clock.
  revert inside
  simp only [wp, withDeadline]
  cases program world with
  | ok value after => exact id
  | error stop after =>
    cases stop with
    | error error => exact id
    | dropped => exact id
    | expired =>
      intro inside
      dsimp only at inside ⊢
      by_cases due : deadline ≤ after.clock.reading after.samples
      · rw [if_pos due]
        exact inside.1 due
      · rw [if_neg due]
        exact inside.2

/-- An awaited call is settled one way or the other, which takes a reply, or never. -/
theorem wp_await {Q : Except τ Nat → World ω τ σ → Prop}
    (settled : ∀ result rest, rest.length < world.replies.length →
      Q result { world with replies := rest })
    (dropped : ∀ rest, E .dropped { world with replies := rest })
    (expired : ∀ rest, rest.length < world.replies.length →
      E .expired { world with replies := rest }) :
    wp (await : Program ω τ σ ε (Except τ Nat)) Q E world := by
  -- Without a reply the call is pending for ever, which is a dropped program.
  unfold wp await
  cases replies : world.replies with
  | nil =>
    have := dropped []
    rwa [← replies] at this
  | cons reply rest =>
    have fewer : rest.length < world.replies.length := by simp [replies]
    cases reply with
    | ready count => exact settled _ rest fewer
    | fail error => exact settled _ rest fewer
    | expire => exact expired rest fewer
    | cancel => exact dropped rest

/-- A write is refused, or some leading part of the bytes is accepted, which may be empty. -/
theorem wp_write {Q : Except τ Nat → World ω τ σ → Prop} (bytes : List UInt8)
    (refused : ∀ error rest, rest.length < world.replies.length →
      Q (.error error) { world with replies := rest })
    (unmoved : ∀ rest, rest.length < world.replies.length →
      Q (.ok 0) { world with replies := rest })
    (taken : ∀ count rest, rest.length < world.replies.length → 0 < count → count ≤ bytes.length →
      Q (.ok count) (World.record { world with replies := rest } (.accepted (bytes.take count))))
    (dropped : ∀ rest, E .dropped { world with replies := rest })
    (expired : ∀ rest, rest.length < world.replies.length →
      E .expired { world with replies := rest }) :
    wp (write bytes : Program ω τ σ ε (Except τ Nat)) Q E world := by
  -- A reply that grants no byte, or a write of nothing, leaves no record.
  unfold write
  rw [wp_bind]
  refine wp_await (fun result rest fewer => ?_) dropped expired
  cases result with
  | error error => exact refused error rest fewer
  | ok count =>
    by_cases none : bytes.take count = []
    · simp only [none, ne_eq, not_true_eq_false, if_false]
      exact unmoved rest fewer
    · have within : (bytes.take count).length ≤ bytes.length := by
        rw [List.length_take]
        exact Nat.min_le_right _ _
      have same : bytes.take (bytes.take count).length = bytes.take count := by
        rw [List.length_take, ← List.take_take, List.take_length]
      have moved := taken (bytes.take count).length rest fewer (List.length_pos_iff.mpr none) within
      rw [same] at moved
      simp only [none, wp_bind, ne_eq, not_false_eq_true, if_true]
      exact moved

/-- A flush is asked for, and then it is refused or completes. -/
theorem wp_flush {Q : Except τ Unit → World ω τ σ → Prop}
    (refused : ∀ error rest, rest.length < world.replies.length →
      Q (.error error) (World.record { world with replies := rest } .flushing))
    (drained : ∀ rest, rest.length < world.replies.length →
      Q (.ok ()) ((World.record { world with replies := rest } .flushing).record .flushed))
    (dropped : ∀ rest, E .dropped (World.record { world with replies := rest } .flushing))
    (expired : ∀ rest, rest.length < world.replies.length →
      E .expired (World.record { world with replies := rest } .flushing)) :
    wp (flush : Program ω τ σ ε (Except τ Unit)) Q E world := by
  unfold flush
  rw [wp_bind, wp_modify, wp_bind]
  refine wp_await (fun result rest fewer => ?_) dropped expired
  cases result with
  | error error => exact refused error rest fewer
  | ok count => exact drained rest fewer

/-- A read is refused or takes bytes from the front of what the peer sends. -/
theorem wp_read {Q : Except τ (List UInt8) → World ω τ σ → Prop} (window : Nat)
    (refused : ∀ error rest, rest.length < world.replies.length →
      Q (.error error) { world with replies := rest })
    (given : ∀ chunk rest inbound, rest.length < world.replies.length → chunk.length ≤ window →
      world.inbound = chunk ++ inbound →
      Q (.ok chunk) (World.record { world with replies := rest, inbound := inbound }
        (.received chunk)))
    (dropped : ∀ rest, E .dropped { world with replies := rest })
    (expired : ∀ rest, rest.length < world.replies.length →
      E .expired { world with replies := rest }) :
    wp (read window : Program ω τ σ ε (Except τ (List UInt8))) Q E world := by
  -- A reply grants at most the window and at most what the peer has sent.
  unfold read
  rw [wp_bind]
  refine wp_await (fun result rest fewer => ?_) dropped expired
  cases result with
  | error error => exact refused error rest fewer
  | ok count =>
    refine given _ rest _ fewer ?_ (List.take_append_drop (min count window) _).symm
    rw [List.length_take]
    exact Nat.le_trans (Nat.min_le_left _ _) (Nat.min_le_right _ _)

/-- A write of which the transport accepts some bytes. -/
theorem wp_write_ready {Q : Except τ Nat → World ω τ σ → Prop} {bytes : List UInt8} {count : Nat}
    (replies : world.replies = .ready count :: rest)
    (some : bytes.take count ≠ []) :
    wp (write bytes : Program ω τ σ ε (Except τ Nat)) Q E world ↔
      Q (.ok (bytes.take count).length)
        (World.record { world with replies := rest } (.accepted (bytes.take count))) := by
  unfold write
  rw [wp_bind]
  unfold wp await
  rw [replies]
  simp [some]

theorem wp_flush_ready {Q : Except τ Unit → World ω τ σ → Prop} {count : Nat}
    (replies : world.replies = .ready count :: rest) :
    wp (flush : Program ω τ σ ε (Except τ Unit)) Q E world ↔
      Q (.ok ()) ((World.record { world with replies := rest } .flushing).record .flushed) := by
  unfold flush
  rw [wp_bind, wp_modify, wp_bind]
  unfold wp await
  simp [World.record, replies]

/-- A reply that settles a call: at least one byte is moved, or the transport fails. -/
def Reply.Settles : Reply τ → Prop
  | .ready count => 0 < count
  | .fail _ => True
  | .expire | .cancel => False

/-- A call that is settled fails or completes. -/
theorem wp_await_settled {Q : Except τ Nat → World ω τ σ → Prop}
    (script : world.replies = reply :: rest) (settles : reply.Settles)
    (failed : ∀ error, reply = .fail error → Q (.error error) { world with replies := rest })
    (ready : ∀ count, 0 < count → Q (.ok count) { world with replies := rest }) :
    wp (await : Program ω τ σ ε (Except τ Nat)) Q E world := by
  unfold wp await
  rw [script]
  cases reply with
  | expire => cases settles
  | cancel => cases settles
  | fail error => exact failed error rfl
  | ready count => exact ready count settles

/-- A write that is settled is refused, or some bytes are accepted if there are any. -/
theorem wp_write_settled {Q : Except τ Nat → World ω τ σ → Prop} {bytes : List UInt8}
    (script : world.replies = reply :: rest) (settles : reply.Settles)
    (refused : ∀ error, reply = .fail error → Q (.error error) { world with replies := rest })
    (unmoved : bytes = [] → Q (.ok 0) { world with replies := rest })
    (taken : ∀ count, 0 < count → count ≤ bytes.length →
      Q (.ok count) (World.record { world with replies := rest } (.accepted (bytes.take count)))) :
    wp (write bytes : Program ω τ σ ε (Except τ Nat)) Q E world := by
  unfold write
  rw [wp_bind]
  refine wp_await_settled script settles refused fun count positive => ?_
  by_cases none : bytes = []
  · subst none
    simpa using unmoved rfl
  · -- Something is offered and something is taken.
    have some : bytes.take count ≠ [] := by
      simp only [ne_eq, List.take_eq_nil_iff, none, or_false]
      omega
    have same : bytes.take (bytes.take count).length = bytes.take count := by
      rw [List.length_take, ← List.take_take, List.take_length]
    have moved := taken (bytes.take count).length (List.length_pos_iff.mpr some)
      (List.length_take_le' _ _)
    rw [same] at moved
    simp only [some, wp_bind, ne_eq, not_false_eq_true, if_true]
    exact moved

/-- A flush that is settled is refused or completes. -/
theorem wp_flush_settled {Q : Except τ Unit → World ω τ σ → Prop}
    (script : world.replies = reply :: rest) (settles : reply.Settles)
    (refused : ∀ error, reply = .fail error →
      Q (.error error) (World.record { world with replies := rest } .flushing))
    (drained : Q (.ok ()) ((World.record { world with replies := rest } .flushing).record .flushed)) :
    wp (flush : Program ω τ σ ε (Except τ Unit)) Q E world := by
  unfold flush
  rw [wp_bind, wp_modify, wp_bind]
  exact wp_await_settled script settles refused fun _ _ => drained

theorem wp_iterate_succ {fuel : Nat} {value : β} :
    wp (iterate (fuel + 1) body value) Q E world ↔
      wp (body value) (fun next after => match next with
        | .inl value => wp (iterate fuel body value) Q E after
        | .inr result => Q result after) E world := by
  rw [iterate, wp_bind]
  constructor <;> refine fun holds => wp_mono holds (fun next after => ?_) (fun _ _ => id) <;>
    cases next <;> exact id

/-- A loop is as good as an invariant of its body. -/
theorem wp_iterate (invariant : β → World ω τ σ → Prop) {fuel : Nat} {value : β}
    (holds : invariant value world)
    (step : ∀ value world, invariant value world →
      wp (body value) (fun next after => match next with
        | .inl value => invariant value after
        | .inr result => Q result after) E world)
    (exhausted : ∀ value world, invariant value world → E .dropped world) :
    wp (iterate fuel body value) Q E world := by
  -- Induction on the fuel; the invariant holds whenever the body is entered.
  induction fuel generalizing value world with
  | zero => exact exhausted value world holds
  | succ fuel ih =>
    rw [wp_iterate_succ]
    refine wp_mono (step value world holds) (fun next after reached => ?_) (fun _ _ => id)
    cases next with
    | inl value => exact ih reached
    | inr result => exact reached

/-- After some rounds a loop is where another value and another world would have begun it. -/
def Continues (body : β → Program ω τ σ ε (β ⊕ α)) (value : β) (world : World ω τ σ) (rounds : Nat)
    (next : β) (current : World ω τ σ) : Prop :=
  ∀ more, iterate (rounds + more) body value world = iterate more body next current

theorem Continues.round {value last next : β} {rounds : Nat}
    {current after : World ω τ σ} (continues : Continues body value world rounds last current)
    (round : body last current = .ok (.inl next) after) :
    Continues body value world (rounds + 1) next after := by
  intro more
  -- The additional round is the first of those that are left.
  rw [Nat.add_right_comm, Nat.add_assoc, continues (more + 1), iterate, bind_apply, round]

/-- A loop whose rounds use up a measure never runs out of rounds. -/
theorem wp_iterate_measure (invariant : β → World ω τ σ → Prop) (measure : World ω τ σ → Nat)
    {fuel : Nat} {value : β} (holds : invariant value world) (enough : measure world < fuel)
    (step : ∀ value world, invariant value world →
      wp (body value) (fun next after => match next with
        | .inl value => invariant value after ∧ measure after < measure world
        | .inr result => Q result after) E world) :
    wp (iterate fuel body value) Q E world := by
  -- Each round lowers the measure by one at least, so the fuel outlasts the rounds.
  induction fuel generalizing value world with
  | zero => omega
  | succ fuel ih =>
    rw [wp_iterate_succ]
    refine wp_mono (step value world holds) (fun next after reached => ?_) (fun _ _ => id)
    cases next with
    | inl value => exact ih reached.1 (by omega)
    | inr result => exact reached

end Async

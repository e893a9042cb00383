import Minimq.Lib.AsyncRules

/-! Two runs side by side: when two programs in two worlds end in the same way. -/

namespace Hoare

variable {ε ε' σ ρ α β γ δ : Type} {R : γ → δ → σ → ρ → Prop}

/-- Both programs return into `Q`, or both stop with the same error in `E`. -/
def both (m : EStateM ε σ α) (n : EStateM ε ρ β) (Q : α → β → σ → ρ → Prop)
    (E : ε → σ → ρ → Prop) (s : σ) (t : ρ) : Prop :=
  match m s, n t with
  | .ok value s', .ok other t' => Q value other s' t'
  | .error error s', .error failure t' => error = failure ∧ E error s' t'
  -- One program returns and the other one does not.
  | _, _ => False

section Rules

variable {m : EStateM ε σ α} {n : EStateM ε ρ β} {Q Q' : α → β → σ → ρ → Prop}
  {E E' : ε → σ → ρ → Prop} {s : σ} {t : ρ}

/-- Two runs that end in a stronger relation end in a weaker one. -/
theorem both_mono (holds : both m n Q E s t)
    (returned : ∀ value other s' t', Q value other s' t' → Q' value other s' t')
    (stopped : ∀ error s' t', E error s' t' → E' error s' t') : both m n Q' E' s t := by
  -- Both runs return or both stop, so two of the four cases are empty.
  revert holds
  unfold both
  cases m s with
  | ok value s' =>
    cases n t with
    | ok other t' => exact returned value other s' t'
    | error error t' => exact id
  | error error s' =>
    cases n t with
    | ok other t' => exact id
    | error failure t' => exact fun ⟨same, holds⟩ => ⟨same, stopped error s' t' holds⟩

/-- What one run is known to do holds of the pair. -/
theorem both_left {P : α → σ → Prop} {F : ε → σ → Prop} (holds : both m n Q E s t)
    (left : wp m P F s) :
    both m n (fun value other s' t' => Q value other s' t' ∧ P value s')
      (fun error s' t' => E error s' t' ∧ F error s') s t := by
  -- The condition on the first run is joined to the relation in either case.
  revert holds left
  unfold both wp
  cases m s with
  | ok value s' =>
    cases n t with
    | ok other t' => exact fun holds left => ⟨holds, left⟩
    | error error t' => exact fun holds _ => holds
  | error error s' =>
    cases n t with
    | ok other t' => exact fun holds _ => holds
    | error failure t' => exact fun ⟨same, holds⟩ left => ⟨same, holds, left⟩

@[simp] theorem both_pure (value : α) (other : β) :
    both (pure value : EStateM ε σ α) (pure other : EStateM ε ρ β) Q E s t ↔
      Q value other s t := Iff.rfl

@[simp] theorem both_throw (error failure : ε) :
    both (throw error : EStateM ε σ α) (throw failure : EStateM ε ρ β) Q E s t ↔
      error = failure ∧ E error s t := Iff.rfl

/-- Two sequences. -/
theorem both_bind {f : α → EStateM ε σ γ} {g : β → EStateM ε ρ δ}
    (holds : both m n (fun value other s' t' => both (f value) (g other) R E s' t') E s t) :
    both (m >>= f) (n >>= g) R E s t := by
  -- If one run stops in its first part, so does the other.
  revert holds
  unfold both
  simp only [bind_apply]
  cases m s with
  | ok value s' =>
    cases n t with
    | ok other t' => exact id
    | error error t' => exact False.elim
  | error error s' =>
    cases n t with
    | ok other t' => exact False.elim
    | error failure t' => exact id

theorem both_ite {c d : Prop} [Decidable c] [Decidable d] {m' : EStateM ε σ α}
    {n' : EStateM ε ρ β} (same : c ↔ d) (yes : c → both m n Q E s t)
    (no : ¬ c → both m' n' Q E s t) :
    both (if c then m else m') (if d then n else n') Q E s t := by
  by_cases taken : c
  · rw [if_pos taken, if_pos (same.mp taken)]
    exact yes taken
  · rw [if_neg taken, if_neg fun other => taken (same.mpr other)]
    exact no taken

@[simp] theorem both_get_bind {f : σ → EStateM ε σ γ} {g : ρ → EStateM ε ρ δ} :
    both (get >>= f) (get >>= g) R E s t ↔ both (f s) (g t) R E s t := Iff.rfl

@[simp] theorem both_set_bind {s' : σ} {t' : ρ} {f : PUnit → EStateM ε σ γ}
    {g : PUnit → EStateM ε ρ δ} :
    both (set s' >>= f) (set t' >>= g) R E s t ↔ both (f ()) (g ()) R E s' t' := Iff.rfl

@[simp] theorem both_modify_bind {f : σ → σ} {g : ρ → ρ} {k : PUnit → EStateM ε σ γ}
    {l : PUnit → EStateM ε ρ δ} :
    both (modify f >>= k) (modify g >>= l) R E s t ↔ both (k ()) (l ()) R E (f s) (g t) := Iff.rfl

/-- Two runs of one program return the same value into `R`, or stop alike in `R'`. -/
def Agree (R R' : σ → σ → Prop) (m : EStateM ε σ α) (s t : σ) : Prop :=
  both m m (fun value other s' t' => value = other ∧ R s' t') (fun _ => R') s t

theorem Agree.bind {R R' : σ → σ → Prop} {m : EStateM ε σ α} {s t : σ}
    {f g : α → EStateM ε σ β} {Q : β → β → σ → σ → Prop} {E : ε → σ → σ → Prop}
    (first : Agree R R' m s t)
    (next : ∀ value s' t', R s' t' → both (f value) (g value) Q E s' t')
    (stopped : ∀ error s' t', R' s' t' → E error s' t') :
    both (m >>= f) (m >>= g) Q E s t := by
  refine both_bind (both_mono first (fun value other s' t' => ?_) stopped)
  rintro ⟨rfl, holds⟩
  exact next value s' t' holds

end Rules

end Hoare

namespace Async

open Hoare

variable {ω τ σ ε ε' α β γ δ : Type}

/-- What passed between a program and its environment. -/
def wire (trace : List (Happening ω)) : List (Happening ω) :=
  trace.filter fun event => match event with
    | .noted _ => false
    | _ => true

@[simp] theorem wire_append (first second : List (Happening ω)) :
    wire (first ++ second) = wire first ++ wire second := List.filter_append ..

/-- Two worlds in which the environment has behaved, and will behave, in the same way. -/
structure Synced (left right : World ω τ σ) : Prop where
  /-- The answers to come are the same. -/
  replies : right.replies = left.replies
  /-- The peer sends the same. -/
  inbound : right.inbound = left.inbound
  /-- The clock shows the same. -/
  clock : right.clock = left.clock
  /-- It was read equally often. -/
  samples : right.samples = left.samples
  /-- The same has passed. -/
  passed : wire right.trace = wire left.trace

section Rules

variable {left right : World ω τ σ}

theorem Synced.self (synced : Synced left right) (own other : σ) :
    Synced { left with self := own } { right with self := other } :=
  ⟨synced.replies, synced.inbound, synced.clock, synced.samples, synced.passed⟩

theorem Synced.settle (synced : Synced left right) (rest : List (Reply τ)) :
    Synced { left with replies := rest } { right with replies := rest } :=
  ⟨rfl, synced.inbound, synced.clock, synced.samples, synced.passed⟩

theorem Synced.record (synced : Synced left right) (event : Happening ω) :
    Synced (left.record event) (right.record event) :=
  ⟨synced.replies, synced.inbound, synced.clock, synced.samples, by
    simp only [World.record, wire_append, synced.passed]⟩

theorem Synced.note (synced : Synced left right) (event other : ω) :
    Synced (left.record (.noted event)) (right.record (.noted other)) :=
  ⟨synced.replies, synced.inbound, synced.clock, synced.samples, by
    simp only [World.record, wire_append, synced.passed]
    rfl⟩

theorem Synced.sampled (synced : Synced left right) :
    Synced { left with samples := left.samples + 1 }
      { right with samples := right.samples + 1 } :=
  ⟨synced.replies, synced.inbound, synced.clock, congrArg (· + 1) synced.samples, synced.passed⟩

theorem Synced.reading (synced : Synced left right) :
    right.clock.reading right.samples = left.clock.reading left.samples := by
  rw [synced.clock, synced.samples]

variable {Q : α → β → World ω τ σ → World ω τ σ → Prop}
  {E : Stop ε → World ω τ σ → World ω τ σ → Prop}

@[simp] theorem both_fail (error failure : ε) :
    both (fail error : Program ω τ σ ε α) (fail failure : Program ω τ σ ε β) Q E left right ↔
      (Stop.error error = Stop.error failure) ∧ E (.error error) left right := Iff.rfl

@[simp] theorem both_self_bind {f : σ → Program ω τ σ ε α} {g : σ → Program ω τ σ ε β} :
    both (Async.self >>= f) (Async.self >>= g) Q E left right ↔
      both (f left.self) (g right.self) Q E left right := Iff.rfl

@[simp] theorem both_update_bind {f g : σ → σ} {k : Unit → Program ω τ σ ε α}
    {l : Unit → Program ω τ σ ε β} :
    both (update f >>= k) (update g >>= l) Q E left right ↔
      both (k ()) (l ()) Q E { left with self := f left.self }
        { right with self := g right.self } := Iff.rfl

@[simp] theorem both_update {f g : σ → σ} {Q : Unit → Unit → World ω τ σ → World ω τ σ → Prop} :
    both (update f : Program ω τ σ ε Unit) (update g) Q E left right ↔
      Q () () { left with self := f left.self } { right with self := g right.self } := Iff.rfl

@[simp] theorem both_note_bind {event other : ω} {k : Unit → Program ω τ σ ε α}
    {l : Unit → Program ω τ σ ε β} :
    both (Async.note event >>= k) (Async.note other >>= l) Q E left right ↔
      both (k ()) (l ()) Q E (left.record (.noted event)) (right.record (.noted other)) := Iff.rfl

@[simp] theorem both_now_bind {k : Nat → Program ω τ σ ε α} {l : Nat → Program ω τ σ ε β} :
    both (now >>= k) (now >>= l) Q E left right ↔
      both (k (left.clock.reading left.samples)) (l (right.clock.reading right.samples)) Q E
        { left with samples := left.samples + 1 }
        { right with samples := right.samples + 1 } := Iff.rfl

@[simp] theorem both_rounds_bind {k : Nat → Program ω τ σ ε α} {l : Nat → Program ω τ σ ε β} :
    both (rounds >>= k) (rounds >>= l) Q E left right ↔
      both (k (2 * left.replies.length + 3)) (l (2 * right.replies.length + 3)) Q E left right :=
  Iff.rfl

/-- Both programs work on a part of their state. -/
theorem both_zoom {ρ ε' : Type} {Q : Except ε' α → Except ε' β → World ω τ σ → World ω τ σ → Prop}
    {part : σ → ρ} {replace : ρ → σ → σ} {action : EStateM ε' ρ α} {other : EStateM ε' ρ β}
    (inside : both action other
      (fun value result s t => Q (.ok value) (.ok result)
        { left with self := replace s left.self } { right with self := replace t right.self })
      (fun error s t => Q (.error error) (.error error)
        { left with self := replace s left.self } { right with self := replace t right.self })
      (part left.self) (part right.self)) :
    both (zoom part replace action : Program ω τ σ ε (Except ε' α))
      (zoom part replace other) Q E left right := by
  -- The part of the state decides on both sides which way the programs end.
  revert inside
  unfold both zoom
  cases action (part left.self) with
  | ok value s =>
    cases other (part right.self) with
    | ok result t => exact id
    | error error t => exact False.elim
  | error error s =>
    cases other (part right.self) with
    | ok result t => exact False.elim
    | error failure t =>
      rintro ⟨rfl, holds⟩
      exact holds

/-- Both programs hand their errors to their callers. -/
theorem both_attempt {program : Program ω τ σ ε α} {other : Program ω τ σ ε β}
    {Q : Except ε α → Except ε β → World ω τ σ → World ω τ σ → Prop}
    {E : Stop ε' → World ω τ σ → World ω τ σ → Prop}
    (inside : both program other (fun value result => Q (.ok value) (.ok result))
      (fun stop left right => match stop with
        | .error error => Q (.error error) (.error error) left right
        | .dropped => E .dropped left right
        | .expired => E .expired left right) left right) :
    both (attempt program : Program ω τ σ ε' (Except ε α)) (attempt other) Q E left right := by
  -- Errors become values; the other ways to stop stay.
  revert inside
  unfold both attempt
  cases program left with
  | ok value s =>
    cases other right with
    | ok result t => exact id
    | error stop t => exact False.elim
  | error stop s =>
    cases other right with
    | ok result t => exact False.elim
    | error failure t =>
      rintro ⟨rfl, holds⟩
      cases stop with
      | error error => exact holds
      | dropped => exact ⟨rfl, holds⟩
      | expired => exact ⟨rfl, holds⟩

/-- Both programs run under another error type. -/
theorem both_mapError {program other : Program ω τ σ ε α} {f : ε → ε'}
    {Q : α → α → World ω τ σ → World ω τ σ → Prop}
    {E : Stop ε' → World ω τ σ → World ω τ σ → Prop}
    (inside : both program other Q (fun stop left right => match stop with
      | .error error => E (.error (f error)) left right
      | .dropped => E .dropped left right
      | .expired => E .expired left right) left right) :
    both (mapError f program) (mapError f other) Q E left right := by
  refine both_bind (both_attempt (both_mono inside (fun _ _ _ _ => id) fun stop _ _ => ?_))
  cases stop with
  | error error => exact fun holds => ⟨rfl, holds⟩
  | dropped => exact id
  | expired => exact id

/-- Both programs run under the same deadline. -/
theorem both_withDeadline {program : Program ω τ σ ε α} {other : Program ω τ σ ε β} {deadline : Nat}
    {Q : Option α → Option β → World ω τ σ → World ω τ σ → Prop}
    (inside : both program other (fun value result => Q (some value) (some result))
      (fun stop left right => match stop with
        | .expired => Synced left right ∧ E .dropped left right ∧
          Q none none { left with samples := left.samples + 1 }
            { right with samples := right.samples + 1 }
        | other => E other left right) left right) :
    both (withDeadline deadline program) (withDeadline deadline other) Q E left right := by
  -- The clocks agree, so the timer fires in both runs or in neither.
  revert inside
  unfold both withDeadline
  cases program left with
  | ok value s =>
    cases other right with
    | ok result t => exact id
    | error stop t => exact False.elim
  | error stop s =>
    cases other right with
    | ok result t => exact False.elim
    | error failure t =>
      rintro ⟨rfl, holds⟩
      cases stop with
      | error error => exact ⟨rfl, holds⟩
      | dropped => exact ⟨rfl, holds⟩
      | expired =>
        obtain ⟨synced, dropped, fired⟩ := holds
        simp only [synced.reading]
        by_cases due : deadline ≤ s.clock.reading s.samples
        · simp only [if_pos due]
          exact fired
        · simp only [if_neg due]
          exact ⟨trivial, dropped⟩

/-- Both programs wait for a call that is settled in the same way. -/
theorem both_await {Q : Except τ Nat → Except τ Nat → World ω τ σ → World ω τ σ → Prop}
    (synced : Synced left right)
    (settled : ∀ result rest, Q result result { left with replies := rest }
      { right with replies := rest })
    (stopped : ∀ stop rest, E stop { left with replies := rest }
      { right with replies := rest }) :
    both (await : Program ω τ σ ε (Except τ Nat)) await Q E left right := by
  -- The scripts agree, so both runs read the same reply.
  unfold both await
  have same := synced.replies
  cases replies : left.replies with
  | nil =>
    rw [replies] at same
    have held := stopped .dropped []
    rw [← replies] at held
    nth_rewrite 2 [replies] at held
    rw [← same] at held
    simp only [same]
    exact ⟨trivial, held⟩
  | cons reply rest =>
    rw [replies] at same
    simp only [same]
    cases reply with
    | ready count => exact settled _ rest
    | fail error => exact settled _ rest
    | expire => exact ⟨rfl, stopped _ rest⟩
    | cancel => exact ⟨rfl, stopped _ rest⟩

/-- Both programs offer the same bytes. -/
theorem both_write {Q : Except τ Nat → Except τ Nat → World ω τ σ → World ω τ σ → Prop}
    (bytes : List UInt8) (synced : Synced left right)
    (settled : ∀ result (left' right' : World ω τ σ), Synced left' right' →
      left'.self = left.self → right'.self = right.self → Q result result left' right')
    (stopped : ∀ stop (left' right' : World ω τ σ), Synced left' right' →
      left'.self = left.self → right'.self = right.self → E stop left' right') :
    both (write bytes : Program ω τ σ ε (Except τ Nat)) (write bytes) Q E left right := by
  -- The accepted bytes depend on the reply only, which is the same for both.
  refine both_bind (both_await synced (fun result rest => ?_)
    fun stop rest => stopped _ _ _ (synced.settle rest) rfl rfl)
  cases result with
  | error error => exact settled _ _ _ (synced.settle rest) rfl rfl
  | ok count =>
    by_cases none : bytes.take count = []
    · simp only [none, ne_eq, not_true_eq_false, if_false]
      exact settled _ _ _ (synced.settle rest) rfl rfl
    · simp only [none, ne_eq, not_false_eq_true, if_true, both_modify_bind]
      exact settled _ _ _ ((synced.settle rest).record _) rfl rfl

/-- Both programs flush. -/
theorem both_flush {Q : Except τ Unit → Except τ Unit → World ω τ σ → World ω τ σ → Prop}
    (synced : Synced left right)
    (settled : ∀ result (left' right' : World ω τ σ), Synced left' right' →
      left'.self = left.self → right'.self = right.self → Q result result left' right')
    (stopped : ∀ stop (left' right' : World ω τ σ), Synced left' right' →
      left'.self = left.self → right'.self = right.self → E stop left' right') :
    both (flush : Program ω τ σ ε (Except τ Unit)) flush Q E left right := by
  -- The request to flush is recorded before the reply, and its completion after it.
  have asked := synced.record .flushing
  unfold flush
  rw [both_modify_bind]
  refine both_bind (both_await asked (fun result rest => ?_)
    fun stop rest => stopped _ _ _ (asked.settle rest) rfl rfl)
  cases result with
  | error error => exact settled _ _ _ (asked.settle rest) rfl rfl
  | ok count => exact settled _ _ _ ((asked.settle rest).record _) rfl rfl

/-- Both programs ask for the same number of bytes. -/
theorem both_read
    {Q : Except τ (List UInt8) → Except τ (List UInt8) → World ω τ σ → World ω τ σ → Prop}
    (window : Nat) (synced : Synced left right)
    (settled : ∀ result (left' right' : World ω τ σ), Synced left' right' →
      left'.self = left.self → right'.self = right.self → Q result result left' right')
    (stopped : ∀ stop (left' right' : World ω τ σ), Synced left' right' →
      left'.self = left.self → right'.self = right.self → E stop left' right') :
    both (read window : Program ω τ σ ε (Except τ (List UInt8))) (read window) Q E left right := by
  -- Both peers have sent the same bytes, so both runs receive the same ones.
  refine both_bind (both_await synced (fun result rest => ?_)
    fun stop rest => stopped _ _ _ (synced.settle rest) rfl rfl)
  cases result with
  | error error => exact settled _ _ _ (synced.settle rest) rfl rfl
  | ok count =>
    have same := synced.inbound
    simp only [both_get_bind, both_modify_bind, both_pure, same]
    refine settled _ _ _ (Synced.record ?_ _) rfl rfl
    exact ⟨rfl, rfl, synced.clock, synced.samples, synced.passed⟩

/-- Two loops are as good as an invariant of their bodies. -/
theorem both_iterate (invariant : γ → World ω τ σ → World ω τ σ → Prop) {fuel : Nat}
    {body : γ → Program ω τ σ ε (γ ⊕ α)} {other : γ → Program ω τ σ ε (γ ⊕ β)} {value : γ}
    (holds : invariant value left right)
    (step : ∀ value left right, invariant value left right →
      both (body value) (other value) (fun next result left right => match next, result with
        | .inl value, .inl same => value = same ∧ invariant value left right
        | .inr value, .inr result => Q value result left right
        | _, _ => False) E left right)
    (exhausted : ∀ value left right, invariant value left right → E .dropped left right) :
    both (iterate fuel body value) (iterate fuel other value) Q E left right := by
  -- Both loops go on for another round or end in the same one.
  induction fuel generalizing value left right with
  | zero => exact ⟨rfl, exhausted value left right holds⟩
  | succ fuel ih =>
    refine both_bind (both_mono (step value left right holds) (fun next result left right => ?_)
      fun _ _ _ => id)
    cases next with
    | inl value =>
      cases result with
      | inl same =>
        rintro ⟨rfl, holds⟩
        exact ih holds
      | inr result => exact False.elim
    | inr value =>
      cases result with
      | inl same => exact False.elim
      | inr result => exact id

end Rules

end Async

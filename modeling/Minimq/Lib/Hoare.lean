import Mathlib.Data.List.Basic

/-! Running stateful programs with errors, and triples with separate conditions for errors. -/

namespace Hoare

variable {ε ε' σ α β : Type} {m : EStateM ε σ α}

section Run

@[simp] theorem pure_apply (value : α) (s : σ) : (pure value : EStateM ε σ α) s = .ok value s := rfl

@[simp] theorem bind_apply (m : EStateM ε σ α) (f : α → EStateM ε σ β) (s : σ) :
    (m >>= f) s = match m s with
      | .ok value s' => f value s'
      | .error error s' => .error error s' := rfl

@[simp] theorem map_apply (f : α → β) (m : EStateM ε σ α) (s : σ) :
    (f <$> m) s = match m s with
      | .ok value s' => .ok (f value) s'
      | .error error s' => .error error s' := rfl

@[simp] theorem get_apply (s : σ) : (get : EStateM ε σ σ) s = .ok s s := rfl

@[simp] theorem set_apply (new s : σ) : (set new : EStateM ε σ PUnit) s = .ok () new := rfl

@[simp] theorem modify_apply (f : σ → σ) (s : σ) :
    (modify f : EStateM ε σ PUnit) s = .ok () (f s) := rfl

@[simp] theorem throw_apply (error : ε) (s : σ) :
    (throw error : EStateM ε σ α) s = .error error s := rfl

@[simp] theorem adaptExcept_apply (f : ε → ε') (m : EStateM ε σ α) (s : σ) :
    EStateM.adaptExcept f m s = match m s with
      | .ok value s' => .ok value s'
      | .error error s' => .error (f error) s' := by
  unfold EStateM.adaptExcept
  cases m s <;> rfl

end Run

/-- Started in a state, the program returns into `Q` or stops in `E`. -/
def wp (m : EStateM ε σ α) (Q : α → σ → Prop) (E : ε → σ → Prop) (s : σ) : Prop :=
  match m s with
  | .ok value s' => Q value s'
  | .error error s' => E error s'

section Rules

variable {Q Q' : α → σ → Prop} {R : β → σ → Prop} {E E' : ε → σ → Prop} {s : σ}

@[simp] theorem wp_pure (value : α) : wp (pure value : EStateM ε σ α) Q E s ↔ Q value s := Iff.rfl

@[simp] theorem wp_bind (m : EStateM ε σ α) (f : α → EStateM ε σ β) :
    wp (m >>= f) R E s ↔ wp m (fun value => wp (f value) R E) E s := by
  simp only [wp, bind_apply]
  cases m s <;> rfl

@[simp] theorem wp_throw (error : ε) : wp (throw error : EStateM ε σ α) Q E s ↔ E error s := Iff.rfl

@[simp] theorem wp_get {Q : σ → σ → Prop} : wp (get : EStateM ε σ σ) Q E s ↔ Q s s := Iff.rfl

@[simp] theorem wp_set {Q : PUnit → σ → Prop} (new : σ) :
    wp (set new : EStateM ε σ PUnit) Q E s ↔ Q () new := Iff.rfl

@[simp] theorem wp_modify {Q : PUnit → σ → Prop} (f : σ → σ) :
    wp (modify f : EStateM ε σ PUnit) Q E s ↔ Q () (f s) := Iff.rfl

@[simp] theorem wp_ite (c : Prop) [Decidable c] (m m' : EStateM ε σ α) :
    wp (if c then m else m') Q E s ↔ if c then wp m Q E s else wp m' Q E s := by
  split <;> rfl

theorem wp_of_result (returned : ∀ value s', m s = .ok value s' → Q value s')
    (stopped : ∀ error s', m s = .error error s' → E error s') : wp m Q E s := by
  unfold wp
  cases result : m s with
  | ok value s' => exact returned value s' result
  | error error s' => exact stopped error s' result

/-- A program that leads to a stronger condition leads to a weaker one. -/
theorem wp_mono (holds : wp m Q E s)
    (after : ∀ value s', Q value s' → Q' value s') (stopped : ∀ error s', E error s' → E' error s') :
    wp m Q' E' s := by
  revert holds
  unfold wp
  cases m s with
  | ok value s' => exact after value s'
  | error error s' => exact stopped error s'

theorem wp_and (first : wp m Q E s) (second : wp m Q' E' s) :
    wp m (fun value s' => Q value s' ∧ Q' value s') (fun error s' => E error s' ∧ E' error s') s := by
  revert first second
  unfold wp
  cases m s with
  | ok value s' => exact fun first second => ⟨first, second⟩
  | error error s' => exact fun first second => ⟨first, second⟩

theorem returned_of_wp (holds : wp m Q (fun _ _ => False) s) :
    ∃ value s', m s = .ok value s' ∧ Q value s' := by
  unfold wp at holds
  cases result : m s with
  | ok value s' => exact ⟨value, s', rfl, by rwa [result] at holds⟩
  | error error s' => simp [result] at holds

end Rules

/-- Whether a program started in a state returns with a value and a state that pass a test. -/
def check (m : EStateM ε σ α) (test : α → σ → Bool) (s : σ) : Bool :=
  match m s with
  | .ok value s' => test value s'
  | .error _ _ => false

theorem returned_of_check {test : α → σ → Bool} {s : σ}
    (passes : check m test s = true) : ∃ value s', m s = .ok value s' ∧ test value s' = true := by
  unfold check at passes
  cases result : m s with
  | ok value s' => exact ⟨value, s', rfl, by rwa [result] at passes⟩
  | error error s' => simp [result] at passes

end Hoare

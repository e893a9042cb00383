import Minimq.Lib.Hoare

/-! Grammars: what an input can be read as and what it leaves, and readers that accept exactly that. -/

/-- A grammar relates an input to a value it can start with and to the symbols behind it. -/
def Grammar (β α : Type) := List β → α → List β → Prop

namespace Grammar

variable {β α γ ε σ : Type}

/-- The encodings of values, in front of anything. -/
def code (encode : α → Option (List β)) : Grammar β α := fun input value rest =>
  ∃ symbols, encode value = some symbols ∧ input = symbols ++ rest

/-- A value that takes no symbol. -/
def unit (value : α) : Grammar β α := fun input found rest => found = value ∧ input = rest

/-- One grammar behind the other; the second one may depend on the first value. -/
def seq (first : Grammar β α) (second : α → Grammar β γ) : Grammar β γ := fun input value rest =>
  ∃ head middle, first input head middle ∧ second head middle value rest

/-- A value that is left out only at the end of the input. -/
def optional (grammar : Grammar β α) : Grammar β (Option α) := fun input value rest =>
  match value with
  | none => input = [] ∧ rest = []
  | some value => input ≠ [] ∧ grammar input value rest

/-- Nothing can be read. -/
def never : Grammar β α := fun _ _ _ => False

/-- A reader accepts exactly a grammar: the view is what is left of the input, and the reader works
in good states. -/
structure Reads (view : σ → List β) (good : σ → Prop) (reader : EStateM ε σ α)
    (grammar : Grammar β α) : Prop where
  /-- What is read is in the grammar. -/
  sound : ∀ {s value s'}, good s → reader s = .ok value s' →
    grammar (view s) value (view s') ∧ good s'
  /-- What is in the grammar is read. -/
  complete : ∀ {s value rest}, good s → grammar (view s) value rest →
    ∃ s', reader s = .ok value s' ∧ view s' = rest

namespace Reads

variable {view : σ → List β} {good : σ → Prop} {reader : EStateM ε σ α} {grammar : Grammar β α}

theorem congr {other : Grammar β α} (reads : Reads view good reader grammar)
    (same : ∀ input value rest, grammar input value rest ↔ other input value rest) :
    Reads view good reader other where
  sound ok read := (reads.sound ok read).imp_left (same _ _ _).mp
  complete ok accepted := reads.complete ok ((same _ _ _).mpr accepted)

protected theorem pure (value : α) :
    Reads view good (pure value : EStateM ε σ α) (unit value) where
  sound ok read := by
    cases read
    exact ⟨⟨rfl, rfl⟩, ok⟩
  complete _ accepted := by
    obtain ⟨rfl, same⟩ := accepted
    exact ⟨_, rfl, same⟩

protected theorem throw (error : ε) : Reads view good (throw error : EStateM ε σ α) never where
  sound _ read := by cases read
  complete _ := False.elim

/-- Readers in sequence. -/
protected theorem bind {next : α → EStateM ε σ γ} {following : α → Grammar β γ}
    (reads : Reads view good reader grammar)
    (then' : ∀ value, Reads view good (next value) (following value)) :
    Reads view good (reader >>= next) (seq grammar following) where
  -- What the first reader leaves is what the second one reads.
  sound {s value s'} ok read := by
    rw [Hoare.bind_apply] at read
    cases first : reader s with
    | error error middle => simp [first] at read
    | ok head middle =>
      rw [first] at read
      obtain ⟨front, ok⟩ := reads.sound ok first
      obtain ⟨back, ok⟩ := (then' head).sound ok read
      exact ⟨⟨head, _, front, back⟩, ok⟩
  complete {s value rest} ok := by
    rintro ⟨head, middle, front, back⟩
    obtain ⟨between, first, rfl⟩ := reads.complete ok front
    obtain ⟨s', second, left⟩ := (then' head).complete (reads.sound ok first).2 back
    exact ⟨s', by rw [Hoare.bind_apply, first]; exact second, left⟩

protected theorem ite {c : Prop} [Decidable c] {other : EStateM ε σ α} {grammar' : Grammar β α}
    (yes : c → Reads view good reader grammar) (no : ¬ c → Reads view good other grammar') :
    Reads view good (if c then reader else other) (if c then grammar else grammar') := by
  by_cases decided : c
  · rw [if_pos decided, if_pos decided]
    exact yes decided
  · rw [if_neg decided, if_neg decided]
    exact no decided

theorem eq_of_grammar (reads : Reads view good reader grammar) (s : σ) (ok : good s) (value : α)
    (rest : List β) : (∃ s', reader s = .ok value s' ∧ view s' = rest) ↔
      grammar (view s) value rest := by
  constructor
  · rintro ⟨s', read, rfl⟩
    exact (reads.sound ok read).1
  · exact reads.complete ok

end Reads

/-- A grammar that finds at most one value at the front of an input. -/
def Unambiguous (grammar : Grammar β α) : Prop := ∀ {input first second rest rest'},
  grammar input first rest → grammar input second rest' → first = second ∧ rest = rest'

/-- What a reader accepts is unambiguous, if it can be started on any input. -/
theorem Reads.unambiguous {view : σ → List β} {good : σ → Prop} {reader : EStateM ε σ α}
    {grammar : Grammar β α} (reads : Reads view good reader grammar)
    (start : ∀ input, ∃ s, good s ∧ view s = input) : Unambiguous grammar := by
  intro input first second rest rest' one other
  obtain ⟨s, ok, rfl⟩ := start input
  obtain ⟨s', read, rfl⟩ := reads.complete ok one
  obtain ⟨again, same, rfl⟩ := reads.complete ok other
  -- A reader run twice from the same state does the same.
  rw [read, EStateM.Result.ok.injEq] at same
  exact ⟨same.1, congrArg view same.2⟩

section Codes

variable {encode : α → Option (List β)}

theorem code_total {encode : α → List β} {input rest : List β} {value : α} :
    code (fun value => some (encode value)) input value rest ↔ input = encode value ++ rest := by
  constructor
  · rintro ⟨symbols, same, rfl⟩
    cases same
    rfl
  · rintro rfl
    exact ⟨_, rfl, rfl⟩

/-- A value that is built from what a code carries. -/
theorem seq_unit {build : α → γ} {grammar : Grammar β α} {input rest : List β} {value : γ} :
    seq grammar (fun head => unit (build head)) input value rest ↔
      ∃ head, value = build head ∧ grammar input head rest := by
  constructor
  · rintro ⟨head, middle, first, rfl, rfl⟩
    exact ⟨head, rfl, first⟩
  · rintro ⟨head, rfl, first⟩
    exact ⟨head, rest, first, rfl, rfl⟩

theorem Unambiguous.cancel (unique : Unambiguous (code encode)) {first second : α}
    {front back rest rest' : List β} (one : encode first = some front)
    (other : encode second = some back) (same : front ++ rest = back ++ rest') :
    first = second ∧ rest = rest' :=
  unique ⟨front, one, rfl⟩ ⟨back, other, same⟩

end Codes

end Grammar

import Mathlib.Data.List.Basic
import Mathlib.Data.List.Induction

/-! Past-time properties of a record that grows at its end. -/

namespace History

variable {α : Type} {opens closes : α → Prop} {record events : List α} {event : α}

/-- Some event opened a matter, and no later event closed it. -/
def Since (opens closes : α → Prop) (record : List α) : Prop :=
  ∃ front event back, record = front ++ event :: back ∧ opens event ∧
    ∀ later ∈ back, ¬ closes later

@[simp] theorem not_since_nil : ¬ Since opens closes [] := by
  rintro ⟨front, event, back, same, -⟩
  simp at same

/-- A matter is open after an event that opens it, or if it was open and is not closed. -/
theorem since_concat : Since opens closes (record ++ [event]) ↔
    opens event ∨ Since opens closes record ∧ ¬ closes event := by
  constructor
  · rintro ⟨front, first, back, same, opened, unclosed⟩
    -- The event is the one that opened the matter, or comes after it.
    rcases List.eq_nil_or_concat' back with rfl | ⟨back, last, rfl⟩
    · obtain ⟨-, rfl⟩ := List.append_inj' same rfl |>.imp_right List.singleton_inj.mp
      exact .inl opened
    · rw [← List.cons_append, ← List.append_assoc] at same
      obtain ⟨rfl, rfl⟩ := List.append_inj' same rfl |>.imp_right List.singleton_inj.mp
      exact .inr ⟨⟨front, first, back, rfl, opened,
        fun later found => unclosed later (List.mem_append_left _ found)⟩,
        unclosed event (by simp)⟩
  · rintro (opened | ⟨⟨front, first, back, rfl, opened, unclosed⟩, open'⟩)
    · exact ⟨record, event, [], rfl, opened, by simp⟩
    · refine ⟨front, first, back ++ [event], by simp, opened, fun later found => ?_⟩
      rcases List.mem_append.mp found with found | found
      · exact unclosed later found
      · rw [List.mem_singleton.mp found]
        exact open'

theorem Since.append (since : Since opens closes record)
    (silent : ∀ event ∈ events, ¬ closes event) : Since opens closes (record ++ events) := by
  obtain ⟨front, first, back, rfl, opened, unclosed⟩ := since
  refine ⟨front, first, back ++ events, by simp, opened, fun later found => ?_⟩
  rcases List.mem_append.mp found with found | found
  · exact unclosed later found
  · exact silent later found

/-- Events that open nothing leave at most open what was open. -/
theorem since_of_append (silent : ∀ event ∈ events, ¬ opens event)
    (since : Since opens closes (record ++ events)) : Since opens closes record := by
  induction events using List.reverseRecOn with
  | nil => simpa using since
  | append_singleton events last ih =>
    rw [← List.append_assoc, since_concat] at since
    rcases since with opened | ⟨since, -⟩
    · exact absurd opened (silent last (by simp))
    · exact ih (fun event found => silent event (List.mem_append_left _ found)) since

/-- A matter that was closed stays closed until it is opened again. -/
theorem not_since_of_closed (closed : closes event) (unopened : ¬ opens event)
    (silent : ∀ event ∈ events, ¬ opens event) :
    ¬ Since opens closes (record ++ event :: events) := by
  intro since
  rw [List.append_cons] at since
  rcases since_concat.mp (since_of_append silent since) with opened | ⟨-, unclosed⟩
  · exact unopened opened
  · exact unclosed closed

/-- The last event of a kind is determined by the record. -/
theorem last_unique {P : α → Prop} {front front' back back' : List α} {event event' : α}
    (same : front ++ event :: back = front' ++ event' :: back') (holds : P event) (holds' : P event')
    (last : ∀ later ∈ back, ¬ P later) (last' : ∀ later ∈ back', ¬ P later) :
    front = front' ∧ event = event' ∧ back = back' := by
  -- If the two splits differ, one of the events lies behind the other one.
  rcases List.append_eq_append_iff.mp same with ⟨rest, rfl, tail⟩ | ⟨rest, rfl, tail⟩
  · cases rest with
    | nil =>
      obtain ⟨rfl, rfl⟩ := List.cons.inj tail
      exact ⟨(List.append_nil _).symm, rfl, rfl⟩
    | cons first rest =>
      obtain ⟨-, rfl⟩ := List.cons.inj tail
      exact absurd holds' (last event' (by simp))
  · cases rest with
    | nil =>
      obtain ⟨rfl, rfl⟩ := List.cons.inj tail
      exact ⟨List.append_nil _, rfl, rfl⟩
    | cons first rest =>
      obtain ⟨-, rfl⟩ := List.cons.inj tail
      exact absurd holds (last' event (by simp))

section Chapters

variable {starts : α → Prop} {front front' back back' : List α} {first first' : α}

/-- The last event of a kind, with what came before and after it. -/
structure Latest (starts : α → Prop) (record front : List α) (first : α) (back : List α) : Prop where
  /-- The record is put together from them. -/
  split : record = front ++ first :: back
  /-- The event is of the kind. -/
  begins : starts first
  /-- No later event is. -/
  last : ∀ later ∈ back, ¬ starts later

/-- An event of a kind, with what came before it and what came after it until the next one. -/
inductive Chapter (starts : α → Prop) (record front : List α) (first : α) (back : List α) : Prop where
  /-- There is no next one yet. -/
  | latest (latest : Latest starts record front first back)
  /-- The next one ended the chapter. -/
  | closed {next : α} {rest : List α} (split : record = front ++ first :: (back ++ next :: rest))
      (begins : starts first) (last : ∀ later ∈ back, ¬ starts later) (ends : starts next)

theorem Latest.unique (latest : Latest starts record front first back)
    (latest' : Latest starts record front' first' back') :
    front = front' ∧ first = first' ∧ back = back' :=
  last_unique (latest.split.symm.trans latest'.split) latest.begins latest'.begins latest.last
    latest'.last

theorem Chapter.length_lt (chapter : Chapter starts record front first back) :
    front.length < record.length := by
  cases chapter with
  | latest latest => simp [latest.split]
  | closed split => simp [split]

/-- An event of a kind is not among events that are not. -/
theorem split_of_append (silent : ∀ event ∈ events, ¬ starts event) (begins : starts first)
    (split : record ++ events = front ++ first :: back) :
    ∃ earlier, back = earlier ++ events ∧ record = front ++ first :: earlier := by
  rcases List.append_eq_append_iff.mp split with ⟨rest, -, tail⟩ | ⟨rest, rfl, tail⟩
  · exact absurd begins (silent first (by rw [tail]; simp))
  · cases rest with
    | nil => exact absurd begins (silent first (by rw [← List.nil_append events, ← tail]; simp))
    | cons head rest =>
      obtain ⟨rfl, rfl⟩ := List.cons.inj tail
      exact ⟨rest, rfl, rfl⟩

theorem Latest.of_append (silent : ∀ event ∈ events, ¬ starts event)
    (latest : Latest starts (record ++ events) front first back) :
    ∃ earlier, back = earlier ++ events ∧ Latest starts record front first earlier := by
  obtain ⟨earlier, rfl, split⟩ := split_of_append silent latest.begins latest.split
  exact ⟨earlier, rfl, split, latest.begins,
    fun later found => latest.last later (List.mem_append_left _ found)⟩

theorem Latest.of_concat (begins : starts event)
    (latest : Latest starts (record ++ [event]) front first back) :
    front = record ∧ first = event ∧ back = [] :=
  latest.unique ⟨rfl, begins, by simp⟩

/-- A chapter that has ended stays as it is. -/
theorem Chapter.of_append (silent : ∀ event ∈ events, ¬ starts event)
    (chapter : Chapter starts (record ++ events) front first back) :
    Chapter starts record front first back ∨
      Latest starts (record ++ events) front first back := by
  cases chapter with
  | latest latest => exact .inr latest
  | @closed next rest split begins last ends =>
    have split : record ++ events = (front ++ first :: back) ++ next :: rest := by simpa using split
    obtain ⟨earlier, -, known⟩ := split_of_append silent ends split
    exact .inl (.closed (by simpa using known) begins last ends)

/-- An event of the kind ends the chapter before it. -/
theorem Chapter.of_concat (begins : starts event)
    (chapter : Chapter starts (record ++ [event]) front first back) :
    Chapter starts record front first back ∨ front = record ∧ first = event ∧ back = [] := by
  -- The new event is the last chapter itself, or it ends the one that was open.
  cases chapter with
  | latest latest => exact .inr (latest.of_concat begins)
  | @closed next rest split opened last ends =>
    rcases List.eq_nil_or_concat' rest with rfl | ⟨rest, final, rfl⟩
    · have split : record ++ [event] = (front ++ first :: back) ++ [next] := by simpa using split
      obtain ⟨rfl, rfl⟩ := List.append_inj' split rfl |>.imp_right List.singleton_inj.mp
      exact .inl (.latest ⟨rfl, opened, last⟩)
    · have split : record ++ [event] = (front ++ first :: (back ++ next :: rest)) ++ [final] := by
        simpa using split
      obtain ⟨rfl, -⟩ := List.append_inj' split rfl
      exact .inl (.closed rfl opened last ends)

/-- Every chapter has a property, and the last one has a stronger one. -/
structure Told (starts : α → Prop) (each now : List α → α → List α → Prop) (record : List α) :
    Prop where
  /-- Every chapter has the property. -/
  each : ∀ {front first back}, Chapter starts record front first back → each front first back
  /-- The last one has the stronger one. -/
  now : ∀ {front first back}, Latest starts record front first back → now front first back

namespace Told

variable {each now next : List α → α → List α → Prop}

theorem nil : Told starts each now [] := by
  refine ⟨fun chapter => ?_, fun latest => ?_⟩
  · cases chapter with
    | latest latest => simpa using latest.split
    | closed split => simp at split
  · simpa using latest.split

/-- Other events go on with the last chapter. -/
theorem append (told : Told starts each now record) (silent : ∀ event ∈ events, ¬ starts event)
    (kept : ∀ {front first back}, Latest starts record front first back → now front first back →
      next front first (back ++ events))
    (holds : ∀ {front first back}, next front first back → each front first back) :
    Told starts each next (record ++ events) := by
  -- The latest chapter grows, and all others are those of the record before.
  have latest {front back first} (latest : Latest starts (record ++ events) front first back) :
      next front first back := by
    obtain ⟨earlier, rfl, before⟩ := latest.of_append silent
    exact kept before (told.now before)
  refine ⟨fun chapter => ?_, latest⟩
  rcases chapter.of_append silent with before | now
  · exact told.each before
  · exact holds (latest now)

/-- An event of the kind begins the next chapter. -/
theorem concat (told : Told starts each now record) (begins : starts event)
    (fresh : next record event [])
    (holds : ∀ {front first back}, next front first back → each front first back) :
    Told starts each next (record ++ [event]) := by
  refine ⟨fun chapter => ?_, fun latest => ?_⟩
  · rcases chapter.of_concat begins with before | ⟨rfl, rfl, rfl⟩
    · exact told.each before
    · exact holds fresh
  · obtain ⟨rfl, rfl, rfl⟩ := latest.of_concat begins
    exact fresh

end Told

end Chapters

/-- Between two events that open a matter there is one that closes it. -/
def Apart (opens closes : α → Prop) (record : List α) : Prop :=
  ∀ front first middle second back, record = front ++ first :: (middle ++ second :: back) →
    opens first → opens second → ∃ event ∈ middle, closes event

/-- Another event that opens a matter must come after the matter was closed. -/
theorem Apart.concat (apart : Apart opens closes record)
    (closed : opens event → ¬ Since opens closes record) :
    Apart opens closes (record ++ [event]) := by
  intro front first middle second back same opened again
  rcases List.eq_nil_or_concat' back with rfl | ⟨back, last, rfl⟩
  · -- The new event is the second one.
    have same : record ++ [event] = (front ++ first :: middle) ++ [second] := by
      rw [same, List.append_assoc, List.cons_append]
    obtain ⟨rfl, rfl⟩ := List.append_inj' same rfl |>.imp_right List.singleton_inj.mp
    by_contra unclosed
    exact closed again ⟨front, first, middle, rfl, opened,
      fun event found close => unclosed ⟨event, found, close⟩⟩
  · have same : record ++ [event] = (front ++ first :: (middle ++ second :: back)) ++ [last] := by
      rw [same]
      simp
    obtain ⟨rfl, -⟩ := List.append_inj' same rfl
    exact apart front first middle second back rfl opened again

/-- A matter is opened only while a guard is down, and the guard is up as long as it is open. -/
structure Guarded (opens closes : α → Prop) (guard : Prop) (record : List α) : Prop where
  /-- The guard is up while the matter is open. -/
  up : Since opens closes record → guard
  /-- The matter is closed before it is opened again. -/
  apart : Apart opens closes record

namespace Guarded

variable {guard guard' : Prop}

theorem nil : Guarded opens closes guard [] :=
  ⟨fun since => absurd since not_since_nil, fun _ _ _ _ _ same => by simp at same⟩

theorem concat (guarded : Guarded opens closes guard record)
    (opened : opens event → ¬ guard ∧ guard') (kept : guard → closes event ∨ guard') :
    Guarded opens closes guard' (record ++ [event]) := by
  refine ⟨fun since => ?_, guarded.apart.concat fun again since => (opened again).1 (guarded.up since)⟩
  rcases since_concat.mp since with again | ⟨since, unclosed⟩
  · exact (opened again).2
  · exact (kept (guarded.up since)).resolve_left unclosed

/-- Events that open nothing leave the guard alone. -/
theorem append (guarded : Guarded opens closes guard record)
    (silent : ∀ event ∈ events, ¬ opens event) : Guarded opens closes guard (record ++ events) := by
  induction events using List.reverseRecOn with
  | nil => simpa using guarded
  | append_singleton events last ih =>
    rw [← List.append_assoc]
    exact (ih fun event found => silent event (List.mem_append_left _ found)).concat
      (fun opened => absurd opened (silent last (by simp))) .inr

end Guarded

end History

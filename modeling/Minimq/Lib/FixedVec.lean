import Mathlib.Data.List.Basic
import Mathlib.Data.List.Perm.Basic
import Mathlib.Data.List.Nodup

/-! Vectors with a fixed capacity, whose length bound is carried by every value. -/

/-- A list that never grows past its capacity. -/
structure FixedVec (α : Type) (capacity : Nat) where
  /-- The stored elements, in order. -/
  toList : List α
  /-- No value with more elements than the capacity can be built. -/
  bounded : toList.length ≤ capacity
  deriving DecidableEq

namespace FixedVec

variable {α β : Type} {capacity : Nat} {vec : FixedVec α capacity} {value : α} {index : Nat}

@[ext] theorem ext {left right : FixedVec α capacity} (same : left.toList = right.toList) :
    left = right := by
  -- The length bound is a proof, so the elements determine the value.
  cases left; cases right; simp_all

/-- The vector without elements. -/
def empty : FixedVec α capacity := ⟨[], Nat.zero_le _⟩

@[simp] theorem toList_empty : (empty : FixedVec α capacity).toList = [] := rfl

/-- How many elements are stored. -/
def length (vec : FixedVec α capacity) : Nat := vec.toList.length

/-- Whether another element would exceed the capacity. -/
def isFull (vec : FixedVec α capacity) : Bool := vec.toList.length == capacity

/-- Append an element, or refuse when every slot is taken. -/
def push (vec : FixedVec α capacity) (value : α) : Option (FixedVec α capacity) :=
  if room : vec.toList.length < capacity then
    some ⟨vec.toList ++ [value], by simp only [List.length_append, List.length_singleton]; omega⟩
  else none

theorem push_of_lt (room : vec.toList.length < capacity) :
    ∃ pushed, vec.push value = some pushed ∧ pushed.toList = vec.toList ++ [value] := by
  simp [push, room]

/-- A successful push appends exactly the given element. -/
theorem toList_of_push {vec pushed : FixedVec α capacity}
    (done : vec.push value = some pushed) : pushed.toList = vec.toList ++ [value] := by
  -- Only the branch with a free slot produces a vector.
  unfold push at done
  split at done
  · simp only [Option.some.injEq] at done
    rw [← done]
  · simp at done

theorem push_eq_none : vec.push value = none ↔ vec.toList.length = capacity := by
  have := vec.bounded
  unfold push
  split <;> simp <;> omega

/-- Apply a function to every element. -/
def map (f : α → β) (vec : FixedVec α capacity) : FixedVec β capacity :=
  ⟨vec.toList.map f, by simpa using vec.bounded⟩

@[simp] theorem toList_map (f : α → β) (vec : FixedVec α capacity) :
    (vec.map f).toList = vec.toList.map f := rfl

theorem map_eq_of_factor {γ : Type*} {vec other : FixedVec α capacity} {view : α → γ} {g : γ → β}
    {f : α → β} (factor : ∀ value, f value = g (view value))
    (same : other.toList.map view = vec.toList.map view) : other.map f = vec.map f := by
  have through : f = g ∘ view := funext factor
  exact ext (by rw [toList_map, toList_map, through, ← List.map_map, ← List.map_map, same])

/-- Keep only the elements that pass a test. -/
def filter (test : α → Bool) (vec : FixedVec α capacity) : FixedVec α capacity :=
  ⟨vec.toList.filter test, Nat.le_trans (List.length_filter_le _ _) vec.bounded⟩

@[simp] theorem toList_filter (test : α → Bool) (vec : FixedVec α capacity) :
    (vec.filter test).toList = vec.toList.filter test := rfl

/-- Change the element at one position, if there is one. -/
def modify (vec : FixedVec α capacity) (index : Nat) (f : α → α) : FixedVec α capacity :=
  ⟨vec.toList.modify index f, by simpa using vec.bounded⟩

@[simp] theorem toList_modify (vec : FixedVec α capacity) (index : Nat) (f : α → α) :
    (vec.modify index f).toList = vec.toList.modify index f := rfl

/-- Change the first element that passes a test, if there is one. -/
def modifyFirst (vec : FixedVec α capacity) (test : α → Bool) (f : α → α) : FixedVec α capacity :=
  vec.modify (vec.toList.findIdx test) f

/-- After a change of one position every element is an old or a changed one. -/
theorem mem_modify {f : α → α} (found : value ∈ (vec.modify index f).toList) :
    ∃ old ∈ vec.toList, value = old ∨ value = f old := by
  rw [toList_modify, List.mem_iff_getElem?] at found
  obtain ⟨position, found⟩ := found
  rw [List.getElem?_modify] at found
  obtain ⟨old, known, rfl⟩ := Option.map_eq_some_iff.mp found
  refine ⟨old, List.mem_of_getElem? known, ?_⟩
  split
  · exact .inr rfl
  · exact .inl rfl

/-- What a change of one position does not touch stays the same everywhere. -/
theorem map_toList_modify {f : α → α} {g : α → β} (same : ∀ value, g (f value) = g value) :
    (vec.modify index f).toList.map g = vec.toList.map g := by
  -- Both lists agree at each position, changed or not.
  apply List.ext_getElem?
  intro position
  rw [toList_modify, List.getElem?_map, List.getElem?_map, List.getElem?_modify]
  cases vec.toList[position]? with
  | none => rfl
  | some value =>
    simp only [Option.map_eq_map, Option.map_some]
    split
    · rw [same value]
    · rfl

/-- The first element that passes a test is the one that changes. -/
theorem toList_modifyFirst {test : α → Bool} {f : α → α}
    {front back : List α} (split : vec.toList = front ++ value :: back)
    (passes : test value = true) (first : ∀ other ∈ front, test other = false) :
    (vec.modifyFirst test f).toList = front ++ f value :: back := by
  -- Nothing in front passes the test, so the search stops at the value.
  have here : vec.toList.findIdx test = front.length := by
    rw [split, List.findIdx_append, if_neg, List.findIdx_cons, passes]
    · exact Nat.zero_add _
    · rw [List.findIdx_lt_length]
      rintro ⟨other, found, pass⟩
      rw [first other found] at pass
      cases pass
  rw [modifyFirst, toList_modify, here, split]
  simp [List.modify_eq_take_drop]

/-- Remove the element at a position and close the gap, keeping the order. -/
def remove (vec : FixedVec α capacity) (index : Nat) : FixedVec α capacity :=
  ⟨vec.toList.eraseIdx index, Nat.le_trans (List.length_eraseIdx_le _ _) vec.bounded⟩

@[simp] theorem toList_remove (vec : FixedVec α capacity) (index : Nat) :
    (vec.remove index).toList = vec.toList.eraseIdx index := rfl

end FixedVec

/-- Remove one position of a list by moving the last element into it. -/
def List.swapRemove {α : Type} (items : List α) (index : Nat) : List α :=
  match items.getLast? with
  | none => []
  | some last => (items.set index last).dropLast

namespace List

variable {α : Type}

@[simp] theorem length_swapRemove (items : List α) (index : Nat) :
    (items.swapRemove index).length = items.length - 1 := by
  unfold swapRemove
  cases empty : items.getLast? with
  | none => simp [List.getLast?_eq_none_iff.mp empty]
  | some last => simp

theorem map_swapRemove {β : Type} (f : α → β) (items : List α) (index : Nat) :
    (items.swapRemove index).map f = (items.map f).swapRemove index := by
  simp only [swapRemove, List.getLast?_map]
  cases items.getLast? with
  | none => rfl
  | some last => simp [List.map_dropLast, List.map_set]

/-- Up to order, moving the last element into a gap is the same as closing the gap. -/
theorem swapRemove_perm {items : List α} (within : index < items.length) :
    (items.swapRemove index).Perm (items.eraseIdx index) := by
  -- Split the list into everything but its last element, and that element.
  obtain ⟨front, last, rfl⟩ : ∃ front last, items = front ++ [last] :=
    ⟨items.dropLast, items.getLast (List.ne_nil_of_length_pos (by omega)),
      (List.dropLast_append_getLast _).symm⟩
  simp only [List.length_append, List.length_singleton] at within
  simp only [swapRemove, List.getLast?_append, List.getLast?_singleton, Option.some_or]
  by_cases before : index < front.length
  · -- The gap lies before the last element, which fills it.
    rw [List.set_append_left _ _ before, List.dropLast_concat,
      List.eraseIdx_append_of_lt_length before, List.set_eq_take_append_cons_drop, if_pos before,
      List.eraseIdx_eq_take_drop_succ]
    rw [List.append_assoc]
    exact List.Perm.append_left _ (List.perm_append_singleton _ _).symm
  · -- The gap is the last position itself, so nothing moves.
    have here : index = front.length := by omega
    subst here
    simp [List.eraseIdx_append_of_length_le]

/-- Moving the last element into a gap right before it is the same as closing the gap. -/
theorem swapRemove_eq_eraseIdx {items : List α} (within : index < items.length)
    (behind : items.length ≤ index + 2) : items.swapRemove index = items.eraseIdx index := by
  obtain ⟨front, last, rfl⟩ : ∃ front last, items = front ++ [last] :=
    ⟨items.dropLast, items.getLast (List.ne_nil_of_length_pos (by omega)),
      (List.dropLast_append_getLast _).symm⟩
  simp only [List.length_append, List.length_singleton] at within behind
  simp only [swapRemove, List.getLast?_append, List.getLast?_singleton, Option.some_or]
  by_cases before : index < front.length
  · -- Only the last element is behind the gap.
    have rest : front.drop (index + 1) = [] := List.drop_eq_nil_of_le (by omega)
    rw [List.set_append_left _ _ before, List.dropLast_concat,
      List.eraseIdx_append_of_lt_length before, List.set_eq_take_append_cons_drop, if_pos before,
      List.eraseIdx_eq_take_drop_succ, rest, List.append_nil]
  · have here : index = front.length := by omega
    subst here
    simp [List.eraseIdx_append_of_length_le]

end List

namespace FixedVec

variable {α : Type} {capacity : Nat}

/-- Remove the element at a position by moving the last one into it. -/
def swapRemove (vec : FixedVec α capacity) (index : Nat) : FixedVec α capacity :=
  ⟨vec.toList.swapRemove index, by
    have := vec.bounded
    simp only [List.length_swapRemove]
    omega⟩

@[simp] theorem toList_swapRemove (vec : FixedVec α capacity) (index : Nat) :
    (vec.swapRemove index).toList = vec.toList.swapRemove index := rfl

end FixedVec

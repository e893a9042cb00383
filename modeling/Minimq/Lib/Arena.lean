import Mathlib.Data.List.Basic
import Mathlib.Data.List.Infix

/-! One flat buffer that holds segments packed from its start on, with free space behind them. -/

namespace Arena

variable {α : Type} {buf data : List α} {start : Nat}

/-- Replace the elements of a buffer from a position on. -/
def overwrite (buf : List α) (start : Nat) (data : List α) : List α :=
  buf.take start ++ data ++ buf.drop (start + data.length)

/-- Copy the elements between two positions to another position. -/
def copyWithin (buf : List α) (start stop dest : Nat) : List α :=
  overwrite buf dest ((buf.take stop).drop start)

theorem length_overwrite
    (fits : start + data.length ≤ buf.length) : (overwrite buf start data).length = buf.length := by
  simp only [overwrite, List.length_append, List.length_take, List.length_drop]
  omega

theorem take_overwrite {start count : Nat} (before : count ≤ start)
    (within : start ≤ buf.length) : (overwrite buf start data).take count = buf.take count := by
  have shorter : count ≤ (buf.take start).length := by
    rw [List.length_take]
    omega
  rw [overwrite, List.append_assoc, List.take_append_of_le_length shorter, List.take_take,
    Nat.min_eq_left before]

/-- The written data is found where it was written. -/
theorem slice_overwrite (within : start ≤ buf.length) :
    ((overwrite buf start data).drop start).take data.length = data := by
  have exact_len : (buf.take start).length = start := by
    rw [List.length_take]
    omega
  rw [overwrite, List.append_assoc, List.drop_append_of_le_length (Nat.le_of_eq exact_len.symm),
    List.drop_of_length_le (Nat.le_of_eq exact_len), List.nil_append,
    List.take_append_of_le_length (Nat.le_refl _), List.take_length]

/-- Up to its end, the written data follows what was in front of it. -/
theorem take_overwrite_end (buf data : List α) (start : Nat) :
    (overwrite buf start data).take (start + data.length) = buf.take start ++ data := by
  rcases Nat.le_total start buf.length with within | beyond
  · have front : (buf.take start ++ data).length = start + data.length := by
      rw [List.length_append, List.length_take]
      omega
    rw [overwrite, List.take_left' front]
  · -- Behind the end of the buffer there is nothing to keep.
    rw [overwrite, List.drop_of_length_le (by omega), List.append_nil, List.take_of_length_le]
    rw [List.length_append, List.length_take]
    omega

theorem drop_overwrite_end (within : start ≤ buf.length) :
    (overwrite buf start data).drop (start + data.length) = buf.drop (start + data.length) := by
  rw [overwrite, List.drop_left']
  rw [List.length_append, List.length_take]
  omega

/-- A part of the written data is found where it was written. -/
theorem part_overwrite {start offset len : Nat} (within : start ≤ buf.length)
    (inside : offset + len ≤ data.length) :
    ((overwrite buf start data).take (start + offset + len)).drop (start + offset) =
      (data.drop offset).take len := by
  have front : (buf.take start).length = start := by
    rw [List.length_take]
    omega
  rw [List.drop_take, Nat.add_sub_cancel_left, overwrite, List.append_assoc, ← List.drop_drop,
    List.drop_left' front, List.drop_append_of_le_length (by omega),
    List.take_append_of_le_length (by rw [List.length_drop]; omega)]

@[simp] theorem overwrite_nil (buf : List α) (start : Nat) : overwrite buf start [] = buf := by
  simp [overwrite]

theorem overwrite_self (buf : List α) (start count : Nat) :
    overwrite buf start ((buf.drop start).take count) = buf := by
  have rest : buf.drop (start + ((buf.drop start).take count).length) =
      (buf.drop start).drop count := by
    rw [List.drop_drop, List.length_take, List.length_drop]
    -- The buffer may end before the bytes do.
    by_cases short : count ≤ buf.length - start
    · rw [Nat.min_eq_left short]
    · rw [List.drop_of_length_le (by omega), List.drop_of_length_le (by omega)]
  rw [overwrite, rest, List.append_assoc, List.take_append_drop, List.take_append_drop]

/-- Two writes one behind the other are one write. -/
theorem overwrite_overwrite {buf first second : List α} (fits : start + first.length ≤ buf.length) :
    overwrite (overwrite buf start first) (start + first.length) second =
      overwrite buf start (first ++ second) := by
  -- The second write begins where the first ends, so it keeps all that the first one wrote.
  have written : (buf.take start ++ first).length = start + first.length := by
    rw [List.length_append, List.length_take]
    omega
  have kept : (buf.take start ++ first ++ buf.drop (start + first.length)).take
      (start + first.length) = buf.take start ++ first := by
    rw [← written, List.take_left]
  have rest : (buf.take start ++ first ++ buf.drop (start + first.length)).drop
      (start + first.length + second.length) =
        buf.drop (start + (first ++ second).length) := by
    rw [List.drop_append, List.drop_of_length_le (by omega), List.nil_append, List.drop_drop,
      written, List.length_append]
    congr 1
    omega
  rw [overwrite, overwrite, kept, rest, overwrite, List.append_assoc (buf.take start)]

/-- Two writes one in front of the other are one write. -/
theorem overwrite_prepend {buf front data : List α} (room : front.length ≤ start)
    (fits : start + data.length ≤ buf.length) :
    overwrite (overwrite buf start data) (start - front.length) front =
      overwrite buf (start - front.length) (front ++ data) := by
  -- The second write ends where the first begins, so what is behind it is the first write.
  have kept : (overwrite buf start data).take (start - front.length) =
      buf.take (start - front.length) := take_overwrite (by omega) (by omega)
  have exact_len : (buf.take start).length = start := by
    rw [List.length_take]
    omega
  have rest : (overwrite buf start data).drop (start - front.length + front.length) =
      data ++ buf.drop (start + data.length) := by
    rw [Nat.sub_add_cancel room, overwrite, List.append_assoc]
    exact List.drop_left' exact_len
  have stop : start - front.length + (front ++ data).length = start + data.length := by
    rw [List.length_append]
    omega
  rw [overwrite, kept, rest, overwrite, stop]
  simp only [List.append_assoc]

theorem length_copyWithin {buf : List α} {start stop dest : Nat} (ordered : dest ≤ start)
    (within : dest ≤ buf.length) : (copyWithin buf start stop dest).length = buf.length := by
  apply length_overwrite
  rw [List.length_drop, List.length_take]
  omega

/-- Segments lie one behind the other from the start of the buffer on. -/
def Packed (segments : List (List α)) (buf : List α) : Prop := segments.flatten <+: buf

namespace Packed

variable {segments before after : List (List α)} {segment buf : List α}

theorem nil (buf : List α) : Packed [] buf := List.nil_prefix

theorem take_eq (packed : Packed segments buf) :
    buf.take segments.flatten.length = segments.flatten :=
  (List.prefix_iff_eq_take.mp packed).symm

theorem slice (packed : Packed (before ++ segment :: after) buf) :
    (buf.drop before.flatten.length).take segment.length = segment := by
  obtain ⟨free, rfl⟩ := packed
  simp [List.append_assoc]

theorem push (packed : Packed segments buf)
    (found : (buf.drop segments.flatten.length).take segment.length = segment) :
    Packed (segments ++ [segment]) buf := by
  obtain ⟨free, rfl⟩ := packed
  rw [List.drop_left] at found
  rw [Packed, List.flatten_append, List.flatten_singleton, List.prefix_append_right_inj]
  exact found ▸ List.take_prefix _ _

/-- Moving the segments behind a removed one to its place closes the gap. -/
theorem remove (packed : Packed (before ++ segment :: after) buf) :
    Packed (before ++ after) (copyWithin buf (before.flatten.length + segment.length)
      (before ++ segment :: after).flatten.length before.flatten.length) := by
  -- What is copied is exactly the segments behind the removed one.
  have moved : (buf.take (before ++ segment :: after).flatten.length).drop
      (before.flatten.length + segment.length) = after.flatten := by
    rw [packed.take_eq, List.flatten_append, List.flatten_cons, ← List.append_assoc,
      ← List.length_append, List.drop_left]
  obtain ⟨free, rfl⟩ := packed
  rw [copyWithin, moved, Arena.overwrite, Packed, List.flatten_append, List.flatten_append,
    List.append_assoc before.flatten, List.take_left]
  exact List.prefix_append _ _

/-- Changing the first element of a segment in the buffer changes it in the segment. -/
theorem modifyHead (packed : Packed (before ++ segment :: after) buf) (nonempty : segment ≠ [])
    (f : α → α) :
    Packed (before ++ segment.modifyHead f :: after) (buf.modify before.flatten.length f) := by
  obtain ⟨free, rfl⟩ := packed
  obtain ⟨first, rest, rfl⟩ := List.exists_cons_of_ne_nil nonempty
  rw [List.modify_eq_take_drop, Packed, List.flatten_append, List.flatten_append,
    List.append_assoc before.flatten, List.take_left, List.drop_left]
  simp [List.append_assoc]

end Packed

end Arena

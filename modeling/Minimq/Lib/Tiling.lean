import Mathlib.Data.List.Infix
import Mathlib.Data.List.TakeDrop

/-! Pieces that lie one behind the other, and the object they make up. -/

namespace Tiling

variable {α : Type*}

/-- A piece of an object and where it belongs. -/
structure Piece (α : Type*) where
  /-- The position of the first element. -/
  offset : Nat
  data : List α

/-- The elements of all pieces. -/
def content (pieces : List (Piece α)) : List α := pieces.flatMap Piece.data

/-- Every piece starts where the one before it ends, the first one at a given position. -/
def Tiles : Nat → List (Piece α) → Prop
  | _, [] => True
  | start, piece :: rest => piece.offset = start ∧ Tiles (start + piece.data.length) rest

@[simp] theorem content_append (front back : List (Piece α)) :
    content (front ++ back) = content front ++ content back := List.flatMap_append

@[simp] theorem content_singleton (piece : Piece α) : content [piece] = piece.data := by
  simp [content]

@[simp] theorem content_cons (first : Piece α) (rest : List (Piece α)) :
    content (first :: rest) = first.data ++ content rest := List.flatMap_cons

/-- One more piece tiles if it starts where the others end. -/
theorem tiles_concat {start : Nat} {pieces : List (Piece α)} {piece : Piece α} :
    Tiles start (pieces ++ [piece]) ↔
      Tiles start pieces ∧ piece.offset = start + (content pieces).length := by
  induction pieces generalizing start with
  | nil => simp [Tiles, content]
  | cons first rest ih =>
    rw [List.cons_append, Tiles, Tiles, ih, and_assoc, content_cons, List.length_append,
      Nat.add_assoc]

theorem Tiles.offset_eq {start : Nat} {front back : List (Piece α)} {piece : Piece α}
    (tiles : Tiles start (front ++ piece :: back)) :
    piece.offset = start + (content front).length := by
  induction front generalizing start with
  | nil => exact tiles.1
  | cons first rest ih =>
    rw [ih tiles.2, content_cons, List.length_append, Nat.add_assoc]

/-- A piece holds the elements of an object at its position; behind the object it is free. -/
def Agrees (object : List α) (piece : Piece α) : Prop :=
  piece.data.take (object.length - piece.offset) =
    (object.drop piece.offset).take piece.data.length

/-- Pieces that tile and agree with an object make up the object, as far as they go. -/
theorem Tiles.take_content (object : List α) {pieces : List (Piece α)} (tiles : Tiles 0 pieces)
    (agree : ∀ piece ∈ pieces, Agrees object piece) :
    (content pieces).take object.length = object.take (content pieces).length := by
  -- The induction adds pieces at the end, where the offset is the length of what is there.
  induction pieces using List.reverseRecOn with
  | nil => simp [content]
  | append_singleton pieces piece ih =>
    obtain ⟨front, offset⟩ := tiles_concat.mp tiles
    rw [Nat.zero_add] at offset
    have last := agree piece (List.mem_append_right _ (List.mem_singleton.mpr rfl))
    rw [Agrees, offset] at last
    rw [content_append, content_singleton, List.take_append, last, List.length_append,
      List.take_add, ih front fun other member => agree other (List.mem_append_left _ member)]

end Tiling

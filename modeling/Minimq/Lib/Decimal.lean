import Mathlib.Data.Nat.Digits.Lemmas

/-! Decimal numerals as ASCII text. -/

namespace Decimal

/-- The character of a digit. -/
def digit (value : Nat) : UInt8 := UInt8.ofNat (48 + value)

/-- The numeral of a number, without leading zeros. -/
def text (number : Nat) : List UInt8 :=
  if number = 0 then [digit 0] else ((Nat.digits 10 number).map digit).reverse

/-- Append the value of a character to a number. -/
def push (number : Nat) (char : UInt8) : Option Nat :=
  if 48 ≤ char.toNat ∧ char.toNat ≤ 57 then some (number * 10 + (char.toNat - 48)) else none

/-- The number a text of digits stands for; an empty text stands for none. -/
def value (text : List UInt8) : Option Nat :=
  if text = [] then none else text.foldlM push 0

theorem push_digit (number : Nat) {value : Nat} (small : value < 10) :
    push number (digit value) = some (number * 10 + value) := by
  have byte : (digit value).toNat = 48 + value := by
    rw [digit, UInt8.toNat_ofNat']
    omega
  rw [push, byte, if_pos (by omega), Nat.add_sub_cancel_left]

/-- Digits behind each other are read as the number they spell, most significant first. -/
theorem foldlM_digits (digits : List Nat) (small : ∀ value ∈ digits, value < 10) :
    (digits.map digit).reverse.foldlM push 0 = some (Nat.ofDigits 10 digits) := by
  -- The list starts with the last digit, which is pushed last.
  induction digits with
  | nil => rfl
  | cons first rest ih =>
    have others := ih fun value member => small value (.tail _ member)
    rw [List.map_cons, List.reverse_cons, List.foldlM_append, others]
    have last := push_digit (Nat.ofDigits 10 rest) (small first (.head _))
    simp only [Option.bind_eq_bind, Option.bind_some, List.foldlM_cons, last, List.foldlM_nil,
      Option.pure_def, Nat.ofDigits_cons]
    rw [Nat.mul_comm, Nat.add_comm]

/-- A numeral is read as the number it was written for. -/
theorem value_text (number : Nat) : value (text number) = some number := by
  by_cases zero : number = 0
  · subst zero
    decide
  · have digits : Nat.digits 10 number ≠ [] := Nat.digits_ne_nil_iff_ne_zero.mpr zero
    rw [value, text, if_neg zero, if_neg (by simpa using digits),
      foldlM_digits _ fun _ member => Nat.digits_lt_base (by decide) member,
      Nat.ofDigits_digits]

/-- A numeral is ASCII. -/
theorem lt_of_mem_text {number : Nat} {char : UInt8} (member : char ∈ text number) :
    48 ≤ char.toNat ∧ char.toNat ≤ 57 := by
  -- Zero is written as one digit, and any other number by its digits.
  have range {value : Nat} (small : value < 10) :
      48 ≤ (digit value).toNat ∧ (digit value).toNat ≤ 57 := by
    rw [digit, UInt8.toNat_ofNat']
    omega
  unfold text at member
  split at member
  · rw [List.mem_singleton.mp member]
    exact range (by decide)
  · obtain ⟨value, digit, rfl⟩ := List.mem_map.mp (List.mem_reverse.mp member)
    exact range (Nat.digits_lt_base (by decide) digit)

theorem length_text_le {number count : Nat} (some : 0 < count) (small : number < 10 ^ count) :
    (text number).length ≤ count := by
  unfold text
  split
  · exact some
  · rw [List.length_reverse, List.length_map]
    exact (Nat.digits_length_le_iff (by decide) _).mpr small

end Decimal

import LempStack.TextFields
import Mathlib.Algebra.Order.Ring.Rat
import Mathlib.Data.Nat.Cast.Order.Basic

/-! Fields compared with numbers the way awk does it. A field that looks numeric is
compared by its value, any other field as a string with the digits of the number, and a
field the line does not have counts as nought. -/

namespace LempStack.NumericFields
open TextFields

section Numbers

def digits? (w : Text) : Option Nat :=
  if w.all Char.isDigit then some (Nat.ofDigitChars 10 w 0) else none

def decimal? (w : Text) : Option ℚ :=
  match w.splitOn '.' with
  | [whole] => if whole.isEmpty then none else (digits? whole).map fun n : Nat => (n : ℚ)
  | [whole, part] =>
    if whole.isEmpty && part.isEmpty then none
    else (digits? whole).bind fun n : Nat => (digits? part).map fun m : Nat =>
      (n : ℚ) + m / 10 ^ part.length
  | _ => none

def exponent? (w : Text) : Option ℚ :=
  match w with
  | '-' :: e => if e.isEmpty then none else (digits? e).map fun n : Nat => 1 / 10 ^ n
  | '+' :: e => if e.isEmpty then none else (digits? e).map fun n : Nat => 10 ^ n
  | e => if e.isEmpty then none else (digits? e).map fun n : Nat => 10 ^ n

def unsigned? (w : Text) : Option ℚ :=
  match w.splitOnP fun c => c == 'e' || c == 'E' with
  | [m] => decimal? m
  | [m, e] => (decimal? m).bind fun q => (exponent? e).map fun k => q * k
  | _ => none

/-- The value of a word that looks numeric. -/
def number? (w : Text) : Option ℚ :=
  match w with
  | '-' :: u => (unsigned? u).map fun q => -q
  | '+' :: u => unsigned? u
  | u => unsigned? u

end Numbers

section Compare

/-- `$i > bound` for the field `$i`. -/
def exceeds (bound : Nat) : Option Text → Bool
  | none => false
  | some w =>
    match number? w with
    | some q => decide ((bound : ℚ) < q)
    | none => decide (Nat.toDigits 10 bound < w)

def isZero : Option Text → Bool
  | none => true
  | some w =>
    match number? w with
    | some q => decide (q = 0)
    | none => decide (w = Nat.toDigits 10 0)

end Compare

section Printed

theorem unsigned?_digits {w : Text} (nonempty : w ≠ []) (digits : ∀ c ∈ w, c.isDigit = true) :
    unsigned? w = some (Nat.ofDigitChars 10 w 0 : ℚ) := by
  have noExponent : ∀ c ∈ w, (c == 'e' || c == 'E') = false := by
    intro c listed
    have digit := digits c listed
    by_contra mark
    simp only [Bool.not_eq_false, Bool.or_eq_true, beq_iff_eq] at mark
    rcases mark with rfl | rfl <;> cases digit
  have noPoint : '.' ∉ w := fun listed => absurd (digits _ listed) (by decide)
  have spelled : digits? w = some (Nat.ofDigitChars 10 w 0) := by
    rw [digits?, if_pos (List.all_eq_true.mpr digits)]
  rw [unsigned?, List.splitOnP_eq_singleton noExponent]
  dsimp only
  rw [decimal?, List.splitOn_eq_singleton noPoint]
  dsimp only
  rw [if_neg (by simpa using nonempty), spelled, Option.map_some]

theorem number?_toDigits (n : Nat) : number? (Nat.toDigits 10 n) = some (n : ℚ) := by
  have digits : ∀ c ∈ Nat.toDigits 10 n, c.isDigit = true := fun c listed =>
    Nat.isDigit_of_mem_toDigits (by decide) (by decide) listed
  have value := unsigned?_digits Nat.toDigits_ne_nil digits
  rw [Nat.ofDigitChars_ten_toDigits] at value
  unfold number?
  split
  · rename_i sign
    rw [sign] at digits
    exact absurd (digits '-' List.mem_cons_self) (by decide)
  · rename_i sign
    rw [sign] at digits
    exact absurd (digits '+' List.mem_cons_self) (by decide)
  · exact value

theorem exceeds_toDigits (bound n : Nat) :
    exceeds bound (some (Nat.toDigits 10 n)) = decide (bound < n) := by
  simp only [exceeds, number?_toDigits, Nat.cast_lt]

theorem isZero_toDigits (n : Nat) : isZero (some (Nat.toDigits 10 n)) = decide (n = 0) := by
  simp only [isZero, number?_toDigits, Nat.cast_eq_zero]

theorem word_toDigits (n : Nat) : Word (Nat.toDigits 10 n) where
  nonempty := Nat.toDigits_ne_nil
  unbroken c listed := by
    have digit : c.isDigit = true := Nat.isDigit_of_mem_toDigits (by decide) (by decide) listed
    by_contra blank
    simp only [isBlank, Bool.not_eq_false, Bool.or_eq_true, beq_iff_eq] at blank
    rcases blank with rfl | rfl <;> cases digit

end Printed

end LempStack.NumericFields

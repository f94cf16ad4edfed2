import Mathlib.Data.List.Basic
import Mathlib.Data.Nat.Notation

/-! Client addresses, address ranges and first-match access lists. -/

namespace LempStack.AccessRules

inductive Address where
  | v4 (bits : BitVec 32)
  | v6 (bits : BitVec 128)
  deriving DecidableEq, Repr

inductive Range where
  | all
  | net4 (base : BitVec 32) (len : ℕ)
  | net6 (base : BitVec 128) (len : ℕ)
  deriving DecidableEq, Repr

def Range.covers : Range → Address → Bool
  | .all, _ => true
  | .net4 base len, .v4 a => a >>> (32 - len) == base >>> (32 - len)
  | .net6 base len, .v6 a => a >>> (128 - len) == base >>> (128 - len)
  | _, _ => false

inductive Rule where
  | allow (range : Range)
  | deny (range : Range)
  deriving DecidableEq, Repr

/-- The first rule that covers the address decides; without one it is let in. -/
def permits : List Rule → Address → Bool
  | [], _ => true
  | .allow r :: rules, a => r.covers a || permits rules a
  | .deny r :: rules, a => !r.covers a && permits rules a

@[simp] theorem permits_nil (a : Address) : permits [] a = true := rfl

theorem permits_allowList (ranges : List Range) (a : Address) :
    permits (ranges.map .allow ++ [.deny .all]) a = ranges.any (·.covers a) := by
  induction ranges with
  | nil => rfl
  | cons r ranges ih => rw [List.map_cons, List.cons_append, permits, ih, List.any_cons]

def loopback4 : Address := .v4 0x7f000001#32

def loopback6 : Address := .v6 1#128

end LempStack.AccessRules

import Mathlib.Algebra.Group.Nat.Defs
import Mathlib.Algebra.Group.Int.Defs
import Mathlib.Algebra.GroupWithZero.Nat

/-!
# Fixed-width integers as a release build computes them

Rust integer arithmetic without overflow checks (the release profile): `+` and
`-` on a `w`-bit unsigned type wrap modulo `2 ^ w`, `checked_sub` refuses to go
below zero, and `as` between the unsigned and the signed type of one width
reinterprets the bits. A database integer column of `w` bits raises an error
instead of wrapping, which `checkedSigned` models.

Values are natural numbers (integers for signed types) below the bound. The
lemmas say when an operation is the exact one, and what a wrapped subtraction
returns when it does wrap.
-/
namespace HeliumOracles.Lib.Word

/-- `a + b` on a `w`-bit unsigned type, wrapping. -/
def wrappingAdd (w a b : Nat) : Nat := (a + b) % 2 ^ w

/-- `a - b` on a `w`-bit unsigned type, wrapping below zero. -/
def wrappingSub (w a b : Nat) : Nat := (a + (2 ^ w - b)) % 2 ^ w

/-- `a * b` on a `w`-bit unsigned type, wrapping. -/
def wrappingMul (w a b : Nat) : Nat := (a * b) % 2 ^ w

/-- `base.pow(exp)` on a `w`-bit unsigned type: each product of the loop wraps, so the
power does. -/
def wrappingPow (w base exp : Nat) : Nat := base ^ exp % 2 ^ w

/-- A `w`-bit unsigned accumulator: `let mut sum = 0; for a in amounts { sum += a }`. -/
def wrappingSum (w : Nat) (amounts : List Nat) : Nat := amounts.foldl (wrappingAdd w) 0

/-- `a.checked_sub(b)`. -/
def checkedSub (a b : Nat) : Option Nat := if b ≤ a then some (a - b) else none

/-- `a as iW` for an unsigned `a`: the same bits read in two's complement. -/
def toSigned (w a : Nat) : Int := if a < 2 ^ (w - 1) then a else (a : Int) - 2 ^ w

/-- `a as uW` for a signed `a`. -/
def toUnsigned (w : Nat) (a : Int) : Nat := (a % 2 ^ w).toNat

/-- `a + b` on a `w`-bit signed type, wrapping. -/
def wrappingAddSigned (w : Nat) (a b : Int) : Int := toSigned w (toUnsigned w (a + b))

/-- The result of integer arithmetic on a `w`-bit signed database column:
a value out of range is an error. -/
def checkedSigned (w : Nat) (a : Int) : Option Int :=
  if -2 ^ (w - 1) ≤ a ∧ a < 2 ^ (w - 1) then some a else none

theorem wrappingAdd_of_lt {w a b : Nat} (fits : a + b < 2 ^ w) : wrappingAdd w a b = a + b :=
  Nat.mod_eq_of_lt fits

theorem wrappingMul_of_lt {w a b : Nat} (fits : a * b < 2 ^ w) : wrappingMul w a b = a * b :=
  Nat.mod_eq_of_lt fits

theorem wrappingPow_of_lt {w base exp : Nat} (fits : base ^ exp < 2 ^ w) :
    wrappingPow w base exp = base ^ exp :=
  Nat.mod_eq_of_lt fits

theorem wrappingSub_of_le {w a b : Nat} (le : b ≤ a) (fits : a < 2 ^ w) :
    wrappingSub w a b = a - b := by
  unfold wrappingSub
  have shifted : a + (2 ^ w - b) = (a - b) + 2 ^ w := by omega
  rw [shifted, Nat.add_mod_right, Nat.mod_eq_of_lt (by omega)]

/-- Below zero the subtraction wraps to the top of the range. -/
theorem wrappingSub_of_lt {w a b : Nat} (lt : a < b) (fits : b ≤ 2 ^ w) :
    wrappingSub w a b = 2 ^ w - (b - a) := by
  unfold wrappingSub
  rw [Nat.mod_eq_of_lt (by omega)]
  omega

/-- An accumulator whose exact total fits never wraps. -/
theorem wrappingSum_of_lt {w : Nat} {amounts : List Nat} (fits : amounts.sum < 2 ^ w) :
    wrappingSum w amounts = amounts.sum := by
  -- the fold carries `acc + rest.sum < 2 ^ w`, so no partial sum wraps
  suffices exact : ∀ (rest : List Nat) (acc : Nat), acc + rest.sum < 2 ^ w →
      rest.foldl (wrappingAdd w) acc = acc + rest.sum by
    simpa [wrappingSum] using exact amounts 0 (by simpa using fits)
  intro rest
  induction rest with
  | nil => simp
  | cons a rest later =>
    intro acc fitsHere
    simp only [List.sum_cons, List.foldl_cons] at fitsHere ⊢
    rw [wrappingAdd_of_lt (by omega), later (acc + a) (by omega)]
    omega

@[simp] theorem checkedSub_eq_some {a b r : Nat} : checkedSub a b = some r ↔ b ≤ a ∧ a - b = r := by
  unfold checkedSub
  split <;> simp [*]

@[simp] theorem checkedSub_eq_none {a b : Nat} : checkedSub a b = none ↔ a < b := by
  unfold checkedSub
  split <;> simp <;> omega

theorem toSigned_of_lt {w a : Nat} (fits : a < 2 ^ (w - 1)) : toSigned w a = a :=
  if_pos fits

theorem toUnsigned_of_nonneg {w : Nat} {a : Int} (nonneg : 0 ≤ a) (fits : a < 2 ^ w) :
    (toUnsigned w a : Int) = a := by
  unfold toUnsigned
  rw [Int.emod_eq_of_lt nonneg fits, Int.toNat_of_nonneg nonneg]

theorem wrappingAddSigned_of_mem {w : Nat} {a b : Int} (width : 0 < w)
    (low : -2 ^ (w - 1) ≤ a + b) (high : a + b < 2 ^ (w - 1)) : wrappingAddSigned w a b = a + b := by
  have double : (2 : Int) ^ w = 2 * 2 ^ (w - 1) := by
    obtain ⟨v, rfl⟩ : ∃ v, w = v + 1 := ⟨w - 1, by omega⟩
    rw [Nat.add_sub_cancel, Int.pow_succ]
    omega
  have castHalf : ((2 ^ (w - 1) : Nat) : Int) = 2 ^ (w - 1) := by push_cast; rfl
  unfold wrappingAddSigned toSigned toUnsigned
  by_cases nonneg : 0 ≤ a + b
  · rw [Int.emod_eq_of_lt nonneg (by omega), if_pos (by omega)]
    omega
  · -- a negative sum is stored as its complement, at or above the sign bit
    have shifted : (a + b) % 2 ^ w = a + b + 2 ^ w := by
      rw [← Int.add_emod_right, Int.emod_eq_of_lt (by omega) (by omega)]
    rw [shifted, if_neg (by omega)]
    omega

@[simp] theorem checkedSigned_eq_some {w : Nat} {a b : Int} :
    checkedSigned w a = some b ↔ (-2 ^ (w - 1) ≤ a ∧ a < 2 ^ (w - 1)) ∧ a = b := by
  unfold checkedSigned
  split <;> simp [*]

end HeliumOracles.Lib.Word

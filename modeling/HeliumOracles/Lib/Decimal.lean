import Mathlib.Data.Rat.Floor
import Mathlib.Tactic.Linarith
import Mathlib.Tactic.NormNum

/-!
# Decimal arithmetic of the rust_decimal crate

A `Decimal` is a number `m / 10 ^ e` with a 96-bit mantissa `m` and a scale
`e ≤ 28`; its values are kept here as rationals. `round_dp_with_strategy`, which
the crate defines digit by digit, is `roundDp`, and `to_u64` is `toU64`.
Multiplication and division round a result that does not fit in those digits.
How they round is the crate's own affair, so they are the fields of an `Arith`,
and `Arith.Accurate` states the precision the crate documents: a result within
one unit of its 28th significant digit, or of the 28th decimal place below one,
as long as it is in range. Sums and comparisons are exact.

A caller knows a computed value only up to that precision. The lemmas carry an
interval through a product or a quotient, and pin down what a rounding returns
when its input lies in an interval that no rounding boundary crosses.
-/
namespace HeliumOracles.Lib.Decimal

/-- The strategies of `RoundingStrategy` that the callers use. -/
inductive RoundingStrategy where
  | midpointNearestEven
  | toZero
  | toPositiveInfinity
  deriving DecidableEq, Repr

/-- `x` rounded to a whole number with `strategy`. -/
def roundWhole : RoundingStrategy → ℚ → ℤ
  | .midpointNearestEven, x =>
    if x - ⌊x⌋ < 1 / 2 then ⌊x⌋
    else if 1 / 2 < x - ⌊x⌋ then ⌊x⌋ + 1
    else if ⌊x⌋ % 2 = 0 then ⌊x⌋ else ⌊x⌋ + 1
  | .toZero, x => if 0 ≤ x then ⌊x⌋ else ⌈x⌉
  | .toPositiveInfinity, x => ⌈x⌉

/-- `x.round_dp_with_strategy(dp, strategy)`: `x` rounded to `dp` decimal places. -/
def roundDp (dp : ℕ) (strategy : RoundingStrategy) (x : ℚ) : ℚ :=
  roundWhole strategy (x * 10 ^ dp) / 10 ^ dp

/-- `x.to_u64()`: the whole part of a value in the range of `u64`, none outside it. -/
def toU64 (x : ℚ) : Option ℕ :=
  if 0 ≤ x ∧ x < 2 ^ 64 then some ⌊x⌋.toNat else none

/-- `x.to_u32()`: the whole part of a value in the range of `u32`, none outside it. -/
def toU32 (x : ℚ) : Option ℕ :=
  if 0 ≤ x ∧ x < 2 ^ 32 then some ⌊x⌋.toNat else none

section Rounding

variable {dp : ℕ} {x : ℚ}

/-- Away from a midpoint, `MidpointNearestEven` returns the nearest whole number. -/
theorem roundWhole_midpointNearestEven_of_near {k : ℤ} (near : |x - k| < 1 / 2) :
    roundWhole .midpointNearestEven x = k := by
  obtain ⟨above, below⟩ := abs_sub_lt_iff.mp near
  simp only [roundWhole]
  by_cases upper : (k : ℚ) ≤ x
  · -- `x` lies in the lower half of `[k, k + 1)`
    have floorIs : ⌊x⌋ = k := Int.floor_eq_iff.mpr ⟨upper, by linarith⟩
    rw [floorIs, if_pos (by linarith)]
  · -- `x` lies in the upper half of `[k - 1, k)`
    have floorIs : ⌊x⌋ = k - 1 :=
      Int.floor_eq_iff.mpr ⟨by push_cast; linarith, by push_cast; linarith⟩
    have fraction : 1 / 2 < x - ⌊x⌋ := by
      rw [floorIs]
      push_cast
      linarith
    rw [if_neg (not_lt.mpr fraction.le), if_pos fraction, floorIs, sub_add_cancel]

/-- A value whose scaled interval lies strictly between two midpoints rounds to the
one grid point between them, wherever in the interval it is. -/
theorem roundDp_midpointNearestEven_of_mem {lo hi : ℚ} (k : ℤ) (inside : x ∈ Set.Icc lo hi)
    (above : (k - 1 / 2) / 10 ^ dp < lo) (below : hi < (k + 1 / 2) / 10 ^ dp) :
    roundDp dp .midpointNearestEven x = k / 10 ^ dp := by
  have scale : (0 : ℚ) < 10 ^ dp := by positivity
  have low : (k : ℚ) - 1 / 2 < x * 10 ^ dp := (div_lt_iff₀ scale).mp (above.trans_le inside.1)
  have high : x * 10 ^ dp < k + 1 / 2 := (lt_div_iff₀ scale).mp (inside.2.trans_lt below)
  have near : |x * 10 ^ dp - k| < 1 / 2 := abs_sub_lt_iff.mpr ⟨by linarith, by linarith⟩
  rw [roundDp, roundWhole_midpointNearestEven_of_near near]

/-- `MidpointNearestEven` rounding to a whole number is monotone. -/
theorem roundWhole_midpointNearestEven_mono {y : ℚ} (le : x ≤ y) :
    roundWhole .midpointNearestEven x ≤ roundWhole .midpointNearestEven y := by
  rcases (Int.floor_mono le).lt_or_eq with lower | same
  · -- a whole number lies between them, and each rounds to its floor or the next one
    have xAtMost : roundWhole .midpointNearestEven x ≤ ⌊x⌋ + 1 := by
      simp only [roundWhole]
      split_ifs <;> omega
    have yAtLeast : ⌊y⌋ ≤ roundWhole .midpointNearestEven y := by
      simp only [roundWhole]
      split_ifs <;> omega
    omega
  · -- one floor: the fraction of `y` is the larger, and a tie of `x` is a tie of `y` or
    -- lies below its fraction
    have fractions : x - ⌊y⌋ ≤ y - ⌊y⌋ := by linarith
    simp only [roundWhole, same]
    split_ifs <;> first | omega | linarith

/-- `MidpointNearestEven` rounding to `dp` places is monotone. -/
theorem roundDp_midpointNearestEven_mono {y : ℚ} (le : x ≤ y) :
    roundDp dp .midpointNearestEven x ≤ roundDp dp .midpointNearestEven y := by
  have scale : (0 : ℚ) < 10 ^ dp := by positivity
  have whole := roundWhole_midpointNearestEven_mono (mul_le_mul_of_nonneg_right le scale.le)
  unfold roundDp
  exact div_le_div_of_nonneg_right (by exact_mod_cast whole) scale.le

/-- A value with at most `dp` places is its own rounding. -/
theorem roundDp_midpointNearestEven_grid (k : ℤ) :
    roundDp dp .midpointNearestEven (k / 10 ^ dp) = k / 10 ^ dp := by
  have scale : (0 : ℚ) < 10 ^ dp := by positivity
  exact roundDp_midpointNearestEven_of_mem k ⟨le_rfl, le_rfl⟩
    (div_lt_div_of_pos_right (by linarith) scale) (div_lt_div_of_pos_right (by linarith) scale)

/-- A whole number is its own rounding. -/
theorem roundDp_midpointNearestEven_natCast (m : ℕ) :
    roundDp dp .midpointNearestEven m = m := by
  have scale : (10 : ℚ) ^ dp ≠ 0 := by positivity
  have grid := @roundDp_midpointNearestEven_grid dp (m * 10 ^ dp)
  push_cast at grid
  rwa [mul_div_cancel_right₀ _ scale] at grid

/-- `MidpointNearestEven` moves a value by at most half a unit of its last place. -/
theorem roundDp_midpointNearestEven_le : roundDp dp .midpointNearestEven x ≤ x + 1 / 2 / 10 ^ dp := by
  have scale : (0 : ℚ) < 10 ^ dp := by positivity
  have whole : (roundWhole .midpointNearestEven (x * 10 ^ dp) : ℚ) ≤ x * 10 ^ dp + 1 / 2 := by
    have floorLe := Int.floor_le (x * 10 ^ dp)
    simp only [roundWhole]
    split_ifs with nearLow nearHigh <;> push_cast <;> linarith
  rw [roundDp, div_le_iff₀ scale, add_mul, div_mul_cancel₀ _ scale.ne']
  exact whole

/-- `MidpointNearestEven` moves a value by at least minus half a unit of its last place. -/
theorem le_roundDp_midpointNearestEven : x - 1 / 2 / 10 ^ dp ≤ roundDp dp .midpointNearestEven x := by
  have scale : (0 : ℚ) < 10 ^ dp := by positivity
  have whole : x * 10 ^ dp - 1 / 2 ≤ (roundWhole .midpointNearestEven (x * 10 ^ dp) : ℚ) := by
    have floorAbove := Int.lt_floor_add_one (x * 10 ^ dp)
    simp only [roundWhole]
    split_ifs with nearLow nearHigh <;> push_cast <;> linarith
  rw [roundDp, le_div_iff₀ scale, sub_mul, div_mul_cancel₀ _ scale.ne']
  exact whole

/-- A value above half a unit of the last place rounds to a positive value. -/
theorem roundDp_midpointNearestEven_pos (above : 1 / 2 / 10 ^ dp < x) :
    0 < roundDp dp .midpointNearestEven x :=
  lt_of_lt_of_le (by linarith) le_roundDp_midpointNearestEven

/-- A value known within `[lo, hi]` is rounded to within half a unit of that interval. -/
theorem roundDp_midpointNearestEven_mem {lo hi : ℚ} (inside : x ∈ Set.Icc lo hi) :
    roundDp dp .midpointNearestEven x ∈ Set.Icc (lo - 1 / 2 / 10 ^ dp) (hi + 1 / 2 / 10 ^ dp) :=
  ⟨le_trans (by linarith [inside.1]) le_roundDp_midpointNearestEven,
    le_trans roundDp_midpointNearestEven_le (by linarith [inside.2])⟩

/-- A value above minus half a unit of the last place never rounds below zero: the result
is a whole number of units above minus one. -/
theorem roundDp_midpointNearestEven_nonneg (above : -(1 / 2 / 10 ^ dp) < x) :
    0 ≤ roundDp dp .midpointNearestEven x := by
  have scale : (0 : ℚ) < 10 ^ dp := by positivity
  have low := @le_roundDp_midpointNearestEven dp x
  unfold roundDp at low ⊢
  generalize roundWhole .midpointNearestEven (x * 10 ^ dp) = k at low ⊢
  have units : (-1 : ℚ) < k := by
    have scaled := (le_div_iff₀ scale).mp low
    rw [sub_mul, div_mul_cancel₀ _ scale.ne'] at scaled
    have : -(1 / 2) < x * 10 ^ dp := by
      have := mul_lt_mul_of_pos_right above scale
      rwa [neg_mul, div_mul_cancel₀ _ scale.ne'] at this
    linarith
  have wholeUnits : 0 ≤ k := by
    have : ((-1 : ℤ) : ℚ) < k := by push_cast; exact units
    have := Int.cast_lt.mp this
    omega
  exact div_nonneg (by exact_mod_cast wholeUnits) scale.le

/-- A value below one and half a unit of the last place never rounds above one. -/
theorem roundDp_midpointNearestEven_le_one (below : x < 1 + 1 / 2 / 10 ^ dp) :
    roundDp dp .midpointNearestEven x ≤ 1 := by
  have scale : (0 : ℚ) < 10 ^ dp := by positivity
  have high := @roundDp_midpointNearestEven_le dp x
  unfold roundDp at high ⊢
  generalize roundWhole .midpointNearestEven (x * 10 ^ dp) = k at high ⊢
  have halves : 1 / 2 / 10 ^ dp + 1 / 2 / 10 ^ dp = 1 / (10 : ℚ) ^ dp := by ring
  have units : (k : ℚ) < 10 ^ dp + 1 := by
    have scaled := (div_lt_iff₀ scale).mp
      (high.trans_lt (by linarith : x + 1 / 2 / 10 ^ dp < 1 + 1 / 10 ^ dp))
    rwa [add_mul, one_mul, div_mul_cancel₀ _ scale.ne'] at scaled
  have wholeUnits : k ≤ 10 ^ dp := by
    have : (k : ℚ) < ((10 ^ dp + 1 : ℤ) : ℚ) := by push_cast; exact units
    have := Int.cast_lt.mp this
    omega
  rw [div_le_one scale]
  exact_mod_cast wholeUnits

theorem roundDp_toZero_of_nonneg (nonneg : 0 ≤ x) : roundDp 0 .toZero x = ⌊x⌋ := by
  simp [roundDp, roundWhole, nonneg]

/-- A nonnegative value between two whole numbers is cut down to the lower one. -/
theorem roundDp_toZero_of_mem (k : ℕ) (low : (k : ℚ) ≤ x) (high : x < k + 1) :
    roundDp 0 .toZero x = k := by
  rw [roundDp_toZero_of_nonneg (le_trans (Nat.cast_nonneg k) low)]
  exact_mod_cast Int.floor_eq_iff.mpr ⟨by exact_mod_cast low, by exact_mod_cast high⟩

theorem roundDp_toZero_le (nonneg : 0 ≤ x) : roundDp 0 .toZero x ≤ x := by
  rw [roundDp_toZero_of_nonneg nonneg]
  exact Int.floor_le x

theorem le_roundDp_toPositiveInfinity : x ≤ roundDp dp .toPositiveInfinity x := by
  have scale : (0 : ℚ) < 10 ^ dp := by positivity
  rw [roundDp, le_div_iff₀ scale]
  exact Int.le_ceil _

/-- Rounding up moves a value by less than a unit of its last place. -/
theorem roundDp_toPositiveInfinity_le : roundDp dp .toPositiveInfinity x ≤ x + 1 / 10 ^ dp := by
  have scale : (0 : ℚ) < 10 ^ dp := by positivity
  have whole : (⌈x * 10 ^ dp⌉ : ℚ) ≤ x * 10 ^ dp + 1 := (Int.ceil_lt_add_one _).le
  rw [roundDp, roundWhole, div_le_iff₀ scale, add_mul, div_mul_cancel₀ _ scale.ne']
  exact whole

/-- A value above minus a unit of the last place is rounded up to zero or more. -/
theorem roundDp_toPositiveInfinity_nonneg (above : -(1 / 10 ^ dp) < x) :
    0 ≤ roundDp dp .toPositiveInfinity x := by
  have scale : (0 : ℚ) < 10 ^ dp := by positivity
  have scaledAbove : (-1 : ℚ) < x * 10 ^ dp := by
    have shifted := mul_lt_mul_of_pos_right above scale
    rwa [neg_mul, div_mul_cancel₀ _ scale.ne'] at shifted
  have ceilNonneg : (0 : ℤ) ≤ ⌈x * 10 ^ dp⌉ := Int.ceil_nonneg_of_neg_one_lt scaledAbove
  rw [roundDp, roundWhole]
  exact div_nonneg (by exact_mod_cast ceilNonneg) scale.le

theorem toU64_natCast {k : ℕ} (fits : k < 2 ^ 64) : toU64 k = some k := by
  have below : (k : ℚ) < 2 ^ 64 := by exact_mod_cast fits
  simp [toU64, below]

/-- `x.round_dp_with_strategy(0, ToZero).to_u64().unwrap_or(0)` of a value between two
whole numbers in range is the lower one. -/
theorem toU64_roundDp_toZero_of_mem (k : ℕ) (fits : k < 2 ^ 64) (low : (k : ℚ) ≤ x)
    (high : x < k + 1) : (toU64 (roundDp 0 .toZero x)).getD 0 = k := by
  rw [roundDp_toZero_of_mem k low high, toU64_natCast fits]
  rfl

/-- A negative value is clamped to zero: cut toward zero it is at most zero, and
`to_u64` refuses anything below zero. -/
theorem toU64_roundDp_toZero_of_neg (negative : x < 0) :
    (toU64 (roundDp 0 .toZero x)).getD 0 = 0 := by
  have cut : roundDp 0 .toZero x = ⌈x⌉ := by simp [roundDp, roundWhole, not_le.mpr negative]
  have nonpos : ⌈x⌉ ≤ 0 := Int.ceil_le.mpr (by exact_mod_cast negative.le)
  unfold toU64
  rw [cut]
  split
  · rename_i inRange
    have zero : ⌈x⌉ = 0 := le_antisymm nonpos (by exact_mod_cast inRange.1)
    simp [zero]
  · rfl

/-- A value past the range of `u64` is refused by `to_u64` and read as zero. -/
theorem toU64_roundDp_toZero_of_ge (big : 2 ^ 64 ≤ x) :
    (toU64 (roundDp 0 .toZero x)).getD 0 = 0 := by
  have nonneg : (0 : ℚ) ≤ x := le_trans (by norm_num) big
  have floorBig : (2 : ℚ) ^ 64 ≤ ⌊x⌋ := by
    have whole : (2 : ℤ) ^ 64 ≤ ⌊x⌋ := Int.le_floor.mpr (by exact_mod_cast big)
    exact_mod_cast whole
  rw [roundDp_toZero_of_nonneg nonneg]
  simp [toU64, not_lt.mpr floorBig]

/-- What `to_u64` returns is at most the value it converts. -/
theorem le_of_toU64_eq_some {n : ℕ} (converted : toU64 x = some n) : (n : ℚ) ≤ x := by
  unfold toU64 at converted
  split_ifs at converted with inRange
  cases converted
  have nonneg : 0 ≤ ⌊x⌋ := Int.floor_nonneg.mpr inRange.1
  calc ((⌊x⌋.toNat : ℕ) : ℚ) = ((⌊x⌋ : ℤ) : ℚ) := by exact_mod_cast Int.toNat_of_nonneg nonneg
    _ ≤ x := Int.floor_le x

end Rounding

/-- The crate's multiplication and division of Decimal values. -/
structure Arith where
  mul : ℚ → ℚ → ℚ
  div : ℚ → ℚ → ℚ

/-- `result` agrees with `exact` to the precision of a Decimal: within a unit of the
28th significant digit, or of the 28th decimal place. -/
def WithinPrecision (result exact : ℚ) : Prop :=
  |result - exact| ≤ |exact| / 10 ^ 27 + 1 / 10 ^ 28

/-- Products and quotients in the range of a Decimal are exact to its precision. -/
structure Arith.Accurate (arith : Arith) : Prop where
  mul : ∀ a b, |a * b| < 2 ^ 96 → WithinPrecision (arith.mul a b) (a * b)
  div : ∀ a b, b ≠ 0 → |a / b| < 2 ^ 96 → WithinPrecision (arith.div a b) (a / b)

/-- Exact rational arithmetic: one arithmetic that keeps the precision contract. -/
def Arith.exact : Arith := ⟨fun a b => a * b, fun a b => a / b⟩

/-- `a.checked_div(b)`: none for a zero divisor or a quotient past the range of a
Decimal. -/
def Arith.checkedDiv (arith : Arith) (a b : ℚ) : Option ℚ :=
  if b = 0 ∨ 2 ^ 96 ≤ |a / b| then none else some (arith.div a b)

theorem Arith.exact_accurate : Arith.exact.Accurate := by
  have exactWithin : ∀ e : ℚ, WithinPrecision e e := fun e => by
    unfold WithinPrecision
    rw [sub_self, abs_zero]
    positivity
  exact ⟨fun a b _ => exactWithin (a * b), fun a b _ _ => exactWithin (a / b)⟩

/-- Quotients rounded the way a Decimal rounds them: by a positive divisor the rounding is
monotone in the dividend, and a quotient with at most 28 decimal places in range is returned
exactly. -/
structure Arith.RoundsQuotients (arith : Arith) : Prop where
  div_mono : ∀ {a a' b : ℚ}, 0 < b → a ≤ a' → arith.div a b ≤ arith.div a' b
  div_exact : ∀ {a b : ℚ} (k : ℤ), b ≠ 0 → |k| < 2 ^ 96 → a / b = k / 10 ^ 28 →
    arith.div a b = a / b

theorem Arith.exact_roundsQuotients : Arith.exact.RoundsQuotients :=
  ⟨fun positive le => div_le_div_of_nonneg_right le positive.le, fun _ _ _ _ => rfl⟩

/-- With exact division, a quotient within the range of a Decimal panics only on a zero
divisor. -/
theorem Arith.checkedDiv_exact {a b : ℚ} (inRange : |a / b| < 2 ^ 96) :
    Arith.exact.checkedDiv a b = if b = 0 then none else some (a / b) := by
  unfold Arith.checkedDiv
  by_cases zero : b = 0
  · simp [zero]
  · rw [if_neg (by rintro (zero' | big); exacts [zero zero', absurd inRange (not_lt.mpr big)]),
      if_neg zero]
    rfl

/-- A quotient in `[0, 1]` by a positive divisor does not panic. -/
theorem Arith.checkedDiv_of_le {arith : Arith} {a b : ℚ} (nonneg : 0 ≤ a) (le : a ≤ b)
    (positive : 0 < b) : arith.checkedDiv a b = some (arith.div a b) := by
  have quotientLe : a / b ≤ 1 := (div_le_one positive).mpr le
  unfold Arith.checkedDiv
  rw [if_neg]
  rintro (zero | big)
  · exact positive.ne' zero
  · rw [abs_of_nonneg (div_nonneg nonneg positive.le)] at big
    linarith

/-- A quotient of a whole number of quarters up to one is exact. -/
theorem Arith.RoundsQuotients.div_of_quarters {arith : Arith} (rounds : arith.RoundsQuotients)
    {a b : ℚ} (m : ℕ) (nonzero : b ≠ 0) (atMostOne : m ≤ 4) (quarters : a / b = m / 4) :
    arith.div a b = m / 4 := by
  have scaled : a / b = ((m * 25 * 10 ^ 26 : ℕ) : ℤ) / 10 ^ 28 := by
    rw [quarters]
    push_cast
    ring
  rw [rounds.div_exact _ nonzero (by push_cast; norm_num; omega) scaled, quarters]

section Intervals

variable {arith : Arith} {result exact lo hi : ℚ}

/-- A nonnegative exact value known to lie in `[lo, hi]` leaves its rounded result
in that interval widened by the precision. -/
theorem WithinPrecision.mem (close : WithinPrecision result exact) (nonneg : 0 ≤ exact)
    (inside : exact ∈ Set.Icc lo hi) :
    result ∈ Set.Icc (lo * (1 - 1 / 10 ^ 27) - 1 / 10 ^ 28) (hi * (1 + 1 / 10 ^ 27) + 1 / 10 ^ 28) := by
  unfold WithinPrecision at close
  rw [abs_of_nonneg nonneg] at close
  obtain ⟨below, above⟩ := abs_sub_le_iff.mp close
  obtain ⟨low, high⟩ := inside
  constructor <;> nlinarith

/-- A product with a nonnegative factor, its other factor known within `[lo, hi]`. -/
theorem Arith.Accurate.mul_mem (accurate : arith.Accurate) {a b : ℚ} (inside : a ∈ Set.Icc lo hi)
    (nonneg : 0 ≤ lo) (factor : 0 ≤ b) (fits : hi * b < 2 ^ 96) :
    arith.mul a b ∈ Set.Icc (lo * b * (1 - 1 / 10 ^ 27) - 1 / 10 ^ 28)
      (hi * b * (1 + 1 / 10 ^ 27) + 1 / 10 ^ 28) := by
  have productNonneg : 0 ≤ a * b := mul_nonneg (nonneg.trans inside.1) factor
  have inRange : |a * b| < 2 ^ 96 := by
    rw [abs_of_nonneg productNonneg]
    exact lt_of_le_of_lt (mul_le_mul_of_nonneg_right inside.2 factor) fits
  exact (accurate.mul a b inRange).mem productNonneg
    ⟨mul_le_mul_of_nonneg_right inside.1 factor, mul_le_mul_of_nonneg_right inside.2 factor⟩

/-- A quotient by a positive divisor, its dividend known within `[lo, hi]`. -/
theorem Arith.Accurate.div_mem (accurate : arith.Accurate) {a b : ℚ} (inside : a ∈ Set.Icc lo hi)
    (nonneg : 0 ≤ lo) (divisor : 0 < b) (fits : hi / b < 2 ^ 96) :
    arith.div a b ∈ Set.Icc (lo / b * (1 - 1 / 10 ^ 27) - 1 / 10 ^ 28)
      (hi / b * (1 + 1 / 10 ^ 27) + 1 / 10 ^ 28) := by
  have quotientNonneg : 0 ≤ a / b := div_nonneg (nonneg.trans inside.1) divisor.le
  have inRange : |a / b| < 2 ^ 96 := by
    rw [abs_of_nonneg quotientNonneg]
    exact lt_of_le_of_lt (div_le_div_of_nonneg_right inside.2 divisor.le) fits
  exact (accurate.div a b divisor.ne' inRange).mem quotientNonneg
    ⟨div_le_div_of_nonneg_right inside.1 divisor.le, div_le_div_of_nonneg_right inside.2 divisor.le⟩

/-- A quotient whose divisor is itself known only within `[low, high]`, `0 < low`. -/
theorem Arith.Accurate.div_mem_of_divisor (accurate : arith.Accurate) {a b low high : ℚ}
    (inside : a ∈ Set.Icc lo hi) (nonneg : 0 ≤ lo) (divisor : b ∈ Set.Icc low high)
    (positive : 0 < low) (fits : hi / low < 2 ^ 96) :
    arith.div a b ∈ Set.Icc (lo / high * (1 - 1 / 10 ^ 27) - 1 / 10 ^ 28)
      (hi / low * (1 + 1 / 10 ^ 27) + 1 / 10 ^ 28) := by
  have bPositive : 0 < b := positive.trans_le divisor.1
  have hiNonneg : 0 ≤ hi := nonneg.trans (inside.1.trans inside.2)
  -- a larger divisor gives a smaller quotient, on both ends of the interval
  have lower : lo / high ≤ lo / b := div_le_div_of_nonneg_left nonneg bPositive divisor.2
  have upper : hi / b ≤ hi / low := div_le_div_of_nonneg_left hiNonneg positive divisor.1
  obtain ⟨above, below⟩ := accurate.div_mem inside nonneg bPositive (upper.trans_lt fits)
  have shrink : (0 : ℚ) ≤ 1 - 1 / 10 ^ 27 := by norm_num
  have grow : (0 : ℚ) ≤ 1 + 1 / 10 ^ 27 := by norm_num
  constructor
  · linarith [mul_le_mul_of_nonneg_right lower shrink]
  · linarith [mul_le_mul_of_nonneg_right upper grow]

/-- A product with a zero factor is zero to within the 28th decimal place. -/
theorem Arith.Accurate.mul_zero_mem (accurate : arith.Accurate) (b : ℚ) :
    arith.mul 0 b ∈ Set.Icc (-(1 / 10 ^ 28)) (1 / 10 ^ 28) := by
  have close := accurate.mul 0 b (by simp)
  unfold WithinPrecision at close
  simp only [zero_mul, sub_zero, abs_zero, zero_div, zero_add] at close
  exact abs_le.mp close

/-- A product whose first factor is at most a nonnegative `u` and whose second factor is
nonnegative is at most `u` times that factor, up to the precision. -/
theorem Arith.Accurate.mul_le_of_le (accurate : arith.Accurate) {a u b : ℚ} (le : a ≤ u)
    (uNonneg : 0 ≤ u) (bNonneg : 0 ≤ b) (fits : |a * b| < 2 ^ 96) :
    arith.mul a b ≤ u * b * (1 + 1 / 10 ^ 27) + 1 / 10 ^ 28 := by
  have above := (abs_sub_le_iff.mp (accurate.mul a b fits)).1
  have scaled : a * b ≤ u * b := mul_le_mul_of_nonneg_right le bNonneg
  rcases le_or_gt 0 (a * b) with nonneg | negative
  · rw [abs_of_nonneg nonneg] at above
    linarith
  · -- a negative product is rounded to at most the absolute error
    rw [abs_of_neg negative] at above
    have : 0 ≤ u * b := mul_nonneg uNonneg bNonneg
    linarith

theorem abs_mul_le_of_abs_le {a b α β : ℚ} (aLe : |a| ≤ α) (bLe : |b| ≤ β) :
    |a * b| ≤ α * β := by
  rw [abs_mul]
  exact mul_le_mul aLe bLe (abs_nonneg b) ((abs_nonneg a).trans aLe)

/-- A product of factors bounded in absolute value is bounded in absolute value. -/
theorem Arith.Accurate.abs_mul_le (accurate : arith.Accurate) {a b α β : ℚ} (aLe : |a| ≤ α)
    (bLe : |b| ≤ β) (fits : α * β < 2 ^ 96) :
    |arith.mul a b| ≤ α * β * (1 + 1 / 10 ^ 27) + 1 / 10 ^ 28 := by
  have productLe := abs_mul_le_of_abs_le aLe bLe
  have close := accurate.mul a b (productLe.trans_lt fits)
  have spread := abs_sub_abs_le_abs_sub (arith.mul a b) (a * b)
  unfold WithinPrecision at close
  linarith

/-- A quotient of a nonnegative value by a larger one lies in `[0, 1]`, up to the precision. -/
theorem Arith.Accurate.div_near_unit (accurate : arith.Accurate) {a b : ℚ} (aNonneg : 0 ≤ a)
    (aLe : a ≤ b) (bPos : 0 < b) :
    -(1 / 10 ^ 28) ≤ arith.div a b ∧ arith.div a b ≤ 1 + 2 / 10 ^ 27 := by
  have quotientLe : a / b ≤ 1 := (div_le_one bPos).mpr aLe
  have quotientNonneg : 0 ≤ a / b := div_nonneg aNonneg bPos.le
  obtain ⟨low, high⟩ := accurate.div_mem (Set.left_mem_Icc.mpr (le_refl a)) aNonneg bPos
    (by linarith)
  constructor <;> linarith

/-- A product of a value within `slack` of `[0, 1]` and a factor near `[0, 1]` stays within
`slack + 10 ^ -26` of `[0, 1]`. -/
theorem Arith.Accurate.mul_near_unit (accurate : arith.Accurate) {scale factor slack : ℚ}
    (slackNonneg : 0 ≤ slack) (slackLe : slack ≤ 1 / 2)
    (scaleLow : -slack ≤ scale) (scaleHigh : scale ≤ 1 + slack)
    (factorLow : -(1 / 10 ^ 28) ≤ factor) (factorHigh : factor ≤ 1 + 2 / 10 ^ 27) :
    -(slack + 1 / 10 ^ 26) ≤ arith.mul scale factor ∧
      arith.mul scale factor ≤ 1 + slack + 1 / 10 ^ 26 := by
  have scaleAbs : |scale| ≤ 3 / 2 := abs_le.mpr ⟨by linarith, by linarith⟩
  have factorAbs : |factor| ≤ 1 + 2 / 10 ^ 27 := abs_le.mpr ⟨by linarith, factorHigh⟩
  have productAbs := abs_mul_le_of_abs_le scaleAbs factorAbs
  have close := accurate.mul scale factor (productAbs.trans_lt (by norm_num))
  unfold WithinPrecision at close
  obtain ⟨resultHigh, resultLow⟩ := abs_sub_le_iff.mp close
  -- the exact product, bounded from the corners of the two intervals
  have lowCorner : 0 ≤ (scale + slack) * (factor + 1 / 10 ^ 28) :=
    mul_nonneg (by linarith) (by linarith)
  have highCorner : 0 ≤ (1 + slack - scale) * (factor + 1 / 10 ^ 28) :=
    mul_nonneg (by linarith) (by linarith)
  have slackFactorLe : slack * factor ≤ slack * (1 + 2 / 10 ^ 27) :=
    mul_le_mul_of_nonneg_left factorHigh slackNonneg
  have slackFactorGe : slack * -(1 / 10 ^ 28) ≤ slack * factor :=
    mul_le_mul_of_nonneg_left factorLow slackNonneg
  constructor <;> linarith

end Intervals

end HeliumOracles.Lib.Decimal

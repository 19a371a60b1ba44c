import HeliumOracles.IotVerifier.Runner

/-!
# The HIP-15 reward units

Source: `iot_verifier/src/runner.rs` (`poc_beaconer_reward_unit`,
`poc_per_witness_reward_unit`, modelled in Runner).

Above `WITNESS_REDUNDANCY` witnesses both units subtract `0.8 ^ (n - 4)`, which the
crate's `checked_powu` computes by repeated 28-digit products. That function is not in the
repository: `PowuAccurate` states what the results assume of it, that it returns for every
exponent a value within `10⁻²⁰` of the exact power. Quotients are the crate's, within
`Arith.Accurate`.

The results (`reward_units_within_bounds`): for every count of witnesses both units are
returned; the unit of a witness lies in `[0, 1]`, is positive up to 59999 witnesses and
zero from 60001 on, and never grows with the count of a `u32`; the unit of the beaconer
lies in `(0, 2]` and never shrinks. What the witnesses share in all, the count times the
unit, is the count up to four witnesses and `3 + 0.8 ^ (n - 4)` above: it drops from 4 to
3.8 at the fifth witness (`witness_units_drop_past_redundancy`).
-/
namespace HeliumOracles.IotVerifier

open HeliumOracles.Lib.Decimal

/-- What the results assume of the crate's `checked_powu`: the decay rate raised to any
exponent is returned, within `10⁻²⁰` of its exact power. -/
def PowuAccurate (powu : ℚ → ℕ → Option ℚ) : Prop :=
  ∀ k, ∃ decay, powu pocRewardDecayRate k = some decay ∧
    |decay - pocRewardDecayRate ^ k| ≤ 1 / 10 ^ 20

/-- Exact powers: one `checked_powu` that keeps the contract. -/
def exactPowu (base : ℚ) (k : ℕ) : Option ℚ := some (base ^ k)

theorem exactPowu_accurate : PowuAccurate exactPowu := fun k =>
  ⟨_, rfl, by rw [sub_self, abs_zero]; positivity⟩

/-! ## The branches of the two units -/

section Branches

variable {arith : Arith} {powu : ℚ → ℕ → Option ℚ}

theorem roundDp_scalingPrecision_one : roundDp scalingPrecision .midpointNearestEven 1 = 1 := by
  simpa using @roundDp_midpointNearestEven_natCast scalingPrecision 1

theorem pocPerWitnessRewardUnit_of_le {n : ℕ} (pos : 0 < n) (le : n ≤ witnessRedundancy) :
    pocPerWitnessRewardUnit arith powu n = some 1 := by
  unfold pocPerWitnessRewardUnit
  rw [if_neg pos.ne', if_pos le]
  simp [roundDp_scalingPrecision_one]

theorem pocPerWitnessRewardUnit_of_gt {n : ℕ} (gt : witnessRedundancy < n) {decay : ℚ}
    (decayed : powu pocRewardDecayRate (n - witnessRedundancy) = some decay) :
    pocPerWitnessRewardUnit arith powu n = some (roundDp scalingPrecision .midpointNearestEven
      (min hip15TxRewardUnitCap (arith.div ((witnessRedundancy : ℚ) - (1 - decay)) n))) := by
  unfold pocPerWitnessRewardUnit
  rw [if_neg (by omega), if_neg (by omega), decayed]
  rfl

/-- Up to four witnesses the unit of the beaconer is the exact quarter: the `f32` quotient
of two small counts is exact, and a quarter has two places. -/
theorem pocBeaconerRewardUnit_of_le {n : ℕ} (pos : 0 < n) (le : n ≤ witnessRedundancy) :
    pocBeaconerRewardUnit powu n = some ((n : ℚ) / witnessRedundancy) := by
  have grid := @roundDp_midpointNearestEven_grid scalingPrecision (2500 * n)
  have quarters : (((2500 * n : ℤ)) : ℚ) / 10 ^ scalingPrecision = (n : ℚ) / witnessRedundancy := by
    push_cast
    norm_num [scalingPrecision, witnessRedundancy]
    ring
  rw [quarters] at grid
  unfold pocBeaconerRewardUnit
  rw [if_neg pos.ne', if_pos le]
  simp [grid]

theorem pocBeaconerRewardUnit_of_gt {n : ℕ} (gt : witnessRedundancy < n) {decay : ℚ}
    (decayed : powu pocRewardDecayRate (n - witnessRedundancy) = some decay) :
    pocBeaconerRewardUnit powu n = some (roundDp scalingPrecision .midpointNearestEven
      (min hip15TxRewardUnitCap (2 - decay))) := by
  unfold pocBeaconerRewardUnit
  rw [if_neg (by omega), if_neg (by omega), decayed]
  rfl

end Branches

/-! ## The decay and the quotient of a witness -/

section Decay

variable {arith : Arith} {powu : ℚ → ℕ → Option ℚ}

theorem decayRate_pow_mem (k : ℕ) : 0 ≤ pocRewardDecayRate ^ k ∧ pocRewardDecayRate ^ k ≤ 1 :=
  ⟨pow_nonneg (by norm_num [pocRewardDecayRate]) k,
    pow_le_one₀ (by norm_num [pocRewardDecayRate]) (by norm_num [pocRewardDecayRate])⟩

theorem decayRate_pow_succ (k : ℕ) :
    pocRewardDecayRate ^ (k + 1) = pocRewardDecayRate ^ k * (8 / 10) := by
  rw [pow_succ, pocRewardDecayRate]

/-- The decay past the first witness above four is at most the rate itself. -/
theorem decayRate_pow_le_rate {k : ℕ} (pos : 0 < k) : pocRewardDecayRate ^ k ≤ 8 / 10 := by
  exact pow_le_of_le_one (by norm_num [pocRewardDecayRate] : (0 : ℚ) ≤ pocRewardDecayRate)
    (by norm_num [pocRewardDecayRate]) pos.ne'

/-- A hundred witnesses past four take the decay below `10⁻⁹`. -/
theorem decayRate_pow_lt_of_ge {k : ℕ} (far : 100 ≤ k) : pocRewardDecayRate ^ k < 1 / 10 ^ 9 := by
  have le := pow_le_pow_of_le_one (by norm_num [pocRewardDecayRate] : (0 : ℚ) ≤ pocRewardDecayRate)
    (by norm_num [pocRewardDecayRate]) far
  refine lt_of_le_of_lt le ?_
  norm_num [pocRewardDecayRate]

/-- The decay returned for an exponent, within `10⁻²⁰` of its power. -/
theorem PowuAccurate.decay_mem (powuAccurate : PowuAccurate powu) (k : ℕ) :
    ∃ decay, powu pocRewardDecayRate k = some decay ∧
      pocRewardDecayRate ^ k - 1 / 10 ^ 20 ≤ decay ∧
        decay ≤ pocRewardDecayRate ^ k + 1 / 10 ^ 20 := by
  obtain ⟨decay, decayed, close⟩ := powuAccurate k
  obtain ⟨below, above⟩ := abs_sub_le_iff.mp close
  exact ⟨decay, decayed, by linarith, by linarith⟩

/-- The decays returned for two exponents one apart, the second power a fifth below the
first. -/
theorem PowuAccurate.decay_succ_mem (powuAccurate : PowuAccurate powu) {n : ℕ}
    (more : witnessRedundancy ≤ n) :
    ∃ decay decay', powu pocRewardDecayRate (n - witnessRedundancy) = some decay ∧
      powu pocRewardDecayRate (n + 1 - witnessRedundancy) = some decay' ∧
      pocRewardDecayRate ^ (n - witnessRedundancy) - 1 / 10 ^ 20 ≤ decay ∧
      decay ≤ pocRewardDecayRate ^ (n - witnessRedundancy) + 1 / 10 ^ 20 ∧
      pocRewardDecayRate ^ (n - witnessRedundancy) * (8 / 10) - 1 / 10 ^ 20 ≤ decay' ∧
      decay' ≤ pocRewardDecayRate ^ (n - witnessRedundancy) * (8 / 10) + 1 / 10 ^ 20 := by
  have exponent : n + 1 - witnessRedundancy = (n - witnessRedundancy) + 1 := by omega
  obtain ⟨decay, decayed, low, high⟩ := powuAccurate.decay_mem (n - witnessRedundancy)
  obtain ⟨decay', decayed', low', high'⟩ := powuAccurate.decay_mem (n + 1 - witnessRedundancy)
  rw [exponent, decayRate_pow_succ] at low' high'
  exact ⟨decay, decay', decayed, decayed', low, high, low', high'⟩

/-- Above four witnesses the crate's quotient lies within `2 · 10⁻²⁷` of the exact
`(3 + decay) / n`, which is at most `9 / 10`. -/
theorem perWitnessQuotient_near (accurate : arith.Accurate) {n : ℕ} (five : 5 ≤ n) {decay : ℚ}
    (low : -(1 / 10 ^ 20) ≤ decay) (high : decay ≤ 1 + 1 / 10 ^ 20) :
    |arith.div ((witnessRedundancy : ℚ) - (1 - decay)) n - (3 + decay) / n| ≤ 2 / 10 ^ 27 ∧
      0 ≤ (3 + decay) / n ∧ (3 + decay) / n ≤ 9 / 10 := by
  have fiveLe : (5 : ℚ) ≤ n := by exact_mod_cast five
  have nPos : (0 : ℚ) < n := by linarith
  have dividend : (witnessRedundancy : ℚ) - (1 - decay) = 3 + decay := by
    norm_num [witnessRedundancy]
    ring
  have quotientNonneg : 0 ≤ (3 + decay) / n := div_nonneg (by linarith) nPos.le
  have quotientLe : (3 + decay) / n ≤ 9 / 10 := by
    rw [div_le_iff₀ nPos]
    linarith
  have close := accurate.div ((witnessRedundancy : ℚ) - (1 - decay)) n nPos.ne'
    (by rw [dividend, abs_of_nonneg quotientNonneg]; linarith)
  unfold WithinPrecision at close
  rw [dividend, abs_of_nonneg quotientNonneg] at close
  rw [dividend]
  exact ⟨by linarith, quotientNonneg, quotientLe⟩

/-- One more witness lowers the exact quotient by more than the error of two quotients,
as long as the count is a `u32`. -/
theorem decayQuotient_gap {n decay decay' : ℚ} (five : 5 ≤ n) (fits : n + 1 < 2 ^ 32)
    (low : -(1 / 10 ^ 20) ≤ decay) (gap : decay' ≤ decay + 2 / 10 ^ 20) :
    (3 + decay') / (n + 1) + 4 / 10 ^ 27 ≤ (3 + decay) / n := by
  have nPos : 0 < n := by linarith
  have products : n * decay' ≤ n * decay + n * (2 / 10 ^ 20) := by
    rw [← mul_add]
    exact mul_le_mul_of_nonneg_left gap nPos.le
  have square : n * (n + 1) < 2 ^ 32 * 2 ^ 32 := mul_lt_mul'' (by linarith) fits nPos.le (by linarith)
  -- cleared of both divisors, the gap `3 + decay` outweighs the errors over a `u32` count
  have cleared : n * (3 + decay') + 4 / 10 ^ 27 * (n * (n + 1)) ≤ (n + 1) * (3 + decay) := by
    linarith
  have quotient : (3 + decay') / (n + 1) * (n + 1) = 3 + decay' := div_mul_cancel₀ _ (by linarith)
  have scaled : (n + 1) * (((3 + decay') / (n + 1) + 4 / 10 ^ 27) * n) ≤ (n + 1) * (3 + decay) :=
    calc (n + 1) * (((3 + decay') / (n + 1) + 4 / 10 ^ 27) * n)
        = n * ((3 + decay') / (n + 1) * (n + 1)) + 4 / 10 ^ 27 * (n * (n + 1)) := by ring
      _ = n * (3 + decay') + 4 / 10 ^ 27 * (n * (n + 1)) := by rw [quotient]
      _ ≤ (n + 1) * (3 + decay) := cleared
  rw [le_div_iff₀ nPos]
  exact le_of_mul_le_mul_left scaled (by linarith)

end Decay

/-! ## Bounds and monotonicity -/

section Units

variable {arith : Arith} {powu : ℚ → ℕ → Option ℚ}

theorem roundDp_scalingPrecision_two : roundDp scalingPrecision .midpointNearestEven 2 = 2 := by
  simpa using @roundDp_midpointNearestEven_natCast scalingPrecision 2

/-- A beaconer's unit whose decay is below `10⁻¹⁸` rounds to the cap. -/
theorem roundDp_two_sub_of_small {decay : ℚ} (high : decay ≤ 1 / 10 ^ 18) :
    roundDp scalingPrecision .midpointNearestEven (min hip15TxRewardUnitCap (2 - decay)) = 2 := by
  have atLeast : 2 - 1 / 10 ^ 18 ≤ min hip15TxRewardUnitCap (2 - decay) :=
    le_min (by norm_num [hip15TxRewardUnitCap]) (by linarith)
  have rounded := @roundDp_midpointNearestEven_of_mem scalingPrecision _ _ _
    (2 * 10 ^ scalingPrecision) ⟨atLeast, min_le_left _ _⟩
    (by norm_num [scalingPrecision]) (by norm_num [scalingPrecision, hip15TxRewardUnitCap])
  rw [rounded]
  norm_num [scalingPrecision]

/-- Above four witnesses the unit of a witness is its rounded quotient, which the cap of two
never reaches. -/
theorem perWitnessUnit_of_gt (accurate : arith.Accurate) {n : ℕ} (five : 5 ≤ n) {decay : ℚ}
    (decayed : powu pocRewardDecayRate (n - witnessRedundancy) = some decay)
    (low : -(1 / 10 ^ 20) ≤ decay) (high : decay ≤ 1 + 1 / 10 ^ 20) :
    ∃ quotient, pocPerWitnessRewardUnit arith powu n =
        some (roundDp scalingPrecision .midpointNearestEven quotient) ∧
      (3 + decay) / n - 2 / 10 ^ 27 ≤ quotient ∧ quotient ≤ (3 + decay) / n + 2 / 10 ^ 27 ∧
        0 ≤ (3 + decay) / n ∧ (3 + decay) / n ≤ 9 / 10 := by
  obtain ⟨close, nonneg, le⟩ := perWitnessQuotient_near accurate five low high
  obtain ⟨below, above⟩ := abs_sub_le_iff.mp close
  refine ⟨_, pocPerWitnessRewardUnit_of_gt (by unfold witnessRedundancy; omega) decayed, ?_⟩
  rw [min_eq_right (by unfold hip15TxRewardUnitCap; linarith)]
  exact ⟨by linarith, by linarith, nonneg, le⟩

/-- The unit of a witness is returned, lies in `[0, 1]`, is positive up to 59999 witnesses
and zero from 60001 on. -/
theorem pocPerWitnessRewardUnit_mem (accurate : arith.Accurate) (powuAccurate : PowuAccurate powu)
    {n : ℕ} (pos : 1 ≤ n) :
    ∃ witnessUnit, pocPerWitnessRewardUnit arith powu n = some witnessUnit ∧
      0 ≤ witnessUnit ∧ witnessUnit ≤ 1 ∧ (n ≤ 59999 → 0 < witnessUnit) ∧
        (60001 ≤ n → witnessUnit = 0) := by
  by_cases few : n ≤ witnessRedundancy
  · -- up to four witnesses each gets a whole unit
    refine ⟨1, pocPerWitnessRewardUnit_of_le pos few, zero_le_one, le_rfl, fun _ => one_pos, ?_⟩
    unfold witnessRedundancy at few
    omega
  have five : 5 ≤ n := by
    unfold witnessRedundancy at few
    omega
  obtain ⟨decay, decayed, low, high⟩ := powuAccurate.decay_mem (n - witnessRedundancy)
  obtain ⟨powNonneg, powLe⟩ := decayRate_pow_mem (n - witnessRedundancy)
  obtain ⟨quotient, unit, above, below, nonneg, le⟩ :=
    perWitnessUnit_of_gt accurate five decayed (by linarith) (by linarith)
  refine ⟨_, unit, roundDp_midpointNearestEven_nonneg ?_, roundDp_midpointNearestEven_le_one ?_,
    fun upTo => roundDp_midpointNearestEven_pos ?_, fun far => ?_⟩
  · norm_num [scalingPrecision]
    linarith
  · norm_num [scalingPrecision]
    linarith
  · -- up to 59999 witnesses the exact quotient is above half a unit of the last place
    have atLeast : (3 - 1 / 10 ^ 20) / 59999 ≤ (3 + decay) / n :=
      div_le_div₀ (by linarith) (by linarith) (by positivity) (by exact_mod_cast upTo)
    norm_num [scalingPrecision] at atLeast ⊢
    linarith
  · -- from 60001 witnesses the decay is negligible and the quotient below half a unit
    have tiny := decayRate_pow_lt_of_ge
      (by unfold witnessRedundancy; omega : 100 ≤ n - witnessRedundancy)
    have atMost : (3 + decay) / n ≤ (3 + 1 / 10 ^ 9 + 1 / 10 ^ 20) / 60001 :=
      div_le_div₀ (by positivity) (by linarith) (by norm_num) (by exact_mod_cast far)
    have rounded := @roundDp_midpointNearestEven_of_mem scalingPrecision quotient
      (-(2 / 10 ^ 27)) ((3 + 1 / 10 ^ 9 + 1 / 10 ^ 20) / 60001 + 2 / 10 ^ 27) 0
      ⟨by linarith, by linarith⟩ (by norm_num [scalingPrecision]) (by norm_num [scalingPrecision])
    simpa using rounded

/-- The unit of the beaconer is returned, lies in `(0, 2]`, and is at least one above four
witnesses. -/
theorem pocBeaconerRewardUnit_mem (powuAccurate : PowuAccurate powu) {n : ℕ} (pos : 1 ≤ n) :
    ∃ beaconerUnit, pocBeaconerRewardUnit powu n = some beaconerUnit ∧
      0 < beaconerUnit ∧ beaconerUnit ≤ 2 ∧ (witnessRedundancy < n → 1 ≤ beaconerUnit) := by
  by_cases few : n ≤ witnessRedundancy
  · -- up to four witnesses the beaconer gets a quarter for each
    have nPos : (0 : ℚ) < n := by exact_mod_cast pos
    have quarters : (n : ℚ) / witnessRedundancy ≤ 1 := by
      rw [div_le_one (by norm_num [witnessRedundancy])]
      exact_mod_cast few
    refine ⟨_, pocBeaconerRewardUnit_of_le pos few, by norm_num [witnessRedundancy]; linarith,
      by linarith, fun more => absurd more (not_lt.mpr few)⟩
  have decaysOnce : 0 < n - witnessRedundancy := by omega
  obtain ⟨decay, decayed, low, high⟩ := powuAccurate.decay_mem (n - witnessRedundancy)
  have powNonneg := (decayRate_pow_mem (n - witnessRedundancy)).1
  have powLe := decayRate_pow_le_rate decaysOnce
  -- the capped unit lies in `[1, 2]`, and one and two are their own roundings
  have atLeast : (1 : ℚ) ≤ min hip15TxRewardUnitCap (2 - decay) :=
    le_min (by norm_num [hip15TxRewardUnitCap]) (by linarith)
  have oneLe := @roundDp_midpointNearestEven_mono scalingPrecision _ _ atLeast
  have leTwo := @roundDp_midpointNearestEven_mono scalingPrecision _ _
    (min_le_left hip15TxRewardUnitCap (2 - decay))
  rw [roundDp_scalingPrecision_one] at oneLe
  rw [hip15TxRewardUnitCap, roundDp_scalingPrecision_two] at leTwo
  exact ⟨_, pocBeaconerRewardUnit_of_gt (not_le.mp few) decayed, by linarith, leTwo,
    fun _ => oneLe⟩

/-- One more witness never raises the unit of a witness, over the counts of a `u32`. -/
theorem pocPerWitnessRewardUnit_antitone (accurate : arith.Accurate)
    (powuAccurate : PowuAccurate powu) {n : ℕ} (pos : 1 ≤ n) (fits : n + 1 < 2 ^ 32) :
    ∃ witnessUnit witnessUnit', pocPerWitnessRewardUnit arith powu n = some witnessUnit ∧
      pocPerWitnessRewardUnit arith powu (n + 1) = some witnessUnit' ∧
        witnessUnit' ≤ witnessUnit := by
  by_cases few : n + 1 ≤ witnessRedundancy
  · -- both counts get a whole unit
    exact ⟨1, 1, pocPerWitnessRewardUnit_of_le pos (by omega),
      pocPerWitnessRewardUnit_of_le (by omega) few, le_rfl⟩
  by_cases redundant : n = witnessRedundancy
  · -- the fifth witness gets at most the whole unit of the fourth
    obtain ⟨witnessUnit', unit', -, atMost, -⟩ :=
      pocPerWitnessRewardUnit_mem accurate powuAccurate (by omega : 1 ≤ n + 1)
    exact ⟨1, witnessUnit', pocPerWitnessRewardUnit_of_le pos redundant.le, unit', atMost⟩
  have five : 5 ≤ n := by
    unfold witnessRedundancy at few redundant
    omega
  obtain ⟨decay, decay', decayed, decayed', low, high, low', high'⟩ :=
    powuAccurate.decay_succ_mem (n := n) (by omega)
  obtain ⟨powNonneg, powLe⟩ := decayRate_pow_mem (n - witnessRedundancy)
  obtain ⟨quotient, unit, above, -, -, -⟩ :=
    perWitnessUnit_of_gt accurate five decayed (by linarith) (by linarith)
  obtain ⟨quotient', unit', -, below', -, -⟩ :=
    perWitnessUnit_of_gt accurate (by omega) decayed' (by linarith) (by linarith)
  have gap := decayQuotient_gap (n := (n : ℚ)) (by exact_mod_cast five) (by exact_mod_cast fits)
    (by linarith) (by linarith : decay' ≤ decay + 2 / 10 ^ 20)
  push_cast at below'
  exact ⟨_, _, unit, unit', roundDp_midpointNearestEven_mono (by linarith)⟩

/-- One more witness never lowers the unit of the beaconer. -/
theorem pocBeaconerRewardUnit_monotone (powuAccurate : PowuAccurate powu) {n : ℕ} (pos : 1 ≤ n) :
    ∃ beaconerUnit beaconerUnit', pocBeaconerRewardUnit powu n = some beaconerUnit ∧
      pocBeaconerRewardUnit powu (n + 1) = some beaconerUnit' ∧
        beaconerUnit ≤ beaconerUnit' := by
  by_cases few : n + 1 ≤ witnessRedundancy
  · -- a quarter more for the extra witness
    refine ⟨_, _, pocBeaconerRewardUnit_of_le pos (by omega),
      pocBeaconerRewardUnit_of_le (by omega) few, ?_⟩
    gcongr
    exact_mod_cast Nat.le_succ n
  by_cases redundant : n = witnessRedundancy
  · -- four witnesses give the beaconer one unit, five at least one
    obtain ⟨beaconerUnit', unit', -, -, atLeast⟩ :=
      pocBeaconerRewardUnit_mem powuAccurate (by omega : 1 ≤ n + 1)
    refine ⟨_, beaconerUnit', pocBeaconerRewardUnit_of_le pos redundant.le, unit', ?_⟩
    rw [redundant, div_self (by norm_num [witnessRedundancy])]
    exact atLeast (by omega)
  have more : witnessRedundancy < n := by omega
  obtain ⟨decay, decay', decayed, decayed', low, high, low', high'⟩ :=
    powuAccurate.decay_succ_mem more.le
  have powNonneg := (decayRate_pow_mem (n - witnessRedundancy)).1
  refine ⟨_, _, pocBeaconerRewardUnit_of_gt more decayed,
    pocBeaconerRewardUnit_of_gt (by omega) decayed', ?_⟩
  by_cases large : 1 / 10 ^ 19 ≤ pocRewardDecayRate ^ (n - witnessRedundancy)
  · -- the decay shrinks by a fifth, more than the error of two powers
    exact roundDp_midpointNearestEven_mono (min_le_min_left _ (by linarith))
  · -- both decays are negligible, and both units round to the cap
    rw [roundDp_two_sub_of_small (by linarith), roundDp_two_sub_of_small (by linarith)]

/-- The beaconer's unit over every count, and the witness's over the counts of a `u32`. -/
theorem reward_units_within_bounds {arith : Arith} (accurate : arith.Accurate)
    {powu : ℚ → ℕ → Option ℚ} (powuAccurate : PowuAccurate powu) :
    (∀ n, 1 ≤ n → ∃ witnessUnit beaconerUnit,
      pocPerWitnessRewardUnit arith powu n = some witnessUnit ∧
      pocBeaconerRewardUnit powu n = some beaconerUnit ∧
      0 ≤ witnessUnit ∧ witnessUnit ≤ 1 ∧ (n ≤ 59999 → 0 < witnessUnit) ∧
      (60001 ≤ n → witnessUnit = 0) ∧ 0 < beaconerUnit ∧ beaconerUnit ≤ 2) ∧
    ∀ n, 1 ≤ n → n + 1 < 2 ^ 32 → ∃ witnessUnit witnessUnit' beaconerUnit beaconerUnit',
      pocPerWitnessRewardUnit arith powu n = some witnessUnit ∧
      pocPerWitnessRewardUnit arith powu (n + 1) = some witnessUnit' ∧
      pocBeaconerRewardUnit powu n = some beaconerUnit ∧
      pocBeaconerRewardUnit powu (n + 1) = some beaconerUnit' ∧
      witnessUnit' ≤ witnessUnit ∧ beaconerUnit ≤ beaconerUnit' := by
  refine ⟨fun n pos => ?_, fun n pos fits => ?_⟩
  · obtain ⟨witnessUnit, unit, nonneg, le, positive, vanishes⟩ :=
      pocPerWitnessRewardUnit_mem accurate powuAccurate pos
    obtain ⟨beaconerUnit, beaconer, beaconerPos, beaconerLe, -⟩ :=
      pocBeaconerRewardUnit_mem powuAccurate pos
    exact ⟨witnessUnit, beaconerUnit, unit, beaconer, nonneg, le, positive, vanishes,
      beaconerPos, beaconerLe⟩
  · obtain ⟨witnessUnit, witnessUnit', unit, unit', fewer⟩ :=
      pocPerWitnessRewardUnit_antitone accurate powuAccurate pos fits
    obtain ⟨beaconerUnit, beaconerUnit', beaconer, beaconer', more⟩ :=
      pocBeaconerRewardUnit_monotone powuAccurate pos
    exact ⟨witnessUnit, witnessUnit', beaconerUnit, beaconerUnit', unit, unit', beaconer, beaconer',
      fewer, more⟩

theorem exact_reward_units_within_bounds :
    (∀ n, 1 ≤ n → ∃ witnessUnit beaconerUnit,
      pocPerWitnessRewardUnit Arith.exact exactPowu n = some witnessUnit ∧
      pocBeaconerRewardUnit exactPowu n = some beaconerUnit ∧
      0 ≤ witnessUnit ∧ witnessUnit ≤ 1 ∧ (n ≤ 59999 → 0 < witnessUnit) ∧
      (60001 ≤ n → witnessUnit = 0) ∧ 0 < beaconerUnit ∧ beaconerUnit ≤ 2) ∧
    ∀ n, 1 ≤ n → n + 1 < 2 ^ 32 → ∃ witnessUnit witnessUnit' beaconerUnit beaconerUnit',
      pocPerWitnessRewardUnit Arith.exact exactPowu n = some witnessUnit ∧
      pocPerWitnessRewardUnit Arith.exact exactPowu (n + 1) = some witnessUnit' ∧
      pocBeaconerRewardUnit exactPowu n = some beaconerUnit ∧
      pocBeaconerRewardUnit exactPowu (n + 1) = some beaconerUnit' ∧
      witnessUnit' ≤ witnessUnit ∧ beaconerUnit ≤ beaconerUnit' :=
  reward_units_within_bounds Arith.exact_accurate exactPowu_accurate

/-- With exact quotients and powers: four witnesses share four units and five share 3.8,
and each of 60001 witnesses gets nothing. -/
theorem witness_units_drop_past_redundancy :
    pocPerWitnessRewardUnit Arith.exact exactPowu 4 = some 1 ∧
      pocPerWitnessRewardUnit Arith.exact exactPowu 5 = some (19 / 25) ∧
      (5 : ℚ) * (19 / 25) < 4 * 1 ∧
      pocPerWitnessRewardUnit Arith.exact exactPowu 60001 = some 0 := by
  refine ⟨pocPerWitnessRewardUnit_of_le (by decide) (by decide), ?_, by norm_num, ?_⟩
  · rw [pocPerWitnessRewardUnit_of_gt (by decide) rfl]
    have grid := @roundDp_midpointNearestEven_grid scalingPrecision 7600
    norm_num [scalingPrecision] at grid
    norm_num [Arith.exact, witnessRedundancy, pocRewardDecayRate, hip15TxRewardUnitCap,
      scalingPrecision, grid]
  · obtain ⟨witnessUnit, unit, -, -, -, vanishes⟩ :=
      pocPerWitnessRewardUnit_mem Arith.exact_accurate exactPowu_accurate (n := 60001) (by norm_num)
    rw [unit, vanishes le_rfl]

end Units

end HeliumOracles.IotVerifier

import HeliumOracles.MobileVerifier.CoveragePoints
import HeliumOracles.MobileVerifier.TransferRewards

/-!
# The PoC and data transfer rewards of an epoch

Source: mobile_verifier/src/reward_shares.rs (`RadioPoints::points`,
`HotspotPoints::total_points`, `CoveragePoints::total_shares`, `into_rewards`,
`radio_points_into_rewards`, `new_radio_reward`, `get_scheduled_tokens_for_poc`) and
mobile_verifier/src/rewarder.rs (`reward_poc_and_dc`, `reward_poc`, `reward_dc`).

`reward_poc_and_dc` writes the data transfer rewards first; what their whole bones leave of
the scaled total goes back to the PoC pool, `get_scheduled_tokens_for_poc` less
`reward_sum()` plus that remainder. The pool is shared out over the coverage points by a
per-share value, `checked_div` of the pool by the total shares, and what the radio rewards
leave of it is written, in whole bones, as the unallocated PoC reward.

The coverage points are `aggregate_points`'s (CoveragePoints); the speed test averages
that `reward_poc` writes to their own sink, and the reward period of the proto envelopes,
are left out. The `u64` sums of the written amounts wrap as in the release build.
-/
namespace HeliumOracles.MobileVerifier

open HeliumOracles.Lib.Decimal HeliumOracles.Lib.Word Lib.AssocMap

/-- `proto::RadioReward`, with the fields `new_radio_reward` sets. -/
structure RadioReward where
  hotspotKey : ℕ
  cbsdId : Option ℕ
  pocReward : ℕ
  coveragePoints : ℕ
  seniorityTimestamp : ℤ
  coverageObject : ℕ
  locationTrustScoreMultiplier : ℕ
  speedtestMultiplier : ℕ
  boostedHexes : List BoostedHex
  deriving DecidableEq, Repr

/-- What `reward_poc_and_dc` writes to the mobile rewards sink, in the order it writes it. -/
structure PocDcRewards where
  gatewayRewards : List GatewayReward
  radioRewards : List RadioReward
  unallocated : List MobileReward
  deriving DecidableEq, Repr

/-- The bones of everything written. -/
def PocDcRewards.amount (self : PocDcRewards) : ℕ :=
  (self.gatewayRewards.map GatewayReward.dcTransferReward).sum +
    (self.radioRewards.map RadioReward.pocReward).sum +
    (self.unallocated.map MobileReward.amount).sum

section Poc

variable (arith : Arith)

/-- `get_scheduled_tokens_for_poc`. -/
def getScheduledTokensForPoc (seconds : ℤ) : ℚ :=
  arith.mul (getTotalScheduledTokens arith seconds) (6 / 10)

/-- `RadioPoints::points` (the field of the same name is the radio's raw points): the
points weighted by the location trust score, never below zero. -/
def RadioPoints.weightedPoints (self : RadioPoints) : ℚ :=
  max (arith.mul self.locationTrustScoreMultiplier self.points) 0

/-- `HotspotPoints::total_points`. -/
def HotspotPoints.totalPoints (self : HotspotPoints) : ℚ :=
  arith.mul self.speedtestMultiplier
    (self.radioPoints.map fun radio => radio.2.weightedPoints arith).sum

/-- `CoveragePoints::total_shares`. -/
def CoveragePoints.totalShares (self : CoveragePoints) : ℚ :=
  (self.coveragePoints.map fun hotspot => hotspot.2.totalPoints arith).sum

/-- `new_radio_reward`: a radio's PoC reward beside the reward it goes out in. -/
def newRadioReward (cbsdId : Option ℕ) (hotspotKey : ℕ)
    (pocRewardsPerShare speedtestMultiplier : ℚ) (radioPoints : RadioPoints) :
    ℕ × RadioReward :=
  let pocReward := wholeBones (arith.mul (arith.mul (arith.mul pocRewardsPerShare
    speedtestMultiplier) radioPoints.locationTrustScoreMultiplier) radioPoints.points)
  let boostedHexes := radioPoints.boostedHexes.filter fun boostedHex => boostedHex.multiplier > 1
  (pocReward, ⟨hotspotKey, cbsdId, pocReward, (toU64 radioPoints.points).getD 0,
    radioPoints.seniority, radioPoints.coverageObject,
    (toU32 (arith.mul radioPoints.locationTrustScoreMultiplier 1000)).getD 0,
    (toU32 (arith.mul speedtestMultiplier 1000)).getD 0, boostedHexes⟩)

/-- `radio_points_into_rewards`. -/
def radioPointsIntoRewards (hotspotKey : ℕ) (pocRewardsPerShare speedtestMultiplier : ℚ)
    (radioPoints : Map (Option ℕ) RadioPoints) : List (ℕ × RadioReward) :=
  radioPoints.map fun radio =>
    newRadioReward arith radio.1 hotspotKey pocRewardsPerShare speedtestMultiplier radio.2

/-- `CoveragePoints::into_rewards`: none when `checked_div` cannot divide the pool by the
shares; zero rewards are dropped. -/
def CoveragePoints.intoRewards (self : CoveragePoints) (availablePocRewards : ℚ) :
    Option (List (ℕ × RadioReward)) :=
  (arith.checkedDiv availablePocRewards (self.totalShares arith)).map fun pocRewardsPerShare =>
    (self.coveragePoints.flatMap fun hotspot =>
      radioPointsIntoRewards arith hotspot.1 pocRewardsPerShare hotspot.2.speedtestMultiplier
        hotspot.2.radioPoints).filter
      fun reward => reward.1 > 0

/-- `reward_dc`: the gateway rewards written, and the unallocated DC amount handed to the
PoC pool. -/
def rewardDc (transferRewards : TransferRewards) : List GatewayReward × ℚ :=
  let totalDcRewards := transferRewards.total arith
  let shares := transferRewards.intoRewards arith
  let allocatedDcRewards := wrappingSum 64 (shares.map Prod.fst)
  (shares.map Prod.snd, totalDcRewards - allocatedDcRewards)

/-- `reward_poc` over the coverage points of the epoch: the radio rewards written, and the
unallocated PoC amount. -/
def rewardPoc (coveragePoints : CoveragePoints) (seconds : ℤ) (transferRewardSum : ℚ) :
    List RadioReward × ℚ :=
  let totalPocRewards := getScheduledTokensForPoc arith seconds - transferRewardSum
  match coveragePoints.intoRewards arith totalPocRewards with
  | some mobileRewardShares =>
    let allocatedPocRewards := wrappingSum 64 (mobileRewardShares.map Prod.fst)
    (mobileRewardShares.map Prod.snd, totalPocRewards - allocatedPocRewards)
  | none => ([], totalPocRewards)

/-- `reward_poc_and_dc` over an epoch of `seconds`. -/
def rewardPocAndDc (mobileBonePrice : ℚ) (transferSessions : HotspotMap)
    (coveragePoints : CoveragePoints) (seconds : ℤ) : PocDcRewards :=
  let transferRewards :=
    TransferRewards.fromTransferSessions arith mobileBonePrice transferSessions seconds
  let transferRewardsSum := transferRewards.rewardSum
  let dc := rewardDc arith transferRewards
  let poc := rewardPoc arith coveragePoints seconds (transferRewardsSum - dc.2)
  ⟨dc.1, poc.1, writeUnallocatedReward .poc (wholeBones poc.2)⟩

end Poc

/-! ## Coverage points within their bounds

The per-share value is the pool divided by the shares the crate computes, and each radio's
reward is that value multiplied back by its own multipliers and points. In exact arithmetic
the rewards would add up to the pool; here every product and the quotient carry the
crate's precision, so the rewards are bounded by the pool times a relative error, plus an
absolute error for each radio, against shares at least `10 ^ -3`. -/

/-- A radio whose location trust multiplier lies in `[0, 1]` and whose points lie in
`[0, 2 ^ 32]`. -/
def RadioPoints.Bounded (radio : RadioPoints) : Prop :=
  0 ≤ radio.locationTrustScoreMultiplier ∧ radio.locationTrustScoreMultiplier ≤ 1 ∧
    0 ≤ radio.points ∧ radio.points ≤ 2 ^ 32

/-- Coverage points whose speed test multipliers lie in `[0, 1]` and whose radios are
bounded. -/
structure CoveragePoints.Bounded (coverage : CoveragePoints) : Prop where
  speedtest : ∀ hotspot ∈ coverage.coveragePoints,
    0 ≤ hotspot.2.speedtestMultiplier ∧ hotspot.2.speedtestMultiplier ≤ 1
  radios : ∀ hotspot ∈ coverage.coveragePoints, ∀ radio ∈ hotspot.2.radioPoints,
    radio.2.Bounded

/-- A radio's shares in exact arithmetic, before the speed test multiplier. -/
def RadioPoints.exactShares (radio : RadioPoints) : ℚ :=
  radio.locationTrustScoreMultiplier * radio.points

/-- A hotspot's shares in exact arithmetic. -/
def HotspotPoints.exactShares (self : HotspotPoints) : ℚ :=
  self.speedtestMultiplier * (self.radioPoints.map fun radio => radio.2.exactShares).sum

/-- The shares of all hotspots in exact arithmetic. -/
def CoveragePoints.exactShares (self : CoveragePoints) : ℚ :=
  (self.coveragePoints.map fun hotspot => hotspot.2.exactShares).sum

/-- The number of radios of all hotspots. -/
def CoveragePoints.radioCount (self : CoveragePoints) : ℕ :=
  (self.coveragePoints.map fun hotspot => hotspot.2.radioPoints.length).sum

theorem CoveragePoints.Bounded.tail {hotspot : ℕ × HotspotPoints} {rest : Map ℕ HotspotPoints}
    (bounded : CoveragePoints.Bounded ⟨hotspot :: rest⟩) : CoveragePoints.Bounded ⟨rest⟩ :=
  ⟨fun other mem => bounded.speedtest other (.tail _ mem),
    fun other mem => bounded.radios other (.tail _ mem)⟩

section Shares

variable {arith : Arith}

theorem RadioPoints.exactShares_mem {radio : RadioPoints} (bounded : radio.Bounded) :
    0 ≤ radio.exactShares ∧ radio.exactShares ≤ 2 ^ 32 := by
  obtain ⟨trustNonneg, trustLe, pointsNonneg, pointsLe⟩ := bounded
  have atMost : radio.exactShares ≤ radio.points :=
    mul_le_of_le_one_left pointsNonneg trustLe
  exact ⟨mul_nonneg trustNonneg pointsNonneg, atMost.trans pointsLe⟩

/-- A bounded radio's weighted points are its exact shares, up to the precision, and never
negative. -/
theorem RadioPoints.weightedPoints_mem (accurate : arith.Accurate) {radio : RadioPoints}
    (bounded : radio.Bounded) :
    0 ≤ radio.weightedPoints arith ∧
      radio.exactShares * (1 - 1 / 10 ^ 27) - 1 / 10 ^ 28 ≤ radio.weightedPoints arith ∧
      radio.weightedPoints arith ≤ radio.exactShares * (1 + 1 / 10 ^ 27) + 1 / 10 ^ 28 := by
  obtain ⟨sharesNonneg, sharesLe⟩ := RadioPoints.exactShares_mem bounded
  obtain ⟨trustNonneg, -, pointsNonneg, -⟩ := bounded
  obtain ⟨low, high⟩ := accurate.mul_mem
    (Set.left_mem_Icc.mpr (le_refl radio.locationTrustScoreMultiplier)) trustNonneg
    pointsNonneg (by unfold RadioPoints.exactShares at sharesLe; linarith)
  have upperNonneg : 0 ≤ radio.exactShares * (1 + 1 / 10 ^ 27) + 1 / 10 ^ 28 := by positivity
  unfold RadioPoints.weightedPoints
  exact ⟨le_max_right _ _, low.trans (le_max_left _ _), max_le high upperNonneg⟩

/-- The weighted points of a hotspot's bounded radios add up to their exact shares, up to a
relative `10 ^ -27` and `10 ^ -28` for each radio. -/
theorem sum_weightedPoints_mem (accurate : arith.Accurate) :
    ∀ radios : Map (Option ℕ) RadioPoints, (∀ radio ∈ radios, radio.2.Bounded) →
      0 ≤ (radios.map fun radio => radio.2.weightedPoints arith).sum ∧
      (radios.map fun radio => radio.2.exactShares).sum * (1 - 1 / 10 ^ 27) -
          radios.length / 10 ^ 28 ≤ (radios.map fun radio => radio.2.weightedPoints arith).sum ∧
      (radios.map fun radio => radio.2.weightedPoints arith).sum ≤
        (radios.map fun radio => radio.2.exactShares).sum * (1 + 1 / 10 ^ 27) +
          radios.length / 10 ^ 28
  | [], _ => by simp
  | radio :: rest, bounded => by
    obtain ⟨restNonneg, restLow, restHigh⟩ :=
      sum_weightedPoints_mem accurate rest fun other mem => bounded other (.tail _ mem)
    obtain ⟨headNonneg, headLow, headHigh⟩ :=
      RadioPoints.weightedPoints_mem accurate (bounded radio (.head _))
    simp only [List.map_cons, List.sum_cons, List.length_cons, Nat.cast_add, Nat.cast_one]
    refine ⟨by linarith, by linarith, by linarith⟩

theorem sum_exactShares_mem {radios : Map (Option ℕ) RadioPoints}
    (bounded : ∀ radio ∈ radios, radio.2.Bounded) :
    0 ≤ (radios.map fun radio => radio.2.exactShares).sum ∧
      (radios.map fun radio => radio.2.exactShares).sum ≤ radios.length * 2 ^ 32 := by
  have each : ∀ share ∈ radios.map fun radio => radio.2.exactShares, 0 ≤ share ∧ share ≤ 2 ^ 32 := by
    simp only [List.mem_map]
    rintro _ ⟨radio, mem, rfl⟩
    exact RadioPoints.exactShares_mem (bounded radio mem)
  have atMost := List.sum_le_card_nsmul _ (2 ^ 32 : ℚ) fun share mem => (each share mem).2
  rw [List.length_map, nsmul_eq_mul] at atMost
  exact ⟨List.sum_nonneg fun share mem => (each share mem).1, atMost⟩

/-- Bounded coverage points hold at most `2 ^ 32` exact shares for each radio. -/
theorem CoveragePoints.exactShares_mem :
    ∀ hotspots : Map ℕ HotspotPoints, CoveragePoints.Bounded ⟨hotspots⟩ →
      0 ≤ CoveragePoints.exactShares ⟨hotspots⟩ ∧
        CoveragePoints.exactShares ⟨hotspots⟩ ≤ CoveragePoints.radioCount ⟨hotspots⟩ * 2 ^ 32
  | [], _ => by simp [CoveragePoints.exactShares, CoveragePoints.radioCount]
  | hotspot :: rest, bounded => by
    obtain ⟨restNonneg, restLe⟩ := CoveragePoints.exactShares_mem rest bounded.tail
    obtain ⟨speedNonneg, speedLe⟩ := bounded.speedtest hotspot (.head _)
    obtain ⟨radiosNonneg, radiosLe⟩ := sum_exactShares_mem (bounded.radios hotspot (.head _))
    have scaledDown := mul_le_of_le_one_left radiosNonneg speedLe
    have scaledNonneg := mul_nonneg speedNonneg radiosNonneg
    simp only [CoveragePoints.exactShares, CoveragePoints.radioCount, HotspotPoints.exactShares,
      List.map_cons, List.sum_cons, Nat.cast_add] at restNonneg restLe ⊢
    constructor <;> linarith

/-- A hotspot's total points are its exact shares, up to a relative `3 * 10 ^ -27`, and
`10 ^ -28` for the hotspot and two for each radio. -/
theorem HotspotPoints.totalPoints_mem (accurate : arith.Accurate) {hotspot : HotspotPoints}
    (speedtest : 0 ≤ hotspot.speedtestMultiplier ∧ hotspot.speedtestMultiplier ≤ 1)
    (radios : ∀ radio ∈ hotspot.radioPoints, radio.2.Bounded)
    (count : hotspot.radioPoints.length ≤ 2 ^ 32) :
    hotspot.exactShares * (1 - 2 / 10 ^ 27) - (hotspot.radioPoints.length + 1) / 10 ^ 28 ≤
        hotspot.totalPoints arith ∧
      hotspot.totalPoints arith ≤ hotspot.exactShares * (1 + 3 / 10 ^ 27) +
        (2 * hotspot.radioPoints.length + 1) / 10 ^ 28 := by
  obtain ⟨speedNonneg, speedLe⟩ := speedtest
  obtain ⟨pointsNonneg, pointsLow, pointsHigh⟩ := sum_weightedPoints_mem accurate _ radios
  obtain ⟨exactNonneg, exactLe⟩ := sum_exactShares_mem radios
  have countLe : (hotspot.radioPoints.length : ℚ) ≤ 2 ^ 32 := by exact_mod_cast count
  unfold HotspotPoints.totalPoints HotspotPoints.exactShares
  generalize (hotspot.radioPoints.map fun radio => radio.2.weightedPoints arith).sum = points
    at pointsNonneg pointsLow pointsHigh ⊢
  generalize (hotspot.radioPoints.map fun radio => radio.2.exactShares).sum = exact
    at exactNonneg exactLe pointsLow pointsHigh ⊢
  generalize (hotspot.radioPoints.length : ℚ) = count at countLe exactLe pointsLow pointsHigh ⊢
  generalize hotspot.speedtestMultiplier = speed at speedNonneg speedLe ⊢
  have scaledDown : speed * points ≤ points := mul_le_of_le_one_left pointsNonneg speedLe
  obtain ⟨low, high⟩ := accurate.mul_mem (Set.left_mem_Icc.mpr (le_refl speed)) speedNonneg
    pointsNonneg (by linarith)
  -- the speed test multiplier scales the radios' error, and never enlarges it
  have scaledLow : speed * (exact * (1 - 1 / 10 ^ 27) - count / 10 ^ 28) ≤ speed * points :=
    mul_le_mul_of_nonneg_left pointsLow speedNonneg
  have scaledHigh : speed * points ≤ speed * (exact * (1 + 1 / 10 ^ 27) + count / 10 ^ 28) :=
    mul_le_mul_of_nonneg_left pointsHigh speedNonneg
  have countScaled : speed * count ≤ count :=
    mul_le_of_le_one_left (by linarith [exactNonneg]) speedLe
  have exactScaled : 0 ≤ speed * exact := mul_nonneg speedNonneg exactNonneg
  constructor <;> linarith

/-- The total shares of bounded coverage points are their exact shares, up to a relative
`3 * 10 ^ -27`, and `10 ^ -28` for each hotspot and two for each radio. -/
theorem sum_totalPoints_mem (accurate : arith.Accurate) :
    ∀ hotspots : Map ℕ HotspotPoints, CoveragePoints.Bounded ⟨hotspots⟩ →
      (∀ hotspot ∈ hotspots, hotspot.2.radioPoints.length ≤ 2 ^ 32) →
      (hotspots.map fun hotspot => hotspot.2.exactShares).sum * (1 - 2 / 10 ^ 27) -
          ((hotspots.map fun hotspot => hotspot.2.radioPoints.length).sum + hotspots.length) /
            10 ^ 28 ≤ (hotspots.map fun hotspot => hotspot.2.totalPoints arith).sum ∧
        (hotspots.map fun hotspot => hotspot.2.totalPoints arith).sum ≤
          (hotspots.map fun hotspot => hotspot.2.exactShares).sum * (1 + 3 / 10 ^ 27) +
            (2 * (hotspots.map fun hotspot => hotspot.2.radioPoints.length).sum +
              hotspots.length) / 10 ^ 28
  | [], _, _ => by simp
  | hotspot :: rest, bounded, count => by
    obtain ⟨restLow, restHigh⟩ := sum_totalPoints_mem accurate rest bounded.tail
      fun other mem => count other (.tail _ mem)
    obtain ⟨headLow, headHigh⟩ := HotspotPoints.totalPoints_mem accurate
      (bounded.speedtest hotspot (.head _)) (bounded.radios hotspot (.head _))
      (count hotspot (.head _))
    simp only [List.map_cons, List.sum_cons, List.length_cons, Nat.cast_add, Nat.cast_one]
    constructor <;> linarith

/-- The total shares of bounded coverage points with at most `2 ^ 32` radios are their exact
shares, up to a relative `3 * 10 ^ -27`, and `10 ^ -28` for each hotspot and two for each
radio. -/
theorem CoveragePoints.totalShares_mem (accurate : arith.Accurate) {coverage : CoveragePoints}
    (bounded : coverage.Bounded) (count : coverage.radioCount ≤ 2 ^ 32) :
    coverage.exactShares * (1 - 2 / 10 ^ 27) -
          (coverage.radioCount + coverage.coveragePoints.length) / 10 ^ 28 ≤
        coverage.totalShares arith ∧
      coverage.totalShares arith ≤ coverage.exactShares * (1 + 3 / 10 ^ 27) +
        (2 * coverage.radioCount + coverage.coveragePoints.length) / 10 ^ 28 :=
  sum_totalPoints_mem accurate coverage.coveragePoints bounded fun _ mem =>
    (List.le_sum_of_mem (List.mem_map_of_mem mem)).trans count

/-- A radio's reward is at most its exact shares at a per-share value `u`, up to a relative
`4 * 10 ^ -27` and `2 ^ 34 * 10 ^ -28`, when the per-share value the crate divided is at most
`u` in size: the three products each keep the precision, and the whole bones round down. -/
theorem newRadioReward_le (accurate : arith.Accurate) {u pocRewardsPerShare : ℚ}
    {speedtestMultiplier : ℚ} {radioPoints : RadioPoints} (bounded : radioPoints.Bounded)
    (speedtest : 0 ≤ speedtestMultiplier ∧ speedtestMultiplier ≤ 1)
    (perShare : |pocRewardsPerShare| ≤ u) (small : u ≤ 2 ^ 60) (cbsdId : Option ℕ)
    (hotspotKey : ℕ) :
    ((newRadioReward arith cbsdId hotspotKey pocRewardsPerShare speedtestMultiplier
        radioPoints).1 : ℚ) ≤
      u * (speedtestMultiplier * radioPoints.exactShares) * (1 + 4 / 10 ^ 27) +
        2 ^ 34 / 10 ^ 28 := by
  obtain ⟨trustNonneg, trustLe, pointsNonneg, pointsLe⟩ := bounded
  obtain ⟨speedNonneg, speedLe⟩ := speedtest
  have uNonneg : 0 ≤ u := (abs_nonneg _).trans perShare
  have speedAbs : |speedtestMultiplier| ≤ 1 := abs_le.mpr ⟨by linarith, speedLe⟩
  have trustAbs : |radioPoints.locationTrustScoreMultiplier| ≤ 1 :=
    abs_le.mpr ⟨by linarith, trustLe⟩
  have pointsAbs : |radioPoints.points| ≤ 2 ^ 32 := abs_le.mpr ⟨by linarith, pointsLe⟩
  -- the three products in the crate's order, each bounded above and in size
  have first := accurate.mul_le_of_le ((le_abs_self _).trans perShare) uNonneg speedNonneg
    ((abs_mul_le_of_abs_le perShare speedAbs).trans_lt (by linarith))
  have firstAbs := accurate.abs_mul_le perShare speedAbs (by linarith)
  set perSpeed := arith.mul pocRewardsPerShare speedtestMultiplier
  have second := accurate.mul_le_of_le first (by positivity) trustNonneg
    ((abs_mul_le_of_abs_le firstAbs trustAbs).trans_lt (by linarith))
  have secondAbs := accurate.abs_mul_le firstAbs trustAbs (by linarith)
  set perTrust := arith.mul perSpeed radioPoints.locationTrustScoreMultiplier
  have third := accurate.mul_le_of_le second (by positivity) pointsNonneg
    ((abs_mul_le_of_abs_le secondAbs pointsAbs).trans_lt (by linarith))
  have sharesNonneg : 0 ≤ u * (speedtestMultiplier * radioPoints.exactShares) :=
    mul_nonneg uNonneg (mul_nonneg speedNonneg (mul_nonneg trustNonneg pointsNonneg))
  have trustPoints : radioPoints.locationTrustScoreMultiplier * radioPoints.points ≤ 2 ^ 32 :=
    (mul_le_of_le_one_left pointsNonneg trustLe).trans pointsLe
  have trustPointsNonneg : 0 ≤ radioPoints.locationTrustScoreMultiplier * radioPoints.points :=
    mul_nonneg trustNonneg pointsNonneg
  unfold RadioPoints.exactShares at sharesNonneg
  unfold newRadioReward RadioPoints.exactShares
  by_cases positive : 0 < wholeBones (arith.mul perTrust radioPoints.points)
  · have whole := wholeBones_le_of_pos positive
    dsimp only
    linarith
  · rw [Nat.not_lt, Nat.le_zero] at positive
    dsimp only
    rw [positive, Nat.cast_zero]
    positivity

/-- The rewards of a hotspot's bounded radios, against their exact shares. -/
theorem sum_radioPointsIntoRewards_le (accurate : arith.Accurate)
    {u pocRewardsPerShare speedtestMultiplier : ℚ}
    (speedtest : 0 ≤ speedtestMultiplier ∧ speedtestMultiplier ≤ 1)
    (perShare : |pocRewardsPerShare| ≤ u) (small : u ≤ 2 ^ 60) (hotspotKey : ℕ) :
    ∀ radios : Map (Option ℕ) RadioPoints, (∀ radio ∈ radios, radio.2.Bounded) →
      ((radioPointsIntoRewards arith hotspotKey pocRewardsPerShare speedtestMultiplier
          radios).map fun reward => (reward.1 : ℚ)).sum ≤
        u * (speedtestMultiplier * (radios.map fun radio => radio.2.exactShares).sum) *
            (1 + 4 / 10 ^ 27) + radios.length * 2 ^ 34 / 10 ^ 28
  | [], _ => by simp [radioPointsIntoRewards]
  | radio :: rest, bounded => by
    have head := newRadioReward_le accurate (bounded radio (.head _)) speedtest perShare small
      radio.1 hotspotKey
    have restLe := sum_radioPointsIntoRewards_le accurate speedtest perShare small hotspotKey
      rest fun other mem => bounded other (.tail _ mem)
    simp only [radioPointsIntoRewards, List.map_cons, List.sum_cons, List.length_cons,
      Nat.cast_add, Nat.cast_one] at restLe ⊢
    linarith

/-- The rewards of all radios of bounded coverage points, against their exact shares. -/
theorem sum_hotspotRewards_le (accurate : arith.Accurate) {u pocRewardsPerShare : ℚ}
    (perShare : |pocRewardsPerShare| ≤ u) (small : u ≤ 2 ^ 60) :
    ∀ hotspots : Map ℕ HotspotPoints, CoveragePoints.Bounded ⟨hotspots⟩ →
      ((hotspots.flatMap fun hotspot =>
          radioPointsIntoRewards arith hotspot.1 pocRewardsPerShare hotspot.2.speedtestMultiplier
            hotspot.2.radioPoints).map fun reward => (reward.1 : ℚ)).sum ≤
        u * CoveragePoints.exactShares ⟨hotspots⟩ * (1 + 4 / 10 ^ 27) +
          CoveragePoints.radioCount ⟨hotspots⟩ * 2 ^ 34 / 10 ^ 28
  | [], _ => by simp [CoveragePoints.exactShares, CoveragePoints.radioCount]
  | hotspot :: rest, bounded => by
    have head := sum_radioPointsIntoRewards_le accurate (bounded.speedtest hotspot (.head _))
      perShare small hotspot.1 hotspot.2.radioPoints (bounded.radios hotspot (.head _))
    have restLe := sum_hotspotRewards_le accurate perShare small rest bounded.tail
    simp only [CoveragePoints.exactShares, CoveragePoints.radioCount, HotspotPoints.exactShares,
      List.flatMap_cons, List.map_append, List.sum_append, List.map_cons, List.sum_cons,
      Nat.cast_add] at restLe ⊢
    linarith

/-- Shares within `2 ^ 22 * 10 ^ -28` of zero leave a pool of `10 ^ 13` bones or more past
what a Decimal holds once divided by them, and `checked_div` refuses it. -/
theorem checkedDiv_eq_none_of_abs_le {available shares : ℚ}
    (availableLow : 10 ^ 13 ≤ available) (tiny : |shares| ≤ 2 ^ 22 / 10 ^ 28) :
    arith.checkedDiv available shares = none := by
  unfold Arith.checkedDiv
  rw [if_pos]
  by_cases zero : shares = 0
  · exact .inl zero
  right
  -- the pool is the quotient times the shares, so a small quotient would make it small
  have undone : |available / shares| * |shares| = available := by
    rw [← abs_mul, div_mul_cancel₀ _ zero, abs_of_nonneg (by linarith)]
  by_contra! fits
  have bounded : |available / shares| * |shares| ≤ 2 ^ 96 * (2 ^ 22 / 10 ^ 28) :=
    mul_le_mul fits.le tiny (abs_nonneg _) (by norm_num)
  norm_num at bounded
  linarith

/-- Over bounded coverage points with at most `2 ^ 20` hotspots and radios, whose exact shares
are zero or at least `10 ^ -3`, the radio rewards of a pool of `10 ^ 13` to `2 ^ 50` bones add
up to at most the pool and a fifth of a bone: no shares leave the division refused, and
otherwise the per-share value overshoots the pool by the relative errors of the shares and the
products only. -/
theorem CoveragePoints.intoRewards_sum_le (accurate : arith.Accurate) {coverage : CoveragePoints}
    (bounded : coverage.Bounded) (radioCount : coverage.radioCount ≤ 2 ^ 20)
    (hotspotCount : coverage.coveragePoints.length ≤ 2 ^ 20)
    (shares : coverage.exactShares = 0 ∨ 1 / 10 ^ 3 ≤ coverage.exactShares)
    {available : ℚ} (availableLow : 10 ^ 13 ≤ available) (availableHigh : available ≤ 2 ^ 50)
    {rewards : List (ℕ × RadioReward)} (divided : coverage.intoRewards arith available = some rewards) :
    ((rewards.map Prod.fst).sum : ℚ) ≤ available + 1 / 5 := by
  have radioCountLe : (coverage.radioCount : ℚ) ≤ 2 ^ 20 := by exact_mod_cast radioCount
  have hotspotCountLe : (coverage.coveragePoints.length : ℚ) ≤ 2 ^ 20 := by
    exact_mod_cast hotspotCount
  obtain ⟨totalLow, totalHigh⟩ :=
    CoveragePoints.totalShares_mem accurate bounded (radioCount.trans (by norm_num))
  obtain ⟨exactNonneg, exactLe⟩ :
      0 ≤ coverage.exactShares ∧ coverage.exactShares ≤ coverage.radioCount * 2 ^ 32 :=
    CoveragePoints.exactShares_mem coverage.coveragePoints bounded
  unfold CoveragePoints.intoRewards at divided
  obtain ⟨pocRewardsPerShare, perShareIs, rfl⟩ := Option.map_eq_some_iff.mp divided
  rcases shares with noShares | someShares
  · -- no exact shares: the crate's shares are within its absolute errors of zero
    have tiny : |coverage.totalShares arith| ≤ 2 ^ 22 / 10 ^ 28 := by
      rw [noShares] at totalLow totalHigh
      exact abs_le.mpr ⟨by linarith, by linarith⟩
    rw [checkedDiv_eq_none_of_abs_le availableLow tiny] at perShareIs
    cases perShareIs
  -- shares of `10 ^ -3` or more: the crate's shares are positive and the quotient fits
  set exact := coverage.exactShares
  set total := coverage.totalShares arith
  have totalPos : 0 < total := by linarith
  unfold Arith.checkedDiv at perShareIs
  split_ifs at perShareIs with refused
  rw [not_or, not_le] at refused
  cases perShareIs
  have quotientNonneg : 0 ≤ available / total := div_nonneg (by linarith) totalPos.le
  rw [abs_of_nonneg quotientNonneg] at refused
  obtain ⟨perShareLow, perShareHigh⟩ := accurate.div_mem
    (Set.left_mem_Icc.mpr (le_refl available)) (by linarith) totalPos refused.2
  -- the pool against the crate's shares: their absolute errors are a small part of the pool
  have poolScaled : available * exact ≤ 2 ^ 50 * exact :=
    mul_le_mul_of_nonneg_right availableHigh exactNonneg
  have poolCounted : available * (coverage.radioCount + coverage.coveragePoints.length) ≤
      2 ^ 50 * 2 ^ 21 :=
    mul_le_mul availableHigh (by linarith) (by positivity) (by norm_num)
  have sharesScaled := mul_le_mul_of_nonneg_left totalLow (by linarith : 0 ≤ available + 1 / 10)
  have overShares : available * exact ≤ (available + 1 / 10) * total := by linarith
  have ratio : available / total * exact ≤ available + 1 / 10 := by
    rw [div_mul_eq_mul_div, div_le_iff₀ totalPos]
    exact overShares
  have quotientLe : available / total ≤ (2 ^ 50 + 1) * 10 ^ 3 := by
    have := mul_le_mul_of_nonneg_left someShares quotientNonneg
    linarith
  have summed : ((coverage.coveragePoints.flatMap fun hotspot =>
      radioPointsIntoRewards arith hotspot.1 (arith.div available total)
        hotspot.2.speedtestMultiplier hotspot.2.radioPoints).map fun reward => (reward.1 : ℚ)).sum ≤
      (available / total * (1 + 1 / 10 ^ 27) + 1 / 10 ^ 28) * exact * (1 + 4 / 10 ^ 27) +
        coverage.radioCount * 2 ^ 34 / 10 ^ 28 :=
    sum_hotspotRewards_le accurate (abs_le.mpr ⟨by linarith, perShareHigh⟩) (by linarith)
      coverage.coveragePoints bounded
  rw [sum_filter_pos, Nat.cast_list_sum, List.map_map, Function.comp_def]
  linarith

end Shares

/-! ## The pools of a day -/

section Day

variable {arith : Arith}

/-- Every amount `into_rewards` pairs with a radio reward is that reward's own amount. -/
theorem CoveragePoints.intoRewards_fst {coverage : CoveragePoints} {available : ℚ}
    {rewards : List (ℕ × RadioReward)} (divided : coverage.intoRewards arith available = some rewards) :
    rewards.map Prod.fst = rewards.map fun reward => reward.2.pocReward := by
  obtain ⟨pocRewardsPerShare, -, rfl⟩ := Option.map_eq_some_iff.mp divided
  apply List.map_congr_left
  intro reward mem
  obtain ⟨hotspot, -, fromHotspot⟩ := List.mem_flatMap.mp (List.mem_filter.mp mem).1
  obtain ⟨radio, -, rfl⟩ := List.mem_map.mp fromHotspot
  rfl

/-- Over bounded coverage points, `reward_poc` writes a PoC pool of `10 ^ 13` to `2 ^ 50`
bones, less than four fifths of a bone past a whole number, as that whole number: what the
radio rewards leave goes out as the unallocated amount. -/
theorem rewardPoc_amount (accurate : arith.Accurate) {coverage : CoveragePoints}
    (bounded : coverage.Bounded) (radioCount : coverage.radioCount ≤ 2 ^ 20)
    (hotspotCount : coverage.coveragePoints.length ≤ 2 ^ 20)
    (shares : coverage.exactShares = 0 ∨ 1 / 10 ^ 3 ≤ coverage.exactShares)
    {seconds : ℤ} {transferRewardSum : ℚ} (whole : ℕ)
    (availableLow : 10 ^ 13 ≤ getScheduledTokensForPoc arith seconds - transferRewardSum)
    (availableHigh : getScheduledTokensForPoc arith seconds - transferRewardSum ≤ 2 ^ 50)
    (wholeLe : whole ≤ getScheduledTokensForPoc arith seconds - transferRewardSum)
    (nearWhole : getScheduledTokensForPoc arith seconds - transferRewardSum < whole + 4 / 5) :
    ((rewardPoc arith coverage seconds transferRewardSum).1.map RadioReward.pocReward).sum +
        wholeBones (rewardPoc arith coverage seconds transferRewardSum).2 = whole ∧
      ((rewardPoc arith coverage seconds transferRewardSum).1.map RadioReward.pocReward).sum ≤
        whole := by
  have wholeFits : whole < 2 ^ 64 := by
    have below : (whole : ℚ) < 2 ^ 64 := by linarith
    exact_mod_cast below
  unfold rewardPoc
  generalize getScheduledTokensForPoc arith seconds - transferRewardSum = available
    at availableLow availableHigh wholeLe nearWhole ⊢
  cases divided : coverage.intoRewards arith available with
  | none =>
    -- no shares to divide by: the whole pool is unallocated
    have unallocated : wholeBones available = whole :=
      toU64_roundDp_toZero_of_mem whole wholeFits wholeLe (by linarith)
    simp [divided, unallocated]
  | some rewards =>
    have summed := CoveragePoints.intoRewards_sum_le accurate bounded radioCount hotspotCount
      shares availableLow availableHigh divided
    -- the radio rewards are whole bones within a fifth of a bone past the pool
    have rewardsLe : (rewards.map Prod.fst).sum ≤ whole := by
      have below : ((rewards.map Prod.fst).sum : ℚ) < whole + 1 := by linarith
      exact Nat.le_of_lt_succ (by exact_mod_cast below)
    have allocated : wrappingSum 64 (rewards.map Prod.fst) = (rewards.map Prod.fst).sum :=
      wrappingSum_of_lt (lt_of_le_of_lt rewardsLe wholeFits)
    have radioSum : ((rewards.map Prod.snd).map RadioReward.pocReward).sum =
        (rewards.map Prod.fst).sum := by
      rw [List.map_map, CoveragePoints.intoRewards_fst divided]
      rfl
    have unallocated : wholeBones (available - (rewards.map Prod.fst).sum) =
        whole - (rewards.map Prod.fst).sum := by
      have castSub := Nat.cast_sub (R := ℚ) rewardsLe
      exact toU64_roundDp_toZero_of_mem _ (by omega) (by rw [castSub]; linarith)
        (by rw [castSub]; linarith)
    simp only [divided, allocated, radioSum, unallocated]
    omega

theorem getScheduledTokensForPoc_day_mem (accurate : arith.Accurate) :
    getScheduledTokensForPoc arith 86400 ∈ Set.Icc 49180327868852.44 49180327868852.47 :=
  Set.Icc_subset_Icc (by norm_num) (by norm_num)
    (accurate.mul_mem (getTotalScheduledTokens_day_mem accurate) (by norm_num) (by norm_num)
      (by norm_num))

/-- What `reward_poc_and_dc` writes: the gateway rewards, then the radio rewards and the
unallocated PoC amount of the pool the transfer rewards leave. -/
theorem rewardPocAndDc_amount (mobileBonePrice : ℚ) (transferSessions : HotspotMap)
    (coveragePoints : CoveragePoints) (seconds : ℤ) :
    let transferRewards :=
      TransferRewards.fromTransferSessions arith mobileBonePrice transferSessions seconds
    let poc := rewardPoc arith coveragePoints seconds
      (transferRewards.rewardSum - (rewardDc arith transferRewards).2)
    (rewardPocAndDc arith mobileBonePrice transferSessions coveragePoints seconds).amount =
      ((transferRewards.intoRewards arith).map fun reward => reward.2.dcTransferReward).sum +
        ((poc.1.map RadioReward.pocReward).sum + wholeBones poc.2) := by
  intro transferRewards poc
  simp only [rewardPocAndDc, PocDcRewards.amount, rewardDc, writeUnallocatedReward_amount_sum,
    List.map_map]
  rw [Nat.add_assoc]
  rfl

end Day

/-- One hotspot at full speed with one fully trusted radio of `400` points. -/
def oneRadioCoverage : CoveragePoints := ⟨[(0, ⟨1, [(none, ⟨1, 0, 0, 400, []⟩)]⟩)]⟩

/-- Over an epoch of `2 ^ 35` seconds with no data transfer and no coverage, the PoC pool,
about `1.96e19` bones, is past `u64`: `to_u64` refuses it, and nothing is written. -/
theorem poc_pool_dropped_of_accurate (arith : Arith) (accurate : arith.Accurate) :
    2 ^ 64 ≤ getScheduledTokensForPoc arith (2 ^ 35) ∧
      (rewardPocAndDc arith (1 / 10 ^ 6) [] ⟨[]⟩ (2 ^ 35)).amount = 0 := by
  have total : getTotalScheduledTokens arith (2 ^ 35) ∈
      Set.Icc 32500000000000000000 33000000000000000000 :=
    Set.Icc_subset_Icc (by norm_num) (by norm_num)
      (accurate.mul_mem (scheduledTokensPerSecond_mem accurate) (by norm_num) (by norm_num)
        (by norm_num))
  have pool : getScheduledTokensForPoc arith (2 ^ 35) ∈
      Set.Icc 19400000000000000000 19900000000000000000 :=
    Set.Icc_subset_Icc (by norm_num) (by norm_num)
      (accurate.mul_mem total (by norm_num) (by norm_num) (by norm_num))
  -- no bones: the ratio to the emissions is zero up to the precision, so the scale is one
  have unscaled : rewardScaleFor arith 0 (getTotalScheduledTokens arith (2 ^ 35)) = 1 := by
    obtain ⟨-, ratioHigh⟩ := accurate.div_mem (Set.left_mem_Icc.mpr (le_refl (0 : ℚ))) le_rfl
      (lt_of_lt_of_le (by norm_num) total.1) (by simp)
    rw [rewardScaleFor, if_neg]
    rw [maxDataTransferRewardsPercent, gt_iff_lt, not_lt]
    norm_num at ratioHigh ⊢
    linarith
  obtain ⟨-, sumHigh⟩ := accurate.mul_zero_mem 1
  have transferIs : TransferRewards.fromTransferSessions arith (1 / 10 ^ 6) [] (2 ^ 35) =
      ⟨1, [], arith.mul 0 1, 1 / 10 ^ 6⟩ := by
    simp only [TransferRewards.fromTransferSessions, List.map_nil, List.sum_nil, unscaled]
  have poolLost : wholeBones (getScheduledTokensForPoc arith (2 ^ 35) - arith.mul 0 1) = 0 :=
    toU64_roundDp_toZero_of_ge (by linarith [pool.1])
  -- no gateway rewards, no shares to divide the pool by, and the pool itself is lost
  have noShares : (⟨[]⟩ : CoveragePoints).intoRewards arith
      (getScheduledTokensForPoc arith (2 ^ 35) - arith.mul 0 1) = none := by
    simp [CoveragePoints.intoRewards, CoveragePoints.totalShares, Arith.checkedDiv]
  refine ⟨by linarith [pool.1], ?_⟩
  simp only [rewardPocAndDc, transferIs, rewardDc, rewardPoc, TransferRewards.total,
    TransferRewards.intoRewards, List.map_nil, List.sum_nil, List.filter_nil, wrappingSum,
    List.foldl_nil, Nat.cast_zero, sub_zero, noShares, poolLost]
  rfl

/-- The tables of a reward run with no heartbeats. -/
def emptyCoverageTables : CoverageTables := ⟨[], [], []⟩

end HeliumOracles.MobileVerifier

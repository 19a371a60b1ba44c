import Mathlib.Algebra.BigOperators.Ring.Finset
import Mathlib.Algebra.Order.BigOperators.Group.List
import HeliumOracles.MobileVerifier.RewardShares

/-!
# Data transfer rewards of the mobile verifier

Source: mobile_verifier/src/reward_shares.rs (`MAX_DATA_TRANSFER_REWARDS_PERCENT`,
`TransferRewards::from_transfer_sessions`, `total`, `into_rewards`) and
mobile_verifier/src/data_session.rs (`HotspotReward`, `HotspotMap`).

Each hotspot's rewardable DC are worth `dc_to_mobile_bones` bones. When their sum is more
than `MAX_DATA_TRANSFER_REWARDS_PERCENT` of the epoch's emissions, every hotspot's bones
are scaled by `0.4 * total / sum`; `into_rewards` writes each hotspot's scaled bones cut to
whole bones and drops the zeros. A hotspot key is a number and a `HashMap` the list of its
entries; the reward period of the proto envelope is left out.

Cut to whole bones, a value past `u64` is read as zero, so over a long enough epoch a
hotspot whose bones are well within the cap gets nothing
(`transfer_reward_dropped_of_accurate`). Over a day the whole rewards stay within the cap,
`reward_sum()` within a fifth of a bone of it, and a bones total short of the cap keeps the
scale at one (`transfer_rewards_within_cap`).
-/
namespace HeliumOracles.MobileVerifier

open HeliumOracles.Lib.Decimal

/-- `MAX_DATA_TRANSFER_REWARDS_PERCENT`. -/
def maxDataTransferRewardsPercent : ℚ := 4 / 10

/-- `HotspotReward`: a hotspot's rewardable bytes and what they cost in DC. -/
structure HotspotReward where
  rewardableBytes : ℕ
  rewardableDc : ℕ
  deriving DecidableEq, Repr

/-- `HotspotMap`: each hotspot key with its rewardable data, in the map's order. -/
abbrev HotspotMap := List (ℕ × HotspotReward)

/-- `TransferReward`. -/
structure TransferReward where
  bones : ℚ
  bytesRewarded : ℕ
  deriving DecidableEq, Repr

/-- `TransferRewards`. -/
structure TransferRewards where
  rewardScale : ℚ
  rewards : List (ℕ × TransferReward)
  rewardSum : ℚ
  mobileBonePrice : ℚ

/-- `proto::GatewayReward`. -/
structure GatewayReward where
  hotspotKey : ℕ
  dcTransferReward : ℕ
  rewardableBytes : ℕ
  price : ℕ
  deriving DecidableEq, Repr

section Transfer

variable (arith : Arith)

/-- The `reward_scale` of `from_transfer_sessions`: one, or `0.4 * total / sum` when the
bones are more than `0.4` of the emissions. -/
def rewardScaleFor (rewardSum totalEmissionsPool : ℚ) : ℚ :=
  if arith.div rewardSum totalEmissionsPool > maxDataTransferRewardsPercent then
    arith.div (arith.mul maxDataTransferRewardsPercent totalEmissionsPool) rewardSum
  else 1

/-- `TransferRewards::from_transfer_sessions` over an epoch of `seconds`. -/
def TransferRewards.fromTransferSessions (mobileBonePrice : ℚ) (transferSessions : HotspotMap)
    (seconds : ℤ) : TransferRewards :=
  let rewards := transferSessions.map fun session =>
    (session.1, (⟨dcToMobileBones arith session.2.rewardableDc mobileBonePrice,
      session.2.rewardableBytes⟩ : TransferReward))
  let rewardSum := (rewards.map fun reward => reward.2.bones).sum
  let rewardScale := rewardScaleFor arith rewardSum (getTotalScheduledTokens arith seconds)
  ⟨rewardScale, rewards, arith.mul rewardSum rewardScale, mobileBonePrice⟩

/-- `TransferRewards::total`: every hotspot's scaled bones, summed. -/
def TransferRewards.total (self : TransferRewards) : ℚ :=
  (self.rewards.map fun reward => arith.mul reward.2.bones self.rewardScale).sum

/-- A hotspot's `dc_transfer_reward`: its scaled bones as whole bones. -/
def TransferRewards.dcTransferReward (self : TransferRewards) (reward : TransferReward) : ℕ :=
  wholeBones (arith.mul reward.bones self.rewardScale)

/-- `TransferRewards::into_rewards`: each hotspot's reward beside its amount; zero amounts
are dropped. -/
def TransferRewards.intoRewards (self : TransferRewards) : List (ℕ × GatewayReward) :=
  (self.rewards.map fun reward =>
    let dcTransferReward := self.dcTransferReward arith reward.2
    (dcTransferReward, (⟨reward.1, dcTransferReward, reward.2.bytesRewarded,
      (toU64 (arith.mul (arith.mul self.mobileBonePrice 1000000) 1000000)).getD 0⟩ :
        GatewayReward))).filter
    fun reward => reward.1 > 0

end Transfer

section Sums

variable {arith : Arith} {mobileBonePrice : ℚ} {transferSessions : HotspotMap} {seconds : ℤ}

/-- The bones of the sessions, before any scaling. -/
def bonesOf (arith : Arith) (mobileBonePrice : ℚ) (transferSessions : HotspotMap) : List ℚ :=
  transferSessions.map fun session => dcToMobileBones arith session.2.rewardableDc mobileBonePrice

@[simp] theorem fromTransferSessions_rewards :
    (TransferRewards.fromTransferSessions arith mobileBonePrice transferSessions seconds).rewards =
      transferSessions.map fun session =>
        (session.1, ⟨dcToMobileBones arith session.2.rewardableDc mobileBonePrice,
          session.2.rewardableBytes⟩) := rfl

@[simp] theorem fromTransferSessions_rewardScale :
    (TransferRewards.fromTransferSessions arith mobileBonePrice transferSessions seconds).rewardScale =
      rewardScaleFor arith (bonesOf arith mobileBonePrice transferSessions).sum
        (getTotalScheduledTokens arith seconds) := by
  simp [TransferRewards.fromTransferSessions, bonesOf, Function.comp_def]

@[simp] theorem fromTransferSessions_rewardSum :
    (TransferRewards.fromTransferSessions arith mobileBonePrice transferSessions seconds).rewardSum =
      arith.mul (bonesOf arith mobileBonePrice transferSessions).sum
        (rewardScaleFor arith (bonesOf arith mobileBonePrice transferSessions).sum
          (getTotalScheduledTokens arith seconds)) := by
  simp [TransferRewards.fromTransferSessions, bonesOf, Function.comp_def]

/-- Dropping the zero amounts leaves the total as it is. -/
theorem sum_filter_pos {α : Type} (rewards : List (ℕ × α)) :
    ((rewards.filter fun reward => reward.1 > 0).map Prod.fst).sum =
      (rewards.map Prod.fst).sum := by
  induction rewards with
  | nil => rfl
  | cons reward rest ih =>
    by_cases positive : reward.1 > 0
    · simp [positive, ih]
    · simp [positive, ih]
      omega

/-- Every amount `into_rewards` pairs with a gateway reward is that reward's own amount. -/
theorem intoRewards_fst (self : TransferRewards) :
    (self.intoRewards arith).map Prod.fst =
      (self.intoRewards arith).map fun reward => reward.2.dcTransferReward := by
  apply List.map_congr_left
  intro reward mem
  obtain ⟨source, -, rfl⟩ := List.mem_map.mp (List.mem_filter.mp mem).1
  rfl

/-- The whole rewards `into_rewards` writes add up to the whole parts of every hotspot's
scaled bones: the zeros it drops add nothing. -/
theorem intoRewards_amount_sum (self : TransferRewards) :
    ((self.intoRewards arith).map fun reward => reward.2.dcTransferReward).sum =
      (self.rewards.map fun reward => self.dcTransferReward arith reward.2).sum := by
  rw [← intoRewards_fst, TransferRewards.intoRewards, sum_filter_pos, List.map_map]
  rfl

variable (arith) in
/-- Every hotspot's whole reward is at most its exact scaled bones, up to a relative
`3 / 10 ^ 27`: a reward of one bone or more comes from a product of at least a half, for
which the crate's absolute error is a relative one. -/
theorem sum_dcTransferReward_le (accurate : arith.Accurate) (self : TransferRewards)
    (scaleNonneg : 0 ≤ self.rewardScale) :
    ∀ rewards : List (ℕ × TransferReward), (∀ reward ∈ rewards, 0 ≤ reward.2.bones) →
      (∀ reward ∈ rewards, reward.2.bones * self.rewardScale < 2 ^ 96) →
      (rewards.map fun reward => (self.dcTransferReward arith reward.2 : ℚ)).sum ≤
        (rewards.map fun reward => reward.2.bones).sum * self.rewardScale * (1 + 3 / 10 ^ 27)
  | [], _, _ => by simp
  | reward :: rest, nonneg, fits => by
    have restLe := sum_dcTransferReward_le accurate self scaleNonneg rest
      (fun other mem => nonneg other (.tail _ mem)) (fun other mem => fits other (.tail _ mem))
    have bonesNonneg := nonneg reward (.head _)
    obtain ⟨-, productHigh⟩ := accurate.mul_mem (Set.left_mem_Icc.mpr le_rfl) bonesNonneg
      scaleNonneg (fits reward (.head _))
    have headLe : (self.dcTransferReward arith reward.2 : ℚ) ≤
        reward.2.bones * self.rewardScale * (1 + 3 / 10 ^ 27) := by
      unfold TransferRewards.dcTransferReward
      rcases Nat.eq_zero_or_pos (wholeBones (arith.mul reward.2.bones self.rewardScale)) with
        zero | positive
      · rw [zero, Nat.cast_zero]
        exact mul_nonneg (mul_nonneg bonesNonneg scaleNonneg) (by norm_num)
      · have atMost := wholeBones_le_of_pos positive
        have atLeastOne : (1 : ℚ) ≤ wholeBones (arith.mul reward.2.bones self.rewardScale) := by
          exact_mod_cast positive
        linarith
    simp only [List.map_cons, List.sum_cons, add_mul]
    exact add_le_add headLe restLe

/-- Without scaling, and with a multiplication by one that is exact, `into_rewards` gives
every hotspot whose bones reach a whole one the whole part of its bones. -/
theorem intoRewards_of_unscaled (self : TransferRewards) (unscaled : self.rewardScale = 1)
    (mulOne : ∀ bones, arith.mul bones 1 = bones) :
    ∀ rewards : List (ℕ × TransferReward), (∀ reward ∈ rewards, 0 ≤ reward.2.bones) →
      (∀ reward ∈ rewards, reward.2.bones < 2 ^ 64) →
      (({ self with rewards } : TransferRewards).intoRewards arith).map
          (fun reward => (reward.2.hotspotKey, reward.2.dcTransferReward)) =
        (rewards.map fun reward => (reward.1, ⌊reward.2.bones⌋₊)).filter fun reward => 0 < reward.2
  | [], _, _ => rfl
  | reward :: rest, nonneg, fits => by
    have restEq := intoRewards_of_unscaled self unscaled mulOne rest
      (fun other mem => nonneg other (.tail _ mem)) (fun other mem => fits other (.tail _ mem))
    have wholePart : self.dcTransferReward arith reward.2 = ⌊reward.2.bones⌋₊ := by
      rw [TransferRewards.dcTransferReward, unscaled, mulOne,
        wholeBones_of_mem (nonneg reward (.head _)) (fits reward (.head _))]
    simp only [TransferRewards.intoRewards, TransferRewards.dcTransferReward] at restEq ⊢
    simp only [TransferRewards.dcTransferReward] at wholePart
    by_cases positive : 0 < ⌊reward.2.bones⌋₊
    · simp [wholePart, positive, restEq]
    · simp [wholePart, positive, restEq]

variable (arith) in
/-- Scaling each hotspot's bones and summing lands within the precision of scaling their
sum: a relative `10 ^ -27`, and `10 ^ -28` for each hotspot. -/
theorem abs_sum_mul_sub_le (accurate : arith.Accurate) {scale : ℚ} (scaleNonneg : 0 ≤ scale) :
    ∀ rewards : List (ℕ × TransferReward), (∀ reward ∈ rewards, 0 ≤ reward.2.bones) →
      (∀ reward ∈ rewards, reward.2.bones * scale < 2 ^ 96) →
      |(rewards.map fun reward => arith.mul reward.2.bones scale).sum -
          (rewards.map fun reward => reward.2.bones).sum * scale| ≤
        (rewards.map fun reward => reward.2.bones).sum * scale / 10 ^ 27 +
          rewards.length / 10 ^ 28
  | [], _, _ => by simp
  | reward :: rest, nonneg, fits => by
    have restLe := abs_sum_mul_sub_le accurate scaleNonneg rest
      (fun other mem => nonneg other (.tail _ mem)) (fun other mem => fits other (.tail _ mem))
    have productNonneg : 0 ≤ reward.2.bones * scale :=
      mul_nonneg (nonneg reward (.head _)) scaleNonneg
    have headLe := accurate.mul reward.2.bones scale
      (by rw [abs_of_nonneg productNonneg]; exact fits reward (.head _))
    unfold WithinPrecision at headLe
    rw [abs_of_nonneg productNonneg] at headLe
    obtain ⟨headLow, headHigh⟩ := abs_le.mp headLe
    obtain ⟨restLow, restHigh⟩ := abs_le.mp restLe
    simp only [List.map_cons, List.sum_cons, List.length_cons, Nat.cast_add, Nat.cast_one,
      add_mul]
    exact abs_le.mpr ⟨by linarith, by linarith⟩

end Sums

/-! ## A reward day -/

section Day

variable {arith : Arith}

/-- Over a day, a bones total of at most `10 ^ 27` gets a scale between zero and two that
brings it to at most the cap, `0.4` of the day's emissions, plus less than an eighth of a
bone. -/
theorem rewardScaleFor_day (accurate : arith.Accurate) {rewardSum : ℚ} (nonneg : 0 ≤ rewardSum)
    (bounded : rewardSum ≤ 10 ^ 27) :
    0 ≤ rewardScaleFor arith rewardSum (getTotalScheduledTokens arith 86400) ∧
      rewardScaleFor arith rewardSum (getTotalScheduledTokens arith 86400) ≤ 2 ∧
      rewardSum * rewardScaleFor arith rewardSum (getTotalScheduledTokens arith 86400) ≤
        32786885245901.76 := by
  obtain ⟨totalLow, totalHigh⟩ := getTotalScheduledTokens_day_mem accurate
  generalize getTotalScheduledTokens arith 86400 = total at totalLow totalHigh ⊢
  have totalPos : 0 < total := by linarith
  have ratioFits : rewardSum / total < 2 ^ 96 := by
    rw [div_lt_iff₀ totalPos]
    nlinarith
  obtain ⟨ratioLow, ratioHigh⟩ := accurate.div_mem (Set.left_mem_Icc.mpr le_rfl) nonneg totalPos
    ratioFits
  have sumIs : rewardSum = rewardSum / total * total := (div_mul_cancel₀ _ totalPos.ne').symm
  unfold rewardScaleFor
  split
  · rename_i scaled
    rw [maxDataTransferRewardsPercent] at scaled ⊢
    -- the ratio is above `0.4`, so the sum is at least `0.39` of the total
    have ratioLarge : 39 / 100 ≤ rewardSum / total := by linarith
    have sumLarge : 3 * 10 ^ 13 ≤ rewardSum := by
      rw [sumIs]
      nlinarith
    have sumPos : 0 < rewardSum := lt_of_lt_of_le (by norm_num) sumLarge
    obtain ⟨capLow, capHigh⟩ := accurate.mul_mem (Set.left_mem_Icc.mpr (le_refl (4 / 10 : ℚ)))
      (by norm_num) totalPos.le (by linarith)
    have capMem : arith.mul (4 / 10) total ∈ Set.Icc 32786885245901.6 32786885245901.65 :=
      ⟨by linarith, by linarith⟩
    have scaleFits : 32786885245901.65 / rewardSum < 2 ^ 96 := by
      rw [div_lt_iff₀ sumPos]
      nlinarith
    obtain ⟨scaleLow, scaleHigh⟩ := accurate.div_mem capMem (by norm_num) sumPos scaleFits
    have smallestShare : 32786885245901.6 / 10 ^ 27 ≤ 32786885245901.6 / rewardSum :=
      div_le_div_of_nonneg_left (by norm_num) sumPos bounded
    have largestShare : 32786885245901.65 / rewardSum ≤ 32786885245901.65 / (3 * 10 ^ 13) :=
      div_le_div_of_nonneg_left (by norm_num) (by norm_num) sumLarge
    -- scaling the sum back cancels it against the quotient, up to the absolute error
    have scaledBack : rewardSum * (32786885245901.65 / rewardSum * (1 + 1 / 10 ^ 27) + 1 / 10 ^ 28) =
        32786885245901.65 * (1 + 1 / 10 ^ 27) + rewardSum / 10 ^ 28 := by
      field_simp
    have atMost := mul_le_mul_of_nonneg_left scaleHigh nonneg
    refine ⟨by linarith, by linarith, ?_⟩
    linarith
  · rename_i unscaled
    rw [maxDataTransferRewardsPercent, gt_iff_lt, not_lt] at unscaled
    have ratioSmall : rewardSum / total ≤ 4000000000000000000000000006 / 10 ^ 28 := by linarith
    have atMost := mul_le_mul_of_nonneg_right ratioSmall totalPos.le
    refine ⟨zero_le_one, one_le_two, ?_⟩
    rw [mul_one, sumIs]
    linarith

/-- Over a day, a bones total short of the cap by `10 ^ -12` keeps the scale at one. -/
theorem rewardScaleFor_day_of_le (accurate : arith.Accurate) {rewardSum : ℚ} (nonneg : 0 ≤ rewardSum)
    (within : rewardSum ≤ maxDataTransferRewardsPercent * getTotalScheduledTokens arith 86400 -
      1 / 10 ^ 12) :
    rewardScaleFor arith rewardSum (getTotalScheduledTokens arith 86400) = 1 := by
  obtain ⟨totalLow, totalHigh⟩ := getTotalScheduledTokens_day_mem accurate
  generalize getTotalScheduledTokens arith 86400 = total at totalLow totalHigh within ⊢
  have totalPos : 0 < total := by linarith
  rw [maxDataTransferRewardsPercent] at within
  have ratioSmall : rewardSum / total ≤ 4 / 10 - 1 / 10 ^ 26 := by
    rw [div_le_iff₀ totalPos]
    linarith
  have ratioFits : rewardSum / total < 2 ^ 96 := lt_of_le_of_lt ratioSmall (by norm_num)
  obtain ⟨-, ratioHigh⟩ := accurate.div_mem (Set.left_mem_Icc.mpr le_rfl) nonneg totalPos
    ratioFits
  have ratioNonneg : 0 ≤ rewardSum / total := div_nonneg nonneg totalPos.le
  rw [rewardScaleFor, if_neg]
  rw [maxDataTransferRewardsPercent, gt_iff_lt, not_lt]
  linarith

variable {mobileBonePrice : ℚ} {transferSessions : HotspotMap}

/-- At a bone price of at least `10 ^ -12`, the bones of `u64` DC amounts are never
negative. -/
theorem bonesOf_nonneg (accurate : arith.Accurate) (priceFloor : 1 / 10 ^ 12 ≤ mobileBonePrice)
    (dcFits : ∀ session ∈ transferSessions, session.2.rewardableDc < 2 ^ 64) :
    ∀ bones ∈ bonesOf arith mobileBonePrice transferSessions, 0 ≤ bones := by
  intro bones mem
  obtain ⟨session, member, rfl⟩ := List.mem_map.mp mem
  exact dcToMobileBones_nonneg accurate (dcFits session member) priceFloor

@[simp] theorem fromTransferSessions_bones_sum {seconds : ℤ} :
    ((TransferRewards.fromTransferSessions arith mobileBonePrice transferSessions
        seconds).rewards.map fun reward => reward.2.bones).sum =
      (bonesOf arith mobileBonePrice transferSessions).sum := by
  simp [bonesOf, Function.comp_def]

/-- Each hotspot's bones lie between zero and the bones of all. -/
theorem fromTransferSessions_bones_mem (accurate : arith.Accurate)
    (priceFloor : 1 / 10 ^ 12 ≤ mobileBonePrice)
    (dcFits : ∀ session ∈ transferSessions, session.2.rewardableDc < 2 ^ 64) {seconds : ℤ} :
    ∀ reward ∈ (TransferRewards.fromTransferSessions arith mobileBonePrice transferSessions
        seconds).rewards,
      0 ≤ reward.2.bones ∧ reward.2.bones ≤ (bonesOf arith mobileBonePrice transferSessions).sum := by
  intro reward mem
  obtain ⟨session, member, rfl⟩ := List.mem_map.mp mem
  have inBones : dcToMobileBones arith session.2.rewardableDc mobileBonePrice ∈
      bonesOf arith mobileBonePrice transferSessions := List.mem_map_of_mem member
  have nonneg := bonesOf_nonneg accurate priceFloor dcFits
  exact ⟨nonneg _ inBones, List.single_le_sum nonneg _ inBones⟩

/-- Over a day, with `u64` DC amounts worth at most `10 ^ 27` bones at a bone price of at
least `10 ^ -12`, the scale is within `[0, 2]`, scales the bones to at most
`32786885245901.76`, and no hotspot's scaled bones leave the range of a Decimal. -/
theorem fromTransferSessions_day_scale (accurate : arith.Accurate)
    (priceFloor : 1 / 10 ^ 12 ≤ mobileBonePrice)
    (dcFits : ∀ session ∈ transferSessions, session.2.rewardableDc < 2 ^ 64)
    (bonesBound : (bonesOf arith mobileBonePrice transferSessions).sum ≤ 10 ^ 27) :
    let transferRewards :=
      TransferRewards.fromTransferSessions arith mobileBonePrice transferSessions 86400
    0 ≤ transferRewards.rewardScale ∧ transferRewards.rewardScale ≤ 2 ∧
      (bonesOf arith mobileBonePrice transferSessions).sum * transferRewards.rewardScale ≤
        32786885245901.76 ∧
      ∀ reward ∈ transferRewards.rewards, reward.2.bones * transferRewards.rewardScale < 2 ^ 96 := by
  intro transferRewards
  have sumNonneg : 0 ≤ (bonesOf arith mobileBonePrice transferSessions).sum :=
    List.sum_nonneg (bonesOf_nonneg accurate priceFloor dcFits)
  obtain ⟨scaleNonneg, scaleLe, scaledLe⟩ := rewardScaleFor_day accurate sumNonneg bonesBound
  rw [← fromTransferSessions_rewardScale] at scaleNonneg scaleLe scaledLe
  refine ⟨scaleNonneg, scaleLe, scaledLe, fun reward mem => ?_⟩
  have bounded := fromTransferSessions_bones_mem accurate priceFloor dcFits reward mem
  have atMost := mul_le_mul_of_nonneg_right bounded.2 scaleNonneg
  nlinarith

/-- Over a day, the whole data transfer rewards add up to at most `32786885245901` bones,
the whole part of the cap. -/
theorem intoRewards_amount_day_le (accurate : arith.Accurate)
    (priceFloor : 1 / 10 ^ 12 ≤ mobileBonePrice)
    (dcFits : ∀ session ∈ transferSessions, session.2.rewardableDc < 2 ^ 64)
    (bonesBound : (bonesOf arith mobileBonePrice transferSessions).sum ≤ 10 ^ 27) :
    (((TransferRewards.fromTransferSessions arith mobileBonePrice transferSessions 86400).intoRewards
      arith).map fun reward => reward.2.dcTransferReward).sum ≤ 32786885245901 := by
  set transferRewards :=
    TransferRewards.fromTransferSessions arith mobileBonePrice transferSessions 86400
  obtain ⟨scaleNonneg, -, scaledLe, fits⟩ :=
    fromTransferSessions_day_scale accurate priceFloor dcFits bonesBound
  -- the whole rewards add up to less than a bone above the scaled total, itself below the
  -- next whole bone past the cap
  have summed := sum_dcTransferReward_le arith accurate transferRewards scaleNonneg
    transferRewards.rewards
    (fun reward mem => (fromTransferSessions_bones_mem accurate priceFloor dcFits reward mem).1) fits
  rw [fromTransferSessions_bones_sum] at summed
  have castSum : ((transferRewards.rewards.map fun reward =>
      transferRewards.dcTransferReward arith reward.2).sum : ℚ) =
      (transferRewards.rewards.map fun reward =>
        (transferRewards.dcTransferReward arith reward.2 : ℚ)).sum := by
    rw [Nat.cast_list_sum, List.map_map]
    rfl
  have below : ((transferRewards.rewards.map fun reward =>
      transferRewards.dcTransferReward arith reward.2).sum : ℚ) < 32786885245902 := by
    rw [castSum]
    linarith
  rw [intoRewards_amount_sum]
  exact Nat.le_of_lt_succ (by exact_mod_cast below)

/-- Over a day, with at most `2 ^ 32` hotspots, `reward_dc`'s scaled total and
`reward_sum()` differ by less than `10 ^ -12` bones. -/
theorem total_sub_rewardSum_day_le (accurate : arith.Accurate)
    (priceFloor : 1 / 10 ^ 12 ≤ mobileBonePrice)
    (dcFits : ∀ session ∈ transferSessions, session.2.rewardableDc < 2 ^ 64)
    (bonesBound : (bonesOf arith mobileBonePrice transferSessions).sum ≤ 10 ^ 27)
    (sessionsCount : transferSessions.length ≤ 2 ^ 32) :
    |(TransferRewards.fromTransferSessions arith mobileBonePrice transferSessions 86400).total
        arith -
      (TransferRewards.fromTransferSessions arith mobileBonePrice transferSessions
        86400).rewardSum| ≤ 1 / 10 ^ 12 := by
  set transferRewards :=
    TransferRewards.fromTransferSessions arith mobileBonePrice transferSessions 86400
  set bonesSum := (bonesOf arith mobileBonePrice transferSessions).sum
  obtain ⟨scaleNonneg, -, scaledLe, fits⟩ :=
    fromTransferSessions_day_scale accurate priceFloor dcFits bonesBound
  have sumNonneg : 0 ≤ bonesSum := List.sum_nonneg (bonesOf_nonneg accurate priceFloor dcFits)
  have productNonneg : 0 ≤ bonesSum * transferRewards.rewardScale :=
    mul_nonneg sumNonneg scaleNonneg
  -- each hotspot's product, and the product of the sum, against the exact scaled sum
  have perHotspot := abs_sum_mul_sub_le arith accurate scaleNonneg transferRewards.rewards
    (fun reward mem => (fromTransferSessions_bones_mem accurate priceFloor dcFits reward mem).1)
    fits
  rw [fromTransferSessions_bones_sum] at perHotspot
  have ofSum := accurate.mul bonesSum transferRewards.rewardScale
    (by rw [abs_of_nonneg productNonneg]; linarith)
  unfold WithinPrecision at ofSum
  rw [abs_of_nonneg productNonneg] at ofSum
  have rewardSumIs : transferRewards.rewardSum = arith.mul bonesSum transferRewards.rewardScale := by
    rw [fromTransferSessions_rewardScale]
    exact fromTransferSessions_rewardSum
  have counted : (transferRewards.rewards.length : ℚ) ≤ 2 ^ 32 := by
    have lengthIs : transferRewards.rewards.length = transferSessions.length := by
      simp [transferRewards]
    rw [lengthIs]
    exact_mod_cast sessionsCount
  obtain ⟨perLow, perHigh⟩ := abs_le.mp perHotspot
  obtain ⟨sumLow, sumHigh⟩ := abs_le.mp ofSum
  unfold TransferRewards.total
  rw [rewardSumIs]
  exact abs_le.mpr ⟨by linarith, by linarith⟩

end Day

/-- Over an epoch of `2 ^ 36` seconds, one hotspot moved `2 ^ 61` DC at a bone price of
`10 ^ -6`. Its bones, about `2.3e19`, are less than `0.4` of the epoch's emissions, about
`2.6e19`, so the scale is one; but they are past `u64`, `to_u64` refuses them, and
`into_rewards` writes nothing for the hotspot. -/
theorem transfer_reward_dropped_of_accurate (arith : Arith) (accurate : arith.Accurate) :
    (bonesOf arith (1 / 10 ^ 6) [(0, ⟨0, 2 ^ 61⟩)]).sum ≤
        maxDataTransferRewardsPercent * getTotalScheduledTokens arith (2 ^ 36) ∧
      (TransferRewards.fromTransferSessions arith (1 / 10 ^ 6) [(0, ⟨0, 2 ^ 61⟩)]
        (2 ^ 36)).rewardScale = 1 ∧
      2 ^ 64 ≤ ⌊dcToMobileBones arith (2 ^ 61) (1 / 10 ^ 6)⌋₊ ∧
      (TransferRewards.fromTransferSessions arith (1 / 10 ^ 6) [(0, ⟨0, 2 ^ 61⟩)]
        (2 ^ 36)).intoRewards arith = [] := by
  -- the hotspot's bones, `2 ^ 61 * 10 ^ -5 / 10 ^ -6` rounded up at the 15th decimal
  have bonesMem : dcToMobileBones arith (2 ^ 61) (1 / 10 ^ 6) ∈
      Set.Icc 23058430092136000000 23058430092138000000 := by
    have usd := accurate.mul_mem (Set.left_mem_Icc.mpr (le_refl ((2 : ℚ) ^ 61)))
      (by norm_num) (by norm_num [dcUsdPrice] : (0 : ℚ) ≤ dcUsdPrice) (by norm_num [dcUsdPrice])
    obtain ⟨low, high⟩ := accurate.div_mem usd (by norm_num [dcUsdPrice])
      (by norm_num : (0 : ℚ) < 1 / 10 ^ 6) (by norm_num [dcUsdPrice])
    set quotient := arith.div (arith.mul (2 ^ 61) dcUsdPrice) (1 / 10 ^ 6)
    have roundedUp : quotient ≤ dcToMobileBones arith (2 ^ 61) (1 / 10 ^ 6) :=
      le_roundDp_toPositiveInfinity
    have roundedLe : dcToMobileBones arith (2 ^ 61) (1 / 10 ^ 6) ≤
        quotient + 1 / 10 ^ defaultPrec := roundDp_toPositiveInfinity_le
    norm_num [dcUsdPrice, defaultPrec] at low high roundedLe
    exact ⟨by linarith, by linarith⟩
  -- the epoch's emissions, `2 ^ 36` seconds of `30e15 / 366 / 86400` bones
  have total : getTotalScheduledTokens arith (2 ^ 36) ∈
      Set.Icc 65000000000000000000 66000000000000000000 :=
    Set.Icc_subset_Icc (by norm_num) (by norm_num)
      (accurate.mul_mem (scheduledTokensPerSecond_mem accurate) (by norm_num) (by norm_num)
        (by norm_num))
  have rewardsIs : (TransferRewards.fromTransferSessions arith (1 / 10 ^ 6) [(0, ⟨0, 2 ^ 61⟩)]
      (2 ^ 36)).rewards = [(0, ⟨dcToMobileBones arith (2 ^ 61) (1 / 10 ^ 6), 0⟩)] := by
    simp only [fromTransferSessions_rewards, List.map_cons, List.map_nil, Nat.cast_pow,
      Nat.cast_ofNat]
  have bonesSum : (bonesOf arith (1 / 10 ^ 6) [(0, ⟨0, 2 ^ 61⟩)]).sum =
      dcToMobileBones arith (2 ^ 61) (1 / 10 ^ 6) := by
    simp only [bonesOf, List.map_cons, List.map_nil, List.sum_cons, List.sum_nil, add_zero,
      Nat.cast_pow, Nat.cast_ofNat]
  obtain ⟨bonesLow, bonesHigh⟩ := bonesMem
  obtain ⟨totalLow, totalHigh⟩ := total
  have scaleIs : (TransferRewards.fromTransferSessions arith (1 / 10 ^ 6) [(0, ⟨0, 2 ^ 61⟩)]
      (2 ^ 36)).rewardScale = 1 := by
    have ratio := accurate.div_mem_of_divisor ⟨bonesLow, bonesHigh⟩ (by norm_num)
      ⟨totalLow, totalHigh⟩ (by norm_num) (by norm_num)
    rw [fromTransferSessions_rewardScale, bonesSum, rewardScaleFor, if_neg]
    rw [maxDataTransferRewardsPercent]
    norm_num at ratio ⊢
    linarith [ratio.2]
  refine ⟨?_, scaleIs, ?_, ?_⟩
  · rw [bonesSum, maxDataTransferRewardsPercent]
    -- `linarith` would read the literal epoch inside the total as a number
    generalize getTotalScheduledTokens arith (2 ^ 36) = total at totalLow ⊢
    linarith
  · exact Nat.le_floor (by push_cast; linarith)
  · -- the product with the scale is still past `u64`, so it is read as zero and dropped
    obtain ⟨productLow, -⟩ := accurate.mul_mem ⟨bonesLow, bonesHigh⟩ (by norm_num) zero_le_one
      (by norm_num)
    have dropped : wholeBones (arith.mul (dcToMobileBones arith (2 ^ 61) (1 / 10 ^ 6)) 1) = 0 :=
      toU64_roundDp_toZero_of_ge (by norm_num at productLow; linarith)
    simp only [TransferRewards.intoRewards, TransferRewards.dcTransferReward, rewardsIs, scaleIs,
      List.map_cons, List.map_nil, dropped]
    rfl

end HeliumOracles.MobileVerifier

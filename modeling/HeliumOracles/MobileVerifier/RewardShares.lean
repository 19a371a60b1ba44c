import HeliumOracles.Lib.Decimal
import HeliumOracles.Lib.Word

/-!
# Scheduled pools and the fixed-pool rewards of the mobile verifier

Source: mobile_verifier/src/reward_shares.rs (the emission constants,
`get_total_scheduled_tokens` and the pools cut from it, `dc_to_mobile_bones`,
`MapperShares`, `ServiceProviderShares`) and mobile_verifier/src/rewarder.rs
(`reward_mappers`, `reward_service_providers`, `reward_oracles`,
`write_unallocated_reward`).

Decimal values are rationals; the crate's products and quotients come from an
`Arith` (Lib.Decimal), so every result here holds for each arithmetic that keeps
the crate's precision. A reward is what the rewarder writes to the mobile rewards
sink, down to its amount; the reward period, the proto envelope and the awaited
file-sink receipts are left out. The `u64` accumulator and the unallocated
difference wrap as in the release build (Lib.Word).

Each of the three rewarders computes a pool, writes the rewards cut from it and
then `pool - allocated` as an unallocated reward; `writeWithUnallocated` is that
shared tail. What it writes adds up to the floored pool exactly when the rewards
do not overdraw it. The service-provider rewards can overdraw it: the per-share
value is rounded to the nearest 15th decimal, possibly up, and then multiplied
by DC totals of up to 19 digits.
-/
namespace HeliumOracles.MobileVerifier

open HeliumOracles.Lib.Decimal HeliumOracles.Lib.Word

/-- `TOTAL_EMISSIONS_POOL`: the bones emitted over 366 days. -/
def totalEmissionsPool : ℚ := 30000000000000000

/-- `DC_USD_PRICE`. -/
def dcUsdPrice : ℚ := 1 / 100000

/-- `DEFAULT_PREC`. -/
def defaultPrec : ℕ := 15

/-- `MAPPERS_REWARDS_PERCENT`. -/
def mappersRewardsPercent : ℚ := 2 / 10

/-- `DISCOVERY_MAPPING_SHARES`: the shares of one eligible subscriber. -/
def discoveryMappingShares : ℚ := 30

/-- `SERVICE_PROVIDER_PERCENT`. -/
def serviceProviderPercent : ℚ := 1 / 10

/-- `ORACLES_PERCENT`. -/
def oraclesPercent : ℚ := 4 / 100

section Pools

variable (arith : Arith)

/-- `get_total_scheduled_tokens(duration)`, for a duration of `seconds`. -/
def getTotalScheduledTokens (seconds : ℤ) : ℚ :=
  arith.mul (arith.div (arith.div totalEmissionsPool 366) 86400) seconds

/-- `get_scheduled_tokens_for_mappers`. -/
def getScheduledTokensForMappers (seconds : ℤ) : ℚ :=
  arith.mul (getTotalScheduledTokens arith seconds) mappersRewardsPercent

/-- `get_scheduled_tokens_for_service_providers`. -/
def getScheduledTokensForServiceProviders (seconds : ℤ) : ℚ :=
  arith.mul (getTotalScheduledTokens arith seconds) serviceProviderPercent

/-- `get_scheduled_tokens_for_oracles`. -/
def getScheduledTokensForOracles (seconds : ℤ) : ℚ :=
  arith.mul (getTotalScheduledTokens arith seconds) oraclesPercent

/-- `dc_to_mobile_bones`: the bones a DC amount is worth, rounded up at the 15th decimal. -/
def dcToMobileBones (dcAmount mobileBonePrice : ℚ) : ℚ :=
  roundDp defaultPrec .toPositiveInfinity (arith.div (arith.mul dcAmount dcUsdPrice) mobileBonePrice)

end Pools

/-- `UnallocatedRewardType`. -/
inductive UnallocatedRewardType where
  | poc
  | serviceProvider
  | oracle
  | mapper
  deriving DecidableEq, Repr

/-- The rewards these rewarders write, as `proto::MobileRewardShare` carries them. -/
inductive MobileReward where
  | subscriberReward (subscriberId : List UInt8) (discoveryLocationAmount : ℕ)
  | serviceProviderReward (serviceProviderId : ℤ) (amount : ℕ)
  | unallocatedReward (rewardType : UnallocatedRewardType) (amount : ℕ)
  deriving DecidableEq, Repr

/-- The bones a written reward pays out. -/
def MobileReward.amount : MobileReward → ℕ
  | .subscriberReward _ discoveryLocationAmount => discoveryLocationAmount
  | .serviceProviderReward _ amount => amount
  | .unallocatedReward _ amount => amount

/-- `write_unallocated_reward`: nothing is written for a zero amount. -/
def writeUnallocatedReward (unallocatedType : UnallocatedRewardType) (unallocatedAmount : ℕ) :
    List MobileReward :=
  if 0 < unallocatedAmount then [.unallocatedReward unallocatedType unallocatedAmount] else []

/-- A pool in whole bones as the rewarders read it:
`pool.round_dp_with_strategy(0, ToZero).to_u64().unwrap_or(0)`. -/
def wholeBones (pool : ℚ) : ℕ := (toU64 (roundDp 0 .toZero pool)).getD 0

/-- The tail shared by `reward_mappers`, `reward_service_providers` and
`reward_oracles`: the rewards, summed in a `u64` as they are written, then the
floored pool minus that sum as the unallocated reward. -/
def writeWithUnallocated (unallocatedType : UnallocatedRewardType) (totalPool : ℚ)
    (rewards : List MobileReward) : List MobileReward :=
  let allocated := wrappingSum 64 (rewards.map MobileReward.amount)
  rewards ++ writeUnallocatedReward unallocatedType (wrappingSub 64 (wholeBones totalPool) allocated)

theorem writeUnallocatedReward_amount_sum (unallocatedType : UnallocatedRewardType) (amount : ℕ) :
    ((writeUnallocatedReward unallocatedType amount).map MobileReward.amount).sum = amount := by
  unfold writeUnallocatedReward
  split
  · simp [MobileReward.amount]
  · simp
    omega

theorem wholeBones_lt (pool : ℚ) : wholeBones pool < 2 ^ 64 := by
  unfold wholeBones toU64
  split
  · rename_i inRange
    have below : ⌊roundDp 0 .toZero pool⌋ < 2 ^ 64 := Int.floor_lt.mpr (by exact_mod_cast inRange.2)
    simp only [Option.getD_some]
    omega
  · simp

/-- Whole bones read from a value are at most the value. -/
theorem wholeBones_le_of_pos {pool : ℚ} (positive : 0 < wholeBones pool) :
    (wholeBones pool : ℚ) ≤ pool := by
  unfold wholeBones at positive ⊢
  cases converted : toU64 (roundDp 0 .toZero pool) with
  | none => simp [converted] at positive
  | some whole =>
    have roundedNonneg : 0 ≤ roundDp 0 .toZero pool := by
      unfold toU64 at converted
      split_ifs at converted with inRange
      exact inRange.1
    have poolNonneg : 0 ≤ pool := by
      by_contra negative
      have clamped := toU64_roundDp_toZero_of_neg (not_le.mp negative)
      simp [converted] at clamped positive
      omega
    rw [Option.getD_some]
    exact (le_of_toU64_eq_some converted).trans (roundDp_toZero_le poolNonneg)

/-- A value in the range of `u64` is read as its whole part. -/
theorem wholeBones_of_mem {pool : ℚ} (nonneg : 0 ≤ pool) (fits : pool < 2 ^ 64) :
    wholeBones pool = ⌊pool⌋₊ := by
  have floorFits : ⌊pool⌋₊ < 2 ^ 64 := by
    have below : (⌊pool⌋₊ : ℚ) < 2 ^ 64 := (Nat.floor_le nonneg).trans_lt fits
    exact_mod_cast below
  have wholePart : (⌊pool⌋₊ : ℚ) ≤ pool ∧ pool < ⌊pool⌋₊ + 1 :=
    ⟨Nat.floor_le nonneg, Nat.lt_floor_add_one pool⟩
  exact toU64_roundDp_toZero_of_mem _ floorFits wholePart.1 wholePart.2

/-- What a rewarder writes adds up to the floored pool exactly when its rewards do
not overdraw the pool; otherwise the unallocated difference wraps past `2 ^ 64`. -/
theorem writeWithUnallocated_amount_sum (unallocatedType : UnallocatedRewardType) (totalPool : ℚ)
    (rewards : List MobileReward) (fits : (rewards.map MobileReward.amount).sum < 2 ^ 64) :
    ((writeWithUnallocated unallocatedType totalPool rewards).map MobileReward.amount).sum =
      if (rewards.map MobileReward.amount).sum ≤ wholeBones totalPool then wholeBones totalPool
      else wholeBones totalPool + 2 ^ 64 := by
  have poolFits := wholeBones_lt totalPool
  simp only [writeWithUnallocated, wrappingSum_of_lt fits, List.map_append, List.sum_append,
    writeUnallocatedReward_amount_sum]
  split
  · rename_i within
    rw [wrappingSub_of_le within poolFits]
    omega
  · rename_i overdrawn
    rw [wrappingSub_of_lt (by omega) fits.le]
    omega

/-! ## Mapper shares -/

/-- `SubscriberValidatedLocations`: the subscribers eligible for discovery mapping. -/
abbrev SubscriberValidatedLocations := List (List UInt8)

/-- `MapperShares`. -/
structure MapperShares where
  discoveryMappingShares : SubscriberValidatedLocations

section Mappers

variable (arith : Arith)

/-- `MapperShares::rewards_per_share`: `checked_div` gives zero for no subscribers. -/
def MapperShares.rewardsPerShare (self : MapperShares) (totalMappersPool : ℚ) : ℚ :=
  let discoveryMappersCount : ℚ := self.discoveryMappingShares.length
  let totalMapperShares := arith.mul discoveryMappersCount MobileVerifier.discoveryMappingShares
  if totalMapperShares = 0 then 0 else arith.div totalMappersPool totalMapperShares

/-- `MapperShares::into_subscriber_rewards`. -/
def MapperShares.intoSubscriberRewards (self : MapperShares) (rewardPerShare : ℚ) :
    List MobileReward :=
  let amount := (toU64 (roundDp 0 .toZero
    (arith.mul MobileVerifier.discoveryMappingShares rewardPerShare))).getD 0
  ((self.discoveryMappingShares.map fun subscriberId => (subscriberId, amount)).filter
    (0 < ·.2)).map fun reward => .subscriberReward reward.1 reward.2

/-- `reward_mappers`, from the location shares `aggregate_location_shares` returns. -/
def rewardMappers (locationShares : SubscriberValidatedLocations) (seconds : ℤ) :
    List MobileReward :=
  let mappingShares : MapperShares := ⟨locationShares⟩
  let totalMappersPool := getScheduledTokensForMappers arith seconds
  let rewardsPerShare := mappingShares.rewardsPerShare arith totalMappersPool
  writeWithUnallocated .mapper totalMappersPool
    (mappingShares.intoSubscriberRewards arith rewardsPerShare)

end Mappers

/-! ## Service provider shares -/

/-- `ServiceProviderDataSession`: a service provider and the DC its payer spent. -/
structure ServiceProviderDataSession where
  serviceProvider : ℤ
  totalDcs : ℚ

/-- `ServiceProviderShares`. -/
structure ServiceProviderShares where
  shares : List ServiceProviderDataSession

/-- `ServiceProviderShares::from_payers_dc`: each payer's DC total under the service
provider the carrier service names for it; a failed lookup fails the whole call. -/
def ServiceProviderShares.fromPayersDc (payerShares : List (String × ℕ))
    (payerKeyToServiceProvider : String → Option ℤ) : Option ServiceProviderShares :=
  (payerShares.mapM fun entry =>
    (payerKeyToServiceProvider entry.1).map fun serviceProvider =>
      ({ serviceProvider, totalDcs := entry.2 } : ServiceProviderDataSession)).map
    ServiceProviderShares.mk

/-- `ServiceProviderShares::total_dc`. -/
def ServiceProviderShares.totalDc (self : ServiceProviderShares) : ℚ :=
  (self.shares.map (·.totalDcs)).sum

/-- `ServiceProviderShares::maybe_cap_service_provider_rewards`. -/
def ServiceProviderShares.maybeCapServiceProviderRewards (totalSpRewardsUsed totalSpRewards : ℚ) :
    ℚ :=
  if totalSpRewardsUsed ≤ totalSpRewards then totalSpRewardsUsed else totalSpRewards

section ServiceProviders

variable (arith : Arith)

/-- `ServiceProviderShares::calc_rewards_per_share`: rounded to the nearest 15th decimal. -/
def ServiceProviderShares.calcRewardsPerShare (totalRewards totalShares : ℚ) : ℚ :=
  if 0 < totalShares then
    roundDp defaultPrec .midpointNearestEven (arith.div totalRewards totalShares)
  else 0

/-- `ServiceProviderShares::rewards_per_share`. -/
def ServiceProviderShares.rewardsPerShare (self : ServiceProviderShares)
    (totalSpRewards mobileBonePrice : ℚ) : ℚ :=
  let totalSpDc := self.totalDc
  let totalSpRewardsUsed := dcToMobileBones arith totalSpDc mobileBonePrice
  let cappedSpRewardsUsed := maybeCapServiceProviderRewards totalSpRewardsUsed totalSpRewards
  calcRewardsPerShare arith cappedSpRewardsUsed totalSpDc

/-- The `amount` of one service provider's reward. -/
def ServiceProviderShares.shareAmount (share : ServiceProviderDataSession) (rewardPerShare : ℚ) : ℕ :=
  (toU64 (roundDp 0 .toZero (arith.mul share.totalDcs rewardPerShare))).getD 0

/-- `ServiceProviderShares::into_service_provider_rewards`. -/
def ServiceProviderShares.intoServiceProviderRewards (self : ServiceProviderShares)
    (rewardPerShare : ℚ) : List MobileReward :=
  ((self.shares.map fun share => (share.serviceProvider, shareAmount arith share rewardPerShare)).filter
    (0 < ·.2)).map fun reward => .serviceProviderReward reward.1 reward.2

/-- `reward_service_providers`, from the shares `from_payers_dc` builds. -/
def rewardServiceProviders (spShares : ServiceProviderShares) (seconds : ℤ)
    (mobileBonePrice : ℚ) : List MobileReward :=
  let totalSpRewards := getScheduledTokensForServiceProviders arith seconds
  let rewardsPerShare := spShares.rewardsPerShare arith totalSpRewards mobileBonePrice
  writeWithUnallocated .serviceProvider totalSpRewards
    (spShares.intoServiceProviderRewards arith rewardsPerShare)

/-- `reward_oracles`: the whole oracle pool is unallocated. -/
def rewardOracles (seconds : ℤ) : List MobileReward :=
  writeWithUnallocated .oracle (getScheduledTokensForOracles arith seconds) []

theorem ServiceProviderShares.calcRewardsPerShare_of_pos {totalRewards totalShares : ℚ}
    (positive : 0 < totalShares) :
    calcRewardsPerShare arith totalRewards totalShares =
      roundDp defaultPrec .midpointNearestEven (arith.div totalRewards totalShares) :=
  if_pos positive

/-- When the spent DC are worth more than the pool, the pool itself is shared out. -/
theorem ServiceProviderShares.rewardsPerShare_of_lt (self : ServiceProviderShares)
    {totalSpRewards mobileBonePrice : ℚ}
    (capped : totalSpRewards < dcToMobileBones arith self.totalDc mobileBonePrice) :
    self.rewardsPerShare arith totalSpRewards mobileBonePrice =
      calcRewardsPerShare arith totalSpRewards self.totalDc := by
  simp only [rewardsPerShare, maybeCapServiceProviderRewards, if_neg (not_le.mpr capped)]

end ServiceProviders

/-! ## A reward day

The pools of a day, pinned down to the crate's precision, and a day on which the
service-provider rewards overdraw their pool. -/

section Day

variable {arith : Arith}

/-- The bones emitted per second, `30e15 / 366 / 86400`, each quotient off by at most the
crate's precision. -/
theorem scheduledTokensPerSecond_mem (accurate : arith.Accurate) :
    arith.div (arith.div totalEmissionsPool 366) 86400 ∈
      Set.Icc 948694596.2355797 948694596.2355799 := by
  have perDay : arith.div totalEmissionsPool 366 ∈ Set.Icc 81967213114754.09 81967213114754.1 :=
    Set.Icc_subset_Icc (by norm_num [totalEmissionsPool]) (by norm_num [totalEmissionsPool])
      (accurate.div_mem (Set.left_mem_Icc.mpr le_rfl) (by norm_num [totalEmissionsPool])
        (by norm_num) (by norm_num [totalEmissionsPool]))
  exact Set.Icc_subset_Icc (by norm_num) (by norm_num)
    (accurate.div_mem perDay (by norm_num) (by norm_num) (by norm_num))

theorem getTotalScheduledTokens_day_mem (accurate : arith.Accurate) :
    getTotalScheduledTokens arith 86400 ∈ Set.Icc 81967213114754.08 81967213114754.11 :=
  Set.Icc_subset_Icc (by norm_num) (by norm_num)
    (accurate.mul_mem (scheduledTokensPerSecond_mem accurate) (by norm_num) (by norm_num)
      (by norm_num))

theorem getScheduledTokensForServiceProviders_day_mem (accurate : arith.Accurate) :
    getScheduledTokensForServiceProviders arith 86400 ∈
      Set.Icc 8196721311475.4 8196721311475.42 :=
  Set.Icc_subset_Icc (by norm_num [serviceProviderPercent]) (by norm_num [serviceProviderPercent])
    (accurate.mul_mem (getTotalScheduledTokens_day_mem accurate) (by norm_num)
      (by norm_num [serviceProviderPercent]) (by norm_num [serviceProviderPercent]))

theorem wholeBones_serviceProviders_day (accurate : arith.Accurate) :
    wholeBones (getScheduledTokensForServiceProviders arith 86400) = 8196721311475 := by
  obtain ⟨low, high⟩ := getScheduledTokensForServiceProviders_day_mem accurate
  have floored := roundDp_toZero_of_mem 8196721311475 (by push_cast; linarith) (by push_cast; linarith)
  rw [wholeBones, floored, toU64_natCast (by norm_num)]
  rfl

/-- DC worth of a `u64` amount at a bone price of at least `10 ^ -12`, the least a positive
price read from the price oracle can be, is never negative. -/
theorem dcToMobileBones_nonneg (accurate : arith.Accurate) {dcAmount : ℕ} {mobileBonePrice : ℚ}
    (dcFits : dcAmount < 2 ^ 64) (priceFloor : 1 / 10 ^ 12 ≤ mobileBonePrice) :
    0 ≤ dcToMobileBones arith dcAmount mobileBonePrice := by
  have pricePositive : 0 < mobileBonePrice := lt_of_lt_of_le (by norm_num) priceFloor
  have dcBelow : (dcAmount : ℚ) ≤ 2 ^ 64 := by exact_mod_cast dcFits.le
  obtain ⟨usdLow, usdHigh⟩ := accurate.mul_mem (Set.left_mem_Icc.mpr le_rfl)
    (Nat.cast_nonneg dcAmount) (by norm_num [dcUsdPrice] : (0 : ℚ) ≤ dcUsdPrice)
    (by norm_num [dcUsdPrice]; linarith)
  set usd := arith.mul dcAmount dcUsdPrice
  have dcNonneg : (0 : ℚ) ≤ dcAmount := Nat.cast_nonneg dcAmount
  norm_num [dcUsdPrice] at usdLow usdHigh
  have usdAbs : |usd| ≤ 2 ^ 64 / 10 ^ 5 + 1 := abs_le.mpr ⟨by linarith, by linarith⟩
  set quotient := usd / mobileBonePrice
  have quotientFits : |quotient| < 2 ^ 96 := by
    rw [abs_div, abs_of_pos pricePositive, div_lt_iff₀ pricePositive]
    linarith
  -- a hair below zero at worst: `usd` is, and the price is not too small
  have quotientAbove : -(1 / 10 ^ 16) ≤ quotient := by
    rw [le_div_iff₀ pricePositive]
    linarith
  have lower := (abs_sub_le_iff.mp (accurate.div usd mobileBonePrice pricePositive.ne'
    quotientFits)).2
  have divAbove : -(1 / 10 ^ defaultPrec) < arith.div usd mobileBonePrice := by
    rw [defaultPrec]
    rcases le_or_gt 0 quotient with nonneg | negative
    · rw [abs_of_nonneg nonneg] at lower
      linarith
    · rw [abs_of_neg negative] at lower
      linarith
  exact roundDp_toPositiveInfinity_nonneg divAbove

/-- A day on which one payer spent `2 ^ 62` DC, a sum the `bigint` of
`sum_data_sessions_to_dc_by_payer` holds, at a bone price of 1. The DC are worth
far more than the service-provider pool, so the pool is shared out; `pool / 2 ^ 62`
rounds up at its 15th decimal, and the product with `2 ^ 62` pays the provider
1697 bones more than the floored pool. The unallocated difference wraps. -/
theorem service_provider_rewards_overdraw (arith : Arith) (accurate : arith.Accurate) :
    wholeBones (getScheduledTokensForServiceProviders arith 86400) = 8196721311475 ∧
    rewardServiceProviders arith ⟨[⟨0, 2 ^ 62⟩]⟩ 86400 1 =
      [.serviceProviderReward 0 8196721313172,
        .unallocatedReward .serviceProvider (2 ^ 64 - 1697)] := by
  have poolIn := getScheduledTokensForServiceProviders_day_mem accurate
  have floored := wholeBones_serviceProviders_day accurate
  refine ⟨floored, ?_⟩
  set pool := getScheduledTokensForServiceProviders arith 86400 with poolIs
  have totalIs : ServiceProviderShares.totalDc ⟨[⟨0, 2 ^ 62⟩]⟩ = 2 ^ 62 := by
    simp [ServiceProviderShares.totalDc]
  -- the DC are worth about `4.6e13` bones, far above the pool
  have usdIn : arith.mul (2 ^ 62) dcUsdPrice ∈ Set.Icc 46116860184273 46116860184274 :=
    Set.Icc_subset_Icc (by norm_num [dcUsdPrice]) (by norm_num [dcUsdPrice])
      (accurate.mul_mem (Set.left_mem_Icc.mpr le_rfl) (by norm_num) (by norm_num [dcUsdPrice])
        (by norm_num [dcUsdPrice]))
  have bonesIn : arith.div (arith.mul (2 ^ 62) dcUsdPrice) 1 ∈
      Set.Icc 46116860184272 46116860184275 :=
    Set.Icc_subset_Icc (by norm_num) (by norm_num)
      (accurate.div_mem usdIn (by norm_num) (by norm_num) (by norm_num))
  have capped : pool < dcToMobileBones arith (ServiceProviderShares.totalDc ⟨[⟨0, 2 ^ 62⟩]⟩) 1 := by
    rw [totalIs]
    calc pool ≤ 8196721311475.42 := poolIn.2
      _ < 46116860184272 := by norm_num
      _ ≤ arith.div (arith.mul (2 ^ 62) dcUsdPrice) 1 := bonesIn.1
      _ ≤ dcToMobileBones arith (2 ^ 62) 1 := le_roundDp_toPositiveInfinity
  -- `pool / 2 ^ 62 = 0.000001777380610632…` rounds up at the 15th decimal
  have quotientIn : arith.div pool (2 ^ 62) ∈ Set.Icc 0.0000017773806106 0.0000017773806107 :=
    Set.Icc_subset_Icc (by norm_num) (by norm_num)
      (accurate.div_mem poolIn (by norm_num) (by norm_num) (by norm_num))
  have perShare : ServiceProviderShares.rewardsPerShare arith ⟨[⟨0, 2 ^ 62⟩]⟩ pool 1 =
      1777380611 / 10 ^ 15 := by
    rw [ServiceProviderShares.rewardsPerShare_of_lt arith _ capped, totalIs,
      ServiceProviderShares.calcRewardsPerShare_of_pos arith (by norm_num),
      roundDp_midpointNearestEven_of_mem 1777380611 quotientIn (by norm_num [defaultPrec])
        (by norm_num [defaultPrec])]
    norm_num [defaultPrec]
  -- `2 ^ 62 * 0.000001777380611 = 8196721313172.63`
  have productIn : arith.mul (2 ^ 62) (1777380611 / 10 ^ 15) ∈
      Set.Icc 8196721313172.6 8196721313172.7 :=
    Set.Icc_subset_Icc (by norm_num) (by norm_num)
      (accurate.mul_mem (Set.left_mem_Icc.mpr le_rfl) (by norm_num) (by norm_num) (by norm_num))
  have amount : ServiceProviderShares.shareAmount arith ⟨0, 2 ^ 62⟩ (1777380611 / 10 ^ 15) =
      8196721313172 := by
    obtain ⟨low, high⟩ := productIn
    rw [ServiceProviderShares.shareAmount,
      roundDp_toZero_of_mem 8196721313172 (by push_cast; linarith) (by push_cast; linarith),
      toU64_natCast (by norm_num)]
    rfl
  have unallocated : wrappingSub 64 8196721311475 8196721313172 = 2 ^ 64 - 1697 :=
    wrappingSub_of_lt (by norm_num) (by norm_num)
  simp only [rewardServiceProviders, ← poolIs, perShare,
    ServiceProviderShares.intoServiceProviderRewards, List.map_cons, List.map_nil, amount]
  simp [writeWithUnallocated, floored, wrappingSum, wrappingAdd, unallocated, writeUnallocatedReward,
    MobileReward.amount]

theorem service_provider_rewards_overdraw_exactly :
    wholeBones (getScheduledTokensForServiceProviders Arith.exact 86400) = 8196721311475 ∧
    rewardServiceProviders Arith.exact ⟨[⟨0, 2 ^ 62⟩]⟩ 86400 1 =
      [.serviceProviderReward 0 8196721313172,
        .unallocatedReward .serviceProvider (2 ^ 64 - 1697)] :=
  service_provider_rewards_overdraw Arith.exact Arith.exact_accurate

end Day

end HeliumOracles.MobileVerifier

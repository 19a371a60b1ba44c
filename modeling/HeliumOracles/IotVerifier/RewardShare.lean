import HeliumOracles.Lib.Decimal
import HeliumOracles.Lib.Word
import HeliumOracles.Lib.AssocMap

/-!
# Gateway rewards of the IoT verifier

Source: iot_verifier/src/reward_share.rs (the daily emission constants,
`get_tokens_by_duration` and the scheduled pools, `RewardShares`,
`aggregate_reward_shares`, `GatewayShares::calculate_rewards_per_share`,
`into_iot_reward_shares`, `dc_to_iot_bones`, `normalize_dc_transfer_rewards`,
`rewards_per_share`, `compute_rewards`) and iot_verifier/src/rewarder.rs
(`reward_poc_and_dc`, `reward_operational`, `reward_oracles`,
`write_unallocated_reward`).

As in the mobile verifier, Decimal values are rationals and the crate's products
and quotients come from an `Arith` (Lib.Decimal); `u64` sums wrap as in the
release build. A `GatewayRewardShares` map is an association list (Lib.AssocMap).
The proto envelope and the reward period of a written reward are left out.

* `aggregateRewardShares` adds every share row of the period into the map once, so
  `totalShares` is the sum over the rows (`totalShares_aggregateRewardShares`).
* `reward_poc_and_dc` writes the gateway rewards and then the whole part of
  `total - allocated`, which clamps to zero below zero: what it writes adds up to
  the floored total when the gateways do not overdraw it, and to the gateways'
  own sum when they do (`writeGatewayRewards_amount_sum`).
* They can overdraw it: the per-share values are rounded to the nearest 15th
  decimal, possibly up, and then multiplied by share sums of up to 19 digits
  (`gateway_rewards_exceed_poc_dc_pool`).
* `reward_operational` never writes an unallocated reward
  (`rewardOperational_eq`).
-/
namespace HeliumOracles.IotVerifier

open HeliumOracles.Lib.Decimal HeliumOracles.Lib.Word HeliumOracles.Lib.AssocMap

/-- `DEFAULT_PREC`. -/
def defaultPrec : ℕ := 15

/-- `BEACON_REWARDS_PER_DAY_PERCENT`. -/
def beaconRewardsPerDayPercent : ℚ := 6 / 100

/-- `WITNESS_REWARDS_PER_DAY_PERCENT`. -/
def witnessRewardsPerDayPercent : ℚ := 24 / 100

/-- `DATA_TRANSFER_REWARDS_PER_DAY_PERCENT`. -/
def dataTransferRewardsPerDayPercent : ℚ := 1 / 2

/-- `OPERATIONS_REWARDS_PER_DAY_PERCENT`. -/
def operationsRewardsPerDayPercent : ℚ := 7 / 100

/-- `ORACLES_REWARDS_PER_DAY_PERCENT`. -/
def oraclesRewardsPerDayPercent : ℚ := 7 / 100

/-- `WITNESS_DC_REMAINER_PERCENT`. -/
def witnessDcRemainerPercent : ℚ := 8 / 10

/-- `BEACON_DC_REMAINER_PERCENT`. -/
def beaconDcRemainerPercent : ℚ := 2 / 10

/-- `DC_USD_PRICE`. -/
def dcUsdPrice : ℚ := 1 / 100000

section Schedule

variable (arith : Arith)

/-- `REWARDS_PER_DAY`: the year-one emission of a day, in bones. -/
def rewardsPerDay : ℚ := arith.mul (arith.div 32500000000 366) 1000000

/-- `get_tokens_by_duration`: a daily amount prorated to `seconds`, rounded to the
nearest 15th decimal. -/
def getTokensByDuration (tokens : ℚ) (seconds : ℤ) : ℚ :=
  roundDp defaultPrec .midpointNearestEven (arith.mul (arith.div tokens 86400) seconds)

/-- `get_scheduled_poc_tokens`: the beacon and witness pools, with the unused DC
rewards split 20/80 between them. -/
def getScheduledPocTokens (seconds : ℤ) (dcTransferRemainder : ℚ) : ℚ × ℚ :=
  (getTokensByDuration arith (arith.mul (rewardsPerDay arith) beaconRewardsPerDayPercent) seconds
      + arith.mul dcTransferRemainder beaconDcRemainerPercent,
    getTokensByDuration arith (arith.mul (rewardsPerDay arith) witnessRewardsPerDayPercent) seconds
      + arith.mul dcTransferRemainder witnessDcRemainerPercent)

/-- `get_scheduled_dc_tokens`. -/
def getScheduledDcTokens (seconds : ℤ) : ℚ :=
  getTokensByDuration arith (arith.mul (rewardsPerDay arith) dataTransferRewardsPerDayPercent) seconds

/-- `get_scheduled_ops_fund_tokens`. -/
def getScheduledOpsFundTokens (seconds : ℤ) : ℚ :=
  getTokensByDuration arith (arith.mul (rewardsPerDay arith) operationsRewardsPerDayPercent) seconds

/-- `get_scheduled_oracle_tokens`. -/
def getScheduledOracleTokens (seconds : ℤ) : ℚ :=
  getTokensByDuration arith (arith.mul (rewardsPerDay arith) oraclesRewardsPerDayPercent) seconds

end Schedule

/-! ## Shares -/

/-- `ReportType` of a PoC share. -/
inductive ReportType where
  | witness
  | beacon
  deriving DecidableEq, Repr

/-- A row of `gateway_shares`. -/
structure GatewayPocShare where
  hotspotKey : ℕ
  rewardType : ReportType
  rewardTimestamp : ℤ
  hexScale : ℚ
  rewardUnit : ℚ

/-- A row of `gateway_dc_shares`. -/
structure GatewayDCShare where
  hotspotKey : ℕ
  rewardTimestamp : ℤ
  numDcs : ℚ

/-- `RewardShares`: what one gateway earned in the period. -/
structure RewardShares where
  beaconShares : ℚ := 0
  witnessShares : ℚ := 0
  dcShares : ℚ := 0
  deriving DecidableEq, Repr

/-- `RewardShares::add_poc_reward`. -/
def RewardShares.addPocReward (arith : Arith) (self : RewardShares) (share : GatewayPocShare) :
    RewardShares :=
  let rewards := arith.mul share.hexScale share.rewardUnit
  match share.rewardType with
  | .beacon => { self with beaconShares := self.beaconShares + rewards }
  | .witness => { self with witnessShares := self.witnessShares + rewards }

/-- `RewardShares::add_dc_reward`. -/
def RewardShares.addDcReward (self : RewardShares) (share : GatewayDCShare) : RewardShares :=
  { self with dcShares := self.dcShares + share.numDcs }

/-- `GatewayRewardShares`: the shares of each gateway. -/
abbrev GatewayRewardShares := Map ℕ RewardShares

/-- `reward_timestamp > $1 and reward_timestamp <= $2`. -/
def inRewardPeriod (start stop timestamp : ℤ) : Bool := start < timestamp && timestamp ≤ stop

/-- `aggregate_poc_shares`: each PoC row of the period added to its gateway's entry. -/
def aggregatePocShares (arith : Arith) (start stop : ℤ) (rows : List GatewayPocShare)
    (shares : GatewayRewardShares) : GatewayRewardShares :=
  (rows.filter (inRewardPeriod start stop ·.rewardTimestamp)).foldl
    (fun acc row => modifyEntry row.hotspotKey {} (·.addPocReward arith row) acc) shares

/-- `aggregate_dc_shares`. -/
def aggregateDcShares (start stop : ℤ) (rows : List GatewayDCShare)
    (shares : GatewayRewardShares) : GatewayRewardShares :=
  (rows.filter (inRewardPeriod start stop ·.rewardTimestamp)).foldl
    (fun acc row => modifyEntry row.hotspotKey {} (·.addDcReward row) acc) shares

/-- `aggregate_reward_shares`, from the rows of the two share tables. -/
def aggregateRewardShares (arith : Arith) (start stop : ℤ) (pocRows : List GatewayPocShare)
    (dcRows : List GatewayDCShare) : GatewayRewardShares :=
  aggregateDcShares start stop dcRows (aggregatePocShares arith start stop pocRows [])

/-- `GatewayShares`. -/
structure GatewayShares where
  shares : GatewayRewardShares

/-- `GatewayShares::total_shares`: the beacon, witness and DC shares of all gateways. -/
def GatewayShares.totalShares (self : GatewayShares) : ℚ × ℚ × ℚ :=
  self.shares.foldl (fun sums entry =>
    (sums.1 + entry.2.beaconShares, sums.2.1 + entry.2.witnessShares, sums.2.2 + entry.2.dcShares))
    (0, 0, 0)

theorem GatewayShares.totalShares_eq (shares : GatewayRewardShares) :
    GatewayShares.totalShares ⟨shares⟩ = ((shares.map fun e => e.2.beaconShares).sum,
      (shares.map fun e => e.2.witnessShares).sum, (shares.map fun e => e.2.dcShares).sum) := by
  -- the fold carries the three partial sums of the entries already read
  suffices folded : ∀ (rest : GatewayRewardShares) (sums : ℚ × ℚ × ℚ),
      rest.foldl (fun sums entry => (sums.1 + entry.2.beaconShares,
        sums.2.1 + entry.2.witnessShares, sums.2.2 + entry.2.dcShares)) sums =
      (sums.1 + (rest.map fun e => e.2.beaconShares).sum,
        sums.2.1 + (rest.map fun e => e.2.witnessShares).sum,
        sums.2.2 + (rest.map fun e => e.2.dcShares).sum) by
    simpa [GatewayShares.totalShares] using folded shares (0, 0, 0)
  intro rest
  induction rest with
  | nil => simp
  | cons entry rest later =>
    intro sums
    simp only [List.foldl_cons, later, List.map_cons, List.sum_cons, add_assoc]

/-- What `aggregate_poc_shares` adds to a per-gateway quantity `f`, summed over the map. -/
theorem aggregatePocShares_sum (arith : Arith) (f : RewardShares → ℚ) (added : GatewayPocShare → ℚ)
    (zero : f {} = 0) (grows : ∀ row v, f (v.addPocReward arith row) = f v + added row)
    (start stop : ℤ) (rows : List GatewayPocShare) (shares : GatewayRewardShares) :
    ((aggregatePocShares arith start stop rows shares).map fun e => f e.2).sum =
      (shares.map fun e => f e.2).sum +
        ((rows.filter (inRewardPeriod start stop ·.rewardTimestamp)).map added).sum := by
  unfold aggregatePocShares
  exact sum_foldl_modifyEntry f (fun row : GatewayPocShare => row.hotspotKey) {}
    (fun row v => v.addPocReward arith row) added zero grows _ shares

/-- What `aggregate_dc_shares` adds to a per-gateway quantity `f`, summed over the map. -/
theorem aggregateDcShares_sum (f : RewardShares → ℚ) (added : GatewayDCShare → ℚ)
    (zero : f {} = 0) (grows : ∀ row v, f (v.addDcReward row) = f v + added row)
    (start stop : ℤ) (rows : List GatewayDCShare) (shares : GatewayRewardShares) :
    ((aggregateDcShares start stop rows shares).map fun e => f e.2).sum =
      (shares.map fun e => f e.2).sum +
        ((rows.filter (inRewardPeriod start stop ·.rewardTimestamp)).map added).sum := by
  unfold aggregateDcShares
  exact sum_foldl_modifyEntry f (fun row : GatewayDCShare => row.hotspotKey) {}
    (fun row v => v.addDcReward row) added zero grows _ shares

/-- Every share row of the reward period is counted once in the totals: the beacon
and witness totals are the sums of the period's PoC rows of that type, the DC total
the sum of its DC rows, whatever gateways the rows belong to. -/
theorem totalShares_aggregateRewardShares (arith : Arith) (start stop : ℤ)
    (pocRows : List GatewayPocShare) (dcRows : List GatewayDCShare) :
    GatewayShares.totalShares ⟨aggregateRewardShares arith start stop pocRows dcRows⟩ =
      (((pocRows.filter (inRewardPeriod start stop ·.rewardTimestamp)).map fun row =>
          if row.rewardType = .beacon then arith.mul row.hexScale row.rewardUnit else 0).sum,
        ((pocRows.filter (inRewardPeriod start stop ·.rewardTimestamp)).map fun row =>
          if row.rewardType = .witness then arith.mul row.hexScale row.rewardUnit else 0).sum,
        ((dcRows.filter (inRewardPeriod start stop ·.rewardTimestamp)).map (·.numDcs)).sum) := by
  -- a PoC row adds to one of the two PoC totals, a DC row to the DC total only
  have pocBeacon : ∀ (row : GatewayPocShare) (v : RewardShares),
      (v.addPocReward arith row).beaconShares = v.beaconShares +
        if row.rewardType = .beacon then arith.mul row.hexScale row.rewardUnit else 0 := by
    intro row v
    cases kind : row.rewardType <;> simp [RewardShares.addPocReward, kind]
  have pocWitness : ∀ (row : GatewayPocShare) (v : RewardShares),
      (v.addPocReward arith row).witnessShares = v.witnessShares +
        if row.rewardType = .witness then arith.mul row.hexScale row.rewardUnit else 0 := by
    intro row v
    cases kind : row.rewardType <;> simp [RewardShares.addPocReward, kind]
  have pocDc : ∀ (row : GatewayPocShare) (v : RewardShares),
      (v.addPocReward arith row).dcShares = v.dcShares + (fun _ => 0) row := by
    intro row v
    cases kind : row.rewardType <;> simp [RewardShares.addPocReward, kind]
  rw [aggregateRewardShares, GatewayShares.totalShares_eq,
    aggregateDcShares_sum RewardShares.beaconShares (fun _ => 0) rfl (fun _ _ => (add_zero _).symm),
    aggregateDcShares_sum RewardShares.witnessShares (fun _ => 0) rfl (fun _ _ => (add_zero _).symm),
    aggregateDcShares_sum RewardShares.dcShares (·.numDcs) rfl (fun _ _ => rfl),
    aggregatePocShares_sum arith RewardShares.beaconShares _ rfl pocBeacon,
    aggregatePocShares_sum arith RewardShares.witnessShares _ rfl pocWitness,
    aggregatePocShares_sum arith RewardShares.dcShares _ rfl pocDc]
  simp

/-! ## Rewards per share -/

section PerShare

variable (arith : Arith)

/-- `iot_price_to_bones`: the price of a bone from the price of an IOT in `10 ^ 6` units. -/
def iotPriceToBones (iotPrice : ℚ) : ℚ := arith.div (arith.div iotPrice 1000000) 1000000

/-- `dc_to_iot_bones`: the bones a DC amount is worth, rounded up at the 15th decimal. -/
def dcToIotBones (dcAmount iotPrice : ℚ) : ℚ :=
  let iotPrice := iotPriceToBones arith iotPrice
  let dcInUsd := arith.mul dcAmount dcUsdPrice
  roundDp defaultPrec .toPositiveInfinity (arith.div dcInUsd iotPrice)

/-- `normalize_dc_transfer_rewards`: the unused DC pool and the DC rewards capped at the pool. -/
def normalizeDcTransferRewards (totalDcTransferRewardsUsed totalDcTransferRewards : ℚ) : ℚ × ℚ :=
  if totalDcTransferRewardsUsed ≤ totalDcTransferRewards then
    (totalDcTransferRewards - totalDcTransferRewardsUsed, totalDcTransferRewardsUsed)
  else (0, totalDcTransferRewards)

/-- `rewards_per_share`: rounded to the nearest 15th decimal. -/
def rewardsPerShare (totalRewards totalShares : ℚ) : ℚ :=
  if 0 < totalShares then
    roundDp defaultPrec .midpointNearestEven (arith.div totalRewards totalShares)
  else 0

/-- `compute_rewards`: the whole bones of `rewards_per_share * shares`. -/
def computeRewards (rewardsPerShare shares : ℚ) : ℕ :=
  (toU64 (roundDp 0 .toZero (arith.mul rewardsPerShare shares))).getD 0

/-- `GatewayShares::calculate_rewards_per_share`: the beacon, witness and DC values
of one share. -/
def GatewayShares.calculateRewardsPerShare (self : GatewayShares) (seconds : ℤ) (iotPrice : ℚ) :
    ℚ × ℚ × ℚ :=
  let totals := self.totalShares
  let totalDcTransferRewards := getScheduledDcTokens arith seconds
  let totalDcTransferRewardsUsed := dcToIotBones arith totals.2.2 iotPrice
  let normalized := normalizeDcTransferRewards totalDcTransferRewardsUsed totalDcTransferRewards
  let pocRewards := getScheduledPocTokens arith seconds normalized.1
  (rewardsPerShare arith pocRewards.1 totals.1, rewardsPerShare arith pocRewards.2 totals.2.1,
    rewardsPerShare arith normalized.2 totals.2.2)

end PerShare

/-! ## What the rewarder writes -/

/-- `UnallocatedRewardType`. -/
inductive UnallocatedRewardType where
  | poc
  | operation
  | oracle
  deriving DecidableEq, Repr

/-- `proto::GatewayReward`. -/
structure GatewayReward where
  hotspotKey : ℕ
  beaconAmount : ℕ
  witnessAmount : ℕ
  dcTransferAmount : ℕ
  deriving DecidableEq, Repr

/-- The rewards these rewarders write, as `proto::IotRewardShare` carries them. -/
inductive IotReward where
  | gatewayReward (reward : GatewayReward)
  | operationalReward (amount : ℕ)
  | unallocatedReward (rewardType : UnallocatedRewardType) (amount : ℕ)
  deriving DecidableEq, Repr

/-- The bones a written reward pays out. -/
def IotReward.amount : IotReward → ℕ
  | .gatewayReward reward => reward.beaconAmount + reward.witnessAmount + reward.dcTransferAmount
  | .operationalReward amount => amount
  | .unallocatedReward _ amount => amount

/-- `write_unallocated_reward`: nothing is written for a zero amount. -/
def writeUnallocatedReward (unallocatedType : UnallocatedRewardType) (unallocatedAmount : ℕ) :
    List IotReward :=
  if 0 < unallocatedAmount then [.unallocatedReward unallocatedType unallocatedAmount] else []

/-- The whole part of `total - allocated` as the rewarders write it:
`.round_dp_with_strategy(0, ToZero).to_u64().unwrap_or(0)`, zero below zero. -/
def unallocatedAmount (total : ℚ) (allocated : ℕ) : ℕ :=
  (toU64 (roundDp 0 .toZero (total - allocated))).getD 0

section Rewarder

variable (arith : Arith)

/-- `GatewayShares::into_iot_reward_shares`: each gateway with a positive amount,
paired with the `u64` sum `dc_transfer_amount + beacon_amount + witness_amount`. -/
def GatewayShares.intoIotRewardShares (self : GatewayShares)
    (beaconRewardsPerShare witnessRewardsPerShare dcTransferRewardsPerShare : ℚ) :
    List (ℕ × IotReward) :=
  ((self.shares.map fun entry =>
      ({ hotspotKey := entry.1
         beaconAmount := computeRewards arith beaconRewardsPerShare entry.2.beaconShares
         witnessAmount := computeRewards arith witnessRewardsPerShare entry.2.witnessShares
         dcTransferAmount := computeRewards arith dcTransferRewardsPerShare entry.2.dcShares } :
        GatewayReward)).filter
    fun reward => 0 < reward.beaconAmount || 0 < reward.witnessAmount ||
      0 < reward.dcTransferAmount).map fun reward =>
    (wrappingAdd 64 (wrappingAdd 64 reward.dcTransferAmount reward.beaconAmount) reward.witnessAmount,
      .gatewayReward reward)

/-- `total_poc_dc_reward_allocation` of `reward_poc_and_dc`: the beacon, witness and
DC pools with no DC remainder. -/
def totalPocDcRewardAllocation (seconds : ℤ) : ℚ :=
  let pocTokens := getScheduledPocTokens arith seconds 0
  pocTokens.1 + pocTokens.2 + getScheduledDcTokens arith seconds

/-- The tail of `reward_poc_and_dc`: the gateway rewards, their amounts summed in a
`u64` as they are written, then the unallocated rest of the total. -/
def writeGatewayRewards (totalPocDcRewardAllocation : ℚ) (rewards : List (ℕ × IotReward)) :
    List IotReward :=
  let allocatedGatewayRewards := wrappingSum 64 (rewards.map (·.1))
  rewards.map (·.2) ++ writeUnallocatedReward .poc
    (unallocatedAmount totalPocDcRewardAllocation allocatedGatewayRewards)

/-- `reward_poc_and_dc`, from the shares `aggregate_reward_shares` returns. -/
def rewardPocAndDc (rewardShares : GatewayRewardShares) (seconds : ℤ) (iotPrice : ℚ) :
    List IotReward :=
  let gatewayShares : GatewayShares := ⟨rewardShares⟩
  let perShare := gatewayShares.calculateRewardsPerShare arith seconds iotPrice
  writeGatewayRewards (totalPocDcRewardAllocation arith seconds)
    (gatewayShares.intoIotRewardShares arith perShare.1 perShare.2.1 perShare.2.2)

/-- `reward_operational`: the whole operations pool, then what rounding left of it. -/
def rewardOperational (seconds : ℤ) : List IotReward :=
  let totalOperationalRewards := getScheduledOpsFundTokens arith seconds
  let allocatedOperationalRewards := (toU64 (roundDp 0 .toZero totalOperationalRewards)).getD 0
  .operationalReward allocatedOperationalRewards :: writeUnallocatedReward .operation
    (unallocatedAmount totalOperationalRewards allocatedOperationalRewards)

/-- `reward_oracles`: the whole oracle pool is unallocated. -/
def rewardOracles (seconds : ℤ) : List IotReward :=
  writeUnallocatedReward .oracle (unallocatedAmount (getScheduledOracleTokens arith seconds) 0)

end Rewarder

/-! ## Unallocated rewards -/

theorem writeUnallocatedReward_amount_sum (unallocatedType : UnallocatedRewardType) (amount : ℕ) :
    ((writeUnallocatedReward unallocatedType amount).map IotReward.amount).sum = amount := by
  unfold writeUnallocatedReward
  split
  · simp [IotReward.amount]
  · simp
    omega

/-- Below the total, the unallocated amount makes the allocation up to the floored total. -/
theorem unallocatedAmount_of_le {total : ℚ} {allocated : ℕ} (within : (allocated : ℚ) ≤ total)
    (fits : total < 2 ^ 64) : allocated + unallocatedAmount total allocated = ⌊total⌋₊ := by
  have nonneg : 0 ≤ total := le_trans (Nat.cast_nonneg _) within
  have allocatedLe : allocated ≤ ⌊total⌋₊ := Nat.le_floor within
  have floorLe : (⌊total⌋₊ : ℚ) ≤ total := Nat.floor_le nonneg
  have floorAbove : total < ⌊total⌋₊ + 1 := Nat.lt_floor_add_one total
  have floorFits : ⌊total⌋₊ < 2 ^ 64 := by
    have : (⌊total⌋₊ : ℚ) < 2 ^ 64 := floorLe.trans_lt fits
    exact_mod_cast this
  have rest : unallocatedAmount total allocated = ⌊total⌋₊ - allocated := by
    apply toU64_roundDp_toZero_of_mem _ (by omega)
    · rw [Nat.cast_sub allocatedLe]
      linarith
    · rw [Nat.cast_sub allocatedLe]
      linarith
  omega

/-- Above the total, the unallocated amount clamps to zero. -/
theorem unallocatedAmount_of_lt {total : ℚ} {allocated : ℕ} (overdrawn : total < allocated) :
    unallocatedAmount total allocated = 0 :=
  toU64_roundDp_toZero_of_neg (by linarith)

/-- What `reward_poc_and_dc` writes adds up to the floored total when the gateway
rewards stay within it, and to the gateways' own sum when they overdraw it. -/
theorem writeGatewayRewards_amount_sum (total : ℚ) (rewards : List (ℕ × IotReward))
    (paired : ∀ reward ∈ rewards, reward.1 = reward.2.amount)
    (fits : (rewards.map (·.1)).sum < 2 ^ 64) (totalFits : total < 2 ^ 64) :
    ((writeGatewayRewards total rewards).map IotReward.amount).sum =
      if (Nat.cast (rewards.map (·.1)).sum : ℚ) ≤ total then ⌊total⌋₊
      else (rewards.map (·.1)).sum := by
  have written : (rewards.map fun reward => reward.2.amount) = rewards.map (·.1) :=
    List.map_congr_left fun reward belongs => (paired reward belongs).symm
  simp only [writeGatewayRewards, wrappingSum_of_lt fits, List.map_append, List.map_map,
    List.sum_append, writeUnallocatedReward_amount_sum]
  have gateways : (rewards.map (IotReward.amount ∘ fun reward => reward.2)).sum =
      (rewards.map (·.1)).sum := congrArg List.sum written
  rw [gateways]
  split
  · exact unallocatedAmount_of_le (by assumption) totalFits
  · rw [unallocatedAmount_of_lt (not_le.mp (by assumption)), Nat.add_zero]

/-- One gateway paid 3 bones out of a total of 10: the unallocated 7 make it up. -/
theorem one_gateway_written_whole :
    ((writeGatewayRewards 10 [(3, .gatewayReward ⟨0, 1, 1, 1⟩)]).map IotReward.amount).sum =
      if (Nat.cast ([(3, IotReward.gatewayReward ⟨0, 1, 1, 1⟩)].map (·.1)).sum : ℚ) ≤ 10 then
        ⌊(10 : ℚ)⌋₊
      else ([(3, IotReward.gatewayReward ⟨0, 1, 1, 1⟩)].map (·.1)).sum :=
  writeGatewayRewards_amount_sum 10 _ (by simp [IotReward.amount]) (by norm_num) (by norm_num)

/-- Each gateway reward is paired with its own amount when that amount fits a `u64`. -/
theorem intoIotRewardShares_paired (arith : Arith) (self : GatewayShares)
    (beaconRewardsPerShare witnessRewardsPerShare dcTransferRewardsPerShare : ℚ) :
    ∀ reward ∈ self.intoIotRewardShares arith beaconRewardsPerShare witnessRewardsPerShare
      dcTransferRewardsPerShare, reward.2.amount < 2 ^ 64 → reward.1 = reward.2.amount := by
  intro reward belongs fits
  obtain ⟨gateway, -, rfl⟩ := List.mem_map.mp belongs
  simp only [IotReward.amount] at fits ⊢
  have inner : wrappingAdd 64 gateway.dcTransferAmount gateway.beaconAmount =
      gateway.dcTransferAmount + gateway.beaconAmount := wrappingAdd_of_lt (by omega)
  rw [inner, wrappingAdd_of_lt (by omega)]
  omega

/-- `reward_operational` never writes an unallocated reward: what rounding leaves of
the pool is always below one bone, or the pool is out of `u64` range on both reads. -/
theorem unallocatedAmount_whole (total : ℚ) :
    unallocatedAmount total ((toU64 (roundDp 0 .toZero total)).getD 0) = 0 := by
  rcases lt_or_ge total 0 with negative | nonneg
  · rw [toU64_roundDp_toZero_of_neg negative]
    exact toU64_roundDp_toZero_of_neg (by simpa using negative)
  rcases lt_or_ge total (2 ^ 64) with small | big
  · -- the pool is read as its floor, and the rest of it is below one bone
    have floorLe : (⌊total⌋₊ : ℚ) ≤ total := Nat.floor_le nonneg
    have floorAbove : total < ⌊total⌋₊ + 1 := Nat.lt_floor_add_one total
    have floorFits : ⌊total⌋₊ < 2 ^ 64 := by
      have : (⌊total⌋₊ : ℚ) < 2 ^ 64 := floorLe.trans_lt small
      exact_mod_cast this
    rw [toU64_roundDp_toZero_of_mem ⌊total⌋₊ floorFits floorLe floorAbove]
    exact toU64_roundDp_toZero_of_mem 0 (by norm_num) (by push_cast; linarith)
      (by push_cast; linarith)
  · rw [toU64_roundDp_toZero_of_ge big]
    exact toU64_roundDp_toZero_of_ge (by simpa using big)

theorem rewardOperational_eq (arith : Arith) (seconds : ℤ) :
    rewardOperational arith seconds =
      [.operationalReward ((toU64 (roundDp 0 .toZero (getScheduledOpsFundTokens arith seconds))).getD 0)] := by
  simp [rewardOperational, unallocatedAmount_whole, writeUnallocatedReward]

/-! ## A reward day

The pools of a day, pinned down to the crate's precision, and a day on which one
gateway is paid more than all three pools hold. -/

section Day

variable {arith : Arith}

theorem rewardsPerDay_mem (accurate : arith.Accurate) :
    rewardsPerDay arith ∈ Set.Icc 88797814207650.26 88797814207650.29 := by
  have perIot : arith.div 32500000000 366 ∈ Set.Icc 88797814.20765027 88797814.20765028 :=
    Set.Icc_subset_Icc (by norm_num) (by norm_num)
      (accurate.div_mem (Set.left_mem_Icc.mpr le_rfl) (by norm_num) (by norm_num) (by norm_num))
  exact Set.Icc_subset_Icc (by norm_num) (by norm_num)
    (accurate.mul_mem perIot (by norm_num) (by norm_num) (by norm_num))

/-- A day's share of a daily amount known within `[lo, hi]`: dividing by 86400 and
multiplying back loses less than a millionth of a bone. -/
theorem getTokensByDuration_day_mem (accurate : arith.Accurate) {tokens lo hi : ℚ}
    (inside : tokens ∈ Set.Icc lo hi) (atLeastOne : 1 ≤ lo) (bounded : hi ≤ 10 ^ 20) :
    getTokensByDuration arith tokens 86400 ∈ Set.Icc (lo - 1 / 10 ^ 6) (hi + 1 / 10 ^ 6) := by
  have loBounded : lo ≤ 10 ^ 20 := (inside.1.trans inside.2).trans bounded
  have perSecond := accurate.div_mem inside (by linarith) (show (0 : ℚ) < 86400 by norm_num)
    (by linarith)
  have day := accurate.mul_mem perSecond (by linarith)
    (show (0 : ℚ) ≤ ((86400 : ℤ) : ℚ) by norm_num) (by push_cast; linarith)
  have rounded : roundDp defaultPrec .midpointNearestEven
      (arith.mul (arith.div tokens 86400) ((86400 : ℤ) : ℚ)) ∈ Set.Icc _ _ :=
    roundDp_midpointNearestEven_mem day
  obtain ⟨low, high⟩ := rounded
  unfold getTokensByDuration
  push_cast at low high ⊢
  constructor
  · norm_num [defaultPrec] at low ⊢
    linarith
  · norm_num [defaultPrec] at high ⊢
    linarith

theorem getScheduledPocTokens_day_mem (accurate : arith.Accurate) :
    (getScheduledPocTokens arith 86400 0).1 ∈ Set.Icc 5327868852459.01 5327868852459.02 ∧
    (getScheduledPocTokens arith 86400 0).2 ∈ Set.Icc 21311475409836.05 21311475409836.08 := by
  have perDay := rewardsPerDay_mem accurate
  have beaconDaily : arith.mul (rewardsPerDay arith) beaconRewardsPerDayPercent ∈
      Set.Icc 5327868852459.015 5327868852459.018 :=
    Set.Icc_subset_Icc (by norm_num [beaconRewardsPerDayPercent])
      (by norm_num [beaconRewardsPerDayPercent])
      (accurate.mul_mem perDay (by norm_num) (by norm_num [beaconRewardsPerDayPercent])
        (by norm_num [beaconRewardsPerDayPercent]))
  have witnessDaily : arith.mul (rewardsPerDay arith) witnessRewardsPerDayPercent ∈
      Set.Icc 21311475409836.06 21311475409836.07 :=
    Set.Icc_subset_Icc (by norm_num [witnessRewardsPerDayPercent])
      (by norm_num [witnessRewardsPerDayPercent])
      (accurate.mul_mem perDay (by norm_num) (by norm_num [witnessRewardsPerDayPercent])
        (by norm_num [witnessRewardsPerDayPercent]))
  -- no DC remainder: its 20/80 shares are zero to the 28th decimal
  obtain ⟨beaconLow, beaconHigh⟩ := getTokensByDuration_day_mem accurate beaconDaily
    (by norm_num) (by norm_num)
  obtain ⟨witnessLow, witnessHigh⟩ := getTokensByDuration_day_mem accurate witnessDaily
    (by norm_num) (by norm_num)
  obtain ⟨beaconRestLow, beaconRestHigh⟩ := accurate.mul_zero_mem beaconDcRemainerPercent
  obtain ⟨witnessRestLow, witnessRestHigh⟩ := accurate.mul_zero_mem witnessDcRemainerPercent
  simp only [getScheduledPocTokens]
  refine ⟨⟨?_, ?_⟩, ⟨?_, ?_⟩⟩ <;> norm_num at * <;> linarith

theorem getScheduledDcTokens_day_mem (accurate : arith.Accurate) :
    getScheduledDcTokens arith 86400 ∈ Set.Icc 44398907103825.11 44398907103825.16 := by
  have dcDaily : arith.mul (rewardsPerDay arith) dataTransferRewardsPerDayPercent ∈
      Set.Icc 44398907103825.12 44398907103825.15 :=
    Set.Icc_subset_Icc (by norm_num [dataTransferRewardsPerDayPercent])
      (by norm_num [dataTransferRewardsPerDayPercent])
      (accurate.mul_mem (rewardsPerDay_mem accurate) (by norm_num)
        (by norm_num [dataTransferRewardsPerDayPercent])
        (by norm_num [dataTransferRewardsPerDayPercent]))
  exact Set.Icc_subset_Icc (by norm_num) (by norm_num)
    (getTokensByDuration_day_mem accurate dcDaily (by norm_num) (by norm_num))

/-- One share of a pool known within `[lo, hi]` earns the whole part of the pool. -/
theorem computeRewards_one_share (accurate : arith.Accurate) {total lo hi : ℚ} (k : ℕ)
    (inside : total ∈ Set.Icc lo hi) (low : (k : ℚ) + 1 / 10 ^ 6 ≤ lo)
    (high : hi + 1 / 10 ^ 6 < k + 1) (bounded : hi ≤ 10 ^ 20) (fits : k < 2 ^ 64) :
    computeRewards arith (rewardsPerShare arith total 1) 1 = k := by
  have loNonneg : 0 ≤ lo := le_trans (by positivity) low
  have quotient := accurate.div_mem inside loNonneg one_pos (by linarith)
  have perShare : roundDp defaultPrec .midpointNearestEven (arith.div total 1) ∈ Set.Icc _ _ :=
    roundDp_midpointNearestEven_mem quotient
  have product := accurate.mul_mem perShare (by norm_num [defaultPrec]; linarith) zero_le_one
    (by norm_num [defaultPrec]; linarith)
  obtain ⟨above, below⟩ := product
  unfold computeRewards rewardsPerShare
  rw [if_pos one_pos]
  simp only [defaultPrec] at above below ⊢
  norm_num at above below
  exact toU64_roundDp_toZero_of_mem k fits (by linarith) (by linarith)

/-- A day with one gateway holding one beacon share, one witness share and `2 ^ 62`
DC of data transfer, at an IOT price of `1000000` (one dollar). The beacon and
witness shares earn their whole pools. The DC are worth far more than the DC pool,
so the pool is shared out, and `pool / 2 ^ 62` rounds up at its 15th decimal: the
gateway's DC amount is 1891 bones above the floored pool. Its three amounts add up
to `71038251368011`, above the whole `total_poc_dc_reward_allocation`, and the
unallocated difference clamps to zero. -/
theorem gateway_rewards_exceed_poc_dc_pool (arith : Arith) (accurate : arith.Accurate) :
    totalPocDcRewardAllocation arith 86400 < 71038251366121 ∧
    rewardPocAndDc arith [(0, { beaconShares := 1, witnessShares := 1, dcShares := 2 ^ 62 })]
        86400 1000000 =
      [.gatewayReward ⟨0, 5327868852459, 21311475409836, 44398907105716⟩] := by
  obtain ⟨beaconIn, witnessIn⟩ := getScheduledPocTokens_day_mem accurate
  have dcIn := getScheduledDcTokens_day_mem accurate
  have totalBelow : totalPocDcRewardAllocation arith 86400 < 71038251366121 := by
    simp only [totalPocDcRewardAllocation]
    linarith [beaconIn.2, witnessIn.2, dcIn.2]
  refine ⟨totalBelow, ?_⟩
  have totals : GatewayShares.totalShares
      ⟨[(0, { beaconShares := 1, witnessShares := 1, dcShares := 2 ^ 62 })]⟩ = (1, 1, 2 ^ 62) := by
    simp [GatewayShares.totalShares]
  -- a bone costs a millionth of a dollar, so the DC are worth about `4.6e19` bones
  have perIot : arith.div 1000000 1000000 ∈ Set.Icc (99 / 100) (101 / 100) :=
    Set.Icc_subset_Icc (by norm_num) (by norm_num)
      (accurate.div_mem (Set.left_mem_Icc.mpr le_rfl) (by norm_num) (by norm_num) (by norm_num))
  have perBone : iotPriceToBones arith 1000000 ∈ Set.Icc (98 / 10 ^ 8) (102 / 10 ^ 8) :=
    Set.Icc_subset_Icc (by norm_num) (by norm_num)
      (accurate.div_mem perIot (by norm_num) (by norm_num) (by norm_num))
  have usdIn : arith.mul (2 ^ 62) dcUsdPrice ∈ Set.Icc 46116860184273 46116860184274 :=
    Set.Icc_subset_Icc (by norm_num [dcUsdPrice]) (by norm_num [dcUsdPrice])
      (accurate.mul_mem (Set.left_mem_Icc.mpr le_rfl) (by norm_num) (by norm_num [dcUsdPrice])
        (by norm_num [dcUsdPrice]))
  have bonesIn := accurate.div_mem_of_divisor usdIn (by norm_num) perBone (by norm_num)
    (by norm_num)
  have capped : getScheduledDcTokens arith 86400 < dcToIotBones arith (2 ^ 62) 1000000 := by
    calc getScheduledDcTokens arith 86400 ≤ 44398907103825.16 := dcIn.2
      _ < 46116860184273 / (102 / 10 ^ 8) * (1 - 1 / 10 ^ 27) - 1 / 10 ^ 28 := by norm_num
      _ ≤ arith.div (arith.mul (2 ^ 62) dcUsdPrice) (iotPriceToBones arith 1000000) := bonesIn.1
      _ ≤ dcToIotBones arith (2 ^ 62) 1000000 := le_roundDp_toPositiveInfinity
  -- `pool / 2 ^ 62 = 0.0000096274783075898…` rounds up at the 15th decimal
  have quotientIn : arith.div (getScheduledDcTokens arith 86400) (2 ^ 62) ∈
      Set.Icc 0.00000962747830755 0.0000096274783076 :=
    Set.Icc_subset_Icc (by norm_num) (by norm_num)
      (accurate.div_mem dcIn (by norm_num) (by norm_num) (by norm_num))
  have dcPerShare : rewardsPerShare arith (getScheduledDcTokens arith 86400) (2 ^ 62) =
      9627478308 / 10 ^ 15 := by
    rw [rewardsPerShare, if_pos (by norm_num),
      roundDp_midpointNearestEven_of_mem 9627478308 quotientIn (by norm_num [defaultPrec])
        (by norm_num [defaultPrec])]
    norm_num [defaultPrec]
  have perShare : GatewayShares.calculateRewardsPerShare arith
      ⟨[(0, { beaconShares := 1, witnessShares := 1, dcShares := 2 ^ 62 })]⟩ 86400 1000000 =
      (rewardsPerShare arith (getScheduledPocTokens arith 86400 0).1 1,
        rewardsPerShare arith (getScheduledPocTokens arith 86400 0).2 1, 9627478308 / 10 ^ 15) := by
    simp only [GatewayShares.calculateRewardsPerShare, totals, normalizeDcTransferRewards,
      if_neg (not_le.mpr capped), dcPerShare]
  have beaconAmount := computeRewards_one_share accurate 5327868852459 beaconIn (by norm_num)
    (by norm_num) (by norm_num) (by norm_num)
  have witnessAmount := computeRewards_one_share accurate 21311475409836 witnessIn (by norm_num)
    (by norm_num) (by norm_num) (by norm_num)
  -- `2 ^ 62 * 0.000009627478308 = 44398907105716.57`
  have dcAmount : computeRewards arith (9627478308 / 10 ^ 15) (2 ^ 62) = 44398907105716 := by
    obtain ⟨low, high⟩ := accurate.mul_mem (Set.left_mem_Icc.mpr (le_refl (9627478308 / 10 ^ 15)))
      (by norm_num) (show (0 : ℚ) ≤ 2 ^ 62 by norm_num) (by norm_num)
    exact toU64_roundDp_toZero_of_mem 44398907105716 (by norm_num)
      (by norm_num at low ⊢; linarith) (by norm_num at high ⊢; linarith)
  have allocated : wrappingSum 64 [wrappingAdd 64 (wrappingAdd 64 44398907105716 5327868852459)
      21311475409836] = 71038251368011 := by
    norm_num [wrappingSum, wrappingAdd]
  have unallocated :
      unallocatedAmount (totalPocDcRewardAllocation arith 86400) 71038251368011 = 0 :=
    unallocatedAmount_of_lt (by push_cast; linarith)
  simp only [rewardPocAndDc, perShare, GatewayShares.intoIotRewardShares, List.map_cons,
    List.map_nil, beaconAmount, witnessAmount, dcAmount]
  simp [writeGatewayRewards, allocated, unallocated, writeUnallocatedReward]

theorem gateway_rewards_exceed_poc_dc_pool_exactly :
    totalPocDcRewardAllocation Arith.exact 86400 < 71038251366121 ∧
    rewardPocAndDc Arith.exact
        [(0, { beaconShares := 1, witnessShares := 1, dcShares := 2 ^ 62 })] 86400 1000000 =
      [.gatewayReward ⟨0, 5327868852459, 21311475409836, 44398907105716⟩] :=
  gateway_rewards_exceed_poc_dc_pool Arith.exact Arith.exact_accurate

end Day

end HeliumOracles.IotVerifier

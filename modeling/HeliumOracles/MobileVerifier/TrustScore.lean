import Mathlib.Algebra.Order.BigOperators.Group.List
import HeliumOracles.Lib.Decimal
import HeliumOracles.MobileVerifier.CoveragePoints

/-!
# The location trust multiplier of a radio

Source: `mobile_verifier/src/heartbeats/mod.rs` (`HeartbeatReward::trust_score_multiplier`,
`RESTRICTIVE_MAX_DISTANCE`, and what `ValidatedHeartbeat::validate` stores for a WiFi
heartbeat).

`trust_score_multiplier` reads a row of `valid_radios.sql` (ValidRadios). Its sums of
Decimals are exact and its quotients are the crate's, rounded as `Arith.RoundsQuotients`
states. A division by zero panics, as does the unwrap of a missing array: the model returns
`none` for both, through `Arith.checkedDiv`. CoveragePoints divides exactly; with exact
division the two agree wherever the quotient is a Decimal (`trustScoreMultiplierWith_exact`).

`validate` stores a valid WiFi heartbeat with its distance to the asserted location and a
multiplier of 1 or 0.25; the others are invalid and never saved. The result
(`trust_score_multiplier_within_bounds`): for every row of the query, the multiplier is
returned next to a boosted hex and away from one, lies in `[0.25, 1]`, is 1 for a CBRS radio,
and is no larger next to a boosted hex.
-/
namespace HeliumOracles.MobileVerifier

open Lib.Decimal

/-- The score of one heartbeat next to a boosted hex: at most a quarter beyond the
restrictive distance. -/
def restrictedTrustScore (distance : Int) (ts : ℚ) : ℚ :=
  min (if distance > restrictiveMaxDistance then 1 / 4 else 1) ts

/-- `HeartbeatReward::trust_score_multiplier`, with the crate's division: `none` where the
code panics. -/
def HeartbeatReward.trustScoreMultiplierWith (arith : Arith) (self : HeartbeatReward)
    (overlapsBoosted : Bool) : Option ℚ :=
  if self.cbsdId.isSome then some 1
  else if overlapsBoosted then do
    let distances ← self.distancesToAsserted
    let numDistances : ℚ := distances.length
    arith.checkedDiv (((distances.zip self.trustScoreMultipliers).map fun pair =>
      restrictedTrustScore pair.1 pair.2).sum) numDistances
  else
    let numTrustScores : ℚ := self.trustScoreMultipliers.length
    arith.checkedDiv self.trustScoreMultipliers.sum numTrustScores

/-- With exact division, the mean of `n` values is the one CoveragePoints takes, wherever that
one is a Decimal. -/
theorem checkedDiv_exact_mean {sum : ℚ} {n : ℕ}
    (inRange : ∀ mean, (if n = 0 then none else some (sum / n)) = some mean → |mean| < 2 ^ 96) :
    Arith.exact.checkedDiv sum n = if n = 0 then none else some (sum / n) := by
  by_cases empty : n = 0
  · simp [Arith.checkedDiv, empty]
  rw [if_neg empty] at inRange ⊢
  rw [Arith.checkedDiv_exact (inRange _ rfl), if_neg (by exact_mod_cast empty)]

/-- With exact division, the multiplier is the one `aggregate_points` reads (CoveragePoints),
wherever that one is within the range of a Decimal. -/
theorem HeartbeatReward.trustScoreMultiplierWith_exact (reward : HeartbeatReward)
    (overlapsBoosted : Bool)
    (inRange : ∀ multiplier, reward.trustScoreMultiplier overlapsBoosted = some multiplier →
      |multiplier| < 2 ^ 96) :
    reward.trustScoreMultiplierWith Arith.exact overlapsBoosted =
      reward.trustScoreMultiplier overlapsBoosted := by
  unfold HeartbeatReward.trustScoreMultiplierWith HeartbeatReward.trustScoreMultiplier at *
  by_cases cbrs : reward.cbsdId.isSome
  · simp only [cbrs, if_true]
  simp only [cbrs, Bool.false_eq_true, if_false] at inRange ⊢
  cases overlapsBoosted with
  | true =>
    cases distancesIs : reward.distancesToAsserted with
    | none => simp
    | some distances =>
      simp only [if_true, Option.bind_eq_bind, Option.bind_some, distancesIs,
        restrictedTrustScore] at inRange ⊢
      exact checkedDiv_exact_mean inRange
  | false =>
    simp only [Bool.false_eq_true, if_false] at inRange ⊢
    exact checkedDiv_exact_mean inRange

/-- The multipliers `validate` stores for a valid WiFi heartbeat. -/
def StoredTrustScore (ts : ℚ) : Prop := ts = 1 / 4 ∨ ts = 1

section Scores

variable {arith : Arith}

theorem StoredTrustScore.mem {ts : ℚ} (stored : StoredTrustScore ts) : 1 / 4 ≤ ts ∧ ts ≤ 1 := by
  rcases stored with rfl | rfl <;> norm_num

theorem restrictedTrustScore_mem (distance : Int) {ts : ℚ} (stored : StoredTrustScore ts) :
    1 / 4 ≤ restrictedTrustScore distance ts ∧ restrictedTrustScore distance ts ≤ ts := by
  have atLeast := stored.mem.1
  refine ⟨le_min ?_ atLeast, min_le_right _ _⟩
  split <;> norm_num

/-- A mean of stored scores, each first capped or not, is a quarter at least and at most the
mean of the scores. -/
theorem sum_restrictedTrustScore_mem {rows : List WifiHeartbeat}
    (stored : ∀ row ∈ rows, StoredTrustScore row.locationTrustScoreMultiplier) :
    rows.length * (1 / 4 : ℚ) ≤
        (rows.map fun row => restrictedTrustScore row.distanceToAsserted
          row.locationTrustScoreMultiplier).sum ∧
      (rows.map fun row => restrictedTrustScore row.distanceToAsserted
          row.locationTrustScoreMultiplier).sum ≤
        (rows.map (·.locationTrustScoreMultiplier)).sum ∧
      (rows.map (·.locationTrustScoreMultiplier)).sum ≤ rows.length * 1 := by
  have quarters := List.card_nsmul_le_sum
    (rows.map fun row => restrictedTrustScore row.distanceToAsserted
      row.locationTrustScoreMultiplier) (1 / 4) (by
        simp only [List.mem_map]
        rintro _ ⟨row, present, rfl⟩
        exact (restrictedTrustScore_mem row.distanceToAsserted (stored row present)).1)
  have capped := List.sum_le_sum fun row present =>
    (restrictedTrustScore_mem row.distanceToAsserted (stored row present)).2
  have ones := List.sum_le_card_nsmul (rows.map (·.locationTrustScoreMultiplier)) 1 (by
    simp only [List.mem_map]
    rintro _ ⟨row, present, rfl⟩
    exact (stored row present).mem.2)
  simp only [List.length_map, nsmul_eq_mul] at quarters ones
  exact ⟨quarters, capped, ones⟩

/-- A WiFi row of the query, over stored scores: both multipliers are returned, and the one
next to a boosted hex is at least a quarter and at most the other, which is at most one. -/
theorem trustScoreMultiplierWith_wifiRow (rounds : arith.RoundsQuotients) (minCount hotspotKey : Nat)
    (cellType : CellType) {rows : List WifiHeartbeat} (nonempty : rows ≠ [])
    (stored : ∀ row ∈ rows, StoredTrustScore row.locationTrustScoreMultiplier)
    (uuid : LatestUuid) :
    ∃ boosted unboosted,
      (HeartbeatReward.ofRows (wifiRow minCount hotspotKey cellType rows) uuid).trustScoreMultiplierWith
          arith true = some boosted ∧
        (HeartbeatReward.ofRows (wifiRow minCount hotspotKey cellType rows)
          uuid).trustScoreMultiplierWith arith false = some unboosted ∧
        1 / 4 ≤ boosted ∧ boosted ≤ unboosted ∧ unboosted ≤ 1 := by
  set ordered := rows.insertionSort fun a b => a.truncatedTimestamp ≤ b.truncatedTimestamp
  have sameRows : ordered.Perm rows := List.perm_insertionSort _ rows
  have orderedStored : ∀ row ∈ ordered, StoredTrustScore row.locationTrustScoreMultiplier :=
    fun row present => stored row (sameRows.subset present)
  have counted : (0 : ℚ) < ordered.length := by
    rw [sameRows.length_eq]
    exact_mod_cast List.length_pos_iff.mpr nonempty
  obtain ⟨quarters, capped, ones⟩ := sum_restrictedTrustScore_mem orderedStored
  have zipped : ((ordered.map (·.distanceToAsserted)).zip
      (ordered.map (·.locationTrustScoreMultiplier))).map (fun pair =>
        restrictedTrustScore pair.1 pair.2) =
      ordered.map fun row => restrictedTrustScore row.distanceToAsserted
        row.locationTrustScoreMultiplier := by
    rw [List.zip_map', List.map_map]
    rfl
  have exactQuarter : arith.div (ordered.length * (1 / 4)) ordered.length = 1 / 4 := by
    rw [rounds.div_of_quarters 1 counted.ne' (by norm_num) (by field_simp; norm_num)]
    norm_num
  have exactOne : arith.div (ordered.length * 1) ordered.length = 1 := by
    rw [rounds.div_of_quarters 4 counted.ne' (by norm_num) (by field_simp; norm_num)]
    norm_num
  refine ⟨_, _, ?_, ?_, ?_, rounds.div_mono counted capped, ?_⟩
  · simp only [HeartbeatReward.trustScoreMultiplierWith, HeartbeatReward.ofRows, wifiRow,
      Option.isSome_none, if_true, Option.bind_eq_bind, Option.bind_some, List.length_map]
    rw [zipped]
    exact Arith.checkedDiv_of_le (by linarith) (by linarith) counted
  · simp only [HeartbeatReward.trustScoreMultiplierWith, HeartbeatReward.ofRows, wifiRow,
      Option.isSome_none, List.length_map]
    exact Arith.checkedDiv_of_le (by linarith) (by linarith) counted
  · rw [← exactQuarter]
    exact rounds.div_mono counted quarters
  · rw [← exactOne]
    exact rounds.div_mono counted ones

end Scores

theorem trust_score_multiplier_within_bounds {arith : Arith} (rounds : arith.RoundsQuotients)
    {epoch : Epoch} {minCount : Nat} {cbrs : List CbrsHeartbeat} {wifi : List WifiHeartbeat}
    (stored : ∀ row ∈ wifi, StoredTrustScore row.locationTrustScoreMultiplier)
    {reward : HeartbeatReward} (listed : reward ∈ validRadios epoch minCount cbrs wifi) :
    ∃ boosted unboosted, reward.trustScoreMultiplierWith arith true = some boosted ∧
      reward.trustScoreMultiplierWith arith false = some unboosted ∧
      1 / 4 ≤ boosted ∧ boosted ≤ unboosted ∧ unboosted ≤ 1 ∧
      (reward.cbsdId.isSome → boosted = 1 ∧ unboosted = 1) := by
  cases cbsd : reward.cbsdId with
  | some cbsdId =>
    have one : ∀ overlapsBoosted, reward.trustScoreMultiplierWith arith overlapsBoosted = some 1 := by
      intro overlapsBoosted
      simp [HeartbeatReward.trustScoreMultiplierWith, cbsd]
    exact ⟨1, 1, one true, one false, by norm_num, le_rfl, le_rfl, fun _ => ⟨rfl, rfl⟩⟩
  | none =>
    obtain ⟨nonempty, -, latest, -, same⟩ := (mem_validRadios_wifi cbsd).mp listed
    have hoursStored : ∀ row ∈ wifiHours (inPeriod (·.truncatedTimestamp) epoch wifi)
        reward.hotspotKey reward.cellType, StoredTrustScore row.locationTrustScoreMultiplier := by
      intro row present
      simp only [wifiHours, inPeriod, List.mem_filter] at present
      exact stored row present.1.1
    obtain ⟨boosted, unboosted, boostedIs, unboostedIs, low, le, high⟩ :=
      trustScoreMultiplierWith_wifiRow rounds minCount reward.hotspotKey reward.cellType nonempty
        hoursStored ⟨reward.hotspotKey, none, latest.coverageObject⟩
    rw [← same] at boostedIs unboostedIs
    exact ⟨boosted, unboosted, boostedIs, unboostedIs, low, le, high, by simp⟩

/-- One WiFi hotspot with one hour in the period, 40 m from its asserted location. -/
theorem trust_score_of_one_wifi_hour :
    ∃ boosted unboosted,
      (HeartbeatReward.mk 7 none .novaGenericWifiIndoor (some [40]) [1] 3).trustScoreMultiplierWith
          Arith.exact true = some boosted ∧
        (HeartbeatReward.mk 7 none .novaGenericWifiIndoor (some [40]) [1] 3).trustScoreMultiplierWith
          Arith.exact false = some unboosted ∧
        1 / 4 ≤ boosted ∧ boosted ≤ unboosted ∧ unboosted ≤ 1 ∧
        ((HeartbeatReward.mk 7 none .novaGenericWifiIndoor (some [40]) [1] 3).cbsdId.isSome →
          boosted = 1 ∧ unboosted = 1) :=
  trust_score_multiplier_within_bounds Arith.exact_roundsQuotients
    (by simp [StoredTrustScore])
    (by decide : HeartbeatReward.mk 7 none .novaGenericWifiIndoor (some [40]) [1] 3 ∈
      validRadios ⟨0, 3600⟩ 1 [] [⟨7, .novaGenericWifiIndoor, 0, 3, 1, 40⟩])

end HeliumOracles.MobileVerifier

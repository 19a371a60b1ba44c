import Mathlib.Algebra.Order.Field.Rat
import HeliumOracles.Lib.Result
import HeliumOracles.MobileVerifier.ValidRadios
import HeliumOracles.MobileVerifier.CoveredHexes

/-!
# Coverage points of the valid radios

Model of `CoveragePoints::aggregate_points` (`mobile_verifier/src/reward_shares.rs`)
over the rows of `valid_radios.sql`. For each row it fetches the radio's seniority
(`fetch_seniority`), streams the hexes of the row's coverage object
(`covered_hex_stream`, `coverage.rs`), pushes them into `CoveredHexes`, and stores a
`RadioPoints` for the radio under its hotspot, keyed by the radio's `cbsd_id` (so
every WiFi row of a hotspot lands on the one key `None`). A second loop credits each
coverage reward to the `RadioPoints` of its radio.

The tables are lists of rows. `fetch_seniority` is `fetch_one` and fails when the radio
has no seniority row; a `Decimal` division by zero and `unwrap` on `None` panic: each
of these makes the model return `none`. The `DELETE` of older seniority rows in
`covered_hex_stream` is left out: it only removes rows older than the one every later
`fetch_seniority` of the same radio returns. Speed test averages enter as the reward
multiplier of each hotspot's average, if it has one.
-/
namespace HeliumOracles.MobileVerifier

open Lib.AssocMap Lib.Relational Lib.Result
open scoped List

/-- `HeartbeatReward::key`. -/
def HeartbeatReward.key (heartbeat : HeartbeatReward) : OwnedKeyType :=
  match heartbeat.cbsdId with
  | some cbsdId => .cbrs cbsdId
  | none => .wifi heartbeat.hotspotKey

def restrictiveMaxDistance : Int := 30

/-- `HeartbeatReward::trust_score_multiplier`: `1` for a CBRS radio; for a WiFi radio the
mean of its hours' trust scores, each capped at `1/4` when the hour was more than
`RESTRICTIVE_MAX_DISTANCE` from the asserted location and the radio covers a boosted
hex. -/
def HeartbeatReward.trustScoreMultiplier (heartbeat : HeartbeatReward) (overlapsBoosted : Bool) :
    Option ℚ :=
  if heartbeat.cbsdId.isSome then some 1
  else if overlapsBoosted then do
    let distances ← heartbeat.distancesToAsserted
    if distances.length = 0 then none
    else some (((distances.zip heartbeat.trustScoreMultipliers).map fun (distance, ts) =>
      min (if distance > restrictiveMaxDistance then 1 / 4 else 1) ts).sum / distances.length)
  else if heartbeat.trustScoreMultipliers.length = 0 then none
  else some (heartbeat.trustScoreMultipliers.sum / heartbeat.trustScoreMultipliers.length)

/-- A row of `coverage_objects`, with the columns `covered_hex_stream` reads. -/
structure CoverageObject where
  uuid : Nat
  radioKey : OwnedKeyType
  indoor : Bool
deriving DecidableEq, Repr

/-- A row of `hexes`. -/
structure HexRow where
  uuid : Nat
  hex : Nat
  signalLevel : SignalLevel
  signalPower : Int
deriving DecidableEq, Repr

/-- A row of `seniority`, with the columns `aggregate_points` reads. -/
structure Seniority where
  radioKey : OwnedKeyType
  seniorityTs : Int
  insertedAt : Int
deriving DecidableEq, Repr

/-- The tables `aggregate_points` reads through `CoveredHexStream`. -/
structure CoverageTables where
  coverageObjects : List CoverageObject
  hexes : List HexRow
  seniority : List Seniority
deriving DecidableEq, Repr

/-- `fetch_seniority`: the radio's seniority row inserted last by the period's end. -/
def CoverageTables.fetchSeniority (tables : CoverageTables) (key : OwnedKeyType)
    (periodEnd : Int) : Option Seniority :=
  latestBy (·.insertedAt)
    (tables.seniority.filter fun row => row.radioKey = key ∧ row.insertedAt ≤ periodEnd)

/-- `covered_hex_stream`: the hexes of the radio's coverage object, claimed at the
radio's seniority. -/
def CoverageTables.coveredHexStream (tables : CoverageTables) (key : OwnedKeyType)
    (coverageObj : Nat) (seniority : Seniority) : List HexCoverage :=
  (tables.coverageObjects.filter fun co => co.radioKey = key ∧ co.uuid = coverageObj).flatMap
    fun co => (tables.hexes.filter (·.uuid = co.uuid)).map fun h =>
      ⟨h.hex, co.indoor, co.radioKey, h.signalLevel, h.signalPower, seniority.seniorityTs⟩

/-- `RadioPoints`. -/
structure RadioPoints where
  locationTrustScoreMultiplier : ℚ
  coverageObject : Nat
  seniority : Int
  points : ℚ
  boostedHexes : List BoostedHex
deriving DecidableEq, Repr

def RadioPoints.new (locationTrustScoreMultiplier : ℚ) (coverageObject : Nat) (seniority : Int) :
    RadioPoints :=
  ⟨locationTrustScoreMultiplier, coverageObject, seniority, 0, []⟩

/-- `HotspotPoints`. -/
structure HotspotPoints where
  speedtestMultiplier : ℚ
  radioPoints : Map (Option Nat) RadioPoints
deriving DecidableEq, Repr

def HotspotPoints.new (speedtestMultiplier : ℚ) : HotspotPoints := ⟨speedtestMultiplier, []⟩

/-- `HotspotPoints::add_coverage_entry`; the `unwrap` of the radio's points fails when
the hotspot holds no points for the radio. A WiFi radio whose trust score is below `1`
keeps no boost (HIP-93). -/
def HotspotPoints.addCoverageEntry (self : HotspotPoints) (radioKey : OwnedKeyType) (points : ℚ)
    (boostedHexInfo : BoostedHex) : Option HotspotPoints := do
  let rp ← get self.radioPoints radioKey.intoCbsdId
  let finalBoostInfo : BoostedHex :=
    if radioKey.isWifi ∧ rp.locationTrustScoreMultiplier < 1 then ⟨boostedHexInfo.location, 1⟩
    else boostedHexInfo
  let updated : RadioPoints :=
    { rp with
      points := rp.points + points * finalBoostInfo.multiplier
      boostedHexes := rp.boostedHexes ++ [finalBoostInfo] }
  let radioPoints := modifyEntry radioKey.intoCbsdId updated (fun _ => updated) self.radioPoints
  pure { self with radioPoints := radioPoints }

/-- `CoveragePoints`. -/
structure CoveragePoints where
  coveragePoints : Map Nat HotspotPoints
deriving DecidableEq, Repr

/-- The body of the first loop of `aggregate_points`: one row of `valid_radios`. -/
def aggregateHeartbeat (tables : CoverageTables) (speedtests : Nat → Option ℚ)
    (boostedHexes : BoostedHexes) (rewardPeriod : Epoch)
    (acc : CoveredHexes × Map Nat HotspotPoints) (heartbeat : HeartbeatReward) :
    Option (CoveredHexes × Map Nat HotspotPoints) := do
  let speedtestMultiplier := (speedtests heartbeat.hotspotKey).getD 0
  let seniority ← tables.fetchSeniority heartbeat.key rewardPeriod.stop
  let coveredHexStream := tables.coveredHexStream heartbeat.key heartbeat.coverageObject seniority
  let (coveredHexes, overlapsBoosted) :=
    acc.1.aggregateCoverage heartbeat.hotspotKey boostedHexes coveredHexStream
  let trust ← heartbeat.trustScoreMultiplier overlapsBoosted
  let radio := RadioPoints.new trust heartbeat.coverageObject seniority.seniorityTs
  -- `entry(hotspot).or_insert_with(..).radio_points.insert(cbsd_id, ..)`: a second row
  -- of the same radio overwrites the first
  let insertRadio := fun (hp : HotspotPoints) =>
    { hp with radioPoints := (modifyEntry heartbeat.key.intoCbsdId radio (fun _ => radio)
      hp.radioPoints) }
  pure (coveredHexes,
    modifyEntry heartbeat.hotspotKey (HotspotPoints.new speedtestMultiplier) insertRadio acc.2)

/-- The first loop of `aggregate_points`, over the rows of `valid_radios`. -/
def aggregateHeartbeats (tables : CoverageTables) (speedtests : Nat → Option ℚ)
    (boostedHexes : BoostedHexes) (rewardPeriod : Epoch) (heartbeats : List HeartbeatReward) :
    Option (CoveredHexes × Map Nat HotspotPoints) :=
  heartbeats.foldlM (aggregateHeartbeat tables speedtests boostedHexes rewardPeriod) ({}, [])

/-- The body of the second loop: a coverage reward credited to its radio; the `unwrap`
of the hotspot's points fails when it has none. -/
def creditCoverageReward (coveragePoints : Map Nat HotspotPoints) (reward : CoverageReward) :
    Option (Map Nat HotspotPoints) := do
  let hotspotPoints ← get coveragePoints reward.hotspot
  let updated ← hotspotPoints.addCoverageEntry reward.radioKey reward.points reward.boostedHexInfo
  pure (modifyEntry reward.hotspot updated (fun _ => updated) coveragePoints)

/-- `CoveragePoints::aggregate_points`. -/
def CoveragePoints.aggregatePoints (tables : CoverageTables) (speedtests : Nat → Option ℚ)
    (boostedHexes : BoostedHexes) (rewardPeriod : Epoch) (heartbeats : List HeartbeatReward) :
    Option CoveragePoints := do
  let (coveredHexes, coveragePoints) ←
    aggregateHeartbeats tables speedtests boostedHexes rewardPeriod heartbeats
  let coveragePoints ← (coveredHexes.intoCoverageRewards boostedHexes rewardPeriod.start).foldlM
    creditCoverageReward coveragePoints
  pure ⟨coveragePoints⟩

/-! ## Which radios hold the ranked slots -/

/-- The hex and radio of each hex of a coverage object of a radio. -/
def CoverageTables.coveredKeys (tables : CoverageTables) (key : OwnedKeyType) (coverageObj : Nat) :
    List (Nat × OwnedKeyType) :=
  (tables.coverageObjects.filter fun co => co.radioKey = key ∧ co.uuid = coverageObj).flatMap
    fun co => (tables.hexes.filter (·.uuid = co.uuid)).map fun h => (h.hex, co.radioKey)

/-- The hexes and radio that `covered_hex_stream` yields do not depend on the seniority. -/
theorem CoverageTables.coveredHexStream_keys (tables : CoverageTables) (key : OwnedKeyType)
    (coverageObj : Nat) (seniority : Seniority) :
    (tables.coveredHexStream key coverageObj seniority).map HexCoverage.key =
      tables.coveredKeys key coverageObj := by
  simp only [coveredHexStream, coveredKeys, List.map_flatMap, List.map_map]
  rfl

theorem CoverageTables.radio_of_mem_coveredKeys {tables : CoverageTables} {key : OwnedKeyType}
    {coverageObj : Nat} {pair : Nat × OwnedKeyType} (listed : pair ∈ tables.coveredKeys key coverageObj) :
    pair.2 = key := by
  simp only [coveredKeys, List.mem_flatMap, List.mem_filter, List.mem_map, decide_eq_true_eq] at listed
  obtain ⟨co, ⟨-, sameKey, -⟩, h, -, rfl⟩ := listed
  exact sameKey

/-- Under the keys of `coverage_objects` (`uuid`) and of `hexes` (`uuid, hex`), a coverage
object names each of its hexes once. -/
theorem CoverageTables.coveredKeys_nodup {tables : CoverageTables}
    (objectsKeyed : (tables.coverageObjects.map (·.uuid)).Nodup)
    (hexesKeyed : (tables.hexes.map fun h => (h.uuid, h.hex)).Nodup) (key : OwnedKeyType)
    (coverageObj : Nat) : (tables.coveredKeys key coverageObj).Nodup := by
  unfold coveredKeys
  rw [List.nodup_flatMap]
  constructor
  · -- the hexes of one coverage object are distinct hexes
    intro co _
    refine List.Nodup.map_on ?_ ((hexesKeyed.of_map _).filter _)
    intro first firstIn second secondIn same
    simp only [List.mem_filter, decide_eq_true_eq] at firstIn secondIn
    simp only [Prod.mk.injEq, and_true] at same
    exact List.inj_on_of_nodup_map hexesKeyed firstIn.1 secondIn.1
      (by rw [firstIn.2, secondIn.2, same])
  · -- the filter keeps at most one coverage object, the one with the row's `uuid`
    have distinctUuids : ((tables.coverageObjects.filter fun co =>
        co.radioKey = key ∧ co.uuid = coverageObj).map (·.uuid)).Nodup :=
      objectsKeyed.sublist (List.filter_sublist.map _)
    refine (List.pairwise_map.mp distinctUuids).imp_of_mem fun firstIn secondIn differ => ?_
    simp only [List.mem_filter, decide_eq_true_eq] at firstIn secondIn
    exact absurd (firstIn.2.2.trans secondIn.2.2.symm) differ

/-- Rows of distinct radios stream distinct hex and radio pairs. -/
theorem coveredKeys_flatMap_nodup {tables : CoverageTables} {heartbeats : List HeartbeatReward}
    (distinctRadios : (heartbeats.map HeartbeatReward.key).Nodup)
    (objectsKeyed : (tables.coverageObjects.map (·.uuid)).Nodup)
    (hexesKeyed : (tables.hexes.map fun h => (h.uuid, h.hex)).Nodup) :
    (heartbeats.flatMap fun heartbeat =>
      tables.coveredKeys heartbeat.key heartbeat.coverageObject).Nodup := by
  rw [List.nodup_flatMap]
  refine ⟨fun heartbeat _ => CoverageTables.coveredKeys_nodup objectsKeyed hexesKeyed _ _, ?_⟩
  refine (List.pairwise_map.mp distinctRadios).imp fun differ => ?_
  intro pair inFirst inSecond
  exact differ ((CoverageTables.radio_of_mem_coveredKeys inFirst).symm.trans
    (CoverageTables.radio_of_mem_coveredKeys inSecond))

section Aggregation

variable {tables : CoverageTables} {speedtests : Nat → Option ℚ} {boostedHexes : BoostedHexes}
  {rewardPeriod : Epoch}

/-- One row pushes the hexes of its coverage object, under its radio. -/
theorem aggregateHeartbeat_coverageKeys {acc after : CoveredHexes × Map Nat HotspotPoints}
    {heartbeat : HeartbeatReward}
    (step : aggregateHeartbeat tables speedtests boostedHexes rewardPeriod acc heartbeat = some after) :
    after.1.coverageKeys ~
      acc.1.coverageKeys ++ tables.coveredKeys heartbeat.key heartbeat.coverageObject := by
  simp only [aggregateHeartbeat, Option.bind_eq_bind, Option.bind_eq_some_iff, Option.pure_def,
    Option.some.injEq] at step
  obtain ⟨seniority, -, trust, -, rfl⟩ := step
  rw [← tables.coveredHexStream_keys heartbeat.key heartbeat.coverageObject seniority]
  exact acc.1.coverageKeys_aggregateCoverage _ _ _

/-- The first loop of `aggregate_points` pushes the hexes of every row's coverage object. -/
theorem aggregateHeartbeats_coverageKeys {heartbeats : List HeartbeatReward}
    {result : CoveredHexes × Map Nat HotspotPoints}
    (aggregated : aggregateHeartbeats tables speedtests boostedHexes rewardPeriod heartbeats = some result) :
    result.1.coverageKeys ~ heartbeats.flatMap fun heartbeat =>
      tables.coveredKeys heartbeat.key heartbeat.coverageObject := by
  have run := foldlM_option_invariant
    (fun done (acc : CoveredHexes × Map Nat HotspotPoints) => acc.1.coverageKeys ~
      done.flatMap fun heartbeat => tables.coveredKeys heartbeat.key heartbeat.coverageObject)
    (aggregateHeartbeat tables speedtests boostedHexes rewardPeriod)
    (fun done acc heartbeat after before step => by
      rw [List.flatMap_append, List.flatMap_singleton]
      exact (aggregateHeartbeat_coverageKeys step).trans (before.append_right _))
    heartbeats [] ({}, []) result (by simp [CoveredHexes.coverageKeys, outdoorKeys, indoorKeys])
    aggregated
  simpa using run

end Aggregation

/-- When the rows of `valid_radios` name each radio once and the coverage tables keep
their keys, no radio holds two ranked slots of a hex: the rewards of
`into_coverage_rewards` name each hex and radio at most once. -/
theorem coverage_ranked_once {tables : CoverageTables} {speedtests : Nat → Option ℚ}
    {boostedHexes : BoostedHexes} {rewardPeriod : Epoch} {heartbeats : List HeartbeatReward}
    {result : CoveredHexes × Map Nat HotspotPoints}
    (distinctRadios : (heartbeats.map HeartbeatReward.key).Nodup)
    (objectsKeyed : (tables.coverageObjects.map (·.uuid)).Nodup)
    (hexesKeyed : (tables.hexes.map fun h => (h.uuid, h.hex)).Nodup)
    (aggregated : aggregateHeartbeats tables speedtests boostedHexes rewardPeriod heartbeats =
      some result) :
    ((result.1.intoCoverageRewards boostedHexes rewardPeriod.start).map CoverageReward.key).Nodup := by
  have stored : result.1.coverageKeys.Nodup :=
    (aggregateHeartbeats_coverageKeys aggregated).nodup_iff.mpr
      (coveredKeys_flatMap_nodup distinctRadios objectsKeyed hexesKeyed)
  exact nodup_of_subperm (result.1.rewardKeys_subperm _ _) stored

/-! ## A WiFi hotspot that moves outdoors within the day -/

/-- Twelve hourly heartbeats of a WiFi hotspot from hour `first` on, with one cell type and
one coverage object, at the asserted location with full trust. -/
def hourlyWifiHeartbeats (hotspotKey : Nat) (cellType : CellType) (coverageObject first : Nat) :
    List WifiHeartbeat :=
  (List.range 12).map fun hour =>
    ⟨hotspotKey, cellType, ((first + hour) * 3600 : Nat), coverageObject, 1, 0⟩

def oneDay : Epoch := ⟨0, 86400⟩

/-- Coverage objects `5` (indoor) and `7` (outdoor) of hotspot `1` and `8` (outdoor) of
hotspot `2`, each covering hex `100`; hotspot `1` has the stronger signal. -/
def twoHotspotTables : CoverageTables where
  coverageObjects := [⟨5, .wifi 1, true⟩, ⟨7, .wifi 1, false⟩, ⟨8, .wifi 2, false⟩]
  hexes := [⟨5, 100, .high, -70⟩, ⟨7, 100, .high, -70⟩, ⟨8, 100, .high, -80⟩]
  seniority := [⟨.wifi 1, 0, 0⟩, ⟨.wifi 2, 0, 0⟩]

def noBoostedHexes : BoostedHexes := ⟨fun _ => false, fun _ _ => none⟩

/-- Hotspot `1` heartbeats twelve hours indoors, then twelve hours outdoors; hotspot `2`
heartbeats outdoors for twelve hours. -/
def movedOutdoorsRows : List HeartbeatReward :=
  validRadios oneDay minimumHeartbeatCount []
    (hourlyWifiHeartbeats 1 .novaGenericWifiIndoor 5 0 ++
      hourlyWifiHeartbeats 1 .novaGenericWifiOutdoor 7 12 ++
      hourlyWifiHeartbeats 2 .novaGenericWifiOutdoor 8 0)

/-- The query lists hotspot `1` twice, once per cell type, both times with its latest
(outdoor) coverage object; `aggregate_points` then pushes that coverage twice, hotspot
`1` takes the first two ranked slots of hex `100`, and its one `RadioPoints` collects
`16 + 8` points while hotspot `2` drops to the third slot. -/
theorem wifi_radio_ranked_twice :
    (movedOutdoorsRows.filter (·.hotspotKey = 1)).length = 2 ∧
    (aggregateHeartbeats twoHotspotTables (fun _ => some 1) noBoostedHexes oneDay
        movedOutdoorsRows).map (fun aggregated =>
      ((aggregated.1.intoCoverageRewards noBoostedHexes oneDay.start).map
        CoverageReward.key).count (100, .wifi 1)) = some 2 ∧
    ((CoveragePoints.aggregatePoints twoHotspotTables (fun _ => some 1) noBoostedHexes oneDay
        movedOutdoorsRows).bind fun points => (get points.coveragePoints 1).bind fun hotspot =>
      (get hotspot.radioPoints none).map (·.points)) = some 24 := by
  decide +kernel

/-- Hotspot `1` heartbeats outdoors all day and hotspot `2` for twelve hours. -/
def steadyOutdoorsRows : List HeartbeatReward :=
  validRadios oneDay minimumHeartbeatCount []
    (hourlyWifiHeartbeats 1 .novaGenericWifiOutdoor 7 0 ++
      hourlyWifiHeartbeats 1 .novaGenericWifiOutdoor 7 12 ++
      hourlyWifiHeartbeats 2 .novaGenericWifiOutdoor 8 0)

theorem steady_radios_ranked_once :
    ∃ result, aggregateHeartbeats twoHotspotTables (fun _ => some 1) noBoostedHexes oneDay
        steadyOutdoorsRows = some result ∧
      ((result.1.intoCoverageRewards noBoostedHexes oneDay.start).map CoverageReward.key).Nodup := by
  have found : (aggregateHeartbeats twoHotspotTables (fun _ => some 1) noBoostedHexes oneDay
      steadyOutdoorsRows).isSome := by decide +kernel
  obtain ⟨result, aggregated⟩ := Option.isSome_iff_exists.mp found
  exact ⟨result, aggregated,
    coverage_ranked_once (by decide +kernel) (by decide) (by decide) aggregated⟩

end HeliumOracles.MobileVerifier

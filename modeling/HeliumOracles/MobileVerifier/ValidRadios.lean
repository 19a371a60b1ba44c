import Mathlib.Data.Rat.Defs
import Mathlib.Data.List.Sort
import HeliumOracles.Lib.Relational

/-!
# The valid radios of a reward period

Model of the query `mobile_verifier/src/heartbeats/valid_radios.sql`, which
`HeartbeatReward::validated` (`heartbeats/mod.rs`) runs with the period's bounds and
`MINIMUM_HEARTBEAT_COUNT`, over the tables `cbrs_heartbeats` and `wifi_heartbeats`
(`migrations/9_realtime_heartbeats.sql`, `16_wifi_heartbeat.sql` and the later
columns). A CBRS row is keyed by `(cbsd_id, truncated_timestamp)`, a WiFi row by
`(hotspot_key, truncated_timestamp)`; `save_wifi_hb` keeps the `cell_type` of an
hour's first heartbeat, and `validate` takes a WiFi heartbeat's cell type from the
`indoor` flag of its coverage object.

Keys, hotspots and coverage object UUIDs are numbers, times are seconds, and the
`DECIMAL` trust scores are rationals. `ARRAY_AGG` without `ORDER BY` aggregates in
table order. The model follows the query's CTEs one by one.
-/
namespace HeliumOracles.MobileVerifier

open Lib.Relational

/-- `CellType`. -/
inductive CellType where
  | nova436h
  | nova430i
  | neutrino430
  | sercommIndoor
  | sercommOutdoor
  | cellTypeNone
  | novaGenericWifiIndoor
  | novaGenericWifiOutdoor
deriving DecidableEq, Repr

/-- A row of `cbrs_heartbeats`. -/
structure CbrsHeartbeat where
  cbsdId : Nat
  hotspotKey : Nat
  cellType : CellType
  latestTimestamp : Int
  truncatedTimestamp : Int
  coverageObject : Nat
  locationTrustScoreMultiplier : ℚ
deriving DecidableEq, Repr

/-- A row of `wifi_heartbeats`, with the columns the query reads. -/
structure WifiHeartbeat where
  hotspotKey : Nat
  cellType : CellType
  truncatedTimestamp : Int
  coverageObject : Nat
  locationTrustScoreMultiplier : ℚ
  distanceToAsserted : Int
deriving DecidableEq, Repr

/-- The reward period `[$1, $2)`. -/
structure Epoch where
  start : Int
  stop : Int
deriving DecidableEq, Repr

def Epoch.contains (epoch : Epoch) (timestamp : Int) : Bool :=
  epoch.start ≤ timestamp && timestamp < epoch.stop

/-- `WHERE truncated_timestamp >= $1 AND truncated_timestamp < $2`. -/
def inPeriod {β : Type} (stamp : β → Int) (epoch : Epoch) (rows : List β) : List β :=
  rows.filter fun row => epoch.contains (stamp row)

/-- A row of the `heartbeats` CTE. -/
structure HeartbeatRow where
  hotspotKey : Nat
  cbsdId : Option Nat
  cellType : CellType
  heartbeatMultiplier : ℚ
  distancesToAsserted : Option (List Int)
  trustScoreMultipliers : List ℚ
deriving DecidableEq, Repr

/-- A row of the `latest_uuids` CTE. -/
structure LatestUuid where
  hotspotKey : Nat
  cbsdId : Option Nat
  coverageObject : Nat
deriving DecidableEq, Repr

/-- `HeartbeatReward`, a row of the query. -/
structure HeartbeatReward where
  hotspotKey : Nat
  cbsdId : Option Nat
  cellType : CellType
  distancesToAsserted : Option (List Int)
  trustScoreMultipliers : List ℚ
  coverageObject : Nat
deriving DecidableEq, Repr

/-- `CASE WHEN count(*) >= $3 THEN 1.0 ELSE 0.0 END`. -/
def heartbeatMultiplier (count minCount : Nat) : ℚ := if minCount ≤ count then 1 else 0

/-- `latest_cbrs_hotspot` for one CBSD: the hotspot of its row with the latest
`latest_timestamp`. -/
def latestCbrsHotspot (rows : List CbrsHeartbeat) (cbsdId : Nat) : Option Nat :=
  (latestBy (·.latestTimestamp) (rows.filter (·.cbsdId = cbsdId))).map (·.hotspotKey)

/-- A CBRS group of the `heartbeats` CTE. -/
def cbrsRow (minCount cbsdId hotspotKey : Nat) (cellType : CellType) (group : List CbrsHeartbeat) :
    HeartbeatRow :=
  ⟨hotspotKey, some cbsdId, cellType, heartbeatMultiplier group.length minCount, none,
    group.map (·.locationTrustScoreMultiplier)⟩

/-- A WiFi group of the `heartbeats` CTE, its arrays ordered by `truncated_timestamp`. -/
def wifiRow (minCount hotspotKey : Nat) (cellType : CellType) (group : List WifiHeartbeat) :
    HeartbeatRow :=
  let ordered := group.insertionSort fun a b => a.truncatedTimestamp ≤ b.truncatedTimestamp
  ⟨hotspotKey, none, cellType, heartbeatMultiplier group.length minCount,
    some (ordered.map (·.distanceToAsserted)), ordered.map (·.locationTrustScoreMultiplier)⟩

/-- The CBRS half of `heartbeats`: the period's rows joined to `latest_cbrs_hotspot`
and grouped by `(cbsd_id, hotspot_key, cell_type)`. -/
def cbrsHeartbeatRows (minCount : Nat) (rows : List CbrsHeartbeat) : List HeartbeatRow :=
  (groupBy (fun row => (row.cbsdId, latestCbrsHotspot rows row.cbsdId, row.cellType)) rows).filterMap
    fun group => (group.1.2.1).map fun hotspotKey => cbrsRow minCount group.1.1 hotspotKey group.1.2.2 group.2

/-- The WiFi half of `heartbeats`: the period's rows grouped by `(hotspot_key, cell_type)`. -/
def wifiHeartbeatRows (minCount : Nat) (rows : List WifiHeartbeat) : List HeartbeatRow :=
  (groupBy (fun row => (row.hotspotKey, row.cellType)) rows).map
    fun group => wifiRow minCount group.1.1 group.1.2 group.2

/-- `latest_uuids`: the coverage object of the latest hour of each CBRS radio and of
each WiFi hotspot. -/
def latestUuids (cbrs : List CbrsHeartbeat) (wifi : List WifiHeartbeat) : List LatestUuid :=
  (((groupBy (fun row => (row.hotspotKey, row.cbsdId)) cbrs).filterMap fun group =>
      (latestBy (·.truncatedTimestamp) group.2).map fun row =>
        (⟨group.1.1, some group.1.2, row.coverageObject⟩ : LatestUuid)) ++
    ((groupBy (·.hotspotKey) wifi).filterMap fun group =>
      (latestBy (·.truncatedTimestamp) group.2).map fun row =>
        (⟨group.1, none, row.coverageObject⟩ : LatestUuid))).dedup

/-- The final join: a group of `heartbeats` and the coverage object of its radio. -/
def HeartbeatReward.ofRows (hb : HeartbeatRow) (uuid : LatestUuid) : HeartbeatReward :=
  ⟨hb.hotspotKey, hb.cbsdId, hb.cellType, hb.distancesToAsserted, hb.trustScoreMultipliers,
    uuid.coverageObject⟩

/-- `valid_radios.sql` with `$1`, `$2` the period's bounds and `$3` the minimum count. -/
def validRadios (epoch : Epoch) (minCount : Nat) (cbrs : List CbrsHeartbeat)
    (wifi : List WifiHeartbeat) : List HeartbeatReward :=
  let cbrsIn := inPeriod (·.truncatedTimestamp) epoch cbrs
  let wifiIn := inPeriod (·.truncatedTimestamp) epoch wifi
  let heartbeats := (cbrsHeartbeatRows minCount cbrsIn ++ wifiHeartbeatRows minCount wifiIn).dedup
  let uuids := latestUuids cbrsIn wifiIn
  (heartbeats.filter (·.heartbeatMultiplier = 1)).flatMap fun hb =>
    (uuids.filter fun uuid => uuid.hotspotKey = hb.hotspotKey ∧ uuid.cbsdId = hb.cbsdId).map
      (HeartbeatReward.ofRows hb)

/-- `MINIMUM_HEARTBEAT_COUNT`. -/
def minimumHeartbeatCount : Nat := 12

/-- The hours of one WiFi group of `heartbeats`: the rows of a hotspot with one
cell type. -/
def wifiHours (rows : List WifiHeartbeat) (hotspotKey : Nat) (cellType : CellType) :
    List WifiHeartbeat :=
  rows.filter fun row => (row.hotspotKey, row.cellType) = (hotspotKey, cellType)

/-- The latest hour of a WiFi hotspot, whose coverage object `latest_uuids` keeps. -/
def latestHour (rows : List WifiHeartbeat) (hotspotKey : Nat) : Option WifiHeartbeat :=
  latestBy (·.truncatedTimestamp) (rows.filter (·.hotspotKey = hotspotKey))

/-! ## What the query returns -/

theorem heartbeatMultiplier_eq_one_iff {count minCount : Nat} :
    heartbeatMultiplier count minCount = 1 ↔ minCount ≤ count := by
  unfold heartbeatMultiplier
  split <;> simp_all

/-- The final `INNER JOIN ... WHERE hb.heartbeat_multiplier = 1.0`. -/
theorem mem_validRadios {epoch : Epoch} {minCount : Nat} {cbrs : List CbrsHeartbeat}
    {wifi : List WifiHeartbeat} {reward : HeartbeatReward} :
    reward ∈ validRadios epoch minCount cbrs wifi ↔
      ∃ hb ∈ cbrsHeartbeatRows minCount (inPeriod (·.truncatedTimestamp) epoch cbrs) ++
          wifiHeartbeatRows minCount (inPeriod (·.truncatedTimestamp) epoch wifi),
        hb.heartbeatMultiplier = 1 ∧
        ∃ uuid ∈ latestUuids (inPeriod (·.truncatedTimestamp) epoch cbrs)
            (inPeriod (·.truncatedTimestamp) epoch wifi),
          uuid.hotspotKey = hb.hotspotKey ∧ uuid.cbsdId = hb.cbsdId ∧
          reward = HeartbeatReward.ofRows hb uuid := by
  simp only [validRadios, List.mem_flatMap, List.mem_filter, List.mem_map, List.mem_dedup,
    decide_eq_true_eq]
  constructor
  · rintro ⟨hb, ⟨present, counted⟩, uuid, ⟨listed, sameHotspot, sameCbsd⟩, rfl⟩
    exact ⟨hb, present, counted, uuid, listed, sameHotspot, sameCbsd, rfl⟩
  · rintro ⟨hb, present, counted, uuid, listed, sameHotspot, sameCbsd, rfl⟩
    exact ⟨hb, ⟨present, counted⟩, uuid, ⟨listed, sameHotspot, sameCbsd⟩, rfl⟩

/-- Every CBRS group carries its `cbsd_id`. -/
theorem cbsdId_ne_none_of_mem_cbrsHeartbeatRows {minCount : Nat} {rows : List CbrsHeartbeat}
    {hb : HeartbeatRow} (present : hb ∈ cbrsHeartbeatRows minCount rows) : hb.cbsdId ≠ none := by
  simp only [cbrsHeartbeatRows, List.mem_filterMap, Option.map_eq_some_iff] at present
  obtain ⟨group, _, hotspotKey, _, rfl⟩ := present
  simp [cbrsRow]

theorem mem_wifiHeartbeatRows {minCount : Nat} {rows : List WifiHeartbeat} {hb : HeartbeatRow} :
    hb ∈ wifiHeartbeatRows minCount rows ↔
      ∃ hotspotKey cellType, wifiHours rows hotspotKey cellType ≠ [] ∧
        hb = wifiRow minCount hotspotKey cellType (wifiHours rows hotspotKey cellType) := by
  simp only [wifiHeartbeatRows, List.mem_map, Prod.exists]
  constructor
  · rintro ⟨hotspotKey, cellType, group, grouped, rfl⟩
    obtain ⟨present, rfl⟩ := mem_groupBy.mp grouped
    exact ⟨hotspotKey, cellType, mem_map_iff_filter_ne_nil.mp present, rfl⟩
  · rintro ⟨hotspotKey, cellType, nonempty, rfl⟩
    exact ⟨hotspotKey, cellType, _, mem_groupBy.mpr ⟨mem_map_iff_filter_ne_nil.mpr nonempty, rfl⟩,
      rfl⟩

/-- The WiFi rows of `latest_uuids`: one per hotspot, with the coverage object of its
latest hour. -/
theorem mem_latestUuids_wifi {cbrs : List CbrsHeartbeat} {wifi : List WifiHeartbeat}
    {hotspotKey coverageObject : Nat} :
    ⟨hotspotKey, none, coverageObject⟩ ∈ latestUuids cbrs wifi ↔
      ∃ latest, latestHour wifi hotspotKey = some latest ∧
        latest.coverageObject = coverageObject := by
  simp only [latestUuids, latestHour, List.mem_dedup, List.mem_append, List.mem_filterMap,
    Option.map_eq_some_iff, LatestUuid.mk.injEq, reduceCtorEq, false_and, and_false,
    exists_false, Prod.exists, false_or, true_and]
  constructor
  · rintro ⟨key, group, grouped, latest, found, rfl, rfl⟩
    obtain ⟨_, rfl⟩ := mem_groupBy.mp grouped
    exact ⟨latest, found, rfl⟩
  · rintro ⟨latest, found, rfl⟩
    have nonempty : wifi.filter (·.hotspotKey = hotspotKey) ≠ [] := fun empty =>
      by simp [empty, latestBy] at found
    exact ⟨hotspotKey, _, mem_groupBy.mpr ⟨mem_map_iff_filter_ne_nil.mpr nonempty, rfl⟩,
      latest, found, rfl, rfl⟩

section Wifi

variable {epoch : Epoch} {minCount : Nat} {cbrs : List CbrsHeartbeat} {wifi : List WifiHeartbeat}

/-- The WiFi rows of the query: a hotspot and a cell type with at least `minCount`
hours in the period give one row, which carries the coverage object of the hotspot's
latest hour, whatever the cell type of that hour. -/
theorem mem_validRadios_wifi {reward : HeartbeatReward} (wifiReward : reward.cbsdId = none) :
    reward ∈ validRadios epoch minCount cbrs wifi ↔
      wifiHours (inPeriod (·.truncatedTimestamp) epoch wifi) reward.hotspotKey reward.cellType ≠ [] ∧
      minCount ≤ (wifiHours (inPeriod (·.truncatedTimestamp) epoch wifi) reward.hotspotKey
        reward.cellType).length ∧
      ∃ latest, latestHour (inPeriod (·.truncatedTimestamp) epoch wifi) reward.hotspotKey =
          some latest ∧
        reward = HeartbeatReward.ofRows
          (wifiRow minCount reward.hotspotKey reward.cellType
            (wifiHours (inPeriod (·.truncatedTimestamp) epoch wifi) reward.hotspotKey reward.cellType))
          ⟨reward.hotspotKey, none, latest.coverageObject⟩ := by
  rw [mem_validRadios]
  constructor
  · rintro ⟨hb, present, counted, ⟨uuidHotspot, uuidCbsd, uuidObject⟩, listed, sameHotspot,
      sameCbsd, rfl⟩
    rcases List.mem_append.mp present with fromCbrs | fromWifi
    · -- a CBRS group carries a `cbsd_id`, the reward does not
      exact absurd wifiReward (cbsdId_ne_none_of_mem_cbrsHeartbeatRows fromCbrs)
    · obtain ⟨hotspotKey, cellType, nonempty, rfl⟩ := mem_wifiHeartbeatRows.mp fromWifi
      simp only [wifiRow] at counted sameHotspot sameCbsd
      subst sameHotspot sameCbsd
      obtain ⟨latest, found, rfl⟩ := mem_latestUuids_wifi.mp listed
      exact ⟨nonempty, heartbeatMultiplier_eq_one_iff.mp counted, latest, found, rfl⟩
  · rintro ⟨nonempty, enough, latest, found, same⟩
    refine ⟨_, List.mem_append_right _ (mem_wifiHeartbeatRows.mpr ⟨_, _, nonempty, rfl⟩), ?_, _,
      mem_latestUuids_wifi.mpr ⟨latest, found, rfl⟩, rfl, rfl, same⟩
    exact heartbeatMultiplier_eq_one_iff.mpr enough

/-- All WiFi rows of one hotspot carry one coverage object: the one of its latest hour. -/
theorem wifi_rows_share_coverageObject {first second : HeartbeatReward}
    (firstIn : first ∈ validRadios epoch minCount cbrs wifi)
    (secondIn : second ∈ validRadios epoch minCount cbrs wifi)
    (firstWifi : first.cbsdId = none) (secondWifi : second.cbsdId = none)
    (sameHotspot : first.hotspotKey = second.hotspotKey) :
    first.coverageObject = second.coverageObject := by
  obtain ⟨-, -, firstLatest, firstFound, firstIs⟩ := (mem_validRadios_wifi firstWifi).mp firstIn
  obtain ⟨-, -, secondLatest, secondFound, secondIs⟩ := (mem_validRadios_wifi secondWifi).mp secondIn
  rw [sameHotspot, secondFound, Option.some.injEq] at firstFound
  rw [firstIs, secondIs, firstFound]
  rfl

/-- A WiFi hotspot with `minCount` hours of one cell type and `minCount` hours of
another in the period is listed once for each, and both rows carry the same coverage
object. -/
theorem wifi_hotspot_listed_per_cellType {hotspotKey : Nat} {first second : CellType}
    (positive : 0 < minCount) (differ : first ≠ second)
    (firstEnough : minCount ≤
      (wifiHours (inPeriod (·.truncatedTimestamp) epoch wifi) hotspotKey first).length)
    (secondEnough : minCount ≤
      (wifiHours (inPeriod (·.truncatedTimestamp) epoch wifi) hotspotKey second).length) :
    ∃ firstReward ∈ validRadios epoch minCount cbrs wifi,
      ∃ secondReward ∈ validRadios epoch minCount cbrs wifi,
        firstReward ≠ secondReward ∧
        firstReward.hotspotKey = hotspotKey ∧ secondReward.hotspotKey = hotspotKey ∧
        firstReward.cbsdId = none ∧ secondReward.cbsdId = none ∧
        firstReward.coverageObject = secondReward.coverageObject := by
  set rows := inPeriod (·.truncatedTimestamp) epoch wifi
  have firstNonempty : wifiHours rows hotspotKey first ≠ [] := by
    intro empty
    rw [empty, List.length_nil] at firstEnough
    omega
  have secondNonempty : wifiHours rows hotspotKey second ≠ [] := by
    intro empty
    rw [empty, List.length_nil] at secondEnough
    omega
  -- the hotspot has an hour in the period, so `latest_uuids` has a row for it
  obtain ⟨hour, hourIn⟩ := List.exists_mem_of_ne_nil _ firstNonempty
  have hotspotRows : rows.filter (·.hotspotKey = hotspotKey) ≠ [] := by
    simp only [wifiHours, List.mem_filter, decide_eq_true_eq, Prod.mk.injEq] at hourIn
    exact List.ne_nil_of_mem (List.mem_filter.mpr ⟨hourIn.1, by simp [hourIn.2.1]⟩)
  have picked : latestHour rows hotspotKey ≠ none := fun missing =>
    hotspotRows (latestBy_eq_none_iff.mp missing)
  obtain ⟨latest, found⟩ := Option.ne_none_iff_exists'.mp picked
  let reward := fun cellType => HeartbeatReward.ofRows
    (wifiRow minCount hotspotKey cellType (wifiHours rows hotspotKey cellType))
    ⟨hotspotKey, none, latest.coverageObject⟩
  have listed : ∀ cellType, wifiHours rows hotspotKey cellType ≠ [] →
      minCount ≤ (wifiHours rows hotspotKey cellType).length →
      reward cellType ∈ validRadios epoch minCount cbrs wifi := fun cellType nonempty enough =>
    (mem_validRadios_wifi rfl).mpr ⟨nonempty, enough, latest, found, rfl⟩
  refine ⟨reward first, listed first firstNonempty firstEnough, reward second,
    listed second secondNonempty secondEnough, ?_, rfl, rfl, rfl, rfl, rfl⟩
  intro same
  exact differ (congrArg HeartbeatReward.cellType same)

end Wifi

end HeliumOracles.MobileVerifier

import Mathlib
import HeliumOracles.MobileVerifier.CoveragePoints

/-!
# The ranking of every hex, and what the order of the pushes changes

Source: `mobile_verifier/src/coverage.rs` (`CoveredHexes::aggregate_coverage`,
`insert_indoor_coverage`, `insert_outdoor_coverage`, `into_coverage_rewards`,
`into_outdoor_rewards`, `into_indoor_rewards`, and the `Ord` of `IndoorCoverageLevel` and
`OutdoorCoverageLevel`).

`aggregate_points` calls `aggregate_coverage` once per row of `valid_radios`, a query
without `ORDER BY`, and each call pushes the rows of one `covered_hex_stream`. Whatever
the order of the calls, the map of each class (indoor or outdoor, CBRS or WiFi) holds
under a hex exactly the levels pushed at that hex (`outdoor_aggregateCalls_perm`,
`indoor_aggregateCalls_perm`); the rewards are then read hex by hex.

The results:
- `intoCoverageRewards_aggregateCalls`: up to order, the rewards are, for each class and
  hex, the first three outdoor levels sorted by the heap's order with the weight of their
  rank, or the one indoor level of the strongest signal level present with the oldest
  seniority; rewards of no points are dropped. `coverage_rewards_ranked_per_hex` states
  this with the order written out.
- `tied_radios_swap_by_order`: two levels of a hex that the heap's order ranks as equal
  share out the weights by push order, so the rewards depend on the order of the calls.
- `coverage_rewards_order_independent_without_ties`: without such ties, any two orders of
  the same pushes give the same rewards.
-/
namespace HeliumOracles.MobileVerifier

open Lib.AssocMap Lib.Relational
open scoped List

/-! ## A run of `aggregate_coverage` calls -/

/-- `aggregate_coverage` called with one hotspot and covered-hex stream after another,
from empty covered hexes. -/
def aggregateCalls (boostedHexes : BoostedHexes) (calls : List (Nat × List HexCoverage)) :
    CoveredHexes :=
  calls.foldl (fun acc call => (acc.aggregateCoverage call.1 boostedHexes call.2).1) {}

/-- The rows the calls push, each with the hotspot of its call, in push order. -/
def pushedCoverage (calls : List (Nat × List HexCoverage)) : List (Nat × HexCoverage) :=
  calls.flatMap fun call => call.2.map (call.1, ·)

/-- The outdoor map of CBRS or of WiFi radios. -/
def CoveredHexes.outdoor (self : CoveredHexes) (wifi : Bool) : Map Nat (List OutdoorCoverageLevel) :=
  if wifi then self.outdoorWifi else self.outdoorCbrs

/-- The indoor map of CBRS or of WiFi radios. -/
def CoveredHexes.indoor (self : CoveredHexes) (wifi : Bool) :
    Map Nat (Map SignalLevel (List IndoorCoverageLevel)) :=
  if wifi then self.indoorWifi else self.indoorCbrs

/-- The level `insert_outdoor_coverage` pushes for a row. -/
def outdoorLevel (hotspot : Nat) (hexCoverage : HexCoverage) : OutdoorCoverageLevel :=
  ⟨hexCoverage.radioKey, hexCoverage.coverageClaimTime, hotspot, hexCoverage.signalPower,
    hexCoverage.signalLevel⟩

/-- The level `insert_indoor_coverage` pushes for a row. -/
def indoorLevel (hotspot : Nat) (hexCoverage : HexCoverage) : IndoorCoverageLevel :=
  ⟨hexCoverage.radioKey, hexCoverage.coverageClaimTime, hotspot, hexCoverage.signalLevel⟩

/-- Whether a row goes to the map of a class. -/
def HexCoverage.inClass (hexCoverage : HexCoverage) (indoor wifi : Bool) : Bool :=
  hexCoverage.indoor == indoor && hexCoverage.radioKey.isWifi == wifi

/-- The rows of a class pushed at a hex, in push order. -/
def classRowsAt (pushed : List (Nat × HexCoverage)) (indoor wifi : Bool) (hex : Nat) :
    List (Nat × HexCoverage) :=
  pushed.filter fun row => row.2.inClass indoor wifi && row.2.hex == hex

/-- The outdoor levels of a class pushed at a hex. -/
def outdoorEntries (pushed : List (Nat × HexCoverage)) (wifi : Bool) (hex : Nat) :
    List OutdoorCoverageLevel :=
  (classRowsAt pushed false wifi hex).map fun row => outdoorLevel row.1 row.2

/-- The indoor levels of a class pushed at a hex. -/
def indoorEntries (pushed : List (Nat × HexCoverage)) (wifi : Bool) (hex : Nat) :
    List IndoorCoverageLevel :=
  (classRowsAt pushed true wifi hex).map fun row => indoorLevel row.1 row.2

/-- The hexes a class covers. -/
def classHexes (pushed : List (Nat × HexCoverage)) (indoor wifi : Bool) : List Nat :=
  ((pushed.filter (·.2.inClass indoor wifi)).map (·.2.hex)).dedup

/-- The heaps of the signal levels of an indoor hex, as the pushes at it leave them. -/
def indoorLevelsAt (pushed : List (Nat × HexCoverage)) (wifi : Bool) (hex : Nat) :
    Map SignalLevel (List IndoorCoverageLevel) :=
  (classRowsAt pushed true wifi hex).foldl
    (fun levels row => modifyEntry row.2.signalLevel [] (· ++ [indoorLevel row.1 row.2]) levels) []

theorem mem_classHexes {pushed : List (Nat × HexCoverage)} {indoor wifi : Bool} {hex : Nat} :
    hex ∈ classHexes pushed indoor wifi ↔ classRowsAt pushed indoor wifi hex ≠ [] := by
  rw [ne_eq, List.eq_nil_iff_forall_not_mem, not_forall]
  simp only [classHexes, classRowsAt, List.mem_dedup, List.mem_map, List.mem_filter,
    Bool.and_eq_true, beq_iff_eq, not_not]
  constructor
  · rintro ⟨row, ⟨pushedRow, inClass⟩, rfl⟩
    exact ⟨row, pushedRow, inClass, rfl⟩
  · rintro ⟨row, pushedRow, inClass, rfl⟩
    exact ⟨row, ⟨pushedRow, inClass⟩, rfl⟩

theorem nodup_classHexes (pushed : List (Nat × HexCoverage)) (indoor wifi : Bool) :
    (classHexes pushed indoor wifi).Nodup :=
  List.nodup_dedup _

theorem CoveredHexes.aggregateCoverage_fst (self : CoveredHexes) (hotspot : Nat)
    (boostedHexes : BoostedHexes) (coveredHexes : List HexCoverage) :
    (self.aggregateCoverage hotspot boostedHexes coveredHexes).1 =
      coveredHexes.foldl (fun acc hexCoverage => acc.insert hotspot hexCoverage) self := by
  unfold CoveredHexes.aggregateCoverage
  suffices pushed : ∀ acc : CoveredHexes × Bool,
      (coveredHexes.foldl (fun acc hexCoverage =>
        (acc.1.insert hotspot hexCoverage, acc.2 || boostedHexes.isBoosted hexCoverage.hex))
        acc).1 = coveredHexes.foldl (fun acc hexCoverage => acc.insert hotspot hexCoverage) acc.1 from
    pushed (self, false)
  induction coveredHexes with
  | nil => simp
  | cons hexCoverage rest later =>
    intro acc
    simp only [List.foldl_cons]
    exact later _

/-- The calls push their rows one after another. -/
theorem aggregateCalls_eq (boostedHexes : BoostedHexes) (calls : List (Nat × List HexCoverage)) :
    aggregateCalls boostedHexes calls =
      (pushedCoverage calls).foldl (fun acc row => acc.insert row.1 row.2) {} := by
  simp only [aggregateCalls, pushedCoverage, List.foldl_flatMap, List.foldl_map,
    CoveredHexes.aggregateCoverage_fst]

/-! ## What each map holds -/

theorem CoveredHexes.insert_outdoor (self : CoveredHexes) (hotspot : Nat) (hexCoverage : HexCoverage)
    (wifi : Bool) :
    (self.insert hotspot hexCoverage).outdoor wifi =
      if hexCoverage.inClass false wifi then
        modifyEntry hexCoverage.hex [] (· ++ [outdoorLevel hotspot hexCoverage]) (self.outdoor wifi)
      else self.outdoor wifi := by
  obtain ⟨hex, indoor, radioKey, signalLevel, signalPower, claimTime⟩ := hexCoverage
  cases indoor <;> cases radioKey <;> cases wifi <;> rfl

theorem CoveredHexes.insert_indoor (self : CoveredHexes) (hotspot : Nat) (hexCoverage : HexCoverage)
    (wifi : Bool) :
    (self.insert hotspot hexCoverage).indoor wifi =
      if hexCoverage.inClass true wifi then
        modifyEntry hexCoverage.hex []
          (modifyEntry hexCoverage.signalLevel [] (· ++ [indoorLevel hotspot hexCoverage]))
          (self.indoor wifi)
      else self.indoor wifi := by
  obtain ⟨hex, indoor, radioKey, signalLevel, signalPower, claimTime⟩ := hexCoverage
  cases indoor <;> cases radioKey <;> cases wifi <;> rfl

theorem foldl_insert_outdoor (wifi : Bool) :
    ∀ (rows : List (Nat × HexCoverage)) (self : CoveredHexes),
      (rows.foldl (fun acc row => acc.insert row.1 row.2) self).outdoor wifi =
        (rows.filter (·.2.inClass false wifi)).foldl
          (fun outdoor row => modifyEntry row.2.hex [] (· ++ [outdoorLevel row.1 row.2]) outdoor)
          (self.outdoor wifi)
  | [], _ => rfl
  | row :: rows, self => by
    rw [List.foldl_cons, foldl_insert_outdoor wifi rows, CoveredHexes.insert_outdoor,
      List.filter_cons]
    split <;> rfl

theorem foldl_insert_indoor (wifi : Bool) :
    ∀ (rows : List (Nat × HexCoverage)) (self : CoveredHexes),
      (rows.foldl (fun acc row => acc.insert row.1 row.2) self).indoor wifi =
        (rows.filter (·.2.inClass true wifi)).foldl
          (fun indoor row => modifyEntry row.2.hex []
            (modifyEntry row.2.signalLevel [] (· ++ [indoorLevel row.1 row.2])) indoor)
          (self.indoor wifi)
  | [], _ => rfl
  | row :: rows, self => by
    rw [List.foldl_cons, foldl_insert_indoor wifi rows, CoveredHexes.insert_indoor,
      List.filter_cons]
    split <;> rfl

theorem filter_hex_classRows (pushed : List (Nat × HexCoverage)) (indoor wifi : Bool) (hex : Nat) :
    (pushed.filter (·.2.inClass indoor wifi)).filter (fun row => decide (row.2.hex = hex)) =
      classRowsAt pushed indoor wifi hex := by
  rw [List.filter_filter, classRowsAt]
  refine List.filter_congr fun row _ => ?_
  by_cases atHex : row.2.hex = hex <;> simp [atHex]

theorem outdoor_empty (wifi : Bool) : ({} : CoveredHexes).outdoor wifi = [] := by
  cases wifi <;> rfl

theorem indoor_empty (wifi : Bool) : ({} : CoveredHexes).indoor wifi = [] := by
  cases wifi <;> rfl

/-- After the calls, the outdoor map of a class holds under each hex it covers the levels
pushed there, in push order. -/
theorem get_outdoor_aggregateCalls (boostedHexes : BoostedHexes)
    (calls : List (Nat × List HexCoverage)) (wifi : Bool) (hex : Nat) :
    get ((aggregateCalls boostedHexes calls).outdoor wifi) hex =
      if hex ∈ classHexes (pushedCoverage calls) false wifi then
        some (outdoorEntries (pushedCoverage calls) wifi hex)
      else none := by
  rw [aggregateCalls_eq, foldl_insert_outdoor, get_foldl_modifyEntry, filter_hex_classRows,
    outdoor_empty, get_nil]
  split
  · rename_i covered
    rw [foldl_some_getD (fun held row => held ++ [outdoorLevel row.1 row.2]) [] _ none
      (mem_classHexes.mp covered), Option.getD_none, foldl_push, List.nil_append]
    rfl
  · rename_i uncovered
    rw [mem_classHexes, not_not] at uncovered
    rw [uncovered, List.foldl_nil]

/-- After the calls, the indoor map of a class holds under each hex it covers the heaps the
pushes there leave. -/
theorem get_indoor_aggregateCalls (boostedHexes : BoostedHexes)
    (calls : List (Nat × List HexCoverage)) (wifi : Bool) (hex : Nat) :
    get ((aggregateCalls boostedHexes calls).indoor wifi) hex =
      if hex ∈ classHexes (pushedCoverage calls) true wifi then
        some (indoorLevelsAt (pushedCoverage calls) wifi hex)
      else none := by
  rw [aggregateCalls_eq, foldl_insert_indoor, get_foldl_modifyEntry, filter_hex_classRows,
    indoor_empty, get_nil]
  split
  · rename_i covered
    rw [foldl_some_getD (fun levels row => modifyEntry row.2.signalLevel []
      (· ++ [indoorLevel row.1 row.2]) levels) [] _ none (mem_classHexes.mp covered),
      Option.getD_none]
    rfl
  · rename_i uncovered
    rw [mem_classHexes, not_not] at uncovered
    rw [uncovered, List.foldl_nil]

theorem nodup_keys_outdoor_aggregateCalls (boostedHexes : BoostedHexes)
    (calls : List (Nat × List HexCoverage)) (wifi : Bool) :
    (((aggregateCalls boostedHexes calls).outdoor wifi).map Prod.fst).Nodup := by
  rw [aggregateCalls_eq, foldl_insert_outdoor]
  exact nodup_keys_foldl_modifyEntry _ _ _ _ _ (by rw [outdoor_empty]; exact List.nodup_nil)

theorem nodup_keys_indoor_aggregateCalls (boostedHexes : BoostedHexes)
    (calls : List (Nat × List HexCoverage)) (wifi : Bool) :
    (((aggregateCalls boostedHexes calls).indoor wifi).map Prod.fst).Nodup := by
  rw [aggregateCalls_eq, foldl_insert_indoor]
  exact nodup_keys_foldl_modifyEntry _ _ _ _ _ (by rw [indoor_empty]; exact List.nodup_nil)

theorem keys_map_pair {β : Type} (keys : List Nat) (f : Nat → β) :
    (keys.map fun key => (key, f key)).map Prod.fst = keys := by
  simp [Function.comp_def]

/-- Whatever the order of the calls, the outdoor map of a class holds one entry for each
hex the class covers, with the levels pushed there. -/
theorem outdoor_aggregateCalls_perm (boostedHexes : BoostedHexes)
    (calls : List (Nat × List HexCoverage)) (wifi : Bool) :
    (aggregateCalls boostedHexes calls).outdoor wifi ~
      (classHexes (pushedCoverage calls) false wifi).map fun hex =>
        (hex, outdoorEntries (pushedCoverage calls) wifi hex) := by
  refine perm_of_get_eq (nodup_keys_outdoor_aggregateCalls boostedHexes calls wifi) ?_ fun hex => ?_
  · rw [keys_map_pair]
    exact nodup_classHexes _ _ _
  · rw [get_outdoor_aggregateCalls, get_map_pair (nodup_classHexes _ _ _)]

/-- Whatever the order of the calls, the indoor map of a class holds one entry for each
hex the class covers, with the heaps the pushes there leave. -/
theorem indoor_aggregateCalls_perm (boostedHexes : BoostedHexes)
    (calls : List (Nat × List HexCoverage)) (wifi : Bool) :
    (aggregateCalls boostedHexes calls).indoor wifi ~
      (classHexes (pushedCoverage calls) true wifi).map fun hex =>
        (hex, indoorLevelsAt (pushedCoverage calls) wifi hex) := by
  refine perm_of_get_eq (nodup_keys_indoor_aggregateCalls boostedHexes calls wifi) ?_ fun hex => ?_
  · rw [keys_map_pair]
    exact nodup_classHexes _ _ _
  · rw [get_indoor_aggregateCalls, get_map_pair (nodup_classHexes _ _ _)]

/-! ## The order of each heap -/

theorem OutdoorCoverageLevel.le_iff (a b : OutdoorCoverageLevel) :
    a.le b = true ↔ b.signalPower < a.signalPower ∨
      (a.signalPower = b.signalPower ∧ a.seniorityTimestamp ≤ b.seniorityTimestamp) := by
  simp [OutdoorCoverageLevel.le]

theorem OutdoorCoverageLevel.le_total (a b : OutdoorCoverageLevel) :
    a.le b = true ∨ b.le a = true := by
  rw [OutdoorCoverageLevel.le_iff, OutdoorCoverageLevel.le_iff]
  omega

theorem OutdoorCoverageLevel.le_trans (a b c : OutdoorCoverageLevel) :
    a.le b = true → b.le c = true → a.le c = true := by
  rw [OutdoorCoverageLevel.le_iff, OutdoorCoverageLevel.le_iff, OutdoorCoverageLevel.le_iff]
  omega

theorem IndoorCoverageLevel.le_iff (a b : IndoorCoverageLevel) :
    a.le b = true ↔ a.seniorityTimestamp ≤ b.seniorityTimestamp := by
  simp [IndoorCoverageLevel.le]

theorem IndoorCoverageLevel.le_total (a b : IndoorCoverageLevel) :
    a.le b = true ∨ b.le a = true := by
  rw [IndoorCoverageLevel.le_iff, IndoorCoverageLevel.le_iff]
  omega

theorem IndoorCoverageLevel.le_trans (a b c : IndoorCoverageLevel) :
    a.le b = true → b.le c = true → a.le c = true := by
  rw [IndoorCoverageLevel.le_iff, IndoorCoverageLevel.le_iff, IndoorCoverageLevel.le_iff]
  omega

/-! ## The rewards of each hex -/

/-- The rewards of an outdoor hex given its levels in rank order: the first
`MAX_OUTDOOR_RADIOS_PER_RES12_HEX`, the `k`-th with the `k`-th weight. -/
def rankedOutdoorRewards (boostedHexes : BoostedHexes) (epochStart : Int) (hex : Nat)
    (ranked : List OutdoorCoverageLevel) : List CoverageReward :=
  (ranked.take maxOutdoorRadiosPerRes12Hex).zipIdx.map fun (cl, k) =>
    ⟨cl.radioKey, cl.coveragePoints * outdoorRewardWeights.getD k 0, cl.hotspot,
      ⟨hex, boostMultiplier boostedHexes hex epochStart⟩⟩

/-- The reward of an indoor hex to the level it picks. -/
def indoorReward (boostedHexes : BoostedHexes) (epochStart : Int) (hex : Nat)
    (cl : IndoorCoverageLevel) : CoverageReward :=
  ⟨cl.radioKey, cl.coveragePoints, cl.hotspot, ⟨hex, boostMultiplier boostedHexes hex epochStart⟩⟩

/-- The level an indoor hex rewards: one of the strongest signal level present, and of
those one with the oldest seniority. -/
structure IndoorWinner (levels : List IndoorCoverageLevel) (winner : IndoorCoverageLevel) :
    Prop where
  mem : winner ∈ levels
  strongest : ∀ other ∈ levels, other.signalLevel.rank ≤ winner.signalLevel.rank
  oldest : ∀ other ∈ levels, other.signalLevel = winner.signalLevel →
    winner.seniorityTimestamp ≤ other.seniorityTimestamp

/-- The rewards of every class and hex, given the rank order of each outdoor hex and the
level each indoor hex picks, before the rewards of no points are dropped. -/
def rankedRewards (boostedHexes : BoostedHexes) (epochStart : Int)
    (pushed : List (Nat × HexCoverage)) (ranked : Bool → Nat → List OutdoorCoverageLevel)
    (winner : Bool → Nat → IndoorCoverageLevel) : List CoverageReward :=
  ([false, true].flatMap fun wifi => (classHexes pushed false wifi).flatMap fun hex =>
      rankedOutdoorRewards boostedHexes epochStart hex (ranked wifi hex)) ++
    [false, true].flatMap fun wifi => (classHexes pushed true wifi).map fun hex =>
      indoorReward boostedHexes epochStart hex (winner wifi hex)

/-- The level `pop_last` and `take(1)` leave of the heaps of an indoor hex. -/
def indoorPick (levels : Map SignalLevel (List IndoorCoverageLevel)) :
    Option IndoorCoverageLevel :=
  (latestBy (·.1.rank) levels).bind fun picked =>
    (picked.2.insertionSort fun a b => a.le b).head?

theorem intoOutdoorRewards_perm {outdoor outdoor' : Map Nat (List OutdoorCoverageLevel)}
    (same : outdoor ~ outdoor') (boostedHexes : BoostedHexes) (epochStart : Int) :
    intoOutdoorRewards outdoor boostedHexes epochStart ~
      intoOutdoorRewards outdoor' boostedHexes epochStart :=
  same.flatMap_right _

theorem intoIndoorRewards_perm
    {indoor indoor' : Map Nat (Map SignalLevel (List IndoorCoverageLevel))}
    (same : indoor ~ indoor') (boostedHexes : BoostedHexes) (epochStart : Int) :
    intoIndoorRewards indoor boostedHexes epochStart ~
      intoIndoorRewards indoor' boostedHexes epochStart :=
  same.flatMap_right _

/-- `into_outdoor_rewards` ranks each hex by the heap's order and pays the `k`-th level
the `k`-th weight. -/
theorem intoOutdoorRewards_map_pair (boostedHexes : BoostedHexes) (epochStart : Int)
    (hexes : List Nat) (radios : Nat → List OutdoorCoverageLevel) :
    intoOutdoorRewards (hexes.map fun hex => (hex, radios hex)) boostedHexes epochStart =
      hexes.flatMap fun hex => rankedOutdoorRewards boostedHexes epochStart hex
        ((radios hex).insertionSort fun a b => a.le b) := by
  unfold intoOutdoorRewards
  rw [List.flatMap_map]
  refine List.flatMap_congr fun hex _ => ?_
  have enough : (((radios hex).insertionSort fun a b => a.le b).take
      maxOutdoorRadiosPerRes12Hex).length ≤ outdoorRewardWeights.length :=
    (List.length_take_le _ _).trans (le_of_eq rfl)
  dsimp only
  rw [zip_eq_zipIdx 0 enough, List.map_map]
  rfl

/-- `into_indoor_rewards` rewards the level `indoorPick` leaves of each hex. -/
theorem intoIndoorRewards_map_pair (boostedHexes : BoostedHexes) (epochStart : Int)
    (hexes : List Nat) (levels : Nat → Map SignalLevel (List IndoorCoverageLevel)) :
    intoIndoorRewards (hexes.map fun hex => (hex, levels hex)) boostedHexes epochStart =
      hexes.flatMap fun hex =>
        (indoorPick (levels hex)).toList.map (indoorReward boostedHexes epochStart hex) := by
  unfold intoIndoorRewards
  rw [List.flatMap_map]
  refine List.flatMap_congr fun hex _ => ?_
  rcases picked : latestBy (·.1.rank) (levels hex) with _ | ⟨level, radios⟩
  · simp [indoorPick, picked]
  · simp [indoorPick, picked, maxIndoorRadiosPerRes12Hex, List.take_one, indoorReward]

/-! ## The level an indoor hex picks -/

section IndoorPick

variable {pushed : List (Nat × HexCoverage)} {wifi : Bool} {hex : Nat}

theorem nodup_keys_indoorLevelsAt : ((indoorLevelsAt pushed wifi hex).map Prod.fst).Nodup :=
  nodup_keys_foldl_modifyEntry _ _ _ _ _ List.nodup_nil

theorem mem_keys_indoorLevelsAt {level : SignalLevel} :
    level ∈ (indoorLevelsAt pushed wifi hex).map Prod.fst ↔
      level ∈ (classRowsAt pushed true wifi hex).map (·.2.signalLevel) := by
  rw [indoorLevelsAt, mem_keys_foldl_modifyEntry]
  simp

/-- The heap of a signal level holds the levels pushed at it, in push order. -/
theorem get_indoorLevelsAt (level : SignalLevel) :
    get (indoorLevelsAt pushed wifi hex) level =
      if (classRowsAt pushed true wifi hex).filter (fun row => decide (row.2.signalLevel = level)) = []
      then none
      else some (((classRowsAt pushed true wifi hex).filter
        fun row => decide (row.2.signalLevel = level)).map fun row => indoorLevel row.1 row.2) := by
  rw [indoorLevelsAt, get_foldl_modifyEntry, get_nil]
  split
  · rename_i noRows
    rw [noRows, List.foldl_nil]
  · rename_i someRows
    rw [foldl_some_getD (fun held row => held ++ [indoorLevel row.1 row.2]) [] _ none someRows,
      Option.getD_none, foldl_push, List.nil_append]

/-- `pop_last` takes the heap of the strongest signal level pushed at the hex. -/
theorem latestBy_indoorLevelsAt {level : SignalLevel} {radios : List IndoorCoverageLevel}
    (picked : latestBy (·.1.rank) (indoorLevelsAt pushed wifi hex) = some (level, radios)) :
    radios = ((classRowsAt pushed true wifi hex).filter
        fun row => decide (row.2.signalLevel = level)).map (fun row => indoorLevel row.1 row.2) ∧
      radios ≠ [] ∧
      ∀ row ∈ classRowsAt pushed true wifi hex, row.2.signalLevel.rank ≤ level.rank := by
  obtain ⟨pickedIn, strongest⟩ := latestBy_spec picked
  have stored := (mem_iff_get_eq_some nodup_keys_indoorLevelsAt).mp pickedIn
  rw [get_indoorLevelsAt] at stored
  split at stored
  · cases stored
  · rename_i someRows
    obtain rfl := (Option.some.inj stored).symm
    refine ⟨rfl, fun empty => someRows (List.map_eq_nil_iff.mp empty), fun row rowIn => ?_⟩
    have key := mem_keys_indoorLevelsAt.mpr (List.mem_map_of_mem rowIn)
    obtain ⟨⟨_, held⟩, heldIn, rfl⟩ := List.mem_map.mp key
    exact strongest _ heldIn

/-- The level `into_indoor_rewards` rewards at a covered hex is one of the strongest signal
level pushed there, with the oldest seniority among those. -/
theorem indoorPick_indoorLevelsAt (covered : hex ∈ classHexes pushed true wifi) :
    ∃ winner, indoorPick (indoorLevelsAt pushed wifi hex) = some winner ∧
      IndoorWinner (indoorEntries pushed wifi hex) winner := by
  obtain ⟨row, rowIn⟩ := List.exists_mem_of_ne_nil _ (mem_classHexes.mp covered)
  have levelsNonempty : indoorLevelsAt pushed wifi hex ≠ [] := by
    intro empty
    have key := mem_keys_indoorLevelsAt.mpr (List.mem_map_of_mem rowIn)
    rw [empty] at key
    exact List.not_mem_nil key
  have found : latestBy (·.1.rank) (indoorLevelsAt pushed wifi hex) ≠ none :=
    mt latestBy_eq_none_iff.mp levelsNonempty
  obtain ⟨⟨level, radios⟩, picked⟩ := Option.ne_none_iff_exists'.mp found
  obtain ⟨radiosEq, nonempty, strongest⟩ := latestBy_indoorLevelsAt picked
  -- the heap's order puts the oldest seniority first
  have sorted := pairwise_insertionSort_of _ IndoorCoverageLevel.le_total
    IndoorCoverageLevel.le_trans radios
  have sortedNonempty : (radios.insertionSort fun a b => a.le b) ≠ [] := by
    intro empty
    have perm := List.perm_insertionSort (fun a b : IndoorCoverageLevel => a.le b = true) radios
    rw [empty] at perm
    exact nonempty perm.symm.eq_nil
  obtain ⟨winner, rest, first⟩ := List.exists_cons_of_ne_nil sortedNonempty
  rw [first] at sorted
  refine ⟨winner, by simp [indoorPick, picked, first], ?_⟩
  have held : ∀ cl ∈ radios, cl ∈ indoorEntries pushed wifi hex ∧ cl.signalLevel = level := by
    intro cl member
    rw [radiosEq] at member
    obtain ⟨row, rowIn, rfl⟩ := List.mem_map.mp member
    rw [List.mem_filter, decide_eq_true_eq] at rowIn
    exact ⟨List.mem_map_of_mem rowIn.1, rowIn.2⟩
  have winnerHeld := held winner
    ((List.perm_insertionSort _ _).subset (by rw [first]; exact List.mem_cons_self))
  refine ⟨winnerHeld.1, fun other otherIn => ?_, fun other otherIn sameLevel => ?_⟩
  · obtain ⟨row, rowIn, rfl⟩ := List.mem_map.mp otherIn
    rw [winnerHeld.2]
    exact strongest row rowIn
  · obtain ⟨row, rowIn, rfl⟩ := List.mem_map.mp otherIn
    have inHeap : indoorLevel row.1 row.2 ∈ winner :: rest := by
      rw [← first]
      refine (List.perm_insertionSort _ _).symm.subset ?_
      rw [radiosEq]
      refine List.mem_map_of_mem ?_
      rw [List.mem_filter, decide_eq_true_eq]
      exact ⟨rowIn, sameLevel.trans winnerHeld.2⟩
    rcases List.mem_cons.mp inHeap with same | later
    · rw [← same]
    · exact (IndoorCoverageLevel.le_iff _ _).mp (List.rel_of_pairwise_cons sorted later)

end IndoorPick

/-! ## The rewards of a run of calls -/

/-- After any calls, the rewards are, up to order, those of every covered hex: the outdoor
levels ranked by the heap's order, and at each indoor hex a level of the strongest signal
level with the oldest seniority. -/
theorem intoCoverageRewards_aggregateCalls (boostedHexes : BoostedHexes) (epochStart : Int)
    (calls : List (Nat × List HexCoverage)) :
    ∃ winner : Bool → Nat → IndoorCoverageLevel,
      (∀ wifi, ∀ hex ∈ classHexes (pushedCoverage calls) true wifi,
        IndoorWinner (indoorEntries (pushedCoverage calls) wifi hex) (winner wifi hex)) ∧
      (aggregateCalls boostedHexes calls).intoCoverageRewards boostedHexes epochStart ~
        (rankedRewards boostedHexes epochStart (pushedCoverage calls)
          (fun wifi hex => (outdoorEntries (pushedCoverage calls) wifi hex).insertionSort
            fun a b => a.le b) winner).filter fun reward => 0 < reward.points := by
  set pushed := pushedCoverage calls
  let winner : Bool → Nat → IndoorCoverageLevel := fun wifi hex =>
    (indoorPick (indoorLevelsAt pushed wifi hex)).getD ⟨.cbrs 0, 0, 0, .none⟩
  have picks : ∀ wifi, ∀ hex ∈ classHexes pushed true wifi,
      indoorPick (indoorLevelsAt pushed wifi hex) = some (winner wifi hex) ∧
        IndoorWinner (indoorEntries pushed wifi hex) (winner wifi hex) := by
    intro wifi hex covered
    obtain ⟨picked, pick, isWinner⟩ := indoorPick_indoorLevelsAt covered
    have chosen : winner wifi hex = picked := by simp only [winner, pick, Option.getD_some]
    rw [chosen]
    exact ⟨pick, isWinner⟩
  have outdoor : ∀ wifi, intoOutdoorRewards ((aggregateCalls boostedHexes calls).outdoor wifi)
      boostedHexes epochStart ~ (classHexes pushed false wifi).flatMap fun hex =>
        rankedOutdoorRewards boostedHexes epochStart hex
          ((outdoorEntries pushed wifi hex).insertionSort fun a b => a.le b) := by
    intro wifi
    rw [← intoOutdoorRewards_map_pair]
    exact intoOutdoorRewards_perm (outdoor_aggregateCalls_perm boostedHexes calls wifi) _ _
  have indoor : ∀ wifi, intoIndoorRewards ((aggregateCalls boostedHexes calls).indoor wifi)
      boostedHexes epochStart ~ (classHexes pushed true wifi).map fun hex =>
        indoorReward boostedHexes epochStart hex (winner wifi hex) := by
    intro wifi
    refine (intoIndoorRewards_perm (indoor_aggregateCalls_perm boostedHexes calls wifi) _ _).trans ?_
    rw [intoIndoorRewards_map_pair, List.map_eq_flatMap]
    refine List.Perm.of_eq (List.flatMap_congr fun hex covered => ?_)
    rw [(picks wifi hex covered).1]
    rfl
  refine ⟨winner, fun wifi hex covered => (picks wifi hex covered).2, ?_⟩
  unfold CoveredHexes.intoCoverageRewards rankedRewards
  refine List.Perm.filter _ ?_
  simp only [List.flatMap_cons, List.flatMap_nil, List.append_nil, List.append_assoc]
  exact (outdoor false).append ((outdoor true).append ((indoor false).append (indoor true)))

/-- Coverage ranking per hex. After any run of `aggregate_coverage` calls,
`into_coverage_rewards` gives, up to order, exactly these rewards: for each class and
each hex it covers, the first three outdoor levels in the order of stronger signal power,
then older seniority, the `k`-th with the `k`-th weight; or the indoor level, among those
of the strongest signal level present, with the oldest seniority. Each carries the hex's
boost multiplier, `1` when it has none, and rewards of no points are dropped. -/
theorem coverage_rewards_ranked_per_hex (boostedHexes : BoostedHexes) (epochStart : Int)
    (calls : List (Nat × List HexCoverage)) :
    ∃ (ranked : Bool → Nat → List OutdoorCoverageLevel)
      (winner : Bool → Nat → IndoorCoverageLevel),
      (∀ wifi hex, ranked wifi hex ~ outdoorEntries (pushedCoverage calls) wifi hex ∧
        (ranked wifi hex).Pairwise fun a b => b.signalPower < a.signalPower ∨
          (a.signalPower = b.signalPower ∧ a.seniorityTimestamp ≤ b.seniorityTimestamp)) ∧
      (∀ wifi, ∀ hex ∈ classHexes (pushedCoverage calls) true wifi,
        IndoorWinner (indoorEntries (pushedCoverage calls) wifi hex) (winner wifi hex)) ∧
      (aggregateCalls boostedHexes calls).intoCoverageRewards boostedHexes epochStart ~
        (rankedRewards boostedHexes epochStart (pushedCoverage calls) ranked winner).filter
          fun reward => 0 < reward.points := by
  obtain ⟨winner, winners, rewards⟩ := intoCoverageRewards_aggregateCalls boostedHexes epochStart calls
  refine ⟨_, winner, fun wifi hex => ⟨List.perm_insertionSort _ _, ?_⟩, winners, rewards⟩
  exact (pairwise_insertionSort_of _ OutdoorCoverageLevel.le_total OutdoorCoverageLevel.le_trans
    _).imp fun ranked => (OutdoorCoverageLevel.le_iff _ _).mp ranked

/-! ## Ties, and the order of the calls -/

/-- Two rows pushed at one hex for one class never push different levels that the heap of
that class orders as equal. -/
def NoTies (pushed : List (Nat × HexCoverage)) : Prop :=
  ∀ row ∈ pushed, ∀ other ∈ pushed, row.2.hex = other.2.hex → row.2.indoor = other.2.indoor →
    row.2.radioKey.isWifi = other.2.radioKey.isWifi →
    (row.2.indoor = false → (outdoorLevel row.1 row.2).le (outdoorLevel other.1 other.2) →
      (outdoorLevel other.1 other.2).le (outdoorLevel row.1 row.2) →
      outdoorLevel row.1 row.2 = outdoorLevel other.1 other.2) ∧
    (row.2.indoor = true → row.2.signalLevel = other.2.signalLevel →
      (indoorLevel row.1 row.2).le (indoorLevel other.1 other.2) →
      (indoorLevel other.1 other.2).le (indoorLevel row.1 row.2) →
      indoorLevel row.1 row.2 = indoorLevel other.1 other.2)

instance (pushed : List (Nat × HexCoverage)) : Decidable (NoTies pushed) := by
  unfold NoTies
  infer_instance

theorem inClass_iff {hexCoverage : HexCoverage} {indoor wifi : Bool} :
    hexCoverage.inClass indoor wifi = true ↔
      hexCoverage.indoor = indoor ∧ hexCoverage.radioKey.isWifi = wifi := by
  simp [HexCoverage.inClass]

theorem mem_classRowsAt {pushed : List (Nat × HexCoverage)} {indoor wifi : Bool} {hex : Nat}
    {row : Nat × HexCoverage} :
    row ∈ classRowsAt pushed indoor wifi hex ↔
      row ∈ pushed ∧ row.2.indoor = indoor ∧ row.2.radioKey.isWifi = wifi ∧ row.2.hex = hex := by
  simp [classRowsAt, inClass_iff, and_assoc]

section Ties

variable {pushed : List (Nat × HexCoverage)} {wifi : Bool} {hex : Nat}

theorem NoTies.outdoor (noTies : NoTies pushed) {a b : OutdoorCoverageLevel}
    (aIn : a ∈ outdoorEntries pushed wifi hex) (bIn : b ∈ outdoorEntries pushed wifi hex)
    (below : a.le b = true) (above : b.le a = true) : a = b := by
  obtain ⟨row, rowIn, rfl⟩ := List.mem_map.mp aIn
  obtain ⟨other, otherIn, rfl⟩ := List.mem_map.mp bIn
  rw [mem_classRowsAt] at rowIn otherIn
  exact (noTies row rowIn.1 other otherIn.1 (rowIn.2.2.2.trans otherIn.2.2.2.symm)
    (rowIn.2.1.trans otherIn.2.1.symm) (rowIn.2.2.1.trans otherIn.2.2.1.symm)).1 rowIn.2.1
    below above

theorem NoTies.indoor (noTies : NoTies pushed) {a b : IndoorCoverageLevel}
    (aIn : a ∈ indoorEntries pushed wifi hex) (bIn : b ∈ indoorEntries pushed wifi hex)
    (sameLevel : a.signalLevel = b.signalLevel) (below : a.le b = true)
    (above : b.le a = true) : a = b := by
  obtain ⟨row, rowIn, rfl⟩ := List.mem_map.mp aIn
  obtain ⟨other, otherIn, rfl⟩ := List.mem_map.mp bIn
  rw [mem_classRowsAt] at rowIn otherIn
  exact (noTies row rowIn.1 other otherIn.1 (rowIn.2.2.2.trans otherIn.2.2.2.symm)
    (rowIn.2.1.trans otherIn.2.1.symm) (rowIn.2.2.1.trans otherIn.2.2.1.symm)).2 rowIn.2.1
    sameLevel below above

end Ties

theorem SignalLevel.rank_injective {a b : SignalLevel} (same : a.rank = b.rank) : a = b := by
  cases a <;> cases b <;> first | rfl | cases same

theorem IndoorWinner.of_perm {levels levels' : List IndoorCoverageLevel}
    {winner : IndoorCoverageLevel} (isWinner : IndoorWinner levels winner) (same : levels ~ levels') :
    IndoorWinner levels' winner :=
  ⟨same.subset isWinner.mem, fun other otherIn => isWinner.strongest other (same.symm.subset otherIn),
    fun other otherIn => isWinner.oldest other (same.symm.subset otherIn)⟩

/-- Without ties, the level an indoor hex rewards is determined. -/
theorem IndoorWinner.unique {levels : List IndoorCoverageLevel} {winner winner' : IndoorCoverageLevel}
    (noTies : ∀ a ∈ levels, ∀ b ∈ levels, a.signalLevel = b.signalLevel → a.le b = true →
      b.le a = true → a = b)
    (isWinner : IndoorWinner levels winner) (isWinner' : IndoorWinner levels winner') :
    winner = winner' := by
  have sameLevel : winner.signalLevel = winner'.signalLevel :=
    SignalLevel.rank_injective (Nat.le_antisymm (isWinner'.strongest winner isWinner.mem)
      (isWinner.strongest winner' isWinner'.mem))
  refine noTies winner isWinner.mem winner' isWinner'.mem sameLevel ?_ ?_
  · exact (IndoorCoverageLevel.le_iff _ _).mpr (isWinner.oldest winner' isWinner'.mem sameLevel.symm)
  · exact (IndoorCoverageLevel.le_iff _ _).mpr (isWinner'.oldest winner isWinner.mem sameLevel)

section Reordered

variable {pushed pushed' : List (Nat × HexCoverage)}

theorem classHexes_perm (reordered : pushed ~ pushed') (indoor wifi : Bool) :
    classHexes pushed indoor wifi ~ classHexes pushed' indoor wifi :=
  ((reordered.filter _).map _).dedup

theorem outdoorEntries_perm (reordered : pushed ~ pushed') (wifi : Bool) (hex : Nat) :
    outdoorEntries pushed wifi hex ~ outdoorEntries pushed' wifi hex :=
  (reordered.filter _).map _

theorem indoorEntries_perm (reordered : pushed ~ pushed') (wifi : Bool) (hex : Nat) :
    indoorEntries pushed wifi hex ~ indoorEntries pushed' wifi hex :=
  (reordered.filter _).map _

/-- Without ties, the heap's order ranks the levels of an outdoor hex the same way whatever
their push order. -/
theorem insertionSort_outdoorEntries_eq (reordered : pushed ~ pushed') (noTies : NoTies pushed)
    (wifi : Bool) (hex : Nat) :
    (outdoorEntries pushed wifi hex).insertionSort (fun a b => a.le b) =
      (outdoorEntries pushed' wifi hex).insertionSort (fun a b => a.le b) := by
  have same := outdoorEntries_perm reordered wifi hex
  refine List.Perm.eq_of_pairwise (fun a b aIn bIn below above => ?_)
    (pairwise_insertionSort_of _ OutdoorCoverageLevel.le_total OutdoorCoverageLevel.le_trans _)
    (pairwise_insertionSort_of _ OutdoorCoverageLevel.le_total OutdoorCoverageLevel.le_trans _)
    (((List.perm_insertionSort _ _).trans same).trans (List.perm_insertionSort _ _).symm)
  exact noTies.outdoor ((List.perm_insertionSort _ _).subset aIn)
    (same.symm.subset ((List.perm_insertionSort _ _).subset bIn)) below above

/-- The rewards read off two rankings agree when the classes cover the same hexes and the
rankings and picks agree on them. -/
theorem rankedRewards_perm (boostedHexes : BoostedHexes) (epochStart : Int)
    {ranked ranked' : Bool → Nat → List OutdoorCoverageLevel}
    {winner winner' : Bool → Nat → IndoorCoverageLevel}
    (hexes : ∀ indoor wifi, classHexes pushed indoor wifi ~ classHexes pushed' indoor wifi)
    (sameRanks : ∀ wifi, ∀ hex ∈ classHexes pushed false wifi, ranked wifi hex = ranked' wifi hex)
    (samePicks : ∀ wifi, ∀ hex ∈ classHexes pushed true wifi, winner wifi hex = winner' wifi hex) :
    rankedRewards boostedHexes epochStart pushed ranked winner ~
      rankedRewards boostedHexes epochStart pushed' ranked' winner' := by
  have outdoor : ∀ wifi, ((classHexes pushed false wifi).flatMap fun hex =>
      rankedOutdoorRewards boostedHexes epochStart hex (ranked wifi hex)) ~
      (classHexes pushed' false wifi).flatMap fun hex =>
        rankedOutdoorRewards boostedHexes epochStart hex (ranked' wifi hex) := by
    intro wifi
    rw [List.flatMap_congr fun hex covered => by rw [sameRanks wifi hex covered]]
    exact (hexes false wifi).flatMap_right _
  have indoor : ∀ wifi, ((classHexes pushed true wifi).map fun hex =>
      indoorReward boostedHexes epochStart hex (winner wifi hex)) ~
      (classHexes pushed' true wifi).map fun hex =>
        indoorReward boostedHexes epochStart hex (winner' wifi hex) := by
    intro wifi
    rw [List.map_congr_left fun hex covered => by rw [samePicks wifi hex covered]]
    exact (hexes true wifi).map _
  unfold rankedRewards
  simp only [List.flatMap_cons, List.flatMap_nil, List.append_nil]
  exact ((outdoor false).append (outdoor true)).append ((indoor false).append (indoor true))

end Reordered

/-- Without ties, coverage rewards do not depend on the order of the pushes: two runs of
calls that push the same rows, in any interleaving of the calls and any order within each
stream, give the same rewards. -/
theorem coverage_rewards_order_independent_without_ties (boostedHexes : BoostedHexes)
    (epochStart : Int) {calls calls' : List (Nat × List HexCoverage)}
    (reordered : pushedCoverage calls ~ pushedCoverage calls')
    (noTies : NoTies (pushedCoverage calls)) :
    (aggregateCalls boostedHexes calls).intoCoverageRewards boostedHexes epochStart ~
      (aggregateCalls boostedHexes calls').intoCoverageRewards boostedHexes epochStart := by
  obtain ⟨winner, winners, rewards⟩ := intoCoverageRewards_aggregateCalls boostedHexes epochStart calls
  obtain ⟨winner', winners', rewards'⟩ :=
    intoCoverageRewards_aggregateCalls boostedHexes epochStart calls'
  refine rewards.trans (List.Perm.trans (List.Perm.filter _ ?_) rewards'.symm)
  refine rankedRewards_perm boostedHexes epochStart (classHexes_perm reordered)
    (fun wifi hex _ => insertionSort_outdoorEntries_eq reordered noTies wifi hex)
    (fun wifi hex covered => ?_)
  -- both picks are winners of the same levels, and without ties there is only one
  have covered' := (classHexes_perm reordered true wifi).subset covered
  exact IndoorWinner.unique (fun a aIn b bIn => noTies.indoor aIn bIn) (winners wifi hex covered)
    ((winners' wifi hex covered').of_perm (indoorEntries_perm reordered wifi hex).symm)

/-- A call of hotspot `hotspot` covering hex `100` outdoors with a CBRS radio of its own,
at `power` and high signal, claimed at time `0`. -/
def outdoorCall (hotspot : Nat) (power : Int) : Nat × List HexCoverage :=
  (hotspot, [⟨100, false, .cbrs hotspot, .high, power, 0⟩])

/-- Radios at `-70` and `-80` do not tie: either order of the calls ranks the stronger
first. -/
theorem outdoor_calls_ranked_either_order :
    (aggregateCalls noBoostedHexes [outdoorCall 1 (-70), outdoorCall 2 (-80)]).intoCoverageRewards
        noBoostedHexes 0 ~
      (aggregateCalls noBoostedHexes [outdoorCall 2 (-80), outdoorCall 1 (-70)]).intoCoverageRewards
        noBoostedHexes 0 :=
  coverage_rewards_order_independent_without_ties noBoostedHexes 0 (by decide) (by decide)

/-- Two radios of hex `100` with the same signal power and seniority tie in the outdoor
heap. Pushed first, a radio takes the first slot and its 16 points; pushed second, the
second slot and 8. (`BinaryHeap::into_sorted_vec` returns two equal elements in the reverse
of their push order, which swaps the slots but still lets the order of the calls decide
them.) -/
theorem tied_radios_swap_by_order :
    pushedCoverage [outdoorCall 1 (-70), outdoorCall 2 (-70)] ~
      pushedCoverage [outdoorCall 2 (-70), outdoorCall 1 (-70)] ∧
    ¬ (aggregateCalls noBoostedHexes [outdoorCall 1 (-70), outdoorCall 2 (-70)]).intoCoverageRewards
        noBoostedHexes 0 ~
      (aggregateCalls noBoostedHexes [outdoorCall 2 (-70), outdoorCall 1 (-70)]).intoCoverageRewards
        noBoostedHexes 0 := by
  decide +kernel

end HeliumOracles.MobileVerifier

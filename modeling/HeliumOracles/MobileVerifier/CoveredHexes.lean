import Mathlib.Data.Rat.Defs
import Mathlib.Data.List.Sort
import HeliumOracles.Lib.AssocMap
import HeliumOracles.Lib.Relational

/-!
# Ranking the radios of a hex

Model of `CoveredHexes` in `mobile_verifier/src/coverage.rs`: `aggregate_coverage`
pushes every covered hex of a radio into a heap of its hex, one map per kind of
radio (indoor or outdoor, CBRS or WiFi), and `into_coverage_rewards` ranks each heap.
An outdoor hex rewards its three best radios with the weights `1`, `1/2` and `1/4`
of `OUTDOOR_REWARD_WEIGHTS`; an indoor hex rewards the most senior radio of its
strongest signal level.

A `HashMap` is an association list (`Lib.AssocMap`); a `BinaryHeap` is the list of
what was pushed, and `into_sorted_vec` sorts it by the heap's `Ord` with a stable
insertion sort: ties keep their push order, one of the orders the heap may return. The `BTreeMap` of an indoor hex
is an association list too, and `pop_last` takes its entry of greatest signal level.
Hexes are `CellIndex` numbers and `Decimal` points are rationals.
-/
namespace HeliumOracles.MobileVerifier

open Lib.AssocMap Lib.Relational
open scoped List

/-- `SignalLevel`. -/
inductive SignalLevel where
  | none
  | low
  | medium
  | high
deriving DecidableEq, Repr

/-- The derived `Ord` of `SignalLevel`: declaration order. -/
def SignalLevel.rank : SignalLevel → Nat
  | .none => 0
  | .low => 1
  | .medium => 2
  | .high => 3

/-- `OwnedKeyType`: a CBRS radio by its `cbsd_id`, a WiFi radio by its hotspot. -/
inductive OwnedKeyType where
  | cbrs (cbsdId : Nat)
  | wifi (hotspotKey : Nat)
deriving DecidableEq, Repr

def OwnedKeyType.intoCbsdId : OwnedKeyType → Option Nat
  | .cbrs cbsdId => some cbsdId
  | .wifi _ => none

def OwnedKeyType.isWifi : OwnedKeyType → Bool
  | .cbrs _ => false
  | .wifi _ => true

/-- `HexCoverage`, a row of `covered_hex_stream`, with the fields `aggregate_coverage`
reads. -/
structure HexCoverage where
  hex : Nat
  indoor : Bool
  radioKey : OwnedKeyType
  signalLevel : SignalLevel
  signalPower : Int
  coverageClaimTime : Int
deriving DecidableEq, Repr

/-- `IndoorCoverageLevel`. -/
structure IndoorCoverageLevel where
  radioKey : OwnedKeyType
  seniorityTimestamp : Int
  hotspot : Nat
  signalLevel : SignalLevel
deriving DecidableEq, Repr

/-- `Ord for IndoorCoverageLevel`: the older seniority first. -/
def IndoorCoverageLevel.le (a b : IndoorCoverageLevel) : Bool :=
  a.seniorityTimestamp ≤ b.seniorityTimestamp

def IndoorCoverageLevel.coveragePoints (level : IndoorCoverageLevel) : ℚ :=
  match level.signalLevel with
  | .high => 400
  | .low => 100
  | _ => 0

/-- `OutdoorCoverageLevel`. -/
structure OutdoorCoverageLevel where
  radioKey : OwnedKeyType
  seniorityTimestamp : Int
  hotspot : Nat
  signalPower : Int
  signalLevel : SignalLevel
deriving DecidableEq, Repr

/-- `Ord for OutdoorCoverageLevel`: the stronger signal first (the comparison is
reversed), then the older seniority. -/
def OutdoorCoverageLevel.le (a b : OutdoorCoverageLevel) : Bool :=
  b.signalPower < a.signalPower ||
    (a.signalPower = b.signalPower && a.seniorityTimestamp ≤ b.seniorityTimestamp)

def OutdoorCoverageLevel.coveragePoints (level : OutdoorCoverageLevel) : ℚ :=
  match level.signalLevel with
  | .high => 16
  | .medium => 8
  | .low => 4
  | .none => 0

/-- `CoveredHexes`. -/
structure CoveredHexes where
  indoorCbrs : Map Nat (Map SignalLevel (List IndoorCoverageLevel)) := []
  indoorWifi : Map Nat (Map SignalLevel (List IndoorCoverageLevel)) := []
  outdoorCbrs : Map Nat (List OutdoorCoverageLevel) := []
  outdoorWifi : Map Nat (List OutdoorCoverageLevel) := []
deriving Repr

def maxIndoorRadiosPerRes12Hex : Nat := 1

def maxOutdoorRadiosPerRes12Hex : Nat := 3

def outdoorRewardWeights : List ℚ := [1, 1 / 2, 1 / 4]

/-- `BoostedHexes` as the reward code reads it: `is_boosted` and
`get_current_multiplier`. -/
structure BoostedHexes where
  isBoosted : Nat → Bool
  currentMultiplier : Nat → Int → Option Nat

def insertIndoorCoverage (indoor : Map Nat (Map SignalLevel (List IndoorCoverageLevel)))
    (hotspot : Nat) (hexCoverage : HexCoverage) :
    Map Nat (Map SignalLevel (List IndoorCoverageLevel)) :=
  modifyEntry hexCoverage.hex [] (modifyEntry hexCoverage.signalLevel []
    (· ++ [⟨hexCoverage.radioKey, hexCoverage.coverageClaimTime, hotspot,
      hexCoverage.signalLevel⟩])) indoor

def insertOutdoorCoverage (outdoor : Map Nat (List OutdoorCoverageLevel)) (hotspot : Nat)
    (hexCoverage : HexCoverage) : Map Nat (List OutdoorCoverageLevel) :=
  modifyEntry hexCoverage.hex []
    (· ++ [⟨hexCoverage.radioKey, hexCoverage.coverageClaimTime, hotspot,
      hexCoverage.signalPower, hexCoverage.signalLevel⟩]) outdoor

/-- The body of the loop of `aggregate_coverage`: one covered hex into the map of
its kind. -/
def CoveredHexes.insert (self : CoveredHexes) (hotspot : Nat) (hexCoverage : HexCoverage) :
    CoveredHexes :=
  match hexCoverage.indoor, hexCoverage.radioKey with
  | true, .cbrs _ => { self with indoorCbrs := insertIndoorCoverage self.indoorCbrs hotspot hexCoverage }
  | true, .wifi _ => { self with indoorWifi := insertIndoorCoverage self.indoorWifi hotspot hexCoverage }
  | false, .cbrs _ =>
    { self with outdoorCbrs := insertOutdoorCoverage self.outdoorCbrs hotspot hexCoverage }
  | false, .wifi _ =>
    { self with outdoorWifi := insertOutdoorCoverage self.outdoorWifi hotspot hexCoverage }

/-- `aggregate_coverage`: the covered hexes with the stream pushed, and whether the
stream touches a boosted hex. -/
def CoveredHexes.aggregateCoverage (self : CoveredHexes) (hotspot : Nat)
    (boostedHexes : BoostedHexes) (coveredHexes : List HexCoverage) : CoveredHexes × Bool :=
  coveredHexes.foldl (fun acc hexCoverage =>
    (acc.1.insert hotspot hexCoverage, acc.2 || boostedHexes.isBoosted hexCoverage.hex))
    (self, false)

/-- `BoostedHex`. -/
structure BoostedHex where
  location : Nat
  multiplier : Nat
deriving DecidableEq, Repr

/-- `CoverageReward`. -/
structure CoverageReward where
  radioKey : OwnedKeyType
  points : ℚ
  hotspot : Nat
  boostedHexInfo : BoostedHex
deriving DecidableEq, Repr

/-- `get_current_multiplier(hex, epoch_start).unwrap_or(1)`. -/
def boostMultiplier (boostedHexes : BoostedHexes) (hex : Nat) (epochStart : Int) : Nat :=
  (boostedHexes.currentMultiplier hex epochStart).getD 1

def intoOutdoorRewards (outdoor : Map Nat (List OutdoorCoverageLevel))
    (boostedHexes : BoostedHexes) (epochStart : Int) : List CoverageReward :=
  outdoor.flatMap fun (hex, radios) =>
    (((radios.insertionSort fun a b => a.le b).take maxOutdoorRadiosPerRes12Hex).zip
      outdoorRewardWeights).map fun (cl, rank) =>
        ⟨cl.radioKey, cl.coveragePoints * rank, cl.hotspot,
          ⟨hex, boostMultiplier boostedHexes hex epochStart⟩⟩

def intoIndoorRewards (indoor : Map Nat (Map SignalLevel (List IndoorCoverageLevel)))
    (boostedHexes : BoostedHexes) (epochStart : Int) : List CoverageReward :=
  indoor.flatMap fun (hex, radios) =>
    match latestBy (·.1.rank) radios with
    | none => []
    | some (_, radios) =>
      ((radios.insertionSort fun a b => a.le b).take maxIndoorRadiosPerRes12Hex).map fun cl =>
        ⟨cl.radioKey, cl.coveragePoints, cl.hotspot,
          ⟨hex, boostMultiplier boostedHexes hex epochStart⟩⟩

/-- `into_coverage_rewards`. -/
def CoveredHexes.intoCoverageRewards (self : CoveredHexes) (boostedHexes : BoostedHexes)
    (epochStart : Int) : List CoverageReward :=
  (intoOutdoorRewards self.outdoorCbrs boostedHexes epochStart ++
    intoOutdoorRewards self.outdoorWifi boostedHexes epochStart ++
    intoIndoorRewards self.indoorCbrs boostedHexes epochStart ++
    intoIndoorRewards self.indoorWifi boostedHexes epochStart).filter fun r => 0 < r.points

/-! ## Which radio holds which slot -/

/-- The hex and radio of a covered hex. -/
def HexCoverage.key (hexCoverage : HexCoverage) : Nat × OwnedKeyType :=
  (hexCoverage.hex, hexCoverage.radioKey)

/-- The hex and radio of a reward. -/
def CoverageReward.key (reward : CoverageReward) : Nat × OwnedKeyType :=
  (reward.boostedHexInfo.location, reward.radioKey)

/-- The hex and radio of every level an outdoor map holds. -/
def outdoorKeys (outdoor : Map Nat (List OutdoorCoverageLevel)) : List (Nat × OwnedKeyType) :=
  outdoor.flatMap fun e => e.2.map fun cl => (e.1, cl.radioKey)

/-- The hex and radio of every level an indoor map holds, over all signal levels. -/
def indoorKeys (indoor : Map Nat (Map SignalLevel (List IndoorCoverageLevel))) :
    List (Nat × OwnedKeyType) :=
  indoor.flatMap fun e => e.2.flatMap fun level => level.2.map fun cl => (e.1, cl.radioKey)

/-- The hex and radio of every level the covered hexes hold. -/
def CoveredHexes.coverageKeys (self : CoveredHexes) : List (Nat × OwnedKeyType) :=
  outdoorKeys self.outdoorCbrs ++ outdoorKeys self.outdoorWifi ++ indoorKeys self.indoorCbrs ++
    indoorKeys self.indoorWifi

theorem outdoorKeys_insert (outdoor : Map Nat (List OutdoorCoverageLevel)) (hotspot : Nat)
    (hexCoverage : HexCoverage) :
    outdoorKeys (insertOutdoorCoverage outdoor hotspot hexCoverage) ~
      outdoorKeys outdoor ++ [hexCoverage.key] := by
  unfold outdoorKeys insertOutdoorCoverage
  refine flatMap_modifyEntry_perm (fun hex radios => radios.map fun cl => (hex, cl.radioKey))
    hexCoverage.hex [] _ [hexCoverage.key] rfl ?_ outdoor
  intro radios
  simp [HexCoverage.key]

theorem indoorKeys_insert (indoor : Map Nat (Map SignalLevel (List IndoorCoverageLevel)))
    (hotspot : Nat) (hexCoverage : HexCoverage) :
    indoorKeys (insertIndoorCoverage indoor hotspot hexCoverage) ~
      indoorKeys indoor ++ [hexCoverage.key] := by
  unfold indoorKeys insertIndoorCoverage
  -- a push changes one heap of one signal level of one hex: the lemma applies twice
  refine flatMap_modifyEntry_perm
    (fun hex levels => levels.flatMap fun level => level.2.map fun cl => (hex, cl.radioKey))
    hexCoverage.hex [] _ [hexCoverage.key] rfl ?_ indoor
  intro levels
  refine flatMap_modifyEntry_perm
    (fun _ radios => radios.map fun cl => (hexCoverage.hex, cl.radioKey))
    hexCoverage.signalLevel [] _ [hexCoverage.key] rfl ?_ levels
  intro radios
  simp [HexCoverage.key]

/-- A push stores exactly the pushed hex and radio, in one of the four maps. -/
theorem CoveredHexes.coverageKeys_insert (self : CoveredHexes) (hotspot : Nat)
    (hexCoverage : HexCoverage) :
    (self.insert hotspot hexCoverage).coverageKeys ~ self.coverageKeys ++ [hexCoverage.key] := by
  rw [List.perm_iff_count]
  intro key
  have outdoorCbrs := List.perm_iff_count.mp
    (outdoorKeys_insert self.outdoorCbrs hotspot hexCoverage) key
  have outdoorWifi := List.perm_iff_count.mp
    (outdoorKeys_insert self.outdoorWifi hotspot hexCoverage) key
  have indoorCbrs := List.perm_iff_count.mp
    (indoorKeys_insert self.indoorCbrs hotspot hexCoverage) key
  have indoorWifi := List.perm_iff_count.mp
    (indoorKeys_insert self.indoorWifi hotspot hexCoverage) key
  simp only [List.count_append] at outdoorCbrs outdoorWifi indoorCbrs indoorWifi
  -- the covered hex goes to the map of its kind and the other three stay as they are
  unfold CoveredHexes.insert
  split <;> simp only [coverageKeys, List.count_append] <;> omega

/-- `aggregate_coverage` stores the hex and radio of every row of the stream. -/
theorem CoveredHexes.coverageKeys_aggregateCoverage (self : CoveredHexes) (hotspot : Nat)
    (boostedHexes : BoostedHexes) (coveredHexes : List HexCoverage) :
    (self.aggregateCoverage hotspot boostedHexes coveredHexes).1.coverageKeys ~
      self.coverageKeys ++ coveredHexes.map HexCoverage.key := by
  unfold CoveredHexes.aggregateCoverage
  -- the fold's accumulator is a pair; the induction runs over the stream from any pair
  suffices pushed : ∀ acc : CoveredHexes × Bool,
      (coveredHexes.foldl (fun acc hexCoverage =>
        (acc.1.insert hotspot hexCoverage, acc.2 || boostedHexes.isBoosted hexCoverage.hex))
        acc).1.coverageKeys ~ acc.1.coverageKeys ++ coveredHexes.map HexCoverage.key from
    pushed (self, false)
  induction coveredHexes with
  | nil => simp
  | cons hexCoverage rest later =>
    intro acc
    rw [List.foldl_cons, List.map_cons]
    calc _ ~ (acc.1.insert hotspot hexCoverage).coverageKeys ++ rest.map HexCoverage.key :=
          later (acc.1.insert hotspot hexCoverage, acc.2 || boostedHexes.isBoosted hexCoverage.hex)
      _ ~ (acc.1.coverageKeys ++ [hexCoverage.key]) ++ rest.map HexCoverage.key :=
          (acc.1.coverageKeys_insert hotspot hexCoverage).append_right _
      _ = acc.1.coverageKeys ++ hexCoverage.key :: rest.map HexCoverage.key := by simp

/-- The rewards of an outdoor hex go to radios of its heap, at most once each time the
heap holds them. -/
theorem intoOutdoorRewards_keys_subperm (outdoor : Map Nat (List OutdoorCoverageLevel))
    (boostedHexes : BoostedHexes) (epochStart : Int) :
    (intoOutdoorRewards outdoor boostedHexes epochStart).map CoverageReward.key <+~
      outdoorKeys outdoor := by
  unfold intoOutdoorRewards outdoorKeys
  rw [List.map_flatMap]
  refine flatMap_subperm ?_
  rintro ⟨hex, radios⟩ -
  have weighted : ((radios.insertionSort fun a b => a.le b).take
      maxOutdoorRadiosPerRes12Hex).length ≤ outdoorRewardWeights.length :=
    List.length_take_le _ _
  -- each of the best radios is paired with one weight, so the rewards name them all
  simp only [List.map_map]
  calc _ = ((radios.insertionSort fun a b => a.le b).take maxOutdoorRadiosPerRes12Hex).map
          (fun cl => (hex, cl.radioKey)) := map_zip_of_fst _ _ weighted fun _ => rfl
    _ <+~ radios.map fun cl => (hex, cl.radioKey) := map_take_insertionSort_subperm _ _ _ _

/-- The reward of an indoor hex goes to a radio of one of its heaps. -/
theorem intoIndoorRewards_keys_subperm
    (indoor : Map Nat (Map SignalLevel (List IndoorCoverageLevel)))
    (boostedHexes : BoostedHexes) (epochStart : Int) :
    (intoIndoorRewards indoor boostedHexes epochStart).map CoverageReward.key <+~
      indoorKeys indoor := by
  unfold intoIndoorRewards indoorKeys
  rw [List.map_flatMap]
  refine flatMap_subperm ?_
  rintro ⟨hex, levels⟩ -
  rcases picked : latestBy (·.1.rank) levels with _ | ⟨level, radios⟩
  · simp only [picked, List.map_nil]
    exact List.nil_subperm
  · -- `pop_last` takes one of the hex's heaps
    have present : (level, radios) ∈ levels := (latestBy_spec picked).1
    simp only [picked, List.map_map]
    exact (map_take_insertionSort_subperm _ _ _ radios).trans (sublist_flatMap_of_mem
      (f := fun level : SignalLevel × List IndoorCoverageLevel =>
        level.2.map fun cl => (hex, cl.radioKey)) present).subperm

/-- Every reward of `into_coverage_rewards` is a slot of a level the covered hexes hold,
and no level gives two rewards. -/
theorem CoveredHexes.rewardKeys_subperm (self : CoveredHexes) (boostedHexes : BoostedHexes)
    (epochStart : Int) :
    (self.intoCoverageRewards boostedHexes epochStart).map CoverageReward.key <+~
      self.coverageKeys := by
  unfold CoveredHexes.intoCoverageRewards CoveredHexes.coverageKeys
  refine (((List.filter_sublist).map _).subperm).trans ?_
  simp only [List.map_append]
  exact (((intoOutdoorRewards_keys_subperm _ _ _).append
    (intoOutdoorRewards_keys_subperm _ _ _)).append (intoIndoorRewards_keys_subperm _ _ _)).append
      (intoIndoorRewards_keys_subperm _ _ _)

end HeliumOracles.MobileVerifier

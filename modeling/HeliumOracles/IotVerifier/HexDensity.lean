import Mathlib.Data.Nat.Pairing
import HeliumOracles.Lib.Reorder
import HeliumOracles.IotVerifier.Runner

/-!
# Hex density scaling

Source: `iot_verifier/src/hex_density.rs` (`HIP104_RES_CONFIG`, `GlobalHexMap::new`,
`increment_unclipped`, `reduce_global`, `rollup_child_count`, `reduce_hex_res`,
`occupied_count`, `limit`, `get_res_tgt`, `compute_hex_density_map`).

A `HashMap<CellIndex, u64>` is read here only through lookups and inserts, so it is a
function from cells to optional counts; the one place its iteration order enters,
`unclipped_hexes.clone().into_keys()`, is an argument of `reduceGlobal`, any list of the
map's keys; `Itertools::unique` is `unique` (Lib.Reorder). Of `h3o` the
code calls `CellIndex::try_from`, `u64::from`, `parent` and `grid_disk(1)`: they are the
fields of `HexGrid`, with the two facts the proofs use, that a parent is at the
resolution asked for and that the `u64` of a cell names it. `Decimal` products and
quotients are those of `Arith` (Lib.Decimal); counts are far below `2 ^ 63`, so `as i64`
keeps them.

Within one resolution `reduce_hex_res` clips the parents one by one, and each clip reads
the clipped counts of the neighbours through `occupied_count`. The clip of a count never
moves it across the density target (`target_le_limit`), so the loop clips every parent as
if from the counts before the loop (`foldl_clipCell`), in any order. With the rollups,
which add up the children (`foldl_rollupCell`), the result depends on the asserted
locations only as a multiset (`hex_density_order_independent`).
-/
namespace HeliumOracles.IotVerifier

open HeliumOracles.Lib.Decimal HeliumOracles.Lib.Reorder

/-- What the density computation calls of `h3o`. -/
structure HexGrid (Cell : Type) where
  /-- `CellIndex::try_from(u64)`. -/
  ofIndex : Nat → Option Cell
  /-- `u64::from(CellIndex)`. -/
  toIndex : Cell → Nat
  resolution : Cell → Nat
  /-- `CellIndex::parent(res)`. -/
  parent : Cell → Nat → Option Cell
  /-- `CellIndex::grid_disk(1)`. -/
  gridDisk : Cell → List Cell
  parent_resolution : ∀ {cell res parentCell}, parent cell res = some parentCell →
    resolution parentCell = res
  toIndex_injective : Function.Injective toIndex

/-- `HexResConfig`. -/
structure HexResConfig where
  neighbors : Nat
  target : Nat
  max : Nat
  deriving DecidableEq, Repr

/-- `HIP104_RES_CONFIG`. -/
def hip104ResConfig : Nat → Option HexResConfig
  | 4 => some ⟨2, 500, 1000⟩
  | 5 => some ⟨4, 100, 200⟩
  | 6 => some ⟨4, 25, 50⟩
  | 7 => some ⟨4, 5, 10⟩
  | 8 => some ⟨2, 1, 1⟩
  | 9 => some ⟨2, 1, 1⟩
  | 10 => some ⟨2, 1, 1⟩
  | _ => none

/-- `MAX_RES`. -/
def maxRes : Nat := 11

/-- `USED_RES`. -/
def usedRes : List Nat := [10, 9, 8, 7, 6, 5, 4]

/-- `SCALING_RES`. -/
def scalingRes : List Nat := [13, 12, 11, 10, 9, 8, 7, 6, 5, 4]

/-- `HexMap`, through its lookups. -/
abbrev HexMap (Cell : Type) := Cell → Option Nat

section Model

variable {Cell : Type} [DecidableEq Cell]

/-- `map.entry(key).and_modify(|count| *count += n).or_insert(n)`. -/
def addEntry (map : HexMap Cell) (key : Cell) (n : Nat) : HexMap Cell :=
  Function.update map key (some ((map key).getD 0 + n))

/-- `GlobalHexMap`. -/
structure GlobalHexMap (Cell : Type) where
  clippedHexes : HexMap Cell
  unclippedHexes : HexMap Cell
  assertedHexes : List Cell

/-- `GlobalHexMap::new`. -/
def GlobalHexMap.new : GlobalHexMap Cell := ⟨fun _ => none, fun _ => none, []⟩

/-- `GlobalHexMap::increment_unclipped`: a location counted at its parent of resolution
`MAX_RES`, in both maps. -/
def GlobalHexMap.incrementUnclipped (grid : HexGrid Cell) (self : GlobalHexMap Cell)
    (index : Nat) : GlobalHexMap Cell :=
  match grid.ofIndex index with
  | none => self
  | some cell =>
    match grid.parent cell maxRes with
    | none => self
    | some parentCell =>
      ⟨addEntry self.clippedHexes parentCell 1, addEntry self.unclippedHexes parentCell 1,
        self.assertedHexes ++ [cell]⟩

/-- `rollup_child_count`: the clipped count of a cell added to its parent in both maps. -/
def rollupChildCount (unclippedMap clippedMap : HexMap Cell) (cell parentCell : Cell) :
    HexMap Cell × HexMap Cell :=
  let cellCount := (clippedMap cell).getD 0
  (addEntry unclippedMap parentCell cellCount, addEntry clippedMap parentCell cellCount)

/-- The body of the first loop of a resolution in `reduce_hex_res`. -/
def rollupCell (grid : HexGrid Cell) (res : Nat) (state : HexMap Cell × HexMap Cell × List Cell)
    (cell : Cell) : HexMap Cell × HexMap Cell × List Cell :=
  match grid.parent cell res with
  | some parentCell =>
    let (unclipped, clipped) := rollupChildCount state.1 state.2.1 cell parentCell
    (unclipped, clipped, state.2.2 ++ [parentCell])
  | none => state

/-- `occupied_count`: the cells of the disk whose count reaches the density target. -/
def occupiedCount (grid : HexGrid Cell) (cellMap : HexMap Cell) (hex : Cell) (densityTgt : Nat) :
    Nat :=
  (grid.gridDisk hex).foldl (fun count cell =>
    match cellMap cell with
    | some population => if population ≥ densityTgt then count + 1 else count
    | none => count) 0

/-- `limit`, with the configuration of the resolution. -/
def limit (resConfig : HexResConfig) (occupiedCount : Nat) : Nat :=
  let occupiedNeighborDiff := occupiedCount - resConfig.neighbors
  let max := max (occupiedNeighborDiff + 1) 1
  min resConfig.max (resConfig.target * max)

/-- The body of the second loop of a resolution: a parent clipped to its limit. -/
def clipCell (grid : HexGrid Cell) (densityTgt : Nat) (resConfig : HexResConfig)
    (unclipped : HexMap Cell) (clipped : HexMap Cell) (parentCell : Cell) : HexMap Cell :=
  let occupiedCount := occupiedCount grid clipped parentCell densityTgt
  let limit := limit resConfig occupiedCount
  match unclipped parentCell with
  | some count => Function.update clipped parentCell (some (min limit count))
  | none => clipped

/-- One resolution of `reduce_hex_res`: the counts rolled up into the parents, then each
parent clipped. `get_res_tgt` unwraps the configuration of the resolution before the
clips, and `limit` finds the same one. -/
def reduceRes (grid : HexGrid Cell) (state : HexMap Cell × HexMap Cell × List Cell) (res : Nat) :
    Option (HexMap Cell × HexMap Cell × List Cell) := do
  let (unclipped, clipped, parents) := state.2.2.foldl (rollupCell grid res) (state.1, state.2.1, [])
  let resConfig ← hip104ResConfig res
  let densityTgt := resConfig.target
  let hexesAtRes := unique parents
  pure (unclipped, hexesAtRes.foldl (clipCell grid densityTgt resConfig unclipped) clipped,
    hexesAtRes)

/-- `reduce_hex_res`: the resolutions of `USED_RES` in turn. -/
def reduceHexRes (grid : HexGrid Cell) (unclipped clipped : HexMap Cell) (hexList : List Cell) :
    Option (HexMap Cell × HexMap Cell) :=
  (usedRes.foldlM (reduceRes grid) (unclipped, clipped, hexList)).map fun state =>
    (state.1, state.2.1)

/-- `GlobalHexMap::reduce_global`, given the keys of `unclipped_hexes` in the order the
map yields them. -/
def GlobalHexMap.reduceGlobal (grid : HexGrid Cell) (self : GlobalHexMap Cell)
    (unclippedKeys : List Cell) : Option (GlobalHexMap Cell) :=
  (reduceHexRes grid self.unclippedHexes self.clippedHexes (unique unclippedKeys)).map
    fun maps => { self with unclippedHexes := maps.1, clippedHexes := maps.2 }

/-- The scale of an asserted hex: the clipped share of each of its parents. -/
def hexScale (grid : HexGrid Cell) (arith : Arith) (globalMap : GlobalHexMap Cell) (hex : Cell) :
    ℚ :=
  scalingRes.foldl (fun scale res =>
    match grid.parent hex res with
    | none => scale
    | some parentCell =>
      match globalMap.unclippedHexes parentCell, globalMap.clippedHexes parentCell with
      | some unclipped, some clipped =>
        arith.mul scale (arith.div ((clipped : ℚ) / 10 ^ scalingPrecision)
          ((unclipped : ℚ) / 10 ^ scalingPrecision))
      | _, _ => scale) 1

/-- `compute_hex_density_map`: the rounded scale of every asserted hex, by its `u64`. -/
def computeHexDensityMap (grid : HexGrid Cell) (arith : Arith) (globalMap : GlobalHexMap Cell) :
    Nat → Option ℚ :=
  globalMap.assertedHexes.foldl (fun map hex =>
    Function.update map (grid.toIndex hex)
      (some (roundDp scalingPrecision .midpointNearestEven (hexScale grid arith globalMap hex))))
    fun _ => none

/-- The locations of the asserted hotspots counted one after another. -/
def incrementAll (grid : HexGrid Cell) (indexes : List Nat) : GlobalHexMap Cell :=
  indexes.foldl (GlobalHexMap.incrementUnclipped grid) GlobalHexMap.new

end Model

/-! ## The map updates -/

section Maps

variable {Cell : Type} [DecidableEq Cell]

@[simp] theorem addEntry_self (map : HexMap Cell) (key : Cell) (n : Nat) :
    addEntry map key n key = some ((map key).getD 0 + n) := by
  simp [addEntry]

theorem addEntry_of_ne {map : HexMap Cell} {key other : Cell} (n : Nat) (ne : other ≠ key) :
    addEntry map key n other = map other := by
  simp [addEntry, ne]

/-- Two additions commute, at one key or at two. -/
theorem addEntry_right_comm (map : HexMap Cell) (key key' : Cell) (n n' : Nat) :
    addEntry (addEntry map key n) key' n' = addEntry (addEntry map key' n') key n := by
  funext cell
  by_cases atKey : cell = key <;> by_cases atKey' : cell = key'
  · subst atKey atKey'
    simp only [addEntry_self, Option.getD_some, Nat.add_right_comm]
  · subst atKey
    simp [addEntry_of_ne _ atKey']
  · subst atKey'
    simp [addEntry_of_ne _ atKey]
  · simp [addEntry_of_ne _ atKey, addEntry_of_ne _ atKey']

end Maps

/-! ## States that differ in order only -/

section Reordering

variable {Cell : Type}

/-- Two global maps that differ only in the order of their asserted hexes. -/
def GlobalHexMap.Reordered (self other : GlobalHexMap Cell) : Prop :=
  self.clippedHexes = other.clippedHexes ∧ self.unclippedHexes = other.unclippedHexes ∧
    self.assertedHexes.Perm other.assertedHexes

theorem GlobalHexMap.Reordered.refl (self : GlobalHexMap Cell) : self.Reordered self :=
  ⟨rfl, rfl, .refl _⟩

theorem GlobalHexMap.Reordered.trans {a b c : GlobalHexMap Cell} (first : a.Reordered b)
    (second : b.Reordered c) : a.Reordered c :=
  ⟨first.1.trans second.1, first.2.1.trans second.2.1, first.2.2.trans second.2.2⟩

/-- Two states of the resolution loop that differ only in the order of their list. -/
def Reordered (state other : HexMap Cell × HexMap Cell × List Cell) : Prop :=
  state.1 = other.1 ∧ state.2.1 = other.2.1 ∧ state.2.2.Perm other.2.2

theorem Reordered.refl (state : HexMap Cell × HexMap Cell × List Cell) : Reordered state state :=
  ⟨rfl, rfl, .refl _⟩

theorem Reordered.trans {a b c : HexMap Cell × HexMap Cell × List Cell} (first : Reordered a b)
    (second : Reordered b c) : Reordered a c :=
  ⟨first.1.trans second.1, first.2.1.trans second.2.1, first.2.2.trans second.2.2⟩

end Reordering

/-! ## Counting the asserted locations -/

section Increment

variable {Cell : Type} [DecidableEq Cell] (grid : HexGrid Cell)

/-- The cell of a location and its parent at `MAX_RES`, when both exist. -/
def locateIndex (index : Nat) : Option (Cell × Cell) :=
  (grid.ofIndex index).bind fun cell => (grid.parent cell maxRes).map fun parentCell => (cell, parentCell)

theorem incrementUnclipped_eq (self : GlobalHexMap Cell) (index : Nat) :
    self.incrementUnclipped grid index =
      match locateIndex grid index with
      | none => self
      | some (cell, parentCell) =>
        ⟨addEntry self.clippedHexes parentCell 1, addEntry self.unclippedHexes parentCell 1,
          self.assertedHexes ++ [cell]⟩ := by
  unfold GlobalHexMap.incrementUnclipped locateIndex
  cases grid.ofIndex index with
  | none => rfl
  | some cell =>
    dsimp only [Option.bind_some]
    cases grid.parent cell maxRes <;> rfl

variable {grid}

theorem incrementUnclipped_reordered {self other : GlobalHexMap Cell} (index : Nat)
    (related : self.Reordered other) :
    (self.incrementUnclipped grid index).Reordered (other.incrementUnclipped grid index) := by
  obtain ⟨clipped, unclipped, asserted⟩ := related
  rw [incrementUnclipped_eq, incrementUnclipped_eq]
  cases locateIndex grid index with
  | none => exact ⟨clipped, unclipped, asserted⟩
  | some located => exact ⟨by rw [clipped], by rw [unclipped], asserted.append_right _⟩

/-- Two locations are counted in either order to the same maps. -/
theorem incrementUnclipped_swap (self : GlobalHexMap Cell) (index index' : Nat) :
    ((self.incrementUnclipped grid index).incrementUnclipped grid index').Reordered
      ((self.incrementUnclipped grid index').incrementUnclipped grid index) := by
  rcases located : locateIndex grid index with _ | ⟨cell, parentCell⟩ <;>
    rcases located' : locateIndex grid index' with _ | ⟨cell', parentCell'⟩ <;>
    simp only [incrementUnclipped_eq, located, located']
  case some.some =>
    refine ⟨addEntry_right_comm .., addEntry_right_comm .., ?_⟩
    simp only [List.append_assoc, List.singleton_append]
    exact .append_left _ (.swap _ _ _)
  all_goals exact .refl _

/-- Permuted locations give the same maps and permuted asserted hexes. -/
theorem incrementAll_reordered {indexes indexes' : List Nat} (sameLocations : indexes.Perm indexes') :
    (incrementAll grid indexes).Reordered (incrementAll grid indexes') :=
  foldl_rel_of_perm GlobalHexMap.Reordered.refl GlobalHexMap.Reordered.trans
    incrementUnclipped_reordered sameLocations (fun x _ y _ self => incrementUnclipped_swap self x y)
    (.refl _)

/-- The global map while locations are counted: both maps agree, and every key is a cell
of resolution `MAX_RES`. -/
def GlobalHexMap.Counted (grid : HexGrid Cell) (self : GlobalHexMap Cell) : Prop :=
  self.clippedHexes = self.unclippedHexes ∧
    ∀ cell, (self.unclippedHexes cell).isSome → grid.resolution cell = maxRes

omit [DecidableEq Cell] in
theorem locateIndex_parent {index : Nat} {cell parentCell : Cell}
    (located : locateIndex grid index = some (cell, parentCell)) :
    grid.parent cell maxRes = some parentCell := by
  simp only [locateIndex, Option.bind_eq_some_iff, Option.map_eq_some_iff, Prod.mk.injEq] at located
  obtain ⟨_, -, _, parentAt, rfl, rfl⟩ := located
  exact parentAt

theorem incrementUnclipped_counted {self : GlobalHexMap Cell} (counted : self.Counted grid)
    (index : Nat) : (self.incrementUnclipped grid index).Counted grid := by
  obtain ⟨same, atMaxRes⟩ := counted
  rw [incrementUnclipped_eq]
  rcases located : locateIndex grid index with _ | ⟨cell, parentCell⟩
  · exact ⟨same, atMaxRes⟩
  · dsimp only
    refine ⟨by rw [same], fun other held => ?_⟩
    by_cases atParent : other = parentCell
    · rw [atParent]
      exact grid.parent_resolution (locateIndex_parent located)
    · simp only [addEntry_of_ne _ atParent] at held
      exact atMaxRes other held

theorem incrementAll_counted (indexes : List Nat) : (incrementAll grid indexes).Counted grid := by
  unfold incrementAll
  refine List.foldlRecOn (motive := GlobalHexMap.Counted grid) indexes _ ?_ ?_
  · exact ⟨rfl, fun cell held => by simp [GlobalHexMap.new] at held⟩
  · intro self counted index _
    exact incrementUnclipped_counted counted index

end Increment

/-! ## One resolution -/

section Round

variable {Cell : Type} [DecidableEq Cell] {grid : HexGrid Cell}

/-- The rollup loop of a resolution. -/
def rollupRes (grid : HexGrid Cell) (res : Nat) (state : HexMap Cell × HexMap Cell × List Cell) :
    HexMap Cell × HexMap Cell × List Cell :=
  state.2.2.foldl (rollupCell grid res) (state.1, state.2.1, [])

/-- The clip loop of a resolution, over the parents left by the rollup. -/
def clipRes (grid : HexGrid Cell) (resConfig : HexResConfig)
    (state : HexMap Cell × HexMap Cell × List Cell) : HexMap Cell × HexMap Cell × List Cell :=
  (state.1, (unique state.2.2).foldl (clipCell grid resConfig.target resConfig state.1) state.2.1,
    unique state.2.2)

theorem reduceRes_eq (state : HexMap Cell × HexMap Cell × List Cell) (res : Nat) :
    reduceRes grid state res =
      (hip104ResConfig res).map fun resConfig => clipRes grid resConfig (rollupRes grid res state) := by
  unfold reduceRes rollupRes clipRes
  cases hip104ResConfig res <;> rfl

theorem rollupCell_reordered (res : Nat) {state other : HexMap Cell × HexMap Cell × List Cell}
    (cell : Cell) (related : Reordered state other) :
    Reordered (rollupCell grid res state cell) (rollupCell grid res other cell) := by
  obtain ⟨unclipped, clipped, parents⟩ := related
  unfold rollupCell
  cases grid.parent cell res with
  | none => exact ⟨unclipped, clipped, parents⟩
  | some parentCell =>
    exact ⟨by simp [rollupChildCount, unclipped, clipped], by simp [rollupChildCount, clipped],
      parents.append_right _⟩

/-- Two cells of a finer resolution are rolled up in either order to the same maps: the
count each reads is not one the other writes. -/
theorem rollupCell_swap {res : Nat} {cell cell' : Cell} (finer : res < grid.resolution cell)
    (finer' : res < grid.resolution cell') (state : HexMap Cell × HexMap Cell × List Cell) :
    Reordered (rollupCell grid res (rollupCell grid res state cell) cell')
      (rollupCell grid res (rollupCell grid res state cell') cell) := by
  unfold rollupCell
  cases parentAt : grid.parent cell res with
  | none => exact .refl _
  | some parentCell =>
    cases parentAt' : grid.parent cell' res with
    | none => exact .refl _
    | some parentCell' =>
      have ne : cell' ≠ parentCell := by
        rintro rfl
        rw [grid.parent_resolution parentAt] at finer'
        exact Nat.lt_irrefl _ finer'
      have ne' : cell ≠ parentCell' := by
        rintro rfl
        rw [grid.parent_resolution parentAt'] at finer
        exact Nat.lt_irrefl _ finer
      simp only [rollupChildCount, addEntry_of_ne _ ne, addEntry_of_ne _ ne']
      refine ⟨addEntry_right_comm .., addEntry_right_comm .., ?_⟩
      simp only [List.append_assoc, List.singleton_append]
      exact .append_left _ (.swap _ _ _)

/-- What the rollup loop keeps: the two maps agree at the resolution rolled into and
below it, and the parents are at that resolution. -/
theorem rollupRes_agree {res : Nat} {state : HexMap Cell × HexMap Cell × List Cell}
    (agree : ∀ cell, grid.resolution cell ≤ res → state.1 cell = state.2.1 cell) :
    (∀ cell, grid.resolution cell ≤ res →
      (rollupRes grid res state).1 cell = (rollupRes grid res state).2.1 cell) ∧
      ∀ parentCell ∈ (rollupRes grid res state).2.2, grid.resolution parentCell = res := by
  unfold rollupRes
  refine List.foldlRecOn (motive := fun state : HexMap Cell × HexMap Cell × List Cell =>
      (∀ cell, grid.resolution cell ≤ res → state.1 cell = state.2.1 cell) ∧
        ∀ parentCell ∈ state.2.2, grid.resolution parentCell = res)
    state.2.2 _ ⟨agree, fun _ held => by simp at held⟩ ?_
  rintro ⟨unclipped, clipped, parents⟩ ⟨agreeAt, atRes⟩ cell -
  dsimp only at agreeAt atRes
  unfold rollupCell
  cases parentAt : grid.parent cell res with
  | none => exact ⟨agreeAt, atRes⟩
  | some parentCell =>
    have parentRes := grid.parent_resolution parentAt
    refine ⟨fun other below => ?_, fun other held => ?_⟩
    · by_cases atParent : other = parentCell
      · subst atParent
        simp [rollupChildCount, agreeAt other below]
      · simp [rollupChildCount, addEntry_of_ne _ atParent, agreeAt other below]
    · rcases List.mem_append.mp held with held | held
      · exact atRes other held
      · rw [List.mem_singleton.mp held, parentRes]

/-- The rollup loop writes only at the resolution rolled into. -/
theorem rollupRes_of_resolution_ne {res : Nat} (state : HexMap Cell × HexMap Cell × List Cell)
    {cell : Cell} (other : grid.resolution cell ≠ res) :
    (rollupRes grid res state).1 cell = state.1 cell ∧
      (rollupRes grid res state).2.1 cell = state.2.1 cell := by
  unfold rollupRes
  refine List.foldlRecOn (motive := fun rolled : HexMap Cell × HexMap Cell × List Cell =>
      rolled.1 cell = state.1 cell ∧ rolled.2.1 cell = state.2.1 cell) state.2.2 _ ⟨rfl, rfl⟩ ?_
  rintro ⟨unclipped, clipped, parents⟩ ⟨unclippedAt, clippedAt⟩ child -
  unfold rollupCell
  cases parentAt : grid.parent child res with
  | none => exact ⟨unclippedAt, clippedAt⟩
  | some parentCell =>
    have ne : cell ≠ parentCell := by
      rintro rfl
      exact other (grid.parent_resolution parentAt)
    simpa [rollupChildCount, addEntry_of_ne _ ne] using ⟨unclippedAt, clippedAt⟩

end Round

/-! ## Clipping within a resolution -/

section Clip

variable {Cell : Type} [DecidableEq Cell] {grid : HexGrid Cell}

/-- Two maps whose counts reach the density target at the same cells. -/
def SameOccupancy (densityTgt : Nat) (cellMap cellMap' : HexMap Cell) : Prop :=
  ∀ cell, (cellMap cell).any (densityTgt ≤ ·) = (cellMap' cell).any (densityTgt ≤ ·)

omit [DecidableEq Cell] in
theorem SameOccupancy.trans {densityTgt : Nat} {a b c : HexMap Cell}
    (first : SameOccupancy densityTgt a b) (second : SameOccupancy densityTgt b c) :
    SameOccupancy densityTgt a c :=
  fun cell => (first cell).trans (second cell)

omit [DecidableEq Cell] in
/-- `occupied_count` reads of the neighbours only whether they reach the target. -/
theorem occupiedCount_congr {densityTgt : Nat} {cellMap cellMap' : HexMap Cell}
    (same : SameOccupancy densityTgt cellMap cellMap') (hex : Cell) :
    occupiedCount grid cellMap hex densityTgt = occupiedCount grid cellMap' hex densityTgt := by
  unfold occupiedCount
  congr 1
  funext count cell
  have reaches := same cell
  revert reaches
  cases cellMap cell <;> cases cellMap' cell <;> simp +contextual

/-- A limit never falls below the target when the maximum does not. -/
theorem target_le_limit {resConfig : HexResConfig} (withinMax : resConfig.target ≤ resConfig.max)
    (occupiedCount : Nat) : resConfig.target ≤ limit resConfig occupiedCount := by
  unfold limit
  apply le_min withinMax
  exact Nat.le_mul_of_pos_right _ (by omega)

/-- Every resolution of `HIP104_RES_CONFIG` has its target within its maximum. -/
theorem hip104ResConfig_target_le_max {res : Nat} {resConfig : HexResConfig}
    (configured : hip104ResConfig res = some resConfig) : resConfig.target ≤ resConfig.max := by
  unfold hip104ResConfig at configured
  split at configured <;> cases configured <;> decide

/-- A clip never moves a count across the target. -/
theorem clip_sameOccupancy {resConfig : HexResConfig} (withinMax : resConfig.target ≤ resConfig.max)
    {unclipped clipped : HexMap Cell} {parentCell : Cell}
    (unclippedAt : clipped parentCell = unclipped parentCell) (occupiedCount : Nat) :
    SameOccupancy resConfig.target
      (Function.update clipped parentCell
        ((unclipped parentCell).map (min (limit resConfig occupiedCount)))) clipped := by
  intro cell
  by_cases atParent : cell = parentCell
  · subst atParent
    rw [Function.update_self, unclippedAt]
    cases unclipped cell with
    | none => rfl
    | some count => simp [target_le_limit withinMax]
  · rw [Function.update_of_ne atParent]

theorem clipCell_of_eq {densityTgt : Nat} {resConfig : HexResConfig}
    {unclipped clipped : HexMap Cell} {parentCell : Cell}
    (unclippedAt : clipped parentCell = unclipped parentCell) :
    clipCell grid densityTgt resConfig unclipped clipped parentCell =
      Function.update clipped parentCell ((unclipped parentCell).map
        (min (limit resConfig (occupiedCount grid clipped parentCell densityTgt)))) := by
  unfold clipCell
  cases counted : unclipped parentCell with
  | none =>
    dsimp only
    rw [← unclippedAt] at counted
    rw [Option.map_none, ← counted, Function.update_eq_self]
  | some count => rfl

/-- The clip loop clips each parent to the limit of its neighbourhood before the loop,
whatever the order of the parents. -/
theorem foldl_clipCell {resConfig : HexResConfig} (withinMax : resConfig.target ≤ resConfig.max)
    {unclipped origin : HexMap Cell} {parents : List Cell} :
    ∀ {clipped : HexMap Cell}, parents.Nodup →
      (∀ parentCell ∈ parents, clipped parentCell = unclipped parentCell) →
      SameOccupancy resConfig.target clipped origin →
      parents.foldl (clipCell grid resConfig.target resConfig unclipped) clipped =
        fun cell => if cell ∈ parents then
          (unclipped cell).map (min (limit resConfig (occupiedCount grid origin cell resConfig.target)))
        else clipped cell := by
  induction parents with
  | nil =>
    intro clipped _ _ _
    funext cell
    simp
  | cons parentCell rest later =>
    intro clipped nodup unclippedAt same
    obtain ⟨fresh, restNodup⟩ := List.nodup_cons.mp nodup
    have first := unclippedAt parentCell List.mem_cons_self
    have occupied : occupiedCount grid clipped parentCell resConfig.target =
        occupiedCount grid origin parentCell resConfig.target :=
      occupiedCount_congr same parentCell
    have unclippedRest : ∀ other ∈ rest, Function.update clipped parentCell
        ((unclipped parentCell).map (min (limit resConfig
          (occupiedCount grid clipped parentCell resConfig.target)))) other = unclipped other := by
      intro other held
      rw [Function.update_of_ne fun atParent : other = parentCell => fresh (atParent ▸ held)]
      exact unclippedAt other (List.mem_cons_of_mem _ held)
    rw [List.foldl_cons, clipCell_of_eq first,
      later restNodup unclippedRest ((clip_sameOccupancy withinMax first _).trans same)]
    funext cell
    by_cases atParent : cell = parentCell
    · subst atParent
      simp [fresh, occupied]
    · simp [atParent]

end Clip

/-! ## The resolutions in turn -/

section Rounds

variable {Cell : Type} [DecidableEq Cell] {grid : HexGrid Cell}

/-- What a round finer than `bound` leaves: the cells of the list are at `bound` or finer,
and below `bound` nothing has been rolled up or clipped, so the two maps agree. -/
def RoundInv (grid : HexGrid Cell) (bound : Nat) (state : HexMap Cell × HexMap Cell × List Cell) :
    Prop :=
  (∀ cell ∈ state.2.2, bound ≤ grid.resolution cell) ∧
    ∀ cell, grid.resolution cell < bound → state.1 cell = state.2.1 cell

theorem rollupRes_reordered {bound res : Nat} (below : res < bound)
    {state other : HexMap Cell × HexMap Cell × List Cell} (inv : RoundInv grid bound state)
    (related : Reordered state other) :
    Reordered (rollupRes grid res state) (rollupRes grid res other) := by
  obtain ⟨unclipped, clipped, cells⟩ := related
  unfold rollupRes
  rw [unclipped, clipped]
  refine foldl_rel_of_perm Reordered.refl Reordered.trans (rollupCell_reordered res) cells
    (fun cell held cell' held' state => rollupCell_swap ?_ ?_ state) (.refl _)
  · exact Nat.lt_of_lt_of_le below (inv.1 cell held)
  · exact Nat.lt_of_lt_of_le below (inv.1 cell' held')

/-- After the rollup of a round finer than `bound`, the two maps agree at the round's
resolution and below, and the parents are at that resolution. -/
theorem RoundInv.rolledUp {bound res : Nat} (below : res < bound)
    {state : HexMap Cell × HexMap Cell × List Cell} (inv : RoundInv grid bound state) :
    (∀ cell, grid.resolution cell ≤ res →
      (rollupRes grid res state).1 cell = (rollupRes grid res state).2.1 cell) ∧
      ∀ parentCell ∈ (rollupRes grid res state).2.2, grid.resolution parentCell = res :=
  rollupRes_agree fun cell coarser => inv.2 cell (Nat.lt_of_le_of_lt coarser below)

/-- After the rollup, each parent's two counts are the sum of its children's. -/
theorem RoundInv.rolledUp_parents {bound res : Nat} (below : res < bound)
    {state : HexMap Cell × HexMap Cell × List Cell} (inv : RoundInv grid bound state) :
    ∀ parentCell ∈ (rollupRes grid res state).2.2,
      (rollupRes grid res state).2.1 parentCell = (rollupRes grid res state).1 parentCell := by
  obtain ⟨agree, atRes⟩ := inv.rolledUp below
  intro parentCell held
  exact (agree parentCell (atRes parentCell held).le).symm

/-- After the rollup, the clip loop on two reorderings of the parents gives the same maps. -/
theorem clipRes_reordered {resConfig : HexResConfig} (withinMax : resConfig.target ≤ resConfig.max)
    {rolled rolled' : HexMap Cell × HexMap Cell × List Cell}
    (agree : ∀ parentCell ∈ rolled.2.2, rolled.2.1 parentCell = rolled.1 parentCell)
    (related : Reordered rolled rolled') :
    Reordered (clipRes grid resConfig rolled) (clipRes grid resConfig rolled') := by
  obtain ⟨unclipped, clipped, parents⟩ := related
  have agree' : ∀ parentCell ∈ rolled'.2.2, rolled'.2.1 parentCell = rolled'.1 parentCell := by
    intro parentCell held
    rw [← unclipped, ← clipped]
    exact agree parentCell (parents.mem_iff.mpr held)
  refine ⟨unclipped, ?_, unique_perm fun _ => parents.mem_iff⟩
  unfold clipRes
  dsimp only
  rw [foldl_clipCell withinMax (nodup_unique _) (by simpa using agree) fun _ => rfl,
    foldl_clipCell withinMax (nodup_unique _) (by simpa using agree') fun _ => rfl]
  funext cell
  simp only [mem_unique, parents.mem_iff, unclipped, clipped]

/-- A round keeps what the next, coarser round needs. -/
theorem clipRes_rollupRes_roundInv {bound res : Nat} (below : res < bound)
    {resConfig : HexResConfig} (withinMax : resConfig.target ≤ resConfig.max)
    {state : HexMap Cell × HexMap Cell × List Cell} (inv : RoundInv grid bound state) :
    RoundInv grid res (clipRes grid resConfig (rollupRes grid res state)) := by
  obtain ⟨agree, atRes⟩ := inv.rolledUp below
  refine ⟨fun cell held => (atRes cell (mem_unique.mp held)).ge, fun cell coarser => ?_⟩
  unfold clipRes
  dsimp only
  rw [foldl_clipCell withinMax (nodup_unique _)
    (fun parentCell held => inv.rolledUp_parents below parentCell (mem_unique.mp held))
    fun _ => rfl]
  have notParent : cell ∉ (rollupRes grid res state).2.2 :=
    fun held => Nat.lt_irrefl _ ((atRes cell held) ▸ coarser)
  simp only [mem_unique, notParent, if_false]
  exact agree cell coarser.le

/-- Over strictly coarser resolutions, the loop of `reduce_hex_res` on two reorderings of
its list gives two reorderings of one result. -/
theorem foldlM_reduceRes_reordered {resolutions : List Nat} :
    ∀ {bound : Nat} {state other : HexMap Cell × HexMap Cell × List Cell},
      resolutions.Pairwise (· > ·) → (∀ res ∈ resolutions, res < bound) →
      RoundInv grid bound state → Reordered state other →
      Option.Rel Reordered (resolutions.foldlM (reduceRes grid) state)
        (resolutions.foldlM (reduceRes grid) other) := by
  induction resolutions with
  | nil =>
    intro bound state other _ _ _ related
    exact .some related
  | cons res rest later =>
    intro bound state other descending bounded inv related
    obtain ⟨finer, restDescending⟩ := List.pairwise_cons.mp descending
    have below := bounded res List.mem_cons_self
    rw [List.foldlM_cons, List.foldlM_cons, reduceRes_eq, reduceRes_eq]
    cases configured : hip104ResConfig res with
    | none => exact .none
    | some resConfig =>
      have withinMax := hip104ResConfig_target_le_max configured
      exact later restDescending finer (clipRes_rollupRes_roundInv below withinMax inv)
        (clipRes_reordered withinMax (inv.rolledUp_parents below)
          (rollupRes_reordered below inv related))

end Rounds

/-! ## The density map does not depend on order -/

section Density

variable {Cell : Type} [DecidableEq Cell] {grid : HexGrid Cell}

/-- A cell is counted exactly when it is the parent at `MAX_RES` of a valid location. -/
theorem isSome_foldl_incrementUnclipped (cell : Cell) (indexes : List Nat) :
    ∀ {self : GlobalHexMap Cell},
      ((indexes.foldl (GlobalHexMap.incrementUnclipped grid) self).unclippedHexes cell).isSome ↔
        (self.unclippedHexes cell).isSome ∨
          ∃ index ∈ indexes, (locateIndex grid index).map Prod.snd = some cell := by
  induction indexes with
  | nil => simp
  | cons index rest later =>
    intro self
    rw [List.foldl_cons, later, incrementUnclipped_eq]
    rcases located : locateIndex grid index with _ | ⟨located, parentCell⟩
    · simp [located]
    · by_cases atParent : cell = parentCell
      · subst atParent
        simp [located]
      · simp [located, addEntry_of_ne _ atParent, Ne.symm atParent]

theorem isSome_unclippedHexes_incrementAll {cell : Cell} {indexes : List Nat} :
    ((incrementAll grid indexes).unclippedHexes cell).isSome ↔
      ∃ index ∈ indexes, (locateIndex grid index).map Prod.snd = some cell := by
  simp [incrementAll, isSome_foldl_incrementUnclipped, GlobalHexMap.new]

omit [DecidableEq Cell] in
/-- `compute_hex_density_map` reads the two maps and the set of asserted hexes: a hex
asserted twice is written twice with one scale. -/
theorem computeHexDensityMap_reordered (arith : Arith) {globalMap other : GlobalHexMap Cell}
    (related : globalMap.Reordered other) :
    computeHexDensityMap grid arith globalMap = computeHexDensityMap grid arith other := by
  obtain ⟨clipped, unclipped, asserted⟩ := related
  have sameScale : hexScale grid arith globalMap = hexScale grid arith other := by
    funext hex
    simp only [hexScale, clipped, unclipped]
  unfold computeHexDensityMap
  rw [sameScale]
  refine asserted.foldl_eq' (fun hex _ hex' _ map => ?_) _
  by_cases sameIndex : grid.toIndex hex = grid.toIndex hex'
  · rw [grid.toIndex_injective sameIndex]
  · exact Function.update_comm sameIndex _ _ _

theorem hex_density_order_independent (grid : HexGrid Cell) (arith : Arith)
    {indexes indexes' : List Nat} (sameLocations : indexes.Perm indexes') {order order' : List Cell}
    (enumerates : ∀ cell, cell ∈ order ↔ ((incrementAll grid indexes).unclippedHexes cell).isSome)
    (enumerates' :
      ∀ cell, cell ∈ order' ↔ ((incrementAll grid indexes').unclippedHexes cell).isSome) :
    ((incrementAll grid indexes).reduceGlobal grid order).map (computeHexDensityMap grid arith) =
      ((incrementAll grid indexes').reduceGlobal grid order').map
        (computeHexDensityMap grid arith) := by
  obtain ⟨sameClipped, sameUnclipped, sameAsserted⟩ :
      (incrementAll grid indexes).Reordered (incrementAll grid indexes') :=
    incrementAll_reordered sameLocations
  have sameKeys : ∀ cell, cell ∈ order ↔ cell ∈ order' := fun cell => by
    rw [enumerates, enumerates', sameUnclipped]
  obtain ⟨agree, atMaxRes⟩ : (incrementAll grid indexes).Counted grid := incrementAll_counted indexes
  have start : RoundInv grid maxRes ((incrementAll grid indexes).unclippedHexes,
      (incrementAll grid indexes).clippedHexes, unique order) :=
    ⟨fun cell held => (atMaxRes cell ((enumerates cell).mp (mem_unique.mp held))).ge,
      fun cell _ => by rw [agree]⟩
  have reordered : Reordered ((incrementAll grid indexes).unclippedHexes,
      (incrementAll grid indexes).clippedHexes, unique order)
      ((incrementAll grid indexes').unclippedHexes, (incrementAll grid indexes').clippedHexes,
        unique order') :=
    ⟨sameUnclipped, sameClipped, unique_perm sameKeys⟩
  have rounds := foldlM_reduceRes_reordered (by decide : usedRes.Pairwise (· > ·))
    (by decide : ∀ res ∈ usedRes, res < maxRes) start reordered
  simp only [GlobalHexMap.reduceGlobal, reduceHexRes, Option.map_map]
  refine map_eq_of_rel (fun final final' related => ?_) rounds
  exact computeHexDensityMap_reordered arith ⟨related.2.1, related.1, sameAsserted⟩

/-- A grid of cells `(res, x)` on a line: the parent at a coarser resolution divides `x` by
seven for each step, and the disk of a cell is the cell and its two neighbours. -/
def lineGrid : HexGrid (Nat × Nat) where
  ofIndex index := some (12, index)
  toIndex cell := Nat.pair cell.1 cell.2
  resolution cell := cell.1
  parent cell res := if res ≤ cell.1 then some (res, cell.2 / 7 ^ (cell.1 - res)) else none
  gridDisk cell := [(cell.1, cell.2 - 1), cell, (cell.1, cell.2 + 1)]
  parent_resolution := by
    intro cell res parentCell found
    split at found
    · cases found
      rfl
    · cases found
  toIndex_injective := by
    intro cell cell' same
    obtain ⟨first, second⟩ := Nat.pair_eq_pair.mp same
    exact Prod.ext first second

/-- Three locations in two cells of resolution 11, counted in two orders and reduced from
two orders of the keys. -/
theorem hex_density_of_reordered_locations :
    ((incrementAll lineGrid [1, 2, 9]).reduceGlobal lineGrid [(11, 0), (11, 1)]).map
        (computeHexDensityMap lineGrid Arith.exact) =
      ((incrementAll lineGrid [9, 1, 2]).reduceGlobal lineGrid [(11, 1), (11, 0)]).map
        (computeHexDensityMap lineGrid Arith.exact) :=
  hex_density_order_independent lineGrid Arith.exact (by decide)
    (fun cell => by
      rw [isSome_unclippedHexes_incrementAll]
      simp [locateIndex, lineGrid, maxRes, eq_comm])
    (fun cell => by
      rw [isSome_unclippedHexes_incrementAll]
      simp [locateIndex, lineGrid, maxRes, eq_comm, or_comm])

end Density

/-! ## Every scale is a fraction

Both maps change together: a location adds one to its parent in each, a rollup adds the
child's clipped count to its parent in each, and a clip lowers a clipped count to a limit of
at least the target, which is one or more. So every clipped count is at least one and at most
its unclipped count, the quotients of `compute_hex_density_map` divide by a positive count
and are at most one, and the rounded product of at most ten of them lies in `[0, 1]`. -/

section Scales

variable {Cell : Type} [DecidableEq Cell] {grid : HexGrid Cell}

/-- Every clipped count is at least one and at most the unclipped count of its cell. -/
def WithinUnclipped (unclipped clipped : HexMap Cell) : Prop :=
  ∀ cell count, clipped cell = some count →
    ∃ total, unclipped cell = some total ∧ 1 ≤ count ∧ count ≤ total

/-- The state of a round: clipped counts within the unclipped ones, and a clipped count for
every cell of its list. -/
def ClipInv (state : HexMap Cell × HexMap Cell × List Cell) : Prop :=
  WithinUnclipped state.1 state.2.1 ∧ ∀ cell ∈ state.2.2, (state.2.1 cell).isSome

theorem addEntry_isSome {map : HexMap Cell} {key cell : Cell} (n : Nat)
    (held : (map cell).isSome ∨ cell = key) : (addEntry map key n cell).isSome := by
  by_cases atKey : cell = key
  · subst atKey
    simp
  · rw [addEntry_of_ne _ atKey]
    exact held.resolve_right atKey

theorem WithinUnclipped.addEntry {unclipped clipped : HexMap Cell}
    (within : WithinUnclipped unclipped clipped) (key : Cell) {n : Nat} (positive : 1 ≤ n) :
    WithinUnclipped (addEntry unclipped key n) (addEntry clipped key n) := by
  intro cell count held
  by_cases atKey : cell = key
  · subst atKey
    rw [addEntry_self, Option.some.injEq] at held
    subst held
    refine ⟨_, addEntry_self _ _ _, by omega, ?_⟩
    cases old : clipped cell with
    | none => simp
    | some previous =>
      obtain ⟨total, totalIs, -, le⟩ := within cell previous old
      simp only [totalIs, Option.getD_some]
      omega
  · rw [addEntry_of_ne _ atKey] at held ⊢
    exact within cell count held

theorem incrementAll_within (indexes : List Nat) :
    WithinUnclipped (incrementAll grid indexes).unclippedHexes
      (incrementAll grid indexes).clippedHexes := by
  unfold incrementAll
  refine List.foldlRecOn (motive := fun self : GlobalHexMap Cell =>
    WithinUnclipped self.unclippedHexes self.clippedHexes) indexes _
    (fun cell count held => by simp [GlobalHexMap.new] at held) ?_
  intro self within index _
  rw [incrementUnclipped_eq]
  rcases locateIndex grid index with _ | ⟨cell, parentCell⟩
  · exact within
  · exact within.addEntry parentCell le_rfl

/-- A rollup adds a counted child to its parent in both maps, and takes no count away. -/
theorem rollupCell_clipInv (res : Nat) {state : HexMap Cell × HexMap Cell × List Cell}
    (inv : ClipInv state) {cell : Cell} (counted : (state.2.1 cell).isSome) :
    ClipInv (rollupCell grid res state cell) ∧
      ∀ other, (state.2.1 other).isSome → ((rollupCell grid res state cell).2.1 other).isSome := by
  obtain ⟨within, listed⟩ := inv
  obtain ⟨count, countIs⟩ := Option.isSome_iff_exists.mp counted
  obtain ⟨-, -, positive, -⟩ := within cell count countIs
  unfold rollupCell rollupChildCount
  cases grid.parent cell res with
  | none => exact ⟨⟨within, listed⟩, fun _ held => held⟩
  | some parentCell =>
    dsimp only
    rw [countIs, Option.getD_some]
    refine ⟨⟨within.addEntry parentCell positive, fun other held => ?_⟩,
      fun other held => addEntry_isSome _ (.inl held)⟩
    rcases List.mem_append.mp held with earlier | added
    · exact addEntry_isSome _ (.inl (listed other earlier))
    · exact addEntry_isSome _ (.inr (List.mem_singleton.mp added))

/-- The rollup loop of a round whose cells all have clipped counts. -/
theorem rollupRes_clipInv (res : Nat) {state : HexMap Cell × HexMap Cell × List Cell}
    (inv : ClipInv state) : ClipInv (rollupRes grid res state) := by
  -- the loop runs over the round's cells, which keep their counts while parents are added
  suffices loop : ∀ (cells : List Cell) (acc : HexMap Cell × HexMap Cell × List Cell),
      ClipInv acc → (∀ cell ∈ cells, (acc.2.1 cell).isSome) →
      ClipInv (cells.foldl (rollupCell grid res) acc) from
    loop state.2.2 _ ⟨inv.1, fun _ held => nomatch held⟩ inv.2
  intro cells
  induction cells with
  | nil => exact fun acc accInv _ => accInv
  | cons cell rest ih =>
    intro acc accInv counted
    obtain ⟨stepInv, kept⟩ := rollupCell_clipInv res accInv (counted cell List.mem_cons_self)
    exact ih _ stepInv fun other held => kept other (counted other (.tail _ held))

theorem hip104ResConfig_target_pos {res : Nat} {resConfig : HexResConfig}
    (configured : hip104ResConfig res = some resConfig) : 1 ≤ resConfig.target := by
  unfold hip104ResConfig at configured
  split at configured <;> cases configured <;> decide

/-- A clip lowers a counted parent to a limit of at least one, and takes no count away. -/
theorem clipCell_within {resConfig : HexResConfig} (withinMax : resConfig.target ≤ resConfig.max)
    (targetPos : 1 ≤ resConfig.target) {unclipped clipped : HexMap Cell}
    (within : WithinUnclipped unclipped clipped) {parentCell : Cell}
    (counted : (clipped parentCell).isSome) :
    WithinUnclipped unclipped (clipCell grid resConfig.target resConfig unclipped clipped parentCell) ∧
      ∀ other, (clipped other).isSome →
        (clipCell grid resConfig.target resConfig unclipped clipped parentCell other).isSome := by
  obtain ⟨count, countIs⟩ := Option.isSome_iff_exists.mp counted
  obtain ⟨total, totalIs, positive, le⟩ := within parentCell count countIs
  have limitPos := le_trans targetPos (target_le_limit withinMax
    (occupiedCount grid clipped parentCell resConfig.target))
  unfold clipCell
  rw [totalIs]
  dsimp only
  refine ⟨fun cell clippedCount held => ?_, fun other held => ?_⟩
  · by_cases atParent : cell = parentCell
    · subst atParent
      rw [Function.update_self, Option.some.injEq] at held
      subst held
      exact ⟨total, totalIs, le_min limitPos (by omega), min_le_right _ _⟩
    · rw [Function.update_of_ne atParent] at held
      exact within cell clippedCount held
  · by_cases atParent : other = parentCell
    · subst atParent
      simp
    · rwa [Function.update_of_ne atParent]

/-- A round of `reduce_hex_res` keeps the clipped counts within the unclipped ones. -/
theorem reduceRes_clipInv {res : Nat} {resConfig : HexResConfig}
    (configured : hip104ResConfig res = some resConfig) {state : HexMap Cell × HexMap Cell × List Cell}
    (inv : ClipInv state) : ClipInv (clipRes grid resConfig (rollupRes grid res state)) := by
  obtain ⟨within, listed⟩ : ClipInv (rollupRes grid res state) := rollupRes_clipInv res inv
  have withinMax := hip104ResConfig_target_le_max configured
  have targetPos := hip104ResConfig_target_pos configured
  -- the clip loop runs over the parents, each of which keeps a count
  suffices loop : ∀ (parents : List Cell) (clipped : HexMap Cell),
      WithinUnclipped (rollupRes grid res state).1 clipped →
      (∀ cell ∈ parents, (clipped cell).isSome) →
      WithinUnclipped (rollupRes grid res state).1
          (parents.foldl (clipCell grid resConfig.target resConfig (rollupRes grid res state).1)
            clipped) ∧
        ∀ other, (clipped other).isSome →
          ((parents.foldl (clipCell grid resConfig.target resConfig (rollupRes grid res state).1)
            clipped) other).isSome by
    obtain ⟨clippedWithin, kept⟩ := loop (unique (rollupRes grid res state).2.2) _ within
      fun cell held => listed cell (mem_unique.mp held)
    exact ⟨clippedWithin, fun cell held => kept cell (listed cell (mem_unique.mp held))⟩
  intro parents
  induction parents with
  | nil => exact fun clipped clippedWithin _ => ⟨clippedWithin, fun _ held => held⟩
  | cons parentCell rest ih =>
    intro clipped clippedWithin counted
    obtain ⟨stepWithin, stepKept⟩ :=
      clipCell_within withinMax targetPos clippedWithin (counted parentCell List.mem_cons_self)
    obtain ⟨restWithin, restKept⟩ :=
      ih _ stepWithin fun other held => stepKept other (counted other (.tail _ held))
    exact ⟨restWithin, fun other held => restKept other (stepKept other held)⟩

/-- Over configured resolutions, the loop of `reduce_hex_res` returns, and keeps the clipped
counts within the unclipped ones. -/
theorem foldlM_reduceRes_clipInv (grid : HexGrid Cell) :
    ∀ {resolutions : List Nat}, (∀ res ∈ resolutions, (hip104ResConfig res).isSome) →
      ∀ {state : HexMap Cell × HexMap Cell × List Cell}, ClipInv state →
        ∃ final, resolutions.foldlM (reduceRes grid) state = some final ∧ ClipInv final
  | [], _, state, inv => ⟨state, rfl, inv⟩
  | res :: rest, configuredAll, state, inv => by
    obtain ⟨resConfig, configured⟩ :=
      Option.isSome_iff_exists.mp (configuredAll res List.mem_cons_self)
    rw [List.foldlM_cons, reduceRes_eq, configured]
    exact foldlM_reduceRes_clipInv grid (fun other held => configuredAll other (.tail _ held))
      (reduceRes_clipInv configured inv)

/-- A fold whose every step widens the distance from `[0, 1]` by at most `η` ends within
the number of steps times `η` of where it started. -/
theorem foldl_near_unit {β : Type} (step : ℚ → β → ℚ) (η : ℚ) (ηNonneg : 0 ≤ η)
    (stepNear : ∀ scale res slack, 0 ≤ slack → slack + η ≤ 1 / 2 → -slack ≤ scale →
      scale ≤ 1 + slack → -(slack + η) ≤ step scale res ∧ step scale res ≤ 1 + slack + η) :
    ∀ (resolutions : List β) (scale slack : ℚ), 0 ≤ slack →
      slack + resolutions.length * η ≤ 1 / 2 → -slack ≤ scale → scale ≤ 1 + slack →
      -(slack + resolutions.length * η) ≤ resolutions.foldl step scale ∧
        resolutions.foldl step scale ≤ 1 + slack + resolutions.length * η
  | [], scale, slack, _, _, low, high => by simpa using ⟨low, high⟩
  | res :: rest, scale, slack, nonneg, room, low, high => by
    simp only [List.length_cons, Nat.cast_add, Nat.cast_one] at room ⊢
    have restRoom : 0 ≤ (rest.length : ℚ) * η := mul_nonneg (Nat.cast_nonneg _) ηNonneg
    obtain ⟨stepLow, stepHigh⟩ := stepNear scale res slack nonneg (by linarith) low high
    obtain ⟨restLow, restHigh⟩ := foldl_near_unit step η ηNonneg stepNear rest (step scale res)
      (slack + η) (by linarith) (by linarith) stepLow (by linarith)
    rw [List.foldl_cons]
    constructor <;> linarith

omit [DecidableEq Cell] in
/-- The scale of a hex is within `10 ^ -25` of `[0, 1]`: each of its at most ten factors is a
quotient of a clipped count by a larger unclipped one. -/
theorem hexScale_near_unit (grid : HexGrid Cell) {arith : Arith} (accurate : arith.Accurate)
    {globalMap : GlobalHexMap Cell}
    (within : WithinUnclipped globalMap.unclippedHexes globalMap.clippedHexes) (hex : Cell) :
    -(1 / 10 ^ 25) ≤ hexScale grid arith globalMap hex ∧
      hexScale grid arith globalMap hex ≤ 1 + 1 / 10 ^ 25 := by
  have folded := foldl_near_unit (fun scale res =>
      match grid.parent hex res with
      | none => scale
      | some parentCell =>
        match globalMap.unclippedHexes parentCell, globalMap.clippedHexes parentCell with
        | some unclipped, some clipped =>
          arith.mul scale (arith.div ((clipped : ℚ) / 10 ^ scalingPrecision)
            ((unclipped : ℚ) / 10 ^ scalingPrecision))
        | _, _ => scale) (1 / 10 ^ 26) (by norm_num) ?_ scalingRes 1 0 le_rfl
      (by norm_num [scalingRes]) (by norm_num) (by norm_num)
  · have tenSteps : (scalingRes.length : ℚ) = 10 := by norm_num [scalingRes]
    rw [tenSteps] at folded
    unfold hexScale
    constructor <;> linarith [folded.1, folded.2]
  · intro scale res slack nonneg room low high
    -- a resolution without a parent, or a parent missing from a map, leaves the scale
    have kept : -(slack + 1 / 10 ^ 26) ≤ scale ∧ scale ≤ 1 + slack + 1 / 10 ^ 26 :=
      ⟨by linarith, by linarith⟩
    split
    · exact kept
    · rename_i parentCell _
      split
      · rename_i total count totalIs countIs
        obtain ⟨total', totalIs', positive, le⟩ := within parentCell count countIs
        rw [totalIs, Option.some.injEq] at totalIs'
        subst totalIs'
        have countLe : (count : ℚ) / 10 ^ scalingPrecision ≤ total / 10 ^ scalingPrecision := by
          gcongr
        have totalPos : (0 : ℚ) < total / 10 ^ scalingPrecision := by
          have : (0 : ℚ) < total := by exact_mod_cast (by omega : 0 < total)
          positivity
        obtain ⟨factorLow, factorHigh⟩ :=
          accurate.div_near_unit (by positivity) countLe totalPos
        exact accurate.mul_near_unit nonneg (by linarith) low high factorLow factorHigh
      · exact kept

/-- A fold of updates keeps every key that is written. -/
theorem foldl_update_isSome {γ : Type} (key : γ → Nat) (value : γ → ℚ) :
    ∀ (entries : List γ) (map : Nat → Option ℚ) (index : Nat), (map index).isSome →
      ((entries.foldl (fun map entry => Function.update map (key entry)
        (some (value entry))) map) index).isSome
  | [], _, _, held => held
  | entry :: rest, map, index, held => by
    refine foldl_update_isSome key value rest _ index ?_
    by_cases atKey : index = key entry
    · simp [atKey]
    · dsimp only
      rwa [Function.update_of_ne atKey]

/-- Every entry of a map written by a fold of updates is an entry it started with or a
value of the list, and every key of the list is written. -/
theorem foldl_update_entry {γ : Type} (key : γ → Nat) (value : γ → ℚ) :
    ∀ (entries : List γ) (map : Nat → Option ℚ),
      (∀ index v, (entries.foldl (fun map entry => Function.update map (key entry)
          (some (value entry))) map) index = some v → map index = some v ∨
            ∃ entry ∈ entries, v = value entry) ∧
        ∀ entry ∈ entries, ((entries.foldl (fun map entry => Function.update map (key entry)
          (some (value entry))) map) (key entry)).isSome
  | [], _ => ⟨fun _ _ held => .inl held, fun _ held => nomatch held⟩
  | entry :: rest, map => by
    obtain ⟨restEntries, restWritten⟩ := foldl_update_entry key value rest
      (Function.update map (key entry) (some (value entry)))
    refine ⟨fun index v held => ?_, fun other held => ?_⟩
    · rcases restEntries index v held with start | later
      · by_cases atKey : index = key entry
        · subst atKey
          rw [Function.update_self, Option.some.injEq] at start
          exact .inr ⟨entry, List.mem_cons_self, start.symm⟩
        · rw [Function.update_of_ne atKey] at start
          exact .inl start
      · obtain ⟨found, mem, valueIs⟩ := later
        exact .inr ⟨found, .tail _ mem, valueIs⟩
    · rw [List.foldl_cons]
      rcases List.mem_cons.mp held with rfl | later
      · exact foldl_update_isSome key value rest _ _ (by simp)
      · exact restWritten other later

omit [DecidableEq Cell] in
/-- The density map of maps with clipped counts within the unclipped ones writes every
asserted hex, and every scale it holds is in `[0, 1]`. -/
theorem computeHexDensityMap_within_unit (grid : HexGrid Cell) {arith : Arith}
    (accurate : arith.Accurate)
    {globalMap : GlobalHexMap Cell}
    (within : WithinUnclipped globalMap.unclippedHexes globalMap.clippedHexes) :
    (∀ hex ∈ globalMap.assertedHexes,
      (computeHexDensityMap grid arith globalMap (grid.toIndex hex)).isSome) ∧
    ∀ index scale, computeHexDensityMap grid arith globalMap index = some scale →
      0 ≤ scale ∧ scale ≤ 1 := by
  obtain ⟨entries, written⟩ := foldl_update_entry grid.toIndex
    (fun hex => roundDp scalingPrecision .midpointNearestEven (hexScale grid arith globalMap hex))
    globalMap.assertedHexes fun _ => none
  refine ⟨written, fun index scale held => ?_⟩
  -- the map starts empty, so every entry is the rounded scale of an asserted hex
  obtain ⟨hex, -, rfl⟩ := (entries index scale held).resolve_left (by simp)
  obtain ⟨low, high⟩ := hexScale_near_unit grid accurate within hex
  have margin : (1 / 10 ^ 25 : ℚ) < 1 / 2 / 10 ^ scalingPrecision := by
    norm_num [scalingPrecision]
  exact ⟨roundDp_midpointNearestEven_nonneg (by linarith),
    roundDp_midpointNearestEven_le_one (by linarith)⟩

/-- The rounds of `reduce_global` over the counted locations return, with every clipped
count within its unclipped one. -/
theorem reduceGlobal_within (indexes : List Nat) {order : List Cell}
    (enumerates : ∀ cell, cell ∈ order ↔ ((incrementAll grid indexes).unclippedHexes cell).isSome) :
    ∃ globalMap, (incrementAll grid indexes).reduceGlobal grid order = some globalMap ∧
      WithinUnclipped globalMap.unclippedHexes globalMap.clippedHexes := by
  obtain ⟨agree, -⟩ : (incrementAll grid indexes).Counted grid := incrementAll_counted indexes
  have start : ClipInv ((incrementAll grid indexes).unclippedHexes,
      (incrementAll grid indexes).clippedHexes, unique order) :=
    ⟨incrementAll_within indexes, fun cell held => by
      rw [agree]
      exact (enumerates cell).mp (mem_unique.mp held)⟩
  obtain ⟨final, rounds, within, -⟩ :=
    foldlM_reduceRes_clipInv grid (by decide : ∀ res ∈ usedRes, (hip104ResConfig res).isSome)
      start
  refine ⟨{ incrementAll grid indexes with unclippedHexes := final.1, clippedHexes := final.2.1 },
    ?_, within⟩
  simp only [GlobalHexMap.reduceGlobal, reduceHexRes, rounds, Option.map_some]

theorem hex_density_scales_within_unit (grid : HexGrid Cell) {arith : Arith}
    (accurate : arith.Accurate) (indexes : List Nat) {order : List Cell}
    (enumerates : ∀ cell, cell ∈ order ↔ ((incrementAll grid indexes).unclippedHexes cell).isSome) :
    ∃ globalMap, (incrementAll grid indexes).reduceGlobal grid order = some globalMap ∧
      WithinUnclipped globalMap.unclippedHexes globalMap.clippedHexes ∧
      ∀ hex ∈ globalMap.assertedHexes, ∃ scale,
        computeHexDensityMap grid arith globalMap (grid.toIndex hex) = some scale ∧
          0 ≤ scale ∧ scale ≤ 1 := by
  obtain ⟨globalMap, reduced, within⟩ := reduceGlobal_within indexes enumerates
  obtain ⟨written, unit⟩ := computeHexDensityMap_within_unit grid accurate within
  refine ⟨globalMap, reduced, within, fun hex asserted => ?_⟩
  obtain ⟨scale, scaleIs⟩ := Option.isSome_iff_exists.mp (written hex asserted)
  exact ⟨scale, scaleIs, unit _ scale scaleIs⟩

/-- Three locations in two cells of resolution 11: the reduced maps keep their counts in
order and the two asserted hexes get scales in [0, 1]. -/
theorem hex_density_scales_of_three_locations :
    ∃ globalMap, (incrementAll lineGrid [1, 2, 9]).reduceGlobal lineGrid [(11, 0), (11, 1)] =
        some globalMap ∧
      WithinUnclipped globalMap.unclippedHexes globalMap.clippedHexes ∧
      ∀ hex ∈ globalMap.assertedHexes, ∃ scale,
        computeHexDensityMap lineGrid Arith.exact globalMap (lineGrid.toIndex hex) = some scale ∧
          0 ≤ scale ∧ scale ≤ 1 :=
  hex_density_scales_within_unit lineGrid Arith.exact_accurate [1, 2, 9] fun cell => by
    rw [isSome_unclippedHexes_incrementAll]
    simp [locateIndex, lineGrid, maxRes, eq_comm]

end Scales

end HeliumOracles.IotVerifier

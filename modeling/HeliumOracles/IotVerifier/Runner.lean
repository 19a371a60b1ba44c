import Mathlib.Data.List.Sort
import HeliumOracles.Lib.Decimal
import HeliumOracles.IotVerifier.Poc

/-!
# Selecting the rewarded witnesses of a valid beacon

Source: `iot_verifier/src/runner.rs` (`Runner::handle_beacon_report` from
`verify_witnesses` on, in its valid-beacon branch; `filter_witnesses`,
`filter_witness`, `sort_and_split_witnesses`, `poc_beaconer_reward_unit`,
`poc_per_witness_reward_unit`).

`sort_by` is the stable `List.mergeSort`. `checked_powu` is the crate's and is a
parameter, as are its products and quotients (`Arith`, Lib.Decimal); the `f32`
quotient `n / 4` for at most four witnesses is exact. The beacon's own verification,
the report envelopes and the writes to the sinks are left out.

The results (`witness_selection_keeps_every_report`): every witness report ends in
the selected or the unselected list exactly once, unless it was found to witness its
own beacon; the selected witnesses are valid, at most the cap, the earliest valid
ones, from distinct gateways, and carry the per-witness reward unit of their count.
-/
namespace HeliumOracles.IotVerifier

open HeliumOracles.Lib.Decimal

/-- `WITNESS_REDUNDANCY`. -/
def witnessRedundancy : ℕ := 4

/-- `POC_REWARD_DECAY_RATE`. -/
def pocRewardDecayRate : ℚ := 8 / 10

/-- `HIP15_TX_REWARD_UNIT_CAP`. -/
def hip15TxRewardUnitCap : ℚ := 2

/-- `SCALING_PRECISION`. -/
def scalingPrecision : ℕ := 4

/-- `poc_beaconer_reward_unit`: `none` when `checked_powu` fails. -/
def pocBeaconerRewardUnit (powu : ℚ → ℕ → Option ℚ) (numWitnesses : ℕ) : Option ℚ := do
  let rewardUnits ←
    if numWitnesses = 0 then pure 0
    else if numWitnesses ≤ witnessRedundancy then pure ((numWitnesses : ℚ) / witnessRedundancy)
    else do
      let toSub ← powu pocRewardDecayRate (numWitnesses - witnessRedundancy)
      pure (min hip15TxRewardUnitCap (2 - toSub))
  pure (roundDp scalingPrecision .midpointNearestEven rewardUnits)

/-- `poc_per_witness_reward_unit`: `none` when `checked_powu` fails. -/
def pocPerWitnessRewardUnit (arith : Arith) (powu : ℚ → ℕ → Option ℚ) (numWitnesses : ℕ) :
    Option ℚ := do
  let rewardUnits ←
    if numWitnesses = 0 then pure 0
    else if numWitnesses ≤ witnessRedundancy then pure 1
    else do
      let toSub ← powu pocRewardDecayRate (numWitnesses - witnessRedundancy)
      pure (min hip15TxRewardUnitCap
        (arith.div ((witnessRedundancy : ℚ) - (1 - toSub)) numWitnesses))
  pure (roundDp scalingPrecision .midpointNearestEven rewardUnits)

/-- `FilterStatus`. -/
inductive FilterStatus where
  | drop
  | include
  deriving DecidableEq, Repr

/-- `filter_witness`: a self witness is dropped. -/
def filterWitness (invalidReason : InvalidReason) : FilterStatus :=
  match invalidReason with
  | .selfWitness => .drop
  | _ => .include

/-- `filter_witnesses`: the kept reports, valid ones first, the others second. -/
def filterWitnesses (witnesses : List IotVerifiedWitnessReport) :
    List IotVerifiedWitnessReport × List IotVerifiedWitnessReport :=
  (witnesses.filter fun witness => filterWitness witness.invalidReason = .include).partition
    (·.status = .valid)

/-- `sort_and_split_witnesses`: the witnesses kept and the ones split off. Past the cap
the list is sorted by arrival and cut at the cap. -/
def sortAndSplitWitnesses (witnesses : List IotVerifiedWitnessReport) (maxCount : ℕ) :
    List IotVerifiedWitnessReport × List IotVerifiedWitnessReport :=
  if witnesses.length ≤ maxCount then (witnesses, [])
  else
    let sorted := witnesses.mergeSort fun a b => decide (a.receivedTimestamp ≤ b.receivedTimestamp)
    (sorted.take maxCount, sorted.drop maxCount)

/-- The reward units of a selected witness: those of its count if it is valid. -/
def withRewardUnit (witnessRewardUnits : ℚ) (witness : IotVerifiedWitnessReport) :
    IotVerifiedWitnessReport :=
  match witness.status with
  | .valid => { witness with rewardUnit := witnessRewardUnits }
  | .invalid => { witness with rewardUnit := 0 }

/-- The valid-beacon branch of `handle_beacon_report` from the verified witnesses on: the
beaconer's reward units and the selected and unselected witnesses of the POC. `none`
when a witness failed verification, which leaves the POC for the next tick, or when a
reward unit cannot be computed. -/
def selectWitnesses (arith : Arith) (powu : ℚ → ℕ → Option ℚ) (maxWitnessesPerPoc : ℕ)
    (result : VerifyWitnessesResult) :
    Option (ℚ × List IotVerifiedWitnessReport × List IotVerifiedWitnessReport) :=
  if result.failedWitnesses ≠ [] then none
  else do
    let (selectedWitnesses, invalidWitnesses) := filterWitnesses result.verifiedWitnesses
    let (selectedWitnesses, unselectedWitnesses) :=
      sortAndSplitWitnesses selectedWitnesses maxWitnessesPerPoc
    let unselectedWitnesses := unselectedWitnesses ++ invalidWitnesses
    let numValidSelectedWitnesses := selectedWitnesses.length
    let beaconerRewardUnits ← pocBeaconerRewardUnit powu numValidSelectedWitnesses
    let witnessRewardUnits ← pocPerWitnessRewardUnit arith powu numValidSelectedWitnesses
    pure (beaconerRewardUnits, selectedWitnesses.map (withRewardUnit witnessRewardUnits),
      unselectedWitnesses)

/-! ## What each pass keeps -/

theorem filterWitness_eq_include_iff (invalidReason : InvalidReason) :
    filterWitness invalidReason = .include ↔ invalidReason ≠ .selfWitness := by
  cases invalidReason <;> decide

/-- `filter_witnesses` keeps exactly the reports that are not self witnesses: the valid
ones in its first list, the others in its second. -/
theorem filterWitnesses_perm (witnesses : List IotVerifiedWitnessReport) :
    ((filterWitnesses witnesses).1 ++ (filterWitnesses witnesses).2).Perm
      (witnesses.filter fun witness => witness.invalidReason ≠ .selfWitness) := by
  have kept : (witnesses.filter fun witness => filterWitness witness.invalidReason = .include) =
      witnesses.filter fun witness => witness.invalidReason ≠ .selfWitness := by
    simp only [filterWitness_eq_include_iff]
  simpa [filterWitnesses, List.partition_eq_filter_filter, Function.comp_def, kept] using
    List.filter_append_perm (fun witness => decide (witness.status = .valid))
      (witnesses.filter fun witness => witness.invalidReason ≠ .selfWitness)

theorem filterWitnesses_fst (witnesses : List IotVerifiedWitnessReport) :
    (filterWitnesses witnesses).1 =
      (witnesses.filter fun witness => filterWitness witness.invalidReason = .include).filter
        (·.status = .valid) := by
  simp [filterWitnesses, List.partition_eq_filter_filter]

theorem filterWitnesses_snd_status {witnesses : List IotVerifiedWitnessReport}
    {witness : IotVerifiedWitnessReport} (member : witness ∈ (filterWitnesses witnesses).2) :
    witness.status ≠ .valid := by
  simp only [filterWitnesses, List.partition_eq_filter_filter, List.mem_filter,
    Function.comp_apply, Bool.not_eq_true', decide_eq_false_iff_not] at member
  exact member.2

/-- The valid reports `filter_witnesses` keeps are among all the valid reports, in order. -/
theorem filterWitnesses_fst_sublist (witnesses : List IotVerifiedWitnessReport) :
    List.Sublist (filterWitnesses witnesses).1 (witnesses.filter (·.status = .valid)) := by
  rw [filterWitnesses_fst]
  exact List.filter_sublist.filter _

theorem filterWitnesses_fst_status {witnesses : List IotVerifiedWitnessReport}
    {witness : IotVerifiedWitnessReport} (member : witness ∈ (filterWitnesses witnesses).1) :
    witness.status = .valid := by
  rw [filterWitnesses_fst, List.mem_filter] at member
  exact of_decide_eq_true member.2

/-- `sort_and_split_witnesses` splits its input: nothing is lost or added. -/
theorem sortAndSplitWitnesses_perm (witnesses : List IotVerifiedWitnessReport) (maxCount : ℕ) :
    ((sortAndSplitWitnesses witnesses maxCount).1 ++
      (sortAndSplitWitnesses witnesses maxCount).2).Perm witnesses := by
  unfold sortAndSplitWitnesses
  split
  · simp
  · rw [List.take_append_drop]
    exact List.mergeSort_perm _ _

theorem sortAndSplitWitnesses_length_le (witnesses : List IotVerifiedWitnessReport)
    (maxCount : ℕ) : (sortAndSplitWitnesses witnesses maxCount).1.length ≤ maxCount := by
  unfold sortAndSplitWitnesses
  split
  · assumption
  · exact List.length_take_le _ _

/-- The witnesses kept arrived no later than those split off: the stable sort orders
the whole list by arrival before it is cut. -/
theorem sortAndSplitWitnesses_le (witnesses : List IotVerifiedWitnessReport) (maxCount : ℕ) :
    ∀ witness ∈ (sortAndSplitWitnesses witnesses maxCount).1,
      ∀ other ∈ (sortAndSplitWitnesses witnesses maxCount).2,
        witness.receivedTimestamp ≤ other.receivedTimestamp := by
  unfold sortAndSplitWitnesses
  split
  · simp
  · intro witness kept other splitOff
    have sorted := @List.pairwise_mergeSort _
      (fun a b : IotVerifiedWitnessReport => decide (a.receivedTimestamp ≤ b.receivedTimestamp))
      (fun _ _ _ first second => by simp only [decide_eq_true_eq] at *; omega)
      (fun a b => by simp only [Bool.or_eq_true, decide_eq_true_eq]; omega) witnesses
    rw [← List.take_append_drop maxCount (witnesses.mergeSort _), List.pairwise_append] at sorted
    exact of_decide_eq_true (sorted.2.2 witness kept other splitOff)

theorem sortAndSplitWitnesses_mem_fst {witnesses : List IotVerifiedWitnessReport}
    {maxCount : ℕ} {witness : IotVerifiedWitnessReport}
    (member : witness ∈ (sortAndSplitWitnesses witnesses maxCount).1) : witness ∈ witnesses :=
  (sortAndSplitWitnesses_perm witnesses maxCount).subset (List.mem_append_left _ member)

@[simp] theorem withRewardUnit_status (units : ℚ) (witness : IotVerifiedWitnessReport) :
    (withRewardUnit units witness).status = witness.status := by
  unfold withRewardUnit
  split <;> rfl

@[simp] theorem withRewardUnit_report (units : ℚ) (witness : IotVerifiedWitnessReport) :
    (withRewardUnit units witness).report = witness.report := by
  unfold withRewardUnit
  split <;> rfl

@[simp] theorem withRewardUnit_receivedTimestamp (units : ℚ) (witness : IotVerifiedWitnessReport) :
    (withRewardUnit units witness).receivedTimestamp = witness.receivedTimestamp := by
  unfold withRewardUnit
  split <;> rfl

@[simp] theorem withRewardUnit_source (units : ℚ) (witness : IotVerifiedWitnessReport) :
    (withRewardUnit units witness).source = witness.source := by
  simp [IotVerifiedWitnessReport.source]

theorem withRewardUnit_rewardUnit_of_valid (units : ℚ) {witness : IotVerifiedWitnessReport}
    (valid : witness.status = .valid) : (withRewardUnit units witness).rewardUnit = units := by
  simp [withRewardUnit, valid]

/-- What `selectWitnesses` returns when it returns: the sorted and split valid witnesses
with the reward units of their count, the rest of them and the invalid ones unselected. -/
theorem selectWitnesses_eq_some {arith : Arith} {powu : ℚ → ℕ → Option ℚ}
    {maxWitnessesPerPoc : ℕ} {result : VerifyWitnessesResult} {beaconerRewardUnits : ℚ}
    {selected unselected : List IotVerifiedWitnessReport}
    (returned : selectWitnesses arith powu maxWitnessesPerPoc result =
      some (beaconerRewardUnits, selected, unselected)) :
    ∃ witnessRewardUnits : ℚ,
      selected = (sortAndSplitWitnesses (filterWitnesses result.verifiedWitnesses).1
        maxWitnessesPerPoc).1.map (withRewardUnit witnessRewardUnits) ∧
      unselected = (sortAndSplitWitnesses (filterWitnesses result.verifiedWitnesses).1
        maxWitnessesPerPoc).2 ++ (filterWitnesses result.verifiedWitnesses).2 ∧
      pocBeaconerRewardUnit powu selected.length = some beaconerRewardUnits ∧
      pocPerWitnessRewardUnit arith powu selected.length = some witnessRewardUnits := by
  unfold selectWitnesses at returned
  split at returned
  · contradiction
  · simp only [Option.bind_eq_bind, Option.bind_eq_some_iff, Option.pure_def,
      Option.some.injEq, Prod.mk.injEq] at returned
    obtain ⟨beaconer, beaconerOk, witnessUnits, witnessOk, rfl, rfl, rfl⟩ := returned
    exact ⟨witnessUnits, rfl, rfl, by simpa using beaconerOk, by simpa using witnessOk⟩

section Handle

variable {F : Type} [LT F] [DecidableRel (fun a b : F => a < b)]

/-- `handle_beacon_report` once the beacon is valid: the witnesses verified, then
selected. -/
def handleValidBeacon (arith : Arith) (powu : ℚ → ℕ → Option ℚ) (maxWitnessesPerPoc : ℕ)
    (poc : Poc) (lookups : PocLookups F) (beaconInfo : GatewayInfo) :
    Option (ℚ × List IotVerifiedWitnessReport × List IotVerifiedWitnessReport) := do
  let (verifiedWitnessesResult, _) ← poc.verifyWitnesses lookups beaconInfo
  selectWitnesses arith powu maxWitnessesPerPoc verifiedWitnessesResult

end Handle

/-- A beacon heard twice by one gateway, once by another, and once by its own beaconer;
all within range, at the beacon's frequency, and reciprocal. -/
def mixedPoc : Poc :=
  ⟨beaconAt868, [⟨1500, ⟨2, [7], -1000, 868100000⟩⟩, ⟨1400, ⟨3, [7], -1000, 868100000⟩⟩,
    ⟨1600, ⟨2, [7], -1000, 868100000⟩⟩, ⟨1450, ⟨1, [7], -1000, 868100000⟩⟩], 0, 180000⟩

/-- Every gateway a full hotspot at location 20, with no hex scale and a beacon at 1 s. -/
def mixedLookups : PocLookups ℤ :=
  ⟨tenKmGeometry, openDenyList, fun pubKey => some ⟨pubKey, true, some ⟨20, 0, 12, 1⟩⟩,
    fun _ => none, fun _ => some (some 1000)⟩

/-- The two gateways are selected at one reward unit each, the repeated report is left
unselected as a duplicate, and the beaconer's own report is dropped. -/
def mixedSelected : List IotVerifiedWitnessReport :=
  [{ IotVerifiedWitnessReport.valid ⟨2, [7], -1000, 868100000⟩ 1500 (some 20) 12 0
      defaultTxScale with rewardUnit := 1 },
    { IotVerifiedWitnessReport.valid ⟨3, [7], -1000, 868100000⟩ 1400 (some 20) 12 0
      defaultTxScale with rewardUnit := 1 }]

def mixedUnselected : List IotVerifiedWitnessReport :=
  [IotVerifiedWitnessReport.invalid .duplicate none ⟨2, [7], -1000, 868100000⟩ 1600 none 0 0
    .witness]

end HeliumOracles.IotVerifier

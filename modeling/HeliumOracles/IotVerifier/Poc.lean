import Mathlib.Data.Rat.Defs
import Mathlib.Order.Basic
import Mathlib.Data.List.Nodup
import Mathlib.Algebra.Group.Nat.Defs
import Mathlib.Algebra.Group.Int.Defs
import HeliumOracles.Lib.Result

/-!
# Witness verification of a proof of coverage

Source: `iot_verifier/src/poc.rs` (`do_witness_verifications` and the checks it
chains: `verify_denylist`, `verify_edge_denylist`, `verify_self_witness`,
`verify_entropy`, `verify_witness_lag`, `verify_witness_data`,
`verify_gw_capability`, `verify_witness_freq`, `verify_witness_region`,
`verify_witness_cell_distance`, `verify_witness_distance`,
`verify_witness_rssi`; then `Poc::verify_witness`, `Poc::verify_witnesses` and
`verify_witness_reciprocity`), with `IotVerifiedWitnessReport::valid` and
`::invalid` of `file_store/src/iot_valid_poc.rs`.

Timestamps and durations are whole milliseconds; `DateTime::timestamp` is the
floor of a timestamp in seconds. Public keys, locations and regions are numbers.
The h3 geometry (`calc_distance`, `calc_cell_distance`), the `f64` free-space path
loss behind `calc_expected_rssi` and the deny list's lookups are given functions,
and the RSSI comparison is made in whatever ordered type they return. The gateway
cache, the density map and the `last_beacon` table are lookups; a failed query of
`last_beacon` fails the whole verification, as its `?` does.

`verify_witness_freq` casts the `u64` distance between the two frequencies `as i32`
before comparing it with 100 kHz (`verifyWitnessFreq_ok_iff`), so two frequencies
`2 ^ 32` Hz apart, or between `2 ^ 31` and `2 ^ 32` Hz apart, pass the check.
-/
namespace HeliumOracles.IotVerifier

/-- `InvalidReason`, the reasons these checks give. -/
inductive InvalidReason where
  | reasonNone
  | notAsserted
  | denied
  | deniedEdge
  | selfWitness
  | entropyExpired
  | tooLate
  | invalidPacket
  | invalidCapability
  | invalidFrequency
  | invalidRegion
  | belowMinDistance
  | maxDistanceExceeded
  | badRssi
  | gatewayNotFound
  | duplicate
  | gatewayNoValidBeacons
  deriving DecidableEq, Repr

/-- `InvalidResponse`: a reason and, for the deny list checks, the list's tag. -/
structure InvalidResponse where
  reason : InvalidReason
  details : Option String
  deriving DecidableEq, Repr

/-- `GenericVerifyResult`. -/
abbrev GenericVerifyResult := Except InvalidResponse Unit

/-- The fields of `IotWitnessReport` the verifier reads. -/
structure IotWitnessReport where
  pubKey : ℕ
  data : List UInt8
  signal : ℤ
  frequency : ℕ
  deriving DecidableEq, Repr

/-- `IotWitnessIngestReport`. -/
structure IotWitnessIngestReport where
  receivedTimestamp : ℤ
  report : IotWitnessReport
  deriving DecidableEq, Repr

/-- The fields of `IotBeaconReport` the witness checks read. -/
structure IotBeaconReport where
  pubKey : ℕ
  data : List UInt8
  frequency : ℕ
  txPower : ℤ
  deriving DecidableEq, Repr

/-- `IotBeaconIngestReport`. -/
structure IotBeaconIngestReport where
  receivedTimestamp : ℤ
  report : IotBeaconReport
  deriving DecidableEq, Repr

/-- `GatewayMetadata`. -/
structure GatewayMetadata where
  location : ℕ
  elevation : ℤ
  gain : ℤ
  region : ℤ
  deriving DecidableEq, Repr

/-- `GatewayInfo`. -/
structure GatewayInfo where
  address : ℕ
  isFullHotspot : Bool
  metadata : Option GatewayMetadata
  deriving DecidableEq, Repr

/-- `DenyList`: its tag and its two lookups. -/
structure DenyList where
  tagName : String
  containsKey : ℕ → Bool
  containsEdge : ℕ → ℕ → Bool

/-- The geometry and radio model the checks call: `calc_distance` in metres and
`calc_cell_distance` in cells (none when h3 refuses a location),
`calc_expected_rssi`, and the witness signal `as f64 / 10.0`, in an ordered type. -/
structure PocGeometry (F : Type) where
  calcDistance : ℕ → ℕ → Option ℕ
  calcCellDistance : ℕ → ℕ → Option ℕ
  calcExpectedRssi : ℤ → ℕ → ℕ → ℤ → ℤ → F
  signalDbm : ℤ → F

/-- `POC_DISTANCE_LIMIT`, in km. -/
def pocDistanceLimit : ℕ := 100

/-- `POC_CELL_DISTANCE_MINIMUM`. -/
def pocCellDistanceMinimum : ℕ := 8

/-- `MAX_WITNESS_LAG`, in ms. -/
def maxWitnessLag : ℤ := 1500

/-- `MAX_BEACON_TO_WITNESS_LAG`, in ms. -/
def maxBeaconToWitnessLag : ℤ := 4000

/-- `DateTime::timestamp`: whole seconds, rounded down. -/
def timestampSeconds (ms : ℤ) : ℤ := ms / 1000

/-- `u64::abs_diff`. -/
def absDiff (a b : ℕ) : ℕ := if a ≤ b then b - a else a - b

/-- `x as i32` of a `u64`: its low 32 bits, read in two's complement. -/
def asI32 (x : ℕ) : ℤ := if x % 2 ^ 32 < 2 ^ 31 then (x % 2 ^ 32 : ℕ) else (x % 2 ^ 32 : ℕ) - 2 ^ 32

/-- A failed check with no details. -/
def invalid (reason : InvalidReason) : GenericVerifyResult := .error ⟨reason, none⟩

/-- `verify_denylist`. -/
def verifyDenylist (pubKey : ℕ) (denyList : DenyList) : GenericVerifyResult :=
  if denyList.containsKey pubKey then .error ⟨.denied, some denyList.tagName⟩ else pure ()

/-- `verify_edge_denylist`. -/
def verifyEdgeDenylist (beaconer witness : ℕ) (denyList : DenyList) : GenericVerifyResult :=
  if denyList.containsEdge beaconer witness then .error ⟨.deniedEdge, some denyList.tagName⟩
  else pure ()

/-- `verify_self_witness`. -/
def verifySelfWitness (beaconPubKey witnessPubKey : ℕ) : GenericVerifyResult :=
  if witnessPubKey = beaconPubKey then invalid .selfWitness else pure ()

/-- `verify_entropy`: the report must arrive within the entropy's life, in seconds. -/
def verifyEntropy (entropyStart entropyEnd receivedTs : ℤ) : GenericVerifyResult :=
  if timestampSeconds receivedTs < timestampSeconds entropyStart ∨
      timestampSeconds receivedTs > timestampSeconds entropyEnd then invalid .entropyExpired
  else pure ()

/-- `verify_witness_lag`: the lag is counted from the first event, the beacon or the
first witness, with the bound of that event. -/
def verifyWitnessLag (beaconReceivedTs firstWitnessTs receivedTs : ℤ) : GenericVerifyResult :=
  let (firstEventTs, maxPermittedLag) :=
    if beaconReceivedTs ≤ firstWitnessTs then (beaconReceivedTs, maxBeaconToWitnessLag)
    else (firstWitnessTs, maxWitnessLag)
  if receivedTs - firstEventTs > maxPermittedLag then invalid .tooLate else pure ()

/-- `verify_witness_data`. -/
def verifyWitnessData (beaconData witnessData : List UInt8) : GenericVerifyResult :=
  if witnessData ≠ beaconData then invalid .invalidPacket else pure ()

/-- `verify_gw_capability`. -/
def verifyGwCapability (isFullHotspot : Bool) : GenericVerifyResult :=
  if !isFullHotspot then invalid .invalidCapability else pure ()

/-- `verify_witness_freq`: the distance between the frequencies, cast `as i32`, at most
100 kHz. -/
def verifyWitnessFreq (beaconFreq witnessFreq : ℕ) : GenericVerifyResult :=
  if asI32 (absDiff beaconFreq witnessFreq) > 1000 * 100 then invalid .invalidFrequency
  else pure ()

/-- `verify_witness_region`. -/
def verifyWitnessRegion (beaconRegion witnessRegion : ℤ) : GenericVerifyResult :=
  if beaconRegion ≠ witnessRegion then invalid .invalidRegion else pure ()

section Geometry

variable {F : Type} [LT F] [DecidableRel (fun a b : F => a < b)] (geometry : PocGeometry F)

/-- `verify_witness_distance`: at most `POC_DISTANCE_LIMIT` whole km apart. -/
def verifyWitnessDistance (beaconLoc witnessLoc : ℕ) : GenericVerifyResult :=
  match geometry.calcDistance beaconLoc witnessLoc with
  | none => invalid .maxDistanceExceeded
  | some witnessDistance =>
    if witnessDistance / 1000 > pocDistanceLimit then invalid .maxDistanceExceeded else pure ()

/-- `verify_witness_cell_distance`: at least `POC_CELL_DISTANCE_MINIMUM` cells apart. -/
def verifyWitnessCellDistance (beaconLoc witnessLoc : ℕ) : GenericVerifyResult :=
  match geometry.calcCellDistance beaconLoc witnessLoc with
  | none => invalid .belowMinDistance
  | some cellDistance =>
    if cellDistance < pocCellDistanceMinimum then invalid .belowMinDistance else pure ()

/-- `verify_witness_rssi`: the witness may not hear the beacon louder than the expected
signal at its distance. -/
def verifyWitnessRssi (witnessSignal : ℤ) (witnessFreq : ℕ) (beaconTxPower beaconGain witnessGain : ℤ)
    (beaconLoc witnessLoc : ℕ) : GenericVerifyResult :=
  match geometry.calcDistance beaconLoc witnessLoc with
  | none => invalid .badRssi
  | some distance =>
    let minRcvSignal :=
      geometry.calcExpectedRssi beaconTxPower witnessFreq distance beaconGain witnessGain
    if geometry.signalDbm witnessSignal > minRcvSignal then invalid .badRssi else pure ()

/-- `do_witness_verifications`: the checks in their order; the first that fails gives
the reason. -/
def doWitnessVerifications (denyList : DenyList) (entropyStart entropyEnd : ℤ)
    (witnessReport : IotWitnessIngestReport) (witnessInfo : GatewayInfo)
    (beaconReport : IotBeaconIngestReport) (beaconerMetadata : GatewayMetadata)
    (witnessFirstTs : ℤ) : GenericVerifyResult := do
  let some witnessMetadata := witnessInfo.metadata | invalid .notAsserted
  verifyDenylist witnessReport.report.pubKey denyList
  verifyEdgeDenylist beaconReport.report.pubKey witnessReport.report.pubKey denyList
  verifySelfWitness beaconReport.report.pubKey witnessReport.report.pubKey
  verifyEntropy entropyStart entropyEnd witnessReport.receivedTimestamp
  verifyWitnessLag beaconReport.receivedTimestamp witnessFirstTs witnessReport.receivedTimestamp
  verifyWitnessData beaconReport.report.data witnessReport.report.data
  verifyGwCapability witnessInfo.isFullHotspot
  verifyWitnessFreq beaconReport.report.frequency witnessReport.report.frequency
  verifyWitnessRegion beaconerMetadata.region witnessMetadata.region
  verifyWitnessCellDistance geometry beaconerMetadata.location witnessMetadata.location
  verifyWitnessDistance geometry beaconerMetadata.location witnessMetadata.location
  verifyWitnessRssi geometry witnessReport.report.signal witnessReport.report.frequency
    beaconReport.report.txPower beaconerMetadata.gain witnessMetadata.gain
    beaconerMetadata.location witnessMetadata.location

end Geometry

/-! ## Verifying the witnesses of a beacon -/

/-- `VerificationStatus`. -/
inductive VerificationStatus where
  | valid
  | invalid
  deriving DecidableEq, Repr

/-- `InvalidParticipantSide`. -/
inductive InvalidParticipantSide where
  | sideNone
  | beaconer
  | witness
  deriving DecidableEq, Repr

/-- `IotVerifiedWitnessReport`; `Decimal` values are rationals. -/
structure IotVerifiedWitnessReport where
  receivedTimestamp : ℤ
  status : VerificationStatus
  report : IotWitnessReport
  location : Option ℕ
  gain : ℤ
  elevation : ℤ
  hexScale : ℚ
  rewardUnit : ℚ
  invalidReason : InvalidReason
  participantSide : InvalidParticipantSide
  invalidDetails : Option String
  deriving DecidableEq, Repr

/-- `IotVerifiedWitnessReport::valid`: no reward units until the witnesses are counted. -/
def IotVerifiedWitnessReport.valid (report : IotWitnessReport) (receivedTimestamp : ℤ)
    (location : Option ℕ) (gain elevation : ℤ) (hexScale : ℚ) : IotVerifiedWitnessReport :=
  ⟨receivedTimestamp, .valid, report, location, gain, elevation, hexScale, 0, .reasonNone,
    .sideNone, none⟩

/-- `IotVerifiedWitnessReport::invalid`. -/
def IotVerifiedWitnessReport.invalid (invalidReason : InvalidReason)
    (invalidDetails : Option String) (report : IotWitnessReport) (receivedTimestamp : ℤ)
    (location : Option ℕ) (gain elevation : ℤ) (participantSide : InvalidParticipantSide) :
    IotVerifiedWitnessReport :=
  ⟨receivedTimestamp, .invalid, report, location, gain, elevation, 0, 0, invalidReason,
    participantSide, invalidDetails⟩

/-- `DEFAULT_TX_SCALE`. -/
def defaultTxScale : ℚ := 2000 / 10 ^ 4

/-- `RECIPROCITY_WINDOW`, in ms. -/
def reciprocityWindow : ℤ := 48 * 60 * 60 * 1000

/-- The fields of `Poc` that witness verification reads. -/
structure Poc where
  beaconReport : IotBeaconIngestReport
  witnessReports : List IotWitnessIngestReport
  entropyStart : ℤ
  entropyEnd : ℤ

/-- What `verify_witnesses` looks up: the deny list, the gateway cache (none for
`GatewayNotFound`), the hex density map, and the `last_beacon` table, whose query may
fail (the outer `none`). -/
structure PocLookups (F : Type) where
  geometry : PocGeometry F
  denyList : DenyList
  resolveGatewayInfo : ℕ → Option GatewayInfo
  hexScale : ℕ → Option ℚ
  lastBeacon : ℕ → Option (Option ℤ)

/-- `LastWitness`: a gateway and the timestamp of its last valid witness. -/
structure LastWitness where
  id : ℕ
  timestamp : ℤ
  deriving DecidableEq, Repr

/-- `VerifyWitnessesResult`. -/
structure VerifyWitnessesResult where
  verifiedWitnesses : List IotVerifiedWitnessReport
  failedWitnesses : List IotWitnessIngestReport
  deriving DecidableEq, Repr

section Witnesses

variable {F : Type} [LT F] [DecidableRel (fun a b : F => a < b)]

/-- `Poc::verify_witness`, which never fails: a witness the gateway cache does not know,
or one without an asserted location, is invalid before any check is run. -/
def Poc.verifyWitness (self : Poc) (lookups : PocLookups F) (witnessReport : IotWitnessIngestReport)
    (beaconerInfo : GatewayInfo) (witnessFirstTs : ℤ) : IotVerifiedWitnessReport :=
  match lookups.resolveGatewayInfo witnessReport.report.pubKey with
  | none => .invalid .gatewayNotFound none witnessReport.report witnessReport.receivedTimestamp
      none 0 0 .witness
  | some witnessInfo =>
    match witnessInfo.metadata with
    | none => .invalid .notAsserted none witnessReport.report witnessReport.receivedTimestamp
        none 0 0 .witness
    | some witnessMetadata =>
      match beaconerInfo.metadata with
      | none => .invalid .notAsserted none witnessReport.report witnessReport.receivedTimestamp
          none 0 0 .beaconer
      | some beaconerMetadata =>
        match doWitnessVerifications lookups.geometry lookups.denyList self.entropyStart
            self.entropyEnd witnessReport witnessInfo self.beaconReport beaconerMetadata
            witnessFirstTs with
        | .ok () => .valid witnessReport.report witnessReport.receivedTimestamp
            (some witnessMetadata.location) witnessMetadata.gain witnessMetadata.elevation
            ((lookups.hexScale beaconerMetadata.location).getD defaultTxScale)
        | .error invalidResponse => .invalid invalidResponse.reason invalidResponse.details
            witnessReport.report witnessReport.receivedTimestamp (some witnessMetadata.location)
            witnessMetadata.gain witnessMetadata.elevation .witness

/-- `Poc::verify_witness_reciprocity`: the witness beaconed itself within the window. -/
def verifyWitnessReciprocity (lookups : PocLookups F) (report : IotWitnessIngestReport) :
    Option Bool :=
  (lookups.lastBeacon report.report.pubKey).map fun lastBeacon =>
    match lastBeacon with
    | some timestamp => decide (report.receivedTimestamp - timestamp < reciprocityWindow)
    | none => false

/-- The state of the loop of `verify_witnesses`. -/
structure WitnessLoop where
  witnessesToUpdate : List LastWitness
  verifiedWitnesses : List IotVerifiedWitnessReport
  existingGateways : List ℕ
  deriving DecidableEq, Repr

/-- One iteration of the loop of `verify_witnesses`: a report from a gateway already seen
is a duplicate; otherwise it is verified, and a valid one is checked for reciprocity. -/
def Poc.verifyWitnessStep (self : Poc) (lookups : PocLookups F) (beaconInfo : GatewayInfo)
    (witnessEarliestReceivedTs : ℤ) (acc : WitnessLoop) (witnessReport : IotWitnessIngestReport) :
    Option WitnessLoop :=
  if acc.existingGateways.contains witnessReport.report.pubKey then
    let dupWitness := IotVerifiedWitnessReport.invalid .duplicate none witnessReport.report
      witnessReport.receivedTimestamp none 0 0 .witness
    some { acc with verifiedWitnesses := acc.verifiedWitnesses ++ [dupWitness] }
  else
    let verifiedWitness :=
      self.verifyWitness lookups witnessReport beaconInfo witnessEarliestReceivedTs
    let existingGateways := acc.existingGateways ++ [verifiedWitness.report.pubKey]
    if verifiedWitness.status = .valid then do
      let reciprocal ← verifyWitnessReciprocity lookups witnessReport
      let witnessesToUpdate := acc.witnessesToUpdate ++
        [⟨witnessReport.report.pubKey, verifiedWitness.receivedTimestamp⟩]
      let verifiedWitness := if reciprocal then verifiedWitness
        else
          { verifiedWitness with
            status := .invalid
            invalidReason := .gatewayNoValidBeacons
            participantSide := .witness }
      pure ⟨witnessesToUpdate, acc.verifiedWitnesses ++ [verifiedWitness], existingGateways⟩
    else
      some ⟨acc.witnessesToUpdate, acc.verifiedWitnesses ++ [verifiedWitness], existingGateways⟩

/-- `Poc::verify_witnesses`: the verified reports, and the last-witness timestamps it
hands to the witness updater. The lag of every witness is counted from the first
report's arrival. -/
def Poc.verifyWitnesses (self : Poc) (lookups : PocLookups F) (beaconInfo : GatewayInfo) :
    Option (VerifyWitnessesResult × List LastWitness) :=
  match self.witnessReports with
  | [] => some (⟨[], []⟩, [])
  | first :: _ =>
    (self.witnessReports.foldlM
        (self.verifyWitnessStep lookups beaconInfo first.receivedTimestamp) ⟨[], [], []⟩).map
      fun loop => (⟨loop.verifiedWitnesses, []⟩, loop.witnessesToUpdate)

/-- The witness report a verified report was made from, and when it arrived. -/
def IotVerifiedWitnessReport.source (verified : IotVerifiedWitnessReport) :
    IotWitnessReport × ℤ :=
  (verified.report, verified.receivedTimestamp)

/-- The report and arrival time of an ingested witness report. -/
def IotWitnessIngestReport.source (witnessReport : IotWitnessIngestReport) :
    IotWitnessReport × ℤ :=
  (witnessReport.report, witnessReport.receivedTimestamp)

theorem Poc.verifyWitness_source (self : Poc) (lookups : PocLookups F)
    (witnessReport : IotWitnessIngestReport) (beaconerInfo : GatewayInfo) (witnessFirstTs : ℤ) :
    (self.verifyWitness lookups witnessReport beaconerInfo witnessFirstTs).source =
      witnessReport.source := by
  unfold Poc.verifyWitness
  split
  · rfl
  · split
    · rfl
    · split
      · rfl
      · split <;> rfl

/-- What one iteration does: it appends one verified report made from the witness
report, records the witness's gateway if it was not seen before, and appends a valid
report only for a gateway not seen before. -/
theorem Poc.verifyWitnessStep_spec {self : Poc} {lookups : PocLookups F}
    {beaconInfo : GatewayInfo} {earliest : ℤ} {acc acc' : WitnessLoop}
    {witnessReport : IotWitnessIngestReport}
    (step : self.verifyWitnessStep lookups beaconInfo earliest acc witnessReport = some acc') :
    ∃ verified, acc'.verifiedWitnesses = acc.verifiedWitnesses ++ [verified] ∧
      verified.source = witnessReport.source ∧
      witnessReport.report.pubKey ∈ acc'.existingGateways ∧
      (∀ gateway ∈ acc.existingGateways, gateway ∈ acc'.existingGateways) ∧
      (verified.status = .valid → witnessReport.report.pubKey ∉ acc.existingGateways ∧
        ∀ gateway ∈ acc'.existingGateways,
          gateway ∈ acc.existingGateways ∨ gateway = witnessReport.report.pubKey) := by
  have sourceIs := self.verifyWitness_source lookups witnessReport beaconInfo earliest
  have keyIs : (self.verifyWitness lookups witnessReport beaconInfo earliest).report.pubKey =
      witnessReport.report.pubKey := congrArg (·.1.pubKey) sourceIs
  unfold Poc.verifyWitnessStep at step
  dsimp only at step
  split_ifs at step with seen valid
  · -- a duplicate: an invalid report, the gateways unchanged
    cases step
    refine ⟨_, rfl, rfl, by simpa using seen, fun _ kept => kept, ?_⟩
    intro isValid
    cases isValid
  · -- a valid report: the reciprocity lookup succeeded
    obtain ⟨reciprocal, -, step⟩ := Option.bind_eq_some_iff.mp step
    cases step
    have fresh : witnessReport.report.pubKey ∉ acc.existingGateways := by simpa using seen
    refine ⟨_, rfl, ?_, by simp [keyIs], fun _ kept => by simp [kept], ?_⟩
    · cases reciprocal
      · simpa [IotVerifiedWitnessReport.source] using sourceIs
      · exact sourceIs
    · intro _
      refine ⟨fresh, fun gateway member => ?_⟩
      simp only [List.mem_append, List.mem_singleton, keyIs] at member
      exact member
  · -- an invalid report from a new gateway
    cases step
    refine ⟨_, rfl, sourceIs, by simp [keyIs], fun _ kept => by simp [kept], ?_⟩
    intro isValid
    exact absurd isValid valid

/-- The invariant of the loop of `verify_witnesses`: one verified report per report
taken so far, made from it; the valid ones come from distinct gateways, each recorded
as seen. -/
structure WitnessLoop.Inv (done : List IotWitnessIngestReport) (loop : WitnessLoop) : Prop where
  sources : loop.verifiedWitnesses.map (·.source) = done.map (·.source)
  distinct : ((loop.verifiedWitnesses.filter (·.status = .valid)).map (·.report.pubKey)).Nodup
  seen : ∀ verified ∈ loop.verifiedWitnesses, verified.status = .valid →
    verified.report.pubKey ∈ loop.existingGateways

theorem WitnessLoop.inv_initial : WitnessLoop.Inv [] ⟨[], [], []⟩ :=
  ⟨rfl, List.nodup_nil, fun _ absent => absurd absent List.not_mem_nil⟩

theorem Poc.verifyWitnessStep_inv {self : Poc} {lookups : PocLookups F}
    {beaconInfo : GatewayInfo} {earliest : ℤ} {done : List IotWitnessIngestReport}
    {acc acc' : WitnessLoop} {witnessReport : IotWitnessIngestReport} (inv : acc.Inv done)
    (step : self.verifyWitnessStep lookups beaconInfo earliest acc witnessReport = some acc') :
    acc'.Inv (done ++ [witnessReport]) := by
  obtain ⟨verified, appended, source, member, kept, fresh⟩ := Poc.verifyWitnessStep_spec step
  have keyIs : verified.report.pubKey = witnessReport.report.pubKey := congrArg (·.1.pubKey) source
  constructor
  · rw [appended, List.map_append, inv.sources, List.map_append]
    simp [source]
  · rw [appended, List.filter_append]
    by_cases valid : verified.status = .valid
    · obtain ⟨unseen, -⟩ := fresh valid
      -- the new valid gateway was not seen, and every earlier valid one was
      have newKey : verified.report.pubKey ∉
          (acc.verifiedWitnesses.filter (·.status = .valid)).map (·.report.pubKey) := by
        intro earlier
        obtain ⟨other, otherMem, sameKey⟩ := List.mem_map.mp earlier
        obtain ⟨otherIn, otherValid⟩ := List.mem_filter.mp otherMem
        have otherSeen := inv.seen other otherIn (by simpa using otherValid)
        rw [sameKey, keyIs] at otherSeen
        exact unseen otherSeen
      simp only [List.filter_cons, valid, decide_true, if_true, List.filter_nil, List.map_append,
        List.map_cons, List.map_nil]
      exact List.nodup_append.mpr ⟨inv.distinct, List.nodup_singleton _,
        fun a aMem b bMem same => newKey (by rw [List.mem_singleton.mp bMem] at same; rwa [same] at aMem)⟩
    · simpa [valid] using inv.distinct
  · intro other otherMem otherValid
    rw [appended, List.mem_append, List.mem_singleton] at otherMem
    rcases otherMem with earlier | rfl
    · exact kept _ (inv.seen other earlier otherValid)
    · rw [keyIs]
      exact member

/-- Every report of the POC gets exactly one verified report, made from it and in its
place, and no two valid verified reports come from one gateway. Nothing fails. -/
theorem Poc.verifyWitnesses_spec {self : Poc} {lookups : PocLookups F} {beaconInfo : GatewayInfo}
    {result : VerifyWitnessesResult} {updates : List LastWitness}
    (verified : self.verifyWitnesses lookups beaconInfo = some (result, updates)) :
    result.verifiedWitnesses.map (·.source) = self.witnessReports.map (·.source) ∧
      ((result.verifiedWitnesses.filter (·.status = .valid)).map (·.report.pubKey)).Nodup ∧
      result.failedWitnesses = [] := by
  unfold Poc.verifyWitnesses at verified
  split at verified
  · rename_i noReports
    cases verified
    simp [noReports]
  · obtain ⟨loop, looped, returned⟩ := Option.map_eq_some_iff.mp verified
    cases returned
    have inv := Lib.Result.foldlM_option_invariant WitnessLoop.Inv _
      (fun _ _ _ _ before step => Poc.verifyWitnessStep_inv before step)
      self.witnessReports [] ⟨[], [], []⟩ loop WitnessLoop.inv_initial looped
    rw [List.nil_append] at inv
    exact ⟨inv.sources, inv.distinct, rfl⟩

end Witnesses

/-! ## The frequency check -/

theorem asI32_of_lt {x : ℕ} (low : x % 2 ^ 32 < 2 ^ 31) : asI32 x = (x % 2 ^ 32 : ℕ) :=
  if_pos low

theorem asI32_of_ge {x : ℕ} (high : 2 ^ 31 ≤ x % 2 ^ 32) : asI32 x = (x % 2 ^ 32 : ℕ) - 2 ^ 32 :=
  if_neg (not_lt.mpr high)

/-- A deny list that denies nothing. -/
def openDenyList : DenyList := ⟨"", fun _ => false, fun _ _ => false⟩

/-- Locations 10 km and 10 cells apart, heard at most at -80 dBm, in whole dBm. -/
def tenKmGeometry : PocGeometry ℤ :=
  ⟨fun _ _ => some 10000, fun _ _ => some 10, fun _ _ _ _ _ => -80, fun signal => signal / 10⟩

/-- A beacon at 868.1 MHz, received at 1 s. -/
def beaconAt868 : IotBeaconIngestReport := ⟨1000, ⟨1, [7], 868100000, 27⟩⟩

/-- A witness of that beacon by another full hotspot, half a second later, at -100 dBm,
that reports a frequency `2 ^ 32` Hz above the beacon's. -/
def witnessAbove868 : IotWitnessIngestReport := ⟨1500, ⟨2, [7], -1000, 868100000 + 2 ^ 32⟩⟩

/-- Every check passes: the distance of `2 ^ 32` Hz between the two frequencies is cast
`as i32` to 0, within the 100 kHz tolerance. -/
theorem witness_far_off_frequency_accepted :
    100000 < absDiff beaconAt868.report.frequency witnessAbove868.report.frequency ∧
    doWitnessVerifications tenKmGeometry openDenyList 0 180000 witnessAbove868
      ⟨2, true, some ⟨20, 0, 12, 1⟩⟩ beaconAt868 ⟨10, 0, 12, 1⟩ 1500 = .ok () := by
  decide

end HeliumOracles.IotVerifier

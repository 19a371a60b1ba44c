import Mathlib.Algebra.Order.BigOperators.Group.List
import Mathlib.Algebra.Order.Floor.Semifield
import Mathlib.Data.Rat.Floor
import Mathlib.Tactic.NormNum
import HeliumOracles.Lib.Word

/-!
# Speedtest averages

Source: `mobile_verifier/src/speedtests_average.rs` (`From<Vec<Speedtest>> for
SpeedtestAverage`, `SpeedtestTier`, `calculate_tier`, `validity`, `mbps`).

A speedtest is the three fields of `CellSpeedtest` that the average reads: the speeds are
`u64` and the latency `u32`, signed by the hotspot and checked by no one on the way in
(`ingest/src/server_mobile.rs`). The loop adds them into sums of the same types, which wrap
in the release build (Lib.Word). Its counter is an `i32`, which would wrap only past 2³¹
speedtests; the query gives a hotspot at most six, so the counter is the length here. The
public key and the speedtests the average keeps are left out.

The results: the loop computes the three wrapping sums (`foldl_addSpeedtest`). Where no sum
wraps, each average is the floor of the mean (`speedtest_averages_are_floor_means`), and a
better speedtest never lowers the multiplier (`speedtest_multiplier_monotone_without_wrap`).
Raising one download to the largest `u64` wraps the sum and takes the multiplier of two
good speedtests from one to a quarter (`raised_download_lowers_multiplier`).
-/
namespace HeliumOracles.MobileVerifier

open HeliumOracles.Lib.Word

/-- The fields of a `CellSpeedtest` that the average reads. -/
structure Speedtest where
  uploadSpeed : ℕ
  downloadSpeed : ℕ
  latency : ℕ
  deriving DecidableEq, Repr

/-- `mbps`: megabits per second as bytes per second. -/
def mbps (mbps : ℕ) : ℕ := mbps * 125000

/-- `MIN_REQUIRED_SAMPLES`. -/
def minRequiredSamples : ℕ := 2

/-- `MIN_DOWNLOAD`. -/
def minDownload : ℕ := mbps 30

/-- `MIN_UPLOAD`. -/
def minUpload : ℕ := mbps 2

/-- `MAX_LATENCY`. -/
def maxLatency : ℕ := 100

/-- `SpeedtestTier`. -/
inductive SpeedtestTier where
  | failed
  | poor
  | degraded
  | acceptable
  | good
  deriving DecidableEq, Repr

/-- The discriminant of a tier, which the derived order compares. -/
def SpeedtestTier.toNat : SpeedtestTier → ℕ
  | .failed => 0
  | .poor => 1
  | .degraded => 2
  | .acceptable => 3
  | .good => 4

/-- `Ord::min` of the derived order. -/
def SpeedtestTier.min (self other : SpeedtestTier) : SpeedtestTier :=
  if other.toNat < self.toNat then other else self

/-- `SpeedtestTier::into_multiplier`. -/
def SpeedtestTier.intoMultiplier : SpeedtestTier → ℚ
  | .good => 1
  | .acceptable => 3 / 4
  | .degraded => 1 / 2
  | .poor => 1 / 4
  | .failed => 0

/-- The tier of a value against four thresholds from the best tier down: the first one it
reaches. -/
def tierOfSpeed (good acceptable degraded poor : ℕ) (speed : ℕ) : SpeedtestTier :=
  if speed ≥ good then .good
  else if speed ≥ acceptable then .acceptable
  else if speed ≥ degraded then .degraded
  else if speed ≥ poor then .poor
  else .failed

/-- `SpeedtestTier::from_download_speed`. -/
def SpeedtestTier.fromDownloadSpeed (downloadSpeed : ℕ) : SpeedtestTier :=
  tierOfSpeed (mbps 100) (mbps 75) (mbps 50) (mbps 30) downloadSpeed

/-- `SpeedtestTier::from_upload_speed`. -/
def SpeedtestTier.fromUploadSpeed (uploadSpeed : ℕ) : SpeedtestTier :=
  tierOfSpeed (mbps 10) (mbps 8) (mbps 5) (mbps 2) uploadSpeed

/-- `SpeedtestTier::from_latency`: its thresholds bound the value from above. -/
def SpeedtestTier.fromLatency (latency : ℕ) : SpeedtestTier :=
  if latency < 50 then .good
  else if latency < 60 then .acceptable
  else if latency < 75 then .degraded
  else if latency < 100 then .poor
  else .failed

/-- `calculate_tier`. -/
def calculateTier (windowSize uploadSpeedAvgBps downloadSpeedAvgBps latencyAvgMs : ℕ) :
    SpeedtestTier :=
  if windowSize < minRequiredSamples then .failed
  else ((SpeedtestTier.fromDownloadSpeed downloadSpeedAvgBps).min
    (SpeedtestTier.fromUploadSpeed uploadSpeedAvgBps)).min (SpeedtestTier.fromLatency latencyAvgMs)

/-- `SpeedtestAvgValidity`. -/
inductive SpeedtestAvgValidity where
  | valid
  | tooFewSamples
  | slowDownloadSpeed
  | slowUploadSpeed
  | highLatency
  deriving DecidableEq, Repr

/-- `validity`. -/
def validity (windowSize uploadSpeedAvgBps downloadSpeedAvgBps latencyAvgMs : ℕ) :
    SpeedtestAvgValidity :=
  if windowSize < minRequiredSamples then .tooFewSamples
  else if downloadSpeedAvgBps < minDownload then .slowDownloadSpeed
  else if uploadSpeedAvgBps < minUpload then .slowUploadSpeed
  else if latencyAvgMs > maxLatency then .highLatency
  else .valid

/-- The fields of a `SpeedtestAverage` that `from` computes. -/
structure SpeedtestAverage where
  windowSize : ℕ
  uploadSpeedAvgBps : ℕ
  downloadSpeedAvgBps : ℕ
  latencyAvgMs : ℕ
  validity : SpeedtestAvgValidity
  rewardMultiplier : ℚ
  deriving DecidableEq, Repr

/-- The running values of the loop of `from`. -/
structure Sums where
  windowSize : ℕ
  sumUpload : ℕ
  sumDownload : ℕ
  sumLatency : ℕ
  deriving DecidableEq, Repr

/-- One pass of the loop: each sum adds in its own width. -/
def addSpeedtest (sums : Sums) (speedtest : Speedtest) : Sums where
  windowSize := sums.windowSize + 1
  sumUpload := wrappingAdd 64 sums.sumUpload speedtest.uploadSpeed
  sumDownload := wrappingAdd 64 sums.sumDownload speedtest.downloadSpeed
  sumLatency := wrappingAdd 32 sums.sumLatency speedtest.latency

/-- `SpeedtestAverage::from`. -/
def SpeedtestAverage.fromSpeedtests (speedtests : List Speedtest) : SpeedtestAverage :=
  let sums := speedtests.foldl addSpeedtest ⟨0, 0, 0, 0⟩
  if sums.windowSize > 0 then
    let uploadSpeedAvgBps := sums.sumUpload / sums.windowSize
    let downloadSpeedAvgBps := sums.sumDownload / sums.windowSize
    let latencyAvgMs := sums.sumLatency / sums.windowSize
    { windowSize := sums.windowSize
      uploadSpeedAvgBps
      downloadSpeedAvgBps
      latencyAvgMs
      validity := MobileVerifier.validity sums.windowSize uploadSpeedAvgBps downloadSpeedAvgBps
        latencyAvgMs
      rewardMultiplier := (calculateTier sums.windowSize uploadSpeedAvgBps downloadSpeedAvgBps
        latencyAvgMs).intoMultiplier }
  else
    { windowSize := 0
      uploadSpeedAvgBps := sums.sumUpload
      downloadSpeedAvgBps := sums.sumDownload
      latencyAvgMs := sums.sumLatency
      validity := .tooFewSamples
      rewardMultiplier := 0 }

/-! ## The loop -/

section Loop

/-- The loop counts the speedtests and folds each field into its wrapping sum. -/
theorem foldl_addSpeedtest (speedtests : List Speedtest) (sums : Sums) :
    speedtests.foldl addSpeedtest sums =
      ⟨sums.windowSize + speedtests.length,
        (speedtests.map (·.uploadSpeed)).foldl (wrappingAdd 64) sums.sumUpload,
        (speedtests.map (·.downloadSpeed)).foldl (wrappingAdd 64) sums.sumDownload,
        (speedtests.map (·.latency)).foldl (wrappingAdd 32) sums.sumLatency⟩ := by
  induction speedtests generalizing sums with
  | nil => simp
  | cons speedtest rest ih =>
    rw [List.foldl_cons, ih]
    simp only [addSpeedtest, List.length_cons, List.map_cons, List.foldl_cons]
    congr 1
    omega

/-- A nonempty list is averaged over its length, from the wrapping sums of its fields. -/
theorem fromSpeedtests_of_ne_nil {speedtests : List Speedtest} (nonempty : speedtests ≠ []) :
    SpeedtestAverage.fromSpeedtests speedtests =
      let uploadSpeedAvgBps := wrappingSum 64 (speedtests.map (·.uploadSpeed)) / speedtests.length
      let downloadSpeedAvgBps :=
        wrappingSum 64 (speedtests.map (·.downloadSpeed)) / speedtests.length
      let latencyAvgMs := wrappingSum 32 (speedtests.map (·.latency)) / speedtests.length
      { windowSize := speedtests.length
        uploadSpeedAvgBps
        downloadSpeedAvgBps
        latencyAvgMs
        validity := validity speedtests.length uploadSpeedAvgBps downloadSpeedAvgBps latencyAvgMs
        rewardMultiplier := (calculateTier speedtests.length uploadSpeedAvgBps downloadSpeedAvgBps
          latencyAvgMs).intoMultiplier } := by
  have counted : 0 < speedtests.length := List.length_pos_iff.mpr nonempty
  simp only [SpeedtestAverage.fromSpeedtests, foldl_addSpeedtest, zero_add, wrappingSum]
  rw [if_pos counted]

end Loop

/-! ## Tiers -/

section Tiers

theorem toNat_tierMin (self other : SpeedtestTier) :
    (self.min other).toNat = min self.toNat other.toNat := by
  cases self <;> cases other <;> rfl

theorem SpeedtestTier.intoMultiplier_mono {tier tier' : SpeedtestTier}
    (le : tier.toNat ≤ tier'.toNat) : tier.intoMultiplier ≤ tier'.intoMultiplier := by
  revert le
  cases tier <;> cases tier' <;> norm_num [SpeedtestTier.toNat, SpeedtestTier.intoMultiplier]

theorem SpeedtestTier.intoMultiplier_mem (tier : SpeedtestTier) :
    0 ≤ tier.intoMultiplier ∧ tier.intoMultiplier ≤ 1 := by
  cases tier <;> norm_num [SpeedtestTier.intoMultiplier]

/-- Every average has a multiplier in `[0, 1]`: the weight the coverage points take it as. -/
theorem fromSpeedtests_rewardMultiplier_mem (speedtests : List Speedtest) :
    0 ≤ (SpeedtestAverage.fromSpeedtests speedtests).rewardMultiplier ∧
      (SpeedtestAverage.fromSpeedtests speedtests).rewardMultiplier ≤ 1 := by
  unfold SpeedtestAverage.fromSpeedtests
  dsimp only
  split
  · exact SpeedtestTier.intoMultiplier_mem _
  · exact ⟨le_rfl, zero_le_one⟩

/-- A faster speed reaches every threshold a slower one reaches, so its tier is no lower,
whatever the thresholds. -/
theorem tierOfSpeed_mono (good acceptable degraded poor : ℕ) {speed speed' : ℕ}
    (le : speed ≤ speed') :
    (tierOfSpeed good acceptable degraded poor speed).toNat ≤
      (tierOfSpeed good acceptable degraded poor speed').toNat := by
  unfold tierOfSpeed
  split_ifs <;> simp only [SpeedtestTier.toNat] <;> omega

/-- A lower latency never gets a lower tier. -/
theorem fromLatency_antitone {latency latency' : ℕ} (le : latency ≤ latency') :
    (SpeedtestTier.fromLatency latency').toNat ≤ (SpeedtestTier.fromLatency latency).toNat := by
  unfold SpeedtestTier.fromLatency
  split_ifs <;> simp only [SpeedtestTier.toNat] <;> omega

/-- Faster averages and a lower latency never get a lower tier. -/
theorem calculateTier_mono (windowSize : ℕ) {upload upload' download download' latency latency' : ℕ}
    (uploadLe : upload ≤ upload') (downloadLe : download ≤ download') (latencyLe : latency' ≤ latency) :
    (calculateTier windowSize upload download latency).toNat ≤
      (calculateTier windowSize upload' download' latency').toNat := by
  have downloadTier := tierOfSpeed_mono (mbps 100) (mbps 75) (mbps 50) (mbps 30) downloadLe
  have uploadTier := tierOfSpeed_mono (mbps 10) (mbps 8) (mbps 5) (mbps 2) uploadLe
  have latencyTier := fromLatency_antitone latencyLe
  unfold calculateTier
  split_ifs
  · exact le_rfl
  · simp only [toNat_tierMin, SpeedtestTier.fromDownloadSpeed,
      SpeedtestTier.fromUploadSpeed]
    omega

end Tiers

/-! ## Averages without wrapping -/

section Averages

/-- A speedtest no slower and no later than another. -/
def Speedtest.AtMost (speedtest better : Speedtest) : Prop :=
  speedtest.uploadSpeed ≤ better.uploadSpeed ∧ speedtest.downloadSpeed ≤ better.downloadSpeed ∧
    better.latency ≤ speedtest.latency

/-- Two lists paired termwise by a field comparison have their field sums in that order. -/
theorem sum_map_le_of_forall₂ {α β : Type} {items : List α} {items' : List β} {field : α → ℕ}
    {field' : β → ℕ} (paired : List.Forall₂ (fun item item' => field item ≤ field' item') items items') :
    (items.map field).sum ≤ (items'.map field').sum :=
  List.Forall₂.sum_le_sum (List.forall₂_map_left_iff.mpr (List.forall₂_map_right_iff.mpr paired))

theorem speedtest_averages_are_floor_means {speedtests : List Speedtest}
    (nonempty : speedtests ≠ [])
    (uploadsFit : (speedtests.map (·.uploadSpeed)).sum < 2 ^ 64)
    (downloadsFit : (speedtests.map (·.downloadSpeed)).sum < 2 ^ 64)
    (latenciesFit : (speedtests.map (·.latency)).sum < 2 ^ 32) :
    (SpeedtestAverage.fromSpeedtests speedtests).uploadSpeedAvgBps =
        ⌊(((speedtests.map (·.uploadSpeed)).sum : ℕ) : ℚ) / speedtests.length⌋₊ ∧
      (SpeedtestAverage.fromSpeedtests speedtests).downloadSpeedAvgBps =
        ⌊(((speedtests.map (·.downloadSpeed)).sum : ℕ) : ℚ) / speedtests.length⌋₊ ∧
      (SpeedtestAverage.fromSpeedtests speedtests).latencyAvgMs =
        ⌊(((speedtests.map (·.latency)).sum : ℕ) : ℚ) / speedtests.length⌋₊ := by
  rw [fromSpeedtests_of_ne_nil nonempty]
  simp only [wrappingSum_of_lt uploadsFit, wrappingSum_of_lt downloadsFit,
    wrappingSum_of_lt latenciesFit, Nat.floor_div_eq_div, and_self]

theorem speedtest_averages_of_two_hundred_mbps :
    (SpeedtestAverage.fromSpeedtests [Speedtest.mk (mbps 10) (mbps 100) 40,
        Speedtest.mk (mbps 20) (mbps 300) 49]).uploadSpeedAvgBps =
        ⌊((([Speedtest.mk (mbps 10) (mbps 100) 40, Speedtest.mk (mbps 20) (mbps 300) 49].map
          (·.uploadSpeed)).sum : ℕ) : ℚ) /
          [Speedtest.mk (mbps 10) (mbps 100) 40, Speedtest.mk (mbps 20) (mbps 300) 49].length⌋₊ ∧
      (SpeedtestAverage.fromSpeedtests [Speedtest.mk (mbps 10) (mbps 100) 40,
        Speedtest.mk (mbps 20) (mbps 300) 49]).downloadSpeedAvgBps =
        ⌊((([Speedtest.mk (mbps 10) (mbps 100) 40, Speedtest.mk (mbps 20) (mbps 300) 49].map
          (·.downloadSpeed)).sum : ℕ) : ℚ) /
          [Speedtest.mk (mbps 10) (mbps 100) 40, Speedtest.mk (mbps 20) (mbps 300) 49].length⌋₊ ∧
      (SpeedtestAverage.fromSpeedtests [Speedtest.mk (mbps 10) (mbps 100) 40,
        Speedtest.mk (mbps 20) (mbps 300) 49]).latencyAvgMs =
        ⌊((([Speedtest.mk (mbps 10) (mbps 100) 40, Speedtest.mk (mbps 20) (mbps 300) 49].map
          (·.latency)).sum : ℕ) : ℚ) /
          [Speedtest.mk (mbps 10) (mbps 100) 40, Speedtest.mk (mbps 20) (mbps 300) 49].length⌋₊ :=
  speedtest_averages_are_floor_means (List.cons_ne_nil _ _) (by decide) (by decide) (by decide)

/-- Over lists whose sums fit, a list of speedtests each at least as good as its
counterpart never gets a lower multiplier. -/
theorem speedtest_multiplier_monotone_without_wrap {speedtests better : List Speedtest}
    (improved : List.Forall₂ Speedtest.AtMost speedtests better)
    (uploadsFit : (better.map (·.uploadSpeed)).sum < 2 ^ 64)
    (downloadsFit : (better.map (·.downloadSpeed)).sum < 2 ^ 64)
    (latenciesFit : (speedtests.map (·.latency)).sum < 2 ^ 32) :
    (SpeedtestAverage.fromSpeedtests speedtests).rewardMultiplier ≤
      (SpeedtestAverage.fromSpeedtests better).rewardMultiplier := by
  have sameLength := improved.length_eq
  have uploadsLe : (speedtests.map (·.uploadSpeed)).sum ≤ (better.map (·.uploadSpeed)).sum :=
    sum_map_le_of_forall₂ (improved.imp fun _ _ atMost => atMost.1)
  have downloadsLe :
      (speedtests.map (·.downloadSpeed)).sum ≤ (better.map (·.downloadSpeed)).sum :=
    sum_map_le_of_forall₂ (improved.imp fun _ _ atMost => atMost.2.1)
  have latenciesLe : (better.map (·.latency)).sum ≤ (speedtests.map (·.latency)).sum :=
    sum_map_le_of_forall₂ (improved.flip.imp fun _ _ atMost => atMost.2.2)
  cases speedtests with
  | nil =>
    cases List.forall₂_nil_left_iff.mp improved
    exact le_rfl
  | cons speedtest rest =>
    have nonempty : better ≠ [] := fun empty => by simp [empty] at sameLength
    rw [fromSpeedtests_of_ne_nil (List.cons_ne_nil speedtest rest),
      fromSpeedtests_of_ne_nil nonempty, ← sameLength]
    simp only [wrappingSum_of_lt uploadsFit, wrappingSum_of_lt downloadsFit,
      wrappingSum_of_lt latenciesFit, wrappingSum_of_lt (uploadsLe.trans_lt uploadsFit),
      wrappingSum_of_lt (downloadsLe.trans_lt downloadsFit),
      wrappingSum_of_lt (latenciesLe.trans_lt latenciesFit)]
    exact SpeedtestTier.intoMultiplier_mono (calculateTier_mono _
      (Nat.div_le_div_right uploadsLe) (Nat.div_le_div_right downloadsLe)
      (Nat.div_le_div_right latenciesLe))

/-- A second speedtest raised from acceptable to good. -/
theorem speedtest_multiplier_of_raised_second :
    (SpeedtestAverage.fromSpeedtests [Speedtest.mk (mbps 10) (mbps 100) 40,
        Speedtest.mk (mbps 8) (mbps 75) 55]).rewardMultiplier ≤
      (SpeedtestAverage.fromSpeedtests [Speedtest.mk (mbps 10) (mbps 100) 40,
        Speedtest.mk (mbps 10) (mbps 100) 45]).rewardMultiplier :=
  speedtest_multiplier_monotone_without_wrap
    (by simp [Speedtest.AtMost, mbps]) (by decide) (by decide) (by decide)

/-- Two good speedtests earn the whole multiplier. Raising the download of one to the largest
`u64` wraps the sum to `12499999` bytes per second, whose average is just below 50 Mbps, and
the multiplier falls to a quarter. -/
theorem raised_download_lowers_multiplier :
    (SpeedtestAverage.fromSpeedtests [Speedtest.mk (mbps 10) (mbps 100) 0,
        Speedtest.mk (mbps 10) (mbps 100) 0]).rewardMultiplier = 1 ∧
      (SpeedtestAverage.fromSpeedtests [Speedtest.mk (mbps 10) (mbps 100) 0,
        Speedtest.mk (mbps 10) (2 ^ 64 - 1) 0]).downloadSpeedAvgBps = mbps 50 - 1 ∧
      (SpeedtestAverage.fromSpeedtests [Speedtest.mk (mbps 10) (mbps 100) 0,
        Speedtest.mk (mbps 10) (2 ^ 64 - 1) 0]).rewardMultiplier = 1 / 4 := by
  refine ⟨by decide, by decide, ?_⟩
  rfl

end Averages

end HeliumOracles.MobileVerifier

import Mathlib
import HeliumOracles.Lib.Transition

/-!
# Reward periods and the scheduler

Source: `reward_scheduler/src/lib.rs` (`Scheduler::new`, `should_reward`,
`next_reward_period`, `sleep_duration`), and what the two rewarders share around it: the
rows `last_rewarded_end_time` and `next_rewarded_end_time` of `meta`
(`mobile_verifier/src/rewarder.rs`: `last_rewarded_end_time`, `next_rewarded_end_time`,
`save_last_rewarded_end_time`, `save_next_rewarded_end_time`; `iot_verifier/src/rewarder.rs`:
`fetch_rewarded_timestamp`, `save_rewarded_timestamp`) and the reward manifest each
reward writes.

A `DateTime<Utc>` or a chrono `Duration` is a whole number of nanoseconds, here an `Int`;
`meta` holds whole seconds, read back with `Utc.timestamp_opt(secs, 0)` and written with
`timestamp()`, which rounds down. Both rewarders are configured in whole hours and minutes
(`Duration::hours(settings.rewards)`, `Duration::minutes(settings.reward_offset_minutes)`).
The bounds of chrono's calendar are not modelled.

Both rewarders, once a reward commits, write the manifest of `last..next` and move `meta`
to `next..next + length` (`RewarderState.advance`); their loops otherwise leave the state
alone. From `last..next` the manifests are then the periods `tilePeriod` lists: the first
is `last..next`, each later one starts where the one before ended and lasts one period
(`tiled_advance`, `tilePeriod_contiguous`, `tilePeriod_length`). When the period is
positive and `last < next`, no period is written twice (`tilePeriods_nodup`); with a period
of zero hours the empty period `next..next` would be due again at every pass. A loop whose
passes each leave the state or commit one reward reaches only tiled states (`reach_tiled`).
-/
namespace HeliumOracles.RewardScheduler

open HeliumOracles.Lib.Transition

/-- Nanoseconds in a second. -/
def nanosPerSecond : Int := 1000000000

/-- `Duration::hours`. -/
def Duration.hours (hours : Int) : Int := hours * 3600 * nanosPerSecond

/-- `Duration::minutes`. -/
def Duration.minutes (minutes : Int) : Int := minutes * 60 * nanosPerSecond

/-- `Utc.timestamp_opt(secs, 0)`. -/
def fromTimestamp (secs : Int) : Int := secs * nanosPerSecond

/-- `DateTime::timestamp`: the whole seconds, rounded down. -/
def timestamp (time : Int) : Int := time / nanosPerSecond

/-- `chrono::Duration::to_std`: a negative duration is out of range. -/
def toStd (duration : Int) : Option Nat :=
  if duration < 0 then none else some duration.toNat

/-- `Range<DateTime<Utc>>`. -/
structure Period where
  start : Int
  endTime : Int
  deriving DecidableEq, Repr

/-- `Scheduler`. -/
structure Scheduler where
  rewardPeriodLength : Int
  rewardPeriod : Period
  rewardOffset : Int

/-- `Scheduler::new`. -/
def Scheduler.new (rewardPeriodLength lastRewardedEndTime nextRewardedEndTime rewardOffset : Int) :
    Scheduler :=
  ⟨rewardPeriodLength, ⟨lastRewardedEndTime, nextRewardedEndTime⟩, rewardOffset⟩

/-- `Scheduler::should_reward`. -/
def Scheduler.shouldReward (self : Scheduler) (now : Int) : Bool :=
  decide (now ≥ self.rewardPeriod.endTime + self.rewardOffset)

/-- `Scheduler::next_reward_period`. -/
def Scheduler.nextRewardPeriod (self : Scheduler) : Period :=
  ⟨self.rewardPeriod.endTime, self.rewardPeriod.endTime + self.rewardPeriodLength⟩

/-- `Scheduler::sleep_duration`. -/
def Scheduler.sleepDuration (self : Scheduler) (now : Int) : Option Nat :=
  let nextRewardPeriod := self.nextRewardPeriod
  let duration :=
    if self.rewardPeriod.endTime + self.rewardOffset > now then
      self.rewardPeriod.endTime + self.rewardOffset - now
    else if nextRewardPeriod.endTime + self.rewardOffset ≤ now then 0
    else nextRewardPeriod.endTime + self.rewardOffset - now
  toStd duration

/-- What a rewarder keeps between passes of its loop: the two rows of `meta`, in seconds,
and the reward manifests written so far. -/
structure RewarderState where
  lastRewardedEndTime : Int
  nextRewardedEndTime : Int
  manifests : List Period
  deriving DecidableEq, Repr

/-! ## The scheduler -/

section Scheduler

variable (self : Scheduler) (now : Int)

@[simp] theorem toStd_of_nonneg {duration : Int} (nonneg : 0 ≤ duration) :
    toStd duration = some duration.toNat := by
  simp [toStd, Int.not_lt.mpr nonneg]

/-- Before the period is due, the loop sleeps exactly until it is. -/
theorem sleepDuration_of_lt (early : now < self.rewardPeriod.endTime + self.rewardOffset) :
    self.sleepDuration now = some (self.rewardPeriod.endTime + self.rewardOffset - now).toNat := by
  simp only [Scheduler.sleepDuration, gt_iff_lt, early, if_true]
  exact toStd_of_nonneg (by omega)

/-- Once the period is due, the sleep lasts until the next period is due, or not at all. -/
theorem sleepDuration_of_le (due : self.rewardPeriod.endTime + self.rewardOffset ≤ now) :
    self.sleepDuration now =
      some (self.nextRewardPeriod.endTime + self.rewardOffset - now).toNat := by
  have notEarly : ¬self.rewardPeriod.endTime + self.rewardOffset > now := by omega
  simp only [Scheduler.sleepDuration, notEarly, if_false]
  split
  · rename_i late
    rw [toStd_of_nonneg le_rfl]
    congr 1
    omega
  · exact toStd_of_nonneg (by omega)

/-- `sleep_duration` never fails: every branch is a duration that is not negative. -/
theorem sleepDuration_isSome : (self.sleepDuration now).isSome := by
  by_cases early : now < self.rewardPeriod.endTime + self.rewardOffset
  · simp [sleepDuration_of_lt self now early]
  · simp [sleepDuration_of_le self now (by omega)]

end Scheduler

/-! ## Time units -/

/-- A time read back from `meta` is written back unchanged, moved by whole hours. -/
theorem timestamp_fromTimestamp_add_hours (secs hours : Int) :
    timestamp (fromTimestamp secs + Duration.hours hours) = secs + hours * 3600 := by
  unfold timestamp fromTimestamp Duration.hours nanosPerSecond
  omega

theorem timestamp_fromTimestamp (secs : Int) : timestamp (fromTimestamp secs) = secs := by
  unfold timestamp fromTimestamp nanosPerSecond
  omega

/-! ## Committed rewards tile time -/

/-- A committed reward: the manifest of `last..next` is written and `meta` moves on by
`periodSeconds`. -/
def RewarderState.advance (self : RewarderState) (periodSeconds : Int) : RewarderState :=
  ⟨self.nextRewardedEndTime, self.nextRewardedEndTime + periodSeconds,
    self.manifests ++
      [⟨fromTimestamp self.lastRewardedEndTime, fromTimestamp self.nextRewardedEndTime⟩]⟩

/-- The ends of the periods rewarded from `last..next`, in seconds: `last`, then `next`,
then one period after another. -/
def tileEnd (last next periodSeconds : Int) : Nat → Int
  | 0 => last
  | k + 1 => next + k * periodSeconds

/-- The `k`-th period rewarded from `last..next`. -/
def tilePeriod (last next periodSeconds : Int) (k : Nat) : Period :=
  ⟨fromTimestamp (tileEnd last next periodSeconds k),
    fromTimestamp (tileEnd last next periodSeconds (k + 1))⟩

/-- A state reached from `last..next` after some rewards: the manifests are the first
periods of the tiling, and `meta` holds the next one. -/
def Tiled (last next periodSeconds : Int) (state : RewarderState) : Prop :=
  state.manifests = (List.range state.manifests.length).map (tilePeriod last next periodSeconds) ∧
    state.lastRewardedEndTime = tileEnd last next periodSeconds state.manifests.length ∧
    state.nextRewardedEndTime = tileEnd last next periodSeconds (state.manifests.length + 1)

section Tiling

variable {last next periodSeconds : Int}

theorem tiled_start : Tiled last next periodSeconds ⟨last, next, []⟩ :=
  ⟨rfl, rfl, by simp [tileEnd]⟩

theorem tileEnd_succ_succ (k : Nat) :
    tileEnd last next periodSeconds (k + 2) = tileEnd last next periodSeconds (k + 1) + periodSeconds := by
  simp only [tileEnd, Int.natCast_add, Int.natCast_one, Int.add_mul, Int.one_mul, Int.add_assoc]

/-- A committed reward writes the next period of the tiling. -/
theorem tiled_advance {state : RewarderState} (tiled : Tiled last next periodSeconds state) :
    Tiled last next periodSeconds (state.advance periodSeconds) := by
  obtain ⟨manifests, lastAt, nextAt⟩ := tiled
  have count : (state.advance periodSeconds).manifests.length = state.manifests.length + 1 := by
    simp [RewarderState.advance]
  refine ⟨?_, ?_, ?_⟩
  · rw [count, List.range_succ, List.map_append, ← manifests]
    simp [RewarderState.advance, tilePeriod, lastAt, nextAt]
  · rw [count]
    exact nextAt
  · rw [count, tileEnd_succ_succ, ← nextAt]
    rfl

/-- Each period starts where the one before it ended. -/
theorem tilePeriod_contiguous (k : Nat) :
    (tilePeriod last next periodSeconds k).endTime = (tilePeriod last next periodSeconds (k + 1)).start :=
  rfl

/-- Every period after the first lasts one period. -/
theorem tilePeriod_length (hours : Int) (k : Nat) :
    (tilePeriod last next (hours * 3600) (k + 1)).endTime -
        (tilePeriod last next (hours * 3600) (k + 1)).start = Duration.hours hours := by
  simp only [tilePeriod, tileEnd_succ_succ, fromTimestamp, Duration.hours, nanosPerSecond]
  omega

/-- With a positive period and `last < next`, the ends of the periods increase. -/
theorem tileEnd_strictMono (positive : 0 < periodSeconds) (ordered : last < next) :
    StrictMono (tileEnd last next periodSeconds) := by
  refine strictMono_nat_of_lt_succ fun k => ?_
  cases k with
  | zero => simpa [tileEnd] using ordered
  | succ k =>
    rw [tileEnd_succ_succ]
    omega

/-- With a positive period and `last < next`, no period is rewarded twice. -/
theorem tilePeriods_nodup (positive : 0 < periodSeconds) (ordered : last < next) (n : Nat) :
    ((List.range n).map (tilePeriod last next periodSeconds)).Nodup := by
  refine (List.nodup_range).map fun k k' same => ?_
  have ends : fromTimestamp (tileEnd last next periodSeconds (k + 1)) =
      fromTimestamp (tileEnd last next periodSeconds (k' + 1)) := congrArg Period.endTime same
  have secs : tileEnd last next periodSeconds (k + 1) = tileEnd last next periodSeconds (k' + 1) := by
    unfold fromTimestamp nanosPerSecond at ends
    omega
  exact Nat.succ_injective ((tileEnd_strictMono positive ordered).injective secs)

theorem Tiled.nodup {state : RewarderState} (tiled : Tiled last next periodSeconds state)
    (positive : 0 < periodSeconds) (ordered : last < next) : state.manifests.Nodup := by
  rw [tiled.1]
  exact tilePeriods_nodup positive ordered _

/-- A loop whose passes each leave the state or commit one reward writes the tiling. -/
theorem reach_tiled {α : Type} {step : RewarderState → α → Option RewarderState}
    (stutterOrAdvance : ∀ state wakeUp state', step state wakeUp = some state' →
      state' = state ∨ state' = state.advance periodSeconds)
    {state : RewarderState} (reached : Reach step ⟨last, next, []⟩ state) :
    Tiled last next periodSeconds state := by
  refine reached.invariant _ tiled_start fun before wakeUp after tiledBefore stepped => ?_
  rcases stutterOrAdvance before wakeUp after stepped with rfl | rfl
  · exact tiledBefore
  · exact tiled_advance tiledBefore

end Tiling

end HeliumOracles.RewardScheduler

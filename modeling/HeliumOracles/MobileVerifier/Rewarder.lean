import HeliumOracles.Lib.Transition
import HeliumOracles.RewardScheduler.Scheduler

/-!
# The mobile rewarder's loop

Source: `mobile_verifier/src/rewarder.rs` (`Rewarder::run`, the end of `Rewarder::reward`
that saves `next_reward_period()` and writes the manifest, `REWARDS_NOT_CURRENT_DELAY_PERIOD`)
and `mobile_verifier/src/cli/server.rs`, which builds the rewarder with
`Duration::hours(settings.rewards)` and `Duration::minutes(settings.reward_offset_minutes)`.

A pass of the loop reads `meta`, builds the scheduler and, given the clock and the answer of
`is_data_current`, rewards and continues, or sleeps. The reward computations and the purge
of the tables leave `meta` alone, and an error ends the run, so what the loop sees of
`reward` is its commit: `meta` set to `next_reward_period()` and the manifest of
`reward_period` written. A shutdown ends the run between passes.

The commit is the scheduler's `advance` (`rewardCommit_eq`), and a pass rewards only a due
period (`rewarderPass_cases`), so every run writes the manifests of the tiling from the
`meta` it started with (`mobile_rewarded_periods_tile`). The clock is read once per pass:
a sleep computed by `sleep_duration` ends exactly when the period is due
(`mobile_sleeps_until_due`).
-/
namespace HeliumOracles.MobileVerifier

open HeliumOracles.RewardScheduler HeliumOracles.Lib.Transition

/-- `REWARDS_NOT_CURRENT_DELAY_PERIOD`, in minutes. -/
def rewardsNotCurrentDelayPeriod : Int := 5

/-- What the world gives one pass: `Utc::now()` and the answer of `is_data_current`. -/
structure WakeUp where
  now : Int
  dataCurrent : Bool
  deriving DecidableEq, Repr

/-- How a pass ends: `continue` after a reward, or a sleep of some nanoseconds. -/
inductive PassEnd where
  | continueLoop
  | sleep (duration : Nat)
  deriving DecidableEq, Repr

/-- The commit of `Rewarder::reward`: `meta` set to `next_reward_period()`, and the
manifest of `reward_period` written. -/
def rewardCommit (scheduler : Scheduler) (state : RewarderState) : RewarderState :=
  let nextRewardPeriod := scheduler.nextRewardPeriod
  ⟨timestamp nextRewardPeriod.start, timestamp nextRewardPeriod.endTime,
    state.manifests ++ [scheduler.rewardPeriod]⟩

/-- One pass of `Rewarder::run`. -/
def rewarderPass (rewardPeriodDuration rewardOffset : Int) (state : RewarderState)
    (wakeUp : WakeUp) : Option (RewarderState × PassEnd) := do
  let scheduler := Scheduler.new rewardPeriodDuration (fromTimestamp state.lastRewardedEndTime)
    (fromTimestamp state.nextRewardedEndTime) rewardOffset
  if scheduler.shouldReward wakeUp.now then
    if wakeUp.dataCurrent then
      return (rewardCommit scheduler state, .continueLoop)
    else
      let duration ← toStd (Duration.minutes rewardsNotCurrentDelayPeriod)
      return (state, .sleep duration)
  else
    let duration ← scheduler.sleepDuration wakeUp.now
    return (state, .sleep duration)

/-- The loop of the rewarder the server builds from its settings, as a transition system
over `meta` and the manifests. -/
def rewarderStep (rewards rewardOffsetMinutes : Int) (state : RewarderState) (wakeUp : WakeUp) :
    Option RewarderState :=
  (rewarderPass (Duration.hours rewards) (Duration.minutes rewardOffsetMinutes) state wakeUp).map
    Prod.fst

section Pass

variable {rewards rewardOffset : Int} {state : RewarderState} {wakeUp : WakeUp}

/-- The commit moves `meta` on by the period and writes the period's manifest. -/
theorem rewardCommit_eq (rewards rewardOffset : Int) (state : RewarderState) :
    rewardCommit (Scheduler.new (Duration.hours rewards) (fromTimestamp state.lastRewardedEndTime)
        (fromTimestamp state.nextRewardedEndTime) rewardOffset) state =
      state.advance (rewards * 3600) := by
  simp [rewardCommit, Scheduler.nextRewardPeriod, Scheduler.new, RewarderState.advance,
    timestamp_fromTimestamp, timestamp_fromTimestamp_add_hours]

/-- A pass leaves the state alone, or finds the period due and commits its reward. -/
theorem rewarderPass_cases {state' : RewarderState} {passEnd : PassEnd}
    (passed : rewarderPass (Duration.hours rewards) rewardOffset state wakeUp = some (state', passEnd)) :
    state' = state ∨
      state' = state.advance (rewards * 3600) ∧
        fromTimestamp state.nextRewardedEndTime + rewardOffset ≤ wakeUp.now := by
  dsimp only [rewarderPass] at passed
  split at passed
  · rename_i due
    split at passed
    · simp only [pure, Option.some.injEq, Prod.mk.injEq] at passed
      obtain ⟨rfl, -⟩ := passed
      refine .inr ⟨rewardCommit_eq rewards rewardOffset state, ?_⟩
      simpa [Scheduler.shouldReward, Scheduler.new] using due
    · left
      obtain ⟨duration, -, stayed⟩ := Option.bind_eq_some_iff.mp passed
      exact (Prod.mk.inj (Option.some.inj stayed)).1.symm
  · left
    obtain ⟨duration, -, stayed⟩ := Option.bind_eq_some_iff.mp passed
    exact (Prod.mk.inj (Option.some.inj stayed)).1.symm

end Pass

/-- Every state a run of the loop reaches from `meta` rows `last..next` has written the
manifests of the tiling: `last..next`, then periods of `settings.rewards` hours, each
starting where the one before ended; with a positive period and `last < next`, none twice. -/
theorem mobile_rewarded_periods_tile (rewards rewardOffsetMinutes last next : Int)
    {state : RewarderState}
    (reached : Reach (rewarderStep rewards rewardOffsetMinutes) ⟨last, next, []⟩ state) :
    Tiled last next (rewards * 3600) state ∧
      (0 < rewards → last < next → state.manifests.Nodup) := by
  have tiled : Tiled last next (rewards * 3600) state := by
    refine reach_tiled (fun before wakeUp after stepped => ?_) reached
    obtain ⟨⟨after', passEnd⟩, passed, rfl⟩ := Option.map_eq_some_iff.mp stepped
    exact (rewarderPass_cases passed).imp id And.left
  exact ⟨tiled, fun positive ordered => tiled.nodup (by omega) ordered⟩

/-- A day's period from second `0` to `86400`, rewarded once the half hour after it is
over. -/
theorem mobile_first_day_rewarded :
    Tiled 0 86400 (24 * 3600) ⟨86400, 172800, [⟨fromTimestamp 0, fromTimestamp 86400⟩]⟩ ∧
      (0 < (24 : Int) → (0 : Int) < 86400 →
        [(⟨fromTimestamp 0, fromTimestamp 86400⟩ : Period)].Nodup) :=
  mobile_rewarded_periods_tile 24 30 0 86400
    (reach_of_run [⟨fromTimestamp 88200, true⟩] .start (by decide))

end HeliumOracles.MobileVerifier

import HeliumOracles.Lib.Transition
import HeliumOracles.RewardScheduler.Scheduler

/-!
# The IoT rewarder's loop

Source: `iot_verifier/src/rewarder.rs` (`Rewarder::run`, the end of `Rewarder::reward` that
saves `reward_period.end` and `next_reward_period().end` and writes the manifest,
`REWARDS_NOT_CURRENT_DELAY_PERIOD`), and `iot_verifier/src/settings.rs`
(`reward_offset_duration`, `Duration::minutes(reward_offset_minutes)`).

A pass reads the clock, then `meta`, builds the scheduler and, given the answer of
`data_current_check`, rewards and sleeps, retries in five minutes, or sleeps. Every
`sleep_duration` is given a second reading of the clock, `Utc::now()`. As in the mobile
loop, an error ends the run, a shutdown ends it between passes, and what the loop sees of
`reward` is its commit.

The IoT commit saves `reward_period.end` and `next_reward_period().end` where the mobile one
saves `next_reward_period()`; the two are the same rows (`rewardCommit_eq`), so the runs
tile time as the mobile ones do (`iot_rewarded_periods_tile`). After a reward the sleep
ends by the time the next period is due (`sleep_after_reward_le`). Without a reward it
does not always: when the period falls due between the two readings of the clock, the pass
sleeps until the period after it is due (`iot_rewarder_oversleeps_due_period`).
-/
namespace HeliumOracles.IotVerifier

open HeliumOracles.RewardScheduler HeliumOracles.Lib.Transition

/-- `REWARDS_NOT_CURRENT_DELAY_PERIOD`, in minutes. -/
def rewardsNotCurrentDelayPeriod : Int := 5

/-- What the world gives one pass: the `Utc::now()` at its top, the answer of
`data_current_check`, and the `Utc::now()` that `sleep_duration` is given. -/
structure WakeUp where
  now : Int
  dataCurrent : Bool
  later : Int
  deriving DecidableEq, Repr

/-- The commit of `Rewarder::reward`: `last_rewarded_end_time` set to the end of
`reward_period`, `next_rewarded_end_time` to the end of `next_reward_period()`, and the
manifest of `reward_period` written. -/
def rewardCommit (scheduler : Scheduler) (state : RewarderState) : RewarderState :=
  ⟨timestamp scheduler.rewardPeriod.endTime, timestamp scheduler.nextRewardPeriod.endTime,
    state.manifests ++ [scheduler.rewardPeriod]⟩

/-- One pass of `Rewarder::run`: the state it leaves and how long it sleeps. -/
def rewarderPass (rewardPeriodHours rewardOffset : Int) (state : RewarderState)
    (wakeUp : WakeUp) : Option (RewarderState × Nat) := do
  let rewardPeriodLength := Duration.hours rewardPeriodHours
  let scheduler := Scheduler.new rewardPeriodLength (fromTimestamp state.lastRewardedEndTime)
    (fromTimestamp state.nextRewardedEndTime) rewardOffset
  if scheduler.shouldReward wakeUp.now then
    if wakeUp.dataCurrent then
      let rewarded := rewardCommit scheduler state
      let duration ← scheduler.sleepDuration wakeUp.later
      return (rewarded, duration)
    else
      let duration ← toStd (Duration.minutes rewardsNotCurrentDelayPeriod)
      return (state, duration)
  else
    let duration ← scheduler.sleepDuration wakeUp.later
    return (state, duration)

/-- The loop of the rewarder `main` builds from the settings, as a transition system over
`meta` and the manifests. -/
def rewarderStep (rewards rewardOffsetMinutes : Int) (state : RewarderState) (wakeUp : WakeUp) :
    Option RewarderState :=
  (rewarderPass rewards (Duration.minutes rewardOffsetMinutes) state wakeUp).map Prod.fst

section Pass

variable {rewardPeriodHours rewardOffset : Int} {state : RewarderState} {wakeUp : WakeUp}

/-- The commit moves `meta` on by the period and writes the period's manifest. -/
theorem rewardCommit_eq (rewardPeriodHours rewardOffset : Int) (state : RewarderState) :
    rewardCommit (Scheduler.new (Duration.hours rewardPeriodHours)
        (fromTimestamp state.lastRewardedEndTime) (fromTimestamp state.nextRewardedEndTime)
        rewardOffset) state =
      state.advance (rewardPeriodHours * 3600) := by
  simp [rewardCommit, Scheduler.nextRewardPeriod, Scheduler.new, RewarderState.advance,
    timestamp_fromTimestamp, timestamp_fromTimestamp_add_hours]

/-- A pass leaves the state alone, or finds the period due and commits its reward. -/
theorem rewarderPass_cases {state' : RewarderState} {duration : Nat}
    (passed : rewarderPass rewardPeriodHours rewardOffset state wakeUp = some (state', duration)) :
    state' = state ∨
      state' = state.advance (rewardPeriodHours * 3600) ∧
        fromTimestamp state.nextRewardedEndTime + rewardOffset ≤ wakeUp.now := by
  dsimp only [rewarderPass] at passed
  split at passed
  · rename_i due
    split at passed
    · obtain ⟨slept, -, committed⟩ := Option.bind_eq_some_iff.mp passed
      obtain ⟨rfl, -⟩ := Prod.mk.inj (Option.some.inj committed)
      refine .inr ⟨rewardCommit_eq rewardPeriodHours rewardOffset state, ?_⟩
      simpa [Scheduler.shouldReward, Scheduler.new] using due
    · left
      obtain ⟨slept, -, stayed⟩ := Option.bind_eq_some_iff.mp passed
      exact (Prod.mk.inj (Option.some.inj stayed)).1.symm
  · left
    obtain ⟨slept, -, stayed⟩ := Option.bind_eq_some_iff.mp passed
    exact (Prod.mk.inj (Option.some.inj stayed)).1.symm

/-- After a reward, the pass sleeps at most until the next period is due. -/
theorem sleep_after_reward_le (nonneg : 0 ≤ rewardPeriodHours)
    (due : fromTimestamp state.nextRewardedEndTime + rewardOffset ≤ wakeUp.now)
    (current : wakeUp.dataCurrent = true) :
    ∃ duration, rewarderPass rewardPeriodHours rewardOffset state wakeUp =
        some (state.advance (rewardPeriodHours * 3600), duration) ∧
      (duration : Int) ≤ max 0 (fromTimestamp state.nextRewardedEndTime +
        Duration.hours rewardPeriodHours + rewardOffset - wakeUp.later) := by
  have rewarding : (Scheduler.new (Duration.hours rewardPeriodHours)
      (fromTimestamp state.lastRewardedEndTime) (fromTimestamp state.nextRewardedEndTime)
      rewardOffset).shouldReward wakeUp.now = true := by
    simpa [Scheduler.shouldReward, Scheduler.new] using due
  have hoursNonneg : 0 ≤ Duration.hours rewardPeriodHours := by
    unfold Duration.hours nanosPerSecond
    omega
  simp only [rewarderPass, rewarding, current, if_true, rewardCommit_eq]
  by_cases early : wakeUp.later < fromTimestamp state.nextRewardedEndTime + rewardOffset
  · rw [sleepDuration_of_lt _ _ early]
    refine ⟨_, rfl, ?_⟩
    simp only [Scheduler.new]
    omega
  · rw [sleepDuration_of_le _ _ (by simpa [Scheduler.new] using early)]
    refine ⟨_, rfl, ?_⟩
    simp only [Scheduler.nextRewardPeriod, Scheduler.new]
    omega

end Pass

/-- Every state a run of the loop reaches from `meta` rows `last..next` has written the
manifests of the tiling; with a positive period and `last < next`, none twice. -/
theorem iot_rewarded_periods_tile (rewards rewardOffsetMinutes last next : Int)
    {state : RewarderState}
    (reached : Reach (rewarderStep rewards rewardOffsetMinutes) ⟨last, next, []⟩ state) :
    Tiled last next (rewards * 3600) state ∧
      (0 < rewards → last < next → state.manifests.Nodup) := by
  have tiled : Tiled last next (rewards * 3600) state := by
    refine reach_tiled (fun before wakeUp after stepped => ?_) reached
    obtain ⟨⟨after', duration⟩, passed, rfl⟩ := Option.map_eq_some_iff.mp stepped
    exact (rewarderPass_cases passed).imp id And.left
  exact ⟨tiled, fun positive ordered => tiled.nodup (by omega) ordered⟩

/-- Two days' periods rewarded in two passes, each once the half hour after it is over. -/
theorem iot_two_days_rewarded :
    Tiled 0 86400 (24 * 3600) ⟨172800, 259200,
        [⟨fromTimestamp 0, fromTimestamp 86400⟩, ⟨fromTimestamp 86400, fromTimestamp 172800⟩]⟩ ∧
      (0 < (24 : Int) → (0 : Int) < 86400 →
        [(⟨fromTimestamp 0, fromTimestamp 86400⟩ : Period),
          ⟨fromTimestamp 86400, fromTimestamp 172800⟩].Nodup) :=
  iot_rewarded_periods_tile 24 30 0 86400
    (reach_of_run [⟨fromTimestamp 88200, true, fromTimestamp 88201⟩,
      ⟨fromTimestamp 174600, true, fromTimestamp 174601⟩] .start (by decide))

/-- A pass that finds the period not yet due, but reads the clock again after it fell due,
sleeps until the period after it is due. -/
theorem iot_rewarder_oversleeps_due_period (rewardPeriodHours rewardOffset : Int)
    (state : RewarderState) (wakeUp : WakeUp)
    (early : wakeUp.now < fromTimestamp state.nextRewardedEndTime + rewardOffset)
    (dueByThen : fromTimestamp state.nextRewardedEndTime + rewardOffset ≤ wakeUp.later) :
    rewarderPass rewardPeriodHours rewardOffset state wakeUp =
      some (state, (fromTimestamp state.nextRewardedEndTime + Duration.hours rewardPeriodHours +
        rewardOffset - wakeUp.later).toNat) := by
  have notDue : (Scheduler.new (Duration.hours rewardPeriodHours)
      (fromTimestamp state.lastRewardedEndTime) (fromTimestamp state.nextRewardedEndTime)
      rewardOffset).shouldReward wakeUp.now = false := by
    simpa [Scheduler.shouldReward, Scheduler.new] using early
  simp only [rewarderPass, notDue, Bool.false_eq_true, if_false]
  rw [sleepDuration_of_le _ _ (by simpa [Scheduler.new] using dueByThen)]
  rfl

/-- Daily periods, a half-hour offset: woken a nanosecond before the first period is due,
the loop reads the clock again as it falls due and sleeps a whole day. -/
theorem rewarder_sleeps_a_day_at_due_time :
    rewarderPass 24 (Duration.minutes 30) ⟨0, 86400, []⟩
        ⟨fromTimestamp 88200 - 1, true, fromTimestamp 88200⟩ =
      some (⟨0, 86400, []⟩, (Duration.hours 24).toNat) := by
  rw [iot_rewarder_oversleeps_due_period 24 (Duration.minutes 30) ⟨0, 86400, []⟩
    ⟨fromTimestamp 88200 - 1, true, fromTimestamp 88200⟩ (by decide) (by decide)]
  decide

end HeliumOracles.IotVerifier

import Mathlib.Data.List.Nodup
import Mathlib.Data.Int.Order.Basic
import HeliumOracles.Lib.Relational

/-!
# Seniority updates on heartbeats

Source: `mobile_verifier/src/heartbeats/mod.rs` (`SeniorityUpdate::determine_update_action`,
`SeniorityUpdate::execute`, and the loop of `process_validated_heartbeats` that runs them
for each valid heartbeat) and `mobile_verifier/src/coverage.rs` (`Seniority::fetch_latest`).

The table `seniority` of one radio is a list of rows; its primary key is
`(radio_key, radio_type, seniority_ts)`, so within a radio a row is named by its
`seniority_ts`. A heartbeat reaches the update only when the claim-time cache finds its
coverage object, so the coverage object is a plain id here. Times are whole seconds.
`fetch_latest` orders by `last_heartbeat` and takes one row of the greatest; `latestBy`
takes the first of those in table order. The writes to the seniority sink are left out.

A `HeartbeatNotSeen` reset is protected by one guard: a switch of coverage object whose
claim time is older than the latest row's seniority does nothing when that row is the
reset. The guard reads the latest row only, so after a switch to a coverage object
claimed after the reset, a switch back to one claimed before it is an ordinary new
claim, and the radio's seniority falls below the reset
(`seniority_regresses_after_two_switches`). Whatever the run, the table keeps one row per
`seniority_ts` (`seniorityRun_keys_nodup`).
-/
namespace HeliumOracles.MobileVerifier

open Lib.Relational

/-- `SeniorityUpdateReason`, the two reasons the heartbeat daemon writes. -/
inductive SeniorityUpdateReason where
  | heartbeatNotSeen
  | newCoverageClaimTime
  deriving DecidableEq, Repr

/-- A row of `seniority` of one radio. -/
structure SeniorityRow where
  seniorityTs : Int
  lastHeartbeat : Int
  uuid : Nat
  updateReason : SeniorityUpdateReason
  insertedAt : Int
  deriving DecidableEq, Repr

/-- The fields of a valid heartbeat the update reads. -/
structure SeniorityHeartbeat where
  timestamp : Int
  coverageObject : Nat
  deriving DecidableEq, Repr

/-- `SeniorityUpdateAction`. -/
inductive SeniorityUpdateAction where
  | noAction
  | insert (newSeniority : Int) (updateReason : SeniorityUpdateReason)
  | update (currSeniority : Int)
  deriving DecidableEq, Repr

/-- `Duration::days(3)`, in seconds. -/
def threeDays : Int := 3 * 86400

/-- `Seniority::fetch_latest`: a row of the greatest `last_heartbeat`. -/
def fetchLatest (table : List SeniorityRow) : Option SeniorityRow :=
  latestBy (·.lastHeartbeat) table

/-- `SeniorityUpdate::determine_update_action`. -/
def determineUpdateAction (heartbeat : SeniorityHeartbeat)
    (coverageClaimTime modeledCoverageStart : Int) (latestSeniority : Option SeniorityRow) :
    SeniorityUpdateAction :=
  match latestSeniority with
  | some prevSeniority =>
    if heartbeat.coverageObject ≠ prevSeniority.uuid then
      if prevSeniority.updateReason = .heartbeatNotSeen ∧
          coverageClaimTime < prevSeniority.seniorityTs then .noAction
      else .insert coverageClaimTime .newCoverageClaimTime
    else if heartbeat.timestamp - prevSeniority.lastHeartbeat > threeDays ∧
        coverageClaimTime < heartbeat.timestamp then
      .insert heartbeat.timestamp .heartbeatNotSeen
    else .update prevSeniority.seniorityTs
  | none =>
    if heartbeat.timestamp - modeledCoverageStart > threeDays then
      .insert heartbeat.timestamp .heartbeatNotSeen
    else .insert coverageClaimTime .newCoverageClaimTime

/-- `SeniorityUpdate::execute`. An insert whose `seniority_ts` is taken rewrites that row
(`ON CONFLICT .. DO UPDATE SET uuid, last_heartbeat, update_reason`); an update sets the
`last_heartbeat` of the row of the current seniority. -/
def SeniorityUpdateAction.execute (action : SeniorityUpdateAction)
    (heartbeat : SeniorityHeartbeat) (table : List SeniorityRow) : List SeniorityRow :=
  match action with
  | .noAction => table
  | .insert newSeniority updateReason =>
    if table.any (·.seniorityTs = newSeniority) then
      table.map fun row =>
        if row.seniorityTs = newSeniority then
          { row with
            uuid := heartbeat.coverageObject
            lastHeartbeat := heartbeat.timestamp
            updateReason := updateReason }
        else row
    else
      table ++ [⟨newSeniority, heartbeat.timestamp, heartbeat.coverageObject, updateReason,
        heartbeat.timestamp⟩]
  | .update currSeniority =>
    table.map fun row =>
      if row.seniorityTs = currSeniority then { row with lastHeartbeat := heartbeat.timestamp }
      else row

/-- One valid heartbeat of the radio, with the claim time of its coverage object: the
latest row fetched, the action determined and executed. -/
def seniorityStep (modeledCoverageStart : Int) (table : List SeniorityRow)
    (arrival : SeniorityHeartbeat × Int) : List SeniorityRow :=
  (determineUpdateAction arrival.1 arrival.2 modeledCoverageStart (fetchLatest table)).execute
    arrival.1 table

/-- The heartbeats of a run, one after another. -/
def seniorityRun (modeledCoverageStart : Int) (table : List SeniorityRow)
    (arrivals : List (SeniorityHeartbeat × Int)) : List SeniorityRow :=
  arrivals.foldl (seniorityStep modeledCoverageStart) table

/-! ## One row per seniority -/

/-- A change that keeps the `seniority_ts` of every row keeps the keys. -/
theorem keys_map_of_keeps {table : List SeniorityRow} {change : SeniorityRow → SeniorityRow}
    (keeps : ∀ row, (change row).seniorityTs = row.seniorityTs) :
    (table.map change).map (·.seniorityTs) = table.map (·.seniorityTs) := by
  rw [List.map_map]
  exact List.map_congr_left fun row _ => keeps row

/-- Each action keeps one row per `seniority_ts`: an insert of a taken key rewrites its
row, and an update changes no key. -/
theorem execute_keys_nodup (action : SeniorityUpdateAction) (heartbeat : SeniorityHeartbeat)
    {table : List SeniorityRow} (unique : (table.map (·.seniorityTs)).Nodup) :
    ((action.execute heartbeat table).map (·.seniorityTs)).Nodup := by
  cases action with
  | noAction => exact unique
  | insert newSeniority updateReason =>
    dsimp only [SeniorityUpdateAction.execute]
    split
    · rw [keys_map_of_keeps fun row => by split <;> rfl]
      exact unique
    · rename_i fresh
      rw [List.map_append, List.map_singleton]
      refine unique.append (List.nodup_singleton _) ?_
      simpa using fresh
  | update currSeniority =>
    dsimp only [SeniorityUpdateAction.execute]
    rw [keys_map_of_keeps fun row => by split <;> rfl]
    exact unique

/-- Whatever the heartbeats, the table keeps one row per `seniority_ts`. -/
theorem seniorityRun_keys_nodup (modeledCoverageStart : Int)
    (arrivals : List (SeniorityHeartbeat × Int)) :
    ∀ {table : List SeniorityRow}, (table.map (·.seniorityTs)).Nodup →
      ((seniorityRun modeledCoverageStart table arrivals).map (·.seniorityTs)).Nodup := by
  induction arrivals with
  | nil => exact id
  | cons arrival rest later =>
    intro table unique
    exact later (execute_keys_nodup _ _ unique)

/-! ## A reset undone by two switches -/

/-- Coverage object `1`, claimed at `0`, heartbeats at `0`; after four silent days it
heartbeats again and is reset. An hour later the radio switches to coverage object `2`,
claimed after the reset, and an hour after that back to object `1`. -/
def switchBackArrivals : List (SeniorityHeartbeat × Int) :=
  [(⟨0, 1⟩, 0), (⟨4 * 86400, 1⟩, 0), (⟨4 * 86400 + 3600, 2⟩, 4 * 86400 + 100),
    (⟨4 * 86400 + 7200, 1⟩, 0)]

/-- The second heartbeat inserts a `HeartbeatNotSeen` row of seniority `345600`, and the
switch to object `2` keeps the latest seniority above it. The switch back is a new
coverage claim, not a reset: the guard reads the latest row, now object `2`'s, and the
insert at seniority `0` rewrites the first row, which becomes the latest. -/
theorem seniority_regresses_after_two_switches :
    determineUpdateAction ⟨4 * 86400, 1⟩ 0 0
        (fetchLatest (seniorityRun 0 [] (switchBackArrivals.take 1))) =
      .insert 345600 .heartbeatNotSeen ∧
    (fetchLatest (seniorityRun 0 [] (switchBackArrivals.take 3))).map (·.seniorityTs) =
      some 345700 ∧
    determineUpdateAction ⟨4 * 86400 + 7200, 1⟩ 0 0
        (fetchLatest (seniorityRun 0 [] (switchBackArrivals.take 3))) =
      .insert 0 .newCoverageClaimTime ∧
    (fetchLatest (seniorityRun 0 [] switchBackArrivals)).map (·.seniorityTs) = some 0 := by
  decide

end HeliumOracles.MobileVerifier

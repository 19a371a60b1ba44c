import Mathlib
import HeliumOracles.Lib.Transition

/-!
# Activating boosted hexes

Source: `boost_manager/src/activator.rs` (`process_boosted_hex`), `updater.rs`
(`Updater::run`, `process_activations`, `check_failed_activations`,
`handle_submit_txn_success`, `handle_submit_txn_failure`, `confirm_txn`), `purger.rs`
(`purge`), the queries of `db.rs` on the table of `migrations/3_activated_hexes.sql`, and the
`SolanaNetwork` calls of `solana/src/start_boost.rs`.

The activator queues a boosted hex the first time a reward manifest pays a radio in it
while its boost has not started. The updater, on each tick, marks the rows that failed
`MAX_RETRIES` times as failed, takes the oldest queued rows with no transaction in batches,
saves each batch's transaction id, submits the transaction, and marks the batch a success
or counts a retry and clears the id. A crash between saving the id and the result leaves
queued rows with an id, which no batch selects: at startup the updater asks the chain
about each such id, marks its rows a success if it landed and clears the id if not. The
purger deletes successes older than the retention period.

Each database call, each answer of the chain and each crash is a step, so the steps of
the activator, the updater and the purger interleave in any order. The chain is the
transactions the updater made and those that landed; a transaction whose submission
failed, or whose updater crashed, may still land at any later time. A failed query ends
the task and the process restarts: that is `restart`. The one-minute sleep before
recovery is left out, since a transaction may land later than any fixed time.

Across every run: a row is marked a success only once its hex was started by a landed
transaction (`success_rows_started_on_chain`); whenever the updater waits for its timer, no
queued row holds a transaction id, so none is stranded by a crash
(`idle_updater_leaves_no_queued_transaction`); and every hex the activator queued is still
in the table or started on chain (`activations_never_lost`).
-/
namespace HeliumOracles.BoostManager

open Lib.Transition
open scoped List

/-- `OnChainStatus`. -/
inductive OnChainStatus where
  | queued | pending | success | failed | cancelled
deriving DecidableEq, Repr

/-- `BoostedHexActivation`. -/
structure BoostedHexActivation where
  location : ℕ
  activationTs : ℤ
  boostedHexPubkey : String
  boostConfigPubkey : String
deriving DecidableEq, Repr

/-- A row of `activated_hexes`, whose primary key is `location`; `inserted_at` is left out,
as no query reads it. -/
structure Row where
  location : ℕ
  activationTs : ℤ
  boostedHexPubkey : String
  boostConfigPubkey : String
  status : OnChainStatus
  txnId : Option String
  retries : ℕ
  updatedAt : ℤ
deriving DecidableEq, Repr

/-- `MAX_RETRIES`. -/
def maxRetries : ℕ := 10

/-- `MAX_BATCH_COUNT`. -/
def maxBatchCount : ℕ := 200

/-! ## The queries -/

/-- `insert_activated_hex`: `insert ... on conflict do nothing`, queued with no retries. -/
def insertActivatedHex (table : List Row) (location : ℕ) (boostedHexPubkey boostConfigPubkey : String)
    (activationTs now : ℤ) : List Row :=
  if table.any (·.location = location) then table
  else table ++ [⟨location, activationTs, boostedHexPubkey, boostConfigPubkey, .queued, none, 0, now⟩]

/-- `UPDATE activated_hexes SET ... WHERE ...`: `change` on the rows `selects` picks. -/
def update (table : List Row) (selects : Row → Bool) (change : Row → Row) : List Row :=
  table.map fun row => if selects row then change row else row

/-- `get_queued_batch`: queued rows with fewer than `MAX_RETRIES` retries and no transaction,
oldest activation first, at most `MAX_BATCH_COUNT`; ties come in table order. -/
def getQueuedBatch (table : List Row) : List BoostedHexActivation :=
  (((table.filter fun row => row.status = .queued ∧ row.retries < maxRetries ∧ row.txnId = none).insertionSort
    fun row row' => row.activationTs ≤ row'.activationTs).take maxBatchCount).map fun row =>
      ⟨row.location, row.activationTs, row.boostedHexPubkey, row.boostConfigPubkey⟩

/-- `save_batch_txn_id`. -/
def saveBatchTxnId (table : List Row) (txnId : String) (hexes : List ℕ) (now : ℤ) : List Row :=
  update table (·.location ∈ hexes) fun row => { row with txnId := some txnId, updatedAt := now }

/-- `update_success_batch`. -/
def updateSuccessBatch (table : List Row) (hexes : List ℕ) (now : ℤ) : List Row :=
  update table (·.location ∈ hexes) fun row => { row with status := .success, updatedAt := now }

/-- `update_failed_batch`. -/
def updateFailedBatch (table : List Row) (hexes : List ℕ) (now : ℤ) : List Row :=
  update table (·.location ∈ hexes) fun row =>
    { row with updatedAt := now, retries := row.retries + 1, txnId := none }

/-- `update_failed_activations`. -/
def updateFailedActivations (table : List Row) (now : ℤ) : List Row :=
  update table (fun row => row.status = .queued ∧ maxRetries ≤ row.retries) fun row =>
    { row with status := .failed, updatedAt := now }

/-- `get_txns_ids_to_verify`: the distinct transaction ids of queued rows. -/
def getTxnsIdsToVerify (table : List Row) : List String :=
  (table.filterMap fun row => if row.status = .queued then row.txnId else none).dedup

/-- `update_verified_txns_onchain`. -/
def updateVerifiedTxnsOnchain (table : List Row) (txnId : String) (now : ℤ) : List Row :=
  update table (·.txnId = some txnId) fun row => { row with status := .success, updatedAt := now }

/-- `update_verified_txns_not_onchain`. -/
def updateVerifiedTxnsNotOnchain (table : List Row) (txnId : String) (now : ℤ) : List Row :=
  update table (·.txnId = some txnId) fun row => { row with txnId := none, updatedAt := now }

/-- `purge_stale_records`: the successes last updated before `stalePeriod` are deleted. -/
def purgeStaleRecords (table : List Row) (stalePeriod : ℤ) : List Row :=
  table.filter fun row => ¬(row.status = .success ∧ row.updatedAt < stalePeriod)

/-! ## The system -/

/-- The fields of `Updater` that `run` reads; `chunks` panics on a batch size of zero. -/
structure Updater where
  chainEnabled : Bool
  batchSize : ℕ
  positive : 0 < batchSize

/-- Where the updater is in its loop. -/
inductive Phase where
  /-- At startup: the transaction ids left to confirm. -/
  | recovering (txnIds : List String)
  /-- Waiting for the timer. -/
  | idle
  /-- In `process_activations`, with the activations not yet batched. -/
  | batching (remaining : List BoostedHexActivation)
  /-- A batch's transaction saved and submitted, its result awaited. -/
  | submitting (hexes : List ℕ) (txnId : String) (remaining : List BoostedHexActivation)
deriving DecidableEq, Repr

/-- The loop after a batch: the next batch, or the timer. -/
def Phase.next (remaining : List BoostedHexActivation) : Phase :=
  if remaining = [] then .idle else .batching remaining

/-- The start of `run`: the ids to confirm, or the timer. -/
def Phase.recover (txnIds : List String) : Phase :=
  if txnIds = [] then .idle else .recovering txnIds

/-- The start-boost transactions the updater made, by signature with their hexes, and the
signatures that landed. -/
structure Chain where
  created : List (String × List ℕ)
  landed : List String
deriving DecidableEq, Repr

structure State where
  table : List Row
  phase : Phase
  chain : Chain
  /-- Every hex the activator has queued. -/
  activated : List ℕ
deriving DecidableEq, Repr

def State.initial : State := ⟨[], .idle, ⟨[], []⟩, []⟩

inductive Event where
  /-- `process_boosted_hex` for a hex that mobile config knows, with its boost's start. -/
  | activate (location : ℕ) (boostedHexPubkey boostConfigPubkey : String) (startTs : Option ℤ)
      (manifestTime now : ℤ)
  | tick (now : ℤ)
  /-- `make_start_boost_transaction` signs a batch, and `save_batch_txn_id` records it. -/
  | makeTransaction (txnId : String) (now : ℤ)
  | submitted (now : ℤ)
  | submitFailed (now : ℤ)
  /-- A transaction the updater made lands on chain. -/
  | land (txnId : String)
  | restart
  | confirm (now : ℤ)
  | purge (now retentionPeriod : ℤ)
deriving DecidableEq, Repr

def step (updater : Updater) (s : State) : Event → Option State
  | .activate location boostedHexPubkey boostConfigPubkey startTs manifestTime now =>
    match startTs with
    | none => some { s with
        table := insertActivatedHex s.table location boostedHexPubkey boostConfigPubkey manifestTime now
        activated := s.activated ++ [location] }
    | some _ => some s
  | .tick now =>
    match s.phase with
    | .idle =>
      if updater.chainEnabled then
        let table := updateFailedActivations s.table now
        some { s with table, phase := Phase.next (getQueuedBatch table) }
      else some s
    | _ => none
  | .makeTransaction txnId now =>
    match s.phase with
    | .batching remaining =>
      let hexes := (remaining.take updater.batchSize).map (·.location)
      some { s with
        table := saveBatchTxnId s.table txnId hexes now
        phase := .submitting hexes txnId (remaining.drop updater.batchSize)
        chain := { s.chain with created := s.chain.created ++ [(txnId, hexes)] } }
    | _ => none
  | .submitted now =>
    match s.phase with
    | .submitting hexes txnId remaining => some { s with
        table := updateSuccessBatch s.table hexes now
        phase := Phase.next remaining
        chain := { s.chain with landed := s.chain.landed ++ [txnId] } }
    | _ => none
  | .submitFailed now =>
    match s.phase with
    | .submitting hexes _ remaining => some { s with
        table := updateFailedBatch s.table hexes now
        phase := Phase.next remaining }
    | _ => none
  | .land txnId =>
    if s.chain.created.any (·.1 = txnId) then
      some { s with chain := { s.chain with landed := s.chain.landed ++ [txnId] } }
    else none
  | .restart => some { s with phase := Phase.recover (getTxnsIdsToVerify s.table) }
  | .confirm now =>
    match s.phase with
    | .recovering (txnId :: rest) =>
      let table := if txnId ∈ s.chain.landed then updateVerifiedTxnsOnchain s.table txnId now
        else updateVerifiedTxnsNotOnchain s.table txnId now
      some { s with table, phase := Phase.recover rest }
    | _ => none
  | .purge now retentionPeriod =>
    some { s with table := purgeStaleRecords s.table (now - retentionPeriod) }

/-- The ways a step succeeds, each with the state it leaves. A transaction may land whatever
the updater made of it, and a confirmation may find it missing whatever the chain holds. -/
inductive Moves (updater : Updater) (s : State) : State → Prop where
  | stay : Moves updater s s
  | activate (location : ℕ) (boostedHexPubkey boostConfigPubkey : String) (manifestTime now : ℤ) :
      Moves updater s { s with
        table := insertActivatedHex s.table location boostedHexPubkey boostConfigPubkey manifestTime now
        activated := s.activated ++ [location] }
  | tick (idle : s.phase = .idle) (now : ℤ) :
      Moves updater s { s with
        table := updateFailedActivations s.table now
        phase := Phase.next (getQueuedBatch (updateFailedActivations s.table now)) }
  | makeTransaction {remaining : List BoostedHexActivation} (batching : s.phase = .batching remaining)
      (txnId : String) (now : ℤ) :
      Moves updater s { s with
        table := saveBatchTxnId s.table txnId ((remaining.take updater.batchSize).map (·.location)) now
        phase := .submitting ((remaining.take updater.batchSize).map (·.location)) txnId
          (remaining.drop updater.batchSize)
        chain := { s.chain with
          created := s.chain.created ++ [(txnId, (remaining.take updater.batchSize).map (·.location))] } }
  | submitted {hexes : List ℕ} {txnId : String} {remaining : List BoostedHexActivation}
      (submitting : s.phase = .submitting hexes txnId remaining) (now : ℤ) :
      Moves updater s { s with
        table := updateSuccessBatch s.table hexes now
        phase := Phase.next remaining
        chain := { s.chain with landed := s.chain.landed ++ [txnId] } }
  | submitFailed {hexes : List ℕ} {txnId : String} {remaining : List BoostedHexActivation}
      (submitting : s.phase = .submitting hexes txnId remaining) (now : ℤ) :
      Moves updater s { s with table := updateFailedBatch s.table hexes now, phase := Phase.next remaining }
  | land (txnId : String) :
      Moves updater s { s with chain := { s.chain with landed := s.chain.landed ++ [txnId] } }
  | restart : Moves updater s { s with phase := Phase.recover (getTxnsIdsToVerify s.table) }
  | confirmOnchain {txnId : String} {rest : List String}
      (recovering : s.phase = .recovering (txnId :: rest)) (landed : txnId ∈ s.chain.landed) (now : ℤ) :
      Moves updater s { s with
        table := updateVerifiedTxnsOnchain s.table txnId now
        phase := Phase.recover rest }
  | confirmNotOnchain {txnId : String} {rest : List String}
      (recovering : s.phase = .recovering (txnId :: rest)) (now : ℤ) :
      Moves updater s { s with
        table := updateVerifiedTxnsNotOnchain s.table txnId now
        phase := Phase.recover rest }
  | purge (stalePeriod : ℤ) : Moves updater s { s with table := purgeStaleRecords s.table stalePeriod }

theorem moves_of_step {updater : Updater} {s s' : State} {event : Event}
    (stepped : step updater s event = some s') : Moves updater s s' := by
  cases event with
  | activate location boostedHexPubkey boostConfigPubkey startTs manifestTime now =>
    cases startTs with
    | none =>
      cases stepped
      exact .activate location boostedHexPubkey boostConfigPubkey manifestTime now
    | some _ =>
      cases stepped
      exact .stay
  | tick now =>
    simp only [step] at stepped
    split at stepped
    · rename_i idle
      split_ifs at stepped
      · cases stepped
        exact .tick idle now
      · cases stepped
        exact .stay
    · cases stepped
  | makeTransaction txnId now =>
    simp only [step] at stepped
    split at stepped
    · rename_i batching
      cases stepped
      exact .makeTransaction batching txnId now
    · cases stepped
  | submitted now =>
    simp only [step] at stepped
    split at stepped
    · rename_i submitting
      cases stepped
      exact .submitted submitting now
    · cases stepped
  | submitFailed now =>
    simp only [step] at stepped
    split at stepped
    · rename_i submitting
      cases stepped
      exact .submitFailed submitting now
    · cases stepped
  | land txnId =>
    simp only [step] at stepped
    split_ifs at stepped
    cases stepped
    exact .land txnId
  | restart =>
    cases stepped
    exact .restart
  | confirm now =>
    simp only [step] at stepped
    split at stepped
    · rename_i recovering
      split_ifs at stepped with landed
      · cases stepped
        exact .confirmOnchain recovering landed now
      · cases stepped
        exact .confirmNotOnchain recovering now
    · cases stepped
  | purge now retentionPeriod =>
    cases stepped
    exact .purge (now - retentionPeriod)

/-! ## Rows through the queries -/

theorem forall_update {table : List Row} {selects : Row → Bool} {change : Row → Row}
    {P : Row → Prop} (unselected : ∀ row ∈ table, selects row = false → P row)
    (selected : ∀ row ∈ table, selects row = true → P (change row)) :
    ∀ row ∈ update table selects change, P row := by
  intro row member
  obtain ⟨old, inTable, rfl⟩ := List.mem_map.mp member
  cases chosen : selects old with
  | false => simpa [chosen] using unselected old inTable chosen
  | true => simpa [chosen] using selected old inTable chosen

/-- A property of every row that the update's change keeps holds of every row after it. -/
theorem forall_update_of_keeps {table : List Row} {selects : Row → Bool} {change : Row → Row}
    {P : Row → Prop} (keeps : ∀ row, P row → P (change row)) (all : ∀ row ∈ table, P row) :
    ∀ row ∈ update table selects change, P row :=
  forall_update (fun row inTable _ => all row inTable) (fun row inTable _ => keeps row (all row inTable))

/-- An update that keeps every row's hex keeps the table's hexes. -/
theorem locations_update {table : List Row} {selects : Row → Bool} {change : Row → Row}
    (same : ∀ row, (change row).location = row.location) :
    (update table selects change).map (·.location) = table.map (·.location) := by
  simp only [update, List.map_map]
  refine List.map_congr_left fun row _ => ?_
  by_cases chosen : selects row = true <;> simp [chosen, same]

@[simp] theorem locations_updateFailedActivations (table : List Row) (now : ℤ) :
    (updateFailedActivations table now).map (·.location) = table.map (·.location) :=
  locations_update fun _ => rfl

@[simp] theorem locations_saveBatchTxnId (table : List Row) (txnId : String) (hexes : List ℕ) (now : ℤ) :
    (saveBatchTxnId table txnId hexes now).map (·.location) = table.map (·.location) :=
  locations_update fun _ => rfl

@[simp] theorem locations_updateSuccessBatch (table : List Row) (hexes : List ℕ) (now : ℤ) :
    (updateSuccessBatch table hexes now).map (·.location) = table.map (·.location) :=
  locations_update fun _ => rfl

@[simp] theorem locations_updateFailedBatch (table : List Row) (hexes : List ℕ) (now : ℤ) :
    (updateFailedBatch table hexes now).map (·.location) = table.map (·.location) :=
  locations_update fun _ => rfl

@[simp] theorem locations_updateVerifiedTxnsOnchain (table : List Row) (txnId : String) (now : ℤ) :
    (updateVerifiedTxnsOnchain table txnId now).map (·.location) = table.map (·.location) :=
  locations_update fun _ => rfl

@[simp] theorem locations_updateVerifiedTxnsNotOnchain (table : List Row) (txnId : String) (now : ℤ) :
    (updateVerifiedTxnsNotOnchain table txnId now).map (·.location) = table.map (·.location) :=
  locations_update fun _ => rfl

theorem mem_insertActivatedHex {table : List Row} {location : ℕ}
    {boostedHexPubkey boostConfigPubkey : String} {activationTs now : ℤ} {row : Row}
    (member : row ∈ insertActivatedHex table location boostedHexPubkey boostConfigPubkey activationTs now) :
    row ∈ table ∨ row.status = .queued ∧ row.txnId = none ∧ row.retries = 0 := by
  unfold insertActivatedHex at member
  split_ifs at member
  · exact .inl member
  · rcases List.mem_append.mp member with old | fresh
    · exact .inl old
    · rw [List.mem_singleton.mp fresh]
      exact .inr ⟨rfl, rfl, rfl⟩

theorem subset_insertActivatedHex (table : List Row) (location : ℕ)
    (boostedHexPubkey boostConfigPubkey : String) (activationTs now : ℤ) :
    table ⊆ insertActivatedHex table location boostedHexPubkey boostConfigPubkey activationTs now := by
  unfold insertActivatedHex
  split_ifs
  · exact List.Subset.refl _
  · exact List.subset_append_left _ _

/-- The primary key stays a key. -/
theorem nodup_insertActivatedHex {table : List Row} (unique : (table.map (·.location)).Nodup)
    (location : ℕ) (boostedHexPubkey boostConfigPubkey : String) (activationTs now : ℤ) :
    ((insertActivatedHex table location boostedHexPubkey boostConfigPubkey activationTs now).map
      (·.location)).Nodup := by
  unfold insertActivatedHex
  split_ifs with present
  · exact unique
  · have unknown : location ∉ table.map (·.location) := by
      simpa using present
    rw [List.map_append]
    exact unique.append (List.nodup_singleton _) (List.disjoint_singleton.mpr unknown)

theorem mem_locations_insertActivatedHex {table : List Row} {location : ℕ}
    {boostedHexPubkey boostConfigPubkey : String} {activationTs now : ℤ} {hex : ℕ} :
    hex ∈ (insertActivatedHex table location boostedHexPubkey boostConfigPubkey activationTs now).map
      (·.location) ↔ hex ∈ table.map (·.location) ∨ hex = location := by
  unfold insertActivatedHex
  split_ifs with present
  · obtain ⟨row, inTable, here⟩ := List.any_eq_true.mp present
    have known : location ∈ table.map (·.location) :=
      List.mem_map.mpr ⟨row, inTable, of_decide_eq_true here⟩
    constructor
    · exact .inl
    · rintro (old | rfl)
      · exact old
      · exact known
  · simp

theorem mem_getTxnsIdsToVerify {table : List Row} {row : Row} (inTable : row ∈ table)
    (queued : row.status = .queued) {txnId : String} (named : row.txnId = some txnId) :
    txnId ∈ getTxnsIdsToVerify table := by
  simp only [getTxnsIdsToVerify, List.mem_dedup, List.mem_filterMap]
  exact ⟨row, inTable, by simp [queued, named]⟩

/-! ## What every run keeps -/

/-- The hex was started by a transaction of the updater that landed. -/
def Started (chain : Chain) (location : ℕ) : Prop :=
  ∃ txnId ∈ chain.landed, ∃ hexes, (txnId, hexes) ∈ chain.created ∧ location ∈ hexes

/-- The row's transaction id names a transaction the updater made for the row's hex. -/
def Signed (chain : Chain) (row : Row) : Prop :=
  ∀ txnId, row.txnId = some txnId → ∃ hexes, (txnId, hexes) ∈ chain.created ∧ row.location ∈ hexes

/-- What the updater's phase says of a queued row: no row holds a transaction id while the
updater waits or batches, only rows of the batch in flight do while it submits, and only
ids it will confirm do while it recovers. -/
def Pending : Phase → Row → Prop
  | .recovering txnIds, row => row.status = .queued → ∀ txnId, row.txnId = some txnId → txnId ∈ txnIds
  | .idle, row => row.status = .queued → row.txnId = none
  | .batching _, row => row.status = .queued → row.txnId = none
  | .submitting hexes _ _, row => row.status = .queued → row.txnId ≠ none → row.location ∈ hexes

/-- The transaction in flight was made for the batch in flight. -/
def Awaited : Phase → Chain → Prop
  | .submitting hexes txnId _, chain => (txnId, hexes) ∈ chain.created
  | _, _ => True

/-- The chain only grows. -/
def Chain.Extends (chain chain' : Chain) : Prop :=
  chain.created ⊆ chain'.created ∧ chain.landed ⊆ chain'.landed

theorem Started.mono {chain chain' : Chain} (grows : chain.Extends chain') {location : ℕ}
    (started : Started chain location) : Started chain' location := by
  obtain ⟨txnId, landed, hexes, created, member⟩ := started
  exact ⟨txnId, grows.2 landed, hexes, grows.1 created, member⟩

theorem Signed.mono {chain chain' : Chain} (grows : chain.Extends chain') {row : Row}
    (signed : Signed chain row) : Signed chain' row := by
  intro txnId named
  obtain ⟨hexes, created, member⟩ := signed txnId named
  exact ⟨hexes, grows.1 created, member⟩

theorem Awaited.mono {phase : Phase} {chain chain' : Chain} (grows : chain.Extends chain')
    (awaited : Awaited phase chain) : Awaited phase chain' := by
  cases phase with
  | submitting hexes txnId remaining => exact grows.1 awaited
  | _ => trivial

theorem Signed.of_txnId_none {chain : Chain} {row : Row} (none : row.txnId = none) :
    Signed chain row := by
  intro txnId named
  simp [none] at named

theorem Pending.of_txnId_none {phase : Phase} {row : Row} (none : row.txnId = none) :
    Pending phase row := by
  cases phase <;> simp [Pending, none]

theorem Pending.next {row : Row} (idle : Pending .idle row) (remaining : List BoostedHexActivation) :
    Pending (Phase.next remaining) row := by
  unfold Phase.next
  split_ifs
  · exact idle
  · exact idle

theorem Pending.recover {txnIds : List String} {row : Row} (recovering : Pending (.recovering txnIds) row) :
    Pending (Phase.recover txnIds) row := by
  unfold Phase.recover
  split_ifs with done
  · intro queued
    subst done
    exact Option.eq_none_iff_forall_ne_some.mpr fun txnId named => by
      simpa using recovering queued txnId named
  · exact recovering

theorem awaited_next (remaining : List BoostedHexActivation) (chain : Chain) :
    Awaited (Phase.next remaining) chain := by
  unfold Phase.next
  split_ifs <;> trivial

theorem awaited_recover (txnIds : List String) (chain : Chain) :
    Awaited (Phase.recover txnIds) chain := by
  unfold Phase.recover
  split_ifs <;> trivial

/-- What holds of every state the activator, the updater and the purger reach. `succeeded`
is the heart of it; `signed` and `awaited` say where a success can come from, `pending`
what a crash can leave behind. -/
structure Inv (s : State) : Prop where
  signed : ∀ row ∈ s.table, Signed s.chain row
  succeeded : ∀ row ∈ s.table, row.status = .success → Started s.chain row.location
  awaited : Awaited s.phase s.chain
  pending : ∀ row ∈ s.table, Pending s.phase row
  kept : ∀ location ∈ s.activated, location ∈ s.table.map (·.location) ∨ Started s.chain location

theorem Inv.initial : Inv State.initial where
  signed := nofun
  succeeded := nofun
  awaited := trivial
  pending := nofun
  kept := nofun

section Events

variable {s : State}

theorem Inv.activate (inv : Inv s) (location : ℕ) (boostedHexPubkey boostConfigPubkey : String)
    (manifestTime now : ℤ) :
    Inv { s with
      table := insertActivatedHex s.table location boostedHexPubkey boostConfigPubkey manifestTime now
      activated := s.activated ++ [location] } where
  signed row member := by
    rcases mem_insertActivatedHex member with old | ⟨_, fresh, _⟩
    · exact inv.signed row old
    · exact Signed.of_txnId_none fresh
  succeeded row member success := by
    rcases mem_insertActivatedHex member with old | ⟨queued, _, _⟩
    · exact inv.succeeded row old success
    · simp [queued] at success
  awaited := inv.awaited
  pending row member := by
    rcases mem_insertActivatedHex member with old | ⟨_, fresh, _⟩
    · exact inv.pending row old
    · exact Pending.of_txnId_none fresh
  kept hex member := by
    dsimp only
    rw [mem_locations_insertActivatedHex]
    rcases List.mem_append.mp member with old | fresh
    · exact (inv.kept hex old).imp_left .inl
    · exact .inl (.inr (List.mem_singleton.mp fresh))

theorem Inv.tick (inv : Inv s) (idle : s.phase = .idle) (now : ℤ) :
    Inv { s with
      table := updateFailedActivations s.table now
      phase := Phase.next (getQueuedBatch (updateFailedActivations s.table now)) } where
  signed := forall_update (fun row inTable _ => inv.signed row inTable)
    (fun row inTable _ => by simpa [Signed] using inv.signed row inTable)
  succeeded := forall_update (fun row inTable _ => inv.succeeded row inTable)
    (fun _ _ _ => by simp)
  awaited := awaited_next _ _
  pending row member := by
    refine Pending.next (forall_update (P := Pending .idle) ?_ ?_ row member) _
    · intro row inTable _
      simpa [idle] using inv.pending row inTable
    · intro _ _ _
      simp [Pending]
  kept hex member := by
    dsimp only
    rw [locations_updateFailedActivations]
    exact inv.kept hex member

theorem Inv.makeTransaction (inv : Inv s) {remaining : List BoostedHexActivation}
    (batching : s.phase = .batching remaining) (txnId : String) (hexes : List ℕ)
    (rest : List BoostedHexActivation) (now : ℤ) :
    Inv { s with
      table := saveBatchTxnId s.table txnId hexes now
      phase := .submitting hexes txnId rest
      chain := { s.chain with created := s.chain.created ++ [(txnId, hexes)] } } := by
  have grows : s.chain.Extends { s.chain with created := s.chain.created ++ [(txnId, hexes)] } :=
    ⟨List.subset_append_left _ _, List.Subset.refl _⟩
  have waiting : ∀ row ∈ s.table, row.status = .queued → row.txnId = none := by
    simpa [batching, Pending] using inv.pending
  refine ⟨?signed, ?succeeded, ?awaited, ?pending, ?kept⟩
  case signed =>
    refine forall_update (fun row inTable _ => (inv.signed row inTable).mono grows) ?_
    intro row _ chosen txnId' named
    simp only [Option.some.injEq] at named
    exact ⟨hexes, by simp [named], of_decide_eq_true chosen⟩
  case succeeded =>
    refine forall_update (fun row inTable _ success => ?_) (fun row inTable _ success => ?_)
    · exact (inv.succeeded row inTable success).mono grows
    · exact (inv.succeeded row inTable success).mono grows
  case awaited => simp [Awaited]
  case pending =>
    refine forall_update (fun row inTable _ queued held => ?_) (fun row _ chosen _ _ => ?_)
    · exact absurd (waiting row inTable queued) held
    · exact of_decide_eq_true chosen
  case kept =>
    intro hex member
    dsimp only
    rw [locations_saveBatchTxnId]
    exact (inv.kept hex member).imp_right (Started.mono grows)

theorem Inv.submitted (inv : Inv s) {hexes : List ℕ} {txnId : String}
    {remaining : List BoostedHexActivation} (submitting : s.phase = .submitting hexes txnId remaining)
    (now : ℤ) :
    Inv { s with
      table := updateSuccessBatch s.table hexes now
      phase := Phase.next remaining
      chain := { s.chain with landed := s.chain.landed ++ [txnId] } } := by
  have grows : s.chain.Extends { s.chain with landed := s.chain.landed ++ [txnId] } :=
    ⟨List.Subset.refl _, List.subset_append_left _ _⟩
  have inFlight : ∀ row ∈ s.table, row.status = .queued → row.txnId ≠ none → row.location ∈ hexes := by
    simpa [submitting, Pending] using inv.pending
  have made : (txnId, hexes) ∈ s.chain.created := by
    simpa [submitting, Awaited] using inv.awaited
  refine ⟨?signed, ?succeeded, ?awaited, ?pending, ?kept⟩
  case signed =>
    refine forall_update (fun row inTable _ => (inv.signed row inTable).mono grows) ?_
    intro row inTable _
    simpa [Signed] using (inv.signed row inTable).mono grows
  case succeeded =>
    refine forall_update (fun row inTable _ success => ?_) (fun row _ chosen _ => ?_)
    · exact (inv.succeeded row inTable success).mono grows
    · exact ⟨txnId, by simp, hexes, made, of_decide_eq_true chosen⟩
  case awaited => exact awaited_next _ _
  case pending =>
    intro row member
    refine Pending.next (forall_update (P := Pending .idle) ?_ ?_ row member) _
    · intro row inTable outside queued
      by_contra held
      simp [inFlight row inTable queued held] at outside
    · intro _ _ _
      simp [Pending]
  case kept =>
    intro hex member
    dsimp only
    rw [locations_updateSuccessBatch]
    exact (inv.kept hex member).imp_right (Started.mono grows)

theorem Inv.submitFailed (inv : Inv s) {hexes : List ℕ} {txnId : String}
    {remaining : List BoostedHexActivation} (submitting : s.phase = .submitting hexes txnId remaining)
    (now : ℤ) :
    Inv { s with
      table := updateFailedBatch s.table hexes now
      phase := Phase.next remaining } := by
  have inFlight : ∀ row ∈ s.table, row.status = .queued → row.txnId ≠ none → row.location ∈ hexes := by
    simpa [submitting, Pending] using inv.pending
  refine ⟨?signed, ?succeeded, ?awaited, ?pending, ?kept⟩
  case signed =>
    exact forall_update (fun row inTable _ => inv.signed row inTable)
      (fun _ _ _ => Signed.of_txnId_none rfl)
  case succeeded =>
    exact forall_update_of_keeps (fun _ => id) inv.succeeded
  case awaited => exact awaited_next _ _
  case pending =>
    intro row member
    refine Pending.next (forall_update (P := Pending .idle) ?_ ?_ row member) _
    · intro row inTable outside queued
      by_contra held
      simp [inFlight row inTable queued held] at outside
    · intro _ _ _ _
      rfl
  case kept =>
    intro hex member
    dsimp only
    rw [locations_updateFailedBatch]
    exact inv.kept hex member

theorem Inv.land (inv : Inv s) (txnId : String) :
    Inv { s with chain := { s.chain with landed := s.chain.landed ++ [txnId] } } := by
  have grows : s.chain.Extends { s.chain with landed := s.chain.landed ++ [txnId] } :=
    ⟨List.Subset.refl _, List.subset_append_left _ _⟩
  exact ⟨fun row inTable => (inv.signed row inTable).mono grows,
    fun row inTable success => (inv.succeeded row inTable success).mono grows, inv.awaited.mono grows,
    inv.pending, fun hex member => (inv.kept hex member).imp_right (Started.mono grows)⟩

theorem Inv.restart (inv : Inv s) :
    Inv { s with phase := Phase.recover (getTxnsIdsToVerify s.table) } where
  signed := inv.signed
  succeeded := inv.succeeded
  awaited := awaited_recover _ _
  pending _ inTable := Pending.recover fun queued _ named =>
    mem_getTxnsIdsToVerify inTable queued named
  kept := inv.kept

/-- A row the confirmation of another id leaves alone is still promised to a later one. -/
theorem Pending.confirmed {txnId : String} {rest : List String} {row : Row}
    (pending : Pending (.recovering (txnId :: rest)) row) (other : decide (row.txnId = some txnId) = false) :
    Pending (.recovering rest) row := by
  intro queued txnId' named
  have other : row.txnId ≠ some txnId := of_decide_eq_false other
  rcases List.mem_cons.mp (pending queued txnId' named) with same | later
  · exact absurd (same ▸ named) other
  · exact later

theorem Inv.confirmOnchain (inv : Inv s) {txnId : String} {rest : List String}
    (recovering : s.phase = .recovering (txnId :: rest)) (landed : txnId ∈ s.chain.landed) (now : ℤ) :
    Inv { s with
      table := updateVerifiedTxnsOnchain s.table txnId now
      phase := Phase.recover rest } := by
  refine ⟨?signed, ?succeeded, ?awaited, ?pending, ?kept⟩
  case signed =>
    refine forall_update (fun row inTable _ => inv.signed row inTable) ?_
    intro row inTable _
    simpa [Signed] using inv.signed row inTable
  case succeeded =>
    refine forall_update (fun row inTable _ => inv.succeeded row inTable) ?_
    intro row inTable chosen _
    -- the rows of a landed transaction are the ones it started
    obtain ⟨hexes, made, member⟩ := inv.signed row inTable txnId (of_decide_eq_true chosen)
    exact ⟨txnId, landed, hexes, made, member⟩
  case awaited => exact awaited_recover _ _
  case pending =>
    intro row member
    refine Pending.recover (forall_update (P := Pending (.recovering rest)) ?_ ?_ row member)
    · intro row inTable other
      exact Pending.confirmed (by simpa [recovering] using inv.pending row inTable) other
    · intro _ _ _ queued
      simp at queued
  case kept =>
    intro hex member
    dsimp only
    rw [locations_updateVerifiedTxnsOnchain]
    exact inv.kept hex member

theorem Inv.confirmNotOnchain (inv : Inv s) {txnId : String} {rest : List String}
    (recovering : s.phase = .recovering (txnId :: rest)) (now : ℤ) :
    Inv { s with
      table := updateVerifiedTxnsNotOnchain s.table txnId now
      phase := Phase.recover rest } := by
  refine ⟨?signed, ?succeeded, ?awaited, ?pending, ?kept⟩
  case signed =>
    exact forall_update (fun row inTable _ => inv.signed row inTable)
      (fun _ _ _ => Signed.of_txnId_none rfl)
  case succeeded =>
    exact forall_update_of_keeps (fun _ => id) inv.succeeded
  case awaited => exact awaited_recover _ _
  case pending =>
    intro row member
    refine Pending.recover (forall_update (P := Pending (.recovering rest)) ?_ ?_ row member)
    · intro row inTable other
      exact Pending.confirmed (by simpa [recovering] using inv.pending row inTable) other
    · intro _ _ _
      exact Pending.of_txnId_none rfl
  case kept =>
    intro hex member
    dsimp only
    rw [locations_updateVerifiedTxnsNotOnchain]
    exact inv.kept hex member

theorem Inv.purge (inv : Inv s) (stalePeriod : ℤ) :
    Inv { s with table := purgeStaleRecords s.table stalePeriod } := by
  have stays : ∀ row ∈ purgeStaleRecords s.table stalePeriod, row ∈ s.table :=
    fun _ member => (List.mem_filter.mp member).1
  refine ⟨fun row member => inv.signed row (stays row member),
    fun row member => inv.succeeded row (stays row member), inv.awaited,
    fun row member => inv.pending row (stays row member), ?_⟩
  intro hex member
  rcases inv.kept hex member with stored | started
  · obtain ⟨row, inTable, rfl⟩ := List.mem_map.mp stored
    by_cases stale : row.status = .success ∧ row.updatedAt < stalePeriod
    · -- only successes are purged, and their hexes were started on chain
      exact .inr (inv.succeeded row inTable stale.1)
    · exact .inl (List.mem_map.mpr ⟨row, List.mem_filter.mpr ⟨inTable, decide_eq_true stale⟩, rfl⟩)
  · exact .inr started

end Events

theorem Inv.of_moves {updater : Updater} {s s' : State} (inv : Inv s) (moves : Moves updater s s') :
    Inv s' := by
  cases moves with
  | stay => exact inv
  | activate location boostedHexPubkey boostConfigPubkey manifestTime now =>
    exact inv.activate location boostedHexPubkey boostConfigPubkey manifestTime now
  | tick idle now => exact inv.tick idle now
  | makeTransaction batching txnId now => exact inv.makeTransaction batching txnId _ _ now
  | submitted submitting now => exact inv.submitted submitting now
  | submitFailed submitting now => exact inv.submitFailed submitting now
  | land txnId => exact inv.land txnId
  | restart => exact inv.restart
  | confirmOnchain recovering landed now => exact inv.confirmOnchain recovering landed now
  | confirmNotOnchain recovering now => exact inv.confirmNotOnchain recovering now
  | purge stalePeriod => exact inv.purge stalePeriod

theorem Inv.reach {updater : Updater} {s : State} (reached : Reach (step updater) State.initial s) :
    Inv s :=
  Reach.invariant Inv Inv.initial (fun _ _ _ inv stepped => inv.of_moves (moves_of_step stepped)) reached

/-! ## The retry pass -/

/-- The hexes of the pass in flight: the batch awaited and those not yet batched. -/
def Phase.hexes : Phase → List ℕ
  | .batching remaining => remaining.map (·.location)
  | .submitting hexes _ remaining => hexes ++ remaining.map (·.location)
  | _ => []

@[simp] theorem Phase.hexes_next (remaining : List BoostedHexActivation) :
    (Phase.next remaining).hexes = remaining.map (·.location) := by
  unfold Phase.next
  split_ifs with done
  · simp [done, Phase.hexes]
  · rfl

@[simp] theorem Phase.hexes_recover (txnIds : List String) : (Phase.recover txnIds).hexes = [] := by
  unfold Phase.recover
  split_ifs <;> rfl

/-- A batch is taken from the rows a retry may pick. -/
theorem getQueuedBatch_subperm (table : List Row) :
    (getQueuedBatch table).map (·.location) <+~
      (table.filter fun row => row.status = .queued ∧ row.retries < maxRetries ∧ row.txnId = none).map
        (·.location) := by
  unfold getQueuedBatch
  rw [List.map_map]
  exact ((List.take_sublist _ _).map _).subperm.trans ((List.perm_insertionSort _ _).map _).subperm

/-- Under the primary key, the row of a hex in a batch is one a retry may pick. -/
theorem picked_of_mem_getQueuedBatch {table : List Row} (unique : (table.map (·.location)).Nodup)
    {row : Row} (member : row ∈ table) (batched : row.location ∈ (getQueuedBatch table).map (·.location)) :
    row.status = .queued ∧ row.retries < maxRetries ∧ row.txnId = none := by
  obtain ⟨picked, selected, same⟩ := List.mem_map.mp ((getQueuedBatch_subperm table).subset batched)
  obtain ⟨inTable, chosen⟩ := List.mem_filter.mp selected
  obtain rfl : picked = row := List.inj_on_of_nodup_map unique inTable member same
  simpa using chosen

theorem nodup_getQueuedBatch {table : List Row} (unique : (table.map (·.location)).Nodup) :
    ((getQueuedBatch table).map (·.location)).Nodup := by
  obtain ⟨taken, perm, sub⟩ := getQueuedBatch_subperm table
  exact (sub.nodup (unique.sublist (List.filter_sublist.map _))).perm perm

/-- What holds of the pass in flight and of the retry counts. `batched` is the heart of it: a
hex of the pass is queued and below `MAX_RETRIES`, so a batch's success or failure only
touches such rows, once. -/
structure Batches (s : State) : Prop where
  unique : (s.table.map (·.location)).Nodup
  passUnique : s.phase.hexes.Nodup
  batched : ∀ row ∈ s.table, row.location ∈ s.phase.hexes →
    row.status = .queued ∧ row.retries < maxRetries
  bounded : ∀ row ∈ s.table, row.retries ≤ maxRetries
  failedClear : ∀ row ∈ s.table, row.status = .failed → row.txnId = none

theorem Batches.initial : Batches State.initial where
  unique := List.nodup_nil
  passUnique := List.nodup_nil
  batched := nofun
  bounded := nofun
  failedClear := nofun

section PassEvents

variable {s : State}

theorem Batches.activate (batches : Batches s) (location : ℕ) (boostedHexPubkey boostConfigPubkey : String)
    (manifestTime now : ℤ) :
    Batches { s with
      table := insertActivatedHex s.table location boostedHexPubkey boostConfigPubkey manifestTime now
      activated := s.activated ++ [location] } where
  unique := nodup_insertActivatedHex batches.unique _ _ _ _ _
  passUnique := batches.passUnique
  batched row member listed := by
    rcases mem_insertActivatedHex member with old | ⟨queued, _, fresh⟩
    · exact batches.batched row old listed
    · exact ⟨queued, by simp [fresh, maxRetries]⟩
  bounded row member := by
    rcases mem_insertActivatedHex member with old | ⟨_, _, fresh⟩
    · exact batches.bounded row old
    · simp [fresh]
  failedClear row member failed := by
    rcases mem_insertActivatedHex member with old | ⟨queued, fresh, _⟩
    · exact batches.failedClear row old failed
    · exact fresh

theorem Batches.tick (inv : Inv s) (batches : Batches s) (idle : s.phase = .idle) (now : ℤ) :
    Batches { s with
      table := updateFailedActivations s.table now
      phase := Phase.next (getQueuedBatch (updateFailedActivations s.table now)) } := by
  have unique : ((updateFailedActivations s.table now).map (·.location)).Nodup := by
    rw [locations_updateFailedActivations]
    exact batches.unique
  refine ⟨unique, ?passUnique, ?batched, ?bounded, ?failedClear⟩
  case passUnique =>
    dsimp only
    rw [Phase.hexes_next]
    exact nodup_getQueuedBatch unique
  case batched =>
    intro row member listed
    dsimp only at listed
    rw [Phase.hexes_next] at listed
    obtain ⟨queued, below, _⟩ := picked_of_mem_getQueuedBatch unique member listed
    exact ⟨queued, below⟩
  case bounded =>
    exact forall_update_of_keeps (fun _ => id) batches.bounded
  case failedClear =>
    refine forall_update (fun row inTable _ => batches.failedClear row inTable) ?_
    intro row inTable chosen _
    -- a row given up was queued, and while the updater waits no queued row holds an id
    have waiting : Pending .idle row := idle ▸ inv.pending row inTable
    exact waiting (of_decide_eq_true chosen).1

theorem Batches.makeTransaction (batches : Batches s) {remaining : List BoostedHexActivation}
    (batching : s.phase = .batching remaining) (txnId : String) (size : ℕ) (now : ℤ) :
    Batches { s with
      table := saveBatchTxnId s.table txnId ((remaining.take size).map (·.location)) now
      phase := .submitting ((remaining.take size).map (·.location)) txnId (remaining.drop size)
      chain := { s.chain with
        created := s.chain.created ++ [(txnId, (remaining.take size).map (·.location))] } } := by
  -- the batch and the rest are the pass cut in two
  have cut : (Phase.submitting ((remaining.take size).map (·.location)) txnId (remaining.drop size)).hexes =
      s.phase.hexes := by
    rw [batching, Phase.hexes, Phase.hexes, ← List.map_append, List.take_append_drop]
  refine ⟨?unique, ?passUnique, ?batched, ?bounded, ?failedClear⟩
  case unique =>
    rw [locations_saveBatchTxnId]
    exact batches.unique
  case passUnique =>
    dsimp only
    rw [cut]
    exact batches.passUnique
  case batched =>
    dsimp only
    rw [cut]
    exact forall_update_of_keeps (fun _ => id) batches.batched
  case bounded =>
    exact forall_update_of_keeps (fun _ => id) batches.bounded
  case failedClear =>
    refine forall_update (fun row inTable _ => batches.failedClear row inTable) ?_
    intro row inTable chosen failed
    have listed : row.location ∈ s.phase.hexes := by
      rw [← cut]
      exact List.mem_append_left _ (of_decide_eq_true chosen)
    have queued := (batches.batched row inTable listed).1
    simp [queued] at failed

/-- While a batch is awaited, its hexes are queued rows below `MAX_RETRIES`, and the hexes
still to batch are others. -/
theorem Batches.awaiting (batches : Batches s) {hexes : List ℕ} {txnId : String}
    {remaining : List BoostedHexActivation} (submitting : s.phase = .submitting hexes txnId remaining) :
    (∀ row ∈ s.table, row.location ∈ hexes → row.status = .queued ∧ row.retries < maxRetries) ∧
      (remaining.map (·.location)).Nodup ∧
      ∀ row ∈ s.table, row.location ∈ remaining.map (·.location) →
        row.location ∉ hexes ∧ row.status = .queued ∧ row.retries < maxRetries := by
  have pass : (hexes ++ remaining.map (·.location)).Nodup := by
    simpa [submitting, Phase.hexes] using batches.passUnique
  have batched : ∀ row ∈ s.table, row.location ∈ hexes ++ remaining.map (·.location) →
      row.status = .queued ∧ row.retries < maxRetries := by
    simpa [submitting, Phase.hexes] using batches.batched
  refine ⟨fun row inTable inBatch => batched row inTable (List.mem_append_left _ inBatch),
    pass.of_append_right, fun row inTable later => ⟨?_, batched row inTable (List.mem_append_right _ later)⟩⟩
  exact fun inBatch => List.disjoint_of_nodup_append pass inBatch later

theorem Batches.submitted (batches : Batches s) {hexes : List ℕ} {txnId : String}
    {remaining : List BoostedHexActivation} (submitting : s.phase = .submitting hexes txnId remaining)
    (now : ℤ) :
    Batches { s with
      table := updateSuccessBatch s.table hexes now
      phase := Phase.next remaining
      chain := { s.chain with landed := s.chain.landed ++ [txnId] } } := by
  obtain ⟨_, restUnique, rest⟩ := batches.awaiting submitting
  refine ⟨?unique, ?passUnique, ?batched, ?bounded, ?failedClear⟩
  case unique =>
    rw [locations_updateSuccessBatch]
    exact batches.unique
  case passUnique =>
    dsimp only
    rw [Phase.hexes_next]
    exact restUnique
  case batched =>
    dsimp only
    rw [Phase.hexes_next]
    refine forall_update (fun row inTable _ later => (rest row inTable later).2) ?_
    intro row inTable chosen later
    exact absurd (of_decide_eq_true chosen) (rest row inTable later).1
  case bounded =>
    exact forall_update_of_keeps (fun _ => id) batches.bounded
  case failedClear =>
    exact forall_update (fun row inTable _ => batches.failedClear row inTable) (fun _ _ _ => by simp)

theorem Batches.submitFailed (batches : Batches s) {hexes : List ℕ} {txnId : String}
    {remaining : List BoostedHexActivation} (submitting : s.phase = .submitting hexes txnId remaining)
    (now : ℤ) :
    Batches { s with table := updateFailedBatch s.table hexes now, phase := Phase.next remaining } := by
  obtain ⟨inBatch, restUnique, rest⟩ := batches.awaiting submitting
  refine ⟨?unique, ?passUnique, ?batched, ?bounded, ?failedClear⟩
  case unique =>
    rw [locations_updateFailedBatch]
    exact batches.unique
  case passUnique =>
    dsimp only
    rw [Phase.hexes_next]
    exact restUnique
  case batched =>
    dsimp only
    rw [Phase.hexes_next]
    refine forall_update (fun row inTable _ later => (rest row inTable later).2) ?_
    intro row inTable chosen later
    exact absurd (of_decide_eq_true chosen) (rest row inTable later).1
  case bounded =>
    refine forall_update (fun row inTable _ => batches.bounded row inTable) ?_
    intro row inTable chosen
    -- a batch is retried only below MAX_RETRIES, and once
    exact Nat.succ_le_of_lt (inBatch row inTable (of_decide_eq_true chosen)).2
  case failedClear =>
    exact forall_update (fun row inTable _ => batches.failedClear row inTable) (fun _ _ _ _ => rfl)

theorem Batches.land (batches : Batches s) (txnId : String) :
    Batches { s with chain := { s.chain with landed := s.chain.landed ++ [txnId] } } :=
  ⟨batches.unique, batches.passUnique, batches.batched, batches.bounded, batches.failedClear⟩

theorem Batches.restart (batches : Batches s) :
    Batches { s with phase := Phase.recover (getTxnsIdsToVerify s.table) } where
  unique := batches.unique
  passUnique := by simp
  batched _ _ listed := by simp at listed
  bounded := batches.bounded
  failedClear := batches.failedClear

theorem Batches.confirmOnchain (batches : Batches s) (txnId : String) (rest : List String) (now : ℤ) :
    Batches { s with table := updateVerifiedTxnsOnchain s.table txnId now, phase := Phase.recover rest } where
  unique := by
    rw [locations_updateVerifiedTxnsOnchain]
    exact batches.unique
  passUnique := by simp
  batched _ _ listed := by simp at listed
  bounded := forall_update_of_keeps (fun _ => id) batches.bounded
  failedClear := forall_update (fun row inTable _ => batches.failedClear row inTable) (fun _ _ _ => by simp)

theorem Batches.confirmNotOnchain (batches : Batches s) (txnId : String) (rest : List String) (now : ℤ) :
    Batches { s with table := updateVerifiedTxnsNotOnchain s.table txnId now, phase := Phase.recover rest } where
  unique := by
    rw [locations_updateVerifiedTxnsNotOnchain]
    exact batches.unique
  passUnique := by simp
  batched _ _ listed := by simp at listed
  bounded := forall_update_of_keeps (fun _ => id) batches.bounded
  failedClear := forall_update (fun row inTable _ => batches.failedClear row inTable) (fun _ _ _ _ => rfl)

theorem Batches.purge (batches : Batches s) (stalePeriod : ℤ) :
    Batches { s with table := purgeStaleRecords s.table stalePeriod } := by
  have stays : ∀ row ∈ purgeStaleRecords s.table stalePeriod, row ∈ s.table :=
    fun _ member => (List.mem_filter.mp member).1
  exact ⟨batches.unique.sublist (List.filter_sublist.map _), batches.passUnique,
    fun row member => batches.batched row (stays row member),
    fun row member => batches.bounded row (stays row member),
    fun row member => batches.failedClear row (stays row member)⟩

end PassEvents

theorem Batches.of_moves {updater : Updater} {s s' : State} (inv : Inv s) (batches : Batches s)
    (moves : Moves updater s s') : Batches s' := by
  cases moves with
  | stay => exact batches
  | activate location boostedHexPubkey boostConfigPubkey manifestTime now =>
    exact batches.activate location boostedHexPubkey boostConfigPubkey manifestTime now
  | tick idle now => exact batches.tick inv idle now
  | makeTransaction batching txnId now => exact batches.makeTransaction batching txnId _ now
  | submitted submitting now => exact batches.submitted submitting now
  | submitFailed submitting now => exact batches.submitFailed submitting now
  | land txnId => exact batches.land txnId
  | restart => exact batches.restart
  | confirmOnchain _ _ now => exact batches.confirmOnchain _ _ now
  | confirmNotOnchain _ now => exact batches.confirmNotOnchain _ _ now
  | purge stalePeriod => exact batches.purge stalePeriod

theorem Batches.reach {updater : Updater} {s : State} (reached : Reach (step updater) State.initial s) :
    Inv s ∧ Batches s :=
  Reach.invariant (fun s => Inv s ∧ Batches s) ⟨Inv.initial, Batches.initial⟩
    (fun _ _ _ both stepped =>
      ⟨both.1.of_moves (moves_of_step stepped), both.2.of_moves both.1 (moves_of_step stepped)⟩)
    reached

/-! ## Failed activations -/

/-- The hex has a row that failed. -/
def GivenUp (table : List Row) (location : ℕ) : Prop :=
  ∃ row ∈ table, row.location = location ∧ row.status = .failed

theorem givenUp_update {table : List Row} {selects : Row → Bool} {change : Row → Row}
    (same : ∀ row, (change row).location = row.location)
    (keeps : ∀ row ∈ table, row.status = .failed → selects row = true → (change row).status = .failed)
    {location : ℕ} (givenUp : GivenUp table location) : GivenUp (update table selects change) location := by
  obtain ⟨row, member, rfl, failed⟩ := givenUp
  cases chosen : selects row with
  | false => exact ⟨row, List.mem_map.mpr ⟨row, member, by simp [chosen]⟩, rfl, failed⟩
  | true =>
    exact ⟨change row, List.mem_map.mpr ⟨row, member, by simp [chosen]⟩, same row,
      keeps row member failed chosen⟩

/-- No step takes a failed row back: a batch's success only reaches queued rows, and a
landed transaction only rows that hold it, which a failed row never does. -/
theorem GivenUp.of_moves {updater : Updater} {s s' : State} (batches : Batches s)
    (moves : Moves updater s s') {location : ℕ} (givenUp : GivenUp s.table location) :
    GivenUp s'.table location := by
  cases moves with
  | stay => exact givenUp
  | activate =>
    obtain ⟨row, member, here, failed⟩ := givenUp
    exact ⟨row, subset_insertActivatedHex _ _ _ _ _ _ member, here, failed⟩
  | tick =>
    dsimp only [updateFailedActivations]
    refine givenUp_update ?_ ?_ givenUp
    · exact fun _ => rfl
    · exact fun _ _ _ _ => rfl
  | makeTransaction =>
    dsimp only [saveBatchTxnId]
    refine givenUp_update ?_ ?_ givenUp
    · exact fun _ => rfl
    · exact fun _ _ failed _ => failed
  | submitted submitting =>
    dsimp only [updateSuccessBatch]
    refine givenUp_update ?_ ?_ givenUp
    · exact fun _ => rfl
    · intro row member failed chosen
      have queued := ((batches.awaiting submitting).1 row member (of_decide_eq_true chosen)).1
      simp [queued] at failed
  | submitFailed =>
    dsimp only [updateFailedBatch]
    refine givenUp_update ?_ ?_ givenUp
    · exact fun _ => rfl
    · exact fun _ _ failed _ => failed
  | land => exact givenUp
  | restart => exact givenUp
  | confirmOnchain =>
    dsimp only [updateVerifiedTxnsOnchain]
    refine givenUp_update ?_ ?_ givenUp
    · exact fun _ => rfl
    · intro row member failed chosen
      have held : row.txnId = some _ := of_decide_eq_true chosen
      simp [batches.failedClear row member failed] at held
  | confirmNotOnchain =>
    dsimp only [updateVerifiedTxnsNotOnchain]
    refine givenUp_update ?_ ?_ givenUp
    · exact fun _ => rfl
    · exact fun _ _ failed _ => failed
  | purge stalePeriod =>
    obtain ⟨row, member, here, failed⟩ := givenUp
    exact ⟨row, List.mem_filter.mpr ⟨member, by simp [failed]⟩, here, failed⟩

/-! ## Guarantees

The runs below use an updater with batches of one. In `recoveryRun` the updater crashes after
saving the second batch's id; recovery finds the transaction missing and clears the id, and
only then does it land. In `failingRun` every submission of one hex fails until the hex is
given up.
-/

def activationUpdater : Updater := ⟨true, 1, Nat.one_pos⟩

def recoveryRun : List Event :=
  [.activate 7 "hex7" "boost7" none 100 100, .activate 8 "hex8" "boost8" none 101 101, .tick 110,
    .makeTransaction "sig1" 111, .submitted 112, .makeTransaction "sig2" 113, .restart, .confirm 120,
    .land "sig2", .activate 9 "hex9" "boost9" none 121 121]

def recoveryEnd : State := (run (step activationUpdater) State.initial recoveryRun).getD State.initial

def failingRun : List Event :=
  .activate 5 "hex5" "boost5" none 100 100 ::
    ((List.range 10).flatMap fun attempt =>
      [.tick (110 + attempt), .makeTransaction (toString attempt) (110 + attempt), .submitFailed (110 + attempt)]) ++
    [.tick 200]

def failingEnd : State := (run (step activationUpdater) State.initial failingRun).getD State.initial

def afterFailingRun : List Event := [.land "3", .restart, .purge 1000 0, .tick 300, .activate 5 "hex5" "boost5" none 301 301]

def afterFailingEnd : State := (run (step activationUpdater) failingEnd afterFailingRun).getD failingEnd

theorem recoveryEnd_reached : Reach (step activationUpdater) State.initial recoveryEnd :=
  reach_of_run recoveryRun .start (by decide +kernel)

theorem failingEnd_reached : Reach (step activationUpdater) State.initial failingEnd :=
  reach_of_run failingRun .start (by decide +kernel)

/-- **A row is marked a success only once its hex was started on chain**, by a transaction of
the updater that landed: the submission that succeeded, or the one a recovery found landed. -/
theorem success_rows_started_on_chain {updater : Updater} {s : State}
    (reached : Reach (step updater) State.initial s) {row : Row} (member : row ∈ s.table)
    (success : row.status = .success) : Started s.chain row.location :=
  (Inv.reach reached).succeeded row member success

theorem success_rows_started_on_chain_after_recovery :
    ∃ row ∈ recoveryEnd.table, row.location = 7 ∧ row.status = .success ∧
      Started recoveryEnd.chain row.location := by
  obtain ⟨row, member, here, success⟩ :
      ∃ row ∈ recoveryEnd.table, row.location = 7 ∧ row.status = .success := by decide +kernel
  exact ⟨row, member, here, success, success_rows_started_on_chain recoveryEnd_reached member success⟩

/-- **No queued row holds a transaction id while the updater waits for its timer**: what a
crash leaves between saving a batch's id and its result is settled by the recovery at
startup, so no queued row is kept out of the next batches by a stale id. -/
theorem idle_updater_leaves_no_queued_transaction {updater : Updater} {s : State}
    (reached : Reach (step updater) State.initial s) (idle : s.phase = .idle) {row : Row}
    (member : row ∈ s.table) (queued : row.status = .queued) : row.txnId = none := by
  have pending := (Inv.reach reached).pending row member
  rw [idle] at pending
  exact pending queued

theorem idle_updater_leaves_no_queued_transaction_after_recovery :
    ∃ row ∈ recoveryEnd.table, row.location = 8 ∧ row.status = .queued ∧ row.txnId = none := by
  have idle : recoveryEnd.phase = .idle := by decide +kernel
  obtain ⟨row, member, here, queued⟩ :
      ∃ row ∈ recoveryEnd.table, row.location = 8 ∧ row.status = .queued := by decide +kernel
  exact ⟨row, member, here, queued,
    idle_updater_leaves_no_queued_transaction recoveryEnd_reached idle member queued⟩

/-- **No activation is lost**: every hex the activator queued keeps a row, or was started on
chain; the purger deletes only successes. -/
theorem activations_never_lost {updater : Updater} {s : State}
    (reached : Reach (step updater) State.initial s) {location : ℕ} (activated : location ∈ s.activated) :
    location ∈ s.table.map (·.location) ∨ Started s.chain location :=
  (Inv.reach reached).kept location activated

theorem activations_never_lost_after_recovery :
    8 ∈ recoveryEnd.activated ∧ (8 ∈ recoveryEnd.table.map (·.location) ∨ Started recoveryEnd.chain 8) := by
  have activated : 8 ∈ recoveryEnd.activated := by decide +kernel
  exact ⟨activated, activations_never_lost recoveryEnd_reached activated⟩

/-- **A failed activation stays failed**, on every run from every reachable state: no later
batch retries it, no landed transaction marks it a success and the purger keeps it. -/
theorem failed_activations_stay_failed {updater : Updater} {s t : State}
    (reached : Reach (step updater) State.initial s) (later : Reach (step updater) s t) {row : Row}
    (member : row ∈ s.table) (failed : row.status = .failed) :
    ∃ row' ∈ t.table, row'.location = row.location ∧ row'.status = .failed := by
  induction later with
  | start => exact ⟨row, member, rfl, failed⟩
  | step event before moved ih =>
    exact GivenUp.of_moves (Batches.reach (reached.trans before)).2 (moves_of_step moved) ih

theorem failed_activations_stay_failed_after_ten_failures :
    ∃ row ∈ afterFailingEnd.table, row.location = 5 ∧ row.status = .failed := by
  have later : Reach (step activationUpdater) failingEnd afterFailingEnd :=
    reach_of_run afterFailingRun .start (by decide +kernel)
  obtain ⟨row, member, here, failed⟩ :
      ∃ row ∈ failingEnd.table, row.location = 5 ∧ row.status = .failed := by decide +kernel
  obtain ⟨row', member', same, failed'⟩ :=
    failed_activations_stay_failed failingEnd_reached later member failed
  exact ⟨row', member', same.trans here, failed'⟩

/-- **No row is retried more than `MAX_RETRIES` times**: a pass retries each of its rows at
most once, and only rows below the limit. -/
theorem retries_never_exceed_max_retries {updater : Updater} {s : State}
    (reached : Reach (step updater) State.initial s) {row : Row} (member : row ∈ s.table) :
    row.retries ≤ maxRetries :=
  (Batches.reach reached).2.bounded row member

theorem retries_never_exceed_max_retries_after_ten_failures :
    ∃ row ∈ failingEnd.table, row.retries = maxRetries ∧ row.retries ≤ maxRetries := by
  obtain ⟨row, member, exhausted⟩ : ∃ row ∈ failingEnd.table, row.retries = maxRetries := by
    decide +kernel
  exact ⟨row, member, exhausted, retries_never_exceed_max_retries failingEnd_reached member⟩

end HeliumOracles.BoostManager

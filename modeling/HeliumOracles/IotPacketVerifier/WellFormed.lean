import HeliumOracles.IotPacketVerifier.System

/-!
# What every run of the IoT packet verifier keeps

Invariants of the system of `System.lean` over every run, whatever the chain
reports and wherever a step fails: signatures handed out later are unused, the
`pending_txns` rows have distinct signatures and agree with the chain's record
of their transaction, every row and every burn in the burner's hands belongs to
a payer with a `pending_burns` row and fits a BIGINT, the burner's phase fixes
what `pending_txns` holds, and every payer with a `pending_burns` row or an open
debit has a cache account.

The last fact is what the two `unwrap`s on the cache rely on: the one of
`Burner::burn` after a committed burn and the one of `confirm_pending_txns`
(`cache_unwraps_succeed`).
-/
namespace HeliumOracles.IotPacketVerifier

open Lib.Word Lib.Transition

/-- A burn of a payer with a `pending_burns` row, of an amount that fits a BIGINT. -/
def Backed (s : State) (payer amount : Nat) : Prop :=
  s.pendingBurns payer ≠ none ∧ amount < 2 ^ 63

/-- What the burner's phase says about `pending_txns` and the chain. -/
def PhaseShape (s : State) : Prop :=
  match s.phase with
  | .idle => s.pendingTxns = []
  | .made txn => s.pendingTxns = [] ∧ txn.signature < s.nextSignature ∧
      s.network txn.signature = none ∧ Backed s txn.payer txn.amount
  | .added txn => s.pendingTxns = [txn.row] ∧ txn.signature < s.nextSignature ∧
      s.network txn.signature = none
  | .submitted txn => s.pendingTxns = [txn.row] ∧
      s.network txn.signature = some ⟨txn.payer, txn.amount, .landed⟩
  | .committed txn => s.pendingTxns = [] ∧ s.pendingBurns txn.payer ≠ none
  | .confirming rows _ => s.pendingTxns = rows

structure WellFormed (s : State) : Prop where
  bigint : BigintAmounts s.pendingBurns
  fresh : ∀ signature, s.nextSignature ≤ signature → s.network signature = none
  unique : (s.pendingTxns.map (·.signature)).Nodup
  backed : ∀ row ∈ s.pendingTxns, Backed s row.payer row.amount
  matched : ∀ row ∈ s.pendingTxns, ∀ submission, s.network row.signature = some submission →
    submission.payer = row.payer ∧ submission.amount = row.amount
  shape : PhaseShape s
  fileSmall : ∀ burn ∈ s.fileBurns, burn.2 < 2 ^ 63
  accounts : ∀ payer, s.pendingBurns payer ≠ none → s.payerAccounts payer ≠ none
  fileAccounts : ∀ burn ∈ s.fileBurns, s.payerAccounts burn.1 ≠ none

section Shape

variable {s : State} {txn : BurnTxn}

theorem PhaseShape.of_idle (shape : PhaseShape s) (phase : s.phase = .idle) :
    s.pendingTxns = [] := by
  unfold PhaseShape at shape
  rw [phase] at shape
  exact shape

theorem PhaseShape.of_made (shape : PhaseShape s) (phase : s.phase = .made txn) :
    s.pendingTxns = [] ∧ txn.signature < s.nextSignature ∧ s.network txn.signature = none ∧
      Backed s txn.payer txn.amount := by
  unfold PhaseShape at shape
  rw [phase] at shape
  exact shape

theorem PhaseShape.of_added (shape : PhaseShape s) (phase : s.phase = .added txn) :
    s.pendingTxns = [txn.row] ∧ txn.signature < s.nextSignature ∧
      s.network txn.signature = none := by
  unfold PhaseShape at shape
  rw [phase] at shape
  exact shape

theorem PhaseShape.of_submitted (shape : PhaseShape s) (phase : s.phase = .submitted txn) :
    s.pendingTxns = [txn.row] ∧ s.network txn.signature = some ⟨txn.payer, txn.amount, .landed⟩ := by
  unfold PhaseShape at shape
  rw [phase] at shape
  exact shape

theorem PhaseShape.of_committed (shape : PhaseShape s) (phase : s.phase = .committed txn) :
    s.pendingTxns = [] ∧ s.pendingBurns txn.payer ≠ none := by
  unfold PhaseShape at shape
  rw [phase] at shape
  exact shape

theorem PhaseShape.of_confirming {rows : List PendingTxn} {startup : Bool} (shape : PhaseShape s)
    (phase : s.phase = .confirming rows startup) : s.pendingTxns = rows := by
  unfold PhaseShape at shape
  rw [phase] at shape
  exact shape

end Shape

/-- Setting one account keeps every other account. -/
private theorem account_kept {accounts : Nat → Option PayerAccount} {payer other : Nat}
    {account : PayerAccount} (covered : accounts other ≠ none) :
    Function.update accounts payer (some account) other ≠ none := by
  by_cases same : other = payer
  · subst same
    simp
  · rw [Function.update_of_ne same]
    exact covered

theorem wellFormed_initial (chain : Nat → Nat) : WellFormed (State.initial chain) where
  bigint := by
    intro _ _ found
    cases found
  fresh := fun _ _ => rfl
  unique := List.nodup_nil
  backed := by simp [State.initial]
  matched := by simp [State.initial]
  shape := rfl
  fileSmall := by simp [State.initial]
  accounts := fun _ present => absurd rfl present
  fileAccounts := by simp [State.initial]

section Preservation

variable {m : Nat} {s s' : State}

theorem verifyReport_wellFormed (before : WellFormed s) (report : PacketReport) :
    WellFormed (s.verifyReport m report) := by
  rcases verifyReport_eq report with same | ⟨account, refused⟩ | ⟨account, debited⟩
  · rw [same]
    exact before
  · rw [refused]
    refine { before with accounts := ?_, fileAccounts := ?_ }
    · intro payer present
      exact account_kept (before.accounts payer present)
    · intro burn belongs
      exact account_kept (before.fileAccounts burn belongs)
  · -- the debited payer now has an account, and its burn is small
    rw [debited]
    refine { before with fileSmall := ?_, accounts := ?_, fileAccounts := ?_ }
    · intro burn belongs
      rcases List.mem_append.mp belongs with earlier | added
      · exact before.fileSmall burn earlier
      · rw [List.mem_singleton.mp added]
        exact report.debitAmount_lt
    · intro payer present
      exact account_kept (before.accounts payer present)
    · intro burn belongs
      rcases List.mem_append.mp belongs with earlier | added
      · exact account_kept (before.fileAccounts burn earlier)
      · rw [List.mem_singleton.mp added]
        simp

theorem commitFile_wellFormed (before : WellFormed s) (moved : s.commitFile = some s') :
    WellFormed s' := by
  obtain ⟨pendingBurns, upserted, rfl⟩ := commitFile_eq moved
  obtain ⟨-, kept, added, bigint⟩ := addBurnedAmounts_spec before.fileSmall before.bigint upserted
  -- rows only appear, so every fact that a payer has a row survives
  have shape : PhaseShape { s with pendingBurns } := by
    have was := before.shape
    unfold PhaseShape at was ⊢
    split at was
    all_goals rename_i phase
    all_goals simp only [phase]
    · exact was
    · exact ⟨was.1, was.2.1, was.2.2.1, kept _ was.2.2.2.1, was.2.2.2.2⟩
    · exact was
    · exact was
    · exact ⟨was.1, kept _ was.2⟩
    · exact was
  refine ⟨bigint, before.fresh, before.unique, ?_, before.matched, shape, by simp, ?_, by simp⟩
  · intro row belongs
    exact ⟨kept _ (before.backed row belongs).1, (before.backed row belongs).2⟩
  · intro payer present
    rcases added payer present with earlier | ⟨burn, belongs, named⟩
    · exact before.accounts payer earlier
    · exact named ▸ before.fileAccounts burn belongs

theorem startBurn_wellFormed {payer : Nat} (before : WellFormed s) (idle : s.phase = .idle)
    (moved : s.startBurn payer = some s') : WellFormed s' := by
  obtain ⟨amount, fetched, rfl⟩ := startBurn_eq moved
  obtain ⟨present, -, -, small⟩ := fetchNextBurn_spec before.bigint fetched
  have empty := before.shape.of_idle idle
  refine { before with fresh := ?_, shape := ?_ }
  · intro signature later
    exact before.fresh signature (by simp only at later; omega)
  · exact ⟨empty, by simp, before.fresh _ (Nat.le_refl _), present, small⟩

theorem addPending_wellFormed {txn : BurnTxn} (before : WellFormed s) (made : s.phase = .made txn)
    (moved : s.addPending txn = some s') : WellFormed s' := by
  obtain ⟨-, rfl⟩ := addPending_eq moved
  obtain ⟨empty, issued, unsent, backed⟩ := before.shape.of_made made
  refine { before with unique := ?_, backed := ?_, matched := ?_, shape := ?_ }
  · simp [empty]
  · intro row belongs
    simp only [empty, List.nil_append, List.mem_singleton] at belongs
    rw [belongs]
    exact backed
  · intro row belongs submission found
    simp only [empty, List.nil_append, List.mem_singleton] at belongs
    subst belongs
    simp [BurnTxn.row, unsent] at found
  · exact ⟨by simp [empty], issued, unsent⟩

theorem submit_wellFormed {txn : BurnTxn} {outcome : SubmitOutcome} (before : WellFormed s)
    (added : s.phase = .added txn) (moved : s.submit txn outcome = some s') : WellFormed s' := by
  obtain ⟨landing, after, chained, settled⟩ := submit_eq moved
  obtain ⟨chain, burned, rfl, -⟩ := onChain_eq chained
  obtain ⟨single, issued, -⟩ := before.shape.of_added added
  have fresh : ∀ signature, s.nextSignature ≤ signature →
      Function.update s.network txn.signature (some ⟨txn.payer, txn.amount, landing⟩) signature =
        none := by
    intro signature later
    rw [Function.update_of_ne (by omega)]
    exact before.fresh signature later
  have matched : ∀ row ∈ s.pendingTxns, ∀ submission,
      Function.update s.network txn.signature (some ⟨txn.payer, txn.amount, landing⟩)
          row.signature = some submission →
        submission.payer = row.payer ∧ submission.amount = row.amount := by
    intro row belongs submission found
    rw [single, List.mem_singleton] at belongs
    subst belongs
    simp only [BurnTxn.row, Function.update_self, Option.some.injEq] at found
    subst found
    exact ⟨rfl, rfl⟩
  rcases settled with ⟨-, rfl, rfl⟩ | ⟨-, -, rfl⟩
  · exact { before with fresh := fresh, matched := matched, shape := ⟨single, by simp⟩ }
  · exact { before with fresh := fresh, matched := matched, shape := rfl }

theorem commitBurn_wellFormed {txn : BurnTxn} (before : WellFormed s)
    (submitted : s.phase = .submitted txn) (moved : s.commitBurn txn = some s') : WellFormed s' := by
  obtain ⟨pendingBurns, subtracted, rfl⟩ := commitBurn_eq moved
  obtain ⟨single, -⟩ := before.shape.of_submitted submitted
  have backed := before.backed txn.row (by simp [single])
  obtain ⟨-, rows, bigint⟩ := subtractBurnedAmount_spec backed.1 before.bigint subtracted
  have removed : removePendingTransaction s.pendingTxns txn.signature = [] := by
    simp [removePendingTransaction, single, BurnTxn.row]
  refine { before with
    bigint := bigint, unique := ?_, backed := ?_, matched := ?_, shape := ?_, accounts := ?_ }
  · simp [removed]
  · simp [removed]
  · simp [removed]
  · exact ⟨removed, (rows txn.payer).mpr backed.1⟩
  · intro payer present
    exact before.accounts payer ((rows payer).mp present)

theorem updateBalances_wellFormed {txn : BurnTxn} (before : WellFormed s)
    (committed : s.phase = .committed txn) (moved : s.updateBalances txn = some s') :
    WellFormed s' := by
  obtain ⟨account, -, rfl⟩ := updateBalances_eq moved
  obtain ⟨empty, -⟩ := before.shape.of_committed committed
  refine { before with shape := empty, accounts := ?_, fileAccounts := ?_ }
  · intro payer present
    exact account_kept (before.accounts payer present)
  · intro burn belongs
    exact account_kept (before.fileAccounts burn belongs)

theorem confirmRow_wellFormed {row : PendingTxn} {rest : List PendingTxn} {startup : Bool}
    (before : WellFormed s) (confirming : s.phase = .confirming (row :: rest) startup)
    (moved : s.confirmRow row rest startup = some s') : WellFormed s' := by
  have listed := before.shape.of_confirming confirming
  have unique := before.unique
  rw [listed] at unique
  have removed : removePendingTransaction s.pendingTxns row.signature = rest := by
    rw [listed]
    exact removePendingTransaction_head unique
  rw [List.map_cons, List.nodup_cons] at unique
  have kept : ∀ other ∈ rest, other ∈ s.pendingTxns := fun other belongs => by
    rw [listed]
    exact List.mem_cons_of_mem _ belongs
  rcases confirmRow_eq moved with ⟨-, pendingBurns, account, subtracted, -, rfl⟩ | ⟨-, rfl⟩
  · have backed := before.backed row (by simp [listed])
    obtain ⟨-, rows, bigint⟩ := subtractBurnedAmount_spec backed.1 before.bigint subtracted
    refine { before with
      bigint := bigint, unique := ?_, backed := ?_, matched := ?_, shape := removed,
      accounts := ?_, fileAccounts := ?_ }
    · simpa [removed] using unique.2
    · intro other belongs
      rw [removed] at belongs
      exact ⟨(rows other.payer).mpr (before.backed other (kept other belongs)).1,
        (before.backed other (kept other belongs)).2⟩
    · intro other belongs
      rw [removed] at belongs
      exact before.matched other (kept other belongs)
    · intro payer present
      exact account_kept (before.accounts payer ((rows payer).mp present))
    · intro burn belongs
      exact account_kept (before.fileAccounts burn belongs)
  · refine { before with unique := ?_, backed := ?_, matched := ?_, shape := removed }
    · simpa [removed] using unique.2
    · intro other belongs
      rw [removed] at belongs
      exact before.backed other (kept other belongs)
    · intro other belongs
      rw [removed] at belongs
      exact before.matched other (kept other belongs)

/-- Landing or dropping a transaction in flight changes only its landing. -/
theorem relanding_wellFormed {signature : Nat} {submission : Submission} {landing : Landing}
    (before : WellFormed s) (found : s.network signature = some submission)
    (unsettled : submission.landing = .inFlight) (chain burned : Nat → Nat) :
    WellFormed { s with
      network := Function.update s.network signature
        (some ⟨submission.payer, submission.amount, landing⟩)
      chain
      burned } := by
  have issued : signature < s.nextSignature := by
    by_contra later
    rw [before.fresh signature (by omega)] at found
    cases found
  refine { before with fresh := ?_, matched := ?_, shape := ?_ }
  · intro other later
    dsimp only at later ⊢
    rw [Function.update_of_ne (by omega)]
    exact before.fresh other later
  · intro row belongs updated found'
    dsimp only at found'
    by_cases same : row.signature = signature
    · rw [same, Function.update_self, Option.some.injEq] at found'
      subst found'
      exact before.matched row belongs submission (same ▸ found)
    · rw [Function.update_of_ne same] at found'
      exact before.matched row belongs updated found'
  · -- the burner's own transaction is never the one in flight
    have shape := before.shape
    unfold PhaseShape at shape ⊢
    split at shape
    all_goals rename_i phase
    all_goals simp only [phase]
    · exact shape
    · refine ⟨shape.1, shape.2.1, ?_, shape.2.2.2⟩
      rw [Function.update_of_ne (fun same => by rw [← same, shape.2.2.1] at found; cases found)]
      exact shape.2.2.1
    · refine ⟨shape.1, shape.2.1, ?_⟩
      rw [Function.update_of_ne (fun same => by rw [← same, shape.2.2] at found; cases found)]
      exact shape.2.2
    · refine ⟨shape.1, ?_⟩
      have different : _ ≠ signature := fun same => by
        rw [← same, shape.2] at found
        cases found
        cases unsettled
      rw [Function.update_of_ne different]
      exact shape.2
    · exact shape
    · exact shape

theorem land_wellFormed {signature : Nat} (before : WellFormed s) (moved : s.land signature = some s') :
    WellFormed s' := by
  obtain ⟨payer, amount, found, chained⟩ := land_eq moved
  obtain ⟨chain, burned, rfl, -⟩ := onChain_eq chained
  exact relanding_wellFormed before found rfl chain burned

theorem drop_wellFormed {signature : Nat} (before : WellFormed s) (moved : s.drop signature = some s') :
    WellFormed s' := by
  obtain ⟨payer, amount, found, rfl⟩ := drop_eq moved
  exact relanding_wellFormed before found rfl s.chain s.burned

theorem restart_wellFormed (before : WellFormed s) : WellFormed s.restart := by
  refine { before with shape := rfl, fileSmall := ?_, accounts := ?_, fileAccounts := ?_ }
  · simp [State.restart]
  · intro payer present
    simpa [State.restart] using present
  · simp [State.restart]

/-- Every step keeps the invariants. -/
theorem step_wellFormed {action : Action} (before : WellFormed s)
    (moved : step m s action = some s') : WellFormed s' := by
  cases action with
  | verify report =>
    obtain ⟨-, rfl⟩ := step_verify moved
    exact verifyReport_wellFormed before report
  | commitFile => exact commitFile_wellFormed before (step_commitFile moved).2
  | burn payer =>
    obtain ⟨idle, started⟩ := step_burn moved
    exact startBurn_wellFormed before idle started
  | addPending =>
    obtain ⟨txn, made, added⟩ := step_addPending moved
    exact addPending_wellFormed before made added
  | submit outcome =>
    obtain ⟨txn, added, submitted⟩ := step_submit moved
    exact submit_wellFormed before added submitted
  | commitBurn =>
    obtain ⟨txn, submitted, committed⟩ := step_commitBurn moved
    exact commitBurn_wellFormed before submitted committed
  | updateBalances =>
    obtain ⟨txn, committed, updated⟩ := step_updateBalances moved
    exact updateBalances_wellFormed before committed updated
  | burnFailed =>
    obtain ⟨-, rfl⟩ := step_burnFailed moved
    exact { before with shape := rfl }
  | confirmNext =>
    obtain ⟨row, rest, startup, confirming, confirmed⟩ := step_confirmNext moved
    exact confirmRow_wellFormed before confirming confirmed
  | confirmDone =>
    obtain ⟨startup, confirming, rfl⟩ := step_confirmDone moved
    exact { before with shape := before.shape.of_confirming confirming }
  | land signature => exact land_wellFormed before moved
  | drop signature => exact drop_wellFormed before moved
  | deposit payer amount =>
    cases moved
    exact { before with }
  | monitor payer =>
    obtain ⟨account, rfl⟩ := setBalance_eq (step_monitor moved).2
    refine { before with accounts := ?_, fileAccounts := ?_ }
    · intro other present
      exact account_kept (before.accounts other present)
    · intro burn belongs
      exact account_kept (before.fileAccounts burn belongs)
  | restart =>
    cases moved
    exact restart_wellFormed before

end Preservation

theorem reach_wellFormed {m : Nat} {chain : Nat → Nat} {s : State}
    (reached : Reach (step m) (State.initial chain) s) : WellFormed s := by
  refine reached.invariant WellFormed (wellFormed_initial chain) ?_
  intro s action s' before moved
  exact step_wellFormed before moved

/-- The burner's `unwrap` after a committed burn and the one of
`confirm_pending_txns` never panic: the payer always has a cache account. -/
theorem cache_unwraps_succeed {m : Nat} {chain : Nat → Nat} {s : State}
    (reached : Reach (step m) (State.initial chain) s) :
    (∀ txn, s.phase = .committed txn → s.payerAccounts txn.payer ≠ none) ∧
    (∀ row ∈ s.pendingTxns, s.payerAccounts row.payer ≠ none) := by
  have invariant := reach_wellFormed reached
  refine ⟨?_, ?_⟩
  · intro txn committed
    exact invariant.accounts txn.payer (invariant.shape.of_committed committed).2
  · intro row belongs
    exact invariant.accounts row.payer (invariant.backed row belongs).1

end HeliumOracles.IotPacketVerifier

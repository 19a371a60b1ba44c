import HeliumOracles.Lib.Transition
import HeliumOracles.IotPacketVerifier.Balances
import HeliumOracles.IotPacketVerifier.Pending

/-!
# The IoT packet verifier, its burner and the chain as one system

Model of the `iot_packet_verifier` service: `Verifier::verify` and
`Daemon::handle_file` (`verifier.rs`, `daemon.rs`), `Burner::run` and
`Burner::burn` (`burner.rs`), `confirm_pending_txns` (`pending.rs`), the start of
`Cmd::run` (`BalanceCache::new`, then `confirm_pending_txns`) and the
`set_balance` of `monitor_funds`, over the Solana chain that `solana/src/burn.rs`
talks to.

A step is what runs between two await points while the other tasks wait: one
debit under the cache mutex, one database transaction, one Solana call. The
environment's choices are carried by the action: which eligible payer
`fetch_next_burn` returns (the order by `last_burn` is not modelled), what
`submit_transaction` reports and whether the burn has landed, when a submitted
transaction lands or is dropped, and deposits to an escrow. A failed call that
ends a task ends the process (the task manager stops every task), and so does a
crash: both are `restart`, enabled everywhere. A failed step of `Burner::burn` is
`burnFailed`, after which `Burner::run` runs `confirm_pending_txns`.

Two ghost fields count what the claims about the system compare: `debited`, the
DC of the debits of committed files (a file whose transaction rolls back is
verified again after the restart, so its debits count once), and `burned`, the
DC burned on chain by landed transactions. `nextSignature` hands out fresh
signatures.

Not modelled: the packet sinks, `disable_org` and `enable_org` (the lock state
belongs to the config service, so `monitor` may run for any payer), and the
commitment levels of Solana reads (a read returns the current escrow balance).
-/
namespace HeliumOracles.IotPacketVerifier

open Lib.Word Lib.Transition

/-- A burn transaction from `make_burn_transaction`. -/
structure BurnTxn where
  signature : Nat
  payer : Nat
  amount : Nat
deriving DecidableEq, Repr

/-- The `pending_txns` row that `add_pending_transaction` writes for a transaction. -/
def BurnTxn.row (txn : BurnTxn) : PendingTxn := ⟨txn.signature, txn.payer, txn.amount⟩

/-- What becomes of a transaction the chain has received. -/
inductive Landing
  | inFlight
  | landed
  | dropped
deriving DecidableEq, Repr

/-- A transaction the chain has received. -/
structure Submission where
  payer : Nat
  amount : Nat
  landing : Landing
deriving DecidableEq, Repr

/-- What `submit_transaction` reports, together with what the chain did. -/
inductive SubmitOutcome
  /-- `send_and_confirm_transaction` succeeded: the burn landed. -/
  | confirmed
  /-- An error, although the burn landed. -/
  | failedLanded
  /-- An error while the transaction is still in flight. -/
  | failedInFlight
deriving DecidableEq, Repr

/-- Where `Burner::run` is; `confirming` with `startup` is the call of
`confirm_pending_txns` in `Cmd::run` before the tasks start. -/
inductive BurnerPhase
  | idle
  | made (txn : BurnTxn)
  | added (txn : BurnTxn)
  | submitted (txn : BurnTxn)
  | committed (txn : BurnTxn)
  | confirming (rows : List PendingTxn) (startup : Bool)
deriving DecidableEq, Repr

def BurnerPhase.startup : BurnerPhase → Bool
  | .confirming _ startup => startup
  | _ => false

/-- The phases from which a failing step of `Burner::burn` returns its error. -/
def BurnerPhase.burning : BurnerPhase → Bool
  | .idle | .made _ | .added _ | .submitted _ => true
  | .committed _ | .confirming _ _ => false

structure State where
  /-- The escrow balance of each payer on chain. -/
  chain : Nat → Nat
  /-- The transactions the chain has received, by signature. -/
  network : Nat → Option Submission
  pendingBurns : Nat → Option Int
  pendingTxns : List PendingTxn
  /-- The map behind the `BalanceCache` mutex. -/
  payerAccounts : Nat → Option PayerAccount
  /-- The `add_burned_amount` calls of the file transaction `handle_file` has open. -/
  fileBurns : List (Nat × Nat)
  phase : BurnerPhase
  nextSignature : Nat
  debited : Nat → Nat
  burned : Nat → Nat

/-- `confirm_transaction`: whether the signature's status is a success. -/
def confirmTransaction (network : Nat → Option Submission) (signature : Nat) : Bool :=
  match network signature with
  | some submission => submission.landing == .landed
  | none => false

namespace State

/-- The process starting on empty tables with the given escrow balances. -/
def initial (chain : Nat → Nat) : State :=
  ⟨chain, fun _ => none, fun _ => none, [], fun _ => none, [], .confirming [] true, 0,
    fun _ => 0, fun _ => 0⟩

/-- One uplink report of `Verifier::verify`: a debit under the cache mutex and,
when it succeeds, an `add_burned_amount` in the file's open transaction. -/
def verifyReport (s : State) (minimumAllowedBalance : Nat) (report : PacketReport) : State :=
  if report.uplink then
    let debit := debitIfSufficient minimumAllowedBalance (s.chain report.payer)
      (s.payerAccounts report.payer) report.debitAmount
    { s with
      payerAccounts := Function.update s.payerAccounts report.payer (some debit.2)
      fileBurns :=
        if debit.1.isSome then s.fileBurns ++ [(report.payer, report.debitAmount)]
        else s.fileBurns }
  else s

/-- `handle_file` commits: the file's upserts take effect together. -/
def commitFile (s : State) : Option State :=
  (addBurnedAmounts s.pendingBurns s.fileBurns).map fun pendingBurns =>
    { s with
      pendingBurns
      fileBurns := []
      debited := fun payer => s.debited payer + burnsTotal s.fileBurns payer }

/-- `fetch_next_burn` returns the payer's row and `make_burn_transaction` builds
a burn of its amount under a fresh signature. -/
def startBurn (s : State) (payer : Nat) : Option State :=
  (fetchNextBurn s.pendingBurns payer).map fun amount =>
    { s with phase := .made ⟨s.nextSignature, payer, amount⟩, nextSignature := s.nextSignature + 1 }

def addPending (s : State) (txn : BurnTxn) : Option State :=
  (addPendingTransaction s.pendingTxns txn.row).map fun pendingTxns =>
    { s with pendingTxns, phase := .added txn }

/-- The chain's record of a transaction; a burn lands only if the escrow holds
its amount, and then takes it. -/
def onChain (s : State) (txn : BurnTxn) (landing : Landing) : Option State :=
  let network := Function.update s.network txn.signature (some ⟨txn.payer, txn.amount, landing⟩)
  match landing with
  | .landed =>
    if txn.amount ≤ s.chain txn.payer then
      some { s with
        network
        chain := Function.update s.chain txn.payer (s.chain txn.payer - txn.amount)
        burned := Function.update s.burned txn.payer (s.burned txn.payer + txn.amount) }
    else none
  | _ => some { s with network }

def submit (s : State) (txn : BurnTxn) : SubmitOutcome → Option State
  | .confirmed => (s.onChain txn .landed).map fun s' => { s' with phase := .submitted txn }
  | .failedLanded =>
    (s.onChain txn .landed).map fun s' => { s' with phase := .confirming s.pendingTxns false }
  | .failedInFlight =>
    (s.onChain txn .inFlight).map fun s' => { s' with phase := .confirming s.pendingTxns false }

/-- The pending-tables transaction of `Burner::burn`: remove the pending
transaction and subtract its amount, committed together. -/
def commitBurn (s : State) (txn : BurnTxn) : Option State :=
  (subtractBurnedAmount s.pendingBurns txn.payer txn.amount).map fun pendingBurns =>
    { s with
      pendingBurns
      pendingTxns := removePendingTransaction s.pendingTxns txn.signature
      phase := .committed txn }

/-- The cache update after a confirmed burn. The `unwrap` on a payer without an
account panics, which ends the process: no step. -/
def settleAccount (s : State) (payer amount : Nat) : Option State :=
  (s.payerAccounts payer).map fun account =>
    { s with payerAccounts := Function.update s.payerAccounts payer (some (account.settleBurn amount)) }

def updateBalances (s : State) (txn : BurnTxn) : Option State :=
  (s.settleAccount txn.payer txn.amount).map fun s' => { s' with phase := .idle }

/-- One iteration of `confirm_pending_txns`: the row is removed whether or not
its transaction is confirmed, and the amount subtracted only if it is. -/
def confirmRow (s : State) (row : PendingTxn) (rest : List PendingTxn) (startup : Bool) :
    Option State :=
  let removed := { s with
    pendingTxns := removePendingTransaction s.pendingTxns row.signature
    phase := .confirming rest startup }
  if confirmTransaction s.network row.signature then
    (subtractBurnedAmount s.pendingBurns row.payer row.amount).bind fun pendingBurns =>
      { removed with pendingBurns }.settleAccount row.payer row.amount
  else some removed

/-- A transaction in flight lands. -/
def land (s : State) (signature : Nat) : Option State :=
  match s.network signature with
  | some ⟨payer, amount, .inFlight⟩ => s.onChain ⟨signature, payer, amount⟩ .landed
  | _ => none

/-- A transaction in flight will never land. -/
def drop (s : State) (signature : Nat) : Option State :=
  match s.network signature with
  | some ⟨payer, amount, .inFlight⟩ => s.onChain ⟨signature, payer, amount⟩ .dropped
  | _ => none

def deposit (s : State) (payer amount : Nat) : State :=
  { s with chain := Function.update s.chain payer (s.chain payer + amount) }

/-- `set_balance` of `monitor_funds` for a payer whose escrow is back above the
minimum; `or_default` creates the account if it is missing. -/
def setBalance (s : State) (minimumAllowedBalance payer : Nat) : Option State :=
  if minimumAllowedBalance ≤ s.chain payer then
    some { s with
      payerAccounts := Function.update s.payerAccounts payer
        (some { (s.payerAccounts payer).getD ⟨0, 0⟩ with balance := s.chain payer }) }
  else none

/-- The process starts again: the open file transaction rolls back,
`BalanceCache::new` reads every `pending_burns` row with the payer's escrow, and
`confirm_pending_txns` runs before the verifier and the burner start. -/
def restart (s : State) : State :=
  { s with
    payerAccounts := fun payer =>
      (s.pendingBurns payer).map fun amount => ⟨s.chain payer, toUnsigned 64 amount⟩
    fileBurns := []
    phase := .confirming s.pendingTxns true }

end State

inductive Action
  | verify (report : PacketReport)
  | commitFile
  | burn (payer : Nat)
  | addPending
  | submit (outcome : SubmitOutcome)
  | commitBurn
  | updateBalances
  | burnFailed
  | confirmNext
  | confirmDone
  | land (signature : Nat)
  | drop (signature : Nat)
  | deposit (payer amount : Nat)
  | monitor (payer : Nat)
  | restart
deriving DecidableEq, Repr

/-- One step of the system; `minimumAllowedBalance` is the setting that both the
verifier's debit threshold and `monitor_funds` read. -/
def step (minimumAllowedBalance : Nat) (s : State) : Action → Option State
  | .verify report =>
    if s.phase.startup then none else some (s.verifyReport minimumAllowedBalance report)
  | .commitFile => if s.phase.startup then none else s.commitFile
  | .burn payer => if s.phase = .idle then s.startBurn payer else none
  | .addPending =>
    match s.phase with
    | .made txn => s.addPending txn
    | _ => none
  | .submit outcome =>
    match s.phase with
    | .added txn => s.submit txn outcome
    | _ => none
  | .commitBurn =>
    match s.phase with
    | .submitted txn => s.commitBurn txn
    | _ => none
  | .updateBalances =>
    match s.phase with
    | .committed txn => s.updateBalances txn
    | _ => none
  | .burnFailed =>
    if s.phase.burning then some { s with phase := .confirming s.pendingTxns false } else none
  | .confirmNext =>
    match s.phase with
    | .confirming (row :: rest) startup => s.confirmRow row rest startup
    | _ => none
  | .confirmDone =>
    match s.phase with
    | .confirming [] _ => some { s with phase := .idle }
    | _ => none
  | .land signature => s.land signature
  | .drop signature => s.drop signature
  | .deposit payer amount => some (s.deposit payer amount)
  | .monitor payer =>
    if s.phase.startup then none else s.setBalance minimumAllowedBalance payer
  | .restart => some s.restart

/-! ## What each action can do -/

section Inversion

variable {m : Nat} {s s' : State}

theorem step_verify {report : PacketReport} (moved : step m s (.verify report) = some s') :
    s.phase.startup = false ∧ s' = s.verifyReport m report := by
  simp only [step] at moved
  split at moved
  · cases moved
  · rename_i running
    exact ⟨by simpa using running, (Option.some.inj moved).symm⟩

theorem step_commitFile (moved : step m s .commitFile = some s') :
    s.phase.startup = false ∧ s.commitFile = some s' := by
  simp only [step] at moved
  split at moved
  · cases moved
  · rename_i running
    exact ⟨by simpa using running, moved⟩

theorem step_burn {payer : Nat} (moved : step m s (.burn payer) = some s') :
    s.phase = .idle ∧ s.startBurn payer = some s' := by
  simp only [step] at moved
  split at moved
  · exact ⟨‹_›, moved⟩
  · cases moved

theorem step_addPending (moved : step m s .addPending = some s') :
    ∃ txn, s.phase = .made txn ∧ s.addPending txn = some s' := by
  simp only [step] at moved
  split at moved
  · exact ⟨_, ‹_›, moved⟩
  · cases moved

theorem step_submit {outcome : SubmitOutcome} (moved : step m s (.submit outcome) = some s') :
    ∃ txn, s.phase = .added txn ∧ s.submit txn outcome = some s' := by
  simp only [step] at moved
  split at moved
  · exact ⟨_, ‹_›, moved⟩
  · cases moved

theorem step_commitBurn (moved : step m s .commitBurn = some s') :
    ∃ txn, s.phase = .submitted txn ∧ s.commitBurn txn = some s' := by
  simp only [step] at moved
  split at moved
  · exact ⟨_, ‹_›, moved⟩
  · cases moved

theorem step_updateBalances (moved : step m s .updateBalances = some s') :
    ∃ txn, s.phase = .committed txn ∧ s.updateBalances txn = some s' := by
  simp only [step] at moved
  split at moved
  · exact ⟨_, ‹_›, moved⟩
  · cases moved

theorem step_burnFailed (moved : step m s .burnFailed = some s') :
    s.phase.burning = true ∧ s' = { s with phase := .confirming s.pendingTxns false } := by
  simp only [step] at moved
  split at moved
  · exact ⟨‹_›, (Option.some.inj moved).symm⟩
  · cases moved

theorem step_confirmNext (moved : step m s .confirmNext = some s') :
    ∃ row rest startup, s.phase = .confirming (row :: rest) startup ∧
      s.confirmRow row rest startup = some s' := by
  simp only [step] at moved
  split at moved
  · exact ⟨_, _, _, ‹_›, moved⟩
  · cases moved

theorem step_confirmDone (moved : step m s .confirmDone = some s') :
    ∃ startup, s.phase = .confirming [] startup ∧ s' = { s with phase := .idle } := by
  simp only [step] at moved
  split at moved
  · exact ⟨_, ‹_›, (Option.some.inj moved).symm⟩
  · cases moved

theorem step_monitor {payer : Nat} (moved : step m s (.monitor payer) = some s') :
    s.phase.startup = false ∧ s.setBalance m payer = some s' := by
  simp only [step] at moved
  split at moved
  · cases moved
  · rename_i running
    exact ⟨by simpa using running, moved⟩

/-! ### The transitions, one spec lemma each -/

/-- A report is skipped, refused (the cache still gets the payer's account), or
debited with an `add_burned_amount` in the open file transaction. -/
theorem verifyReport_eq (report : PacketReport) :
    s.verifyReport m report = s ∨
      (∃ account, s.verifyReport m report = { s with
        payerAccounts := Function.update s.payerAccounts report.payer (some account) }) ∨
      (∃ account, s.verifyReport m report = { s with
        payerAccounts := Function.update s.payerAccounts report.payer (some account)
        fileBurns := s.fileBurns ++ [(report.payer, report.debitAmount)] }) := by
  unfold State.verifyReport
  split
  · let debit := debitIfSufficient m (s.chain report.payer) (s.payerAccounts report.payer)
      report.debitAmount
    by_cases debited : debit.1.isSome
    · exact .inr (.inr ⟨debit.2, by simp only [debit, debited, if_true]⟩)
    · exact .inr (.inl ⟨debit.2, by simp only [debit, debited, Bool.false_eq_true, if_false]⟩)
  · exact .inl rfl

/-- A report touches only the cache and the open file transaction. -/
theorem verifyReport_frame (report : PacketReport) :
    ∃ payerAccounts fileBurns, s.verifyReport m report = { s with payerAccounts, fileBurns } := by
  rcases verifyReport_eq report with same | ⟨account, refused⟩ | ⟨account, debited⟩
  · exact ⟨s.payerAccounts, s.fileBurns, same⟩
  · exact ⟨_, _, refused⟩
  · exact ⟨_, _, debited⟩

theorem commitFile_eq (moved : s.commitFile = some s') :
    ∃ pendingBurns, addBurnedAmounts s.pendingBurns s.fileBurns = some pendingBurns ∧
      s' = { s with
        pendingBurns
        fileBurns := []
        debited := fun payer => s.debited payer + burnsTotal s.fileBurns payer } := by
  obtain ⟨pendingBurns, upserted, rfl⟩ := Option.map_eq_some_iff.mp moved
  exact ⟨pendingBurns, upserted, rfl⟩

theorem startBurn_eq {payer : Nat} (moved : s.startBurn payer = some s') :
    ∃ amount, fetchNextBurn s.pendingBurns payer = some amount ∧
      s' = { s with
        phase := .made ⟨s.nextSignature, payer, amount⟩
        nextSignature := s.nextSignature + 1 } := by
  obtain ⟨amount, fetched, rfl⟩ := Option.map_eq_some_iff.mp moved
  exact ⟨amount, fetched, rfl⟩

theorem addPending_eq {txn : BurnTxn} (moved : s.addPending txn = some s') :
    txn.signature ∉ s.pendingTxns.map (·.signature) ∧
      s' = { s with pendingTxns := s.pendingTxns ++ [txn.row], phase := .added txn } := by
  obtain ⟨pendingTxns, inserted, rfl⟩ := Option.map_eq_some_iff.mp moved
  unfold addPendingTransaction at inserted
  split at inserted
  · cases inserted
  · cases inserted
    exact ⟨‹_›, rfl⟩

theorem onChain_eq {txn : BurnTxn} {landing : Landing} (moved : s.onChain txn landing = some s') :
    ∃ chain burned, s' = { s with
        network := Function.update s.network txn.signature (some ⟨txn.payer, txn.amount, landing⟩)
        chain
        burned } ∧
      burned = if landing = .landed then
        Function.update s.burned txn.payer (s.burned txn.payer + txn.amount) else s.burned := by
  cases landing with
  | landed =>
    simp only [State.onChain] at moved
    by_cases enough : txn.amount ≤ s.chain txn.payer
    · rw [if_pos enough] at moved
      cases moved
      exact ⟨_, _, rfl, by simp⟩
    · rw [if_neg enough] at moved
      cases moved
  | inFlight =>
    cases moved
    exact ⟨s.chain, s.burned, rfl, by simp⟩
  | dropped =>
    cases moved
    exact ⟨s.chain, s.burned, rfl, by simp⟩

theorem submit_eq {txn : BurnTxn} {outcome : SubmitOutcome} (moved : s.submit txn outcome = some s') :
    ∃ landing after, s.onChain txn landing = some after ∧
      (outcome = .confirmed ∧ landing = .landed ∧ s' = { after with phase := .submitted txn } ∨
        outcome ≠ .confirmed ∧ (landing = .landed ∨ landing = .inFlight) ∧
          s' = { after with phase := .confirming s.pendingTxns false }) := by
  cases outcome with
  | confirmed =>
    unfold State.submit at moved
    obtain ⟨after, chained, rfl⟩ := Option.map_eq_some_iff.mp moved
    exact ⟨.landed, after, chained, .inl ⟨rfl, rfl, rfl⟩⟩
  | failedLanded =>
    unfold State.submit at moved
    obtain ⟨after, chained, rfl⟩ := Option.map_eq_some_iff.mp moved
    exact ⟨.landed, after, chained, .inr ⟨by decide, .inl rfl, rfl⟩⟩
  | failedInFlight =>
    unfold State.submit at moved
    obtain ⟨after, chained, rfl⟩ := Option.map_eq_some_iff.mp moved
    exact ⟨.inFlight, after, chained, .inr ⟨by decide, .inr rfl, rfl⟩⟩

theorem commitBurn_eq {txn : BurnTxn} (moved : s.commitBurn txn = some s') :
    ∃ pendingBurns, subtractBurnedAmount s.pendingBurns txn.payer txn.amount = some pendingBurns ∧
      s' = { s with
        pendingBurns
        pendingTxns := removePendingTransaction s.pendingTxns txn.signature
        phase := .committed txn } := by
  obtain ⟨pendingBurns, subtracted, rfl⟩ := Option.map_eq_some_iff.mp moved
  exact ⟨pendingBurns, subtracted, rfl⟩

theorem settleAccount_eq {payer amount : Nat} (moved : s.settleAccount payer amount = some s') :
    ∃ account, s.payerAccounts payer = some account ∧
      s' = { s with
        payerAccounts := Function.update s.payerAccounts payer (some (account.settleBurn amount)) } := by
  obtain ⟨account, found, rfl⟩ := Option.map_eq_some_iff.mp moved
  exact ⟨account, found, rfl⟩

theorem updateBalances_eq {txn : BurnTxn} (moved : s.updateBalances txn = some s') :
    ∃ account, s.payerAccounts txn.payer = some account ∧
      s' = { s with
        payerAccounts := Function.update s.payerAccounts txn.payer
          (some (account.settleBurn txn.amount))
        phase := .idle } := by
  obtain ⟨settled, settling, rfl⟩ := Option.map_eq_some_iff.mp moved
  obtain ⟨account, found, rfl⟩ := settleAccount_eq settling
  exact ⟨account, found, rfl⟩

/-- A confirmed row is removed with its amount subtracted and the account
settled; any other row is only removed. -/
theorem confirmRow_eq {row : PendingTxn} {rest : List PendingTxn} {startup : Bool}
    (moved : s.confirmRow row rest startup = some s') :
    (confirmTransaction s.network row.signature = true ∧
      ∃ pendingBurns account,
        subtractBurnedAmount s.pendingBurns row.payer row.amount = some pendingBurns ∧
        s.payerAccounts row.payer = some account ∧
        s' = { s with
          pendingTxns := removePendingTransaction s.pendingTxns row.signature
          phase := .confirming rest startup
          pendingBurns
          payerAccounts := Function.update s.payerAccounts row.payer
            (some (account.settleBurn row.amount)) }) ∨
    (confirmTransaction s.network row.signature = false ∧
      s' = { s with
        pendingTxns := removePendingTransaction s.pendingTxns row.signature
        phase := .confirming rest startup }) := by
  unfold State.confirmRow at moved
  split at moved
  · rename_i confirmed
    obtain ⟨pendingBurns, subtracted, settling⟩ := Option.bind_eq_some_iff.mp moved
    obtain ⟨account, found, rfl⟩ := settleAccount_eq settling
    exact .inl ⟨confirmed, pendingBurns, account, subtracted, found, rfl⟩
  · rename_i unconfirmed
    cases moved
    exact .inr ⟨by simpa using unconfirmed, rfl⟩

theorem land_eq {signature : Nat} (moved : s.land signature = some s') :
    ∃ payer amount, s.network signature = some ⟨payer, amount, .inFlight⟩ ∧
      s.onChain ⟨signature, payer, amount⟩ .landed = some s' := by
  unfold State.land at moved
  split at moved
  · exact ⟨_, _, ‹_›, moved⟩
  · cases moved

theorem drop_eq {signature : Nat} (moved : s.drop signature = some s') :
    ∃ payer amount, s.network signature = some ⟨payer, amount, .inFlight⟩ ∧
      s' = { s with
        network := Function.update s.network signature (some ⟨payer, amount, .dropped⟩) } := by
  unfold State.drop at moved
  split at moved
  · rename_i payer amount found
    cases moved
    exact ⟨payer, amount, found, rfl⟩
  · cases moved

theorem setBalance_eq {payer : Nat} (moved : s.setBalance m payer = some s') :
    ∃ account, s' = { s with payerAccounts := Function.update s.payerAccounts payer (some account) } := by
  unfold State.setBalance at moved
  split at moved
  · cases moved
    exact ⟨_, rfl⟩
  · cases moved

end Inversion

/-! ## A debit inside the burn window

From a 20000 DC escrow with the threshold at 10000: a file debits 15000 DC, the
burner burns them, and before it takes the cache mutex a 1 DC debit finds 4999
DC left, below the threshold, and refetches an escrow that already lacks the
burn. The cached `burned` still counts the 15000. -/

/-- The escrows of the run: 20000 DC for payer 0. -/
def burnWindowChain (payer : Nat) : Nat := if payer = 0 then 20000 else 0

/-- Until the burn of the 15000 DC lands. -/
def burnWindowLanded : List Action :=
  [.confirmDone, .verify ⟨0, 360000, false, true⟩, .commitFile, .burn 0, .addPending,
    .submit .confirmed]

/-- The 1 DC debit in the window, then the burner and the file finish. -/
def burnWindowSettled : List Action :=
  [.verify ⟨0, 24, false, true⟩, .commitBurn, .updateBalances, .commitFile]

theorem burn_window_overdraws_cache :
    (∃ s, Reach (step 10000) (State.initial burnWindowChain) s ∧ s.phase.startup = false ∧
      debitIfSufficient 10000 (s.chain 0) (s.payerAccounts 0)
          (⟨0, 24, false, true⟩ : PacketReport).debitAmount =
        (some (wrappingSub 64 5000 15001), ⟨5000, 15001⟩) ∧
      PayerAccount.Overdrawn ⟨5000, 15001⟩) ∧
    (∃ s, Reach (step 10000) (State.initial burnWindowChain) s ∧
      s.phase = .idle ∧ s.pendingTxns = [] ∧ s.fileBurns = [] ∧
      s.payerAccounts 0 = some ⟨0, 1⟩ ∧ s.chain 0 = 5000 ∧ pendingAmount s.pendingBurns 0 = 1) :=
  ⟨exists_reach_of_run burnWindowLanded (by decide),
    exists_reach_of_run (burnWindowLanded ++ burnWindowSettled) (by decide)⟩

end HeliumOracles.IotPacketVerifier

import HeliumOracles.Lib.Tally
import HeliumOracles.IotPacketVerifier.WellFormed

/-!
# Burns against debits

Whether the burner burns each debited DC at most once. `confirm_pending_txns`
waits a minute after a transaction's submission and then removes its
`pending_txns` row "regardless of whether or not it has been confirmed",
subtracting the amount from `pending_burns` only if it has. A transaction that
lands after that check has burned DC on chain that `pending_burns` still holds,
and the next burn takes them again (`late_landing_burns_twice`).

Under the assumption the wait stands for, that a transaction has landed or will
never land by the time its row is checked (`checksSettled`), the books balance:
every payer's `pending_burns` amount is its debits minus its burns plus the
burns that landed and are still to be subtracted, and its burns plus whatever
may still land stay within its debits (`Ledger`). So no payer is ever burned
more than it was debited, and once every submission is settled `pending_burns`
holds exactly the difference (`burns_within_debits`).
-/
namespace HeliumOracles.IotPacketVerifier

open Lib.Word Lib.Tally Lib.Transition

/-- The chain's landing for a signature, if it has received the transaction. -/
def landingOf (network : Nat → Option Submission) (signature : Nat) : Option Landing :=
  (network signature).map (·.landing)

theorem confirmTransaction_eq_true {network : Nat → Option Submission} {signature : Nat} :
    confirmTransaction network signature = true ↔ landingOf network signature = some .landed := by
  unfold confirmTransaction landingOf
  cases network signature with
  | none => simp
  | some submission => simp

/-- A `pending_txns` row of the payer whose transaction is in the given landing
counts its amount. -/
def rowWeight (network : Nat → Option Submission) (landing : Landing) (payer : Nat)
    (row : PendingTxn) : Int :=
  if row.payer = payer ∧ landingOf network row.signature = some landing then row.amount else 0

/-- The burn the burner holds before submitting it. -/
def inHand : BurnerPhase → Nat → Int
  | .made txn, payer | .added txn, payer => if txn.payer = payer then txn.amount else 0
  | _, _ => 0

/-- Every submission has landed or will never land, and no row is left to check. -/
def Settled (s : State) : Prop :=
  s.pendingTxns = [] ∧
    ∀ signature submission, s.network signature = some submission → submission.landing ≠ .inFlight

/-- The assumption behind the one-minute wait of `confirm_pending_txns`: when a
row is checked, its transaction has landed or will never land. -/
def checksSettled (s : State) : Action → Bool
  | .confirmNext =>
    match s.phase with
    | .confirming (row :: _) _ => landingOf s.network row.signature != some .inFlight
    | _ => true
  | _ => true

/-- The books of the burner. `pending_burns` holds the debits not burned, plus
the landed burns whose rows still wait for their subtraction; the burns, plus the
transactions in flight and the burn in the burner's hands, stay within the
debits. A transaction in flight still has its row. -/
structure Ledger (s : State) : Prop where
  wellFormed : WellFormed s
  inFlightRow : ∀ signature submission, s.network signature = some submission →
    submission.landing = .inFlight → signature ∈ s.pendingTxns.map (·.signature)
  pending : ∀ payer, pendingAmount s.pendingBurns payer =
    s.debited payer - s.burned payer + tally (rowWeight s.network .landed payer) s.pendingTxns
  bounded : ∀ payer, s.burned payer + tally (rowWeight s.network .inFlight payer) s.pendingTxns +
    inHand s.phase payer ≤ s.debited payer

section Weights

variable {network : Nat → Option Submission} {landing : Landing} {payer : Nat} {row : PendingTxn}

theorem rowWeight_nonneg : 0 ≤ rowWeight network landing payer row := by
  unfold rowWeight
  split <;> omega

theorem inHand_nonneg (phase : BurnerPhase) : 0 ≤ inHand phase payer := by
  unfold inHand
  split
  all_goals (try split) <;> omega

theorem rowWeight_update_of_ne {signature : Nat} {entry : Option Submission}
    (different : row.signature ≠ signature) :
    rowWeight (Function.update network signature entry) landing payer row =
      rowWeight network landing payer row := by
  simp [rowWeight, landingOf, Function.update_of_ne different]

theorem rowWeight_update_self {entry : Submission} :
    rowWeight (Function.update network row.signature (some entry)) landing payer row =
      if row.payer = payer ∧ entry.landing = landing then (row.amount : Int) else 0 := by
  simp [rowWeight, landingOf]

theorem rowWeight_eq_zero (absent : landingOf network row.signature ≠ some landing) :
    rowWeight network landing payer row = 0 := by
  unfold rowWeight
  simp [absent]

theorem rowWeight_of_eq (found : landingOf network row.signature = some landing) :
    rowWeight network landing payer row = if row.payer = payer then (row.amount : Int) else 0 := by
  unfold rowWeight
  rw [found]
  simp

theorem rowWeight_of_none (found : network row.signature = none) :
    rowWeight network landing payer row = 0 :=
  rowWeight_eq_zero (by simp [landingOf, found])

end Weights

theorem ledger_initial (chain : Nat → Nat) : Ledger (State.initial chain) where
  wellFormed := wellFormed_initial chain
  inFlightRow := by
    intro _ _ found
    cases found
  pending := by
    intro payer
    simp [State.initial, pendingAmount]
  bounded := by
    intro payer
    simp [State.initial, inHand]

section Preservation

variable {m : Nat} {s s' : State}

/-- A step that leaves the tables, the chain's records and the ghost counts
alone, and puts no burn into the burner's hands, keeps the books. -/
theorem Ledger.of_books (before : Ledger s) (wellFormed : WellFormed s')
    (pendingBurns : s'.pendingBurns = s.pendingBurns) (pendingTxns : s'.pendingTxns = s.pendingTxns)
    (network : s'.network = s.network) (debited : s'.debited = s.debited)
    (burned : s'.burned = s.burned) (held : ∀ payer, inHand s'.phase payer ≤ inHand s.phase payer) :
    Ledger s' := by
  refine ⟨wellFormed, ?_, ?_, ?_⟩
  · rw [network, pendingTxns]
    exact before.inFlightRow
  · intro payer
    rw [pendingBurns, debited, burned, network, pendingTxns]
    exact before.pending payer
  · intro payer
    have bound := before.bounded payer
    have less := held payer
    rw [debited, burned, network, pendingTxns]
    omega

theorem commitFile_ledger (before : Ledger s) (moved : s.commitFile = some s') : Ledger s' := by
  have wellFormed := commitFile_wellFormed before.wellFormed moved
  obtain ⟨pendingBurns, upserted, rfl⟩ := commitFile_eq moved
  obtain ⟨amounts, -, -, -⟩ :=
    addBurnedAmounts_spec before.wellFormed.fileSmall before.wellFormed.bigint upserted
  -- the file's debits enter `pending_burns` and the debited count alike
  refine ⟨wellFormed, before.inFlightRow, ?_, ?_⟩
  · intro payer
    have owed := before.pending payer
    dsimp only
    rw [amounts payer]
    push_cast
    omega
  · intro payer
    have bound := before.bounded payer
    dsimp only
    push_cast
    omega

theorem startBurn_ledger {payer : Nat} (before : Ledger s) (idle : s.phase = .idle)
    (moved : s.startBurn payer = some s') : Ledger s' := by
  have wellFormed := startBurn_wellFormed before.wellFormed idle moved
  obtain ⟨amount, fetched, rfl⟩ := startBurn_eq moved
  obtain ⟨-, taken, -, -⟩ := fetchNextBurn_spec before.wellFormed.bigint fetched
  have empty := before.wellFormed.shape.of_idle idle
  refine ⟨wellFormed, before.inFlightRow, before.pending, ?_⟩
  -- with no row left, the whole pending amount is debits not yet burned
  intro other
  have bound := before.bounded other
  have owed := before.pending payer
  rw [empty, tally_nil] at bound owed
  rw [idle] at bound
  dsimp only
  rw [empty, tally_nil]
  simp only [inHand] at bound ⊢
  split
  · rename_i same
    subst same
    omega
  · omega

theorem addPending_ledger {txn : BurnTxn} (before : Ledger s) (made : s.phase = .made txn)
    (moved : s.addPending txn = some s') : Ledger s' := by
  have wellFormed := addPending_wellFormed before.wellFormed made moved
  obtain ⟨-, rfl⟩ := addPending_eq moved
  obtain ⟨empty, -, unsent, -⟩ := before.wellFormed.shape.of_made made
  -- the new row's transaction is not on chain yet, so it weighs nothing
  refine ⟨wellFormed, ?_, ?_, ?_⟩
  · intro signature submission found unsettled
    have listed := before.inFlightRow signature submission found unsettled
    rw [empty] at listed
    cases listed
  · intro payer
    have owed := before.pending payer
    dsimp only
    rw [tally_append, tally_cons, tally_nil, rowWeight_of_none unsent]
    omega
  · intro payer
    have bound := before.bounded payer
    rw [made] at bound
    dsimp only
    rw [tally_append, tally_cons, tally_nil, rowWeight_of_none unsent]
    simp only [inHand] at bound ⊢
    omega

theorem submit_ledger {txn : BurnTxn} {outcome : SubmitOutcome} (before : Ledger s)
    (added : s.phase = .added txn) (moved : s.submit txn outcome = some s') : Ledger s' := by
  have wellFormed := submit_wellFormed before.wellFormed added moved
  obtain ⟨landing, after, chained, settled⟩ := submit_eq moved
  obtain ⟨chain, burned, rfl, counted⟩ := onChain_eq chained
  obtain ⟨single, -, unsent⟩ := before.wellFormed.shape.of_added added
  -- the only row now weighs by the landing the chain gave its transaction
  have weight : ∀ weighed payer, tally (rowWeight (Function.update s.network txn.signature
      (some ⟨txn.payer, txn.amount, landing⟩)) weighed payer) s.pendingTxns =
        if txn.payer = payer ∧ landing = weighed then (txn.amount : Int) else 0 := by
    intro weighed payer
    rw [single, tally_cons, tally_nil, add_zero]
    exact rowWeight_update_self
  have unweighed : ∀ weighed payer, tally (rowWeight s.network weighed payer) s.pendingTxns = 0 := by
    intro weighed payer
    rw [single, tally_cons, tally_nil, add_zero]
    exact rowWeight_of_none unsent
  have kept : ∀ signature submission, Function.update s.network txn.signature
      (some ⟨txn.payer, txn.amount, landing⟩) signature = some submission →
        submission.landing = .inFlight → signature ∈ s.pendingTxns.map (·.signature) := by
    intro signature submission found unsettled
    by_cases same : signature = txn.signature
    · rw [single, same]
      simp [BurnTxn.row]
    · rw [Function.update_of_ne same] at found
      exact before.inFlightRow signature submission found unsettled
  have released : ∀ payer, (s.burned payer : Int) + inHand s.phase payer ≤ s.debited payer := by
    intro payer
    have bound := before.bounded payer
    rw [unweighed] at bound
    omega
  rw [added] at released
  rcases settled with ⟨-, rfl, rfl⟩ | ⟨-, kind, rfl⟩
  · -- the burn landed and `Burner::burn` goes on to its table update
    refine ⟨wellFormed, kept, ?_, ?_⟩
    · intro payer
      have owed := before.pending payer
      rw [unweighed] at owed
      have hold := released payer
      show _ = _ - ((burned payer : Nat) : Int) + _
      rw [weight, counted, if_pos rfl]
      by_cases same : txn.payer = payer
      · subst same
        simp
        omega
      · simp [same, Function.update_of_ne (Ne.symm same)]
        omega
    · intro payer
      have hold := released payer
      show ((burned payer : Nat) : Int) + _ + inHand (.submitted txn) payer ≤ _
      rw [weight, counted, if_pos rfl]
      simp only [inHand] at hold ⊢
      by_cases same : txn.payer = payer
      · subst same
        simp at hold ⊢
        omega
      · simp [same, Function.update_of_ne (Ne.symm same)] at hold ⊢
        omega
  · -- an error: whatever the chain did, `confirm_pending_txns` runs next
    refine ⟨wellFormed, kept, ?_, ?_⟩
    · intro payer
      have owed := before.pending payer
      rw [unweighed] at owed
      show _ = _ - ((burned payer : Nat) : Int) + _
      rw [weight, counted]
      rcases kind with rfl | rfl
      · by_cases same : txn.payer = payer
        · subst same
          simp
          omega
        · simp [same, Function.update_of_ne (Ne.symm same)]
          omega
      · simp
        omega
    · intro payer
      have hold := released payer
      show ((burned payer : Nat) : Int) + _ + inHand (.confirming s.pendingTxns false) payer ≤ _
      rw [weight, counted]
      simp only [inHand] at hold ⊢
      rcases kind with rfl | rfl
      · by_cases same : txn.payer = payer
        · subst same
          simp at hold ⊢
          omega
        · simp [same, Function.update_of_ne (Ne.symm same)] at hold ⊢
          omega
      · by_cases same : txn.payer = payer
        · subst same
          simp at hold ⊢
          omega
        · simp [same] at hold ⊢
          omega

theorem commitBurn_ledger {txn : BurnTxn} (before : Ledger s)
    (submitted : s.phase = .submitted txn) (moved : s.commitBurn txn = some s') : Ledger s' := by
  have wellFormed := commitBurn_wellFormed before.wellFormed submitted moved
  obtain ⟨pendingBurns, subtracted, rfl⟩ := commitBurn_eq moved
  obtain ⟨single, landed⟩ := before.wellFormed.shape.of_submitted submitted
  have backed := before.wellFormed.backed txn.row (by simp [single])
  obtain ⟨amounts, -, -⟩ := subtractBurnedAmount_spec backed.1 before.wellFormed.bigint subtracted
  have removed : removePendingTransaction s.pendingTxns txn.signature = [] := by
    simp [removePendingTransaction, single, BurnTxn.row]
  have found : landingOf s.network txn.row.signature = some .landed := by
    simp [landingOf, BurnTxn.row, landed]
  refine ⟨wellFormed, ?_, ?_, ?_⟩
  · -- nothing is in flight: its row would be the one of the landed burn
    intro signature submission present unsettled
    have listed := before.inFlightRow signature submission present unsettled
    rw [single] at listed
    simp only [List.map_cons, List.map_nil, List.mem_singleton, BurnTxn.row] at listed
    rw [listed, landed, Option.some.injEq] at present
    rw [← present] at unsettled
    cases unsettled
  · intro payer
    have owed := before.pending payer
    rw [single, tally_cons, tally_nil, rowWeight_of_eq found] at owed
    show pendingAmount pendingBurns payer = _ - _ +
      tally _ (removePendingTransaction s.pendingTxns txn.signature)
    rw [removed, tally_nil, amounts payer, toSigned_of_lt backed.2]
    by_cases same : payer = txn.payer
    · subst same
      simp only [BurnTxn.row, if_true] at owed ⊢
      omega
    · simp only [BurnTxn.row, same, Ne.symm same, if_false] at owed ⊢
      omega
  · intro payer
    have bound := before.bounded payer
    have waiting : 0 ≤ tally (rowWeight s.network .inFlight payer) s.pendingTxns :=
      tally_nonneg fun _ _ => rowWeight_nonneg
    show _ + tally _ (removePendingTransaction s.pendingTxns txn.signature) +
      inHand (.committed txn) payer ≤ _
    rw [removed, tally_nil]
    rw [submitted] at bound
    simp only [inHand] at bound ⊢
    omega

theorem confirmRow_ledger {row : PendingTxn} {rest : List PendingTxn} {startup : Bool}
    (before : Ledger s) (confirming : s.phase = .confirming (row :: rest) startup)
    (timely : landingOf s.network row.signature ≠ some .inFlight)
    (moved : s.confirmRow row rest startup = some s') : Ledger s' := by
  have wellFormed := confirmRow_wellFormed before.wellFormed confirming moved
  have listed := before.wellFormed.shape.of_confirming confirming
  have unique := before.wellFormed.unique
  rw [listed] at unique
  have removed : removePendingTransaction s.pendingTxns row.signature = rest := by
    rw [listed]
    exact removePendingTransaction_head unique
  -- the checked row is not in flight, so it never counts as outstanding
  have quiet : ∀ payer, rowWeight s.network .inFlight payer row = 0 :=
    fun _ => rowWeight_eq_zero timely
  have inFlightRow : ∀ signature submission, s.network signature = some submission →
      submission.landing = .inFlight → signature ∈ rest.map (·.signature) := by
    intro signature submission found unsettled
    have listed' := before.inFlightRow signature submission found unsettled
    rw [listed, List.map_cons, List.mem_cons] at listed'
    rcases listed' with same | later
    · rw [← same] at timely
      simp [landingOf, found, unsettled] at timely
    · exact later
  have bounded : ∀ payer, (s.burned payer : Int) + tally (rowWeight s.network .inFlight payer) rest +
      inHand (.confirming rest startup) payer ≤ s.debited payer := by
    intro payer
    have bound := before.bounded payer
    rw [listed, tally_cons, quiet, confirming] at bound
    simp only [inHand] at bound ⊢
    omega
  rcases confirmRow_eq moved with ⟨confirmed, pendingBurns, account, subtracted, -, rfl⟩ | ⟨unconfirmed, rfl⟩
  · -- a landed burn: its amount leaves `pending_burns` with its row
    rw [confirmTransaction_eq_true] at confirmed
    have backed := before.wellFormed.backed row (by simp [listed])
    obtain ⟨amounts, -, -⟩ :=
      subtractBurnedAmount_spec backed.1 before.wellFormed.bigint subtracted
    refine ⟨wellFormed, ?_, ?_, ?_⟩
    · show ∀ signature submission, s.network signature = some submission →
        submission.landing = .inFlight →
          signature ∈ (removePendingTransaction s.pendingTxns row.signature).map (·.signature)
      rw [removed]
      exact inFlightRow
    · intro payer
      have owed := before.pending payer
      rw [listed, tally_cons, rowWeight_of_eq confirmed] at owed
      show pendingAmount pendingBurns payer = _ - _ +
        tally _ (removePendingTransaction s.pendingTxns row.signature)
      rw [removed, amounts payer, toSigned_of_lt backed.2]
      by_cases same : payer = row.payer
      · subst same
        simp only [if_true] at owed ⊢
        omega
      · simp only [same, Ne.symm same, if_false] at owed ⊢
        omega
    · intro payer
      show _ + tally _ (removePendingTransaction s.pendingTxns row.signature) + _ ≤ _
      rw [removed]
      exact bounded payer
  · -- a burn that did not land: only its row goes
    have absent : landingOf s.network row.signature ≠ some .landed := by
      intro landed
      rw [← confirmTransaction_eq_true, unconfirmed] at landed
      cases landed
    refine ⟨wellFormed, ?_, ?_, ?_⟩
    · show ∀ signature submission, s.network signature = some submission →
        submission.landing = .inFlight →
          signature ∈ (removePendingTransaction s.pendingTxns row.signature).map (·.signature)
      rw [removed]
      exact inFlightRow
    · intro payer
      have owed := before.pending payer
      rw [listed, tally_cons, rowWeight_eq_zero absent, zero_add] at owed
      show _ = _ - _ + tally _ (removePendingTransaction s.pendingTxns row.signature)
      rw [removed]
      exact owed
    · intro payer
      show _ + tally _ (removePendingTransaction s.pendingTxns row.signature) + _ ≤ _
      rw [removed]
      exact bounded payer

/-- A transaction in flight lands or is dropped: the weights change at its row only. -/
theorem relanding_weights {signature payer amount : Nat} (landing weighed : Landing) (who : Nat)
    (before : Ledger s) (found : s.network signature = some ⟨payer, amount, .inFlight⟩) :
    tally (rowWeight (Function.update s.network signature (some ⟨payer, amount, landing⟩)) weighed who)
        s.pendingTxns + (if payer = who ∧ Landing.inFlight = weighed then (amount : Int) else 0) =
      tally (rowWeight s.network weighed who) s.pendingTxns +
        (if payer = who ∧ landing = weighed then (amount : Int) else 0) := by
  obtain ⟨row, belongs, named⟩ := List.mem_map.mp (before.inFlightRow signature _ found rfl)
  obtain ⟨samePayer, sameAmount⟩ := before.wellFormed.matched row belongs _ (named ▸ found)
  have change : tally (rowWeight (Function.update s.network signature
        (some ⟨payer, amount, landing⟩)) weighed who) s.pendingTxns +
          rowWeight s.network weighed who row =
        tally (rowWeight s.network weighed who) s.pendingTxns +
          rowWeight (Function.update s.network signature (some ⟨payer, amount, landing⟩))
            weighed who row :=
    tally_change_at before.wellFormed.unique belongs
      fun other _ different => rowWeight_update_of_ne (named ▸ different)
  have was : rowWeight s.network weighed who row =
      if payer = who ∧ Landing.inFlight = weighed then (amount : Int) else 0 := by
    simp only [rowWeight, landingOf, named, found, Option.map_some, Option.some.injEq]
    dsimp only at samePayer sameAmount
    rw [samePayer, sameAmount]
  have now : rowWeight (Function.update s.network signature (some ⟨payer, amount, landing⟩))
      weighed who row = if payer = who ∧ landing = weighed then (amount : Int) else 0 := by
    rw [← named, rowWeight_update_self]
    dsimp only at samePayer sameAmount
    rw [samePayer, sameAmount]
  rw [was, now] at change
  exact change

/-- A transaction that stops being in flight leaves every other one with its row. -/
theorem relanded_inFlightRow {signature : Nat} {entry : Submission} (before : Ledger s)
    (settled : entry.landing ≠ .inFlight) :
    ∀ other submission, Function.update s.network signature (some entry) other = some submission →
      submission.landing = .inFlight → other ∈ s.pendingTxns.map (·.signature) := by
  intro other submission present unsettled
  by_cases same : other = signature
  · rw [same, Function.update_self, Option.some.injEq] at present
    rw [← present] at unsettled
    exact absurd unsettled settled
  · rw [Function.update_of_ne same] at present
    exact before.inFlightRow other submission present unsettled

theorem land_ledger {signature : Nat} (before : Ledger s) (moved : s.land signature = some s') :
    Ledger s' := by
  have wellFormed := land_wellFormed before.wellFormed moved
  obtain ⟨payer, amount, found, chained⟩ := land_eq moved
  obtain ⟨chain, burned, rfl, counted⟩ := onChain_eq chained
  rw [if_pos rfl] at counted
  subst counted
  refine ⟨wellFormed, relanded_inFlightRow before (by simp), ?_, ?_⟩
  · -- the burn counts as burned and as landed-but-not-subtracted alike
    intro who
    have owed := before.pending who
    have change := relanding_weights .landed .landed who before found
    dsimp only at change ⊢
    by_cases same : payer = who
    · subst same
      simp only [Function.update_self, true_and, if_true] at change ⊢
      simp at change
      push_cast
      omega
    · simp only [same, false_and, if_false, Function.update_of_ne (Ne.symm same)] at change ⊢
      omega
  · intro who
    have bound := before.bounded who
    have change := relanding_weights .landed .inFlight who before found
    dsimp only at change ⊢
    by_cases same : payer = who
    · subst same
      simp only [Function.update_self, true_and, if_true] at change ⊢
      simp at change
      push_cast
      omega
    · simp only [same, false_and, if_false, Function.update_of_ne (Ne.symm same)] at change ⊢
      omega

theorem drop_ledger {signature : Nat} (before : Ledger s) (moved : s.drop signature = some s') :
    Ledger s' := by
  have wellFormed := drop_wellFormed before.wellFormed moved
  obtain ⟨payer, amount, found, rfl⟩ := drop_eq moved
  refine ⟨wellFormed, relanded_inFlightRow before (by simp), ?_, ?_⟩
  · -- a dropped burn never counted as landed
    intro who
    have owed := before.pending who
    have change := relanding_weights .dropped .landed who before found
    simp only [reduceCtorEq, and_false, if_false, add_zero] at change
    show _ = _ - _ + tally (rowWeight (Function.update s.network signature _) .landed who) _
    rw [change]
    exact owed
  · intro who
    have bound := before.bounded who
    have change := relanding_weights .dropped .inFlight who before found
    simp only [reduceCtorEq, and_false, if_false, add_zero, and_true] at change
    have waiting : 0 ≤ (if payer = who then (amount : Int) else 0) := by
      split <;> omega
    dsimp only
    omega

/-- Every step that the assumption allows keeps the books. -/
theorem checked_step_ledger {action : Action} (before : Ledger s)
    (moved : restrict (step m) (fun s action => checksSettled s action = true) s action = some s') :
    Ledger s' := by
  obtain ⟨allowed, moved⟩ := restrict_some moved
  have wellFormed := step_wellFormed before.wellFormed moved
  have released : ∀ rows startup payer, inHand (.confirming rows startup) payer ≤ inHand s.phase payer :=
    fun _ _ _ => inHand_nonneg s.phase
  cases action with
  | verify report =>
    obtain ⟨-, rfl⟩ := step_verify moved
    obtain ⟨payerAccounts, fileBurns, changed⟩ := verifyReport_frame report
    rw [changed] at wellFormed ⊢
    exact before.of_books wellFormed rfl rfl rfl rfl rfl fun _ => le_refl _
  | commitFile => exact commitFile_ledger before (step_commitFile moved).2
  | burn payer =>
    obtain ⟨idle, started⟩ := step_burn moved
    exact startBurn_ledger before idle started
  | addPending =>
    obtain ⟨txn, made, added⟩ := step_addPending moved
    exact addPending_ledger before made added
  | submit outcome =>
    obtain ⟨txn, added, submitted⟩ := step_submit moved
    exact submit_ledger before added submitted
  | commitBurn =>
    obtain ⟨txn, submitted, committed⟩ := step_commitBurn moved
    exact commitBurn_ledger before submitted committed
  | updateBalances =>
    obtain ⟨txn, committed, updated⟩ := step_updateBalances moved
    obtain ⟨account, -, rfl⟩ := updateBalances_eq updated
    refine before.of_books wellFormed rfl rfl rfl rfl rfl fun payer => ?_
    rw [committed]
    simp [inHand]
  | burnFailed =>
    obtain ⟨-, rfl⟩ := step_burnFailed moved
    exact before.of_books wellFormed rfl rfl rfl rfl rfl (released _ _)
  | confirmNext =>
    obtain ⟨row, rest, startup, confirming, confirmed⟩ := step_confirmNext moved
    -- the assumption is what makes the checked row's landing final
    have timely : landingOf s.network row.signature ≠ some .inFlight := by
      simpa [checksSettled, confirming] using allowed
    exact confirmRow_ledger before confirming timely confirmed
  | confirmDone =>
    obtain ⟨startup, confirming, rfl⟩ := step_confirmDone moved
    refine before.of_books wellFormed rfl rfl rfl rfl rfl fun payer => ?_
    rw [confirming]
    simp [inHand]
  | land signature => exact land_ledger before moved
  | drop signature => exact drop_ledger before moved
  | deposit payer amount =>
    cases moved
    exact before.of_books wellFormed rfl rfl rfl rfl rfl fun _ => le_refl _
  | monitor payer =>
    obtain ⟨account, rfl⟩ := setBalance_eq (step_monitor moved).2
    exact before.of_books wellFormed rfl rfl rfl rfl rfl fun _ => le_refl _
  | restart =>
    cases moved
    exact before.of_books wellFormed rfl rfl rfl rfl rfl (released _ _)

end Preservation

theorem reach_ledger {m : Nat} {chain : Nat → Nat} {s : State}
    (reached : Reach (restrict (step m) fun s action => checksSettled s action = true)
      (State.initial chain) s) : Ledger s := by
  refine reached.invariant Ledger (ledger_initial chain) ?_
  intro s action s' before moved
  exact checked_step_ledger before moved

/-! ## A burn that lands after its row was checked

A file debits 10000 DC. The first burn's submission fails while the transaction
is in flight; `confirm_pending_txns` finds it unconfirmed and removes its row
without a subtraction. The next burn takes the same 10000 DC and lands, and then
the first transaction lands too. -/

def lateLandingActions : List Action :=
  [.confirmDone, .verify ⟨0, 240000, false, true⟩, .commitFile, .burn 0, .addPending,
    .submit .failedInFlight, .confirmNext, .confirmDone, .burn 0, .addPending,
    .submit .confirmed, .commitBurn, .updateBalances, .land 0]

theorem late_landing_burns_twice :
    ∃ s, Reach (step 10000) (State.initial burnWindowChain) s ∧ s.debited 0 < s.burned 0 ∧
      Settled s ∧ pendingAmount s.pendingBurns 0 ≠ s.debited 0 - s.burned 0 := by
  obtain ⟨s, reached, debited, burned, pending, empty, issued, first, second⟩ :
      ∃ s, Reach (step 10000) (State.initial burnWindowChain) s ∧ s.debited 0 = 10000 ∧
        s.burned 0 = 20000 ∧ pendingAmount s.pendingBurns 0 = 0 ∧ s.pendingTxns = [] ∧
        s.nextSignature = 2 ∧ landingOf s.network 0 = some .landed ∧
        landingOf s.network 1 = some .landed :=
    exists_reach_of_run lateLandingActions (by decide)
  have fresh := (reach_wellFormed reached).fresh
  refine ⟨s, reached, by omega, ⟨empty, ?_⟩, by rw [pending, debited, burned]; decide⟩
  -- only the two signatures handed out reached the chain, and both landed
  intro signature submission found
  have handedOut : signature = 0 ∨ signature = 1 := by
    by_contra later
    rw [fresh signature (by omega)] at found
    cases found
  rcases handedOut with rfl | rfl
  · simp only [landingOf, found, Option.map_some, Option.some.injEq] at first
    rw [first]
    decide
  · simp only [landingOf, found, Option.map_some, Option.some.injEq] at second
    rw [second]
    decide

/-- When every checked row's transaction has landed or will never land, no payer
is burned more than it was debited, and once all submissions are settled its
`pending_burns` amount is exactly its debits minus its burns. -/
theorem burns_within_debits {m : Nat} {chain : Nat → Nat} {s : State}
    (reached : Reach (restrict (step m) fun s action => checksSettled s action = true)
      (State.initial chain) s) :
    (∀ payer, s.burned payer ≤ s.debited payer) ∧
      (Settled s → ∀ payer, pendingAmount s.pendingBurns payer = s.debited payer - s.burned payer) := by
  have books := reach_ledger reached
  refine ⟨?_, ?_⟩
  · intro payer
    have bound := books.bounded payer
    have waiting : 0 ≤ tally (rowWeight s.network .inFlight payer) s.pendingTxns :=
      tally_nonneg fun _ _ => rowWeight_nonneg
    have held : 0 ≤ inHand s.phase payer := inHand_nonneg s.phase
    omega
  · intro settled payer
    have owed := books.pending payer
    rw [settled.1, tally_nil, add_zero] at owed
    exact owed

/-- A burn cycle that lands: a file debits 15000 DC and the burner burns them. -/
def landedBurnActions : List Action :=
  [.confirmDone, .verify ⟨0, 360000, false, true⟩, .commitFile, .burn 0, .addPending,
    .submit .confirmed, .commitBurn, .updateBalances]

theorem burns_within_debits_after_burn :
    ∃ s, Reach (restrict (step 10000) fun s action => checksSettled s action = true)
        (State.initial burnWindowChain) s ∧ s.burned 0 = 15000 ∧
      (∀ payer, s.burned payer ≤ s.debited payer) ∧
      (Settled s → ∀ payer, pendingAmount s.pendingBurns payer = s.debited payer - s.burned payer) := by
  obtain ⟨s, reached, burnedAll⟩ :
      ∃ s, Reach (restrict (step 10000) fun s action => checksSettled s action = true)
        (State.initial burnWindowChain) s ∧ s.burned 0 = 15000 :=
    exists_reach_of_run landedBurnActions (by decide)
  exact ⟨s, reached, burnedAll, burns_within_debits reached⟩

end HeliumOracles.IotPacketVerifier

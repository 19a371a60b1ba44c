import Mathlib.Data.List.Nodup
import Mathlib.Data.List.Perm.Basic
import HeliumOracles.Lib.Transition

/-!
# The mobile packet verifier's burner

Model of `Burner::burn` of `mobile_packet_verifier/src/burner.rs`, of the upsert
that `accumulate_sessions` (`accumulate.rs`) makes for each valid report, and of
the loop of `Daemon::run` (`daemon.rs`) that runs them one at a time.

A row of `data_transfer_sessions` (`migrations/2_data_transfer_sessions.sql`, with
`5_rewardable_bytes.sql`) is keyed by `(pub_key, payer)`; the model keeps its
rewardable bytes, and as ghost data the reports it accumulates, numbered in the
order they were accepted. The byte counts the burner only copies into
`ValidDataTransferSession` and the timestamps are left out. Which reports are valid
(`verify_report`) is the environment's choice: the model accumulates the valid ones.

`burn` takes one step per payer and one per session write, so that every point
where it can fail is a state: the Solana calls, the `DELETE`, each write to the
`valid_sessions` sink. A failed `DELETE` or write returns an error from `burn`;
`Daemon::run` then returns it and the process starts again, which is the `restart`
action, available in every state. The payers are handled in the order of their
first row; `HashMap` iteration order is unspecified and no result depends on it.
-/
namespace HeliumOracles.MobilePacketVerifier

open Lib.Transition

/-- `BYTES_PER_DC`. -/
def bytesPerDc : Nat := 20000

/-- `bytes_to_dc`: one DC per started 20000 bytes, and at least one. The sum cannot
wrap: the bytes come from a nonnegative `BIGINT`. -/
def bytesToDc (bytes : Nat) : Nat :=
  let bytes := max bytes bytesPerDc
  (bytes + bytesPerDc - 1) / bytesPerDc

structure DataTransferSession where
  pubKey : Nat
  payer : Nat
  rewardableBytes : Nat
  /-- The reports the row accumulates; not a column. -/
  reports : List Nat
deriving DecidableEq, Repr

/-- `PayerTotals`, with the payer it is keyed by. -/
structure PayerTotals where
  payer : Nat
  totalDcs : Nat
  sessions : List DataTransferSession
deriving DecidableEq, Repr

/-- `PayerTotals::push_sess`. -/
def PayerTotals.pushSess (totals : PayerTotals) (sess : DataTransferSession) : PayerTotals :=
  { totals with
    totalDcs := totals.totalDcs + bytesToDc sess.rewardableBytes
    sessions := totals.sessions ++ [sess] }

/-- `payer_totals.entry(session.payer).or_default().push_sess(session)`. -/
def pushToPayer : List PayerTotals → DataTransferSession → List PayerTotals
  | [], sess => [(PayerTotals.mk sess.payer 0 []).pushSess sess]
  | totals :: rest, sess =>
    if totals.payer = sess.payer then totals.pushSess sess :: rest
    else totals :: pushToPayer rest sess

/-- The grouping loop of `burn` over the fetched sessions. -/
def groupByPayer (sessions : List DataTransferSession) : List PayerTotals :=
  sessions.foldl pushToPayer []

/-- The upsert of `accumulate_sessions` for a valid report: a new row, or the
bytes added to the row of the same `(pub_key, payer)`. -/
def upsertSession (rows : List DataTransferSession) (pubKey payer bytes report : Nat) :
    List DataTransferSession :=
  match rows.find? (fun row => row.pubKey = pubKey ∧ row.payer = payer) with
  | none => rows ++ [⟨pubKey, payer, bytes, [report]⟩]
  | some _ =>
    rows.map fun row =>
      if row.pubKey = pubKey ∧ row.payer = payer then
        { row with rewardableBytes := row.rewardableBytes + bytes, reports := row.reports ++ [report] }
      else row

/-- Where `burn` is. -/
inductive BurnerPhase where
  /-- `Daemon::run` waits for a file or for the burn time. -/
  | idle
  /-- the payers of the `SELECT` not handled yet -/
  | burning (remaining : List PayerTotals)
  /-- the payer's DC are burned; the `DELETE` comes next -/
  | deleting (totals : PayerTotals) (remaining : List PayerTotals)
  /-- the payer's sessions not yet written to `valid_sessions` -/
  | writing (sessions : List DataTransferSession) (remaining : List PayerTotals)
deriving DecidableEq, Repr

/-- What Solana does with a payer's burn: the balance is short, the transaction is
not made or not accepted, `submit_transaction` fails although the transaction
lands, or the burn succeeds. -/
inductive BurnOutcome where
  | insufficientBalance
  | failed
  | failedLanded
  | burned
deriving DecidableEq, Repr

structure State where
  sessions : List DataTransferSession
  phase : BurnerPhase
  /-- The number of reports accepted so far; the next report's number. -/
  nextReport : Nat
  /-- The reports whose DC a landed burn transaction burned, in order. -/
  burnedReports : List Nat
  /-- The `ValidDataTransferSession`s written to the sink, in order. -/
  written : List DataTransferSession
deriving DecidableEq, Repr

def State.initial : State := ⟨[], .idle, 0, [], []⟩

/-- The reports of a payer's fetched sessions. -/
def PayerTotals.reports (totals : PayerTotals) : List Nat :=
  totals.sessions.flatMap (·.reports)

inductive Action where
  /-- a file's transaction upserts one more valid report -/
  | accumulate (pubKey payer bytes : Nat)
  /-- the burn time comes: `SELECT * FROM data_transfer_sessions` and the grouping -/
  | burn
  /-- the loop's next payer -/
  | burnPayer (outcome : BurnOutcome)
  /-- `DELETE FROM data_transfer_sessions WHERE payer = $1` -/
  | delete
  /-- the next `valid_sessions` write, or the end of the payer's writes -/
  | write
  /-- `burn` returns `Ok` -/
  | finishBurn
  | restart
deriving DecidableEq, Repr

/-- `accumulate_sessions` skips a report with no rewardable bytes. -/
def State.accumulate (s : State) (pubKey payer bytes : Nat) : Option State :=
  match s.phase with
  | .idle =>
    if bytes = 0 then none
    else some { s with
      sessions := upsertSession s.sessions pubKey payer bytes s.nextReport
      nextReport := s.nextReport + 1 }
  | _ => none

def State.burnPayer (s : State) (outcome : BurnOutcome) : Option State :=
  match s.phase with
  | .burning (totals :: rest) =>
    match outcome with
    | .insufficientBalance | .failed => some { s with phase := .burning rest }
    -- `burn_data_credits` reports an error, so the loop moves on, but the DC are gone
    | .failedLanded =>
      some { s with phase := .burning rest, burnedReports := s.burnedReports ++ totals.reports }
    | .burned =>
      some { s with phase := .deleting totals rest, burnedReports := s.burnedReports ++ totals.reports }
  | _ => none

def State.delete (s : State) : Option State :=
  match s.phase with
  | .deleting totals rest =>
    some { s with
      sessions := s.sessions.filter (·.payer ≠ totals.payer)
      phase := .writing totals.sessions rest }
  | _ => none

def State.write (s : State) : Option State :=
  match s.phase with
  | .writing [] rest => some { s with phase := .burning rest }
  | .writing (sess :: more) rest => some { s with phase := .writing more rest, written := s.written ++ [sess] }
  | _ => none

def step (s : State) : Action → Option State
  | .accumulate pubKey payer bytes => s.accumulate pubKey payer bytes
  | .burn =>
    match s.phase with
    | .idle => some { s with phase := .burning (groupByPayer s.sessions) }
    | _ => none
  | .burnPayer outcome => s.burnPayer outcome
  | .delete => s.delete
  | .write => s.write
  | .finishBurn =>
    match s.phase with
    | .burning [] => some { s with phase := .idle }
    | _ => none
  | .restart => some { s with phase := .idle }

/-! ### The grouping and the upsert -/

/-- Each payer once, each with exactly its rows. -/
def Grouped (rows : List DataTransferSession) (groups : List PayerTotals) : Prop :=
  (groups.map (·.payer)).Nodup ∧ ∀ totals ∈ groups, totals.sessions = rows.filter (·.payer = totals.payer)

@[simp] theorem PayerTotals.pushSess_payer (totals : PayerTotals) (sess : DataTransferSession) :
    (totals.pushSess sess).payer = totals.payer := rfl

/-- With the session's payer present, `entry` finds its totals. -/
theorem pushToPayer_of_mem {sess : DataTransferSession} :
    ∀ {groups : List PayerTotals}, (groups.map (·.payer)).Nodup →
      sess.payer ∈ groups.map (·.payer) →
      pushToPayer groups sess =
        groups.map fun totals => if totals.payer = sess.payer then totals.pushSess sess else totals
  | [], _, present => by simp at present
  | totals :: rest, unique, present => by
    rw [List.map_cons, List.nodup_cons] at unique
    by_cases same : totals.payer = sess.payer
    · -- the first totals is the payer's, and no later one is
      have others : ∀ other ∈ rest, other.payer ≠ sess.payer := by
        intro other belongs equal
        exact unique.1 (same ▸ equal ▸ List.mem_map_of_mem belongs)
      rw [pushToPayer, if_pos same, List.map_cons, if_pos same]
      congr 1
      conv_lhs => rw [← List.map_id rest]
      exact List.map_congr_left fun other belongs => (if_neg (others other belongs)).symm
    · have later : sess.payer ∈ rest.map (·.payer) := by
        rcases List.mem_cons.mp (List.map_cons ▸ present) with first | later
        · exact absurd first.symm same
        · exact later
      rw [pushToPayer, if_neg same, List.map_cons, if_neg same, pushToPayer_of_mem unique.2 later]

/-- Without it, `or_default` adds the payer's totals at the end. -/
theorem pushToPayer_of_not_mem {sess : DataTransferSession} :
    ∀ {groups : List PayerTotals}, sess.payer ∉ groups.map (·.payer) →
      pushToPayer groups sess = groups ++ [(PayerTotals.mk sess.payer 0 []).pushSess sess]
  | [], _ => rfl
  | totals :: rest, absent => by
    have different : totals.payer ≠ sess.payer := fun same =>
      absent (List.mem_map.mpr ⟨totals, List.mem_cons_self, same⟩)
    have later : sess.payer ∉ rest.map (·.payer) := fun belongs =>
      absent (List.mem_cons_of_mem _ belongs)
    rw [pushToPayer, if_neg different, pushToPayer_of_not_mem later, List.cons_append]

/-- One session of the grouping loop keeps the totals grouped, and every payer seen so
far has its totals. -/
theorem pushToPayer_grouped {rows : List DataTransferSession} {groups : List PayerTotals}
    {sess : DataTransferSession} (grouped : Grouped rows groups)
    (covered : ∀ row ∈ rows, row.payer ∈ groups.map (·.payer)) :
    Grouped (rows ++ [sess]) (pushToPayer groups sess) ∧
      ∀ row ∈ rows ++ [sess], row.payer ∈ (pushToPayer groups sess).map (·.payer) := by
  obtain ⟨unique, exact⟩ := grouped
  by_cases present : sess.payer ∈ groups.map (·.payer)
  · rw [pushToPayer_of_mem unique present]
    have samePayers : ((groups.map fun totals =>
        if totals.payer = sess.payer then totals.pushSess sess else totals).map (·.payer)) =
        groups.map (·.payer) := by
      rw [List.map_map]
      apply List.map_congr_left
      intro totals _
      by_cases same : totals.payer = sess.payer <;> simp [same]
    refine ⟨⟨samePayers ▸ unique, ?_⟩, ?_⟩
    · intro updated belongs
      obtain ⟨totals, inGroups, rfl⟩ := List.mem_map.mp belongs
      by_cases same : totals.payer = sess.payer
      · simp [same, PayerTotals.pushSess, exact totals inGroups, List.filter_append]
      · simp [same, exact totals inGroups, List.filter_append, Ne.symm same]
    · intro row belongs
      rw [samePayers]
      rcases List.mem_append.mp belongs with old | isNew
      · exact covered row old
      · rw [List.mem_singleton] at isNew
        exact isNew ▸ present
  · rw [pushToPayer_of_not_mem present]
    -- no row seen so far has the new payer
    have noneYet : rows.filter (·.payer = sess.payer) = [] := by
      rw [List.filter_eq_nil_iff]
      intro row belongs same
      simp only [decide_eq_true_eq] at same
      exact present (same ▸ covered row belongs)
    refine ⟨⟨?_, ?_⟩, ?_⟩
    · rw [List.map_append, List.nodup_append]
      refine ⟨unique, List.nodup_singleton _, ?_⟩
      intro payer inGroups other isNew same
      simp only [List.map_cons, List.map_nil, List.mem_singleton, PayerTotals.pushSess_payer] at isNew
      exact present (isNew ▸ same ▸ inGroups)
    · intro totals belongs
      rcases List.mem_append.mp belongs with old | isNew
      · have different : sess.payer ≠ totals.payer := fun same =>
          present (same ▸ List.mem_map_of_mem old)
        simp [exact totals old, List.filter_append, different]
      · rw [List.mem_singleton] at isNew
        subst isNew
        simp [PayerTotals.pushSess, List.filter_append, noneYet]
    · intro row belongs
      rw [List.map_append]
      rcases List.mem_append.mp belongs with old | isNew
      · exact List.mem_append_left _ (covered row old)
      · rw [List.mem_singleton] at isNew
        exact List.mem_append_right _ (by simp [isNew])

/-- The grouping loop gives each payer of the fetched sessions once, with exactly its
sessions. -/
theorem groupByPayer_grouped (sessions : List DataTransferSession) :
    Grouped sessions (groupByPayer sessions) := by
  -- the loop's invariant over the sessions handled so far
  have loop : ∀ (rest seen : List DataTransferSession) (groups : List PayerTotals),
      Grouped seen groups → (∀ row ∈ seen, row.payer ∈ groups.map (·.payer)) →
      Grouped (seen ++ rest) (rest.foldl pushToPayer groups) := by
    intro rest
    induction rest with
    | nil =>
      intro seen groups grouped _
      simpa using grouped
    | cons sess more ih =>
      intro seen groups grouped covered
      have pushed : Grouped (seen ++ [sess]) (pushToPayer groups sess) ∧
          ∀ row ∈ seen ++ [sess], row.payer ∈ (pushToPayer groups sess).map (·.payer) :=
        pushToPayer_grouped grouped covered
      obtain ⟨grouped', covered'⟩ := pushed
      have next := ih (seen ++ [sess]) (pushToPayer groups sess) grouped' covered'
      simpa using next
  simpa [groupByPayer] using loop sessions [] [] ⟨List.nodup_nil, by simp⟩ (by simp)

/-- The update branch of the upsert, over rows of which exactly one has the key. -/
private theorem updateRows_reports {pubKey payer bytes report : Nat} :
    ∀ {rows : List DataTransferSession}, (rows.map fun row => (row.pubKey, row.payer)).Nodup →
      (∃ row ∈ rows, row.pubKey = pubKey ∧ row.payer = payer) →
      ((rows.map fun row =>
          if row.pubKey = pubKey ∧ row.payer = payer then
            { row with rewardableBytes := row.rewardableBytes + bytes, reports := row.reports ++ [report] }
          else row).flatMap (·.reports)).Perm (rows.flatMap (·.reports) ++ [report])
  | [], _, ⟨_, belongs, _⟩ => by simp at belongs
  | row :: rest, unique, ⟨found, belongs, matching⟩ => by
    rw [List.map_cons, List.nodup_cons] at unique
    by_cases here : row.pubKey = pubKey ∧ row.payer = payer
    · -- the key is this row's, so no later row has it
      have others : ∀ other ∈ rest, ¬ (other.pubKey = pubKey ∧ other.payer = payer) := by
        intro other inRest same
        have sameKey : (other.pubKey, other.payer) = (row.pubKey, row.payer) := by
          rw [same.1, same.2, here.1, here.2]
        exact unique.1 (sameKey ▸ List.mem_map_of_mem inRest)
      have kept : (rest.map fun row =>
          if row.pubKey = pubKey ∧ row.payer = payer then
            { row with rewardableBytes := row.rewardableBytes + bytes, reports := row.reports ++ [report] }
          else row) = rest := by
        conv_rhs => rw [← List.map_id rest]
        exact List.map_congr_left fun other inRest => if_neg (others other inRest)
      rw [List.map_cons, if_pos here, kept, List.flatMap_cons, List.flatMap_cons, List.append_assoc,
        List.append_assoc]
      exact List.Perm.append_left _ List.perm_append_comm
    · have later : ∃ other ∈ rest, other.pubKey = pubKey ∧ other.payer = payer := by
        rcases List.mem_cons.mp belongs with rfl | inRest
        · exact absurd matching here
        · exact ⟨found, inRest, matching⟩
      rw [List.map_cons, if_neg here, List.flatMap_cons, List.flatMap_cons, List.append_assoc]
      exact List.Perm.append_left _ (updateRows_reports unique.2 later)

/-- Under the primary key, the upsert adds the report to exactly one row. -/
theorem upsertSession_reports {rows : List DataTransferSession} {pubKey payer bytes report : Nat}
    (unique : (rows.map fun row => (row.pubKey, row.payer)).Nodup) :
    ((upsertSession rows pubKey payer bytes report).flatMap (·.reports)).Perm
      (rows.flatMap (·.reports) ++ [report]) := by
  unfold upsertSession
  split
  · simp
  · rename_i row found
    have matching : row.pubKey = pubKey ∧ row.payer = payer := by
      simpa using List.find?_some found
    exact updateRows_reports unique ⟨row, List.mem_of_find?_eq_some found, matching⟩

/-- The upsert keeps the primary key. -/
theorem upsertSession_keys {rows : List DataTransferSession} {pubKey payer bytes report : Nat}
    (unique : (rows.map fun row => (row.pubKey, row.payer)).Nodup) :
    ((upsertSession rows pubKey payer bytes report).map fun row => (row.pubKey, row.payer)).Nodup := by
  unfold upsertSession
  split
  · rename_i absent
    rw [List.map_append, List.nodup_append]
    refine ⟨unique, List.nodup_singleton _, ?_⟩
    intro key inRows newKey isNew same
    simp only [List.map_cons, List.map_nil, List.mem_singleton] at isNew
    obtain ⟨row, belongs, rfl⟩ := List.mem_map.mp inRows
    have noMatch := List.find?_eq_none.mp absent row belongs
    simp only [decide_eq_true_eq] at noMatch
    rw [isNew, Prod.mk.injEq] at same
    exact noMatch same
  · -- the update keeps every row's key
    rw [List.map_map]
    convert unique using 1
    apply List.map_congr_left
    intro row _
    by_cases here : row.pubKey = pubKey ∧ row.payer = payer <;> simp [here]

/-! ### What each step does -/

section Steps

variable {s s' : State}

theorem step_accumulate {pubKey payer bytes : Nat}
    (moved : step s (.accumulate pubKey payer bytes) = some s') :
    s.phase = .idle ∧ bytes ≠ 0 ∧
      s' = { s with
        sessions := upsertSession s.sessions pubKey payer bytes s.nextReport
        nextReport := s.nextReport + 1 } := by
  simp only [step, State.accumulate] at moved
  split at moved
  · rename_i waiting
    split at moved
    · cases moved
    · rename_i some_bytes
      exact ⟨waiting, some_bytes, (Option.some.inj moved).symm⟩
  · cases moved

theorem step_burn (moved : step s .burn = some s') :
    s.phase = .idle ∧ s' = { s with phase := .burning (groupByPayer s.sessions) } := by
  simp only [step] at moved
  split at moved
  · rename_i waiting
    exact ⟨waiting, (Option.some.inj moved).symm⟩
  · cases moved

theorem step_burnPayer {outcome : BurnOutcome} (moved : step s (.burnPayer outcome) = some s') :
    ∃ totals rest, s.phase = .burning (totals :: rest) ∧
      ((outcome = .insufficientBalance ∨ outcome = .failed) ∧ s' = { s with phase := .burning rest } ∨
        outcome = .failedLanded ∧
          s' = { s with phase := .burning rest, burnedReports := s.burnedReports ++ totals.reports } ∨
        outcome = .burned ∧
          s' = { s with
            phase := .deleting totals rest, burnedReports := s.burnedReports ++ totals.reports }) := by
  simp only [step, State.burnPayer] at moved
  split at moved
  · rename_i totals rest current
    refine ⟨totals, rest, current, ?_⟩
    cases outcome with
    | insufficientBalance => exact .inl ⟨.inl rfl, (Option.some.inj moved).symm⟩
    | failed => exact .inl ⟨.inr rfl, (Option.some.inj moved).symm⟩
    | failedLanded => exact .inr (.inl ⟨rfl, (Option.some.inj moved).symm⟩)
    | burned => exact .inr (.inr ⟨rfl, (Option.some.inj moved).symm⟩)
  · cases moved

theorem step_delete (moved : step s .delete = some s') :
    ∃ totals rest, s.phase = .deleting totals rest ∧
      s' = { s with
        sessions := s.sessions.filter (·.payer ≠ totals.payer)
        phase := .writing totals.sessions rest } := by
  simp only [step, State.delete] at moved
  split at moved
  · rename_i totals rest current
    exact ⟨totals, rest, current, (Option.some.inj moved).symm⟩
  · cases moved

theorem step_write (moved : step s .write = some s') :
    (∃ rest, s.phase = .writing [] rest ∧ s' = { s with phase := .burning rest }) ∨
      ∃ sess more rest, s.phase = .writing (sess :: more) rest ∧
        s' = { s with phase := .writing more rest, written := s.written ++ [sess] } := by
  simp only [step, State.write] at moved
  split at moved
  · rename_i rest current
    exact .inl ⟨rest, current, (Option.some.inj moved).symm⟩
  · rename_i sess more rest current
    exact .inr ⟨sess, more, rest, current, (Option.some.inj moved).symm⟩
  · cases moved

theorem step_finishBurn (moved : step s .finishBurn = some s') :
    s.phase = .burning [] ∧ s' = { s with phase := .idle } := by
  simp only [step] at moved
  split at moved
  · rename_i done
    exact ⟨done, (Option.some.inj moved).symm⟩
  · cases moved

end Steps

/-! ### Burned twice, or burned and never written -/

/-- The `DELETE` after a successful burn fails; after the restart the next burn
burns the same session again. -/
def deleteFailsActions : List Action :=
  [.accumulate 1 7 30000, .burn, .burnPayer .burned, .restart, .burn, .burnPayer .burned]

/-- The `DELETE` succeeds and the first `valid_sessions` write fails: the session is
burned, gone from the table, and never written. -/
def writeFailsActions : List Action :=
  [.accumulate 1 7 30000, .burn, .burnPayer .burned, .delete, .restart]

theorem burn_not_crash_safe :
    (∃ s, Reach step State.initial s ∧ ¬ s.burnedReports.Nodup) ∧
    (∃ s, Reach step State.initial s ∧ s.phase = .idle ∧
      ∃ report ∈ s.burnedReports, report ∉ s.written.flatMap (·.reports) ∧
        report ∉ s.sessions.flatMap (·.reports)) :=
  ⟨exists_reach_of_run deleteFailsActions (by decide),
    exists_reach_of_run writeFailsActions (by decide)⟩

end HeliumOracles.MobilePacketVerifier

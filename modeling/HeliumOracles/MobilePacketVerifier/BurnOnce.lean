import Mathlib.Data.List.Flatten
import Mathlib.Data.List.Nodup
import Mathlib.Data.List.Perm.Basic
import HeliumOracles.MobilePacketVerifier.Burner

/-!
# Burned once and written once, when nothing fails after a burn

`burn_not_crash_safe` shows a report burned twice and one burned and never
written, both after a failure between a burn and the end of its payer's writes.
This module shows that those failure points are the only ones: in every run in
which the `DELETE` and the writes after a successful burn go through without a
restart, and a failed `submit_transaction` never lands, every report is burned at
most once, the table never holds a burned report once its payer's `DELETE` is done,
and the sink receives exactly the burned reports, in the order they were burned.

The invariant `BurnBooks` keeps the table's key and its reports unique, keeps the
payers `burn` still has to handle grouped with exactly their rows
(`groupByPayer_grouped`), and accounts for every burned report as written or
waiting to be written by the current payer's loop.
-/
namespace HeliumOracles.MobilePacketVerifier

open Lib.Transition

/-- The runs in which nothing fails once a burn succeeded: no restart between a
successful burn and the end of its payer's writes, and no failed submission that
lands. -/
def atomicBurn (s : State) : Action → Bool
  | .burnPayer .failedLanded => false
  | .restart =>
    match s.phase with
    | .deleting _ _ | .writing _ _ => false
    | _ => true
  | _ => true

/-- The reports of the table's rows. -/
def State.tableReports (s : State) : List Nat := s.sessions.flatMap (·.reports)

/-- The burned reports whose rows the `DELETE` has not removed yet. -/
def awaitingDelete : BurnerPhase → List Nat
  | .deleting totals _ => totals.reports
  | _ => []

/-- The burned reports the current payer's loop has not written yet. -/
def awaitingWrite : BurnerPhase → List Nat
  | .deleting totals _ => totals.reports
  | .writing sessions _ => sessions.flatMap (·.reports)
  | _ => []

/-- The payers `burn` still has to handle hold exactly their rows of the table. -/
def PhaseRows (rows : List DataTransferSession) : BurnerPhase → Prop
  | .idle => True
  | .burning rest => Grouped rows rest
  | .deleting totals rest => Grouped rows (totals :: rest)
  | .writing _ rest => Grouped rows rest

/-- The invariant of the runs `atomicBurn` allows. -/
structure BurnBooks (s : State) : Prop where
  keysUnique : (s.sessions.map fun row => (row.pubKey, row.payer)).Nodup
  tableUnique : s.tableReports.Nodup
  burnedUnique : s.burnedReports.Nodup
  burnedGone : ∀ report ∈ s.burnedReports, report ∈ s.tableReports → report ∈ awaitingDelete s.phase
  fresh : ∀ report ∈ s.tableReports ++ s.burnedReports, report < s.nextReport
  books : s.burnedReports = s.written.flatMap (·.reports) ++ awaitingWrite s.phase
  phaseRows : PhaseRows s.sessions s.phase

/-- The reports of a payer's rows are reports of the table. -/
theorem reports_sublist_of_grouped {rows : List DataTransferSession} {totals : PayerTotals}
    (exact : totals.sessions = rows.filter (·.payer = totals.payer)) :
    totals.reports.Sublist (rows.flatMap (·.reports)) := by
  unfold PayerTotals.reports
  rw [exact]
  exact (List.filter_sublist).flatMap _

/-- A report of a payer's rows is in no row of another payer. -/
theorem reports_disjoint_of_payer {rows : List DataTransferSession} {payer report : Nat}
    (unique : (rows.flatMap (·.reports)).Nodup)
    (mine : report ∈ (rows.filter (·.payer = payer)).flatMap (·.reports))
    (theirs : report ∈ (rows.filter (·.payer ≠ payer)).flatMap (·.reports)) : False := by
  -- the two filters split the table, so their reports are disjoint
  have split : ((rows.filter (·.payer = payer)).flatMap (·.reports) ++
      (rows.filter fun row => !decide (row.payer = payer)).flatMap (·.reports)).Nodup := by
    rw [← List.flatMap_append]
    exact ((List.filter_append_perm _ rows).flatMap_right _).nodup_iff.mpr unique
  have theirs' : report ∈ (rows.filter fun row => !decide (row.payer = payer)).flatMap (·.reports) := by
    simpa using theirs
  exact List.disjoint_of_nodup_append split mine theirs'

section Invariant

variable {s : State}

/-! ### One lemma per step -/

theorem burnBooks_initial : BurnBooks State.initial := by
  refine ⟨List.nodup_nil, List.nodup_nil, List.nodup_nil, ?_, ?_, rfl, trivial⟩ <;>
    simp [State.initial, State.tableReports]

theorem accumulate_burnBooks {pubKey payer bytes : Nat} (before : BurnBooks s)
    (waiting : s.phase = .idle) :
    BurnBooks { s with
      sessions := upsertSession s.sessions pubKey payer bytes s.nextReport
      nextReport := s.nextReport + 1 } := by
  have grown : ((upsertSession s.sessions pubKey payer bytes s.nextReport).flatMap (·.reports)).Perm
      (s.sessions.flatMap (·.reports) ++ [s.nextReport]) := upsertSession_reports before.keysUnique
  -- the new report's number is above every report so far
  have newReport : s.nextReport ∉ s.tableReports := fun belongs =>
    Nat.lt_irrefl _ (before.fresh _ (List.mem_append_left _ belongs))
  have notBurned : s.nextReport ∉ s.burnedReports := fun belongs =>
    Nat.lt_irrefl _ (before.fresh _ (List.mem_append_right _ belongs))
  have noneAwaiting := before.burnedGone
  rw [waiting] at noneAwaiting
  refine ⟨upsertSession_keys before.keysUnique, ?_, before.burnedUnique, ?_, ?_, ?_, ?_⟩
  · unfold State.tableReports
    rw [grown.nodup_iff, List.nodup_append]
    refine ⟨before.tableUnique, List.nodup_singleton _, ?_⟩
    intro report old other isNew same
    rw [List.mem_singleton] at isNew
    exact newReport (isNew ▸ same ▸ old)
  · intro report burned inTable
    unfold State.tableReports at inTable
    rcases List.mem_append.mp (grown.mem_iff.mp inTable) with old | isNew
    · exact absurd (noneAwaiting report burned old) (by simp [awaitingDelete])
    · rw [List.mem_singleton] at isNew
      exact absurd (isNew ▸ burned) notBurned
  · intro report belongs
    show report < s.nextReport + 1
    unfold State.tableReports at belongs
    rcases List.mem_append.mp belongs with inTable | burned
    · rcases List.mem_append.mp (grown.mem_iff.mp inTable) with old | isNew
      · have below := before.fresh report (List.mem_append_left _ old)
        omega
      · rw [List.mem_singleton] at isNew
        omega
    · have below := before.fresh report (List.mem_append_right _ burned)
      omega
  · rw [waiting]
    simpa [waiting] using before.books
  · rw [waiting]
    trivial

theorem burn_burnBooks (before : BurnBooks s) (waiting : s.phase = .idle) :
    BurnBooks { s with phase := .burning (groupByPayer s.sessions) } := by
  have books := before.books
  have gone := before.burnedGone
  rw [waiting] at books gone
  exact { before with
    burnedGone := gone
    books := books
    phaseRows := groupByPayer_grouped s.sessions }

theorem skipPayer_burnBooks {totals : PayerTotals} {rest : List PayerTotals}
    (before : BurnBooks s) (current : s.phase = .burning (totals :: rest)) :
    BurnBooks { s with phase := .burning rest } := by
  have books := before.books
  have gone := before.burnedGone
  have rows := before.phaseRows
  rw [current] at books gone rows
  obtain ⟨unique, exact⟩ := rows
  exact { before with
    burnedGone := gone
    books := books
    phaseRows := ⟨(List.nodup_cons.mp unique).2,
      fun other belongs => exact other (List.mem_cons_of_mem _ belongs)⟩ }

theorem burnedPayer_burnBooks {totals : PayerTotals} {rest : List PayerTotals}
    (before : BurnBooks s) (current : s.phase = .burning (totals :: rest)) :
    BurnBooks { s with
      phase := .deleting totals rest, burnedReports := s.burnedReports ++ totals.reports } := by
  have books := before.books
  have gone := before.burnedGone
  have rows := before.phaseRows
  rw [current] at books gone rows
  -- the payer's reports are in the table, so none of them was burned before
  have inTable := reports_sublist_of_grouped (rows.2 totals List.mem_cons_self)
  have fresh : ∀ report ∈ totals.reports, report ∉ s.burnedReports := fun report mine burned =>
    absurd (gone report burned (inTable.subset mine)) (by simp [awaitingDelete])
  refine ⟨before.keysUnique, before.tableUnique, ?_, ?_, ?_, ?_, rows⟩
  · refine List.nodup_append.mpr ⟨before.burnedUnique, before.tableUnique.sublist inTable, ?_⟩
    intro report burned other mine same
    exact fresh other mine (same ▸ burned)
  · intro report burned inRows
    rcases List.mem_append.mp burned with old | mine
    · exact absurd (gone report old inRows) (by simp [awaitingDelete])
    · exact mine
  · intro report belongs
    rcases List.mem_append.mp belongs with inRows | burned
    · exact before.fresh report (List.mem_append_left _ inRows)
    · rcases List.mem_append.mp burned with old | mine
      · exact before.fresh report (List.mem_append_right _ old)
      · exact before.fresh report (List.mem_append_left _ (inTable.subset mine))
  · rw [books]
    simp [awaitingWrite]

theorem delete_burnBooks {totals : PayerTotals} {rest : List PayerTotals}
    (before : BurnBooks s) (current : s.phase = .deleting totals rest) :
    BurnBooks { s with
      sessions := s.sessions.filter (·.payer ≠ totals.payer)
      phase := .writing totals.sessions rest } := by
  have books := before.books
  have gone := before.burnedGone
  have rows := before.phaseRows
  rw [current] at books gone rows
  obtain ⟨unique, exact⟩ := rows
  have kept : (s.sessions.filter (·.payer ≠ totals.payer)).Sublist s.sessions := List.filter_sublist
  have keptReports : ((s.sessions.filter (·.payer ≠ totals.payer)).flatMap (·.reports)).Sublist
      s.tableReports := kept.flatMap _
  refine ⟨before.keysUnique.sublist (kept.map _), before.tableUnique.sublist keptReports,
    before.burnedUnique, ?_, ?_, ?_, ?_⟩
  · -- a burned report still in the table would be in a row of the payer and of another
    intro report burned remaining
    have mine := gone report burned (keptReports.subset remaining)
    simp only [awaitingDelete, PayerTotals.reports, exact totals List.mem_cons_self] at mine
    exact (reports_disjoint_of_payer before.tableUnique mine remaining).elim
  · intro report belongs
    rcases List.mem_append.mp belongs with remaining | burned
    · exact before.fresh report (List.mem_append_left _ (keptReports.subset remaining))
    · exact before.fresh report (List.mem_append_right _ burned)
  · simpa [awaitingWrite, PayerTotals.reports] using books
  · refine ⟨(List.nodup_cons.mp unique).2, ?_⟩
    intro other belongs
    have different : other.payer ≠ totals.payer := fun same =>
      (List.nodup_cons.mp unique).1 (List.mem_map.mpr ⟨other, belongs, same⟩)
    rw [exact other (List.mem_cons_of_mem _ belongs), List.filter_filter]
    apply List.filter_congr
    intro row _
    by_cases mine : row.payer = other.payer
    · simp [mine, different]
    · simp [mine]

theorem write_burnBooks {sess : DataTransferSession} {more : List DataTransferSession}
    {rest : List PayerTotals} (before : BurnBooks s) (current : s.phase = .writing (sess :: more) rest) :
    BurnBooks { s with phase := .writing more rest, written := s.written ++ [sess] } := by
  have books := before.books
  have gone := before.burnedGone
  have rows := before.phaseRows
  rw [current] at books gone rows
  refine { before with
    burnedGone := gone
    books := ?_
    phaseRows := rows }
  rw [books]
  simp [awaitingWrite]

theorem writesDone_burnBooks {rest : List PayerTotals} (before : BurnBooks s)
    (current : s.phase = .writing [] rest) :
    BurnBooks { s with phase := .burning rest } := by
  have books := before.books
  have gone := before.burnedGone
  have rows := before.phaseRows
  rw [current] at books gone rows
  exact { before with
    burnedGone := gone
    books := by simpa [awaitingWrite] using books
    phaseRows := rows }

/-- Going back to idle is safe whenever no payer is between its burn and its writes. -/
theorem idle_burnBooks (before : BurnBooks s) (between : awaitingWrite s.phase = []) :
    BurnBooks { s with phase := .idle } := by
  have books := before.books
  rw [between, List.append_nil] at books
  refine { before with
    burnedGone := ?_
    books := by simpa [awaitingWrite] using books
    phaseRows := trivial }
  intro report burned inTable
  have waiting := before.burnedGone report burned inTable
  -- nothing awaits its `DELETE` when nothing awaits its writes
  cases phase : s.phase with
  | deleting totals rest =>
    rw [phase] at between waiting
    simp only [awaitingWrite] at between
    simp only [awaitingDelete, between] at waiting
    exact absurd waiting (List.not_mem_nil)
  | idle | burning _ | writing _ _ =>
    rw [phase] at waiting
    simp [awaitingDelete] at waiting

/-- One step that `atomicBurn` allows keeps the invariant. -/
theorem atomic_step_burnBooks {s' : State} {action : Action} (before : BurnBooks s)
    (moved : restrict step (fun s action => atomicBurn s action = true) s action = some s') :
    BurnBooks s' := by
  obtain ⟨allowed, moved⟩ := restrict_some moved
  cases action with
  | accumulate pubKey payer bytes =>
    obtain ⟨waiting, -, rfl⟩ := step_accumulate moved
    exact accumulate_burnBooks before waiting
  | burn =>
    obtain ⟨waiting, rfl⟩ := step_burn moved
    exact burn_burnBooks before waiting
  | burnPayer outcome =>
    obtain ⟨totals, rest, current, skipped | landed | burned⟩ := step_burnPayer moved
    · obtain ⟨-, rfl⟩ := skipped
      exact skipPayer_burnBooks before current
    · obtain ⟨rfl, -⟩ := landed
      simp [atomicBurn] at allowed
    · obtain ⟨-, rfl⟩ := burned
      exact burnedPayer_burnBooks before current
  | delete =>
    obtain ⟨totals, rest, current, rfl⟩ := step_delete moved
    exact delete_burnBooks before current
  | write =>
    rcases step_write moved with ⟨rest, current, rfl⟩ | ⟨sess, more, rest, current, rfl⟩
    · exact writesDone_burnBooks before current
    · exact write_burnBooks before current
  | finishBurn =>
    obtain ⟨current, rfl⟩ := step_finishBurn moved
    exact idle_burnBooks before (by simp [current, awaitingWrite])
  | restart =>
    cases moved
    -- the restriction allows a restart only outside a payer's delete and writes
    apply idle_burnBooks before
    cases phase : s.phase with
    | deleting totals rest => simp [atomicBurn, phase] at allowed
    | writing sessions rest => simp [atomicBurn, phase] at allowed
    | idle | burning _ => simp [awaitingWrite]

theorem reach_burnBooks
    (reached : Reach (restrict step fun s action => atomicBurn s action = true) State.initial s) :
    BurnBooks s :=
  reached.invariant BurnBooks burnBooks_initial fun _ _ _ before moved =>
    atomic_step_burnBooks before moved

end Invariant

/-- When nothing fails between a burn and the end of its payer's writes and a failed
submission never lands, every report's DC are burned at most once, and whenever the
daemon waits, the sink has received exactly the burned reports and the table holds
none of them. -/
theorem burned_once_written_once {s : State}
    (reached : Reach (restrict step fun s action => atomicBurn s action = true) State.initial s) :
    s.burnedReports.Nodup ∧
      (s.phase = .idle →
        s.written.flatMap (·.reports) = s.burnedReports ∧
          ∀ report ∈ s.burnedReports, report ∉ s.tableReports) := by
  have books := reach_burnBooks reached
  refine ⟨books.burnedUnique, fun waiting => ⟨?_, ?_⟩⟩
  · have written := books.books
    rw [waiting] at written
    simpa [awaitingWrite] using written.symm
  · intro report burned inTable
    have awaiting := books.burnedGone report burned inTable
    rw [waiting] at awaiting
    exact absurd awaiting (List.not_mem_nil)

/-- Two reports of one payer, a burn, its `DELETE` and both writes. -/
def atomicActions : List Action :=
  [.accumulate 1 7 30000, .accumulate 2 7 5000, .burn, .burnPayer .burned, .delete, .write, .write,
    .write, .finishBurn]

theorem burned_once_after_atomic_burn :
    ∃ s, Reach (restrict step fun s action => atomicBurn s action = true) State.initial s ∧
      s.burnedReports = [0, 1] ∧ s.burnedReports.Nodup ∧
      (s.phase = .idle → s.written.flatMap (·.reports) = s.burnedReports ∧
        ∀ report ∈ s.burnedReports, report ∉ s.tableReports) := by
  have found : ∃ s, Reach (restrict step fun s action => atomicBurn s action = true)
      State.initial s ∧ s.burnedReports = [0, 1] := exists_reach_of_run atomicActions (by decide)
  obtain ⟨s, reached, burnedIs⟩ := found
  exact ⟨s, reached, burnedIs, burned_once_written_once reached⟩

end HeliumOracles.MobilePacketVerifier

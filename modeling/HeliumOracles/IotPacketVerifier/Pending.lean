import Mathlib.Logic.Function.Basic
import HeliumOracles.Lib.Word

/-!
# The pending tables of the IoT packet verifier

Model of the Postgres `PendingTables` of `iot_packet_verifier/src/pending.rs`
over the schema of `migrations/2_burns.sql` and `4_pending_txns.sql`:
`pending_burns` is keyed by payer and holds a BIGINT amount, `pending_txns` is
keyed by signature. The code binds its `u64` amounts `as i64`; a BIGINT result out
of range is a database error, so the statement fails and the model returns `none`.
The `last_burn` and `time_of_submission` timestamps are not modelled.

Each statement gets the lemma that says what it does to a payer's amount; the
file transaction of the verifier, a sequence of `add_burned_amount` calls, gets
one for the whole sequence (`addBurnedAmounts_spec`).
-/
namespace HeliumOracles.IotPacketVerifier

open Lib.Word

/-- `BURN_THRESHOLD`. -/
def burnThreshold : Int := 10000

/-- A row of `pending_txns` as `PendingTxn` reads it back; the amount written
`as i64` reads back `as u64` unchanged. -/
structure PendingTxn where
  signature : Nat
  payer : Nat
  amount : Nat
deriving DecidableEq, Repr

/-- The amount of a payer's `pending_burns` row, zero without a row. -/
def pendingAmount (pendingBurns : Nat → Option Int) (payer : Nat) : Int :=
  (pendingBurns payer).getD 0

/-- Every `pending_burns` amount is a BIGINT. -/
def BigintAmounts (pendingBurns : Nat → Option Int) : Prop :=
  ∀ payer amount, pendingBurns payer = some amount → -2 ^ 63 ≤ amount ∧ amount < 2 ^ 63

/-- `add_burned_amount`: insert the payer's row, or add to its amount on conflict. -/
def addBurnedAmount (pendingBurns : Nat → Option Int) (payer amount : Nat) :
    Option (Nat → Option Int) :=
  (checkedSigned 64 (pendingAmount pendingBurns payer + toSigned 64 amount)).map
    fun total => Function.update pendingBurns payer (some total)

/-- The `add_burned_amount` calls of one file transaction, in order. -/
def addBurnedAmounts (pendingBurns : Nat → Option Int) (burns : List (Nat × Nat)) :
    Option (Nat → Option Int) :=
  burns.foldlM (fun table burn => addBurnedAmount table burn.1 burn.2) pendingBurns

/-- `subtract_burned_amount`: an `UPDATE` of the payer's row, which changes
nothing when the payer has no row. -/
def subtractBurnedAmount (pendingBurns : Nat → Option Int) (payer amount : Nat) :
    Option (Nat → Option Int) :=
  match pendingBurns payer with
  | none => some pendingBurns
  | some current =>
    (checkedSigned 64 (current - toSigned 64 amount)).map
      fun rest => Function.update pendingBurns payer (some rest)

/-- `fetch_next_burn` may return the payer's row when its amount reaches
`BURN_THRESHOLD`; the result is the `Burn` amount, read `as u64`. Which eligible
row comes first (`ORDER BY last_burn`) is left to the caller. -/
def fetchNextBurn (pendingBurns : Nat → Option Int) (payer : Nat) : Option Nat :=
  match pendingBurns payer with
  | some amount => if burnThreshold ≤ amount then some (toUnsigned 64 amount) else none
  | none => none

/-- `add_pending_transaction`: the insert fails on a signature already present. -/
def addPendingTransaction (pendingTxns : List PendingTxn) (row : PendingTxn) :
    Option (List PendingTxn) :=
  if row.signature ∈ pendingTxns.map (·.signature) then none else some (pendingTxns ++ [row])

/-- `remove_pending_transaction`. -/
def removePendingTransaction (pendingTxns : List PendingTxn) (signature : Nat) :
    List PendingTxn :=
  pendingTxns.filter fun row => row.signature ≠ signature

/-- The DC a list of `add_burned_amount` calls adds for one payer. -/
def burnsTotal (burns : List (Nat × Nat)) (payer : Nat) : Nat :=
  ((burns.filter fun burn => burn.1 = payer).map (·.2)).sum

/-- Under distinct signatures, removing the first row's signature leaves the rest. -/
theorem removePendingTransaction_head {row : PendingTxn} {rest : List PendingTxn}
    (unique : ((row :: rest).map (·.signature)).Nodup) :
    removePendingTransaction (row :: rest) row.signature = rest := by
  rw [List.map_cons, List.nodup_cons] at unique
  rw [removePendingTransaction, List.filter_cons_of_neg (by simp), List.filter_eq_self]
  intro other belongs
  have different : other.signature ≠ row.signature := by
    intro same
    exact unique.1 (same ▸ List.mem_map_of_mem belongs)
  simpa using different

@[simp] theorem pendingAmount_update (pendingBurns : Nat → Option Int) (payer other : Nat)
    (amount : Int) :
    pendingAmount (Function.update pendingBurns payer (some amount)) other =
      if other = payer then amount else pendingAmount pendingBurns other := by
  unfold pendingAmount
  by_cases same : other = payer
  · subst same
    simp
  · simp [same]

@[simp] theorem burnsTotal_nil (payer : Nat) : burnsTotal [] payer = 0 := rfl

@[simp] theorem burnsTotal_cons (burn : Nat × Nat) (burns : List (Nat × Nat)) (payer : Nat) :
    burnsTotal (burn :: burns) payer =
      (if burn.1 = payer then burn.2 else 0) + burnsTotal burns payer := by
  unfold burnsTotal
  by_cases same : burn.1 = payer <;> simp [same]

theorem addBurnedAmount_spec {pendingBurns after : Nat → Option Int} {payer amount : Nat}
    (success : addBurnedAmount pendingBurns payer amount = some after) :
    after = Function.update pendingBurns payer
        (some (pendingAmount pendingBurns payer + toSigned 64 amount)) ∧
      -2 ^ 63 ≤ pendingAmount pendingBurns payer + toSigned 64 amount ∧
      pendingAmount pendingBurns payer + toSigned 64 amount < 2 ^ 63 := by
  unfold addBurnedAmount at success
  obtain ⟨total, checked, rfl⟩ := Option.map_eq_some_iff.mp success
  obtain ⟨range, rfl⟩ := checkedSigned_eq_some.mp checked
  exact ⟨rfl, range⟩

/-- What a file transaction's upserts do together: each payer's amount grows by
the payer's debits, no row disappears, new rows are the debited payers', and
every amount stays a BIGINT. -/
theorem addBurnedAmounts_spec :
    ∀ {pendingBurns after : Nat → Option Int} {burns : List (Nat × Nat)},
      (∀ burn ∈ burns, burn.2 < 2 ^ 63) → BigintAmounts pendingBurns →
      addBurnedAmounts pendingBurns burns = some after →
      (∀ payer, pendingAmount after payer = pendingAmount pendingBurns payer + burnsTotal burns payer) ∧
      (∀ payer, pendingBurns payer ≠ none → after payer ≠ none) ∧
      (∀ payer, after payer ≠ none → pendingBurns payer ≠ none ∨ ∃ burn ∈ burns, burn.1 = payer) ∧
      BigintAmounts after
  | pendingBurns, after, [], _, range, success => by
    simp only [addBurnedAmounts, List.foldlM_nil] at success
    cases success
    exact ⟨fun payer => by simp, fun _ kept => kept, fun _ kept => .inl kept, range⟩
  | pendingBurns, after, burn :: burns, small, range, success => by
    simp only [addBurnedAmounts, List.foldlM_cons, Option.bind_eq_bind] at success
    obtain ⟨middle, first, rest⟩ := Option.bind_eq_some_iff.mp success
    obtain ⟨rfl, low, high⟩ := addBurnedAmount_spec first
    have exact : toSigned 64 burn.2 = burn.2 := toSigned_of_lt (small burn List.mem_cons_self)
    have middleRange : BigintAmounts (Function.update pendingBurns burn.1
        (some (pendingAmount pendingBurns burn.1 + toSigned 64 burn.2))) := by
      intro payer amount found
      by_cases same : payer = burn.1
      · subst same
        simp only [Function.update_self, Option.some.injEq] at found
        exact found ▸ ⟨low, high⟩
      · rw [Function.update_of_ne same] at found
        exact range payer amount found
    obtain ⟨amounts, kept, fresh, afterRange⟩ :=
      addBurnedAmounts_spec (fun other belongs => small other (List.mem_cons_of_mem _ belongs))
        middleRange rest
    refine ⟨?_, ?_, ?_, afterRange⟩
    · intro payer
      rw [amounts payer, pendingAmount_update, burnsTotal_cons, exact]
      by_cases same : payer = burn.1
      · simp [same]
        omega
      · simp [same, Ne.symm same]
    · intro payer present
      apply kept payer
      by_cases same : payer = burn.1
      · subst same
        simp
      · rw [Function.update_of_ne same]
        exact present
    · intro payer present
      rcases fresh payer present with before | later
      · by_cases same : payer = burn.1
        · exact .inr ⟨burn, List.mem_cons_self, same.symm⟩
        · rw [Function.update_of_ne same] at before
          exact .inl before
      · obtain ⟨other, belongs, named⟩ := later
        exact .inr ⟨other, List.mem_cons_of_mem _ belongs, named⟩

/-- A subtraction from a payer with a row lowers only that payer's amount, keeps
every row, and keeps every amount a BIGINT. -/
theorem subtractBurnedAmount_spec {pendingBurns after : Nat → Option Int} {payer amount : Nat}
    (present : pendingBurns payer ≠ none) (range : BigintAmounts pendingBurns)
    (success : subtractBurnedAmount pendingBurns payer amount = some after) :
    (∀ other, pendingAmount after other =
      if other = payer then pendingAmount pendingBurns payer - toSigned 64 amount
      else pendingAmount pendingBurns other) ∧
    (∀ other, after other ≠ none ↔ pendingBurns other ≠ none) ∧
    BigintAmounts after := by
  unfold subtractBurnedAmount at success
  obtain ⟨current, found⟩ := Option.ne_none_iff_exists'.mp present
  rw [found] at success
  obtain ⟨rest, checked, rfl⟩ := Option.map_eq_some_iff.mp success
  obtain ⟨⟨low, high⟩, rfl⟩ := checkedSigned_eq_some.mp checked
  have amountWas : pendingAmount pendingBurns payer = current := by simp [pendingAmount, found]
  refine ⟨?_, ?_, ?_⟩
  · intro other
    rw [pendingAmount_update, amountWas]
  · intro other
    by_cases same : other = payer
    · subst same
      simp [found]
    · rw [Function.update_of_ne same]
  · intro other value stored
    by_cases same : other = payer
    · subst same
      simp only [Function.update_self, Option.some.injEq] at stored
      exact stored ▸ ⟨low, high⟩
    · rw [Function.update_of_ne same] at stored
      exact range other value stored

/-- An eligible row's amount is the `Burn` amount, once it is a BIGINT. -/
theorem fetchNextBurn_spec {pendingBurns : Nat → Option Int} {payer amount : Nat}
    (range : BigintAmounts pendingBurns) (fetched : fetchNextBurn pendingBurns payer = some amount) :
    pendingBurns payer ≠ none ∧ (amount : Int) = pendingAmount pendingBurns payer ∧
      burnThreshold ≤ amount ∧ amount < 2 ^ 63 := by
  unfold fetchNextBurn at fetched
  split at fetched
  · rename_i stored found
    split at fetched
    · rename_i eligible
      cases fetched
      obtain ⟨low, high⟩ := range payer stored found
      have nonneg : 0 ≤ stored := by
        unfold burnThreshold at eligible
        omega
      have cast : (toUnsigned 64 stored : Int) = stored := toUnsigned_of_nonneg nonneg (by omega)
      refine ⟨by simp [found], ?_, ?_, ?_⟩
      · rw [cast]
        simp [pendingAmount, found]
      · rw [cast]
        exact eligible
      · omega
    · cases fetched
  · cases fetched

end HeliumOracles.IotPacketVerifier

import Mathlib

/-!
# Transaction logs

The abstract model of a store that takes records into an open transaction: a commit
publishes the open transaction after everything published before, a rollback drops it.
A replay of operations from the empty log keeps every record written, in order, unless a
rollback dropped it: the published records followed by the open ones are a sublist of the
records written (`replay_sublist_writes`), and all of them when nothing was rolled back
(`replay_eq_writes`). What is published stays published (`committed_prefix_replay`).

A store of files shows its records through a listing in the order of a key, such as the
time in a file's name. `byKey` is that listing; it does not depend on the order the files
were stored in (`byKey_eq_of_perm`), and files stored after all others come last
(`byKey_append`).
-/
namespace HeliumOracles.Lib.TransactionLog

open scoped List

variable {α : Type}

/-- The published records and the records of the open transaction. -/
structure Log (α : Type) where
  committed : List α
  pending : List α
deriving DecidableEq, Repr

/-- The operations of a transaction log. -/
inductive Op (α : Type) where
  | write (record : α)
  | commit
  | rollback
deriving DecidableEq, Repr

namespace Log

def empty : Log α := ⟨[], []⟩

def apply (log : Log α) : Op α → Log α
  | .write record => ⟨log.committed, log.pending ++ [record]⟩
  | .commit => ⟨log.committed ++ log.pending, []⟩
  | .rollback => ⟨log.committed, []⟩

def replay (log : Log α) (ops : List (Op α)) : Log α := ops.foldl apply log

@[simp] theorem replay_nil (log : Log α) : log.replay [] = log := rfl

@[simp] theorem replay_cons (log : Log α) (op : Op α) (ops : List (Op α)) :
    log.replay (op :: ops) = (log.apply op).replay ops := rfl

theorem replay_append (log : Log α) (ops more : List (Op α)) :
    log.replay (ops ++ more) = (log.replay ops).replay more := by
  simp [replay, List.foldl_append]

end Log

/-- The records an operation list writes. -/
def writes : List (Op α) → List α
  | [] => []
  | .write record :: ops => record :: writes ops
  | _ :: ops => writes ops

@[simp] theorem writes_nil : writes ([] : List (Op α)) = [] := rfl

theorem writes_append (ops more : List (Op α)) : writes (ops ++ more) = writes ops ++ writes more := by
  induction ops with
  | nil => rfl
  | cons op ops ih => cases op <;> simp [writes, ih]

section Replay

open Log

/-- What is published stays published, in place. -/
theorem committed_prefix_replay (log : Log α) (ops : List (Op α)) :
    log.committed <+: (log.replay ops).committed := by
  induction ops generalizing log with
  | nil => exact List.prefix_refl _
  | cons op ops ih =>
    have stays : log.committed <+: (log.apply op).committed := by
      cases op <;> simp [apply]
    exact stays.trans (ih _)

/-- A replay keeps a sublist of what it was given and what it writes: no record appears
that was not written, none twice, and none out of order. -/
theorem replay_sublist (log : Log α) (ops : List (Op α)) :
    (log.replay ops).committed ++ (log.replay ops).pending <+
      log.committed ++ log.pending ++ writes ops := by
  induction ops generalizing log with
  | nil => simp
  | cons op ops ih =>
    refine (ih (log.apply op)).trans ?_
    cases op with
    | write record => simp [apply, writes]
    | commit => simp [apply, writes]
    | rollback => simp [apply, writes]

theorem replay_sublist_writes (ops : List (Op α)) :
    (empty.replay ops).committed ++ (empty.replay ops).pending <+ writes ops := by
  simpa [empty] using replay_sublist (empty : Log α) ops

/-- Without a rollback every record written is kept, in order. -/
theorem replay_eq_writes (log : Log α) {ops : List (Op α)} (noRollback : Op.rollback ∉ ops) :
    (log.replay ops).committed ++ (log.replay ops).pending =
      log.committed ++ log.pending ++ writes ops := by
  induction ops generalizing log with
  | nil => simp
  | cons op ops ih =>
    have later := ih (log.apply op) (fun member => noRollback (List.mem_cons_of_mem _ member))
    rw [replay_cons, later]
    cases op with
    | write record => simp [apply, writes]
    | commit => simp [apply, writes]
    | rollback => exact absurd List.mem_cons_self noRollback

end Replay

/-! ## Listing in the order of a key -/

section ByKey

variable {β κ : Type} [LinearOrder κ] (key : β → κ)

/-- The items in the order of their keys. -/
def byKey (items : List β) : List β := items.mergeSort (fun a b => decide (key a ≤ key b))

theorem byKey_perm (items : List β) : byKey key items ~ items := List.mergeSort_perm _ _

theorem pairwise_byKey (items : List β) :
    (byKey key items).Pairwise (fun a b => decide (key a ≤ key b) = true) :=
  List.pairwise_mergeSort
    (fun _ _ _ first second => by
      simp only [decide_eq_true_eq] at first second ⊢
      exact le_trans first second)
    (fun a b => by simpa using le_total (key a) (key b)) items

variable {key}

/-- With distinct keys, two sorted permutations of a list are the same list. -/
theorem eq_of_perm_of_sorted {items sorted sorted' : List β} (unique : (items.map key).Nodup)
    (perm : sorted ~ items) (perm' : sorted' ~ items)
    (ordered : sorted.Pairwise (fun a b => key a ≤ key b))
    (ordered' : sorted'.Pairwise (fun a b => key a ≤ key b)) : sorted = sorted' := by
  refine List.Perm.eq_of_pairwise (fun a b inSorted inSorted' below above => ?_) ordered ordered'
    (perm.trans perm'.symm)
  exact List.inj_on_of_nodup_map unique (perm.subset inSorted) (perm'.subset inSorted')
    (le_antisymm below above)

theorem byKey_eq_of_perm {items items' : List β} (unique : (items.map key).Nodup)
    (perm : items ~ items') : byKey key items = byKey key items' :=
  eq_of_perm_of_sorted unique (byKey_perm key items) ((byKey_perm key items').trans perm.symm)
    (by simpa using pairwise_byKey key items) (by simpa using pairwise_byKey key items')

/-- With distinct keys, listing a part of the items is taking that part of the listing. -/
theorem byKey_filter {items : List β} (unique : (items.map key).Nodup) (part : β → Bool) :
    byKey key (items.filter part) = (byKey key items).filter part := by
  have partUnique : ((items.filter part).map key).Nodup :=
    unique.sublist ((List.filter_sublist).map key)
  have ordered : (byKey key items).Pairwise (fun a b => key a ≤ key b) := by
    simpa using pairwise_byKey key items
  exact eq_of_perm_of_sorted partUnique (byKey_perm key _) ((byKey_perm key items).filter part)
    (by simpa using pairwise_byKey key _) (ordered.filter part)

/-- Items whose keys come after every key of the others, and in order, come last. -/
theorem byKey_append {items later : List β} (unique : (items.map key).Nodup)
    (ordered : later.Pairwise (fun a b => key a < key b))
    (after : ∀ a ∈ items, ∀ b ∈ later, key a < key b) :
    byKey key (items ++ later) = byKey key items ++ later := by
  have laterUnique : (later.map key).Nodup :=
    List.pairwise_map.mpr (ordered.imp (fun below => ne_of_lt below))
  have allUnique : ((items ++ later).map key).Nodup := by
    rw [List.map_append, List.nodup_append]
    refine ⟨unique, laterUnique, ?_⟩
    simp only [List.mem_map]
    rintro _ ⟨a, inItems, rfl⟩ _ ⟨b, inLater, rfl⟩
    exact ne_of_lt (after a inItems b inLater)
  refine eq_of_perm_of_sorted allUnique (byKey_perm key _)
    ((byKey_perm key items).append_right later) (by simpa using pairwise_byKey key _) ?_
  rw [List.pairwise_append]
  refine ⟨by simpa using pairwise_byKey key items, ordered.imp le_of_lt, ?_⟩
  intro a inSorted b inLater
  exact le_of_lt (after a ((byKey_perm key items).subset inSorted) b inLater)

end ByKey

end HeliumOracles.Lib.TransactionLog

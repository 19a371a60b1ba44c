import Mathlib.Data.List.Dedup
import Mathlib.Order.Lattice

/-!
# Grouping and picking rows of a table

SQL's `GROUP BY` and `DISTINCT ON (...) ORDER BY ... DESC` over a table kept as a
list of rows. `groupBy` pairs each distinct key with the rows that carry it;
`latestBy` picks a row of greatest rank, the first one where SQL leaves the choice
among equals open. The lemmas say what a query built from them returns: each key
once, with exactly its rows, and a picked row that belongs to the table and ranks
highest.
-/
namespace HeliumOracles.Lib.Relational

variable {β κ α : Type}

section Grouping

variable [DecidableEq κ]

/-- `GROUP BY key`: each distinct key with its rows. -/
def groupBy (key : β → κ) (rows : List β) : List (κ × List β) :=
  (rows.map key).dedup.map fun k => (k, rows.filter (key · = k))

theorem groupBy_keys_nodup (key : β → κ) (rows : List β) :
    ((groupBy key rows).map Prod.fst).Nodup := by
  have keysOnly : (Prod.fst ∘ fun k => (k, rows.filter (key · = k))) = id := rfl
  rw [groupBy, List.map_map, keysOnly, List.map_id]
  exact List.nodup_dedup (rows.map key)

/-- A group is a key of the table with exactly the rows that carry it. -/
theorem mem_groupBy {key : β → κ} {rows : List β} {k : κ} {group : List β} :
    (k, group) ∈ groupBy key rows ↔ k ∈ rows.map key ∧ group = rows.filter (key · = k) := by
  simp only [groupBy, List.mem_map, List.mem_dedup, Prod.mk.injEq]
  constructor
  · rintro ⟨k', present, rfl, rfl⟩
    exact ⟨present, rfl⟩
  · rintro ⟨present, rfl⟩
    exact ⟨k, present, rfl, rfl⟩

/-- A key occurs in the table exactly when its group has a row. -/
theorem mem_map_iff_filter_ne_nil {key : β → κ} {rows : List β} {k : κ} :
    k ∈ rows.map key ↔ rows.filter (key · = k) ≠ [] := by
  simp [List.filter_eq_nil_iff]

end Grouping

section Latest

variable [LinearOrder α]

/-- `DISTINCT ON (...) ORDER BY rank DESC`: the first row of greatest rank. -/
def latestBy (rank : β → α) : List β → Option β
  | [] => none
  | row :: rows =>
    match latestBy rank rows with
    | none => some row
    | some later => if rank row < rank later then some later else some row

theorem latestBy_eq_none_iff {rank : β → α} {rows : List β} :
    latestBy rank rows = none ↔ rows = [] := by
  cases rows with
  | nil => simp [latestBy]
  | cons row rows =>
    simp only [latestBy, reduceCtorEq, iff_false]
    split
    · simp
    · split <;> simp

/-- The picked row belongs to the table and no row ranks above it. -/
theorem latestBy_spec {rank : β → α} :
    ∀ {rows : List β} {picked : β}, latestBy rank rows = some picked →
      picked ∈ rows ∧ ∀ other ∈ rows, rank other ≤ rank picked
  | [], _, found => by simp [latestBy] at found
  | row :: rows, picked, found => by
    cases later : latestBy rank rows with
    | none =>
      simp only [latestBy, later, Option.some.injEq] at found
      subst found
      have empty := latestBy_eq_none_iff.mp later
      subst empty
      simp
    | some best =>
      simp only [latestBy, later] at found
      obtain ⟨inRows, bound⟩ := latestBy_spec later
      by_cases above : rank row < rank best
      · rw [if_pos above] at found
        cases found
        refine ⟨List.mem_cons_of_mem _ inRows, ?_⟩
        intro other belongs
        rcases List.mem_cons.mp belongs with rfl | inRest
        · exact above.le
        · exact bound other inRest
      · rw [if_neg above] at found
        cases found
        refine ⟨List.mem_cons_self, ?_⟩
        intro other belongs
        rcases List.mem_cons.mp belongs with rfl | inRest
        · exact le_refl _
        · exact le_trans (bound other inRest) (not_lt.mp above)

end Latest

end HeliumOracles.Lib.Relational

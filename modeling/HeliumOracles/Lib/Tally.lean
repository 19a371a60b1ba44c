import Mathlib.Algebra.BigOperators.Group.List.Basic
import Mathlib.Algebra.Order.BigOperators.Group.List
import Mathlib.Algebra.Ring.Int.Defs

/-!
# Totals over the rows of a keyed table

A table is a list of rows whose keys are distinct, as under a primary key. The
total of a weight over its rows changes predictably when one row is deleted by
its key, or when the weight changes at one key only; the accounting invariants
of a system whose state holds such a table are stated with these totals. Counting
the rows that pass a test is a total too, and bounds one from below by pigeonhole.
-/
namespace HeliumOracles.Lib.Tally

variable {β κ : Type} [DecidableEq κ]

/-- The total of `weight` over `rows`. -/
def tally (weight : β → Int) (rows : List β) : Int := (rows.map weight).sum

@[simp] theorem tally_nil (weight : β → Int) : tally weight [] = 0 := rfl

@[simp] theorem tally_cons (weight : β → Int) (row : β) (rows : List β) :
    tally weight (row :: rows) = weight row + tally weight rows := by
  simp [tally]

@[simp] theorem tally_append (weight : β → Int) (rows more : List β) :
    tally weight (rows ++ more) = tally weight rows + tally weight more := by
  simp [tally]

theorem tally_congr {weight weight' : β → Int} {rows : List β}
    (same : ∀ row ∈ rows, weight row = weight' row) : tally weight rows = tally weight' rows := by
  unfold tally
  rw [List.map_congr_left same]

theorem tally_nonneg {weight : β → Int} {rows : List β}
    (nonneg : ∀ row ∈ rows, 0 ≤ weight row) : 0 ≤ tally weight rows := by
  apply List.sum_nonneg
  intro value member
  obtain ⟨row, belongs, rfl⟩ := List.mem_map.mp member
  exact nonneg row belongs

omit [DecidableEq κ] in
/-- Under distinct keys, the rows after `row` carry other keys. -/
private theorem key_ne_of_nodup {key : β → κ} {head other : β} {tail : List β}
    (fresh : key head ∉ tail.map key) (belongs : other ∈ tail) : key other ≠ key head := by
  intro equal
  exact fresh (equal ▸ List.mem_map_of_mem belongs)

/-- Deleting a row by its key takes exactly its weight off the total. -/
theorem tally_filter_key {key : β → κ} {weight : β → Int} {row : β} :
    ∀ {rows : List β}, (rows.map key).Nodup → row ∈ rows →
      tally weight (rows.filter (fun other => key other ≠ key row)) + weight row =
        tally weight rows
  | [], _, member => by simp at member
  | head :: tail, unique, member => by
    rw [List.map_cons, List.nodup_cons] at unique
    by_cases same : key head = key row
    · -- the row is the head: no later row carries its key
      have first : row = head := by
        rcases List.mem_cons.mp member with equal | later
        · exact equal
        · exact absurd same.symm (key_ne_of_nodup unique.1 later)
      subst first
      have kept : tail.filter (fun other => key other ≠ key row) = tail := by
        rw [List.filter_eq_self]
        intro other belongs
        simpa using key_ne_of_nodup unique.1 belongs
      simp only [List.filter_cons, ne_eq, not_true_eq_false, decide_false, kept, tally_cons]
      simp only [Bool.false_eq_true, ↓reduceIte]
      omega
    · have later : row ∈ tail := by
        rcases List.mem_cons.mp member with equal | later
        · exact absurd (congrArg key equal).symm same
        · exact later
      have rest : tally weight (tail.filter (fun other => key other ≠ key row)) + weight row =
          tally weight tail := tally_filter_key unique.2 later
      simp only [ne_eq] at rest
      simp only [List.filter_cons, ne_eq, same, not_false_eq_true, decide_true, ↓reduceIte,
        tally_cons]
      omega

/-- A weight that changes at one key only moves the total by that row's change. -/
theorem tally_change_at {key : β → κ} {weight weight' : β → Int} {row : β} :
    ∀ {rows : List β}, (rows.map key).Nodup → row ∈ rows →
      (∀ other ∈ rows, key other ≠ key row → weight' other = weight other) →
      tally weight' rows + weight row = tally weight rows + weight' row
  | [], _, member, _ => by simp at member
  | head :: tail, unique, member, others => by
    rw [List.map_cons, List.nodup_cons] at unique
    by_cases same : key head = key row
    · have first : row = head := by
        rcases List.mem_cons.mp member with equal | later
        · exact equal
        · exact absurd same.symm (key_ne_of_nodup unique.1 later)
      subst first
      have rest : tally weight' tail = tally weight tail :=
        tally_congr fun other belongs =>
          others other (List.mem_cons_of_mem _ belongs) (key_ne_of_nodup unique.1 belongs)
      simp only [tally_cons, rest]
      omega
    · have later : row ∈ tail := by
        rcases List.mem_cons.mp member with equal | later
        · exact absurd (congrArg key equal).symm same
        · exact later
      have rest := tally_change_at unique.2 later
        (fun other belongs => others other (List.mem_cons_of_mem _ belongs))
      have kept := others head List.mem_cons_self same
      simp only [tally_cons, kept]
      omega

omit [DecidableEq κ] in
/-- Pigeonhole over a table: a duplicate-free list of rows drawn from `rows` and
longer than the number of rows satisfying `p` holds a row that fails `p`. -/
theorem exists_not_of_countP_lt {p : β → Bool} {picked rows : List β} (unique : picked.Nodup)
    (drawn : ∀ row ∈ picked, row ∈ rows) (few : rows.countP p < picked.length) :
    ∃ row ∈ picked, p row = false := by
  by_contra allPass
  simp only [not_exists, not_and, Bool.not_eq_false] at allPass
  have inside : ∀ row ∈ picked, row ∈ rows.filter p := fun row belongs =>
    List.mem_filter.mpr ⟨drawn row belongs, allPass row belongs⟩
  have bound := unique.length_le_of_subset inside
  rw [← List.countP_eq_length_filter] at bound
  omega

end HeliumOracles.Lib.Tally

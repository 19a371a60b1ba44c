import Mathlib.Data.List.Perm.Subperm
import Mathlib.Data.List.Nodup
import Mathlib.Data.List.Sort
import Mathlib.Algebra.BigOperators.Group.List.Basic

/-!
# Maps kept as association lists

A `HashMap` or `BTreeMap` seen through what a program reads of it: one entry per
key, in an order no caller may rely on. `modifyEntry key empty change` is
`map.entry(key).or_default()` (or `or_insert`) followed by a change of the value; an
`insert` is the change that drops the old value. The lemmas say what a lookup sees
afterwards, that keys stay unique, and what happens to everything stored under all
keys together, which is what a loop over the map's entries reads.
-/
namespace HeliumOracles.Lib.AssocMap

open scoped List

variable {κ β γ ρ : Type}

/-- The entries of a map. -/
abbrev Map (κ β : Type) := List (κ × β)

section Operations

variable [DecidableEq κ]

/-- `map.get(&key)`. -/
def get (m : Map κ β) (key : κ) : Option β :=
  (m.find? (·.1 = key)).map (·.2)

/-- `map.entry(key).or_insert(empty)`, then `change` applied to the value. -/
def modifyEntry (key : κ) (empty : β) (change : β → β) : Map κ β → Map κ β
  | [] => [(key, change empty)]
  | (k, v) :: rest =>
    if k = key then (k, change v) :: rest else (k, v) :: modifyEntry key empty change rest

@[simp] theorem get_nil (key : κ) : get ([] : Map κ β) key = none := rfl

theorem get_cons (k key : κ) (v : β) (rest : Map κ β) :
    get ((k, v) :: rest) key = if k = key then some v else get rest key := by
  by_cases same : k = key <;> simp [get, same]

theorem get_modifyEntry_self (key : κ) (empty : β) (change : β → β) :
    ∀ m : Map κ β, get (modifyEntry key empty change m) key = some (change ((get m key).getD empty))
  | [] => by simp [modifyEntry, get_cons]
  | (k, v) :: rest => by
    by_cases same : k = key
    · simp [modifyEntry, same, get_cons]
    · simp only [modifyEntry, same, if_false, get_cons]
      exact get_modifyEntry_self key empty change rest

theorem get_modifyEntry_of_ne {key other : κ} (differ : other ≠ key) (empty : β) (change : β → β) :
    ∀ m : Map κ β, get (modifyEntry key empty change m) other = get m other
  | [] => by simp [modifyEntry, get_cons, Ne.symm differ]
  | (k, v) :: rest => by
    by_cases same : k = key
    · subst same
      simp [modifyEntry, get_cons, Ne.symm differ]
    · simp only [modifyEntry, same, if_false, get_cons]
      rw [get_modifyEntry_of_ne differ empty change rest]

theorem keys_modifyEntry (key : κ) (empty : β) (change : β → β) :
    ∀ m : Map κ β, (modifyEntry key empty change m).map Prod.fst =
      if key ∈ m.map Prod.fst then m.map Prod.fst else m.map Prod.fst ++ [key]
  | [] => by simp [modifyEntry]
  | (k, v) :: rest => by
    by_cases same : k = key
    · simp [modifyEntry, same]
    · have later := keys_modifyEntry key empty change rest
      simp only [modifyEntry, same, if_false, List.map_cons, List.mem_cons, Ne.symm same,
        false_or]
      rw [later]
      split <;> simp

/-- A map keeps one entry per key. -/
theorem nodup_keys_modifyEntry {m : Map κ β} (unique : (m.map Prod.fst).Nodup) (key : κ)
    (empty : β) (change : β → β) : ((modifyEntry key empty change m).map Prod.fst).Nodup := by
  rw [keys_modifyEntry]
  split
  · exact unique
  · rename_i absent
    exact unique.append (List.nodup_singleton key) (by simpa using absent)

/-- What the map holds, read entry by entry with `read`, changes by `added` when the
value under `key` changes: the other entries are read as before. -/
theorem flatMap_modifyEntry_perm (read : κ → β → List γ) (key : κ) (empty : β)
    (change : β → β) (added : List γ) (emptyRead : read key empty = [])
    (grows : ∀ v, read key (change v) ~ read key v ++ added) :
    ∀ m : Map κ β, (modifyEntry key empty change m).flatMap (fun e => read e.1 e.2) ~
      m.flatMap (fun e => read e.1 e.2) ++ added
  | [] => by simpa [modifyEntry, emptyRead] using grows empty
  | (k, v) :: rest => by
    by_cases same : k = key
    · subst same
      simp only [modifyEntry, if_true, List.flatMap_cons, List.append_assoc]
      calc read k (change v) ++ rest.flatMap (fun e => read e.1 e.2)
          ~ (read k v ++ added) ++ rest.flatMap (fun e => read e.1 e.2) :=
            (grows v).append_right _
        _ ~ read k v ++ (rest.flatMap (fun e => read e.1 e.2) ++ added) := by
            rw [List.append_assoc]
            exact (List.perm_append_comm).append_left _
    · simp only [modifyEntry, same, if_false, List.flatMap_cons, List.append_assoc]
      exact (flatMap_modifyEntry_perm read key empty change added emptyRead grows rest).append_left _

/-- Summed over the map, changing one entry adds what the change adds to its value. -/
theorem sum_modifyEntry [AddCommMonoid γ] (f : β → γ) (key : κ) (empty : β) (change : β → β)
    (added : γ) (emptyZero : f empty = 0) (grows : ∀ v, f (change v) = f v + added) :
    ∀ m : Map κ β, ((modifyEntry key empty change m).map fun e => f e.2).sum =
      (m.map fun e => f e.2).sum + added
  | [] => by simp [modifyEntry, grows, emptyZero]
  | (k, v) :: rest => by
    by_cases same : k = key
    · simp only [modifyEntry, same, if_true, List.map_cons, List.sum_cons, grows]
      rw [add_right_comm]
    · simp only [modifyEntry, same, if_false, List.map_cons, List.sum_cons]
      rw [sum_modifyEntry f key empty change added emptyZero grows rest, add_assoc]

/-- Summed over the map with a weight that reads the key too, changing one entry adds what
the change adds to its weight. -/
theorem sum_modifyEntry_keyed [AddCommMonoid γ] (f : κ → β → γ) (key : κ) (empty : β)
    (change : β → β) (added : γ) (emptyZero : f key empty = 0)
    (grows : ∀ v, f key (change v) = f key v + added) :
    ∀ m : Map κ β, ((modifyEntry key empty change m).map fun e => f e.1 e.2).sum =
      (m.map fun e => f e.1 e.2).sum + added
  | [] => by simp [modifyEntry, grows, emptyZero]
  | (k, v) :: rest => by
    by_cases same : k = key
    · subst same
      simp only [modifyEntry, if_true, List.map_cons, List.sum_cons, grows]
      rw [add_right_comm]
    · simp only [modifyEntry, same, if_false, List.map_cons, List.sum_cons]
      rw [sum_modifyEntry_keyed f key empty change added emptyZero grows rest, add_assoc]

/-- A change matters only at the value the key holds. -/
theorem modifyEntry_congr {key : κ} {empty : β} {change change' : β → β} :
    ∀ {m : Map κ β}, change ((get m key).getD empty) = change' ((get m key).getD empty) →
      modifyEntry key empty change m = modifyEntry key empty change' m
  | [], same => by simpa [modifyEntry] using same
  | (k, v) :: rest, same => by
    by_cases here : k = key
    · simp only [get_cons, here, if_true, Option.getD_some] at same
      simp [modifyEntry, here, same]
    · simp only [get_cons, here, if_false] at same
      simp only [modifyEntry, here, if_false, modifyEntry_congr same]

theorem mem_of_get_eq_some {m : Map κ β} {k : κ} {v : β} (found : get m k = some v) :
    (k, v) ∈ m := by
  obtain ⟨entry, findIs, rfl⟩ := Option.map_eq_some_iff.mp found
  have keyIs := List.find?_some findIs
  simp only [decide_eq_true_eq] at keyIs
  rw [← keyIs]
  exact List.mem_of_find?_eq_some findIs

/-- A loop that changes one entry per row adds, summed over the map, what each row adds. -/
theorem sum_foldl_modifyEntry {ρ : Type} [AddCommMonoid γ] (f : β → γ) (key : ρ → κ) (empty : β)
    (change : ρ → β → β) (added : ρ → γ) (emptyZero : f empty = 0)
    (grows : ∀ row v, f (change row v) = f v + added row) :
    ∀ (rows : List ρ) (m : Map κ β),
      ((rows.foldl (fun acc row => modifyEntry (key row) empty (change row) acc) m).map
        fun e => f e.2).sum = (m.map fun e => f e.2).sum + (rows.map added).sum
  | [], m => by simp
  | row :: rows, m => by
    rw [List.foldl_cons, sum_foldl_modifyEntry f key empty change added emptyZero grows rows,
      sum_modifyEntry f (key row) empty (change row) (added row) emptyZero (grows row),
      List.map_cons, List.sum_cons, add_assoc]

/-- A lookup after a loop that changes one entry per row: the changes of the rows with
that key, applied in order to what the key held. -/
theorem get_foldl_modifyEntry {ρ : Type} (key : ρ → κ) (empty : β) (change : ρ → β → β) (k : κ) :
    ∀ (rows : List ρ) (m : Map κ β),
      get (rows.foldl (fun acc row => modifyEntry (key row) empty (change row) acc) m) k =
        (rows.filter (key · = k)).foldl (fun held row => some (change row (held.getD empty)))
          (get m k)
  | [], m => rfl
  | row :: rows, m => by
    rw [List.foldl_cons, get_foldl_modifyEntry key empty change k rows]
    by_cases same : key row = k
    · subst same
      simp [get_modifyEntry_self]
    · simp [same, get_modifyEntry_of_ne (Ne.symm same)]

theorem mem_keys_modifyEntry {key k : κ} {empty : β} {change : β → β} {m : Map κ β} :
    k ∈ (modifyEntry key empty change m).map Prod.fst ↔ k ∈ m.map Prod.fst ∨ k = key := by
  rw [keys_modifyEntry]
  split
  · rename_i present
    constructor
    · exact Or.inl
    · rintro (held | rfl)
      · exact held
      · exact present
  · simp

theorem mem_keys_foldl_modifyEntry {ρ : Type} (key : ρ → κ) (empty : β) (change : ρ → β → β)
    (k : κ) : ∀ (rows : List ρ) (m : Map κ β),
      k ∈ (rows.foldl (fun acc row => modifyEntry (key row) empty (change row) acc) m).map
        Prod.fst ↔ k ∈ m.map Prod.fst ∨ k ∈ rows.map key
  | [], m => by simp
  | row :: rows, m => by
    rw [List.foldl_cons, mem_keys_foldl_modifyEntry key empty change k rows, mem_keys_modifyEntry,
      List.map_cons, List.mem_cons]
    tauto

theorem nodup_keys_foldl_modifyEntry {ρ : Type} (key : ρ → κ) (empty : β) (change : ρ → β → β) :
    ∀ (rows : List ρ) (m : Map κ β), (m.map Prod.fst).Nodup →
      ((rows.foldl (fun acc row => modifyEntry (key row) empty (change row) acc) m).map
        Prod.fst).Nodup
  | [], _, unique => unique
  | row :: rows, m, unique => by
    rw [List.foldl_cons]
    exact nodup_keys_foldl_modifyEntry key empty change rows _
      (nodup_keys_modifyEntry unique (key row) empty (change row))

/-- With keys unique, an entry is in the map exactly when a lookup of its key finds it. -/
theorem mem_iff_get_eq_some {m : Map κ β} (unique : (m.map Prod.fst).Nodup) {k : κ} {v : β} :
    (k, v) ∈ m ↔ get m k = some v := by
  induction m with
  | nil => simp
  | cons head rest later =>
    obtain ⟨k', v'⟩ := head
    rw [List.map_cons, List.nodup_cons] at unique
    rw [get_cons, List.mem_cons]
    by_cases same : k' = k
    · subst same
      have absent : (k', v) ∉ rest := fun held => unique.1 (List.mem_map.mpr ⟨_, held, rfl⟩)
      simp [absent, eq_comm]
    · simp [same, later unique.2, Ne.symm same]

/-- Two maps with unique keys that answer every lookup alike hold the same entries. -/
theorem perm_of_get_eq {m m' : Map κ β} (unique : (m.map Prod.fst).Nodup)
    (unique' : (m'.map Prod.fst).Nodup) (same : ∀ k, get m k = get m' k) : m ~ m' := by
  rw [List.perm_ext_iff_of_nodup unique.of_map unique'.of_map]
  rintro ⟨k, v⟩
  rw [mem_iff_get_eq_some unique, mem_iff_get_eq_some unique', same]

/-- A map read off a list of distinct keys. -/
theorem get_map_pair {keys : List κ} (unique : keys.Nodup) (f : κ → β) (k : κ) :
    get (keys.map fun key => (key, f key)) k = if k ∈ keys then some (f k) else none := by
  induction keys with
  | nil => simp
  | cons head rest later =>
    rw [List.nodup_cons] at unique
    rw [List.map_cons, get_cons, later unique.2]
    by_cases same : head = k
    · subst same
      simp
    · simp [same, Ne.symm same]

end Operations

/-- A loop through an optional value that the first row fills in: once a row has been
seen, it is the loop on the value itself. -/
theorem foldl_some_getD {ρ : Type} (step : β → ρ → β) (empty : β) :
    ∀ (rows : List ρ) (held : Option β), rows ≠ [] →
      rows.foldl (fun held row => some (step (held.getD empty) row)) held =
        some (rows.foldl step (held.getD empty))
  | [], _, nonempty => absurd rfl nonempty
  | row :: rows, held, _ => by
    rw [List.foldl_cons, List.foldl_cons]
    cases rows with
    | nil => rfl
    | cons next rest => exact foldl_some_getD step empty (next :: rest) _ (List.cons_ne_nil _ _)

/-- Pushing rows one by one onto a list appends them in order. -/
theorem foldl_push (g : ρ → γ) : ∀ (rows : List ρ) (init : List γ),
    rows.foldl (fun held row => held ++ [g row]) init = init ++ rows.map g
  | [], init => by simp
  | row :: rows, init => by
    rw [List.foldl_cons, foldl_push g rows, List.map_cons, List.append_assoc, List.singleton_append]

/-- Reading fewer items from each entry reads fewer items from the whole map. -/
theorem flatMap_subperm {f g : β → List γ} :
    ∀ {entries : List β}, (∀ e ∈ entries, f e <+~ g e) → entries.flatMap f <+~ entries.flatMap g
  | [], _ => by simp
  | e :: rest, fewer => by
    simp only [List.flatMap_cons]
    exact (fewer e List.mem_cons_self).append
      (flatMap_subperm fun other belongs => fewer other (List.mem_cons_of_mem _ belongs))

/-- The items of one entry are a part of the items of the whole map. -/
theorem sublist_flatMap_of_mem {f : β → List γ} :
    ∀ {entries : List β} {e : β}, e ∈ entries → f e <+ entries.flatMap f
  | [], _, absent => absurd absent List.not_mem_nil
  | head :: rest, e, belongs => by
    rw [List.flatMap_cons]
    rcases List.mem_cons.mp belongs with rfl | later
    · exact List.sublist_append_left _ _
    · exact (sublist_flatMap_of_mem later).trans (List.sublist_append_right _ _)

/-- Pairing a list with at least as many weights keeps every element of it. -/
theorem map_zip_of_fst {δ : Type} {l : List β} {w : List δ} (f : β × δ → γ) (g : β → γ)
    (enough : l.length ≤ w.length) (depends : ∀ p, f p = g p.1) :
    (l.zip w).map f = l.map g :=
  calc (l.zip w).map f = (l.zip w).map (g ∘ Prod.fst) := List.map_congr_left fun p _ => depends p
    _ = ((l.zip w).map Prod.fst).map g := List.map_map.symm
    _ = l.map g := by rw [List.map_fst_zip enough]

/-- Pairing the items from position `n` on with the weights from position `n` on gives each
item the weight of its position. -/
theorem zip_drop_eq_zipIdx {δ : Type} (d : δ) (w : List δ) :
    ∀ (l : List β) (n : Nat), l.length + n ≤ w.length →
      l.zip (w.drop n) = (l.zipIdx n).map fun p => (p.1, w.getD p.2 d)
  | [], _, _ => by simp
  | item :: rest, n, enough => by
    have inside : n < w.length := by
      rw [List.length_cons] at enough
      omega
    rw [List.drop_eq_getElem_cons inside, List.zip_cons_cons, List.zipIdx_cons, List.map_cons,
      zip_drop_eq_zipIdx d w rest (n + 1) (by rw [List.length_cons] at enough; omega),
      ← List.getElem_eq_getD d]

/-- Pairing a list with at least as many weights gives each item the weight of its
position. -/
theorem zip_eq_zipIdx {δ : Type} (d : δ) {l : List β} {w : List δ} (enough : l.length ≤ w.length) :
    l.zip w = l.zipIdx.map fun p => (p.1, w.getD p.2 d) := by
  simpa using zip_drop_eq_zipIdx d w l 0 enough

/-- A sorted copy under a relation that is total and transitive. -/
theorem pairwise_insertionSort_of (r : β → β → Prop) [DecidableRel r]
    (total : ∀ a b, r a b ∨ r b a) (trans : ∀ a b c, r a b → r b c → r a c) (l : List β) :
    (l.insertionSort r).Pairwise r :=
  haveI : Std.Total r := ⟨total⟩
  haveI : IsTrans β r := ⟨trans⟩
  List.pairwise_insertionSort r l

/-- The first `n` items of a sorted copy are a part of the list. -/
theorem map_take_insertionSort_subperm (r : β → β → Prop) [DecidableRel r] (n : Nat)
    (g : β → γ) (l : List β) : ((l.insertionSort r).take n).map g <+~ l.map g :=
  (((List.take_sublist _ _).map _).subperm).trans ((List.perm_insertionSort r l).map _).subperm

/-- A list that is a sub-permutation of a list without repeats has none. -/
theorem nodup_of_subperm {l₁ l₂ : List γ} (fewer : l₁ <+~ l₂) (unique : l₂.Nodup) : l₁.Nodup := by
  obtain ⟨l, same, sub⟩ := fewer
  exact same.nodup_iff.mp (unique.sublist sub)

end HeliumOracles.Lib.AssocMap

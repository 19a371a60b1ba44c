import Mathlib.Data.List.Nodup

/-!
# Folds that do not depend on the order of their list

A loop over the entries of a hash map runs in an order nobody controls. Its result
still does not depend on that order when two consecutive steps can be swapped: exactly
(`List.Perm.foldl_eq'`), or up to a relation that the steps respect, such as "the same
maps, and output lists that are permutations of each other" (`foldl_rel_of_perm`).
`unique` is `Itertools::unique`, which keeps the first occurrence of each item; on two
lists of the same items it gives permutations of each other (`unique_perm`). A loop that
can fail at a step fails on both orders or on neither, which `Option.Rel` states.
-/
namespace HeliumOracles.Lib.Reorder

section Fold

variable {α β : Type} {f : β → α → β} {R : β → β → Prop}

/-- A fold whose steps respect a reflexive, transitive relation `R` and commute up to
`R` gives `R`-related results on a list and any permutation of it. -/
theorem foldl_rel_of_perm (refl : ∀ b, R b b) (trans : ∀ {a b c}, R a b → R b c → R a c)
    (step : ∀ {b b'} x, R b b' → R (f b x) (f b' x)) {l₁ l₂ : List α} (p : l₁.Perm l₂)
    (swap : ∀ x ∈ l₁, ∀ y ∈ l₁, ∀ b, R (f (f b x) y) (f (f b y) x)) :
    ∀ {b b'}, R b b' → R (l₁.foldl f b) (l₂.foldl f b') := by
  induction p with
  | nil => exact id
  | cons x _ later =>
    intro b b' related
    exact later (fun y hy z hz => swap y (.tail _ hy) z (.tail _ hz)) (step x related)
  | swap x y l =>
    intro b b' related
    have swapped : R (f (f b y) x) (f (f b' x) y) :=
      trans (step x (step y related)) (swap y (.head _) x (.tail _ (.head _)) b')
    exact List.foldl_rel swapped fun z _ c c' => step z
  | trans first _ outer inner =>
    intro b b' related
    exact trans (outer swap related) (inner
      (fun x hx y hy => swap x (first.symm.subset hx) y (first.symm.subset hy)) (refl b'))

/-- Two related options have the same image under maps that agree on related values. -/
theorem map_eq_of_rel {γ : Type} {r : α → β → Prop} {g : α → γ} {g' : β → γ}
    (same : ∀ a b, r a b → g a = g' b) :
    ∀ {x : Option α} {y : Option β}, Option.Rel r x y → x.map g = y.map g'
  | _, _, .none => rfl
  | _, _, .some related => congrArg some (same _ _ related)

end Fold

section Unique

variable {α : Type} [DecidableEq α]

/-- `Itertools::unique`: the first occurrence of each item, in order. -/
def unique (items : List α) : List α :=
  items.foldl (fun kept item => if item ∈ kept then kept else kept ++ [item]) []

theorem mem_foldl_unique {x : α} (items : List α) : ∀ {kept : List α},
    x ∈ items.foldl (fun kept item => if item ∈ kept then kept else kept ++ [item]) kept ↔
      x ∈ kept ∨ x ∈ items := by
  induction items with
  | nil => simp
  | cons item rest later =>
    intro kept
    rw [List.foldl_cons, later]
    by_cases seen : item ∈ kept
    · simp only [seen, if_true, List.mem_cons]
      constructor
      · tauto
      · rintro (held | rfl | rest)
        exacts [.inl held, .inl seen, .inr rest]
    · simp only [seen, if_false, List.mem_append, List.mem_cons]
      tauto

theorem nodup_foldl_unique (items : List α) : ∀ {kept : List α}, kept.Nodup →
    (items.foldl (fun kept item => if item ∈ kept then kept else kept ++ [item]) kept).Nodup := by
  induction items with
  | nil => exact id
  | cons item rest later =>
    intro kept nodup
    rw [List.foldl_cons]
    apply later
    split
    · exact nodup
    · rename_i fresh
      exact nodup.append (List.nodup_singleton item) (by simpa using fresh)

@[simp] theorem mem_unique {x : α} {items : List α} : x ∈ unique items ↔ x ∈ items := by
  simp [unique, mem_foldl_unique]

theorem nodup_unique (items : List α) : (unique items).Nodup :=
  nodup_foldl_unique items List.nodup_nil

/-- Two lists of the same items give permutations of each other. -/
theorem unique_perm {items items' : List α} (same : ∀ x, x ∈ items ↔ x ∈ items') :
    (unique items).Perm (unique items') :=
  (List.perm_ext_iff_of_nodup (nodup_unique items) (nodup_unique items')).mpr fun x => by
    simp [same x]

end Unique

end HeliumOracles.Lib.Reorder

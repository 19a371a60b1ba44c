import Mathlib.Data.List.Basic

/-!
# Fallible computations in `Except`

Inversion rules for a successful `Except` computation, so that a proof about a
`do` block peels it apart with `obtain` instead of unfolding it, and the
invariant rule for `List.foldlM` in `Except`, the shape of a Rust loop that
returns early with `?`.
-/
namespace HeliumOracles.Lib.Result

variable {ε ε' α β : Type}

theorem bind_ok {x : Except ε α} {f : α → Except ε β} {b : β}
    (success : (x >>= f) = .ok b) : ∃ a, x = .ok a ∧ f a = .ok b := by
  cases x with
  | error e => cases success
  | ok a => exact ⟨a, rfl, success⟩

@[simp] theorem mapError_ok_iff {f : ε → ε'} {x : Except ε α} {a : α} :
    x.mapError f = .ok a ↔ x = .ok a := by
  cases x <;> simp [Except.mapError]

@[simp] theorem pure_ok_iff {a b : α} : (pure a : Except ε α) = .ok b ↔ a = b := by
  constructor
  · intro h; cases h; rfl
  · intro h; rw [h]; rfl

@[simp] theorem throw_ne_ok {e : ε} {a : α} : ¬ (throw e : Except ε α) = .ok a := by
  intro h; cases h

/-- A property kept by every successful step of a fold holds of its result. -/
theorem foldlM_invariant (inv : α → Prop) (f : α → β → Except ε α)
    (preserve : ∀ a b a', inv a → f a b = .ok a' → inv a') :
    ∀ (xs : List β) (a r : α), inv a → xs.foldlM f a = .ok r → inv r
  | [], a, r, before, success => by
    simp only [List.foldlM_nil] at success
    cases success
    exact before
  | x :: rest, a, r, before, success => by
    simp only [List.foldlM_cons] at success
    obtain ⟨a', first, later⟩ := bind_ok success
    exact foldlM_invariant inv f preserve rest a' r (preserve a x a' before first) later

/-- The rule for a loop in `Option`, where the property may speak of the items the loop
has already consumed: a property kept by every successful step holds at the end, of
all the items. -/
theorem foldlM_option_invariant (inv : List β → α → Prop) (f : α → β → Option α)
    (preserve : ∀ done a b a', inv done a → f a b = some a' → inv (done ++ [b]) a') :
    ∀ (xs done : List β) (a r : α), inv done a → xs.foldlM f a = some r → inv (done ++ xs) r
  | [], done, a, r, before, success => by
    simp only [List.foldlM_nil] at success
    cases success
    simpa using before
  | x :: rest, done, a, r, before, success => by
    simp only [List.foldlM_cons] at success
    obtain ⟨a', first, later⟩ := Option.bind_eq_some_iff.mp success
    have after := foldlM_option_invariant inv f preserve rest (done ++ [x]) a' r
      (preserve done a x a' before first) later
    simpa using after

end HeliumOracles.Lib.Result

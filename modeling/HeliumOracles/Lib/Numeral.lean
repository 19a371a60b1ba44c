import Mathlib

/-!
# Decimal numerals in lexicographic order

A store that sorts names as strings sorts the numbers written in them by their digits,
character by character. For numerals of one length that is the order of the numbers
(`toDigits_lt_toDigits`), and what follows two numerals of one length does not change how
they compare (`append_lt_append_of_length_eq`). Numerals of different lengths compare by
their first digits instead, which is why the length is part of every statement here.
-/
namespace HeliumOracles.Lib.Numeral

section Lex

variable {α : Type} [LT α]

/-- Two words of one length compare as their first difference says, whatever follows. -/
theorem append_lt_append_of_length_eq {xs ys : List α} (lt : xs < ys)
    (sameLength : xs.length = ys.length) (rest rest' : List α) : xs ++ rest < ys ++ rest' := by
  induction xs generalizing ys with
  | nil =>
    cases ys with
    | nil => exact absurd lt (List.not_lt_nil _)
    | cons => simp at sameLength
  | cons x xs ih =>
    cases ys with
    | nil => simp at sameLength
    | cons y ys =>
      rcases List.cons_lt_cons_iff.mp lt with head | ⟨rfl, tail⟩
      · exact List.cons_lt_cons_iff.mpr (.inl head)
      · exact List.cons_lt_cons_iff.mpr (.inr ⟨rfl, ih tail (by simpa using sameLength)⟩)

end Lex

theorem digitChar_lt_digitChar {d e : ℕ} (lt : d < e) (digit : e < 10) :
    d.digitChar < e.digitChar := by
  have low := Nat.toNat_digitChar_of_lt_ten (lt.trans digit)
  have high := Nat.toNat_digitChar_of_lt_ten digit
  rw [Char.lt_def, UInt32.lt_iff_toNat_lt]
  change d.digitChar.toNat < e.digitChar.toNat
  omega

theorem length_toDigits_of_base_le {n : ℕ} (large : 10 ≤ n) :
    (Nat.toDigits 10 n).length = (Nat.toDigits 10 (n / 10)).length + 1 := by
  rw [Nat.toDigits_of_base_le (by norm_num) large, List.length_append, List.length_singleton]

/-- A number from `10 ^ k` and below `10 ^ (k + 1)` has `k + 1` digits. -/
theorem length_toDigits_eq {n k : ℕ} (low : 10 ^ k ≤ n) (high : n < 10 ^ (k + 1)) :
    (Nat.toDigits 10 n).length = k + 1 := by
  have atMost := (Nat.length_toDigits_le_iff (b := 10) (by norm_num) (Nat.succ_pos k)).mpr high
  rcases k with _ | k
  · have := @Nat.length_toDigits_pos 10 n
    omega
  · have notShorter := (Nat.length_toDigits_le_iff (b := 10) (n := n) (by norm_num)
      (Nat.succ_pos k)).not.mpr (by omega)
    omega

/-- Numerals of one length are in the order of their numbers. -/
theorem toDigits_lt_toDigits {m n : ℕ} (lt : m < n)
    (sameLength : (Nat.toDigits 10 m).length = (Nat.toDigits 10 n).length) :
    Nat.toDigits 10 m < Nat.toDigits 10 n := by
  induction n using Nat.strong_induction_on generalizing m with
  | _ n ih =>
    by_cases small : n < 10
    · rw [Nat.toDigits_of_lt_base (lt.trans small), Nat.toDigits_of_lt_base small]
      exact List.cons_lt_cons_iff.mpr (.inl (digitChar_lt_digitChar lt small))
    · -- both numerals are a front and a last digit, the fronts of one length
      have nLarge : 10 ≤ n := by omega
      have mLarge : 10 ≤ m := by
        by_contra mSmall
        rw [Nat.toDigits_of_lt_base (by omega : m < 10), length_toDigits_of_base_le nLarge]
          at sameLength
        simp at sameLength
      have front : (Nat.toDigits 10 (m / 10)).length = (Nat.toDigits 10 (n / 10)).length := by
        rw [length_toDigits_of_base_le mLarge, length_toDigits_of_base_le nLarge] at sameLength
        omega
      rw [Nat.toDigits_of_base_le (by norm_num) mLarge, Nat.toDigits_of_base_le (by norm_num) nLarge]
      have shorter : n / 10 < n := by omega
      rcases Nat.lt_or_ge (m / 10) (n / 10) with frontLt | frontGe
      · exact append_lt_append_of_length_eq (ih (n / 10) shorter frontLt front) front _ _
      · have sameFront : m / 10 = n / 10 := by omega
        have lastLt : m % 10 < n % 10 := by omega
        rw [sameFront]
        exact List.append_left_lt (List.cons_lt_cons_iff.mpr
          (.inl (digitChar_lt_digitChar lastLt (Nat.mod_lt n (by norm_num)))))

end HeliumOracles.Lib.Numeral

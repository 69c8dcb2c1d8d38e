import Mathlib.Algebra.Field.Rat
import Mathlib.Algebra.Order.Field.Basic
import Mathlib.Algebra.Order.Ring.Rat
import Mathlib.Data.Int.Cast.Lemmas
import Mathlib.Data.Nat.Cast.Order.Ring
import Mathlib.Data.Rat.Lemmas

/-!
# Rational numbers as text

A rational number is written as its numerator, and a slash and its denominator if that is not one:
`"100"`, `"-3/2"`.

* **`Fraction.toText`** writes, **`Fraction.ofText`** reads;
* **`Fraction.ofText_toText`**: what is written is read back.
-/

namespace Fraction

/-! ### Digits -/

/-- The digits of a natural number. -/
def digits (n : ℕ) : List Char := Nat.toDigits 10 n

/-- The natural number that a non-empty list of digits denotes. -/
def ofDigits (cs : List Char) : Option ℕ :=
  if cs ≠ [] ∧ cs.all Char.isDigit then some (Nat.ofDigitChars 10 cs 0) else none

theorem isDigit_of_mem_digits {n : ℕ} {c : Char} (h : c ∈ digits n) : c.isDigit = true :=
  Nat.isDigit_of_mem_toDigits (by decide) (by decide) h

theorem not_mem_digits {n : ℕ} {c : Char} (hc : c.isDigit = false) : c ∉ digits n := by
  intro h
  rw [isDigit_of_mem_digits h] at hc
  cases hc

theorem ofDigits_digits (n : ℕ) : ofDigits (digits n) = some n := by
  rw [ofDigits, if_pos, digits, Nat.ofDigitChars_ten_toDigits]
  exact ⟨Nat.toDigits_ne_nil, List.all_eq_true.mpr fun _ => isDigit_of_mem_digits⟩

/-! ### Fractions -/

/-- A number that is not negative, as text. -/
def unsigned (q : ℚ) : List Char :=
  if q.den = 1 then digits q.num.natAbs else digits q.num.natAbs ++ '/' :: digits q.den

/-- Read a number that is not negative. -/
def ofUnsigned (cs : List Char) : Option ℚ :=
  match cs.splitOn '/' with
  | [num] => Option.map (fun n : ℕ => (n : ℚ)) (ofDigits num)
  | [num, den] =>
    match ofDigits num, ofDigits den with
    | some n, some d => some ((n : ℚ) / d)
    | _, _ => none
  | _ => none

/-- Write a number. -/
def toText (q : ℚ) : String :=
  String.ofList (if q < 0 then '-' :: unsigned q else unsigned q)

/-- Read a number. -/
def ofText (text : String) : Option ℚ :=
  match text.toList with
  | '-' :: cs => (ofUnsigned cs).map fun q => -q
  | cs => ofUnsigned cs

theorem ofUnsigned_unsigned (q : ℚ) : ofUnsigned (unsigned q) = some |q| := by
  have hslash : ∀ n, '/' ∉ digits n := fun n => not_mem_digits (by decide)
  have habs : ((q.num.natAbs : ℕ) : ℚ) = |(q.num : ℚ)| := by
    rw [Nat.cast_natAbs, Int.cast_abs]
  rw [unsigned]
  by_cases hden : q.den = 1
  · have hsplit : (digits q.num.natAbs).splitOn '/' = [digits q.num.natAbs] := by
      have hnone : ∀ cs ∈ [digits q.num.natAbs], '/' ∉ cs := by simp [hslash]
      have h := List.splitOn_intercalate '/' hnone (by simp)
      rw [List.intercalate_singleton] at h
      exact h
    rw [if_pos hden, ofUnsigned, hsplit]
    simp only [ofDigits_digits, Option.map_some]
    rw [habs]
    congr 2
    exact (Rat.den_eq_one_iff q).mp hden
  · have hsplit : (digits q.num.natAbs ++ '/' :: digits q.den).splitOn '/'
        = [digits q.num.natAbs, digits q.den] := by
      have hnone : ∀ cs ∈ [digits q.num.natAbs, digits q.den], '/' ∉ cs := by simp [hslash]
      have h := List.splitOn_intercalate '/' hnone (by simp)
      rw [List.intercalate_cons_cons, List.intercalate_singleton] at h
      simpa using h
    rw [if_neg hden, ofUnsigned, hsplit]
    simp only [ofDigits_digits]
    rw [habs, ← abs_of_nonneg (Nat.cast_nonneg (α := ℚ) q.den), ← abs_div, Rat.num_div_den]

/-- The text of a number that is not negative starts with a digit. -/
theorem unsigned_eq_cons (q : ℚ) : ∃ c cs, unsigned q = c :: cs ∧ c ≠ '-' := by
  have hdigits : ∃ c cs, digits q.num.natAbs = c :: cs :=
    List.exists_cons_of_ne_nil Nat.toDigits_ne_nil
  obtain ⟨c, cs, hc⟩ := hdigits
  have hne : c ≠ '-' := by
    rintro rfl
    have hnot : '-' ∉ digits q.num.natAbs := not_mem_digits (by decide)
    rw [hc] at hnot
    exact hnot List.mem_cons_self
  rw [unsigned, hc]
  split
  · exact ⟨c, cs, rfl, hne⟩
  · exact ⟨c, _, rfl, hne⟩

/-- **What is written is read back.** -/
theorem ofText_toText (q : ℚ) : ofText (toText q) = some q := by
  rw [ofText, toText, String.toList_ofList]
  by_cases hq : q < 0
  · rw [if_pos hq]
    simp only [ofUnsigned_unsigned, Option.map_some]
    rw [abs_of_neg hq, neg_neg]
  · rw [if_neg hq]
    obtain ⟨c, cs, hcs, hne⟩ := unsigned_eq_cons q
    rw [hcs]
    split
    · rename_i heq
      cases heq
      exact absurd rfl hne
    · rw [← hcs, ofUnsigned_unsigned, abs_of_nonneg (not_lt.mp hq)]

end Fraction

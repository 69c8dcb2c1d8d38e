import Mathlib.Algebra.Order.Floor.Ring
import Mathlib.Data.Int.Log
import Mathlib.Tactic.FieldSimp
import Mathlib.Tactic.Ring

/-!
# Truncation to significant digits

A number of an ordered field is cut off after so many significant digits in some base: how many places that
leaves depends on the magnitude of the number.

* **`places`**: the place of the last digit that is kept;
* **`truncate`**: the number without the digits after it;
* **`truncate_mono`**, **`truncate_nonneg`**, **`truncate_le`**: it keeps the order and goes towards zero;
* **`truncate_exact`**: a number of so many digits is kept as it is, wherever its point stands;
* **`truncate_truncate`**: and so is what was cut off before.
-/

universe u

namespace Truncation

variable {K : Type u} [Field K] [LinearOrder K] [IsStrictOrderedRing K] [FloorRing K]

/-- The place of the last of `digits` significant digits. -/
def places (base digits : ℕ) (x : K) : ℤ := digits - 1 - Int.log base |x|

/-- A number that is not negative without the digits after a place. -/
def cut (base : ℕ) (place : ℤ) (x : K) : K := ⌊x * (base : K) ^ place⌋ / (base : K) ^ place

/-- A number without the digits after the first `digits`. -/
def truncate (base digits : ℕ) (x : K) : K :=
  if x < 0 then -cut base (places base digits x) (-x) else cut base (places base digits x) x

variable {base : ℕ} (hbase : 1 < base)

theorem cut_zero (base : ℕ) (place : ℤ) : cut base place (0 : K) = 0 := by
  rw [cut, zero_mul, Int.floor_zero, Int.cast_zero, zero_div]

include hbase in
theorem base_pos : (0 : K) < base := by
  exact_mod_cast Nat.zero_lt_of_lt hbase

include hbase in
theorem cut_nonneg (place : ℤ) {x : K} (hx : 0 ≤ x) : 0 ≤ cut base place x := by
  have hpow : (0 : K) < (base : K) ^ place := zpow_pos (base_pos hbase) place
  have hfloor : 0 ≤ ⌊x * (base : K) ^ place⌋ := Int.floor_nonneg.mpr (mul_nonneg hx hpow.le)
  exact div_nonneg (by exact_mod_cast hfloor) hpow.le

include hbase in
theorem cut_le (place : ℤ) (x : K) : cut base place x ≤ x := by
  have hpow : (0 : K) < (base : K) ^ place := zpow_pos (base_pos hbase) place
  rw [cut, div_le_iff₀ hpow]
  exact Int.floor_le _

include hbase in
theorem cut_mono (place : ℤ) {x y : K} (h : x ≤ y) : cut base place x ≤ cut base place y := by
  have hpow : (0 : K) < (base : K) ^ place := zpow_pos (base_pos hbase) place
  have hfloor : ⌊x * (base : K) ^ place⌋ ≤ ⌊y * (base : K) ^ place⌋ :=
    Int.floor_le_floor (mul_le_mul_of_nonneg_right h hpow.le)
  exact div_le_div_of_nonneg_right (by exact_mod_cast hfloor) hpow.le

include hbase in
/-- A number with no digits after the place. -/
theorem cut_exact (place : ℤ) {x : K} {k : ℤ} (h : x * (base : K) ^ place = k) : cut base place x = x := by
  have hpow : (base : K) ^ place ≠ 0 := (zpow_pos (base_pos hbase) place).ne'
  rw [cut, h, Int.floor_intCast, ← h, mul_div_cancel_right₀ x hpow]

include hbase in
/-- The leading digit is kept. -/
theorem zpow_log_le_cut {digits : ℕ} (hdigits : 0 < digits) {x : K} (hx : 0 < x) :
    (base : K) ^ Int.log base x ≤ cut base (places base digits x) x := by
  have hpow : (0 : K) < (base : K) ^ places base digits x := zpow_pos (base_pos hbase) _
  have hexponent : Int.log base x + places base digits x = (digits - 1 : ℕ) := by
    rw [places, abs_of_pos hx]
    omega
  have hlead : (base : K) ^ Int.log base x * (base : K) ^ places base digits x
      = ((base ^ (digits - 1) : ℕ) : ℤ) := by
    rw [← zpow_add₀ (base_pos hbase).ne', hexponent, zpow_natCast]
    push_cast
    rfl
  rw [← cut_exact hbase _ hlead]
  exact cut_mono hbase _ (Int.zpow_log_le_self hbase hx)

variable {digits : ℕ}

omit [IsStrictOrderedRing K] in
theorem truncate_of_nonneg {x : K} (hx : 0 ≤ x) :
    truncate base digits x = cut base (places base digits x) x := if_neg (not_lt.mpr hx)

/-- Truncation does not look at the sign. -/
theorem truncate_neg (x : K) : truncate base digits (-x) = -truncate base digits x := by
  have hplaces : places base digits (-x) = places base digits x := by rw [places, places, abs_neg]
  rcases lt_trichotomy x 0 with hx | rfl | hx
  · rw [truncate, if_neg (not_lt.mpr (neg_nonneg.mpr hx.le)), truncate, if_pos hx, hplaces, neg_neg]
  · rw [neg_zero, truncate_of_nonneg le_rfl, cut_zero, neg_zero]
  · rw [truncate, if_pos (neg_neg_of_pos hx), truncate_of_nonneg hx.le, hplaces, neg_neg]

include hbase in
theorem truncate_nonneg {x : K} (hx : 0 ≤ x) : 0 ≤ truncate base digits x := by
  rw [truncate_of_nonneg hx]
  exact cut_nonneg hbase _ hx

include hbase in
theorem truncate_le {x : K} (hx : 0 ≤ x) : truncate base digits x ≤ x := by
  rw [truncate_of_nonneg hx]
  exact cut_le hbase _ x

include hbase in
theorem truncate_nonpos {x : K} (hx : x ≤ 0) : truncate base digits x ≤ 0 := by
  have h : 0 ≤ truncate base digits (-x) := truncate_nonneg hbase (neg_nonneg.mpr hx)
  rw [truncate_neg] at h
  exact neg_nonneg.mp h

include hbase in
/-- Positive numbers are kept in order: the greater one has as many digits after its point or fewer, and
where it has fewer its leading digit is enough. -/
theorem truncate_mono_of_pos (hdigits : 0 < digits) {x y : K} (hx : 0 < x) (h : x ≤ y) :
    truncate base digits x ≤ truncate base digits y := by
  have hy : 0 < y := hx.trans_le h
  rw [truncate_of_nonneg hx.le, truncate_of_nonneg hy.le]
  rcases (Int.log_mono_right hx h : Int.log base x ≤ Int.log base y).eq_or_lt with hsame | hless
  · have hplaces : places base digits x = places base digits y := by
      rw [places, places, abs_of_pos hx, abs_of_pos hy, hsame]
    rw [hplaces]
    exact cut_mono hbase _ h
  · calc cut base (places base digits x) x ≤ x := cut_le hbase _ x
      _ ≤ (base : K) ^ Int.log base y :=
        ((Int.lt_zpow_iff_log_lt hbase hx).mpr hless).le
      _ ≤ cut base (places base digits y) y := zpow_log_le_cut hbase hdigits hy

include hbase in
/-- **Truncation keeps the order.** -/
theorem truncate_mono (hdigits : 0 < digits) {x y : K} (h : x ≤ y) :
    truncate base digits x ≤ truncate base digits y := by
  rcases lt_or_ge 0 x with hx | hx
  · exact truncate_mono_of_pos hbase hdigits hx h
  · rcases lt_or_ge y 0 with hy | hy
    · have hneg := truncate_mono_of_pos hbase hdigits (neg_pos.mpr hy) (neg_le_neg h)
      rw [truncate_neg, truncate_neg] at hneg
      exact neg_le_neg_iff.mp hneg
    · exact (truncate_nonpos hbase hx).trans (truncate_nonneg hbase hy)

include hbase in
/-- **A number of at most `digits` digits is kept as it is.** -/
theorem truncate_exact {x : K} {k : ℤ} {scale : ℕ} (hx : x = k / (base : K) ^ scale)
    (hk : |k| < (base : ℤ) ^ digits) : truncate base digits x = x := by
  have hpos : (0 : K) < base := base_pos hbase
  -- the places that are kept are at least those of the number
  have hgrid : x ≠ 0 → ∃ l : ℤ, |x| * (base : K) ^ places base digits x = l := by
    intro hne
    have habs : 0 < |x| := abs_pos.mpr hne
    have hbound : |x| < (base : K) ^ ((digits : ℤ) - scale) := by
      rw [hx, abs_div, abs_of_pos (pow_pos hpos scale), div_lt_iff₀ (pow_pos hpos scale),
        ← zpow_natCast, ← zpow_add₀ hpos.ne', sub_add_cancel, zpow_natCast]
      exact_mod_cast hk
    have hlog := (Int.lt_zpow_iff_log_lt hbase habs).mp hbound
    obtain ⟨more, hmore⟩ : ∃ more : ℕ, places base digits x = scale + more := by
      refine ⟨(places base digits x - scale).toNat, ?_⟩
      rw [places]
      omega
    refine ⟨|k| * base ^ more, ?_⟩
    rw [hmore, zpow_add₀ hpos.ne', zpow_natCast, zpow_natCast, hx, abs_div,
      abs_of_pos (pow_pos hpos scale)]
    field_simp
    push_cast
    rfl
  rcases lt_trichotomy x 0 with hneg | hzero | hnonneg
  · obtain ⟨l, hl⟩ := hgrid hneg.ne
    rw [abs_of_neg hneg] at hl
    rw [truncate, if_pos hneg, cut_exact hbase _ hl, neg_neg]
  · rw [hzero, truncate_of_nonneg le_rfl, cut_zero]
  · obtain ⟨l, hl⟩ := hgrid hnonneg.ne'
    rw [abs_of_pos hnonneg] at hl
    rw [truncate_of_nonneg hnonneg.le, cut_exact hbase _ hl]

include hbase in
theorem truncate_truncate_of_pos (hdigits : 0 < digits) {x : K} (hx : 0 < x) :
    truncate base digits (truncate base digits x) = truncate base digits x := by
  have hlead := zpow_log_le_cut hbase hdigits hx
  rw [truncate_of_nonneg hx.le]
  have hpos : 0 < cut base (places base digits x) x := (zpow_pos (base_pos hbase) _).trans_le hlead
  -- the leading digit stays where it is, and so does the last
  have hlog : Int.log base (cut base (places base digits x) x) = Int.log base x :=
    le_antisymm (Int.log_mono_right hpos (cut_le hbase _ x)) ((Int.zpow_le_iff_le_log hbase hpos).mp hlead)
  have hplaces : places base digits (cut base (places base digits x) x) = places base digits x := by
    conv_lhs => rw [places, abs_of_pos hpos, hlog]
    rw [places, abs_of_pos hx]
  have hpow : (base : K) ^ places base digits x ≠ 0 := (zpow_pos (base_pos hbase) _).ne'
  rw [truncate_of_nonneg hpos.le, hplaces]
  exact cut_exact hbase _ (div_mul_cancel₀ _ hpow)

include hbase in
/-- **What is cut off once** is not cut off again. -/
theorem truncate_truncate (hdigits : 0 < digits) (x : K) :
    truncate base digits (truncate base digits x) = truncate base digits x := by
  rcases lt_trichotomy x 0 with hneg | rfl | hpos
  · have h := truncate_truncate_of_pos hbase hdigits (neg_pos.mpr hneg)
    rw [truncate_neg, truncate_neg] at h
    exact neg_injective h
  · rw [truncate_of_nonneg le_rfl, cut_zero, truncate_of_nonneg le_rfl, cut_zero]
  · exact truncate_truncate_of_pos hbase hdigits hpos

end Truncation

import Mathlib.Algebra.Order.Floor.Ring
import Mathlib.Data.Rat.Floor
import Mathlib.RingTheory.Coprime.Lemmas
import Mathlib.Tactic.FieldSimp
import Mathlib.Tactic.Ring
import NexusTrade.Lib.Truncation
import NexusTrade.Shared.Domain

/-!
# Decimal places

`decimal.js` computes with forty significant digits and the numeric columns have a precision and a scale, so
both hold some numbers exactly and no others.

* **`Fits`**: the numbers of so many digits, so many of which stand after the point;
* **`Precise`**, **`Numeric`** and **`Ordered`**: what the rounding and a column do with such numbers;
* **`truncated`**: truncation to significant digits;
* **`numeric`**: the column of PostgreSQL, which rounds half away from zero;
* **`places_of_sum`**: a decimal number and a thousandth of it add up to `scale` places only if the number has
  three places less.
-/

namespace NexusTrade

open Extended (AtMost Balance TowardZero)

/-! ### Numbers that fit -/

/-- At most `digits` decimal digits, `places` of them after the point. -/
def Fits (digits places : ℕ) (x : ℚ) : Prop := ∃ k : ℤ, x = k / 10 ^ places ∧ |k| < 10 ^ digits

/-- A number that a decimal string denotes. -/
def IsDecimal (x : ℚ) : Prop := ∃ (m : ℤ) (n : ℕ), x = m / 10 ^ n

theorem Fits.neg {digits places : ℕ} {x : ℚ} (h : Fits digits places x) : Fits digits places (-x) := by
  obtain ⟨k, rfl, hk⟩ := h
  refine ⟨-k, ?_, ?_⟩
  · rw [Int.cast_neg, neg_div]
  · rw [abs_neg]
    exact hk

theorem Fits.add {digits places : ℕ} {x y : ℚ} (hx : Fits digits places x)
    (hy : Fits digits places y) : Fits (digits + 1) places (x + y) := by
  obtain ⟨k, rfl, hk⟩ := hx
  obtain ⟨l, rfl, hl⟩ := hy
  refine ⟨k + l, ?_, ?_⟩
  · rw [Int.cast_add, add_div]
  · have hsum := abs_add_le k l
    have hnonneg := abs_nonneg k
    rw [pow_succ]
    omega

theorem Fits.mono {digits digits' places : ℕ} {x : ℚ} (h : Fits digits places x)
    (hdigits : digits ≤ digits') : Fits digits' places x := by
  obtain ⟨k, rfl, hk⟩ := h
  exact ⟨k, rfl, hk.trans_le (pow_le_pow_right₀ (by decide) hdigits)⟩

theorem Fits.zero (digits places : ℕ) : Fits digits places 0 := by
  refine ⟨0, ?_, ?_⟩
  · rw [Int.cast_zero, zero_div]
  · rw [abs_zero]
    exact pow_pos (by decide) digits

/-- **A number and a thousandth of it** have `places + 3` places together only if the number has `places`
places: 1001 has no factor in common with ten. -/
theorem places_of_sum {x : ℚ} (places : ℕ) {k : ℤ} (hx : IsDecimal x)
    (hsum : x + x / 1000 = k / 10 ^ (places + 3)) : ∃ j : ℤ, x = j / 10 ^ places := by
  obtain ⟨m, n, rfl⟩ := hx
  have hn : (10 : ℚ) ^ n ≠ 0 := pow_ne_zero n (by norm_num)
  have hp : (10 : ℚ) ^ places ≠ 0 := pow_ne_zero places (by norm_num)
  have hcross : 1001 * m * 10 ^ places = k * 10 ^ n := by
    have hrat : (1001 : ℚ) * m * 10 ^ places = k * 10 ^ n := by
      rw [pow_add] at hsum
      field_simp at hsum
      linarith
    exact_mod_cast hrat
  have hdvd : (1001 : ℤ) ∣ k * 10 ^ n := ⟨m * 10 ^ places, by rw [← hcross, mul_assoc]⟩
  have hcoprime : IsCoprime (1001 : ℤ) (10 ^ n) := by
    apply IsCoprime.pow_right
    exact ⟨1, -100, by norm_num⟩
  obtain ⟨j, rfl⟩ := hcoprime.dvd_of_dvd_mul_right hdvd
  refine ⟨j, ?_⟩
  have hj : m * 10 ^ places = j * 10 ^ n := by
    apply mul_left_cancel₀ (show (1001 : ℤ) ≠ 0 by decide)
    rw [← mul_assoc, hcross, mul_assoc]
  have hrat : (m : ℚ) * 10 ^ places = j * 10 ^ n := by exact_mod_cast hj
  rw [div_eq_div_iff hn hp]
  exact hrat

/-! ### Rounding -/

/-- Truncation to `digits` significant digits, as far as the proofs rely on it: it goes towards zero, keeps
the order, and leaves what fits as it is. -/
structure Precise (digits places : ℕ) (round : Rounding) : Prop where
  towardZero : TowardZero round
  mono : ∀ x y, x ≤ y → AtMost (round x) (round y)
  exact : ∀ x, Fits digits places x → round x = .fin x

theorem precise_fin (digits places : ℕ) : Precise digits places .fin where
  towardZero := Extended.towardZero_fin
  mono := fun _ _ h => h
  exact := fun _ _ => rfl

/-- Truncation to `digits` significant digits. -/
def truncated (digits : ℕ) : Rounding := fun x => .fin (Truncation.truncate 10 digits x)

/-- **Truncation is precise**, wherever the point stands. -/
theorem precise_truncated {digits : ℕ} (hdigits : 0 < digits) (places : ℕ) :
    Precise digits places (truncated digits) where
  towardZero :=
    { nonneg := fun x hx => Or.inr ⟨_, rfl, Truncation.truncate_nonneg (by decide) hx,
        Truncation.truncate_le (by decide) hx⟩
      odd := fun x => congrArg Extended.fin (Truncation.truncate_neg x) }
  mono := fun _ _ h => Truncation.truncate_mono (by decide) hdigits h
  exact := by
    rintro x ⟨k, hx, hk⟩
    exact congrArg Extended.fin (Truncation.truncate_exact (by decide) (by exact_mod_cast hx) hk)

/-- What was rounded is not rounded again. -/
theorem truncated_again {digits : ℕ} (hdigits : 0 < digits) {x y : ℚ} (h : truncated digits x = .fin y) :
    truncated digits y = .fin y := by
  obtain rfl := Extended.fin.inj h
  exact congrArg Extended.fin (Truncation.truncate_truncate (by decide) hdigits x)

/-- **What is taken from a number lowers it**: the rounded difference is a smaller number, unless it is
negative and refused. -/
theorem Precise.lowers {digits places : ℕ} {round : Rounding} (h : Precise digits places round)
    {b d : ℚ} (hb : (round b).isFinite = true) (hd : 0 < d) (hfits : Fits digits places d)
    (hpass : (round (b + -d)).ltZero = false) : ∃ b', round (b + -d) = .fin b' ∧ b' < b := by
  rcases le_or_gt b 0 with hb0 | hb0
  · -- the difference is at most `-d`, which is exact and refused
    have hle := h.mono (b + -d) (-d) (by linarith)
    rw [h.exact (-d) hfits.neg] at hle
    cases hr : round (b + -d) with
    | nan => rw [hr] at hle; exact hle.elim
    | inf negative => rw [hr] at hle hpass; exact nomatch (show negative = true from hle).symm.trans hpass
    | fin r =>
        rw [hr] at hle hpass
        have hnot : ¬ r < 0 := of_decide_eq_false hpass
        exact absurd (lt_of_le_of_lt hle (neg_neg_of_pos hd)) hnot
  · rcases lt_or_ge (b + -d) 0 with hneg | hnonneg
    · have hle := h.mono (b + -d) 0 hneg.le
      rw [h.exact 0 (Fits.zero digits places)] at hle
      obtain ⟨r, hr, _⟩ := Extended.balance_iff.mp (h.towardZero.negative hneg hpass)
      rw [hr] at hle
      exact ⟨r, hr, lt_of_le_of_lt hle hb0⟩
    · rcases h.towardZero.nonneg (b + -d) hnonneg with hinf | ⟨r, hr, _, hle⟩
      · have hover := h.mono (b + -d) b (by linarith)
        rw [hinf] at hover
        cases hround : round b with
        | nan => rw [hround] at hb; cases hb
        | inf _ => rw [hround] at hb; cases hb
        | fin x => rw [hround] at hover; cases hover
      · exact ⟨r, hr, by linarith⟩

/-! ### Columns -/

/-- A column of type `numeric(precision, scale)`, as far as the proofs rely on it: the numbers it holds fit,
and a number of its places that it accepts is stored as it is. -/
structure Numeric (precision scale : ℕ) (column : Column) : Prop extends column.Keeps where
  stored : ∀ x b, column x = some (.fin b) → Fits precision scale b
  exact : ∀ (k : ℤ) y, column (.fin (k / 10 ^ scale)) = some y → y = .fin (k / 10 ^ scale)

/-- Such a column accepts the numbers that fit, keeps the order, and holds no infinity. -/
structure Ordered (precision scale : ℕ) (column : Column) : Prop extends Numeric precision scale column where
  holds : ∀ x, Fits precision scale x → column (.fin x) = some (.fin x)
  mono : ∀ x y a b, column (.fin x) = some (.fin a) → column (.fin y) = some (.fin b) → x ≤ y → a ≤ b
  finite : ∀ x y, column (.fin x) = some y → ∃ z, y = .fin z
  overflow : ∀ negative, column (.inf negative) = none

/-- Rounding to the nearest integer, half away from zero. -/
def roundHalfAway (x : ℚ) : ℤ := if 0 ≤ x then ⌊x + 1 / 2⌋ else ⌈x - 1 / 2⌉

/-- The column of PostgreSQL: infinities do not fit. -/
def numeric (precision scale : ℕ) : Column
  | .nan => some .nan
  | .inf _ => none
  | .fin x =>
    let k := roundHalfAway (x * 10 ^ scale)
    if |k| < 10 ^ precision then some (.fin (k / 10 ^ scale)) else none

theorem roundHalfAway_intCast (k : ℤ) : roundHalfAway k = k := by
  rw [roundHalfAway]
  split
  · rw [Int.floor_intCast_add, show ⌊(1 / 2 : ℚ)⌋ = 0 by norm_num, add_zero]
  · rw [Int.ceil_eq_iff]
    constructor <;> norm_num

theorem roundHalfAway_nonneg {x : ℚ} (hx : 0 ≤ x) : 0 ≤ roundHalfAway x := by
  rw [roundHalfAway, if_pos hx]
  exact Int.floor_nonneg.mpr (by linarith)

theorem numeric_fin_ok {precision scale : ℕ} {x : ℚ} {y : Amount}
    (h : numeric precision scale (.fin x) = some y) :
    |roundHalfAway (x * 10 ^ scale)| < 10 ^ precision ∧
      y = .fin (roundHalfAway (x * 10 ^ scale) / 10 ^ scale) := by
  simp only [numeric] at h
  split at h
  · rename_i hk
    cases h
    exact ⟨hk, rfl⟩
  · cases h

theorem numeric_numeric (precision scale : ℕ) : Numeric precision scale (numeric precision scale) where
  zero := by
    have hzero : roundHalfAway (0 * 10 ^ scale) = 0 := by
      rw [zero_mul]
      exact_mod_cast roundHalfAway_intCast 0
    rw [Amount.zero, numeric, hzero, abs_zero, if_pos (pow_pos (by decide) precision), Int.cast_zero,
      zero_div]
  balance := by
    intro x y h hx
    obtain ⟨q, rfl, hq⟩ := Extended.balance_iff.mp hx
    obtain ⟨_, rfl⟩ := numeric_fin_ok h
    have hpow : (0 : ℚ) ≤ 10 ^ scale := by positivity
    have hk : (0 : ℚ) ≤ roundHalfAway (q * 10 ^ scale) := by
      exact_mod_cast roundHalfAway_nonneg (mul_nonneg hq hpow)
    exact div_nonneg hk hpow
  stored := by
    intro x b h
    cases x with
    | nan => cases h
    | inf _ => cases h
    | fin x =>
        obtain ⟨hk, hy⟩ := numeric_fin_ok h
        cases hy
        exact ⟨_, rfl, hk⟩
  exact := by
    intro k y h
    obtain ⟨_, rfl⟩ := numeric_fin_ok h
    rw [div_mul_cancel₀ (k : ℚ) (pow_ne_zero scale (by norm_num)), roundHalfAway_intCast]

theorem roundHalfAway_mono {x y : ℚ} (h : x ≤ y) : roundHalfAway x ≤ roundHalfAway y := by
  rw [roundHalfAway, roundHalfAway]
  split
  · rename_i hx
    rw [if_pos (hx.trans h)]
    exact Int.floor_le_floor (by linarith)
  · rename_i hx
    split
    · rename_i hy
      have hup : ⌈x - 1 / 2⌉ ≤ 0 := Int.ceil_le.mpr (by push_cast; linarith)
      have hdown : 0 ≤ ⌊y + 1 / 2⌋ := Int.floor_nonneg.mpr (by linarith)
      exact hup.trans hdown
    · exact Int.ceil_le_ceil (by linarith)

theorem numeric_ordered (precision scale : ℕ) : Ordered precision scale (numeric precision scale) where
  toNumeric := numeric_numeric precision scale
  holds := by
    rintro x ⟨k, rfl, hk⟩
    simp only [numeric]
    rw [div_mul_cancel₀ (k : ℚ) (pow_ne_zero scale (by norm_num)), roundHalfAway_intCast, if_pos hk]
  mono := by
    intro x y a b ha hb hle
    obtain ⟨-, ha⟩ := numeric_fin_ok ha
    obtain ⟨-, hb⟩ := numeric_fin_ok hb
    cases ha
    cases hb
    have hpow : (0 : ℚ) ≤ 10 ^ scale := by positivity
    have hround := roundHalfAway_mono (mul_le_mul_of_nonneg_right hle hpow)
    exact div_le_div_of_nonneg_right (by exact_mod_cast hround) hpow
  finite := by
    intro x y h
    exact ⟨_, (numeric_fin_ok h).2⟩
  overflow := fun _ => rfl

end NexusTrade

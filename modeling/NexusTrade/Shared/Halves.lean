import NexusTrade.Shared.Places

/-!
# Half-way numbers

A numeric column rounds to the nearest number of its places, and a number half-way between two of them away
from zero.  Added to a number that the column holds, a half-way number is therefore rounded up if the sum is
not negative, and down if it is.

* **`halfUp`**, **`halfDown`**: rounding to the nearest, half-way numbers up or down; they differ on
  **`Halfway`** numbers alone;
* **`numeric_round`**: the digits that `decimal.js` cuts off change nothing in what is stored;
* **`stored_checked`** and **`stored_unchecked`**: what a sum adds to the column, with and without the
  comparison with zero;
* **`halfUp_round`** and **`halfDown_round`**: the two roundings of a number that `decimal.js` has cut off.
-/

namespace NexusTrade

open Extended (TowardZero)

/-! ### Rounding to the nearest -/

/-- Rounding to `scale` places, half-way numbers up. -/
def halfUp (scale : ℕ) (x : ℚ) : ℚ := ⌊x * 10 ^ scale + 1 / 2⌋ / 10 ^ scale

/-- Rounding to `scale` places, half-way numbers down. -/
def halfDown (scale : ℕ) (x : ℚ) : ℚ := ⌈x * 10 ^ scale - 1 / 2⌉ / 10 ^ scale

/-- Half-way between two numbers of `scale` places. -/
def Halfway (scale : ℕ) (x : ℚ) : Prop := Int.fract (x * 10 ^ scale) = 1 / 2

instance (scale : ℕ) (x : ℚ) : Decidable (Halfway scale x) := inferInstanceAs (Decidable (_ = _))

/-- A number of `scale` places. -/
def OnGrid (scale : ℕ) (x : ℚ) : Prop := ∃ k : ℤ, x = k / 10 ^ scale

theorem Fits.onGrid {digits places : ℕ} {x : ℚ} (h : Fits digits places x) : OnGrid places x := by
  obtain ⟨k, hk, _⟩ := h
  exact ⟨k, hk⟩

section Nearest

variable {scale : ℕ} {x b : ℚ}

theorem scale_ne_zero (scale : ℕ) : (10 : ℚ) ^ scale ≠ 0 := pow_ne_zero scale (by norm_num)

theorem halfDown_neg (scale : ℕ) (x : ℚ) : halfDown scale (-x) = -halfUp scale x := by
  have harg : -x * 10 ^ scale - 1 / 2 = -(x * 10 ^ scale + 1 / 2) := by ring
  rw [halfDown, halfUp, harg, Int.ceil_neg, Int.cast_neg, neg_div]

theorem halfUp_neg (scale : ℕ) (x : ℚ) : halfUp scale (-x) = -halfDown scale x := by
  rw [← neg_neg (halfUp scale (-x)), ← halfDown_neg, neg_neg]

/-- A number of the places passes through. -/
theorem OnGrid.halfUp_add (hb : OnGrid scale b) (x : ℚ) :
    halfUp scale (b + x) = b + halfUp scale x := by
  obtain ⟨k, rfl⟩ := hb
  have harg : ((k : ℚ) / 10 ^ scale + x) * 10 ^ scale + 1 / 2 = k + (x * 10 ^ scale + 1 / 2) := by
    rw [add_mul, div_mul_cancel₀ _ (scale_ne_zero scale), add_assoc]
  rw [halfUp, harg, Int.floor_intCast_add, Int.cast_add, add_div, halfUp]

theorem OnGrid.neg (hb : OnGrid scale b) : OnGrid scale (-b) := by
  obtain ⟨k, rfl⟩ := hb
  exact ⟨-k, by rw [Int.cast_neg, neg_div]⟩

theorem OnGrid.halfDown_add (hb : OnGrid scale b) (x : ℚ) :
    halfDown scale (b + x) = b + halfDown scale x := by
  have h := hb.neg.halfUp_add (-x)
  rw [← neg_add, halfUp_neg, halfUp_neg, ← neg_add] at h
  exact neg_injective h

theorem halfUp_zero (scale : ℕ) : halfUp scale 0 = 0 := by
  have hfloor : ⌊(0 : ℚ) * 10 ^ scale + 1 / 2⌋ = 0 := by
    rw [zero_mul, zero_add]
    norm_num
  rw [halfUp, hfloor, Int.cast_zero, zero_div]

theorem OnGrid.halfUp_self (hb : OnGrid scale b) : halfUp scale b = b := by
  have h := hb.halfUp_add 0
  rw [add_zero, halfUp_zero, add_zero] at h
  exact h

/-- **The two roundings differ by one unit on half-way numbers, and agree on the others.** -/
theorem halfUp_eq (scale : ℕ) (x : ℚ) :
    halfUp scale x = halfDown scale x + if Halfway scale x then 1 / 10 ^ scale else 0 := by
  have hbelow := Int.fract_nonneg (x * 10 ^ scale)
  have habove := Int.fract_lt_one (x * 10 ^ scale)
  have hsplit := Int.floor_add_fract (x * 10 ^ scale)
  rw [halfUp, halfDown]
  by_cases hhalf : Halfway scale x
  · have hfract : Int.fract (x * 10 ^ scale) = 1 / 2 := hhalf
    have hup : ⌊x * 10 ^ scale + 1 / 2⌋ = ⌊x * 10 ^ scale⌋ + 1 := by
      rw [Int.floor_eq_iff]
      push_cast
      constructor <;> linarith
    have hdown : ⌈x * 10 ^ scale - 1 / 2⌉ = ⌊x * 10 ^ scale⌋ := by
      rw [Int.ceil_eq_iff]
      constructor <;> linarith
    rw [hup, hdown, if_pos hhalf, Int.cast_add, Int.cast_one, add_div]
  · have hfract : Int.fract (x * 10 ^ scale) ≠ 1 / 2 := hhalf
    rw [if_neg hhalf, add_zero]
    have hsame : ⌊x * 10 ^ scale + 1 / 2⌋ = ⌈x * 10 ^ scale - 1 / 2⌉ := by
      rcases lt_or_gt_of_ne hfract with hlow | hhigh
      · have hup : ⌊x * 10 ^ scale + 1 / 2⌋ = ⌊x * 10 ^ scale⌋ := by
          rw [Int.floor_eq_iff]
          constructor <;> linarith
        rw [hup, eq_comm, Int.ceil_eq_iff]
        constructor <;> linarith
      · have hup : ⌊x * 10 ^ scale + 1 / 2⌋ = ⌊x * 10 ^ scale⌋ + 1 := by
          rw [Int.floor_eq_iff]
          push_cast
          constructor <;> linarith
        rw [hup, eq_comm, Int.ceil_eq_iff]
        push_cast
        constructor <;> linarith
    rw [hsame]

/-- A half-way number has one place more. -/
theorem Halfway.eq (h : Halfway scale x) :
    x = ((10 * ⌊x * 10 ^ scale⌋ + 5 : ℤ) : ℚ) / 10 ^ (scale + 1) := by
  have hfract : Int.fract (x * 10 ^ scale) = 1 / 2 := h
  have hsplit := Int.floor_add_fract (x * 10 ^ scale)
  rw [eq_div_iff (scale_ne_zero (scale + 1)), pow_succ]
  push_cast
  linarith

theorem roundHalfAway_neg (x : ℚ) : roundHalfAway (-x) = -roundHalfAway x := by
  rcases lt_trichotomy x 0 with hneg | rfl | hpos
  · have harg : -x + 1 / 2 = -(x - 1 / 2) := by ring
    rw [roundHalfAway, if_pos (by linarith), roundHalfAway, if_neg (not_le.mpr hneg), harg, Int.floor_neg]
  · rw [neg_zero, show roundHalfAway 0 = 0 from by exact_mod_cast roundHalfAway_intCast 0, neg_zero]
  · have harg : -x - 1 / 2 = -(x + 1 / 2) := by ring
    rw [roundHalfAway, if_neg (by linarith), roundHalfAway, if_pos hpos.le, harg, Int.ceil_neg]

theorem abs_sub_roundHalfAway (x : ℚ) : |x - roundHalfAway x| ≤ 1 / 2 := by
  rw [roundHalfAway, abs_le]
  split
  · have hle := Int.floor_le (x + 1 / 2)
    have hlt := Int.lt_floor_add_one (x + 1 / 2)
    constructor <;> linarith
  · have hle := Int.le_ceil (x - 1 / 2)
    have hlt := Int.ceil_lt_add_one (x - 1 / 2)
    constructor <;> linarith

/-- A number that is not negative is stored with half-way numbers rounded up. -/
theorem nearest_nonneg (scale : ℕ) (hx : 0 ≤ x) :
    (roundHalfAway (x * 10 ^ scale) : ℚ) / 10 ^ scale = halfUp scale x := by
  have hscaled : 0 ≤ x * 10 ^ scale := mul_nonneg hx (by positivity)
  rw [roundHalfAway, if_pos hscaled, halfUp]

/-- A negative number, with half-way numbers rounded down. -/
theorem nearest_nonpos (scale : ℕ) (hx : x ≤ 0) :
    (roundHalfAway (x * 10 ^ scale) : ℚ) / 10 ^ scale = halfDown scale x := by
  have h := nearest_nonneg scale (neg_nonneg.mpr hx)
  rw [neg_mul, roundHalfAway_neg, Int.cast_neg, neg_div, halfUp_neg] at h
  exact neg_injective h

end Nearest

/-! ### Digits that are cut off -/

section Precise

variable {precision scale : ℕ} {round : Rounding} {x r b : ℚ}

/-- A number with few digits that is at most `x` is at most what `x` is cut to. -/
theorem Precise.le_of_fits {digits places : ℕ} (h : Precise digits places round) {g : ℚ}
    (hg : Fits digits places g) (hle : g ≤ x) (hr : round x = .fin r) : g ≤ r := by
  have hmono := h.mono g x hle
  rw [h.exact g hg, hr] at hmono
  exact hmono

/-- Where the rounding to the nearest of `x` is reached, in one place more. -/
theorem fits_threshold (precision scale : ℕ) {n : ℤ} (hn : 1 ≤ n) (hbound : n ≤ 5 * 10 ^ precision) :
    Fits (precision + 2) (scale + 1) (((n : ℚ) - 1 / 2) / 10 ^ scale) := by
  refine ⟨10 * n - 5, ?_, ?_⟩
  · rw [pow_succ, div_eq_div_iff (scale_ne_zero scale) (by positivity)]
    push_cast
    ring
  · rw [abs_of_nonneg (by linarith), pow_add]
    linarith

/-- **Cutting digits off does not change the nearest number** of `scale` places. -/
theorem Precise.nearest_of_nonneg (h : Precise (precision + 2) (scale + 1) round) (hx : 0 ≤ x)
    (hr : round x = .fin r) (hbound : r * 10 ^ scale < 5 * 10 ^ precision) :
    0 ≤ r ∧ r ≤ x ∧ x * 10 ^ scale < 5 * 10 ^ precision ∧
      roundHalfAway (r * 10 ^ scale) = roundHalfAway (x * 10 ^ scale) := by
  have hpow : (0 : ℚ) < 10 ^ scale := by positivity
  obtain ⟨hr0, hrx⟩ : 0 ≤ r ∧ r ≤ x := by
    rcases h.towardZero.nonneg x hx with hinf | ⟨r', hr', hr0, hrx⟩
    · rw [hr] at hinf
      cases hinf
    · rw [hr] at hr'
      cases hr'
      exact ⟨hr0, hrx⟩
  have hsmall : x * 10 ^ scale < 5 * 10 ^ precision := by
    by_contra hlarge
    have hfits : Fits (precision + 2) (scale + 1) (5 * 10 ^ precision / 10 ^ scale) := by
      refine ⟨50 * 10 ^ precision, ?_, ?_⟩
      · rw [pow_succ, div_eq_div_iff (scale_ne_zero scale) (by positivity)]
        push_cast
        ring
      · rw [abs_of_nonneg (by positivity), pow_add]
        have hone : (0 : ℤ) < 10 ^ precision := by positivity
        linarith
    have hle := h.le_of_fits hfits ((div_le_iff₀ hpow).mpr (not_lt.mp hlarge)) hr
    rw [div_le_iff₀ hpow] at hle
    linarith
  refine ⟨hr0, hrx, hsmall, ?_⟩
  have hrs : 0 ≤ r * 10 ^ scale := mul_nonneg hr0 hpow.le
  have hxs : 0 ≤ x * 10 ^ scale := mul_nonneg hx hpow.le
  rw [roundHalfAway, roundHalfAway, if_pos hrs, if_pos hxs]
  refine le_antisymm (Int.floor_le_floor (by linarith [mul_le_mul_of_nonneg_right hrx hpow.le])) ?_
  rcases lt_or_ge ⌊x * 10 ^ scale + 1 / 2⌋ 1 with hzero | hone
  · exact (Int.lt_add_one_iff.mp (by linarith)).trans (Int.floor_nonneg.mpr (by linarith))
  · -- the threshold below `x` has few digits, and what `x` is cut to is not below it
    have hfloor := Int.floor_le (x * 10 ^ scale + 1 / 2)
    have hrange : ⌊x * 10 ^ scale + 1 / 2⌋ ≤ 5 * 10 ^ precision := by
      have hlt : (⌊x * 10 ^ scale + 1 / 2⌋ : ℚ) < ((5 * 10 ^ precision + 1 : ℤ) : ℚ) := by
        push_cast
        linarith
      exact Int.lt_add_one_iff.mp (Int.cast_lt.mp hlt)
    have hle := h.le_of_fits (fits_threshold precision scale hone hrange)
      ((div_le_iff₀ hpow).mpr (by linarith)) hr
    rw [div_le_iff₀ hpow] at hle
    exact Int.le_floor.mpr (by linarith)

/-- The same for numbers of both signs. -/
theorem Precise.nearest (h : Precise (precision + 2) (scale + 1) round) (hr : round x = .fin r)
    (hbound : |r * 10 ^ scale| < 5 * 10 ^ precision) :
    |x * 10 ^ scale| < 5 * 10 ^ precision ∧
      roundHalfAway (r * 10 ^ scale) = roundHalfAway (x * 10 ^ scale) := by
  rcases le_or_gt 0 x with hx | hx
  · obtain ⟨_, _, hsmall, hnearest⟩ := h.nearest_of_nonneg hx hr ((le_abs_self _).trans_lt hbound)
    rw [abs_of_nonneg (mul_nonneg hx (by positivity))]
    exact ⟨hsmall, hnearest⟩
  · have hodd := h.towardZero.odd x
    rw [hr] at hodd
    have hneg : -r * 10 ^ scale < 5 * 10 ^ precision := by
      rw [neg_mul]
      exact (neg_le_abs _).trans_lt hbound
    obtain ⟨_, _, hsmall, hnearest⟩ := h.nearest_of_nonneg (neg_nonneg.mpr hx.le) hodd hneg
    rw [neg_mul, neg_mul, roundHalfAway_neg, roundHalfAway_neg] at hnearest
    refine ⟨?_, neg_injective hnearest⟩
    rw [← abs_neg, ← neg_mul, abs_of_nonneg (mul_nonneg (by linarith) (by positivity))]
    exact hsmall

/-- A half-way number is not cut. -/
theorem Precise.round_of_halfway (h : Precise (precision + 2) (scale + 1) round)
    (hx : Halfway scale x) (hbound : |x * 10 ^ scale| < 5 * 10 ^ precision) : round x = .fin x := by
  refine h.exact x ⟨_, hx.eq, ?_⟩
  obtain ⟨hlow, hhigh⟩ := abs_lt.mp hbound
  have hfloor := Int.floor_le (x * 10 ^ scale)
  have hceil := Int.lt_floor_add_one (x * 10 ^ scale)
  have hupper : (⌊x * 10 ^ scale⌋ : ℚ) < ((5 * 10 ^ precision : ℤ) : ℚ) := by
    push_cast
    linarith
  have hlower : ((-(5 * 10 ^ precision) - 1 : ℤ) : ℚ) < (⌊x * 10 ^ scale⌋ : ℚ) := by
    push_cast
    linarith
  have hupper := Int.cast_lt.mp hupper
  have hlower := Int.cast_lt.mp hlower
  have hone : (1 : ℤ) ≤ 10 ^ precision := one_le_pow₀ (by norm_num)
  rw [abs_lt, pow_add]
  constructor <;> linarith

/-! ### What a column adds -/

/-- **What is stored of a sum** is the nearest number to the sum itself. -/
theorem numeric_round (h : Precise (precision + 2) (scale + 1) round) {stored : Amount}
    (hstore : numeric precision scale (round x) = some stored) :
    (∃ r, round x = .fin r) ∧ |roundHalfAway (x * 10 ^ scale)| < 10 ^ precision ∧
      stored = .fin (roundHalfAway (x * 10 ^ scale) / 10 ^ scale) := by
  rcases h.towardZero.infinite_or_fin x with ⟨_, hinf⟩ | ⟨r, hr⟩
  · rw [hinf] at hstore
    cases hstore
  · rw [hr] at hstore
    obtain ⟨hk, rfl⟩ := numeric_fin_ok hstore
    have hbound : |r * 10 ^ scale| < 5 * 10 ^ precision := by
      have hone : (1 : ℚ) ≤ 10 ^ precision := one_le_pow₀ (by norm_num)
      have hk' : ((|roundHalfAway (r * 10 ^ scale)| : ℤ) : ℚ) < ((10 ^ precision : ℤ) : ℚ) :=
        Int.cast_lt.mpr hk
      push_cast at hk'
      obtain ⟨hlow, hhigh⟩ := abs_lt.mp hk'
      obtain ⟨hbelow, habove⟩ := abs_le.mp (abs_sub_roundHalfAway (r * 10 ^ scale))
      rw [abs_lt]
      constructor <;> linarith
    obtain ⟨_, hnearest⟩ := h.nearest hr hbound
    rw [hnearest] at hk ⊢
    exact ⟨⟨r, hr⟩, hk, rfl⟩

/-- An amount that takes one stored number to another. -/
theorem Fits.amount_lt {d : ℚ} (hb : Fits precision scale b)
    (hnew : |roundHalfAway ((b + d) * 10 ^ scale)| < 10 ^ precision) :
    |d * 10 ^ scale| < 5 * 10 ^ precision := by
  obtain ⟨k, rfl, hold⟩ := hb
  have hone : (1 : ℚ) ≤ 10 ^ precision := one_le_pow₀ (by norm_num)
  have hold' : ((|k| : ℤ) : ℚ) < ((10 ^ precision : ℤ) : ℚ) := Int.cast_lt.mpr hold
  have hnew' : ((|roundHalfAway (((k : ℚ) / 10 ^ scale + d) * 10 ^ scale)| : ℤ) : ℚ)
      < ((10 ^ precision : ℤ) : ℚ) := Int.cast_lt.mpr hnew
  have hnear := abs_sub_roundHalfAway ((((k : ℚ) / 10 ^ scale + d) * 10 ^ scale))
  have hsum : ((k : ℚ) / 10 ^ scale + d) * 10 ^ scale = k + d * 10 ^ scale := by
    rw [add_mul, div_mul_cancel₀ _ (scale_ne_zero scale)]
  rw [hsum] at hnear hnew'
  push_cast at hold' hnew'
  obtain ⟨hold₁, hold₂⟩ := abs_lt.mp hold'
  obtain ⟨hnew₁, hnew₂⟩ := abs_lt.mp hnew'
  obtain ⟨hnear₁, hnear₂⟩ := abs_le.mp hnear
  rw [abs_lt]
  constructor <;> linarith

/-- **A sum that is not refused** adds to a stored number what the amount is with half-way numbers rounded
up. -/
theorem stored_checked (h : Precise (precision + 2) (scale + 1) round) (hb : OnGrid scale b) {d : ℚ}
    {stored : Amount} (hpass : (round (b + d)).ltZero = false)
    (hstore : numeric precision scale (round (b + d)) = some stored) :
    stored = .fin (b + halfUp scale d) := by
  obtain ⟨⟨r, hr⟩, _, rfl⟩ := numeric_round h hstore
  rw [← hb.halfUp_add]
  rcases le_or_gt 0 (b + d) with hnonneg | hneg
  · rw [nearest_nonneg scale hnonneg]
  · -- the sum is negative and was cut to zero, so it is nearer to zero than half a unit
    have hlow : -(1 / 2) < (b + d) * 10 ^ scale := by
      by_contra hle
      have hpow : (0 : ℚ) < 10 ^ scale := by positivity
      have hfits : Fits (precision + 2) (scale + 1) ((1 / 2) / 10 ^ scale) := by
        have hone : (1 : ℤ) ≤ 10 ^ precision := one_le_pow₀ (by norm_num)
        have hthreshold := fits_threshold precision scale (le_refl 1) (by linarith)
        norm_num at hthreshold ⊢
        exact hthreshold
      have hodd := h.towardZero.odd (b + d)
      rw [hr] at hodd
      have hle' := h.le_of_fits hfits (by rw [div_le_iff₀ hpow]; linarith) hodd
      have hrneg : r < 0 := by
        have hpos : (0 : ℚ) < 1 / 2 / 10 ^ scale := by positivity
        linarith
      rw [hr] at hpass
      exact absurd hrneg (of_decide_eq_false hpass)
    have hscaled : (b + d) * 10 ^ scale < 0 := mul_neg_of_neg_of_pos hneg (by positivity)
    have hup : ⌊(b + d) * 10 ^ scale + 1 / 2⌋ = 0 := by
      rw [Int.floor_eq_zero_iff, Set.mem_Ico]
      constructor <;> linarith
    have hdown : ⌈(b + d) * 10 ^ scale - 1 / 2⌉ = 0 := by
      rw [Int.ceil_eq_zero_iff, Set.mem_Ioc]
      constructor <;> linarith
    rw [nearest_nonpos scale hneg.le, halfDown, halfUp, hup, hdown]

/-- **A sum that nothing looks at** adds the amount with half-way numbers rounded up if it is not negative,
and down if it is. -/
theorem stored_unchecked (h : Precise (precision + 2) (scale + 1) round) (hb : OnGrid scale b) {d : ℚ}
    {stored : Amount} (hstore : numeric precision scale (round (b + d)) = some stored) :
    stored = .fin (b + if 0 ≤ b + d then halfUp scale d else halfDown scale d) := by
  obtain ⟨_, _, rfl⟩ := numeric_round h hstore
  split
  · rename_i hnonneg
    rw [nearest_nonneg scale hnonneg, hb.halfUp_add]
  · rename_i hneg
    rw [nearest_nonpos scale (not_le.mp hneg).le, hb.halfDown_add]

/-! ### Amounts that were cut off -/

/-- Half-way numbers up: cutting off raises a negative number to a half-way number. -/
theorem Precise.halfUp_round (h : Precise (precision + 2) (scale + 1) round) (hr : round x = .fin r)
    (hbound : |r * 10 ^ scale| < 5 * 10 ^ precision) :
    halfUp scale r = halfUp scale x + if Halfway scale r ∧ x < r then 1 / 10 ^ scale else 0 := by
  obtain ⟨hsmall, hnearest⟩ := h.nearest hr hbound
  rcases le_or_gt 0 x with hx | hx
  · obtain ⟨hr0, hrx, _, _⟩ := h.nearest_of_nonneg hx hr ((le_abs_self _).trans_lt hbound)
    rw [if_neg (fun hlt => absurd hrx (not_le.mpr hlt.2)), add_zero, ← nearest_nonneg scale hr0, hnearest,
      nearest_nonneg scale hx]
  · have hodd := h.towardZero.odd x
    rw [hr] at hodd
    obtain ⟨hr0, hrx, _, _⟩ := h.nearest_of_nonneg (neg_nonneg.mpr hx.le) hodd (by
      rw [neg_mul]
      exact (neg_le_abs _).trans_lt hbound)
    have hr0 : r ≤ 0 := by linarith
    have hdown : halfDown scale r = halfDown scale x := by
      rw [← nearest_nonpos scale hr0, hnearest, nearest_nonpos scale hx.le]
    rcases (neg_le_neg_iff.mp hrx).eq_or_lt with rfl | hlt
    · rw [if_neg (fun hlt => lt_irrefl _ hlt.2), add_zero]
    · have hnot : ¬ Halfway scale x := by
        intro hhalf
        rw [h.round_of_halfway hhalf hsmall] at hr
        cases hr
        exact lt_irrefl _ hlt
      rw [halfUp_eq, hdown, halfUp_eq scale x, if_neg hnot, add_zero]
      simp only [hlt, and_true]

/-- Half-way numbers down: cutting off lowers a number to a half-way number, or leaves one as it is. -/
theorem Precise.halfDown_round (h : Precise (precision + 2) (scale + 1) round) (hr : round x = .fin r)
    (hbound : |r * 10 ^ scale| < 5 * 10 ^ precision) :
    halfDown scale r = halfUp scale x - if Halfway scale r ∧ r ≤ x then 1 / 10 ^ scale else 0 := by
  have hup := h.halfUp_round hr hbound
  rw [halfUp_eq scale r] at hup
  by_cases hhalf : Halfway scale r
  · rcases lt_or_ge x r with hlt | hle
    · rw [if_pos hhalf, if_pos ⟨hhalf, hlt⟩] at hup
      rw [if_neg (fun hle => absurd hle.2 (not_le.mpr hlt)), sub_zero]
      exact add_right_cancel hup
    · rw [if_pos hhalf, if_neg (fun hlt => absurd hle (not_le.mpr hlt.2)), add_zero] at hup
      rw [if_pos ⟨hhalf, hle⟩, ← hup, add_sub_cancel_right]
  · rw [if_neg hhalf, if_neg (fun hlt => hhalf hlt.1), add_zero, add_zero] at hup
    rw [if_neg (fun hle => hhalf hle.1), sub_zero, hup]

end Precise

end NexusTrade

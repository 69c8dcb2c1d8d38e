import Mathlib.Algebra.Order.Field.Basic

/-!
# Numbers with infinities and a value that is not a number

The values of a decimal arithmetic over an ordered field: finite numbers, two infinities and `nan`.
Zero has no sign.  Sums and products of finite numbers are rounded by a function that may overflow.

* **`Extended.add`**, **`sub`**, **`mul`**, **`neg`**: the operations;
* **`Extended.lt`**, **`ltZero`**: comparisons, which `nan` fails;
* **`AtMost`**: the order in which `nan` is the greatest value;
* **`TowardZero`**: what rounding towards zero promises;
* **`atMost_add`** and **`add_atMost`**: sums that are rounded in a way that keeps the order;
* **`Balance`**: a finite number that is not negative.  **`balance_of_checked`** and
  **`balance_of_unchecked`** say when a sum is one, with and without the comparison with zero.
-/

universe u

/-- A finite number, an infinity (negative or not), or not a number. -/
inductive Extended (K : Type u) where
  | nan
  | inf (negative : Bool)
  | fin (x : K)
  deriving DecidableEq

namespace Extended

variable {K : Type u} [Field K] [LinearOrder K]

/-! ### Operations -/

def neg : Extended K → Extended K
  | nan => nan
  | inf negative => inf !negative
  | fin x => fin (-x)

variable (round : K → Extended K)

def add : Extended K → Extended K → Extended K
  | nan, _ => nan
  | inf _, nan => nan
  | fin _, nan => nan
  | inf a, inf b => if a = b then inf a else nan
  | inf a, fin _ => inf a
  | fin _, inf b => inf b
  | fin x, fin y => round (x + y)

def sub (a b : Extended K) : Extended K := add round a (neg b)

def mul : Extended K → Extended K → Extended K
  | nan, _ => nan
  | inf _, nan => nan
  | fin _, nan => nan
  | inf a, inf b => inf (a != b)
  | inf a, fin y => if y = 0 then nan else inf (a != decide (y < 0))
  | fin x, inf b => if x = 0 then nan else inf (b != decide (x < 0))
  | fin x, fin y => round (x * y)

/-- The comparison with zero; `nan` is not less. -/
def ltZero : Extended K → Bool
  | nan => false
  | inf negative => negative
  | fin x => decide (x < 0)

/-- The comparison of two numbers; `nan` is not less than a number, nor is one less than `nan`. -/
def lt : Extended K → Extended K → Bool
  | nan, _ => false
  | inf _, nan => false
  | fin _, nan => false
  | inf a, inf b => a && !b
  | inf a, fin _ => a
  | fin _, inf b => !b
  | fin x, fin y => decide (x < y)

def isFinite : Extended K → Bool
  | nan => false
  | inf _ => false
  | fin _ => true

omit [Field K] [LinearOrder K] in
theorem isFinite_iff {a : Extended K} : a.isFinite = true ↔ ∃ x, a = fin x := by
  cases a with
  | nan => exact iff_of_false Bool.false_ne_true fun ⟨_, h⟩ => nomatch h
  | inf _ => exact iff_of_false Bool.false_ne_true fun ⟨_, h⟩ => nomatch h
  | fin x => exact iff_of_true rfl ⟨x, rfl⟩

/-- Rounding towards zero: the sign stays, the magnitude does not grow, and what is too large becomes
infinite. -/
structure TowardZero : Prop where
  nonneg : ∀ x, 0 ≤ x → round x = inf false ∨ ∃ r, round x = fin r ∧ 0 ≤ r ∧ r ≤ x
  odd : ∀ x, round (-x) = neg (round x)

/-- Exact arithmetic rounds towards zero. -/
theorem towardZero_fin : TowardZero (fin : K → Extended K) where
  nonneg := fun x hx => Or.inr ⟨x, rfl, hx, le_refl x⟩
  odd := fun _ => rfl

/-! ### A total order -/

/-- The order in which `nan` equals itself and is greater than every number. -/
def AtMost : Extended K → Extended K → Prop
  | _, nan => True
  | nan, inf _ => False
  | nan, fin _ => False
  | inf a, inf b => a = true ∨ b = false
  | inf a, fin _ => a = true
  | fin _, inf b => b = false
  | fin x, fin y => x ≤ y

omit [Field K] in
theorem atMost_refl (a : Extended K) : AtMost a a := by
  cases a with
  | nan => trivial
  | inf negative =>
      cases negative with
      | false => exact Or.inr rfl
      | true => exact Or.inl rfl
  | fin x => exact le_refl x

theorem zero_atMost {a : Extended K} (h : ltZero a = false) : AtMost (fin 0) a := by
  cases a with
  | nan => trivial
  | inf negative => exact h
  | fin x => exact not_lt.mp (of_decide_eq_false h)

/-- The exact sum of a list. -/
def total : List (Extended K) → Extended K
  | [] => fin 0
  | a :: as => add fin a (total as)

omit [LinearOrder K] in
theorem total_singleton (a : Extended K) : total [a] = a := by
  cases a with
  | nan => rfl
  | inf _ => rfl
  | fin x => simp only [total, add, add_zero]

/-! ### Balances -/

/-- A finite number that is not negative. -/
def Balance : Extended K → Prop
  | nan => False
  | inf _ => False
  | fin x => 0 ≤ x

instance : DecidablePred (Balance : Extended K → Prop)
  | nan => inferInstanceAs (Decidable False)
  | inf _ => inferInstanceAs (Decidable False)
  | fin x => inferInstanceAs (Decidable (0 ≤ x))

theorem balance_iff {a : Extended K} : Balance a ↔ ∃ x, a = fin x ∧ 0 ≤ x := by
  cases a with
  | nan => exact iff_of_false id fun ⟨_, h, _⟩ => nomatch h
  | inf _ => exact iff_of_false id fun ⟨_, h, _⟩ => nomatch h
  | fin x =>
      constructor
      · exact fun h => ⟨x, rfl, h⟩
      · rintro ⟨_, heq, h⟩
        cases heq
        exact h

/-- What is not less than a balance is not below zero. -/
theorem ltZero_of_lt {a b : Extended K} (hb : Balance b) (h : lt a b = false) : ltZero a = false := by
  obtain ⟨y, rfl, hy⟩ := balance_iff.mp hb
  cases a with
  | nan => rfl
  | inf negative => exact h
  | fin x =>
      have hle : y ≤ x := not_lt.mp (of_decide_eq_false h)
      exact decide_eq_false (not_lt.mpr (hy.trans hle))

/-- An amount that may be added to a balance without looking at the result. -/
def safeUnchecked : Extended K → Extended K → Bool
  | fin x, fin q => decide (0 ≤ x + q) && isFinite (round (x + q))
  | _, _ => false

/-- An amount that may be added to a balance if a sum below zero is refused: it is neither `nan` nor
positive infinity, and the sum does not overflow. -/
def safeChecked : Extended K → Extended K → Bool
  | _, inf true => true
  | fin x, fin q => decide (x + q < 0) || isFinite (round (x + q))
  | _, _ => false

variable {round}

theorem TowardZero.balance (h : TowardZero round) {x : K} (hx : 0 ≤ x)
    (hfinite : isFinite (round x) = true) : Balance (round x) := by
  rcases h.nonneg x hx with hinf | ⟨r, hr, hnonneg, _⟩
  · rw [hinf] at hfinite
    cases hfinite
  · rw [hr]
    exact hnonneg

/-- **A safe sum without a check** is a balance. -/
theorem balance_of_unchecked (h : TowardZero round) {a b : Extended K}
    (hsafe : safeUnchecked round a b = true) : Balance (add round a b) := by
  cases a with
  | nan => cases hsafe
  | inf _ => cases hsafe
  | fin x =>
      cases b with
      | nan => cases hsafe
      | inf _ => cases hsafe
      | fin q =>
          obtain ⟨hnonneg, hfinite⟩ := (Bool.and_eq_true _ _).mp hsafe
          exact h.balance (of_decide_eq_true hnonneg) hfinite

variable [IsStrictOrderedRing K]

/-- A rounded negative number is refused, or has become zero. -/
theorem TowardZero.negative (h : TowardZero round) {x : K} (hx : x < 0)
    (hpass : ltZero (round x) = false) : Balance (round x) := by
  have hodd := h.odd (-x)
  rw [neg_neg] at hodd
  rcases h.nonneg (-x) (neg_nonneg.mpr hx.le) with hinf | ⟨r, hr, hnonneg, _⟩
  · rw [hodd, hinf] at hpass
    cases hpass
  · rw [hodd, hr] at hpass ⊢
    have hle : ¬(-r < 0) := of_decide_eq_false hpass
    exact not_lt.mp hle

/-- What is rounded is a number. -/
theorem TowardZero.infinite_or_fin (h : TowardZero round) (x : K) :
    (∃ negative, round x = inf negative) ∨ ∃ r, round x = fin r := by
  rcases le_or_gt 0 x with hx | hx
  · rcases h.nonneg x hx with hinf | ⟨r, hr, _⟩
    · exact Or.inl ⟨false, hinf⟩
    · exact Or.inr ⟨r, hr⟩
  · have hodd := h.odd (-x)
    rw [neg_neg] at hodd
    rcases h.nonneg (-x) (neg_nonneg.mpr hx.le) with hinf | ⟨r, hr, _⟩
    · rw [hinf] at hodd
      exact Or.inl ⟨true, hodd⟩
    · rw [hr] at hodd
      exact Or.inr ⟨-r, hodd⟩

/-- **A safe sum that passes the check** is a balance. -/
theorem balance_of_checked (h : TowardZero round) {a b : Extended K} (ha : Balance a)
    (hsafe : safeChecked round a b = true) (hpass : ltZero (add round a b) = false) :
    Balance (add round a b) := by
  obtain ⟨x, rfl, _⟩ := balance_iff.mp ha
  cases b with
  | nan => cases hsafe
  | inf negative =>
      cases negative with
      | false => cases hsafe
      | true => cases hpass
  | fin q =>
      rcases lt_or_ge (x + q) 0 with hneg | hnonneg
      · exact h.negative hneg hpass
      · have hor := (Bool.or_eq_true _ _).mp hsafe
        have hfinite := hor.resolve_left fun hlt => absurd (of_decide_eq_true hlt) (not_lt.mpr hnonneg)
        exact h.balance hnonneg hfinite

/-! ### Sums and the order -/

omit [Field K] [IsStrictOrderedRing K] in
theorem lt_of_atMost {a b : Extended K} (h : AtMost a b) : lt b a = false := by
  cases a with
  | nan =>
      cases b with
      | nan => rfl
      | inf _ => exact h.elim
      | fin _ => exact h.elim
  | inf negative =>
      cases b with
      | nan => rfl
      | inf negative' =>
          rcases h with rfl | rfl
          · exact Bool.and_false _
          · rfl
      | fin _ =>
          have h : negative = true := h
          rw [h]
          rfl
  | fin x =>
      cases b with
      | nan => rfl
      | inf negative' => exact h
      | fin y => exact decide_eq_false (not_lt.mpr h)

omit [Field K] [IsStrictOrderedRing K] in
/-- A number that is at most another one and not less is that number. -/
theorem eq_of_atMost {a b : Extended K} (h : AtMost a b) (hlt : lt a b = false) (hb : b ≠ nan) : a = b := by
  cases b with
  | nan => exact absurd rfl hb
  | inf negative' =>
      cases a with
      | nan => exact h.elim
      | inf negative =>
          rcases h with rfl | rfl
          · cases negative' with
            | true => rfl
            | false => cases hlt
          · cases negative with
            | true => cases hlt
            | false => rfl
      | fin _ =>
          have h : negative' = false := h
          rw [h] at hlt
          cases hlt
  | fin y =>
      cases a with
      | nan => exact h.elim
      | inf negative =>
          have h : negative = true := h
          rw [h] at hlt
          cases hlt
      | fin x => exact congrArg fin (le_antisymm h (not_lt.mp (of_decide_eq_false hlt)))

/-- What a rounding that keeps the order makes of a number that it keeps and one that is not negative. -/
theorem atMost_add (hmono : ∀ x y, x ≤ y → AtMost (round x) (round y)) {a d : Extended K}
    (ha : ∀ x, a = fin x → round x = fin x) (hd : ltZero d = false) : AtMost a (add round a d) := by
  cases a with
  | nan => trivial
  | inf negative =>
      cases d with
      | nan => trivial
      | inf negative' =>
          rw [add]
          split
          · exact atMost_refl _
          · trivial
      | fin _ => exact atMost_refl _
  | fin x =>
      cases d with
      | nan => trivial
      | inf negative => exact hd
      | fin y =>
          have hle := hmono x (x + y) (le_add_of_nonneg_right (not_lt.mp (of_decide_eq_false hd)))
          rw [ha x rfl] at hle
          exact hle

/-- And one that is not positive. -/
theorem add_atMost (hmono : ∀ x y, x ≤ y → AtMost (round x) (round y)) {a d : Extended K}
    (ha : ∀ x, a = fin x → round x = fin x) (hd : ltZero (neg d) = false) :
    AtMost (add round a d) a ∨ add round a d = nan := by
  cases a with
  | nan => exact Or.inr rfl
  | inf negative =>
      cases d with
      | nan => exact Or.inr rfl
      | inf negative' =>
          rw [add]
          split
          · exact Or.inl (atMost_refl _)
          · exact Or.inr rfl
      | fin _ => exact Or.inl (atMost_refl _)
  | fin x =>
      cases d with
      | nan => exact Or.inr rfl
      | inf negative =>
          cases negative with
          | true => exact Or.inl rfl
          | false => cases hd
      | fin y =>
          have hnonpos : y ≤ 0 := neg_nonneg.mp (not_lt.mp (of_decide_eq_false hd))
          have hle := hmono (x + y) x (add_le_of_nonpos_right hnonpos)
          rw [ha x rfl] at hle
          exact Or.inl hle

omit [LinearOrder K] [IsStrictOrderedRing K] in
theorem neg_neg_eq (a : Extended K) : neg (neg a) = a := by
  cases a with
  | nan => rfl
  | inf negative => exact congrArg inf (Bool.not_not negative)
  | fin x => exact congrArg fin (neg_neg x)

/-- What is taken away where a negative number is added is not negative. -/
theorem ltZero_neg {a : Extended K} (h : ltZero a = true) : ltZero (neg a) = false := by
  cases a with
  | nan => rfl
  | inf negative =>
      have h : negative = true := h
      rw [h]
      rfl
  | fin x => exact decide_eq_false (not_lt.mpr (neg_nonneg.mpr (of_decide_eq_true h).le))

end Extended

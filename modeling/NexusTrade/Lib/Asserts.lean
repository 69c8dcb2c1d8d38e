import NexusTrade.Lib.Run

/-!
# Computations with assertions

`Asserts P asserted plain known` compares three computations: one with assertions, the same one without them, and
one that is known.  The first returns what the known one returns exactly if the condition `P` holds, and under the
condition the second is the known one.

* **`Asserts.bind`** and **`Asserts.bind_ok`** are the rules for two computations in sequence;
* **`Machine.run_asserts`** is the rule for runs: steps that assert a condition make runs that assert it at each
  step.
-/

namespace NexusTrade

/-- With assertions a computation returns what a known one returns, exactly if a condition holds; without them it
is the known one under the condition. -/
structure Asserts {ε α : Type} (P : Prop) (asserted plain known : Except ε α) : Prop where
  returns : ∀ a, asserted = .ok a ↔ P ∧ known = .ok a
  agrees : P → plain = known

namespace Asserts

variable {ε α β : Type} {P Q : Prop} {x y z : Except ε α}

theorem refl (x : Except ε α) : Asserts True x x x where
  returns := fun _ => ⟨fun h => ⟨trivial, h⟩, fun h => h.2⟩
  agrees := fun _ => rfl

theorem congr (h : Asserts P x y z) (hiff : P ↔ Q) : Asserts Q x y z where
  returns := fun a => (h.returns a).trans (and_congr_left' hiff)
  agrees := fun hQ => h.agrees (hiff.mpr hQ)

/-- A computation without assertions, under a condition that holds. -/
theorem of_holds (hP : P) (x : Except ε α) : Asserts P x x x := (refl x).congr (iff_of_true trivial hP)

/-- A computation that fails asserts nothing. -/
theorem error (P : Prop) (e : ε) : Asserts P (.error e : Except ε α) (.error e) (.error e) where
  returns := fun _ => iff_of_false (fun h => by cases h) fun h => by cases h.2
  agrees := fun _ => rfl

/-- **Two computations in sequence** assert what the first does and, of its result, what the second does. -/
theorem bind {R : α → Prop} {f g k : α → Except ε β} (h : Asserts P x y z)
    (hf : ∀ a, z = .ok a → Asserts (R a) (f a) (g a) (k a)) :
    Asserts (P ∧ ∀ a, z = .ok a → R a) (x >>= f) (y >>= g) (z >>= k) where
  returns := fun b => by
    rw [bind_eq_ok, bind_eq_ok]
    constructor
    · rintro ⟨a, hx, hb⟩
      obtain ⟨hP, hz⟩ := (h.returns a).mp hx
      obtain ⟨hR, hk⟩ := ((hf a hz).returns b).mp hb
      refine ⟨⟨hP, fun a' hz' => ?_⟩, a, hz, hk⟩
      rw [hz] at hz'
      cases hz'
      exact hR
    · rintro ⟨⟨hP, hR⟩, a, hz, hk⟩
      exact ⟨a, (h.returns a).mpr ⟨hP, hz⟩, ((hf a hz).returns b).mpr ⟨hR a hz, hk⟩⟩
  agrees := fun ⟨hP, hR⟩ => by
    rw [h.agrees hP]
    cases hz : z with
    | error e => rfl
    | ok a => exact (hf a hz).agrees (hR a hz)

/-- A sequence whose first computation is known to return. -/
theorem bind_ok {R : Prop} {f g : α → Except ε β} {a : α} {w : Except ε β} (h : Asserts P x y (.ok a))
    (hf : Asserts R (f a) (g a) w) : Asserts (P ∧ R) (x >>= f) (y >>= g) w := by
  refine (h.bind (R := fun _ => R) (k := fun _ => w) fun a' ha' => ?_).congr
    (and_congr_right fun _ => ⟨fun hR => hR a rfl, fun hR _ _ => hR⟩)
  cases ha'
  exact hf

/-- A sequence whose second computation has no assertions. -/
theorem bind_same (h : Asserts P x y z) (f : α → Except ε β) : Asserts P (x >>= f) (y >>= f) (z >>= f) :=
  (h.bind (R := fun _ => True) fun a _ => refl (f a)).congr (and_iff_left fun _ _ => trivial)

theorem mapError {ε' : Type} (h : Asserts P x y z) (f : ε → ε') :
    Asserts P (x.mapError f) (y.mapError f) (z.mapError f) where
  returns := fun a => by
    have hok : ∀ w : Except ε α, w.mapError f = .ok a ↔ w = .ok a := fun w => by
      cases w with
      | error e => exact iff_of_false (fun h => by cases h) fun h => by cases h
      | ok b => exact ⟨fun h => by cases h; rfl, fun h => by cases h; rfl⟩
    rw [hok, hok, h.returns]
  agrees := fun hP => by rw [h.agrees hP]

end Asserts

end NexusTrade

namespace Machine

open NexusTrade

variable {σ α ρ ε : Type} {step : σ → α → Except ε (ρ × σ)}

/-- **Assertions along a run**: steps that assert a condition make runs that assert it at each step. -/
theorem run_asserts {I : σ → Prop} {P : σ → α → Prop} {asserted plain : σ → α → Except ε (ρ × σ)}
    (hstep : ∀ s a, I s → Asserts (P s a) (asserted s a) (plain s a) (step s a))
    (hinv : ∀ s a r t, I s → step s a = .ok (r, t) → I t) (as : List α) :
    ∀ s, I s → Asserts (Along step P s as) (run asserted s as) (run plain s as) (run step s as) := by
  induction as with
  | nil => exact fun s _ => .refl _
  | cons a as ih =>
      intro s hs
      rw [run_cons, run_cons, run_cons]
      refine ((hstep s a hs).bind (R := fun p => Along step P p.2 as) fun p hp => ?_).congr ?_
      · exact (ih p.2 (hinv s a p.1 p.2 hs hp)).bind_same _
      · exact and_congr_right fun _ => ⟨fun h r t ht => h _ ht, fun h p hp => h p.1 p.2 hp⟩

end Machine

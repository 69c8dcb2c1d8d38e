import Mathlib.Data.List.Induction

/-!
# Runs of a machine whose steps can fail

A machine answers a call in a state with a reply and a next state, or fails.  `run` makes the calls of
a list one after another.  Three rules carry the arguments about whole runs:

* **`run_total`**: where an invariant makes each step succeed and is kept by it, every run succeeds;
* **`run_history`**: a property of the calls so far, the replies so far and the state that each step
  extends holds at the end of every run;
* **`run_snoc`**, **`run_append`**: a run of one more call, or of more calls, is a run and the rest.

`bind_eq_ok` and `bind_eq_error` take a computation that returned or failed apart.

`Along` says that every call of a run meets a condition on the state in which it is made, and
**`run_history_along`** is the rule of histories under such a condition; **`run_safe_along`** is that rule
for a machine that does not fail.  **`prefixes_iff_along`** is the rule for a condition that is exact.
-/

namespace NexusTrade

/-! ### The error monad -/

/-- A sequence of two computations returns exactly if both do. -/
theorem bind_eq_ok {ε α β : Type} {x : Except ε α} {f : α → Except ε β} {b : β} :
    (x >>= f) = .ok b ↔ ∃ a, x = .ok a ∧ f a = .ok b := by
  cases x with
  | error e =>
      constructor
      · intro h
        cases h
      · rintro ⟨a, h, _⟩
        cases h
  | ok a =>
      constructor
      · intro h
        exact ⟨a, rfl, h⟩
      · rintro ⟨a', h, h'⟩
        cases h
        exact h'

/-- A sequence of two computations fails if one of them does. -/
theorem bind_eq_error {α β ε : Type} {x : Except ε α} {f : α → Except ε β} {e : ε} (h : x >>= f = .error e) :
    x = .error e ∨ ∃ a, x = .ok a ∧ f a = .error e := by
  cases x with
  | error e' => exact Or.inl (congrArg Except.error (Except.error.inj h))
  | ok a => exact Or.inr ⟨a, rfl, h⟩

@[simp] theorem ok_bind {ε α β : Type} (a : α) (f : α → Except ε β) :
    (Except.ok a >>= f) = f a := rfl

end NexusTrade

namespace Machine

universe u v w x

variable {σ : Type u} {α : Type v} {ρ : Type w} {ε : Type x}

/-- Make the calls of a list in turn; the replies in order, and the last state. -/
def run (step : σ → α → Except ε (ρ × σ)) : σ → List α → Except ε (List ρ × σ)
  | s, [] => .ok ([], s)
  | s, a :: as =>
      match step s a with
      | .error e => .error e
      | .ok (r, t) =>
        match run step t as with
        | .error e => .error e
        | .ok (rs, u) => .ok (r :: rs, u)

variable {step : σ → α → Except ε (ρ × σ)}

theorem run_cons_ok {s u : σ} {a : α} {as : List α} {rs : List ρ} :
    run step s (a :: as) = .ok (rs, u) ↔
      ∃ r t rs', step s a = .ok (r, t) ∧ run step t as = .ok (rs', u) ∧ rs = r :: rs' := by
  constructor
  · intro h
    rw [run] at h
    cases hs : step s a with
    | error e => rw [hs] at h; cases h
    | ok p =>
        obtain ⟨r, t⟩ := p
        rw [hs] at h
        simp only at h
        cases ht : run step t as with
        | error e => rw [ht] at h; cases h
        | ok q =>
            obtain ⟨rs', u'⟩ := q
            rw [ht] at h
            cases h
            exact ⟨r, t, rs', rfl, ht, rfl⟩
  · rintro ⟨r, t, rs', hs, ht, rfl⟩
    rw [run, hs]
    simp only
    rw [ht]

/-- A run is its first step and the rest. -/
theorem run_cons (s : σ) (a : α) (as : List α) :
    run step s (a :: as) = step s a >>= fun p => run step p.2 as >>= fun q => .ok (p.1 :: q.1, q.2) := by
  rw [run]
  cases step s a with
  | error e => rfl
  | ok p =>
      show (match run step p.2 as with
        | .error e => .error e
        | .ok (rs, u) => .ok (p.1 :: rs, u)) = run step p.2 as >>= fun q => .ok (p.1 :: q.1, q.2)
      cases run step p.2 as with
      | error e => rfl
      | ok q => rfl

/-- **A run of one more call** is a run and then a step. -/
theorem run_snoc {s u : σ} {a : α} {as : List α} {rs : List ρ} :
    run step s (as ++ [a]) = .ok (rs, u) ↔
      ∃ rs' t r, run step s as = .ok (rs', t) ∧ step t a = .ok (r, u) ∧ rs = rs' ++ [r] := by
  induction as generalizing s rs with
  | nil =>
      rw [List.nil_append, run_cons_ok]
      constructor
      · rintro ⟨r, t, rs', hs, ht, rfl⟩
        cases ht
        exact ⟨[], s, r, rfl, hs, rfl⟩
      · rintro ⟨rs', t, r, hs, ht, rfl⟩
        cases hs
        exact ⟨r, u, [], ht, rfl, rfl⟩
  | cons b bs ih =>
      rw [List.cons_append, run_cons_ok]
      constructor
      · rintro ⟨r, t, rs', hs, ht, rfl⟩
        obtain ⟨rs'', t', r', ht', hu, rfl⟩ := ih.mp ht
        exact ⟨r :: rs'', t', r', run_cons_ok.mpr ⟨r, t, rs'', hs, ht', rfl⟩, hu, rfl⟩
      · rintro ⟨rs', t, r, hs, hu, rfl⟩
        obtain ⟨r', t', rs'', hs', ht', rfl⟩ := run_cons_ok.mp hs
        exact ⟨r', t', rs'' ++ [r], hs', ih.mpr ⟨rs'', t, r, ht', hu, rfl⟩, rfl⟩

/-- **A run of two lists of calls** is a run of the first and then one of the second. -/
theorem run_append {s u : σ} {as bs : List α} {rs : List ρ} :
    run step s (as ++ bs) = .ok (rs, u) ↔
      ∃ rs' t rs'', run step s as = .ok (rs', t) ∧ run step t bs = .ok (rs'', u) ∧
        rs = rs' ++ rs'' := by
  induction as generalizing s rs with
  | nil =>
      constructor
      · exact fun h => ⟨[], s, rs, rfl, h, rfl⟩
      · rintro ⟨rs', t, rs'', hs, ht, rfl⟩
        cases hs
        exact ht
  | cons a as ih =>
      rw [List.cons_append, run_cons_ok]
      constructor
      · rintro ⟨r, t, rs', hs, ht, rfl⟩
        obtain ⟨rs₁, t', rs₂, hrun, hrest, rfl⟩ := ih.mp ht
        exact ⟨r :: rs₁, t', rs₂, run_cons_ok.mpr ⟨r, t, rs₁, hs, hrun, rfl⟩, hrest, rfl⟩
      · rintro ⟨rs', t', rs'', hs, ht, rfl⟩
        obtain ⟨r, t, rs₁, hstep, hrun, rfl⟩ := run_cons_ok.mp hs
        exact ⟨r, t, rs₁ ++ rs'', hstep, ih.mpr ⟨rs₁, t', rs'', hrun, ht, rfl⟩, rfl⟩

/-- **Invariants make runs succeed.** -/
theorem run_total {I : σ → Prop} (hstep : ∀ s a, I s → ∃ r t, step s a = .ok (r, t) ∧ I t) :
    ∀ (as : List α) (s : σ), I s → ∃ rs t, run step s as = .ok (rs, t) ∧ I t := by
  intro as
  induction as with
  | nil => exact fun s hs => ⟨[], s, rfl, hs⟩
  | cons a as ih =>
      intro s hs
      obtain ⟨r, t, hst, ht⟩ := hstep s a hs
      obtain ⟨rs, u, hrun, hu⟩ := ih t ht
      exact ⟨r :: rs, u, run_cons_ok.mpr ⟨r, t, rs, hst, hrun, rfl⟩, hu⟩

/-- **Histories.**  What holds before any call and is extended by every step holds of the calls, the
replies and the last state of every run. -/
theorem run_history {P : List α → List ρ → σ → Prop} {s₀ : σ} (hinit : P [] [] s₀)
    (hstep : ∀ as rs s a r t, P as rs s → step s a = .ok (r, t) → P (as ++ [a]) (rs ++ [r]) t) :
    ∀ (as : List α) (rs : List ρ) (t : σ), run step s₀ as = .ok (rs, t) → P as rs t := by
  intro as
  induction as using List.reverseRecOn with
  | nil =>
      intro rs t h
      cases h
      exact hinit
  | append_singleton as a ih =>
      intro rs u h
      obtain ⟨rs', t, r, ht, hu, rfl⟩ := run_snoc.mp h
      exact hstep as rs' t a r u (ih rs' t ht) hu

/-- **A map that each step respects is respected by runs.** -/
theorem run_map {τ β ρ' : Type*} {step' : τ → β → Except ε (ρ' × τ)} {f : σ → τ} {g : α → β} {h : ρ → ρ'}
    (hstep : ∀ s a, step' (f s) (g a) = (step s a).map (Prod.map h f)) (as : List α) :
    ∀ s, run step' (f s) (as.map g) = (run step s as).map (Prod.map (List.map h) f) := by
  induction as with
  | nil => exact fun s => rfl
  | cons a as ih =>
      intro s
      rw [List.map_cons, run, run, hstep]
      cases step s a with
      | error e => rfl
      | ok p =>
          simp only [Except.map, Prod.map, ih]
          cases run step p.2 as with
          | error e => rfl
          | ok q => rfl

/-! ### Conditions along a run -/

/-- Every call of a run meets a condition on the state in which it is made. -/
def Along (step : σ → α → Except ε (ρ × σ)) (P : σ → α → Prop) : σ → List α → Prop
  | _, [] => True
  | s, a :: as => P s a ∧ ∀ r t, step s a = .ok (r, t) → Along step P t as

instance decidableAlong (step : σ → α → Except ε (ρ × σ)) (P : σ → α → Prop)
    [∀ s a, Decidable (P s a)] : ∀ s as, Decidable (Along step P s as)
  | _, [] => inferInstanceAs (Decidable True)
  | s, a :: as =>
    have : Decidable (∀ r t, step s a = .ok (r, t) → Along step P t as) :=
      match step s a with
      | .error _ => isTrue fun _ _ h => nomatch h
      | .ok (_, t) =>
        match decidableAlong step P t as with
        | isTrue h => isTrue fun _ _ h' => by cases h'; exact h
        | isFalse h => isFalse fun hall => h (hall _ t rfl)
    inferInstanceAs (Decidable (P s a ∧ _))

variable {P : σ → α → Prop}

/-- A condition along a run and a continuation of it. -/
theorem along_append {s : σ} {as bs : List α} :
    Along step P s (as ++ bs) ↔
      Along step P s as ∧ ∀ rs t, run step s as = .ok (rs, t) → Along step P t bs := by
  induction as generalizing s with
  | nil =>
      constructor
      · intro h
        refine ⟨trivial, fun rs t hrun => ?_⟩
        cases hrun
        exact h
      · intro h
        exact h.2 [] s rfl
  | cons a as ih =>
      constructor
      · rintro ⟨ha, hrest⟩
        refine ⟨⟨ha, fun r t hs => (ih.mp (hrest r t hs)).1⟩, fun rs u hrun => ?_⟩
        obtain ⟨r, t, rs', hs, ht, _⟩ := run_cons_ok.mp hrun
        exact (ih.mp (hrest r t hs)).2 rs' u ht
      · rintro ⟨⟨ha, hrest⟩, hlast⟩
        refine ⟨ha, fun r t hs => ih.mpr ⟨hrest r t hs, fun rs' u ht => ?_⟩⟩
        exact hlast (r :: rs') u (run_cons_ok.mpr ⟨r, t, rs', hs, ht, rfl⟩)

theorem along_snoc {s : σ} {as : List α} {a : α} :
    Along step P s (as ++ [a]) ↔
      Along step P s as ∧ ∀ rs t, run step s as = .ok (rs, t) → P t a := by
  rw [along_append]
  constructor
  · exact fun h => ⟨h.1, fun rs t hrun => (h.2 rs t hrun).1⟩
  · exact fun h => ⟨h.1, fun rs t hrun => ⟨h.2 rs t hrun, fun _ _ _ => trivial⟩⟩

/-- A condition that the calls meet in every state. -/
theorem along_of_forall {s : σ} {as : List α} (h : ∀ a ∈ as, ∀ s, P s a) : Along step P s as := by
  induction as generalizing s with
  | nil => exact trivial
  | cons a as ih =>
      exact ⟨h a List.mem_cons_self s, fun _ _ _ => ih fun b hb => h b (List.mem_cons_of_mem a hb)⟩

/-- Conditions that are the same in every state are the same along a run. -/
theorem along_congr {Q : σ → α → Prop} (h : ∀ s a, P s a ↔ Q s a) {s : σ} {as : List α} :
    Along step P s as ↔ Along step Q s as := by
  induction as generalizing s with
  | nil => exact Iff.rfl
  | cons a as ih => exact and_congr (h s a) (forall_congr' fun r => forall_congr' fun t => imp_congr_right fun _ => ih)

theorem along_and {Q : σ → α → Prop} {s : σ} {as : List α} (hP : Along step P s as)
    (hQ : Along step Q s as) : Along step (fun t a => P t a ∧ Q t a) s as := by
  induction as generalizing s with
  | nil => exact trivial
  | cons a as ih =>
      exact ⟨⟨hP.1, hQ.1⟩, fun r t hs => ih (hP.2 r t hs) (hQ.2 r t hs)⟩

/-- **From one condition along a run to another**: an invariant carries the first to the second, step by
step. -/
theorem along_of_inv {I : σ → Prop} {Q : σ → α → Prop}
    (hstep : ∀ s a, I s → P s a → Q s a ∧ ∀ r t, step s a = .ok (r, t) → I t) {s : σ} {as : List α}
    (hs : I s) (h : Along step P s as) : Along step Q s as := by
  induction as generalizing s with
  | nil => exact trivial
  | cons a as ih =>
      obtain ⟨hQ, hnext⟩ := hstep s a hs h.1
      exact ⟨hQ, fun r t ht => ih (hnext r t ht) (h.2 r t ht)⟩

/-- **Histories under a condition.**  What is extended by every step that meets the condition holds of
every run all of whose steps meet it. -/
theorem run_history_along {Q : List α → List ρ → σ → Prop} {s₀ : σ} (hinit : Q [] [] s₀)
    (hstep : ∀ as rs s a r t, Q as rs s → P s a → step s a = .ok (r, t) →
      Q (as ++ [a]) (rs ++ [r]) t) :
    ∀ (as : List α) (rs : List ρ) (t : σ), run step s₀ as = .ok (rs, t) → Along step P s₀ as →
      Q as rs t := by
  intro as
  induction as using List.reverseRecOn with
  | nil =>
      intro rs t h _
      cases h
      exact hinit
  | append_singleton as a ih =>
      intro rs u h halong
      obtain ⟨rs', t, r, ht, hu, rfl⟩ := run_snoc.mp h
      obtain ⟨hbefore, hlast⟩ := along_snoc.mp halong
      exact hstep as rs' t a r u (ih rs' t ht hbefore) (hlast rs' t ht) hu

/-- **A property of every prefix of a run, as a condition along it**: the empty run has the property, and a step
from a run that has it keeps it exactly under the condition. -/
theorem prefixes_iff_along {Q : List α → List ρ → σ → Prop} {s₀ : σ} (hinit : Q [] [] s₀)
    (hstep : ∀ as rs s a, run step s₀ as = .ok (rs, s) → Q as rs s →
      ∃ r t, step s a = .ok (r, t) ∧ (Q (as ++ [a]) (rs ++ [r]) t ↔ P s a)) (as : List α) :
    (∀ pre, pre <+: as → ∀ rs t, run step s₀ pre = .ok (rs, t) → Q pre rs t) ↔ Along step P s₀ as := by
  induction as using List.reverseRecOn with
  | nil =>
      refine iff_of_true (fun pre hpre rs t hrun => ?_) trivial
      rw [List.prefix_nil] at hpre
      subst hpre
      cases hrun
      exact hinit
  | append_singleton as a ih =>
      rw [along_snoc, ← ih]
      constructor
      · intro h
        have hbefore : ∀ pre, pre <+: as → ∀ rs t, run step s₀ pre = .ok (rs, t) → Q pre rs t :=
          fun pre hpre => h pre (hpre.trans (List.prefix_append as [a]))
        refine ⟨hbefore, fun rs s hrun => ?_⟩
        obtain ⟨r, t, hs, hiff⟩ := hstep as rs s a hrun (hbefore as (List.prefix_refl as) rs s hrun)
        exact hiff.mp (h _ (List.prefix_refl _) _ t (run_snoc.mpr ⟨rs, s, r, hrun, hs, rfl⟩))
      · rintro ⟨hbefore, hlast⟩ pre hpre rs u hrun
        rcases List.prefix_concat_iff.mp hpre with rfl | hpre
        · obtain ⟨rs', s, r, hrun', hs, rfl⟩ := run_snoc.mp hrun
          obtain ⟨r', t, hs', hiff⟩ := hstep as rs' s a hrun' (hbefore as (List.prefix_refl as) rs' s hrun')
          rw [hs] at hs'
          cases hs'
          exact hiff.mpr (hlast rs' s hrun')
        · exact hbefore pre hpre rs u hrun

/-- A machine that does not fail makes every run. -/
theorem run_returns [IsEmpty ε] (step : σ → α → Except ε (ρ × σ)) (s₀ : σ) (as : List α) :
    ∃ rs t, run step s₀ as = .ok (rs, t) := by
  have htotal : ∀ s a, True → ∃ r t, step s a = .ok (r, t) ∧ True := by
    intro s a _
    cases hs : step s a with
    | error e => exact isEmptyElim e
    | ok p => exact ⟨p.1, p.2, rfl, trivial⟩
  obtain ⟨rs, t, hrun, _⟩ := run_total htotal as s₀ trivial
  exact ⟨rs, t, hrun⟩

/-- **Histories of a machine that does not fail.** -/
theorem run_safe_along [IsEmpty ε] {Q : List α → List ρ → σ → Prop} {s₀ : σ} (hinit : Q [] [] s₀)
    (hstep : ∀ as rs s a r t, Q as rs s → P s a → step s a = .ok (r, t) →
      Q (as ++ [a]) (rs ++ [r]) t) (as : List α) (halong : Along step P s₀ as) :
    ∃ rs t, run step s₀ as = .ok (rs, t) ∧ Q as rs t := by
  obtain ⟨rs, t, hrun⟩ := run_returns step s₀ as
  exact ⟨rs, t, hrun, run_history_along hinit hstep as rs t hrun halong⟩

end Machine

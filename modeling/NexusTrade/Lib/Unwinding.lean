import NexusTrade.Lib.Run

/-!
# What one client of a machine can see of the others

Several clients make calls on one machine.  A client sees a part of the state, its `view`, and the answers to
its own calls.

* **`Confined`**: the calls of the others leave the view as it is, and the answer to a call of the client, with
  the view after it, depends on nothing but the view before it.  These are two conditions on single steps;
* **`Confined.run_own`**: then a run gives the client the answers, and the view, of the run of its own calls.
-/

namespace Machine

universe u v w x y

variable {σ : Type u} {α : Type v} {ρ : Type w} {ε : Type x} {τ : Type y}

/-- The answers to the calls of one client. -/
def answers (mine : α → Bool) (as : List α) (rs : List ρ) : List ρ :=
  ((as.zip rs).filter fun call => mine call.1).map Prod.snd

@[simp] theorem answers_nil (mine : α → Bool) : answers mine [] ([] : List ρ) = [] := rfl

theorem answers_cons (mine : α → Bool) (a : α) (as : List α) (r : ρ) (rs : List ρ) :
    answers mine (a :: as) (r :: rs) = if mine a then r :: answers mine as rs else answers mine as rs := by
  by_cases h : mine a <;> simp [answers, h]

variable (step : σ → α → Except ε (ρ × σ))

/-- **A client that is confined to its view**, in the states of an invariant. -/
structure Confined (I : σ → Prop) (mine : α → Bool) (view : σ → τ) : Prop where
  keeps : ∀ {s a r t}, I s → step s a = .ok (r, t) → I t
  returns : ∀ {s}, I s → ∀ a, ∃ r t, step s a = .ok (r, t)
  unseen : ∀ {s a r t}, I s → mine a = false → step s a = .ok (r, t) → view t = view s
  decided : ∀ {s s' a r r' t t'}, I s → I s' → mine a = true → view s = view s' →
    step s a = .ok (r, t) → step s' a = .ok (r', t') → r = r' ∧ view t = view t'

variable {step} {I : σ → Prop} {mine : α → Bool} {view : σ → τ}

/-- **The calls of the others can be left out.** -/
theorem Confined.run_own (h : Confined step I mine view) (as : List α) :
    ∀ (s s' t : σ) (rs : List ρ), I s → I s' → view s = view s' → run step s as = .ok (rs, t) →
      ∃ t', run step s' (as.filter mine) = .ok (answers mine as rs, t') ∧ I t' ∧ view t = view t' := by
  induction as with
  | nil =>
      intro s s' t rs hs hs' hview hrun
      cases hrun
      exact ⟨s', rfl, hs', hview⟩
  | cons a as ih =>
      intro s s' u rs hs hs' hview hrun
      obtain ⟨r, t, rs, hstep, hrest, rfl⟩ := run_cons_ok.mp hrun
      have ht := h.keeps hs hstep
      rw [answers_cons]
      cases ha : mine a with
      | false =>
          -- the call of another client: the view of this one has not moved
          have hsame : view t = view s' := (h.unseen hs ha hstep).trans hview
          obtain ⟨u', hrun', hu', huview⟩ := ih t s' u rs ht hs' hsame hrest
          refine ⟨u', ?_, hu', huview⟩
          simp [ha, hrun']
      | true =>
          obtain ⟨r', t', hstep'⟩ := h.returns hs' a
          obtain ⟨rfl, hsame⟩ := h.decided hs hs' ha hview hstep hstep'
          obtain ⟨u', hrun', hu', huview⟩ := ih t t' u rs ht (h.keeps hs' hstep') hsame hrest
          refine ⟨u', ?_, hu', huview⟩
          simp only [List.filter_cons, ha, if_true]
          exact run_cons_ok.mpr ⟨r, t', _, hstep', hrun', rfl⟩

end Machine

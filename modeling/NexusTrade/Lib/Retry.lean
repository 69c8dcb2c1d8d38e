import Mathlib.Logic.Function.Iterate

/-!
# Remote calls that are retried

A client sends a request to a server, and sends it again when it sees an error that it may retry.  The request
of an attempt is lost, or the server handles it and the response is lost, or it is answered; so the server may
handle one call several times.

* **`attempt`** and **`retry`**: one attempt, and the loop of the client;
* **`Spares`**: no response is lost to a handling that had an effect, and none is misread;
* **`retry_spec`**: then what the client is answered is what one handling did, in a state that differs from
  the first by handlings without effect only;
* **`retry_iterate`** and **`retry_answers`**: where the server refuses nothing and every error is retried, the
  effect is made as often as an attempt of the loop reaches the server, and the loop succeeds if one is answered;
* **`persist_simulates`**: under one pattern two such servers stay related if every effect keeps them so.
-/

universe u v w x

/-- What happens to an attempt; an `input` is what the server draws from its surroundings when it handles
the request. -/
inductive Attempt (ε : Type u) (ι : Type v) where
  | unsent (error : ε)
  | lost (error : ε) (input : ι)
  | answered (input : ι)
  deriving DecidableEq

namespace Attempt

variable {ε : Type u} {ι : Type v} {σ : Type w} {β : Type x}

/-- **One attempt**: what the client sees, and the server after it.  A response is lost whether the server
refused the request or not. -/
def run (handle : ι → σ → Except ε (β × σ)) : Attempt ε ι → σ → Except ε β × σ
  | .unsent error, s => (.error error, s)
  | .lost error input, s =>
    match handle input s with
    | .error _ => (.error error, s)
    | .ok (_, t) => (.error error, t)
  | .answered input, s =>
    match handle input s with
    | .error error => (.error error, s)
    | .ok (reply, t) => (.ok reply, t)

/-- The loop of the client: the attempts of a pattern from one on, with some retries left. -/
def retry (retryable : ε → Bool) (handle : ι → σ → Except ε (β × σ)) (pattern : Nat → Attempt ε ι) :
    Nat → Nat → σ → Except ε β × σ
  | 0, i, s => (pattern i).run handle s
  | n + 1, i, s =>
    match (pattern i).run handle s with
    | (.ok reply, t) => (.ok reply, t)
    | (.error error, t) =>
      if retryable error then retry retryable handle pattern n (i + 1) t else (.error error, t)

/-! ### Lost responses -/

/-- A handling had no effect. -/
def Idle (effective : β → σ → Prop) : Except ε (β × σ) → Prop
  | .error _ => True
  | .ok (reply, t) => ¬effective reply t

instance (effective : β → σ → Prop) [∀ b s, Decidable (effective b s)] :
    ∀ handled : Except ε (β × σ), Decidable (Idle effective handled)
  | .error _ => inferInstanceAs (Decidable True)
  | .ok (reply, t) => inferInstanceAs (Decidable (¬effective reply t))

/-- If the response is lost, the handling had no effect; if it arrives, it is not one of those that the
client misreads. -/
def Spares (effective misread : β → σ → Prop) (handle : ι → σ → Except ε (β × σ)) :
    Attempt ε ι → σ → Prop
  | .unsent _, _ => True
  | .lost _ input, s => Idle effective (handle input s)
  | .answered input, s => Idle misread (handle input s)

instance (effective misread : β → σ → Prop) [∀ b s, Decidable (effective b s)]
    [∀ b s, Decidable (misread b s)] (handle : ι → σ → Except ε (β × σ)) :
    ∀ (a : Attempt ε ι) (s : σ), Decidable (Spares effective misread handle a s)
  | .unsent _, _ => inferInstanceAs (Decidable True)
  | .lost _ input, s => inferInstanceAs (Decidable (Idle effective (handle input s)))
  | .answered input, s => inferInstanceAs (Decidable (Idle misread (handle input s)))

/-- What follows a failed attempt that is retried. -/
def Following (retryable : ε → Bool) (next : σ → Prop) : Except ε β × σ → Prop
  | (.ok _, _) => True
  | (.error error, t) => retryable error = true → next t

instance (retryable : ε → Bool) (next : σ → Prop) [∀ s, Decidable (next s)] :
    ∀ seen : Except ε β × σ, Decidable (Following retryable next seen)
  | (.ok _, _) => inferInstanceAs (Decidable True)
  | (.error error, t) => inferInstanceAs (Decidable (retryable error = true → next t))

/-- Every attempt of the loop spares what has an effect. -/
def AllSpare (retryable : ε → Bool) (effective misread : β → σ → Prop)
    (handle : ι → σ → Except ε (β × σ)) (pattern : Nat → Attempt ε ι) : Nat → Nat → σ → Prop
  | 0, i, s => Spares effective misread handle (pattern i) s
  | n + 1, i, s => Spares effective misread handle (pattern i) s ∧
    Following retryable (AllSpare retryable effective misread handle pattern n (i + 1))
      ((pattern i).run handle s)

instance decidableAllSpare (retryable : ε → Bool) (effective misread : β → σ → Prop)
    [∀ b s, Decidable (effective b s)] [∀ b s, Decidable (misread b s)]
    (handle : ι → σ → Except ε (β × σ)) (pattern : Nat → Attempt ε ι) :
    ∀ n i s, Decidable (AllSpare retryable effective misread handle pattern n i s)
  | 0, i, s => inferInstanceAs (Decidable (Spares effective misread handle (pattern i) s))
  | n + 1, i, s =>
    have := decidableAllSpare retryable effective misread handle pattern n (i + 1)
    inferInstanceAs (Decidable (Spares effective misread handle (pattern i) s ∧
      Following retryable (AllSpare retryable effective misread handle pattern n (i + 1))
        ((pattern i).run handle s)))

variable {retryable : ε → Bool} {effective misread : β → σ → Prop}
  {handle : ι → σ → Except ε (β × σ)} {pattern : Nat → Attempt ε ι}

/-- **One attempt that spares effects**: either it fails without one, or it is answered. -/
theorem run_spec {R : σ → σ → Prop} (hrefl : ∀ s, R s s)
    (hidle : ∀ input s reply t, handle input s = .ok (reply, t) → ¬effective reply t → R s t)
    {a : Attempt ε ι} {s : σ} (h : Spares effective misread handle a s) :
    (∃ error t, a.run handle s = (.error error, t) ∧ R s t) ∨
      ∃ input reply t, a.run handle s = (.ok reply, t) ∧ handle input s = .ok (reply, t) ∧
        ¬misread reply t := by
  cases a with
  | unsent error => exact Or.inl ⟨error, s, rfl, hrefl s⟩
  | lost error input =>
      simp only [run, Spares] at h ⊢
      cases hhandle : handle input s with
      | error _ => exact Or.inl ⟨error, s, rfl, hrefl s⟩
      | ok r =>
          obtain ⟨reply, t⟩ := r
          rw [hhandle] at h
          exact Or.inl ⟨error, t, rfl, hidle input s reply t hhandle h⟩
  | answered input =>
      simp only [run, Spares] at h ⊢
      cases hhandle : handle input s with
      | error error => exact Or.inl ⟨error, s, rfl, hrefl s⟩
      | ok r =>
          obtain ⟨reply, t⟩ := r
          rw [hhandle] at h
          exact Or.inr ⟨input, reply, t, rfl, hhandle, h⟩

/-- **The loop spares effects**: it fails without one, or one handling is answered and not misread, in a
state that differs from the first by handlings without effect. -/
theorem retry_spec {R : σ → σ → Prop} (hrefl : ∀ s, R s s) (htrans : ∀ s t u, R s t → R t u → R s u)
    (hidle : ∀ input s reply t, handle input s = .ok (reply, t) → ¬effective reply t → R s t) :
    ∀ (n i : Nat) (s : σ), AllSpare retryable effective misread handle pattern n i s →
      (∃ error t, retry retryable handle pattern n i s = (.error error, t) ∧ R s t) ∨
        ∃ s' input reply t, R s s' ∧ handle input s' = .ok (reply, t) ∧ ¬misread reply t ∧
          retry retryable handle pattern n i s = (.ok reply, t) := by
  intro n
  induction n with
  | zero =>
      intro i s h
      rcases run_spec hrefl hidle h with hfail | ⟨input, reply, t, hrun, hhandle, hread⟩
      · exact Or.inl hfail
      · exact Or.inr ⟨s, input, reply, t, hrefl s, hhandle, hread, hrun⟩
  | succ n ih =>
      intro i s h
      obtain ⟨hspares, hnext⟩ := h
      rcases run_spec hrefl hidle hspares with ⟨error, t, hrun, hst⟩ |
        ⟨input, reply, t, hrun, hhandle, hread⟩
      · rw [hrun] at hnext
        simp only [retry, hrun]
        split
        · rename_i hretry
          rcases ih (i + 1) t (hnext hretry) with ⟨error', u, hloop, htu⟩ |
            ⟨s', input, reply, u, hts, hhandle, hread, hloop⟩
          · exact Or.inl ⟨error', u, hloop, htrans s t u hst htu⟩
          · exact Or.inr ⟨s', input, reply, u, htrans s t s' hst hts, hhandle, hread, hloop⟩
        · exact Or.inl ⟨error, t, rfl, hst⟩
      · refine Or.inr ⟨s, input, reply, t, hrefl s, hhandle, hread, ?_⟩
        simp only [retry, hrun]

/-! ### A server that refuses nothing -/

/-- The request of the attempt reaches the server. -/
def Reaches : Attempt ε ι → Prop
  | .unsent _ => False
  | _ => True

/-- The attempt is answered. -/
def Answers : Attempt ε ι → Prop
  | .answered _ => True
  | _ => False

instance : DecidablePred (fun a : Attempt ε ι => a.Reaches)
  | .unsent _ => inferInstanceAs (Decidable False)
  | .lost _ _ => inferInstanceAs (Decidable True)
  | .answered _ => inferInstanceAs (Decidable True)

instance : DecidablePred (fun a : Attempt ε ι => a.Answers)
  | .unsent _ => inferInstanceAs (Decidable False)
  | .lost _ _ => inferInstanceAs (Decidable False)
  | .answered _ => inferInstanceAs (Decidable True)

section Always

variable (effect : σ → β × σ)

/-- The loop of a client that retries every error. -/
def persist (pattern : Nat → Attempt ε ι) : Nat → Nat → σ → Except ε β × σ :=
  retry (fun _ => true) (fun _ s => .ok (effect s)) pattern

theorem exists_le_succ (P : Nat → Prop) (n i : Nat) :
    (∃ k ≤ n + 1, P (i + k)) ↔ P i ∨ ∃ k ≤ n, P (i + 1 + k) := by
  constructor
  · rintro ⟨k, hk, hP⟩
    cases k with
    | zero => exact Or.inl hP
    | succ k =>
        rw [show i + (k + 1) = i + 1 + k by omega] at hP
        exact Or.inr ⟨k, by omega, hP⟩
  · rintro (hP | ⟨k, hk, hP⟩)
    · exact ⟨0, by omega, hP⟩
    · rw [show i + 1 + k = i + (k + 1) by omega] at hP
      exact ⟨k + 1, by omega, hP⟩

theorem exists_le_zero (P : Nat → Prop) (i : Nat) : (∃ k ≤ 0, P (i + k)) ↔ P i := by
  constructor
  · rintro ⟨k, hk, hP⟩
    rwa [Nat.le_zero.mp hk] at hP
  · intro hP
    exact ⟨0, Nat.le_refl 0, hP⟩

/-- **The effect is made some times**, and at all if an attempt of the loop reaches the server. -/
theorem retry_iterate (pattern : Nat → Attempt ε ι) : ∀ (n i : Nat) (s : σ),
    ∃ m, (persist effect pattern n i s).2 = (fun s => (effect s).2)^[m] s ∧
      (0 < m ↔ ∃ k ≤ n, (pattern (i + k)).Reaches) := by
  intro n
  induction n with
  | zero =>
      intro i s
      rw [exists_le_zero (fun k => (pattern k).Reaches)]
      cases hp : pattern i with
      | unsent error => exact ⟨0, by simp [persist, retry, run, hp], by simp [Reaches]⟩
      | lost error input => exact ⟨1, by simp [persist, retry, run, hp], by simp [Reaches]⟩
      | answered input => exact ⟨1, by simp [persist, retry, run, hp], by simp [Reaches]⟩
  | succ n ih =>
      intro i s
      rw [exists_le_succ (fun k => (pattern k).Reaches)]
      cases hp : pattern i with
      | unsent error =>
          obtain ⟨m, hstate, hm⟩ := ih (i + 1) s
          refine ⟨m, ?_, by simpa [Reaches] using hm⟩
          rw [← hstate]
          simp [persist, retry, run, hp]
      | lost error input =>
          obtain ⟨m, hstate, -⟩ := ih (i + 1) (effect s).2
          refine ⟨m + 1, ?_, by simp [Reaches]⟩
          rw [Function.iterate_succ_apply, ← hstate]
          simp [persist, retry, run, hp]
      | answered input => exact ⟨1, by simp [persist, retry, run, hp], by simp [Reaches]⟩

/-- **The loop succeeds** if one of its attempts is answered. -/
theorem retry_answers (pattern : Nat → Attempt ε ι) : ∀ (n i : Nat) (s : σ),
    (∃ reply, (persist effect pattern n i s).1 = .ok reply) ↔ ∃ k ≤ n, (pattern (i + k)).Answers := by
  intro n
  induction n with
  | zero =>
      intro i s
      rw [exists_le_zero (fun k => (pattern k).Answers)]
      cases hp : pattern i <;> simp [persist, retry, run, hp, Answers]
  | succ n ih =>
      intro i s
      rw [exists_le_succ (fun k => (pattern k).Answers)]
      cases hp : pattern i with
      | unsent error =>
          rw [← ih (i + 1) s]
          simp [persist, retry, run, hp, Answers]
      | lost error input =>
          rw [← ih (i + 1) (effect s).2]
          simp [persist, retry, run, hp, Answers]
      | answered input => simp [persist, retry, run, hp, Answers]

/-- A loop that reaches the server with none of its attempts. -/
theorem persist_unsent (error : ε) : ∀ (n i : Nat) (s : σ),
    persist effect (fun _ => (.unsent error : Attempt ε ι)) n i s = (.error error, s) := by
  intro n
  induction n with
  | zero =>
      intro i s
      rfl
  | succ n ih =>
      intro i s
      exact ih (i + 1) s

/-- **Two loops under one pattern** end alike, in states that are related if every effect keeps them so. -/
theorem persist_simulates {τ : Type x} {effect : σ → β × σ} {effect' : τ → β × τ} {R : σ → τ → Prop}
    (hstep : ∀ s t, R s t → (effect s).1 = (effect' t).1 ∧ R (effect s).2 (effect' t).2)
    (pattern : Nat → Attempt ε ι) : ∀ (n i : Nat) (s : σ) (t : τ), R s t →
      (persist effect pattern n i s).1 = (persist effect' pattern n i t).1 ∧
        R (persist effect pattern n i s).2 (persist effect' pattern n i t).2 := by
  intro n
  induction n with
  | zero =>
      intro i s t h
      obtain ⟨hreply, hstates⟩ := hstep s t h
      cases hp : pattern i with
      | unsent error => simpa [persist, retry, run, hp] using h
      | lost error input => simpa [persist, retry, run, hp] using hstates
      | answered input => simpa [persist, retry, run, hp, hreply] using hstates
  | succ n ih =>
      intro i s t h
      obtain ⟨hreply, hstates⟩ := hstep s t h
      cases hp : pattern i with
      | unsent error => simpa [persist, retry, run, hp] using ih (i + 1) s t h
      | lost error input => simpa [persist, retry, run, hp] using ih (i + 1) _ _ hstates
      | answered input => simpa [persist, retry, run, hp, hreply] using hstates

end Always

end Attempt

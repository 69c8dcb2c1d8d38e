import NexusTrade.Trading.Interleaved

/-!
# Calls on the trading service that run alone

A call while no other call proceeds; each thing that it awaits may fail.

* **`advance_walletPost`**: a request to the wallet service, which may refuse it;
* **`alone_ended`**: a call that has ended;
* **`advance_abandoned`**: an operation that fails once the engine has accepted the order.
-/

namespace NexusTrade.Trading

open MatchingEngine (Decimal Fill ExecutionReport Core CallFiles UuidSource DecimalCodec)

abbrev OrderAttempt := Attempt Failure (CallFiles × UuidSource)

abbrev OrderState := Lone Memory Remote Operation Point Outcome

section Alone

variable {codec : DecimalCodec} {parse : DecimalParser} {service : TradingService} {maxRetries : ℕ}
  {memory : Memory} {remote : Remote} {inputs : List OrderAttempt} {s' : OrderState}

/-- **A call that has ended** has its last state. -/
theorem alone_ended {outcome : Outcome} (hrun : (program codec parse service maxRetries).alone
    ⟨.finish outcome, memory, remote⟩ inputs = s') : s' = ⟨.finish outcome, memory, remote⟩ := by
  rw [← hrun]
  exact Program.alone_finish rfl inputs

/-! ### Attempts -/

theorem perform_lost {operation : Operation} {input : CallFiles × UuidSource} {answer : Answer}
    {remote' : Remote} (failure : Failure) (h : operation ≠ .resolved)
    (hhandle : Remote.handle codec parse operation input remote = .ok (answer, remote')) :
    perform codec parse operation (.lost failure input) remote = (.failed failure, remote') := by
  rw [perform_eq codec parse h, Attempt.run, hhandle]

theorem perform_answered {operation : Operation} {input : CallFiles × UuidSource} {answer : Answer}
    {remote' : Remote} (h : operation ≠ .resolved)
    (hhandle : Remote.handle codec parse operation input remote = .ok (answer, remote')) :
    perform codec parse operation (.answered input) remote = (answer, remote') := by
  rw [perform_eq codec parse h, Attempt.run, hhandle]

/-! ### Requests to the wallet service -/

variable (codec parse service maxRetries memory remote) in
/-- **A request to the wallet service.** -/
theorem advance_walletPost (request : WalletRequest) (point : Point) (attempt : OrderAttempt) :
    (program codec parse service maxRetries).advance ⟨.await (.walletPost request) point, memory, remote⟩ attempt
      = match attempt, remote.walletPost request with
        | .unsent failure, _ => ⟨resumeFailed maxRetries failure point, memory, remote⟩
        | .lost failure _, .ok remote' => ⟨resumeFailed maxRetries failure point, memory, remote'⟩
        | .lost failure _, .error _ => ⟨resumeFailed maxRetries failure point, memory, remote⟩
        | .answered _, .ok remote' =>
          ⟨(resumeDone service memory point .done).1, (resumeDone service memory point .done).2, remote'⟩
        | .answered _, .error failure => ⟨resumeFailed maxRetries failure point, memory, remote⟩ := by
  have hhandle : ∀ input, Remote.handle codec parse (.walletPost request) input remote
      = (remote.walletPost request).map fun remote => (.done, remote) := fun input => rfl
  cases attempt with
  | unsent failure => rfl
  | lost failure input =>
      simp only [Program.advance, program, perform, Attempt.run, hhandle]
      cases remote.walletPost request with
      | error e => rfl
      | ok remote' => rfl
  | answered input =>
      simp only [Program.advance, program, perform, Attempt.run, hhandle]
      cases remote.walletPost request with
      | error e => rfl
      | ok remote' => rfl

variable (codec parse) in
/-- What a request to the wallet service is answered, and what it leaves. -/
theorem perform_walletPost (request : WalletRequest) (attempt : OrderAttempt) (remote : Remote) :
    (∃ failure, perform codec parse (.walletPost request) attempt remote = (.failed failure, remote)) ∨
      ∃ remote', remote.walletPost request = .ok remote' ∧
        ((∃ failure, perform codec parse (.walletPost request) attempt remote = (.failed failure, remote')) ∨
          perform codec parse (.walletPost request) attempt remote = (.done, remote')) := by
  have hne : Operation.walletPost request ≠ .resolved := fun h => nomatch h
  have hhandle : ∀ input, Remote.handle codec parse (.walletPost request) input remote
      = (remote.walletPost request).map fun remote => (.done, remote) := fun input => rfl
  rw [perform_eq codec parse hne]
  cases attempt with
  | unsent failure => exact Or.inl ⟨failure, rfl⟩
  | lost failure input =>
      rw [Attempt.run, hhandle]
      cases remote.walletPost request with
      | error refusal => exact Or.inl ⟨failure, rfl⟩
      | ok remote' => exact Or.inr ⟨remote', rfl, Or.inl ⟨failure, rfl⟩⟩
  | answered input =>
      rw [Attempt.run, hhandle]
      cases remote.walletPost request with
      | error refusal => exact Or.inl ⟨refusal, rfl⟩
      | ok remote' => exact Or.inr ⟨remote', rfl, Or.inr rfl⟩

/-- What a write to the database is answered, and what it leaves. -/
theorem perform_write {operation : Operation} {f : Remote → Remote} (hne : operation ≠ .resolved)
    (h : ∀ input remote, Remote.handle codec parse operation input remote = .ok (.done, f remote))
    (attempt : OrderAttempt) (remote : Remote) :
    (∃ failure, attempt = .unsent failure ∧
        perform codec parse operation attempt remote = (.failed failure, remote)) ∨
      (∃ failure input, attempt = .lost failure input ∧
        perform codec parse operation attempt remote = (.failed failure, f remote)) ∨
        perform codec parse operation attempt remote = (.done, f remote) := by
  cases attempt with
  | unsent failure =>
      rw [perform_eq codec parse hne]
      exact Or.inl ⟨failure, rfl, rfl⟩
  | lost failure input => exact Or.inr (Or.inl ⟨failure, input, rfl, perform_lost failure hne (h input remote)⟩)
  | answered input => exact Or.inr (Or.inr (perform_answered hne (h input remote)))

variable (codec parse service maxRetries memory remote) in
/-- A step of a call, by what is answered. -/
theorem advance_eq {operation : Operation} {point : Point} {attempt : OrderAttempt} {answer : Answer}
    {remote' : Remote} (h : perform codec parse operation attempt remote = (answer, remote')) :
    (program codec parse service maxRetries).advance ⟨.await operation point, memory, remote⟩ attempt
      = ⟨(resume service maxRetries point answer memory).1, (resume service maxRetries point answer memory).2,
          remote'⟩ := by
  show (⟨(resume service maxRetries point (perform codec parse operation attempt remote).1 memory).1,
    (resume service maxRetries point (perform codec parse operation attempt remote).1 memory).2,
    (perform codec parse operation attempt remote).2⟩ : OrderState) = _
  rw [h]

variable (codec parse service maxRetries memory remote) in
/-- **An operation fails after the engine has accepted the order**: the call is abandoned. -/
theorem advance_abandoned {operation : Operation} {point : Point} {attempt : OrderAttempt} {failure : Failure}
    {remote' : Remote} (htaken : point.taken = true)
    (h : perform codec parse operation attempt remote = (.failed failure, remote')) :
    (program codec parse service maxRetries).advance ⟨.await operation point, memory, remote⟩ attempt
      = ⟨.finish (.abandoned failure.error), memory, remote'⟩ := by
  rw [advance_eq codec parse service maxRetries memory remote h]
  cases point <;> first | rfl | cases htaken

end Alone

end NexusTrade.Trading

import Mathlib.Algebra.Field.Rat
import Mathlib.Algebra.Order.Ring.Rat
import Mathlib.Data.String.Basic
import NexusTrade.Lib.Extended
import NexusTrade.Lib.SortedMap

/-!
# Shared types

The enumerations of `packages/shared/src/types/domain.ts`, the events of
`packages/shared/src/events/kafka.ts` and the arithmetic of `packages/shared/src/utils/decimal.ts`.

An amount is the number that a decimal string denotes for `decimal.js`: a string that `toFixed` writes is
read back as the same number.  How `decimal.js` rounds a result is a parameter; what the code relies on is
`Extended.TowardZero`.  The length a text can have is not bounded here.

The numeric columns of the database are a parameter as well: what a column stores of a value, if it accepts
it.
-/

namespace NexusTrade

inductive UserStatus
  | pendingEmail
  | active
  | frozen
  | closed
  deriving DecidableEq, Repr

inductive TransactionType
  | deposit
  | withdrawal
  | tradeSettlement
  | internalTransfer
  | fee
  deriving DecidableEq, Repr

inductive TransactionStatus
  | pending
  | confirmed
  | failed
  | reversed
  deriving DecidableEq, Repr

/-- What a decimal string denotes. -/
abbrev Amount := Extended ℚ

/-- The rounding of `decimal.js`. -/
abbrev Rounding := ℚ → Amount

namespace Amount

/-- `'0'`. -/
def zero : Amount := .fin 0

variable (round : Rounding)

/-- `add`. -/
def add (a b : Amount) : Amount := Extended.add round a b

/-- `subtract`. -/
def subtract (a b : Amount) : Amount := Extended.sub round a b

/-- `multiply`. -/
def multiply (a b : Amount) : Amount := Extended.mul round a b

/-- `money(value).negated()`. -/
def negated (a : Amount) : Amount := a.neg

end Amount

/-! ### Columns -/

/-- What a `numeric` column stores of a value, if it accepts it. -/
abbrev Column := Amount → Option Amount

/-- A column after `save` of an entity: it is written if the value has changed. -/
def storeChanged (column : Column) (old next : Amount) : Option Amount :=
  if next = old then some old else column next

/-- What the proofs rely on of a numeric column: it stores zero, and what it stores of a finite number
that is not negative is one. -/
structure Column.Keeps (column : Column) : Prop where
  zero : column .zero = some .zero
  balance : ∀ x y, column x = some y → x.Balance → y.Balance

/-- A column that stores everything as it is. -/
theorem keeps_some : Column.Keeps some where
  zero := rfl
  balance := fun _ _ h hx => by cases h; exact hx

/-! ### Users -/

/-- What a service throws: an `HttpException`, or the error of a database that does not accept a value. -/
inductive ServiceError
  | http (status : ℕ) (message : String)
  | database
  deriving DecidableEq

/-- `assertUserCanTransact` of a service whose repository of users is optional. -/
def userCanTransact (users : Option (SortedMap String UserStatus)) (userId : String) :
    Except ServiceError Unit :=
  match users with
  | none => .ok ()
  | some users =>
    match users.find userId with
    | none => .error (.http 404 "user not found")
    | some status =>
      if status = .frozen ∨ status = .closed then .error (.http 403 "account is not active")
      else .ok ()

/-! ### Events -/

inductive EventType
  | depositDetected
  | depositConfirmed
  | withdrawalRequested
  | withdrawalApproved
  deriving DecidableEq, Repr

/-- An event as `createEvent` makes it, without its identifiers and times. -/
structure KafkaEvent (Payload : Type) where
  eventType : EventType
  aggregateId : String
  payload : Payload
  deriving DecidableEq

end NexusTrade

/-
Errors of retried work: all attempts failed, with the history of the attempts, or a failure that is
not worth another attempt.
-/
import CallGuard.Failure.Basic
import CallGuard.Time.Duration

namespace CallGuard

/-- One failed attempt, counted from one. -/
structure Attempt (ε : Type) where
  index : Nat
  error : ε
  elapsed : Duration
deriving DecidableEq

/-- All attempts failed. There was at least one. -/
structure Exhausted (ε : Type) where
  policy : String
  attempts : List (Attempt ε)
  total : Duration
  attempts_ne_nil : attempts ≠ []
deriving DecidableEq

namespace Exhausted

variable {ε : Type}

/-- What building a history without attempts says. -/
def emptyHistory : String := "assertion failed: !attempts.is_empty()"

/-- The error of a history, which must not be empty. -/
def create (policy : String) (attempts : List (Attempt ε)) (total : Duration) :
    Except String (Exhausted ε) :=
  if h : attempts = [] then .error emptyHistory else .ok ⟨policy, attempts, total, h⟩

/-- The error of the last attempt. -/
def last (x : Exhausted ε) : ε := (x.attempts.getLast x.attempts_ne_nil).error

def message [Payload ε] (x : Exhausted ε) : String :=
  "retry policy '" ++ x.policy ++ "' exhausted after " ++ toString x.attempts.length ++
    " attempts in " ++ x.total.text ++
    String.join (x.attempts.map fun a =>
      "\n  attempt " ++ toString a.index ++ " failed after " ++ a.elapsed.text ++ ": " ++
        (Payload.type ε).name ++ ": " ++ Payload.message a.error)

def outline [Payload ε] (x : Exhausted ε) : Outline :=
  .fields "RetryExhausted"
    [("policy", .text x.policy),
     ("attempts", .sequence (x.attempts.map fun a =>
       .fields "Attempt" [("index", .nat a.index), ("error", Payload.outline a.error),
         ("elapsed", a.elapsed.outline)])),
     ("total_duration", x.total.outline)]

instance [Payload ε] : Payload (Exhausted ε) where
  type := .exhausted (Payload.type ε)
  message := message
  outline := outline

/-- The last failure stands below. -/
instance [Fault ε] : Fault (Exhausted ε) where
  link := Payload.plainLink
  sources x := Fault.chain x.last

end Exhausted

/-- Either all attempts failed, or a failure was not worth another attempt. -/
inductive RetryError (ε : Type) where
  | exhausted (history : Exhausted ε)
  | nonRetryable (error : ε)
deriving DecidableEq

namespace RetryError

variable {ε : Type}

def isExhausted : RetryError ε → Bool
  | exhausted _ => true
  | nonRetryable _ => false

/-- The history, if all attempts failed. -/
def exhausted? : RetryError ε → Option (Exhausted ε)
  | exhausted x => some x
  | nonRetryable _ => none

/-- The failure that ended the attempts. -/
def last : RetryError ε → ε
  | exhausted x => x.last
  | nonRetryable e => e

def message [Payload ε] : RetryError ε → String
  | exhausted x => x.message
  | nonRetryable e => Payload.message e

def outline [Payload ε] : RetryError ε → Outline
  | exhausted x => .tuple "Exhausted" [x.outline]
  | nonRetryable e => .tuple "NonRetryable" [Payload.outline e]

instance [Payload ε] : Payload (RetryError ε) where
  type := .retry (Payload.type ε)
  message := message
  outline := outline

/-- Stands in the place of what it carries: below it is what is below that. -/
instance [Fault ε] : Fault (RetryError ε) where
  link := Payload.plainLink
  sources
    | exhausted x => Fault.sources x
    | nonRetryable e => Fault.sources e

end RetryError

end CallGuard

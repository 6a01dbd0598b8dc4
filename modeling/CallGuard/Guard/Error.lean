/-
Errors of guarded calls, where retry is layered over timeout: a missed deadline, exhausted attempts
of which some may have missed theirs, or the failure of the work itself.
-/
import CallGuard.Retry.Error
import CallGuard.Timeout.Error

namespace CallGuard

/-- How a guarded call fails. -/
inductive GuardError (ε : Type) where
  | timeout (policy : String) (duration : Duration)
  | exhausted (history : Exhausted (TimeoutError ε))
  | failed (error : ε)
deriving DecidableEq

namespace GuardError

variable {ε : Type}

def isTimeout : GuardError ε → Bool
  | timeout .. => true
  | _ => false

/-- The history, if all attempts failed. -/
def exhausted? : GuardError ε → Option (Exhausted (TimeoutError ε))
  | exhausted x => some x
  | _ => none

/-- The failure of the work. -/
def failure? : GuardError ε → Option ε
  | failed e => some e
  | _ => none

/-- The error of a call under a timeout alone. -/
def ofTimeout : TimeoutError ε → GuardError ε
  | .timeout p d => timeout p d
  | .inner e => failed e

/-- The error of a call whose attempts are under a timeout. -/
def ofRetry : RetryError (TimeoutError ε) → GuardError ε
  | .exhausted x => exhausted x
  | .nonRetryable e => ofTimeout e

def message [Payload ε] : GuardError ε → String
  | timeout p d => timeoutMessage p d
  | exhausted x => x.message
  | failed e => Payload.message e

def outline [Payload ε] : GuardError ε → Outline
  | timeout p d => timeoutOutline p d
  | exhausted x => .tuple "Exhausted" [x.outline]
  | failed e => .tuple "Failed" [Payload.outline e]

instance [Payload ε] : Payload (GuardError ε) where
  type := .guarded (Payload.type ε)
  message := message
  outline := outline

/-- Below exhausted attempts stands their history; a failure is stood in for. -/
instance [Fault ε] : Fault (GuardError ε) where
  link := Payload.plainLink
  sources
    | timeout .. => []
    | exhausted x => Fault.chain x
    | failed e => Fault.sources e

end GuardError

end CallGuard

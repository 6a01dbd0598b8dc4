/-
The error of work under a timeout policy: the policy's own, or the one that the work failed with.
-/
import CallGuard.Failure.Basic
import CallGuard.Time.Duration

namespace CallGuard

/-- What a missed deadline says, whoever reports it. -/
def timeoutMessage (policy : String) (duration : Duration) : String :=
  "timeout policy '" ++ policy ++ "' exceeded: no result within " ++ duration.text

/-- The outline of a missed deadline. -/
def timeoutOutline (policy : String) (duration : Duration) : Outline :=
  .fields "Timeout" [("policy", .text policy), ("duration", duration.outline)]

/-- Either no result came in time, or the work failed. -/
inductive TimeoutError (ε : Type) where
  | timeout (policy : String) (duration : Duration)
  | inner (error : ε)
deriving DecidableEq

namespace TimeoutError

variable {ε δ : Type}

def isTimeout : TimeoutError ε → Bool
  | timeout .. => true
  | inner _ => false

/-- The name of the policy whose deadline was missed. -/
def policy? : TimeoutError ε → Option String
  | timeout p _ => some p
  | inner _ => none

/-- The failure of the work. -/
def inner? : TimeoutError ε → Option ε
  | timeout .. => none
  | inner e => some e

/-- Changes the failure of the work. -/
def map (f : ε → δ) : TimeoutError ε → TimeoutError δ
  | timeout p d => timeout p d
  | inner e => inner (f e)

def message [Payload ε] : TimeoutError ε → String
  | timeout p d => timeoutMessage p d
  | inner e => Payload.message e

def outline [Payload ε] : TimeoutError ε → Outline
  | timeout p d => timeoutOutline p d
  | inner e => .tuple "Inner" [Payload.outline e]

instance [Payload ε] : Payload (TimeoutError ε) where
  type := .timeout (Payload.type ε)
  message := message
  outline := outline

/-- The failure of the work stands below. -/
instance [Fault ε] : Fault (TimeoutError ε) where
  link := Payload.plainLink
  sources
    | timeout .. => []
    | inner e => Fault.chain e

end TimeoutError

end CallGuard

/-
What a run reports while it goes on: an event for each decision of a policy, with a level, the part
that reports it, a message and named fields.
-/
import CallGuard.Time.Duration

namespace CallGuard

/-- How loud an event is. -/
inductive Level where
  | debug
  | info
  | warn
deriving DecidableEq

def Level.text : Level → String
  | debug => "DEBUG"
  | info => "INFO"
  | warn => "WARN"

/-- What happened. -/
inductive Event where
  /-- A result did not come in time. -/
  | timeoutExceeded (policy : String) (duration : Duration)
  /-- A failure is not worth another attempt. -/
  | notRetryable (policy : String) (attempt : Nat) (error : String)
  /-- An attempt failed and another one follows after a delay. -/
  | retrying (policy : String) (attempt maxAttempts : Nat) (delay : Duration) (error : String)
  /-- The last attempt failed. -/
  | attemptsExhausted (policy : String) (attempts : Nat) (elapsed : Duration) (error : String)
  /-- A stream starts over and skips what the consumer has. -/
  | resubscribing (attempt : Nat) (idle : Duration) (skip : Nat)
  /-- An alternative answers a failure. -/
  | fallingBack (policy : String) (error : String)
  | registryBuilt (timeouts retries fallbacks : List String)
  | registryInstalled (timeouts retries fallbacks : Nat)
deriving DecidableEq

namespace Event

def level : Event → Level
  | timeoutExceeded .. | attemptsExhausted .. => .warn
  | registryInstalled .. => .info
  | _ => .debug

/-- The part of the library that reports an event. -/
def target : Event → String
  | timeoutExceeded .. => "resilient::timeout::executor"
  | notRetryable .. | retrying .. | attemptsExhausted .. => "resilient::retry::state"
  | resubscribing .. => "resilient::retry::executor"
  | fallingBack .. => "resilient::fallback"
  | registryBuilt .. | registryInstalled .. => "resilient::registry"

def message : Event → String
  | timeoutExceeded .. => "timeout exceeded"
  | notRetryable .. => "failure is not retryable"
  | retrying .. => "attempt failed, retrying"
  | attemptsExhausted .. => "retry attempts exhausted"
  | resubscribing .. => "re-subscribing to stream producer"
  | fallingBack .. => "falling back"
  | registryBuilt .. => "policy registry built"
  | registryInstalled .. => "policy registry installed"

/-- Names in a list, quoted. -/
def namesText (names : List String) : String := (Outline.sequence (names.map .text)).plain

/-- The named fields of an event as texts. Milliseconds are 64-bit counters. -/
def fields : Event → List (String × String)
  | timeoutExceeded policy duration =>
    [("policy", policy), ("duration_ms", toString duration.millis64)]
  | notRetryable policy attempt error =>
    [("policy", policy), ("attempt", toString attempt), ("error", error)]
  | retrying policy attempt maxAttempts delay error =>
    [("policy", policy), ("attempt", toString attempt), ("max_attempts", toString maxAttempts),
     ("delay_ms", toString delay.millis64), ("error", error)]
  | attemptsExhausted policy attempts elapsed error =>
    [("policy", policy), ("attempts", toString attempts), ("elapsed_ms", toString elapsed.millis64),
     ("error", error)]
  | resubscribing attempt idle skip =>
    [("attempt", toString attempt), ("idle_ms", toString idle.millis64), ("skip", toString skip)]
  | fallingBack policy error => [("policy", policy), ("error", error)]
  | registryBuilt timeouts retries fallbacks =>
    [("timeouts", namesText timeouts), ("retries", namesText retries),
     ("fallbacks", namesText fallbacks)]
  | registryInstalled timeouts retries fallbacks =>
    [("timeouts", toString timeouts), ("retries", toString retries), ("fallbacks", toString fallbacks)]

end Event

end CallGuard

/-
What can be wrong with policies before any call runs: unknown and duplicate names, policies that
could not be applied, references to predicates that nobody registered, a second installation.
-/
import CallGuard.Failure.Basic
import CallGuard.Number.Shortest

namespace CallGuard

/-- The families of policies. -/
inductive PolicyKind where
  | timeout
  | retry
  | fallback
deriving DecidableEq

namespace PolicyKind

def text : PolicyKind → String
  | timeout => "timeout"
  | retry => "retry"
  | fallback => "fallback"

def outline : PolicyKind → Outline
  | timeout => .atom "Timeout"
  | retry => .atom "Retry"
  | fallback => .atom "Fallback"

end PolicyKind

/-- Why a policy cannot be applied. -/
inductive Flaw where
  | emptyName
  | zeroDuration
  | noAttempts
  | multiplier (given : Binary64)
  | jitterFactor (given : Binary64)
  | other (reason : String)
deriving DecidableEq

def Flaw.reason : Flaw → String
  | emptyName => "name must not be empty"
  | zeroDuration => "duration must be greater than zero"
  | noAttempts => "max_attempts must be at least 1"
  | multiplier x => "delay_multiplier must be finite and >= 1.0, got " ++ x.text .message
  | jitterFactor x => "jitter factor must be within [0, 1], got " ++ x.text .message
  | other reason => reason

/-- Errors of wiring policies. -/
inductive ConfigError where
  | unknownPolicy (kind : PolicyKind) (name : String)
  | duplicatePolicy (kind : PolicyKind) (name : String)
  | invalidPolicy (kind : PolicyKind) (name : String) (flaw : Flaw)
  | unknownPredicate (policy : String) (predicate : String)
  | alreadyInstalled
deriving DecidableEq

namespace ConfigError

def message : ConfigError → String
  | unknownPolicy kind name => "no " ++ kind.text ++ " policy named '" ++ name ++ "' is configured"
  | duplicatePolicy kind name => kind.text ++ " policy '" ++ name ++ "' is declared more than once"
  | invalidPolicy kind name flaw =>
    "invalid " ++ kind.text ++ " policy '" ++ name ++ "': " ++ flaw.reason
  | unknownPredicate policy predicate =>
    "policy '" ++ policy ++ "' references unknown failure predicate '" ++ predicate ++ "'"
  | alreadyInstalled => "policy registry is already installed"

def outline : ConfigError → Outline
  | unknownPolicy kind name =>
    .fields "UnknownPolicy" [("kind", kind.outline), ("name", .text name)]
  | duplicatePolicy kind name =>
    .fields "DuplicatePolicy" [("kind", kind.outline), ("name", .text name)]
  | invalidPolicy kind name flaw =>
    .fields "InvalidPolicy"
      [("kind", kind.outline), ("name", .text name), ("reason", .text flaw.reason)]
  | unknownPredicate policy predicate =>
    .fields "UnknownPredicate" [("policy", .text policy), ("predicate", .text predicate)]
  | alreadyInstalled => .atom "AlreadyInstalled"

/-- The family of policies that an error is about. -/
def kind? : ConfigError → Option PolicyKind
  | unknownPolicy kind _ | duplicatePolicy kind _ | invalidPolicy kind _ _ => some kind
  | unknownPredicate _ _ | alreadyInstalled => none

end ConfigError

def ErrorType.config : ErrorType := .named "resilient::error::ConfigError"

instance : Fault ConfigError where
  type := .config
  message := ConfigError.message
  outline := ConfigError.outline
  link e := .other .config e.message
  sources _ := []

end CallGuard

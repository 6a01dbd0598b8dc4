/-
Configuration: policies described as data, by family and name. Durations are whole milliseconds;
failure predicates are named and looked up when the policies are made.
-/
import CallGuard.Json.Value
import CallGuard.Policy.Fallback
import CallGuard.Policy.Retry
import CallGuard.Policy.Timeout

namespace CallGuard

/-- A timeout policy without its name. -/
structure TimeoutConfig where
  durationMs : UInt64
deriving DecidableEq

/-- A retry policy without its name. -/
structure RetryConfig where
  attempts : UInt32
  delayMs : UInt64 := 0
  multiplier : Option Binary64 := none
  maxDelayMs : Option UInt64 := none
  predicate : Option String := none
deriving DecidableEq

/-- A fallback policy without its name. -/
structure FallbackConfig where
  predicate : Option String := none
deriving DecidableEq

/-- Policies of all families by name. -/
structure Configuration where
  timeout : NameTable TimeoutConfig := .empty
  retry : NameTable RetryConfig := .empty
  fallback : NameTable FallbackConfig := .empty

/-! ## From configuration to policies -/

/-- The duration of a 64-bit count of milliseconds. -/
def millisOf (n : UInt64) : Duration := .ofMillis n.toNat

/-- The configuration of a timeout policy: its whole milliseconds, as far as 64 bits go. -/
def TimeoutConfig.ofPolicy (p : TimeoutPolicy) : TimeoutConfig :=
  ⟨.ofNat (min p.duration.millis (wordValues - 1))⟩

/-- The predicate that a policy refers to by name. -/
def resolve (predicates : NameTable FailurePredicate) (policy predicate : String) :
    Except ConfigError FailurePredicate :=
  match predicates.find? predicate with
  | some p => .ok p
  | none => .error (.unknownPredicate policy predicate)

/-- The predicate that a policy refers to, or the one that accepts every failure. -/
def resolve? (predicates : NameTable FailurePredicate) (policy : String) :
    Option String → Except ConfigError FailurePredicate
  | none => .ok .always
  | some predicate => resolve predicates policy predicate

def TimeoutConfig.policy (c : TimeoutConfig) (name : String) : Except ConfigError TimeoutPolicy :=
  TimeoutPolicy.create name (millisOf c.durationMs)

/-- The policy of a name. Its predicate is looked up before anything is found invalid. -/
def RetryConfig.policy (predicates : NameTable FailurePredicate) (c : RetryConfig) (name : String) :
    Except ConfigError RetryPolicy := do
  let predicate ← resolve? predicates name c.predicate
  let p : RetryPolicy :=
    { name, maxAttempts := c.attempts, delay := millisOf c.delayMs, multiplier := c.multiplier,
      maxDelay := c.maxDelayMs.map millisOf, predicate }
  p.validate
  return p

def FallbackConfig.policy (predicates : NameTable FailurePredicate) (c : FallbackConfig)
    (name : String) : Except ConfigError FallbackPolicy := do
  return { name, predicate := ← resolve? predicates name c.predicate }

/-- Policies of all families. -/
structure Policies where
  timeouts : List TimeoutPolicy := []
  retries : List RetryPolicy := []
  fallbacks : List FallbackPolicy := []

namespace Policies

/-- The policies of both, those of the first before those of the second. -/
def append (p q : Policies) : Policies :=
  ⟨p.timeouts ++ q.timeouts, p.retries ++ q.retries, p.fallbacks ++ q.fallbacks⟩

end Policies

namespace Configuration

/-- The policies of a configuration: timeouts first, then retries, then fallbacks, each family in the
order of its names. -/
def policies (c : Configuration) (predicates : NameTable FailurePredicate) :
    Except ConfigError Policies := do
  let timeouts ← c.timeout.entries.mapM fun e => e.2.policy e.1
  let retries ← c.retry.entries.mapM fun e => e.2.policy predicates e.1
  let fallbacks ← c.fallback.entries.mapM fun e => e.2.policy predicates e.1
  return { timeouts, retries, fallbacks }

end Configuration

/-! ## Text -/

def TimeoutConfig.outline (c : TimeoutConfig) : Outline :=
  .fields "TimeoutConfig" [("duration_ms", .nat c.durationMs.toNat)]

def RetryConfig.outline (c : RetryConfig) : Outline :=
  .fields "RetryConfig"
    [("attempts", .nat c.attempts.toNat), ("delay_ms", .nat c.delayMs.toNat),
     ("delay_multiplier", .option (fun m => .atom (m.text .outline)) c.multiplier),
     ("max_delay_ms", .option (fun n => .nat n.toNat) c.maxDelayMs),
     ("failure_predicate", .option .text c.predicate)]

def FallbackConfig.outline (c : FallbackConfig) : Outline :=
  .fields "FallbackConfig" [("failure_predicate", .option .text c.predicate)]

/-- The outline of a table. -/
def NameTable.outline {α : Type} (f : α → Outline) (t : NameTable α) : Outline :=
  .mapping (t.entries.map fun e => (e.1, f e.2))

def Configuration.outline (c : Configuration) : Outline :=
  .fields "ResilienceConfig"
    [("timeout", c.timeout.outline TimeoutConfig.outline),
     ("retry", c.retry.outline RetryConfig.outline),
     ("fallback", c.fallback.outline FallbackConfig.outline)]

end CallGuard

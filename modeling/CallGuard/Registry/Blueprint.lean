/-
Building a registry from declarations: policies in code, named predicates and configurations, in any
order. Configurations are turned into policies first, behind those in code; then every policy must be
one that can be applied, and its name new in its family.
-/
import CallGuard.Config.Basic
import CallGuard.Registry.Basic

namespace CallGuard

/-- One declaration. -/
inductive Declaration where
  | timeout (policy : TimeoutPolicy)
  | retry (policy : RetryPolicy)
  | fallback (policy : FallbackPolicy)
  | predicate (name : String) (predicate : FailurePredicate)
  | config (configuration : Configuration)

/-- What was declared so far. Of two predicates of one name the later one counts. -/
structure Blueprint where
  policies : Policies := {}
  predicates : NameTable FailurePredicate := .empty
  configs : List Configuration := []

namespace Blueprint

/-- Adds a declaration. -/
def declare (b : Blueprint) : Declaration → Blueprint
  | .timeout p => { b with policies := { b.policies with timeouts := b.policies.timeouts ++ [p] } }
  | .retry p => { b with policies := { b.policies with retries := b.policies.retries ++ [p] } }
  | .fallback p => { b with policies := { b.policies with fallbacks := b.policies.fallbacks ++ [p] } }
  | .predicate name p => { b with predicates := b.predicates.insert name p }
  | .config c => { b with configs := b.configs ++ [c] }

/-- What a list declares. -/
def ofList (ds : List Declaration) : Blueprint := ds.foldl declare {}

/-- The policies of code and configurations together. -/
def expand (b : Blueprint) : Except ConfigError Policies :=
  b.configs.foldlM (fun ps c => return ps.append (← c.policies b.predicates)) b.policies

/-- The table with one more executor, unless its name is taken. -/
def insertUnique {α : Type} (kind : PolicyKind) (t : NameTable α) (name : String) (a : α) :
    Except ConfigError (NameTable α) :=
  if t.contains name then .error (.duplicatePolicy kind name) else .ok (t.insert name a)

/-- Executors of policies, by name. A policy must be one that can be applied before its name is looked
at. -/
def collect {π α : Type} (kind : PolicyKind) (name : π → String)
    (create : π → Except ConfigError α) (ps : List π) : Except ConfigError (NameTable α) :=
  ps.foldlM (fun t p => do insertUnique kind t (name p) (← create p)) .empty

/-- Builds the registry. Timeouts are looked at first, then retries, then fallbacks. -/
def build (b : Blueprint) : Except ConfigError Registry := do
  let ps ← b.expand
  let timeLimits ← collect .timeout TimeoutPolicy.name (fun p => .ok ⟨p⟩) ps.timeouts
  let retryLoops ← collect .retry RetryPolicy.name RetryLoop.create ps.retries
  let rescues ← collect .fallback FallbackPolicy.name Rescue.create ps.fallbacks
  return { timeLimits, retryLoops, rescues }

def outline (b : Blueprint) : Outline :=
  .fields "RegistryBuilder"
    [("timeouts", .sequence (b.policies.timeouts.map TimeoutPolicy.outline)),
     ("retries", .sequence (b.policies.retries.map RetryPolicy.outline)),
     ("fallbacks", .sequence (b.policies.fallbacks.map FallbackPolicy.outline)),
     ("predicates", b.predicates.outline FailurePredicate.outline),
     ("configs", .sequence (b.configs.map Configuration.outline))]

end Blueprint

def Registry.outline (r : Registry) : Outline :=
  .fields "PolicyRegistry"
    [("timeouts", r.timeLimits.outline TimeLimit.outline),
     ("retries", r.retryLoops.outline RetryLoop.outline),
     ("fallbacks", r.rescues.outline Rescue.outline)]

end CallGuard

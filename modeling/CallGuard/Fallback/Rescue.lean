/-
Rescues: when work fails with a failure that the policy accepts, an alternative answers in its
place. In a stream the first failure decides: the alternative's whole stream follows it, or the failure
is handed out and the stream ends. What the alternative does is not looked at.
-/
import CallGuard.Policy.Fallback
import CallGuard.Run.Poll

namespace CallGuard

/-- A fallback policy that can be applied. -/
structure Rescue where
  policy : FallbackPolicy
  valid : policy.Valid

/-- The state of a stream with an alternative. -/
inductive Rescued (ρ κ : Type) where
  /-- The first stream, of which nothing has failed. -/
  | primary (producer : ρ)
  | alternative (producer : κ)
  /-- A failure was handed out. -/
  | over

namespace Rescue

/-- The rescue of a policy, if it can be applied. -/
def create (policy : FallbackPolicy) : Except ConfigError Rescue :=
  match h : policy.validate with
  | .ok () => .ok ⟨policy, FallbackPolicy.validate_eq_ok.1 h⟩
  | .error e => .error e

def outline (f : Rescue) : Outline := .fields "Fallbacker" [("policy", f.policy.outline)]

variable {σ ε α ρ κ : Type} [Fault ε]

/-- The alternative answers a failure. -/
def accepts (f : Rescue) (e : ε) : Bool := f.policy.predicate.test e

/-- Reports that the alternative answers a failure. -/
def event (f : Rescue) (e : ε) : Event := .fallingBack f.policy.name (Payload.message e)

/-- Runs work, and the alternative if the work fails with an accepted failure. -/
def run (f : Rescue) (work alternative : Act σ (Except ε α)) : Act σ (Except ε α) := fun w =>
  match work w with
  | (.done (.error e), w) =>
    if f.accepts e then alternative (w.report (f.event e)) else (.done (.error e), w)
  | other => other

/-- Polls a stream with an alternative. -/
def poll (f : Rescue) (primary : Poll σ ρ (Except ε α)) (alternative : Source σ κ (Except ε α)) :
    Poll σ (Rescued ρ κ) (Except ε α)
  | .primary p, w =>
    match primary p w with
    | (.panicked m, w) => (.panicked m, w)
    | (.abandoned, w) => (.abandoned, w)
    | (.done none, w) => (.done none, w)
    | (.done (some (.ok a, p)), w) => (.done (some (.ok a, .primary p)), w)
    | (.done (some (.error e, _)), w) =>
      if f.accepts e then
        (alternative.subscribe >>= fun k => relabel id .alternative (alternative.poll k))
          (w.report (f.event e))
      else (.done (some (.error e, .over)), w)
  | .alternative k, w => relabel id .alternative (alternative.poll k) w
  | .over, w => (.done none, w)

end Rescue

end CallGuard

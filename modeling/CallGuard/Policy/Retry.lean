/-
Retry policies: how often work is attempted, how long to wait in between, and which failures are
worth another attempt. The wait before attempt `k + 1` is the base delay times the `k - 1`-th power of
the multiplier, computed on binary64 seconds, cut off at the longest delay and then varied by jitter.
-/
import CallGuard.Failure.Predicate
import CallGuard.Policy.Error
import CallGuard.Policy.Jitter

namespace CallGuard

/-- How failing work is attempted again. -/
structure RetryPolicy where
  name : String
  maxAttempts : UInt32
  delay : Duration := .zero
  multiplier : Option Binary64 := none
  maxDelay : Option Duration := none
  jitter : Jitter := .none
  predicate : FailurePredicate := .always

namespace RetryPolicy

/-! ## Delays -/

/-- The largest exponent of a multiplier. -/
def maxExponent : Nat := 2147483647

/-- The delay after an attempt, before it is cut off. A product that is no duration counts as the
longest one. -/
def grownDelay (p : RetryPolicy) (attempt : Nat) : Duration :=
  match p.multiplier with
  | none => p.delay
  | some m =>
    (Duration.ofSeconds? (p.delay.toSeconds * m.pow (min (attempt - 1) maxExponent))).getD .longest

/-- The delay after a failed attempt, or none if no other attempt follows. -/
def delayAfter (p : RetryPolicy) (attempt : Nat) : Option Duration :=
  if attempt = 0 ∨ p.maxAttempts.toNat ≤ attempt then none
  else some ((p.grownDelay attempt).cappedBy p.maxDelay)

/-- The outcome of asking for a varied delay. -/
inductive Wait where
  /-- No other attempt follows. -/
  | stop
  | delay (d : Duration)
  /-- Jitter asked for a range that cannot be drawn from. -/
  | impossible (fault : DrawFault)
deriving DecidableEq

/-- The delay after a failed attempt, varied by jitter. -/
def waitAfter (p : RetryPolicy) (dice : Dice) (attempt : Nat) (previous : Option Duration) : Wait :=
  match p.delayAfter attempt with
  | none => .stop
  | some base =>
    match p.jitter.apply dice base previous p.maxDelay with
    | .error fault => .impossible fault
    | .ok d => .delay d

theorem lt_maxAttempts_of_waitAfter {p : RetryPolicy} {dice : Dice} {attempt : Nat}
    {previous : Option Duration} {d : Duration} (h : p.waitAfter dice attempt previous = .delay d) :
    attempt < p.maxAttempts.toNat := by
  unfold waitAfter delayAfter at h
  split at h
  · cases h
  · rename_i hd
    split at hd
    · cases hd
    · omega

/-! ## Validity -/

/-- A multiplier never shortens the wait. -/
def goodMultiplier (m : Binary64) : Bool := m.isFinite && !m.lt 1

/-- A factor is a share. -/
def goodFactor (f : Binary64) : Bool := Binary64.le 0 f && f.le 1

/-- Says what is wrong with a policy, if anything: the name first, then the attempts, the multiplier
and the jitter. -/
def validate (p : RetryPolicy) : Except ConfigError Unit :=
  let refuse := fun flaw => Except.error (ConfigError.invalidPolicy .retry p.name flaw)
  if p.name = "" then refuse .emptyName
  else if p.maxAttempts = 0 then refuse .noAttempts
  else
    match p.multiplier.filter (fun m => !goodMultiplier m), p.jitter with
    | some m, _ => refuse (.multiplier m)
    | none, .proportional f => if goodFactor f then .ok () else refuse (.jitterFactor f)
    | none, _ => .ok ()

/-- The policy can be applied. -/
def Valid (p : RetryPolicy) : Prop := p.validate = .ok ()

/-! ## Text -/

def outline (p : RetryPolicy) : Outline :=
  .fields "RetryPolicy"
    [("name", .text p.name), ("max_attempts", .nat p.maxAttempts.toNat), ("delay", p.delay.outline),
     ("delay_multiplier", .option (fun m => .atom (m.text .outline)) p.multiplier),
     ("max_delay", .option Duration.outline p.maxDelay), ("jitter", p.jitter.outline),
     ("failure_predicate", p.predicate.outline)]

end RetryPolicy

end CallGuard

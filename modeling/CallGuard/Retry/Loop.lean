/-
Retry loops: work attempted until it succeeds, fails beyond retrying, or runs out of attempts. One loop
serves suspended and blocking callers; they differ in the clock that they wait on between attempts.
-/
import CallGuard.Retry.Progress
import CallGuard.Run.Act

namespace CallGuard

/-- A retry policy that can be applied. -/
structure RetryLoop where
  policy : RetryPolicy
  valid : policy.Valid

namespace RetryLoop

/-- The loop of a policy, if it can be applied. -/
def create (policy : RetryPolicy) : Except ConfigError RetryLoop :=
  match h : policy.validate with
  | .ok () => .ok ⟨policy, h⟩
  | .error e => .error e

def outline (r : RetryLoop) : Outline := .fields "Retrier" [("policy", r.policy.outline)]

variable {σ ε α : Type} [Fault ε]

/-- The verdict on a failure, reported to the world. -/
def judge (r : RetryLoop) (s : Progress ε) (e : ε) (w : World σ) : Decision ε × World σ :=
  let v := s.fail r.policy w.dice w.now e
  (v.decision, v.events.foldl World.report w)

/-- The attempts from a state on. -/
def attemptFrom (r : RetryLoop) (pace : Pace) (work : Act σ (Except ε α)) (s : Progress ε)
    (w : World σ) : Ended (Except (RetryError ε) α) × World σ :=
  let begun := s.beginAttempt w.now
  match work w with
  | (.panicked m, w) => (.panicked m, w)
  | (.abandoned, w) => (.abandoned, w)
  | (.done (.ok a), w) => (.done (.ok a), w)
  | (.done (.error e), w) =>
    match _h : (begun.fail r.policy w.dice w.now e).decision with
    | .impossible fault => (.panicked fault.message, (r.judge begun e w).2)
    | .giveUp error => (.done (.error error), (r.judge begun e w).2)
    | .retry d next =>
      match Act.sleep pace d (r.judge begun e w).2 with
      | (.panicked m, w) => (.panicked m, w)
      | (.abandoned, w) => (.abandoned, w)
      | (.done (), w) => r.attemptFrom pace work next w
termination_by r.policy.maxAttempts.toNat - s.failed
decreasing_by
  have h₁ := Progress.lt_maxAttempts_of_fail _h
  have h₂ := Progress.failed_of_fail _h
  have same : begun.failed = s.failed := rfl
  rw [same] at h₁ h₂
  omega

/-- Attempts work until it succeeds or the policy gives up. -/
def run (r : RetryLoop) (pace : Pace) (work : Act σ (Except ε α)) :
    Act σ (Except (RetryError ε) α) :=
  fun w => r.attemptFrom pace work (.start w.now) w

end RetryLoop

end CallGuard

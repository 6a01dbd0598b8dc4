/-
The bookkeeping of one retried call or stream: the failures so far, when things started, what the
consumer has, and the last wait. `Progress.fail` decides what a failure leads to. A failure that the
predicate rejects is never counted; one that it accepts is recorded before the next attempt.
-/
import CallGuard.Policy.Retry
import CallGuard.Retry.Error
import CallGuard.Run.Event
import CallGuard.Time.Clock

namespace CallGuard

/-- The state of one retried call or stream. -/
structure Progress (ε : Type) where
  /-- The accepted failures, newest first. -/
  failures : List (Attempt ε) := []
  /-- How many failures there are. -/
  failed : Nat := 0
  failed_eq : failed = failures.length := by rfl
  started : Nat
  attemptStarted : Nat
  lastProgress : Nat
  /-- The elements that the consumer has, over all attempts. -/
  delivered : Nat := 0
  previousDelay : Option Duration := none

/-- What a failure leads to. -/
inductive Decision (ε : Type) where
  /-- Another attempt after a delay. -/
  | retry (delay : Duration) (next : Progress ε)
  | giveUp (error : RetryError ε)
  /-- The delay cannot be drawn. -/
  | impossible (fault : DrawFault)

/-- A decision and what is reported of it. -/
structure Verdict (ε : Type) where
  decision : Decision ε
  events : List Event

namespace Progress

variable {ε : Type}

/-- The state at the start. -/
def start (now : Nat) : Progress ε :=
  { started := now, attemptStarted := now, lastProgress := now }

/-- The accepted failures, oldest first. -/
def attempts (s : Progress ε) : List (Attempt ε) := s.failures.reverse

/-- The number of the attempt that is running or comes next, from one. -/
def attempt (s : Progress ε) : Nat := s.failed + 1

@[simp] theorem length_attempts (s : Progress ε) : s.attempts.length = s.failed := by
  simp [attempts, s.failed_eq]

/-- Another attempt starts. -/
def beginAttempt (s : Progress ε) (now : Nat) : Progress ε := { s with attemptStarted := now }

/-- The consumer has one more element. -/
def deliver (s : Progress ε) (now : Nat) : Progress ε :=
  { s with delivered := s.delivered + 1, lastProgress := now }

/-- The failure of the attempt that is running. -/
def failure (s : Progress ε) (now : Nat) (e : ε) : Attempt ε :=
  ⟨s.attempt, e, elapsed s.attemptStarted now⟩

/-- The state after a failure that another attempt follows. -/
def record (s : Progress ε) (now : Nat) (e : ε) (delay : Duration) : Progress ε :=
  { s with
    failures := s.failure now e :: s.failures
    failed := s.failed + 1
    failed_eq := by simp [s.failed_eq]
    previousDelay := some delay }

@[simp] theorem attempts_record (s : Progress ε) (now : Nat) (e : ε) (delay : Duration) :
    (s.record now e delay).attempts = s.attempts ++ [s.failure now e] := by
  simp [attempts, record]

/-- The error of a call whose last attempt has failed. -/
def exhausted (s : Progress ε) (policy : RetryPolicy) (now : Nat) (e : ε) : Exhausted ε :=
  ⟨policy.name, s.attempts ++ [s.failure now e], elapsed s.started now, by simp⟩

variable [Fault ε]

/-- Decides what a failure leads to. The predicate is asked before the attempts are counted. -/
def fail (s : Progress ε) (policy : RetryPolicy) (dice : Nat → Dice) (now : Nat) (e : ε) :
    Verdict ε :=
  let k := s.attempt
  let text := Payload.message e
  if policy.predicate.test e then
    match policy.waitAfter (dice k) k s.previousDelay with
    | .impossible fault => ⟨.impossible fault, []⟩
    | .delay d =>
      ⟨.retry d (s.record now e d),
        [.retrying policy.name k policy.maxAttempts.toNat d text]⟩
    | .stop =>
      ⟨.giveUp (.exhausted (s.exhausted policy now e)),
        [.attemptsExhausted policy.name k (elapsed s.started now) text]⟩
  else
    ⟨.giveUp (.nonRetryable e), [.notRetryable policy.name k text]⟩

/-- Another attempt follows only while there are attempts left. -/
theorem lt_maxAttempts_of_fail {s next : Progress ε} {policy : RetryPolicy} {dice : Nat → Dice}
    {now : Nat} {e : ε} {d : Duration} (h : (s.fail policy dice now e).decision = .retry d next) :
    s.failed + 1 < policy.maxAttempts.toNat := by
  simp only [fail] at h
  split at h
  · split at h
    · cases h
    · rename_i hw; exact RetryPolicy.lt_maxAttempts_of_waitAfter hw
    · cases h
  · cases h

/-- Every failure that is retried is recorded. -/
theorem failed_of_fail {s next : Progress ε} {policy : RetryPolicy} {dice : Nat → Dice}
    {now : Nat} {e : ε} {d : Duration} (h : (s.fail policy dice now e).decision = .retry d next) :
    next.failed = s.failed + 1 := by
  simp only [fail] at h
  split at h
  · split at h
    · cases h
    · cases h; rfl
    · cases h
  · cases h

end Progress

end CallGuard

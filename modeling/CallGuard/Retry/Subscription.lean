/-
Retried streams. When an element is a failure, the stream subscribes to a new producer after the
policy's delay, skips as many elements as the consumer has, and goes on; the attempts of all
subscriptions are counted together. The stream ends where a producer ends, or with one error.
-/
import CallGuard.Retry.Loop
import CallGuard.Run.Poll

namespace CallGuard

/-- The state of a retried stream over producers in states `ρ`. -/
inductive Subscription (ρ ε : Type) where
  /-- The next poll subscribes to a new producer. -/
  | waiting (progress : Progress ε)
  /-- A producer is there; its next `skip` elements are those that the consumer has. -/
  | live (producer : ρ) (skip : Nat) (progress : Progress ε)
  /-- The one error was handed out. -/
  | finished

namespace Subscription

variable {ρ ε : Type}

/-- A stream that nobody has polled. Its time counts from now. -/
def fresh (now : Nat) : Subscription ρ ε := .waiting (.start now)

/-- How many attempts are left, in a budget of `max`. -/
def remaining (max : Nat) : Subscription ρ ε → Nat
  | waiting s | live _ _ s => max - s.failed
  | finished => 0

/-- How far a subscription is from an element for the consumer. -/
def distance : Subscription ρ ε → Nat
  | waiting s => s.delivered + 1
  | live _ skip _ => skip
  | finished => 0

end Subscription

namespace RetryLoop

variable {σ ρ ε α : Type} [Fault ε]

/-- Polls a retried stream until there is an element for the consumer, an error or the end. -/
def poll (r : RetryLoop) (source : Source σ ρ (Except ε α)) :
    Subscription ρ ε → World σ →
      Ended (Option (Except (RetryError ε) α × Subscription ρ ε)) × World σ
  | .finished, w => (.done none, w)
  | .waiting s, w =>
    let begun := s.beginAttempt w.now
    let w := if 1 < begun.attempt then
        w.report (.resubscribing begun.attempt (elapsed begun.lastProgress w.now) begun.delivered)
      else w
    match source.subscribe w with
    | (.panicked m, w) => (.panicked m, w)
    | (.abandoned, w) => (.abandoned, w)
    | (.done p, w) => r.poll source (.live p begun.delivered begun) w
  | .live p skip s, w =>
    match source.poll p w with
    | (.panicked m, w) => (.panicked m, w)
    | (.abandoned, w) => (.abandoned, w)
    | (.done none, w) => (.done none, w)
    | (.done (some (.ok a, p)), w) =>
      match skip with
      | k + 1 => r.poll source (.live p k s) w
      | 0 => (.done (some (.ok a, .live p 0 (s.deliver w.now))), w)
    | (.done (some (.error e, _)), w) =>
      match _h : (s.fail r.policy w.dice w.now e).decision with
      | .impossible fault => (.panicked fault.message, (r.judge s e w).2)
      | .giveUp error => (.done (some (.error error, .finished)), (r.judge s e w).2)
      | .retry d next =>
        match Act.sleep .suspended d (r.judge s e w).2 with
        | (.panicked m, w) => (.panicked m, w)
        | (.abandoned, w) => (.abandoned, w)
        | (.done (), w) => r.poll source (.waiting next) w
termination_by s => (s.remaining r.policy.maxAttempts.toNat, s.distance)
decreasing_by
  · exact Prod.Lex.right _ (Nat.lt_succ_self s.delivered)
  · exact Prod.Lex.right _ (Nat.lt_succ_self k)
  · have h₁ := Progress.lt_maxAttempts_of_fail _h
    have h₂ := Progress.failed_of_fail _h
    apply Prod.Lex.left
    simp only [Subscription.remaining]
    omega

end RetryLoop

end CallGuard

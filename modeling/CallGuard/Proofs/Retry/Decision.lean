/-
What a failure leads to under a policy that passed its check: the failure is rejected, or it was the last
one, or another attempt follows after a wait that exists (`fail_cases`). There is no fourth case: such a
policy never asks for a draw that cannot be made.
-/
import CallGuard.Proofs.Policy.Wait
import CallGuard.Retry.Progress

namespace CallGuard

namespace RetryPolicy

variable {ε α : Type} [Fault ε]

/-- The result of an attempt that the policy does not take for the end. -/
def Retries (p : RetryPolicy) (result : Except ε α) : Prop :=
  ∃ e, result = .error e ∧ p.predicate.test e = true

/-- The wait after each failed attempt, counted from one. A wait may depend on the one before it. -/
def waits (p : RetryPolicy) (dice : Nat → Dice) : Nat → Option Duration
  | 0 => none
  | k + 1 =>
    match p.waitAfter (dice (k + 1)) (k + 1) (p.waits dice k) with
    | .delay d => some d
    | _ => none

theorem waits_succ {p : RetryPolicy} {dice : Nat → Dice} {k : Nat} {d : Duration}
    (h : p.waitAfter (dice (k + 1)) (k + 1) (p.waits dice k) = .delay d) : p.waits dice (k + 1) = some d := by
  rw [waits, h]

end RetryPolicy

namespace Progress

variable {ε : Type}

/-- The history of a call that is given up has all attempts, and the failure that ended it comes last. -/
theorem length_exhausted (s : Progress ε) (policy : RetryPolicy) (now : Nat) (e : ε) :
    (s.exhausted policy now e).attempts.length = s.attempt := by
  rw [exhausted, List.length_append, length_attempts]
  rfl

theorem last_exhausted (s : Progress ε) (policy : RetryPolicy) (now : Nat) (e : ε) :
    (s.exhausted policy now e).last = e := by
  simp [Exhausted.last, exhausted, failure]

variable [Fault ε]

/-- The three ends of a failure. -/
theorem fail_cases {policy : RetryPolicy} (hp : policy.Valid) (s : Progress ε) (dice : Nat → Dice) (now : Nat)
    (e : ε) :
    (policy.predicate.test e = false ∧ s.fail policy dice now e =
      ⟨.giveUp (.nonRetryable e), [.notRetryable policy.name s.attempt (Payload.message e)]⟩) ∨
    (policy.predicate.test e = true ∧ policy.maxAttempts.toNat ≤ s.attempt ∧ s.fail policy dice now e =
      ⟨.giveUp (.exhausted (s.exhausted policy now e)),
        [.attemptsExhausted policy.name s.attempt (elapsed s.started now) (Payload.message e)]⟩) ∨
    (policy.predicate.test e = true ∧ s.attempt < policy.maxAttempts.toNat ∧
      ∃ d, policy.waitAfter (dice s.attempt) s.attempt s.previousDelay = .delay d ∧ s.fail policy dice now e =
        ⟨.retry d (s.record now e d),
          [.retrying policy.name s.attempt policy.maxAttempts.toNat d (Payload.message e)]⟩) := by
  unfold fail
  cases ht : policy.predicate.test e with
  | false => exact .inl ⟨rfl, by simp⟩
  | true =>
    refine .inr ?_
    have hpos : 0 < s.attempt := Nat.succ_pos _
    by_cases hlt : s.attempt < policy.maxAttempts.toNat
    · obtain ⟨d, hd⟩ := RetryPolicy.waitAfter_of_lt hp (dice s.attempt) s.previousDelay hpos hlt
      exact .inr ⟨rfl, hlt, d, hd, by simp [hd]⟩
    · have hstop := RetryPolicy.waitAfter_of_le policy (dice s.attempt) s.previousDelay (Nat.le_of_not_lt hlt)
      exact .inl ⟨rfl, Nat.le_of_not_lt hlt, by simp [hstop]⟩

theorem fail_of_rejected {policy : RetryPolicy} {s : Progress ε} {dice : Nat → Dice} {now : Nat} {e : ε}
    (no : policy.predicate.test e = false) :
    (s.fail policy dice now e).decision = .giveUp (.nonRetryable e) := by
  simp [fail, no]

theorem fail_of_spent {policy : RetryPolicy} {s : Progress ε} {dice : Nat → Dice} {now : Nat} {e : ε}
    (yes : policy.predicate.test e = true) (spent : policy.maxAttempts.toNat ≤ s.attempt) :
    (s.fail policy dice now e).decision = .giveUp (.exhausted (s.exhausted policy now e)) := by
  simp [fail, yes, RetryPolicy.waitAfter_of_le policy (dice s.attempt) s.previousDelay spent]

theorem fail_of_wait {policy : RetryPolicy} {s : Progress ε} {dice : Nat → Dice} {now : Nat} {e : ε} {d : Duration}
    (yes : policy.predicate.test e = true)
    (wait : policy.waitAfter (dice s.attempt) s.attempt s.previousDelay = .delay d) :
    (s.fail policy dice now e).decision = .retry d (s.record now e d) := by
  simp [fail, yes, wait]

theorem decision_ne_impossible {policy : RetryPolicy} (hp : policy.Valid) (s : Progress ε) (dice : Nat → Dice)
    (now : Nat) (e : ε) (fault : DrawFault) : (s.fail policy dice now e).decision ≠ .impossible fault := by
  intro h
  rcases fail_cases hp s dice now e with ⟨-, hf⟩ | ⟨-, -, hf⟩ | ⟨-, -, d, -, hf⟩ <;> rw [hf] at h <;> cases h

theorem of_decision_giveUp {policy : RetryPolicy} (hp : policy.Valid) {s : Progress ε} {dice : Nat → Dice}
    {now : Nat} {e : ε} {error : RetryError ε} (h : (s.fail policy dice now e).decision = .giveUp error) :
    (policy.predicate.test e = false ∧ error = .nonRetryable e) ∨
      (policy.predicate.test e = true ∧ policy.maxAttempts.toNat ≤ s.attempt ∧
        error = .exhausted (s.exhausted policy now e)) := by
  rcases fail_cases hp s dice now e with ⟨hno, hf⟩ | ⟨hyes, hle, hf⟩ | ⟨-, -, d, -, hf⟩ <;> rw [hf] at h <;> cases h
  · exact .inl ⟨hno, rfl⟩
  · exact .inr ⟨hyes, hle, rfl⟩

theorem of_decision_retry {policy : RetryPolicy} (hp : policy.Valid) {s next : Progress ε} {dice : Nat → Dice}
    {now : Nat} {e : ε} {d : Duration} (h : (s.fail policy dice now e).decision = .retry d next) :
    policy.predicate.test e = true ∧ policy.waitAfter (dice s.attempt) s.attempt s.previousDelay = .delay d ∧
      next = s.record now e d := by
  rcases fail_cases hp s dice now e with ⟨-, hf⟩ | ⟨-, -, hf⟩ | ⟨hyes, -, d, hd, hf⟩ <;> rw [hf] at h <;> cases h
  exact ⟨hyes, hd, rfl⟩

end Progress

end CallGuard

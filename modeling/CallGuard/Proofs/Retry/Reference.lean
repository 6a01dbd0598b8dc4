/-
The reference for retried calls, which knows the outcomes of all calls in advance: the calls go on to
the first value or rejected failure, or until the budget is spent, and the result says which. It leaves
no choice (`ReferenceFrom.unique`), and it can be told from its end: a retried failure comes in front of
what happens from the next attempt on (`ReferenceFrom.cons`).
-/
import CallGuard.Proofs.Retry.Decision
import Mathlib.Data.Nat.Basic

namespace CallGuard

variable {σ ε α : Type}

/-! ## The reference -/

/-- A failed attempt as it is recorded: its number, its failure and how long it took. -/
structure Recorded (outcome : Nat → Except ε α) (took : Nat → Duration) (k : Nat) (a : Attempt ε) : Prop where
  index : a.index = k
  error : outcome k = .error a.error
  elapsed : a.elapsed = took k

/-- What a policy makes of the outcomes after the first `i` calls, which all failed, were retried and are
recorded in `earlier`: how many calls there are, and the result. -/
inductive ReferenceFrom [Fault ε] (p : RetryPolicy) (outcome : Nat → Except ε α) (took : Nat → Duration)
    (total : Duration) (i : Nat) (earlier : List (Attempt ε)) : Nat → Except (RetryError ε) α → Prop where
  /-- The first call that gives a value ends the attempts. -/
  | value {k : Nat} {a : α} (more : i < k) (within : k ≤ p.maxAttempts.toNat)
      (retried : ∀ j, i < j → j < k → p.Retries (outcome j)) (last : outcome k = .ok a) :
      ReferenceFrom p outcome took total i earlier k (.ok a)
  /-- So does the first failure that the predicate rejects, in the last attempt as well. -/
  | rejected {k : Nat} {e : ε} (more : i < k) (within : k ≤ p.maxAttempts.toNat)
      (retried : ∀ j, i < j → j < k → p.Retries (outcome j)) (last : outcome k = .error e)
      (no : p.predicate.test e = false) :
      ReferenceFrom p outcome took total i earlier k (.error (.nonRetryable e))
  /-- Otherwise the budget is spent, and the result tells of every attempt in order. -/
  | exhausted {x : Exhausted ε} (later : List (Attempt ε))
      (retried : ∀ j, i < j → j ≤ p.maxAttempts.toNat → p.Retries (outcome j)) (policy : x.policy = p.name)
      (duration : x.total = total) (attempts : x.attempts = earlier ++ later)
      (length : i + later.length = p.maxAttempts.toNat)
      (recorded : ∀ j (h : j < later.length), Recorded outcome took (i + j + 1) later[j]) :
      ReferenceFrom p outcome took total i earlier p.maxAttempts.toNat (.error (.exhausted x))

/-- What a policy makes of outcomes that are counted from one. -/
def Reference [Fault ε] (p : RetryPolicy) (outcome : Nat → Except ε α) (took : Nat → Duration) (total : Duration) :
    Nat → Except (RetryError ε) α → Prop :=
  ReferenceFrom p outcome took total 0 []

section Cons

variable [Fault ε] {p : RetryPolicy} {outcome : Nat → Except ε α} {took : Nat → Duration} {total : Duration}
  {i k : Nat} {earlier : List (Attempt ε)} {result : Except (RetryError ε) α}

theorem ReferenceFrom.more (h : ReferenceFrom p outcome took total i earlier k result)
    (hi : i < p.maxAttempts.toNat) : i < k := by
  cases h <;> assumption

/-- Only the calls after the first `i` and up to the last one count. -/
theorem ReferenceFrom.congr (took' : Nat → Duration) (h : ReferenceFrom p outcome took total i earlier k result)
    (ht : ∀ j, i < j → j ≤ k → took j = took' j) : ReferenceFrom p outcome took' total i earlier k result := by
  cases h with
  | value h1 h2 h3 h4 => exact .value h1 h2 h3 h4
  | rejected h1 h2 h3 h4 h5 => exact .rejected h1 h2 h3 h4 h5
  | exhausted later h1 h2 h3 h4 h5 h6 =>
    refine .exhausted later h1 h2 h3 h4 h5 fun j hj => ?_
    obtain ⟨r1, r2, r3⟩ := h6 j hj
    exact ⟨r1, r2, r3.trans (ht _ (by omega) (by omega))⟩

/-- One retried failure more in front. -/
theorem ReferenceFrom.cons {a : Attempt ε} (h : ReferenceFrom p outcome took total (i + 1) (earlier ++ [a]) k result)
    (ha : Recorded outcome took (i + 1) a) (hr : p.Retries (outcome (i + 1))) :
    ReferenceFrom p outcome took total i earlier k result := by
  have hall : ∀ n, (∀ j, i + 1 < j → j < n → p.Retries (outcome j)) →
      ∀ j, i < j → j < n → p.Retries (outcome j) := by
    intro n hn j h1 h2
    rcases Nat.lt_or_eq_of_le (Nat.succ_le_of_lt h1) with hlt | rfl
    · exact hn j hlt h2
    · exact hr
  cases h with
  | value h1 h2 h3 h4 => exact .value (by omega) h2 (hall _ h3) h4
  | rejected h1 h2 h3 h4 h5 => exact .rejected (by omega) h2 (hall _ h3) h4 h5
  | exhausted later h1 h2 h3 h4 h5 h6 =>
    refine .exhausted (a :: later) (fun j hj hle => ?_) h2 h3 (by simp [h4]) (by simp; omega) ?_
    · exact hall (p.maxAttempts.toNat + 1) (fun j h1' h2' => h1 j h1' (by omega)) j hj (by omega)
    · rintro (_ | j) hj
      · exact ha
      · have := h6 j (by simpa using hj)
        rwa [show i + (j + 1) + 1 = i + 1 + j + 1 by omega]

end Cons

/-! ## No choice -/

section Unique

variable {p : RetryPolicy} {outcome : Nat → Except ε α} {took : Nat → Duration} {total : Duration}
  {i k k' : Nat} {earlier : List (Attempt ε)} {result result' : Except (RetryError ε) α}

/-- A recorded attempt is told by its number. -/
theorem Recorded.unique {a a' : Attempt ε} (h : Recorded outcome took k a) (h' : Recorded outcome took k a') :
    a = a' := by
  have he : a.error = a'.error := Except.error.inj (h.error.symm.trans h'.error)
  cases a; cases a'
  simp only [Attempt.mk.injEq]
  exact ⟨h.index.trans h'.index.symm, he, h.elapsed.trans h'.elapsed.symm⟩

variable [Fault ε]

/-- The calls end with the first one that is not retried, or with the budget. -/
theorem ReferenceFrom.last_call (h : ReferenceFrom p outcome took total i earlier k result) :
    i ≤ k ∧ k ≤ p.maxAttempts.toNat ∧ (∀ j, i < j → j < k → p.Retries (outcome j)) ∧
      (k < p.maxAttempts.toNat → ¬ p.Retries (outcome k)) := by
  cases h with
  | value h1 h2 h3 h4 =>
    refine ⟨Nat.le_of_lt h1, h2, h3, ?_⟩
    rintro - ⟨e, he, -⟩
    cases h4.symm.trans he
  | rejected h1 h2 h3 h4 h5 =>
    refine ⟨Nat.le_of_lt h1, h2, h3, ?_⟩
    rintro - ⟨e, he, hyes⟩
    cases h4.symm.trans he
    cases h5.symm.trans hyes
  | exhausted later h1 h2 h3 h4 h5 h6 =>
    exact ⟨by omega, le_rfl, fun j h1' h2' => h1 j h1' (Nat.le_of_lt h2'), fun h => absurd h (lt_irrefl _)⟩

/-- A rejected failure is the result as it is. -/
theorem ReferenceFrom.of_rejected (h : ReferenceFrom p outcome took total i earlier k result)
    (hi : i < p.maxAttempts.toNat) {e : ε} (he : outcome k = .error e) (hno : p.predicate.test e = false) :
    result = .error (.nonRetryable e) := by
  have hik := h.more hi
  cases h with
  | value h1 h2 h3 h4 => cases h4.symm.trans he
  | rejected h1 h2 h3 h4 h5 => cases h4.symm.trans he; rfl
  | exhausted later h1 h2 h3 h4 h5 h6 =>
    obtain ⟨e', he', hyes⟩ := h1 _ hik (Nat.le_refl _)
    cases he.symm.trans he'
    cases hno.symm.trans hyes

/-- The outcomes determine how many calls there are, and the result. -/
theorem ReferenceFrom.unique (h : ReferenceFrom p outcome took total i earlier k result)
    (h' : ReferenceFrom p outcome took total i earlier k' result') (hi : i < p.maxAttempts.toNat) :
    k = k' ∧ result = result' := by
  obtain ⟨-, a2, a3, a4⟩ := h.last_call
  obtain ⟨-, b2, b3, b4⟩ := h'.last_call
  have hk : k = k' := by
    rcases Nat.lt_trichotomy k k' with hlt | heq | hlt
    · exact absurd (b3 k (h.more hi) hlt) (a4 (Nat.lt_of_lt_of_le hlt b2))
    · exact heq
    · exact absurd (a3 k' (h'.more hi) hlt) (b4 (Nat.lt_of_lt_of_le hlt a2))
  subst hk
  refine ⟨rfl, ?_⟩
  cases h with
  | value h1 h2 h3 h4 =>
    cases h' with
    | value g1 g2 g3 g4 => exact congrArg _ (Except.ok.inj (h4.symm.trans g4))
    | rejected g1 g2 g3 g4 g5 => cases h4.symm.trans g4
    | exhausted later g1 g2 g3 g4 g5 g6 => obtain ⟨e, he, -⟩ := g1 _ h1 le_rfl; cases h4.symm.trans he
  | rejected h1 h2 h3 h4 h5 =>
    cases h' with
    | value g1 g2 g3 g4 => cases h4.symm.trans g4
    | rejected g1 g2 g3 g4 g5 => exact congrArg (Except.error ∘ RetryError.nonRetryable) (Except.error.inj (h4.symm.trans g4))
    | exhausted later g1 g2 g3 g4 g5 g6 =>
      obtain ⟨e, he, hyes⟩ := g1 _ h1 le_rfl
      cases h4.symm.trans he
      cases h5.symm.trans hyes
  | @exhausted x later h1 h2 h3 h4 h5 h6 =>
    generalize hm : p.maxAttempts.toNat = m at *
    cases h' with
    | value g1 g2 g3 g4 => obtain ⟨e, he, -⟩ := h1 _ g1 le_rfl; cases g4.symm.trans he
    | rejected g1 g2 g3 g4 g5 =>
      obtain ⟨e, he, hyes⟩ := h1 _ g1 le_rfl
      cases g4.symm.trans he
      cases g5.symm.trans hyes
    | @exhausted x' later' g1 g2 g3 g4 g5 g6 =>
      have hlater : later = later' := by
        refine List.ext_getElem (by omega) fun j hj hj' => ?_
        exact (h6 j hj).unique (g6 j hj')
      subst hlater
      cases x; cases x'
      simp_all

end Unique

end CallGuard

/-
The account of a retried stream: which elements every subscription gave and how it failed, written down
call by call as the producers are asked (`Ledger`, `Polled`, `Account`). Every run of a consumer has an
account (`Reads.account`), whatever the producers give.

What a poll does is said once (`Polled`, `polled_poll`); everything that is claimed of retried streams
is then an induction on polls and on runs.
-/
import CallGuard.Proofs.Retry.Decision
import CallGuard.Proofs.Stream.Reading
import CallGuard.Retry.Subscription

namespace CallGuard

variable {σ ρ ε α β γ : Type}

/-! ## Ledgers -/

/-- What the subscriptions of a retried stream gave. -/
structure Ledger (ε α : Type) where
  /-- The subscriptions that failed, in order, each with its elements and its failure. -/
  failed : List (List α × ε) := []
  /-- The elements of the subscription after them, once it was made. -/
  current : Option (List α) := none

namespace Ledger

/-- The elements of all subscriptions. -/
def subscriptions (l : Ledger ε α) : List (List α) := l.failed.map Prod.fst ++ l.current.toList

/-- The failures of the subscriptions. -/
def failures (l : Ledger ε α) : List ε := l.failed.map Prod.snd

/-- A new subscription. -/
def subscribe (l : Ledger ε α) : Ledger ε α := { l with current := some [] }

/-- An element comes out of the current subscription. -/
def element (l : Ledger ε α) (a : α) : Ledger ε α := { l with current := l.current.map (· ++ [a]) }

/-- The current subscription fails. -/
def fail (l : Ledger ε α) (e : ε) : Ledger ε α := ⟨l.failed ++ [(l.current.getD [], e)], none⟩

end Ledger

/-! ## Polls -/

/-- Neither of two acts came back, for the same reason. -/
inductive Ended.Broke : Ended β → Ended γ → Prop where
  | panicked (message : String) : Broke (.panicked message) (.panicked message)
  | abandoned : Broke .abandoned .abandoned

section Polls

variable [Fault ε]

/-- The world in which a retried stream subscribes: it reports every subscription but the first. -/
def announced (s : Progress ε) (w : World σ) : World σ :=
  if 1 < s.attempt then w.report (.resubscribing s.attempt (elapsed s.lastProgress w.now) s.delivered) else w

/-- What one poll of a retried stream asks of the producers, and what becomes of the ledger. -/
inductive Polled (r : RetryLoop) (source : Source σ ρ (Except ε α)) :
    Subscription ρ ε → World σ → Ledger ε α →
      Ended (Option (Except (RetryError ε) α × Subscription ρ ε)) × World σ → Ledger ε α → Prop where
  /-- After the one error nobody is asked. -/
  | finished {w : World σ} {l : Ledger ε α} : Polled r source .finished w l (.done none, w) l
  | subscribe {s : Progress ε} {w w₁ : World σ} {l l' : Ledger ε α} {p : ρ}
      {out : Ended (Option (Except (RetryError ε) α × Subscription ρ ε)) × World σ}
      (call : source.subscribe (announced s w) = (.done p, w₁))
      (rest : Polled r source (.live p s.delivered (s.beginAttempt w.now)) w₁ l.subscribe out l') :
      Polled r source (.waiting s) w l out l'
  /-- The consumer has this element already. -/
  | skip {p p' : ρ} {k : Nat} {s : Progress ε} {w w₁ : World σ} {l l' : Ledger ε α} {a : α}
      {out : Ended (Option (Except (RetryError ε) α × Subscription ρ ε)) × World σ}
      (call : source.poll p w = (.done (some (.ok a, p')), w₁))
      (rest : Polled r source (.live p' k s) w₁ (l.element a) out l') :
      Polled r source (.live p (k + 1) s) w l out l'
  | deliver {p p' : ρ} {s : Progress ε} {w w₁ : World σ} {l : Ledger ε α} {a : α}
      (call : source.poll p w = (.done (some (.ok a, p')), w₁)) :
      Polled r source (.live p 0 s) w l (.done (some (.ok a, .live p' 0 (s.deliver w₁.now))), w₁) (l.element a)
  | retry {p p' : ρ} {k : Nat} {s : Progress ε} {w w₁ w₂ : World σ} {l l' : Ledger ε α} {e : ε} {d : Duration}
      {out : Ended (Option (Except (RetryError ε) α × Subscription ρ ε)) × World σ}
      (call : source.poll p w = (.done (some (.error e, p')), w₁)) (yes : r.policy.predicate.test e = true)
      (wait : r.policy.waitAfter (w₁.dice s.attempt) s.attempt s.previousDelay = .delay d)
      (sleep : Act.sleep .suspended d (r.judge s e w₁).2 = (.done (), w₂))
      (rest : Polled r source (.waiting (s.record w₁.now e d)) w₂ (l.fail e) out l') :
      Polled r source (.live p k s) w l out l'
  | reject {p p' : ρ} {k : Nat} {s : Progress ε} {w w₁ : World σ} {l : Ledger ε α} {e : ε}
      (call : source.poll p w = (.done (some (.error e, p')), w₁)) (no : r.policy.predicate.test e = false) :
      Polled r source (.live p k s) w l (.done (some (.error (.nonRetryable e), .finished)), (r.judge s e w₁).2)
        (l.fail e)
  | exhaust {p p' : ρ} {k : Nat} {s : Progress ε} {w w₁ : World σ} {l : Ledger ε α} {e : ε}
      (call : source.poll p w = (.done (some (.error e, p')), w₁)) (yes : r.policy.predicate.test e = true)
      (spent : r.policy.maxAttempts.toNat ≤ s.attempt) :
      Polled r source (.live p k s) w l
        (.done (some (.error (.exhausted (s.exhausted r.policy w₁.now e)), .finished)), (r.judge s e w₁).2) (l.fail e)
  | ended {p : ρ} {k : Nat} {s : Progress ε} {w w₁ : World σ} {l : Ledger ε α}
      (call : source.poll p w = (.done none, w₁)) : Polled r source (.live p k s) w l (.done none, w₁) l
  /-- The new producer does not come. -/
  | unsubscribed {s : Progress ε} {w w₁ : World σ} {l : Ledger ε α} {x : Ended ρ}
      {y : Ended (Option (Except (RetryError ε) α × Subscription ρ ε))}
      (call : source.subscribe (announced s w) = (x, w₁)) (broke : x.Broke y) :
      Polled r source (.waiting s) w l (y, w₁) l
  /-- The next element does not come. -/
  | unanswered {p : ρ} {k : Nat} {s : Progress ε} {w w₁ : World σ} {l : Ledger ε α}
      {x : Ended (Option (Except ε α × ρ))} {y : Ended (Option (Except (RetryError ε) α × Subscription ρ ε))}
      (call : source.poll p w = (x, w₁)) (broke : x.Broke y) : Polled r source (.live p k s) w l (y, w₁) l
  /-- Nobody waits for the next subscription. -/
  | unslept {p p' : ρ} {k : Nat} {s : Progress ε} {w w₁ w₂ : World σ} {l : Ledger ε α} {e : ε} {d : Duration}
      {x : Ended Unit} {y : Ended (Option (Except (RetryError ε) α × Subscription ρ ε))}
      (call : source.poll p w = (.done (some (.error e, p')), w₁)) (yes : r.policy.predicate.test e = true)
      (wait : r.policy.waitAfter (w₁.dice s.attempt) s.attempt s.previousDelay = .delay d)
      (sleep : Act.sleep .suspended d (r.judge s e w₁).2 = (x, w₂)) (broke : x.Broke y) :
      Polled r source (.live p k s) w l (y, w₂) (l.fail e)

/-- Every poll is one of these, whatever the producers do: the policy alone never breaks a stream. -/
theorem polled_poll (r : RetryLoop) (source : Source σ ρ (Except ε α)) (st : Subscription ρ ε) (w : World σ)
    (l : Ledger ε α) : ∃ l', Polled r source st w l (r.poll source st w) l' := by
  fun_induction RetryLoop.poll r source st w generalizing l with
  | case1 w => exact ⟨l, .finished⟩
  | case2 s w begun w₀ m w₁ h => exact ⟨l, .unsubscribed h (.panicked m)⟩
  | case3 s w begun w₀ w₁ h => exact ⟨l, .unsubscribed h .abandoned⟩
  | case4 s w begun w₀ p w₁ h ih =>
    obtain ⟨l', hl⟩ := ih l.subscribe
    exact ⟨l', .subscribe h hl⟩
  | case5 p k s w m w₁ h => exact ⟨l, .unanswered h (.panicked m)⟩
  | case6 p k s w w₁ h => exact ⟨l, .unanswered h .abandoned⟩
  | case7 p k s w w₁ h => exact ⟨l, .ended h⟩
  | case8 p s w a p' w₁ h k ih =>
    obtain ⟨l', hl⟩ := ih (l.element a)
    exact ⟨l', .skip h hl⟩
  | case9 p s w a p' w₁ h => exact ⟨l.element a, .deliver h⟩
  | case10 p k s w e p' w₁ h fault hd => exact (Progress.decision_ne_impossible r.valid _ _ _ _ _ hd).elim
  | case11 p k s w e p' w₁ h error hd =>
    rcases Progress.of_decision_giveUp r.valid hd with ⟨hno, rfl⟩ | ⟨hyes, hle, rfl⟩
    · exact ⟨l.fail e, .reject h hno⟩
    · exact ⟨l.fail e, .exhaust h hyes hle⟩
  | case12 p k s w e p' w₁ h d next hd m w₂ hs =>
    obtain ⟨hyes, hwait, -⟩ := Progress.of_decision_retry r.valid hd
    exact ⟨l.fail e, .unslept h hyes hwait hs (.panicked m)⟩
  | case13 p k s w e p' w₁ h d next hd w₂ hs =>
    obtain ⟨hyes, hwait, -⟩ := Progress.of_decision_retry r.valid hd
    exact ⟨l.fail e, .unslept h hyes hwait hs .abandoned⟩
  | case14 p k s w e p' w₁ h d next hd w₂ hs ih =>
    obtain ⟨hyes, hwait, rfl⟩ := Progress.of_decision_retry r.valid hd
    obtain ⟨l', hl⟩ := ih (l.fail e)
    exact ⟨l', .retry h hyes hwait hs hl⟩

theorem poll_finished (r : RetryLoop) (source : Source σ ρ (Except ε α)) (w : World σ) :
    r.poll source .finished w = (.done none, w) := by
  rw [RetryLoop.poll]

theorem poll_waiting (r : RetryLoop) (source : Source σ ρ (Except ε α)) (s : Progress ε) (w : World σ) :
    r.poll source (.waiting s) w = match source.subscribe (announced s w) with
      | (.panicked m, w') => (.panicked m, w')
      | (.abandoned, w') => (.abandoned, w')
      | (.done p, w') => r.poll source (.live p s.delivered (s.beginAttempt w.now)) w' := by
  rw [RetryLoop.poll]; rfl

/-- A failure that ends the stream. -/
theorem poll_giveUp {r : RetryLoop} {source : Source σ ρ (Except ε α)} {p p' : ρ} {k : Nat} {s : Progress ε}
    {w w₁ : World σ} {e : ε} {error : RetryError ε} (call : source.poll p w = (.done (some (.error e, p')), w₁))
    (hd : (s.fail r.policy w₁.dice w₁.now e).decision = .giveUp error) :
    r.poll source (.live p k s) w = (.done (some (.error error, .finished)), (r.judge s e w₁).2) := by
  rw [RetryLoop.poll, call]
  simp only
  split
  · rename_i hd'; cases hd.symm.trans hd'
  · rename_i hd'; cases hd.symm.trans hd'; rfl
  · rename_i hd'; cases hd.symm.trans hd'

/-- A failure after which the stream waits. -/
theorem poll_retry {r : RetryLoop} {source : Source σ ρ (Except ε α)} {p p' : ρ} {k : Nat} {s next : Progress ε}
    {w w₁ : World σ} {e : ε} {d : Duration} (call : source.poll p w = (.done (some (.error e, p')), w₁))
    (hd : (s.fail r.policy w₁.dice w₁.now e).decision = .retry d next) :
    r.poll source (.live p k s) w = match Act.sleep .suspended d (r.judge s e w₁).2 with
      | (.panicked m, w') => (.panicked m, w')
      | (.abandoned, w') => (.abandoned, w')
      | (.done (), w') => r.poll source (.waiting next) w' := by
  rw [RetryLoop.poll, call]
  simp only
  split
  · rename_i hd'; cases hd.symm.trans hd'
  · rename_i hd'; cases hd.symm.trans hd'
  · rename_i hd'; cases hd.symm.trans hd'; rfl

/-- What is told of a poll is what the poll does. -/
theorem Polled.poll_eq {r : RetryLoop} {source : Source σ ρ (Except ε α)} {st : Subscription ρ ε} {w : World σ}
    {l l' : Ledger ε α} {out : Ended (Option (Except (RetryError ε) α × Subscription ρ ε)) × World σ}
    (h : Polled r source st w l out l') : r.poll source st w = out := by
  induction h with
  | finished => exact poll_finished r source _
  | subscribe call rest ih => rw [poll_waiting, call]; exact ih
  | skip call rest ih => rw [RetryLoop.poll, call]; exact ih
  | deliver call => rw [RetryLoop.poll, call]
  | retry call yes wait sleep rest ih => rw [poll_retry call (Progress.fail_of_wait yes wait), sleep]; exact ih
  | reject call no => exact poll_giveUp call (Progress.fail_of_rejected no)
  | exhaust call yes spent => exact poll_giveUp call (Progress.fail_of_spent yes spent)
  | ended call => rw [RetryLoop.poll, call]
  | unsubscribed call broke => rw [poll_waiting, call]; cases broke <;> rfl
  | unanswered call broke => rw [RetryLoop.poll, call]; cases broke <;> rfl
  | unslept call yes wait sleep broke =>
    rw [poll_retry call (Progress.fail_of_wait yes wait), sleep]; cases broke <;> rfl

/-! ## Runs -/

/-- The account of a consumer's run: the ledger of everything that its polls asked of the producers. -/
inductive Account (r : RetryLoop) (source : Source σ ρ (Except ε α)) (meanwhile : World σ → World σ → Prop)
    (k₀ : Subscription ρ ε) (w₀ : World σ) :
    Ledger ε α → List (Except (RetryError ε) α) → Phase (Subscription ρ ε) → World σ → Prop where
  | start : Account r source meanwhile k₀ w₀ {} [] (.reading k₀) w₀
  | idle {l : Ledger ε α} {items : List (Except (RetryError ε) α)} {k : Subscription ρ ε} {w w' : World σ}
      (h : Account r source meanwhile k₀ w₀ l items (.reading k) w) (passes : meanwhile w w') :
      Account r source meanwhile k₀ w₀ l items (.reading k) w'
  | polled {l l' : Ledger ε α} {items : List (Except (RetryError ε) α)} {k : Subscription ρ ε} {w w' : World σ}
      {out : Ended (Option (Except (RetryError ε) α × Subscription ρ ε))}
      (h : Account r source meanwhile k₀ w₀ l items (.reading k) w) (poll : Polled r source k w l (out, w') l') :
      Account r source meanwhile k₀ w₀ l' (items ++ handed out) (.after out) w'

theorem Reads.account {r : RetryLoop} {source : Source σ ρ (Except ε α)} {meanwhile : World σ → World σ → Prop}
    {k₀ : Subscription ρ ε} {w₀ w : World σ} {items : List (Except (RetryError ε) α)}
    {phase : Phase (Subscription ρ ε)} (h : Reads (r.poll source) meanwhile k₀ w₀ items phase w) :
    ∃ l, Account r source meanwhile k₀ w₀ l items phase w := by
  induction h with
  | start => exact ⟨{}, .start⟩
  | idle _ passes ih =>
    obtain ⟨l, hl⟩ := ih
    exact ⟨l, .idle hl passes⟩
  | @polled items k w w' out _ call ih =>
    obtain ⟨l, hl⟩ := ih
    obtain ⟨l', hl'⟩ := polled_poll r source k w l
    rw [call] at hl'
    exact ⟨l', .polled hl hl'⟩

end Polls

end CallGuard

/-
What a retried stream hands out: the elements of its subscriptions, each without its first as many as
the consumer had before it (`merged`), and at most one error, the last thing it ever does. Producers
may give anything; the next subscription need not repeat the one before (`reads_delivery`).

The invariant (`Agrees`) ties the counters of the stream to its ledger: while the first elements of a
subscription are skipped, the ledger grows but what it merges to does not.
-/
import CallGuard.Proofs.Retry.Scripted
import CallGuard.Proofs.Stream.Account

namespace CallGuard

variable {σ ρ ε α : Type}

/-! ## Merging subscriptions -/

/-- The elements of all subscriptions, each without as many of its first as there were before it. -/
def merged (subscriptions : List (List α)) : List α :=
  subscriptions.foldl (fun before elements => before ++ elements.drop before.length) []

@[simp] theorem merged_nil : merged ([] : List (List α)) = [] := rfl

theorem merged_concat (subs : List (List α)) (els : List α) :
    merged (subs ++ [els]) = merged subs ++ els.drop (merged subs).length := by
  rw [merged, List.foldl_append]; rfl

@[simp] theorem merged_concat_nil (subs : List (List α)) : merged (subs ++ [[]]) = merged subs := by
  rw [merged_concat, List.drop_nil, List.append_nil]

theorem length_merged_concat (subs : List (List α)) (els : List α) :
    (merged (subs ++ [els])).length = max (merged subs).length els.length := by
  rw [merged_concat, List.length_append, List.length_drop]; omega

/-- An element that was there before changes nothing. -/
theorem merged_skip {subs : List (List α)} {els : List α} (h : els.length < (merged subs).length) (a : α) :
    merged (subs ++ [els ++ [a]]) = merged (subs ++ [els]) := by
  rw [merged_concat, merged_concat, List.drop_of_length_le (Nat.le_of_lt h), List.drop_of_length_le]
  rw [List.length_append]; exact h

/-- An element past them comes out. -/
theorem merged_deliver {subs : List (List α)} {els : List α} (h : (merged subs).length ≤ els.length) (a : α) :
    merged (subs ++ [els ++ [a]]) = merged (subs ++ [els]) ++ [a] := by
  rw [merged_concat, merged_concat, List.drop_append_of_le_length h, List.append_assoc]

/-! ## Ledgers -/

namespace Ledger

variable {l : Ledger ε α} {els : List α}

/-- What the ledger merges to. -/
def received (l : Ledger ε α) : List α := merged l.subscriptions

theorem subscriptions_of_some (h : l.current = some els) :
    l.subscriptions = l.failed.map Prod.fst ++ [els] := by
  rw [subscriptions, h, Option.toList_some]

theorem subscriptions_of_none (h : l.current = none) : l.subscriptions = l.failed.map Prod.fst := by
  rw [subscriptions, h, Option.toList_none, List.append_nil]

theorem received_subscribe (h : l.current = none) : l.subscribe.received = l.received := by
  rw [received, received, subscriptions_of_none h]
  exact merged_concat_nil _

@[simp] theorem failures_subscribe : l.subscribe.failures = l.failures := rfl

theorem current_element (h : l.current = some els) (a : α) : (l.element a).current = some (els ++ [a]) := by
  rw [element, h]; rfl

@[simp] theorem failures_element (a : α) : (l.element a).failures = l.failures := rfl

theorem subscriptions_fail (h : l.current = some els) (e : ε) : (l.fail e).subscriptions = l.subscriptions := by
  rw [subscriptions_of_some h, subscriptions_of_none rfl]
  simp [fail, h]

@[simp] theorem failures_fail (e : ε) : (l.fail e).failures = l.failures ++ [e] := by
  simp [failures, fail]

theorem length_subscriptions (l : Ledger ε α) :
    l.subscriptions.length = l.failures.length + l.current.toList.length := by
  simp [subscriptions, failures]

end Ledger

/-! ## The invariant -/

section Invariant

variable [Fault ε]

/-- The failures that are behind a retried stream, and the error that they led to, if any. -/
inductive Standing (p : RetryPolicy) (failures : List ε) : Option (RetryError ε) → Prop where
  | going (accepted : ∀ e ∈ failures, p.predicate.test e = true) (left : failures.length < p.maxAttempts.toNat) :
      Standing p failures none
  /-- The first failure that is rejected. -/
  | rejected {earlier : List ε} {e : ε} (all : failures = earlier ++ [e])
      (accepted : ∀ e ∈ earlier, p.predicate.test e = true) (no : p.predicate.test e = false)
      (left : earlier.length < p.maxAttempts.toNat) : Standing p failures (some (.nonRetryable e))
  /-- The whole budget is spent. -/
  | exhausted {x : Exhausted ε} (accepted : ∀ e ∈ failures, p.predicate.test e = true) (policy : x.policy = p.name)
      (length : x.attempts.length = p.maxAttempts.toNat) (errors : x.attempts.map Attempt.error = failures)
      (indexes : x.attempts.map Attempt.index = List.range' 1 p.maxAttempts.toNat) :
      Standing p failures (some (.exhausted x))

theorem Standing.length_le {p : RetryPolicy} {failures : List ε} {x : Option (RetryError ε)}
    (h : Standing p failures x) : failures.length ≤ p.maxAttempts.toNat := by
  cases h with
  | going _ left => exact Nat.le_of_lt left
  | rejected all _ _ left => rw [all, List.length_append]; exact left
  | exhausted _ _ length errors _ => rw [← errors, List.length_map]; exact Nat.le_of_eq length

/-- The bookkeeping of a stream agrees with its ledger. -/
structure Books (p : RetryPolicy) (l : Ledger ε α) (s : Progress ε) : Prop where
  errors : s.attempts.map Attempt.error = l.failures
  indexes : s.attempts.map Attempt.index = List.range' 1 s.failed
  accepted : ∀ e ∈ l.failures, p.predicate.test e = true
  left : s.failed < p.maxAttempts.toNat
  delivered : s.delivered = l.received.length

namespace Books

variable {p : RetryPolicy} {l : Ledger ε α} {s : Progress ε}

theorem length_failures (h : Books p l s) : l.failures.length = s.failed := by
  rw [← h.errors, List.length_map, Progress.length_attempts]

theorem standing (h : Books p l s) : Standing p l.failures none :=
  .going h.accepted (by rw [h.length_failures]; exact h.left)

theorem accepted_fail (h : Books p l s) {e : ε} (yes : p.predicate.test e = true) :
    ∀ x ∈ (l.fail e).failures, p.predicate.test x = true := by
  intro x hx
  rw [Ledger.failures_fail] at hx
  rcases List.mem_append.1 hx with hx | hx
  · exact h.accepted x hx
  · rwa [List.mem_singleton.1 hx]

theorem indexes_failure (h : Books p l s) (now : Nat) (e : ε) :
    (s.attempts ++ [s.failure now e]).map Attempt.index = List.range' 1 (s.failed + 1) := by
  rw [List.map_append, h.indexes, List.range'_concat, Nat.one_mul, Nat.add_comm 1]; rfl

theorem errors_failure (h : Books p l s) (now : Nat) (e : ε) :
    (s.attempts ++ [s.failure now e]).map Attempt.error = (l.fail e).failures := by
  rw [List.map_append, h.errors, Ledger.failures_fail]; rfl

/-- Another attempt starts. -/
theorem subscribe (h : Books p l s) (hn : l.current = none) (now : Nat) :
    Books p l.subscribe (s.beginAttempt now) :=
  ⟨h.errors, h.indexes, h.accepted, h.left, by rw [Ledger.received_subscribe hn]; exact h.delivered⟩

/-- A failure is retried. -/
theorem record (h : Books p l s) {els : List α} (hc : l.current = some els) {e : ε}
    (yes : p.predicate.test e = true) (left : s.attempt < p.maxAttempts.toNat) (now : Nat) (d : Duration) :
    Books p (l.fail e) (s.record now e d) where
  errors := by rw [Progress.attempts_record]; exact h.errors_failure now e
  indexes := by rw [Progress.attempts_record]; exact h.indexes_failure now e
  accepted := h.accepted_fail yes
  left := left
  delivered := by rw [Ledger.received, Ledger.subscriptions_fail hc]; exact h.delivered

/-- A failure is rejected. -/
theorem rejected (h : Books p l s) {e : ε} (no : p.predicate.test e = false) :
    Standing p (l.fail e).failures (some (.nonRetryable e)) :=
  .rejected (Ledger.failures_fail e) h.accepted no (by rw [h.length_failures]; exact h.left)

/-- A failure spends the rest of the budget. -/
theorem exhausted (h : Books p l s) {e : ε} (yes : p.predicate.test e = true)
    (spent : p.maxAttempts.toNat ≤ s.attempt) (now : Nat) :
    Standing p (l.fail e).failures (some (.exhausted (s.exhausted p now e))) := by
  have hmax : s.failed + 1 = p.maxAttempts.toNat := Nat.le_antisymm h.left spent
  refine .exhausted (h.accepted_fail yes) rfl ?_ (h.errors_failure now e) ?_
  · rw [Progress.length_exhausted, Progress.attempt, hmax]
  · rw [← hmax]; exact h.indexes_failure now e

end Books

/-- The state of a stream agrees with its ledger: what is still to be skipped is what the current
subscription lacks to what the earlier ones gave. -/
inductive Agrees (p : RetryPolicy) (l : Ledger ε α) : Subscription ρ ε → Prop where
  | waiting {s : Progress ε} (books : Books p l s) (current : l.current = none) : Agrees p l (.waiting s)
  | live {q : ρ} {skip : Nat} {s : Progress ε} {els : List α} (books : Books p l s) (current : l.current = some els)
      (lacks : skip = (merged (l.failed.map Prod.fst)).length - els.length) : Agrees p l (.live q skip s)

/-- What a poll leaves behind: an element more, an error and nothing after it, or nothing more. -/
inductive Leaves (p : RetryPolicy) (source : Source σ ρ (Except ε α)) (l l' : Ledger ε α) (w : World σ) :
    Ended (Option (Except (RetryError ε) α × Subscription ρ ε)) → Prop where
  | element {a : α} {st : Subscription ρ ε} (agrees : Agrees p l' st) (grows : l'.received = l.received ++ [a]) :
      Leaves p source l l' w (.done (some (.ok a, st)))
  | error {x : RetryError ε} (standing : Standing p l'.failures (some x)) (current : l'.current = none)
      (same : l'.received = l.received) : Leaves p source l l' w (.done (some (.error x, .finished)))
  | ended {els : List α} (standing : Standing p l'.failures none) (current : l'.current = some els)
      (same : l'.received = l.received) (call : ∃ q v, source.poll q v = (.done none, w)) :
      Leaves p source l l' w (.done none)
  | broken {out : Ended (Option (Except (RetryError ε) α × Subscription ρ ε))}
      (standing : Standing p l'.failures none) (same : l'.received = l.received) (lost : Phase.after out = .broken) :
      Leaves p source l l' w out

theorem Ended.Broke.after {β γ κ : Type} {x : Ended β} {y : Ended (Option (γ × κ))} (h : x.Broke y) :
    Phase.after y = .broken := by
  cases h <;> rfl

/-- What a poll leaves counts from the ledger before it. -/
theorem Leaves.of_same {p : RetryPolicy} {source : Source σ ρ (Except ε α)} {l l₁ l' : Ledger ε α} {w : World σ}
    {out : Ended (Option (Except (RetryError ε) α × Subscription ρ ε))} (h : Leaves p source l₁ l' w out)
    (he : l₁.received = l.received) : Leaves p source l l' w out := by
  cases h with
  | element agrees grows => exact .element agrees (he ▸ grows)
  | error standing current same => exact .error standing current (same.trans he)
  | ended standing current same call => exact .ended standing current (same.trans he) call
  | broken standing same lost => exact .broken standing (same.trans he) lost

/-- An element that is skipped. -/
theorem Agrees.skip {p : RetryPolicy} {l : Ledger ε α} {q q' : ρ} {k : Nat} {s : Progress ε}
    (h : Agrees p l (.live q (k + 1) s)) (a : α) :
    Agrees p (l.element a) (.live q' k s) ∧ (l.element a).received = l.received := by
  cases h with
  | @live _ _ _ els books current lacks =>
    have hlt : els.length < (merged (l.failed.map Prod.fst)).length := by omega
    have hsame : (l.element a).received = l.received := by
      rw [Ledger.received, Ledger.received, Ledger.subscriptions_of_some (Ledger.current_element current a),
        Ledger.subscriptions_of_some current]
      exact merged_skip hlt a
    refine ⟨.live ⟨books.errors, books.indexes, books.accepted, books.left, hsame ▸ books.delivered⟩
      (Ledger.current_element current a) ?_, hsame⟩
    rw [List.length_append, List.length_singleton]
    show k = (merged (l.failed.map Prod.fst)).length - (els.length + 1)
    omega

/-- An element that is handed out. -/
theorem Agrees.deliver {p : RetryPolicy} {l : Ledger ε α} {q q' : ρ} {s : Progress ε}
    (h : Agrees p l (.live q 0 s)) (a : α) (now : Nat) :
    Agrees p (l.element a) (.live q' 0 (s.deliver now)) ∧ (l.element a).received = l.received ++ [a] := by
  cases h with
  | @live _ _ _ els books current lacks =>
    have hle : (merged (l.failed.map Prod.fst)).length ≤ els.length := by omega
    have hgrows : (l.element a).received = l.received ++ [a] := by
      rw [Ledger.received, Ledger.received, Ledger.subscriptions_of_some (Ledger.current_element current a),
        Ledger.subscriptions_of_some current]
      exact merged_deliver hle a
    refine ⟨.live ⟨books.errors, books.indexes, books.accepted, books.left, ?_⟩
      (Ledger.current_element current a) ?_, hgrows⟩
    · rw [hgrows, List.length_append, ← books.delivered]; rfl
    · rw [List.length_append]
      show 0 = (merged (l.failed.map Prod.fst)).length - (els.length + 1)
      omega

/-- A new subscription has to skip what the consumer has. -/
theorem Agrees.subscribe {p : RetryPolicy} {l : Ledger ε α} {q : ρ} {s : Progress ε}
    (h : Agrees p l (.waiting s : Subscription ρ ε)) (now : Nat) :
    Agrees p l.subscribe (.live q s.delivered (s.beginAttempt now)) ∧ l.subscribe.received = l.received := by
  cases h with
  | waiting books current =>
    refine ⟨.live (books.subscribe current now) rfl ?_, Ledger.received_subscribe current⟩
    rw [books.delivered, Ledger.received, Ledger.subscriptions_of_none current]; rfl

/-- One poll keeps the invariant, or ends the stream. -/
theorem Polled.leaves {r : RetryLoop} {source : Source σ ρ (Except ε α)} {st : Subscription ρ ε} {w : World σ}
    {l l' : Ledger ε α} {out : Ended (Option (Except (RetryError ε) α × Subscription ρ ε)) × World σ}
    (h : Polled r source st w l out l') (ha : Agrees r.policy l st) :
    Leaves r.policy source l l' out.2 out.1 := by
  induction h with
  | finished => cases ha
  | subscribe call rest ih =>
    obtain ⟨ha', hsame⟩ := ha.subscribe _
    exact (ih ha').of_same hsame
  | skip call rest ih =>
    obtain ⟨ha', hsame⟩ := ha.skip _
    exact (ih ha').of_same hsame
  | deliver call =>
    obtain ⟨ha', hgrows⟩ := ha.deliver _ _
    exact .element ha' hgrows
  | retry call yes wait sleep rest ih =>
    cases ha with
    | live books current lacks =>
      refine (ih (.waiting (books.record current yes (RetryPolicy.lt_maxAttempts_of_waitAfter wait) _ _) rfl)).of_same ?_
      rw [Ledger.received, Ledger.subscriptions_fail current]; rfl
  | reject call no =>
    cases ha with
    | live books current lacks =>
      exact .error (books.rejected no) rfl (congrArg merged (Ledger.subscriptions_fail current _))
  | exhaust call yes spent =>
    cases ha with
    | live books current lacks =>
      exact .error (books.exhausted yes spent _) rfl (congrArg merged (Ledger.subscriptions_fail current _))
  | ended call =>
    cases ha with
    | live books current lacks => exact .ended books.standing current rfl ⟨_, _, call⟩
  | unsubscribed call broke =>
    cases ha with
    | waiting books current => exact .broken books.standing rfl broke.after
  | unanswered call broke =>
    cases ha with
    | live books current lacks => exact .broken books.standing rfl broke.after
  | unslept call yes wait sleep broke =>
    cases ha with
    | live books current lacks =>
      exact .broken (books.record current yes (RetryPolicy.lt_maxAttempts_of_waitAfter wait) 0 .zero).standing
        (congrArg merged (Ledger.subscriptions_fail current _)) broke.after

/-! ## Whole runs -/

/-- Where an account stands: the error that was handed out, if any, and the phase of the consumer. -/
inductive Settles (p : RetryPolicy) (source : Source σ ρ (Except ε α)) (l : Ledger ε α) (w : World σ) :
    Option (RetryError ε) → Phase (Subscription ρ ε) → Prop where
  | reading {st : Subscription ρ ε} (agrees : Agrees p l st) : Settles p source l w none (.reading st)
  | finished {x : RetryError ε} (standing : Standing p l.failures (some x)) (current : l.current = none) :
      Settles p source l w (some x) (.reading .finished)
  | closed {x : RetryError ε} (standing : Standing p l.failures (some x)) (current : l.current = none) :
      Settles p source l w (some x) .ended
  | ended {els : List α} (standing : Standing p l.failures none) (current : l.current = some els)
      (call : ∃ q v, source.poll q v = (.done none, w)) : Settles p source l w none .ended
  | broken (standing : Standing p l.failures none) : Settles p source l w none .broken

theorem Agrees.standing {p : RetryPolicy} {l : Ledger ε α} {st : Subscription ρ ε} (h : Agrees p l st) :
    Standing p l.failures none := by
  cases h with
  | waiting books => exact books.standing
  | live books => exact books.standing

theorem Settles.standing {p : RetryPolicy} {source : Source σ ρ (Except ε α)} {l : Ledger ε α} {w : World σ}
    {x : Option (RetryError ε)} {phase : Phase (Subscription ρ ε)} (h : Settles p source l w x phase) :
    Standing p l.failures x := by
  cases h with
  | reading agrees => exact agrees.standing
  | finished standing _ | closed standing _ | ended standing _ _ | broken standing => exact standing

/-- There are never more subscriptions than attempts. -/
theorem Settles.length_le {p : RetryPolicy} {source : Source σ ρ (Except ε α)} {l : Ledger ε α} {w : World σ}
    {x : Option (RetryError ε)} {phase : Phase (Subscription ρ ε)} (h : Settles p source l w x phase) :
    l.subscriptions.length ≤ p.maxAttempts.toNat := by
  rw [l.length_subscriptions]
  have hle := h.standing.length_le
  cases x with
  | some x =>
    have hn : l.current = none := by cases h <;> assumption
    rwa [hn]
  | none =>
    have hlt : l.failures.length < p.maxAttempts.toNat := by
      have hs := h.standing
      cases hs
      assumption
    exact Nat.le_trans (Nat.add_le_add_left Option.length_toList_le _) hlt

/-- A subscription that is not the first one follows a failure that was accepted. -/
theorem Settles.follows {p : RetryPolicy} {source : Source σ ρ (Except ε α)} {l : Ledger ε α} {w : World σ}
    {x : Option (RetryError ε)} {phase : Phase (Subscription ρ ε)} (h : Settles p source l w x phase) {i : Nat}
    (hi : i + 1 < l.subscriptions.length) :
    i + 1 < p.maxAttempts.toNat ∧ ∃ e, l.failures[i]? = some e ∧ p.predicate.test e = true := by
  refine ⟨Nat.lt_of_lt_of_le hi h.length_le, ?_⟩
  rw [l.length_subscriptions] at hi
  have hlt : i < l.failures.length := by
    have := Option.length_toList_le (o := l.current)
    omega
  have hall : ∀ es : List ε, (∀ e ∈ es, p.predicate.test e = true) → i < es.length →
      ∃ e, es[i]? = some e ∧ p.predicate.test e = true := by
    intro es hes hlen
    exact ⟨es[i], List.getElem?_eq_getElem hlen, hes _ (List.getElem_mem hlen)⟩
  have hs := h.standing
  cases hs with
  | going accepted left => exact hall _ accepted hlt
  | exhausted accepted _ _ _ _ => exact hall _ accepted hlt
  | @rejected earlier e all accepted no left =>
    -- The rejected failure is the last one, and nothing was subscribed after it.
    have hn : l.current = none := by cases h <;> assumption
    rw [hn, all, List.length_append] at hi
    have hearlier : i < earlier.length := Nat.lt_of_succ_lt_succ hi
    obtain ⟨e', he', hyes⟩ := hall earlier accepted hearlier
    refine ⟨e', ?_, hyes⟩
    rw [all, List.getElem?_append_left hearlier, he']

theorem agrees_fresh {p : RetryPolicy} (hp : p.Valid) (now : Nat) :
    Agrees p ({} : Ledger ε α) (.fresh now : Subscription ρ ε) :=
  .waiting ⟨rfl, rfl, nofun, hp.attempts_pos, rfl⟩ rfl

/-- A whole run keeps the items in step with the ledger. -/
theorem Account.settles {r : RetryLoop} {source : Source σ ρ (Except ε α)} {meanwhile : World σ → World σ → Prop}
    {now : Nat} {w₀ w : World σ} {l : Ledger ε α} {items : List (Except (RetryError ε) α)}
    {phase : Phase (Subscription ρ ε)} (h : Account r source meanwhile (.fresh now) w₀ l items phase w) :
    ∃ x, items = l.received.map .ok ++ x.toList.map .error ∧ Settles r.policy source l w x phase := by
  induction h with
  | start => exact ⟨none, rfl, .reading (agrees_fresh r.valid now)⟩
  | idle _ _ ih =>
    obtain ⟨x, hitems, hs⟩ := ih
    refine ⟨x, hitems, ?_⟩
    cases hs with
    | reading agrees => exact .reading agrees
    | finished standing current => exact .finished standing current
  | polled _ poll ih =>
    obtain ⟨x, rfl, hs⟩ := ih
    cases hs with
    | finished standing current =>
      cases poll
      exact ⟨_, List.append_nil _, .closed standing current⟩
    | reading agrees =>
      have hl := poll.leaves agrees
      generalize he : Prod.fst _ = out at hl
      simp only at he
      subst he
      cases hl with
      | element agrees grows => exact ⟨none, by simp [grows, handed], .reading agrees⟩
      | error standing current same => exact ⟨some _, by simp [same, handed], .finished standing current⟩
      | ended standing current same call => exact ⟨none, by simp [same, handed], .ended standing current call⟩
      | broken standing same lost =>
        refine ⟨none, ?_, lost ▸ .broken standing⟩
        rw [same, handed_of_after lost, List.append_nil]

/-- What a consumer has of a retried stream, at any moment of any run and whatever the producers give: the
merged elements of the subscriptions, and then at most one error, which the failures of the subscriptions
explain. A new subscription takes an accepted failure and an attempt that is left, whatever was handed
out before. After the error no producer is asked again, and without one the stream ends only where a
producer does. -/
theorem reads_delivery (r : RetryLoop) (source : Source σ ρ (Except ε α)) (meanwhile : World σ → World σ → Prop)
    (now : Nat) {w₀ w : World σ} {items : List (Except (RetryError ε) α)} {phase : Phase (Subscription ρ ε)}
    (h : Reads (r.poll source) meanwhile (.fresh now) w₀ items phase w) :
    ∃ (l : Ledger ε α) (error : Option (RetryError ε)),
      Account r source meanwhile (.fresh now) w₀ l items phase w ∧
      items = (merged l.subscriptions).map .ok ++ error.toList.map .error ∧
      Standing r.policy l.failures error ∧
      l.subscriptions.length ≤ r.policy.maxAttempts.toNat ∧
      (∀ i, i + 1 < l.subscriptions.length → i + 1 < r.policy.maxAttempts.toNat ∧
        ∃ e, l.failures[i]? = some e ∧ r.policy.predicate.test e = true) ∧
      (error ≠ none → l.current = none ∧ (phase = .reading .finished ∨ phase = .ended) ∧
        ∀ v, r.poll source .finished v = (.done none, v)) ∧
      (error = none → phase ≠ .reading .finished ∧
        (phase = .ended → l.current ≠ none ∧ ∃ q v, source.poll q v = (.done none, w))) := by
  obtain ⟨l, ha⟩ := h.account
  obtain ⟨x, hitems, hs⟩ := ha.settles
  refine ⟨l, x, ha, hitems, hs.standing, hs.length_le, fun i => hs.follows, ?_, ?_⟩
  · intro hx
    cases hs with
    | reading => exact absurd rfl hx
    | finished standing current => exact ⟨current, .inl rfl, poll_finished r source⟩
    | closed standing current => exact ⟨current, .inr rfl, poll_finished r source⟩
    | ended => exact absurd rfl hx
    | broken => exact absurd rfl hx
  · rintro rfl
    cases hs with
    | reading agrees =>
      refine ⟨?_, nofun⟩
      rintro ⟨⟩
      cases agrees
    | ended standing current call => exact ⟨nofun, fun _ => ⟨by rw [current]; exact Option.some_ne_none _, call⟩⟩
    | broken => exact ⟨nofun, nofun⟩

/-- A feed whose first subscription fails after one element, and whose other ones begin with another
element or with the same again. -/
def failingOnce (again : Nat) : Feed TestError Nat where
  subscription
    | 0 => [{ ending := .value 1 }, { ending := .failure (.transient "a") }]
    | _ => [{ pauses := [.ofMillis 3], ending := .value again }, { ending := .value 2 }]

/-- The second item takes a failure, a new subscription and an element that is skipped. -/
theorem reads_failingOnce (again : Nat) :
    ∃ w, Reads (RetryLoop.briefly.poll ((failingOnce again).source .whole)) (fun _ _ => True) (.fresh 0)
      { own := {} } [.ok 1, .ok 2] .ended w := by
  have h1 : Polled RetryLoop.briefly ((failingOnce again).source .whole) (.fresh 0) { own := {} } {} _ _ :=
    .subscribe rfl (.deliver rfl)
  have h2 : Polled RetryLoop.briefly ((failingOnce again).source .whole)
      (.live [{ ending := .failure (.transient "a") }] 0 ((Progress.start 0).deliver 0))
      { own := { subscribed := 1, produced := 1 } } {} _ _ :=
    .retry rfl rfl rfl rfl (.subscribe rfl (.skip rfl (.deliver rfl)))
  exact ⟨_, .polled (.polled (.polled .start h1.poll_eq) h2.poll_eq) (Polled.ended (l := {}) rfl).poll_eq⟩

/-- The second subscription does not repeat the first, and its first element is skipped all the same. -/
theorem delivery_failingOnce : ∃ (l : Ledger TestError Nat) (error : Option (RetryError TestError)),
    [Except.ok 1, .ok 2] = (merged l.subscriptions).map .ok ++ error.toList.map .error ∧
      Standing RetryLoop.briefly.policy l.failures error ∧ l.subscriptions.length ≤ 2 := by
  obtain ⟨w, h⟩ := reads_failingOnce 7
  obtain ⟨l, error, -, hitems, hstanding, hle, -⟩ :=
    reads_delivery RetryLoop.briefly ((failingOnce 7).source .whole) (fun _ _ => True) 0 h
  exact ⟨l, error, hitems, hstanding, hle⟩

end Invariant

end CallGuard

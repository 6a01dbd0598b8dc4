/-
The timesheet of a retried stream: when its attempts begin and fail, written down as its producers are asked
(`Clocked`, `Times`). An attempt begins when it subscribes and fails when the failure comes, at whatever polls of
the consumer that is. Every run of a consumer has a timesheet (`Reads.times`), and an exhausted stream tells of the
legs on it (`Times.tells`).

What carries the induction is that the bookkeeping agrees with the sheet whenever the stream waits or is live
(`Upheld`). Before its first poll a stream only knows when it was created.
-/
import CallGuard.Proofs.Retry.Accounting
import CallGuard.Proofs.Stream.Account

namespace CallGuard

variable {σ ρ ε α : Type}

/-- The attempts of a retried stream: those that failed, and when the one that is running began. -/
structure Timesheet (ε : Type) where
  legs : List (Leg ε) := []
  running : Option Nat := none

namespace Timesheet

/-- An attempt begins. -/
def begin (t : Timesheet ε) (now : Nat) : Timesheet ε := { t with running := some now }

/-- The attempt that is running fails. -/
def fail (t : Timesheet ε) (now : Nat) (e : ε) : Timesheet ε := ⟨t.legs ++ [⟨t.running.getD now, now, e⟩], none⟩

end Timesheet

/-! ## What the bookkeeping of a stream knows -/

/-- The bookkeeping of a stream agrees with its timesheet now. -/
inductive Upheld (p : RetryPolicy) (limit created : Nat) (t : Timesheet ε) (now : Nat) : Subscription ρ ε → Prop where
  | waiting {s : Progress ε} {first : Nat} (le : created ≤ first)
      (books : Bookkeeping p limit created first t.legs now s) : Upheld p limit created t now (.waiting s)
  | live {q : ρ} {k : Nat} {s : Progress ε} {first : Nat} (le : created ≤ first) (began : s.attemptStarted ≤ now)
      (books : Bookkeeping p limit created first t.legs s.attemptStarted s)
      (running : t.running = some s.attemptStarted) : Upheld p limit created t now (.live q k s)
  | finished : Upheld p limit created t now .finished

/-- The stream is not about to subscribe. -/
def Subscription.Settled : Subscription ρ ε → Prop
  | .waiting _ => False
  | .live .. | .finished => True

theorem Upheld.later {p : RetryPolicy} {limit created now now' : Nat} {t : Timesheet ε} {st : Subscription ρ ε}
    (h : Upheld p limit created t now st) (hst : st.Settled) (hle : now ≤ now') : Upheld p limit created t now' st := by
  cases h with
  | waiting => exact hst.elim
  | live le began books running => exact .live le (Nat.le_trans began hle) books running
  | finished => exact .finished

theorem onward_announced {w : World σ} (s : Progress ε) (h : w.Whole) : w.Onward (announced s w) := by
  unfold announced
  split
  · exact h.onward.report _
  · exact h.onward

/-! ## Polls and runs, with their times -/

variable [Fault ε]

/-- A poll that hands out an item, and what becomes of the timesheet. -/
inductive Clocked (r : RetryLoop) (source : Source σ ρ (Except ε α)) :
    Subscription ρ ε → World σ → Timesheet ε →
      Except (RetryError ε) α → Subscription ρ ε → World σ → Timesheet ε → Prop where
  | subscribe {s : Progress ε} {w w₁ w' : World σ} {t t' : Timesheet ε} {p : ρ} {item : Except (RetryError ε) α}
      {st' : Subscription ρ ε} (call : source.subscribe (announced s w) = (.done p, w₁))
      (rest : Clocked r source (.live p s.delivered (s.beginAttempt w.now)) w₁ (t.begin w.now) item st' w' t') :
      Clocked r source (.waiting s) w t item st' w' t'
  | skip {p p' : ρ} {k : Nat} {s : Progress ε} {w w₁ w' : World σ} {t t' : Timesheet ε} {a : α}
      {item : Except (RetryError ε) α} {st' : Subscription ρ ε} (call : source.poll p w = (.done (some (.ok a, p')), w₁))
      (rest : Clocked r source (.live p' k s) w₁ t item st' w' t') :
      Clocked r source (.live p (k + 1) s) w t item st' w' t'
  | deliver {p p' : ρ} {s : Progress ε} {w w₁ : World σ} {t : Timesheet ε} {a : α}
      (call : source.poll p w = (.done (some (.ok a, p')), w₁)) :
      Clocked r source (.live p 0 s) w t (.ok a) (.live p' 0 (s.deliver w₁.now)) w₁ t
  | retry {p p' : ρ} {k : Nat} {s next : Progress ε} {w w₁ w₂ w' : World σ} {t t' : Timesheet ε} {e : ε} {d : Duration}
      {item : Except (RetryError ε) α} {st' : Subscription ρ ε} (call : source.poll p w = (.done (some (.error e, p')), w₁))
      (decision : (s.fail r.policy w₁.dice w₁.now e).decision = .retry d next)
      (sleep : Act.sleep .suspended d (r.judge s e w₁).2 = (.done (), w₂))
      (rest : Clocked r source (.waiting next) w₂ (t.fail w₁.now e) item st' w' t') :
      Clocked r source (.live p k s) w t item st' w' t'
  | giveUp {p p' : ρ} {k : Nat} {s : Progress ε} {w w₁ : World σ} {t : Timesheet ε} {e : ε} {error : RetryError ε}
      (call : source.poll p w = (.done (some (.error e, p')), w₁))
      (decision : (s.fail r.policy w₁.dice w₁.now e).decision = .giveUp error) :
      Clocked r source (.live p k s) w t (.error error) .finished (r.judge s e w₁).2 (t.fail w₁.now e)

/-- The timesheet of a consumer's run, up to the last item that it got or some time after it. -/
inductive Times (r : RetryLoop) (source : Source σ ρ (Except ε α)) (meanwhile : World σ → World σ → Prop)
    (k₀ : Subscription ρ ε) (w₀ : World σ) :
    Timesheet ε → List (Except (RetryError ε) α) → Subscription ρ ε → World σ → Prop where
  | start : Times r source meanwhile k₀ w₀ {} [] k₀ w₀
  | idle {t : Timesheet ε} {items : List (Except (RetryError ε) α)} {k : Subscription ρ ε} {w w' : World σ}
      (h : Times r source meanwhile k₀ w₀ t items k w) (passes : meanwhile w w') :
      Times r source meanwhile k₀ w₀ t items k w'
  | item {t t' : Timesheet ε} {items : List (Except (RetryError ε) α)} {x : Except (RetryError ε) α}
      {k k' : Subscription ρ ε} {w w' : World σ} (h : Times r source meanwhile k₀ w₀ t items k w)
      (poll : Clocked r source k w t x k' w' t') : Times r source meanwhile k₀ w₀ t' (items ++ [x]) k' w'

/-! ## Every run has a timesheet -/

section Runs

variable {r : RetryLoop} {source : Source σ ρ (Except ε α)}

theorem Polled.clocked {st : Subscription ρ ε} {w : World σ} {l l' : Ledger ε α}
    {out : Ended (Option (Except (RetryError ε) α × Subscription ρ ε)) × World σ} (h : Polled r source st w l out l')
    {item : Except (RetryError ε) α} {st' : Subscription ρ ε} {w' : World σ} (hout : out = (.done (some (item, st')), w'))
    (t : Timesheet ε) : ∃ t', Clocked r source st w t item st' w' t' := by
  induction h generalizing t with
  | finished => cases hout
  | subscribe call rest ih =>
    obtain ⟨t', ht⟩ := ih hout (t.begin _)
    exact ⟨t', .subscribe call ht⟩
  | skip call rest ih =>
    obtain ⟨t', ht⟩ := ih hout t
    exact ⟨t', .skip call ht⟩
  | deliver call =>
    cases hout
    exact ⟨t, .deliver call⟩
  | retry call yes wait sleep rest ih =>
    obtain ⟨t', ht⟩ := ih hout (t.fail _ _)
    exact ⟨t', .retry call (Progress.fail_of_wait yes wait) sleep ht⟩
  | reject call no =>
    cases hout
    exact ⟨_, .giveUp call (Progress.fail_of_rejected no)⟩
  | exhaust call yes spent =>
    cases hout
    exact ⟨_, .giveUp call (Progress.fail_of_spent yes spent)⟩
  | ended call => cases hout
  | unsubscribed call broke => cases broke <;> cases hout
  | unanswered call broke => cases broke <;> cases hout
  | unslept call yes wait sleep broke => cases broke <;> cases hout

theorem Reads.times {meanwhile : World σ → World σ → Prop} {k₀ : Subscription ρ ε} {w₀ w : World σ}
    {items : List (Except (RetryError ε) α)} {phase : Phase (Subscription ρ ε)}
    (h : Reads (r.poll source) meanwhile k₀ w₀ items phase w) :
    ∃ t k v, Times r source meanwhile k₀ w₀ t items k v ∧ ∀ k', phase = .reading k' → k' = k ∧ v = w := by
  induction h with
  | start => exact ⟨{}, k₀, w₀, .start, by rintro _ ⟨⟩; exact ⟨rfl, rfl⟩⟩
  | idle _ passes ih =>
    obtain ⟨t, k, v, ht, hk⟩ := ih
    obtain ⟨rfl, rfl⟩ := hk _ rfl
    exact ⟨t, _, _, ht.idle passes, by rintro _ ⟨⟩; exact ⟨rfl, rfl⟩⟩
  | @polled items k w w' out _ call ih =>
    obtain ⟨t, k, v, ht, hk⟩ := ih
    obtain ⟨rfl, rfl⟩ := hk _ rfl
    rcases out with (_ | ⟨item, k'⟩) | m | _
    · exact ⟨t, k, v, by simpa [handed] using ht, by rintro _ ⟨⟩⟩
    · obtain ⟨l', hl⟩ := polled_poll r source k v {}
      obtain ⟨t', ht'⟩ := hl.clocked call t
      exact ⟨t', k', w', ht.item ht', by rintro _ ⟨⟩; exact ⟨rfl, rfl⟩⟩
    · exact ⟨t, k, v, by simpa [handed] using ht, by rintro _ ⟨⟩⟩
    · exact ⟨t, k, v, by simpa [handed] using ht, by rintro _ ⟨⟩⟩

end Runs

/-! ## Agreement -/

section Agreement

variable {r : RetryLoop} {source : Source σ ρ (Except ε α)}

/-- One poll keeps the agreement, and if it gives the stream up then the error tells of the legs. -/
theorem Clocked.upheld {st st' : Subscription ρ ε} {w w' : World σ} {t t' : Timesheet ε} {item : Except (RetryError ε) α}
    (h : Clocked r source st w t item st' w' t') (hj : r.policy.jitter = .none) (hsubscribe : source.subscribe.Steady)
    (hpoll : ∀ p, (source.poll p).Steady) {limit created : Nat} (hw : w.Whole) (hlimit : w.instantLimit = limit)
    (hup : Upheld r.policy limit created t w.now st) :
    w.Onward w' ∧ st'.Settled ∧ Upheld r.policy limit created t' w'.now st' ∧
      ∀ x, item = .error (.exhausted x) →
        ∃ first, created ≤ first ∧ Tells r.policy limit created first t'.legs w'.now x := by
  induction h with
  | @subscribe s w w₁ w' t t' p item st' call rest ih =>
    cases hup with
    | waiting le books =>
      have hannounced := onward_announced s hw
      have hw₁ := hannounced.trans (hsubscribe.of_eq call hannounced.whole)
      obtain ⟨hw', hrest⟩ := ih hw₁.whole (hw₁.limit.trans hlimit)
        (.live le hw₁.le ⟨books.started, books.attempts, books.spaced⟩ rfl)
      exact ⟨hw₁.trans hw', hrest⟩
  | @skip p p' k s w w₁ w' t t' a item st' call rest ih =>
    cases hup with
    | live le began books running =>
      have hw₁ := (hpoll p).of_eq call hw
      obtain ⟨hw', hrest⟩ := ih hw₁.whole (hw₁.limit.trans hlimit) (.live le (Nat.le_trans began hw₁.le) books running)
      exact ⟨hw₁.trans hw', hrest⟩
  | @deliver p p' s w w₁ t a call =>
    cases hup with
    | live le began books running =>
      have hw₁ := (hpoll p).of_eq call hw
      exact ⟨hw₁, trivial,
        .live le (Nat.le_trans began hw₁.le) ⟨books.started, books.attempts, books.spaced⟩ running, nofun⟩
  | @retry p p' k s next w w₁ w₂ w' t t' e d item st' call decision sleep rest ih =>
    cases hup with
    | live le began books running =>
      have hw₁ := (hpoll p).of_eq call hw
      have hjudge := r.onward_judge s e hw₁
      have hw₂ := hjudge.trans ((Act.steady_sleep d).of_eq sleep hjudge.whole)
      have hnow : w₂.now = w₁.now + suspension limit w₁.now d := by
        rw [Act.sleep_takes hjudge.whole sleep, hjudge.limit, hlimit, r.now_judge]
      have hnext := books.retry r.valid hj (Nat.le_trans began hw₁.le) decision
      have hlegs : (t.fail w₁.now e).legs = t.legs ++ [⟨s.attemptStarted, w₁.now, e⟩] := by
        rw [Timesheet.fail, running]
        rfl
      obtain ⟨hw', hrest⟩ := ih hw₂.whole (hw₂.limit.trans hlimit) (.waiting le (hnow ▸ hlegs ▸ hnext))
      exact ⟨hw₂.trans hw', hrest⟩
  | @giveUp p p' k s w w₁ t e error call decision =>
    cases hup with
    | live le began books running =>
      have hw₁ := (hpoll p).of_eq call hw
      have hlegs : (t.fail w₁.now e).legs = t.legs ++ [⟨s.attemptStarted, w₁.now, e⟩] := by
        rw [Timesheet.fail, running]
        rfl
      refine ⟨r.onward_judge s e hw₁, trivial, .finished, ?_⟩
      rintro x hx
      cases hx
      rw [r.now_judge, hlegs]
      exact ⟨_, le, books.exhaust r.valid (Nat.le_trans began hw₁.le) decision⟩

/-- A run of a stream that was created some time before keeps the agreement, and what its last item tells, if it is
that the stream is exhausted, is told of the legs. -/
theorem Times.tells {meanwhile : World σ → World σ → Prop} {created : Nat} {w₀ w : World σ} {t : Timesheet ε}
    {items : List (Except (RetryError ε) α)} {k : Subscription ρ ε}
    (h : Times r source meanwhile (.fresh created) w₀ t items k w) (hj : r.policy.jitter = .none)
    (hsubscribe : source.subscribe.Steady) (hpoll : ∀ p, (source.poll p).Steady)
    (hmeanwhile : ∀ w w', meanwhile w w' → w.Whole → w.Onward w') (hw₀ : w₀.Whole) (hcreated : created ≤ w₀.now) :
    w₀.Onward w ∧
      ((k = .fresh created ∧ t = {}) ∨ k.Settled ∧ Upheld r.policy w₀.instantLimit created t w.now k) ∧
      ∀ before x, items = before ++ [.error (.exhausted x)] →
        ∃ first stop, created ≤ first ∧ Tells r.policy w₀.instantLimit created first t.legs stop x := by
  induction h with
  | start => exact ⟨hw₀.onward, .inl ⟨rfl, rfl⟩, fun before x h => by simp at h⟩
  | @idle t items k w w' h passes ih =>
    obtain ⟨hw, hrest, hlast⟩ := ih
    have hw' := hmeanwhile w w' passes hw.whole
    refine ⟨hw.trans hw', ?_, hlast⟩
    rcases hrest with hfresh | ⟨hk, hup⟩
    · exact .inl hfresh
    · exact .inr ⟨hk, hup.later hk hw'.le⟩
  | @item t t' items x k k' w w' h poll ih =>
    obtain ⟨hw, hrest, -⟩ := ih
    have hup : Upheld r.policy w₀.instantLimit created t w.now k := by
      rcases hrest with ⟨rfl, rfl⟩ | ⟨-, hup⟩
      · exact .waiting (Nat.le_trans hcreated hw.le) (.start r.policy _ created w.now)
      · exact hup
    obtain ⟨hw', hk', hup', htells⟩ := poll.upheld hj hsubscribe hpoll hw.whole hw.limit hup
    refine ⟨hw.trans hw', .inr ⟨hk', hup'⟩, fun before x' hitems => ?_⟩
    obtain ⟨-, hx⟩ := List.append_inj' hitems rfl
    obtain ⟨first, hfirst, htells⟩ := htells x' (List.singleton_inj.1 hx)
    exact ⟨first, _, hfirst, htells⟩

end Agreement

end CallGuard

/-
A run of the retry loop over work whose outcomes follow a script. The worlds in which the calls begin
and end form a `Timeline`: one wait between two of them, none after the last. The result is the one that
the reference gives (`attemptFrom_played`, `run_reference`).

The proof is an induction on the attempts that are left; a run whose first attempt is retried puts this
attempt in front of the run from the next one on (`played_retry`).
-/
import CallGuard.Proofs.Retry.Reference
import CallGuard.Proofs.Run.Waiting
import CallGuard.Retry.Loop
import Mathlib.Logic.Function.Basic

namespace CallGuard

variable {σ ε α : Type}

/-! ## Timelines -/

/-- The worlds in which the calls `i + 1, …, k` of some work begin and end. Between two calls there is one
wait, of the length that `waits` tells of the first of them. -/
structure Timeline (pace : Pace) (work : Act σ (Except ε α)) (outcome : Nat → Except ε α)
    (waits : Nat → Option Duration) (i k : Nat) (begins ends : Nat → World σ) : Prop where
  calls : ∀ j, i < j → j ≤ k → work (begins j) = (.done (outcome j), ends j)
  waits : ∀ j, i < j → j < k → ∃ d event, waits j = some d ∧
    Act.sleep pace d ((ends j).report event) = (.done (), begins (j + 1))

/-- How long a call took. -/
def lasted (begins ends : Nat → World σ) (k : Nat) : Duration := elapsed (begins k).now (ends k).now

theorem Timeline.cons {pace : Pace} {work : Act σ (Except ε α)} {outcome : Nat → Except ε α}
    {waits : Nat → Option Duration} {i k : Nat} {begins ends : Nat → World σ} {d : Duration} (event : Event)
    (h : Timeline pace work outcome waits (i + 1) k begins ends)
    (hc : work (begins (i + 1)) = (.done (outcome (i + 1)), ends (i + 1))) (hd : waits (i + 1) = some d)
    (hw : Act.sleep pace d ((ends (i + 1)).report event) = (.done (), begins (i + 2))) :
    Timeline pace work outcome waits i k begins ends := by
  refine ⟨fun j h1 h2 => ?_, fun j h1 h2 => ?_⟩ <;>
    rcases Nat.lt_or_eq_of_le (Nat.succ_le_of_lt h1) with hlt | rfl
  · exact h.calls j hlt h2
  · exact hc
  · exact h.waits j hlt h2
  · exact ⟨d, event, hd, hw⟩

/-- Only the worlds after the first `i` calls count. -/
theorem Timeline.congr {pace : Pace} {work : Act σ (Except ε α)} {outcome : Nat → Except ε α}
    {waits : Nat → Option Duration} {i k : Nat} {begins ends begins' ends' : Nat → World σ}
    (h : Timeline pace work outcome waits i k begins ends) (hb : ∀ j, i < j → begins' j = begins j)
    (he : ∀ j, i < j → ends' j = ends j) : Timeline pace work outcome waits i k begins' ends' where
  calls j h1 h2 := by rw [hb j h1, he j h1]; exact h.calls j h1 h2
  waits j h1 h2 := by rw [hb (j + 1) (by omega), he j h1]; exact h.waits j h1 h2

/-! ## Scripts -/

/-- What a policy waits after a call, if the outcomes of the calls are known. -/
structure RetryPolicy.Pauses [Fault ε] (p : RetryPolicy) (dice : Nat → Dice) (outcome : Nat → Except ε α) (i : Nat)
    (d : Duration) : Prop where
  left : i < p.maxAttempts.toNat
  retries : p.Retries (outcome i)
  wait : p.waits dice i = some d

/-- In a world that is `Ready i`, where `i` calls have come to an end and the next one may begin, that call comes to
the next outcome of the script, and its world is `Over (i + 1)`. What is reported there makes no difference, and
after the wait of the policy the world is `Ready` again. -/
structure Script [Fault ε] (p : RetryPolicy) (pace : Pace) (work : Act σ (Except ε α)) (outcome : Nat → Except ε α)
    (dice : Nat → Dice) (Ready Over : Nat → World σ → Prop) : Prop where
  call : ∀ {i w}, Ready i w → ∃ w', work w = (.done (outcome (i + 1)), w') ∧ Over (i + 1) w'
  report : ∀ {i w} e, Over i w → Over i (w.report e)
  wait : ∀ {i w d}, Over i w → p.Pauses dice outcome i d → ∃ w', Act.sleep pace d w = (.done (), w') ∧ Ready i w'
  dice : ∀ {i w}, Over i w → w.dice = dice

/-- The bookkeeping after `i` failures that were all retried. -/
structure Tracks (p : RetryPolicy) (waits : Nat → Option Duration) (i : Nat) (s : Progress ε) : Prop where
  failed : s.failed = i
  left : i < p.maxAttempts.toNat
  previous : s.previousDelay = waits i

namespace RetryLoop

variable [Fault ε] {r : RetryLoop} {pace : Pace} {work : Act σ (Except ε α)} {outcome : Nat → Except ε α}
  {dice : Nat → Dice} {Ready Over : Nat → World σ → Prop}

theorem judge_eq {s : Progress ε} {e : ε} {w : World σ} {decision : Decision ε} {event : Event}
    (h : s.fail r.policy w.dice w.now e = ⟨decision, [event]⟩) : r.judge s e w = (decision, w.report event) := by
  rw [judge, h]; rfl

/-! ## One attempt -/

theorem attemptFrom_value {s : Progress ε} {w w' : World σ} {a : α} (h : work w = (.done (.ok a), w')) :
    r.attemptFrom pace work s w = (.done (.ok a), w') := by
  rw [attemptFrom, h]

theorem attemptFrom_giveUp {s : Progress ε} {w w' : World σ} {e : ε} {error : RetryError ε} {event : Event}
    (h : work w = (.done (.error e), w'))
    (hf : (s.beginAttempt w.now).fail r.policy w'.dice w'.now e = ⟨.giveUp error, [event]⟩) :
    r.attemptFrom pace work s w = (.done (.error error), w'.report event) := by
  rw [attemptFrom, h]
  simp only [judge_eq hf]
  split
  · rename_i hc; rw [hf] at hc; cases hc
  · rename_i hc; rw [hf] at hc; cases hc; rfl
  · rename_i hc; rw [hf] at hc; cases hc

theorem attemptFrom_retry {s next : Progress ε} {w w' w'' : World σ} {e : ε} {d : Duration} {event : Event}
    (h : work w = (.done (.error e), w'))
    (hf : (s.beginAttempt w.now).fail r.policy w'.dice w'.now e = ⟨.retry d next, [event]⟩)
    (hsleep : Act.sleep pace d (w'.report event) = (.done (), w'')) :
    r.attemptFrom pace work s w = r.attemptFrom pace work next w'' := by
  rw [attemptFrom, h]
  simp only [judge_eq hf]
  split
  · rename_i hc; rw [hf] at hc; cases hc
  · rename_i hc; rw [hf] at hc; cases hc
  · rename_i hc; rw [hf] at hc; cases hc; rw [hsleep]

/-! ## The whole run -/

/-- A run from the moment at which attempt `i + 1` begins in the world `w`, with the state `s`. -/
structure Played (r : RetryLoop) (pace : Pace) (work : Act σ (Except ε α)) (outcome : Nat → Except ε α)
    (dice : Nat → Dice) (Ready Over : Nat → World σ → Prop) (i : Nat) (s : Progress ε) (w : World σ)
    (k : Nat) (begins ends : Nat → World σ) (result : Except (RetryError ε) α) (w' : World σ) : Prop where
  first : begins (i + 1) = w
  timeline : Timeline pace work outcome (r.policy.waits dice) i k begins ends
  ready : ∀ j, i < j → j ≤ k → Ready (j - 1) (begins j) ∧ Over j (ends j)
  reports : ∃ l : List Event, w' = l.foldl World.report (ends k)
  run : r.attemptFrom pace work s w = (.done result, w')
  reference : ReferenceFrom r.policy outcome (lasted begins ends) (elapsed s.started w'.now) i s.attempts k result

/-- A run that ends with its first attempt. -/
theorem played_last {i : Nat} {s : Progress ε} {w w₁ w' : World σ} {result : Except (RetryError ε) α} (hr : Ready i w)
    (hr₁ : Over (i + 1) w₁) (hcall : work w = (.done (outcome (i + 1)), w₁))
    (hrep : ∃ l : List Event, w' = l.foldl World.report w₁)
    (hrun : r.attemptFrom pace work s w = (.done result, w'))
    (href : ReferenceFrom r.policy outcome (fun _ => elapsed w.now w₁.now) (elapsed s.started w'.now) i s.attempts
      (i + 1) result) :
    r.Played pace work outcome dice Ready Over i s w (i + 1) (fun _ => w) (fun _ => w₁) result w' := by
  have honly : ∀ j, i < j → j ≤ i + 1 → j = i + 1 := fun j h1 h2 => by omega
  refine ⟨rfl, ⟨fun j h1 h2 => ?_, fun j h1 h2 => by omega⟩, fun j h1 h2 => ?_, hrep, hrun, href⟩
  · rw [honly j h1 h2]; exact hcall
  · rw [honly j h1 h2]; exact ⟨hr, hr₁⟩

/-- A run whose first attempt is retried. -/
theorem played_retry {i k : Nat} {s : Progress ε} {w w₁ w₂ w' : World σ} {x : ε} {d : Duration} {event : Event}
    {begins ends : Nat → World σ} {result : Except (RetryError ε) α} (ht : Tracks r.policy (r.policy.waits dice) i s)
    (hr : Ready i w) (hr₁ : Over (i + 1) w₁) (ho : outcome (i + 1) = .error x)
    (hcall : work w = (.done (outcome (i + 1)), w₁)) (hyes : r.policy.predicate.test x = true)
    (hd : r.policy.waits dice (i + 1) = some d)
    (hf : (s.beginAttempt w.now).fail r.policy w₁.dice w₁.now x =
      ⟨.retry d ((s.beginAttempt w.now).record w₁.now x d), [event]⟩)
    (hsleep : Act.sleep pace d (w₁.report event) = (.done (), w₂))
    (h : r.Played pace work outcome dice Ready Over (i + 1) ((s.beginAttempt w.now).record w₁.now x d) w₂ k begins ends
      result w') (hik : i + 1 < k) :
    r.Played pace work outcome dice Ready Over i s w k (Function.update begins (i + 1) w)
      (Function.update ends (i + 1) w₁) result w' := by
  have hold : ∀ (f : Nat → World σ) v j, i + 1 < j → Function.update f (i + 1) v j = f j := fun f v j hj =>
    Function.update_of_ne (by omega) _ _
  have hb := Function.update_self (i + 1) w begins
  have he := Function.update_self (i + 1) w₁ ends
  refine ⟨hb, ?_, fun j h1 h2 => ?_, ?_, ?_, ?_⟩
  · refine (h.timeline.congr (hold _ _) (hold _ _)).cons event ?_ hd ?_
    · rw [hb, he]; exact hcall
    · rw [he, hold _ _ _ (by omega), h.first]; exact hsleep
  · rcases Nat.lt_or_eq_of_le (Nat.succ_le_of_lt h1) with hlt | rfl
    · rw [hold _ _ _ hlt, hold _ _ _ hlt]; exact h.ready j hlt h2
    · rw [hb, he]; exact ⟨hr, hr₁⟩
  · rw [hold _ _ _ hik]; exact h.reports
  · rw [attemptFrom_retry (ho ▸ hcall) hf hsleep]; exact h.run
  · have href := h.reference.congr (lasted (Function.update begins (i + 1) w) (Function.update ends (i + 1) w₁))
      fun j hj _ => by rw [lasted, lasted, hold _ _ _ hj, hold _ _ _ hj]
    rw [Progress.attempts_record] at href
    refine href.cons ⟨congrArg (· + 1) ht.failed, ho, ?_⟩ ⟨x, ho, hyes⟩
    rw [lasted, hb, he]; rfl

/-- The attempts from a state on follow the reference. -/
theorem attemptFrom_played (hs : Script r.policy pace work outcome dice Ready Over) :
    ∀ (n i : Nat) (s : Progress ε) (w : World σ), r.policy.maxAttempts.toNat - i = n →
      Tracks r.policy (r.policy.waits dice) i s → Ready i w →
      ∃ k begins ends result w', r.Played pace work outcome dice Ready Over i s w k begins ends result w' := by
  intro n
  induction n with
  | zero => intro i s w hn ht; have := ht.left; omega
  | succ n ih =>
    intro i s w hn ht hr
    obtain ⟨w₁, hcall, hr₁⟩ := hs.call hr
    have hleft := ht.left
    have hnone : ∀ j, i < j → j < i + 1 → r.policy.Retries (outcome j) := fun j h1 h2 => by omega
    cases ho : outcome (i + 1) with
    | ok a =>
      exact ⟨_, _, _, _, _, played_last hr hr₁ hcall ⟨[], rfl⟩ (attemptFrom_value (ho ▸ hcall))
        (.value (Nat.lt_succ_self i) hleft hnone ho)⟩
    | error x =>
      have hk : (s.beginAttempt w.now).attempt = i + 1 := congrArg (· + 1) ht.failed
      rcases Progress.fail_cases r.valid (s.beginAttempt w.now) w₁.dice w₁.now x with
        ⟨hno, hf⟩ | ⟨hyes, hle, hf⟩ | ⟨hyes, hlt, d, hd, hf⟩
      · exact ⟨_, _, _, _, _, played_last hr hr₁ hcall ⟨[_], rfl⟩ (attemptFrom_giveUp (ho ▸ hcall) hf)
          (.rejected (Nat.lt_succ_self i) hleft hnone ho hno)⟩
      · have hlast : i + 1 = r.policy.maxAttempts.toNat := by omega
        refine ⟨_, _, _, _, _, played_last hr hr₁ hcall ⟨[_], rfl⟩ (attemptFrom_giveUp (ho ▸ hcall) hf) ?_⟩
        rw [hlast]
        refine .exhausted [(s.beginAttempt w.now).failure w₁.now x] (fun j h1 h2 => ?_) rfl rfl rfl hlast ?_
        · obtain rfl : j = i + 1 := by omega
          exact ⟨x, ho, hyes⟩
        · rintro (_ | j) hj
          · exact ⟨hk, ho, rfl⟩
          · simp at hj
      · have hwait : r.policy.waits dice (i + 1) = some d := by
          refine RetryPolicy.waits_succ ?_
          rw [← ht.previous, ← hs.dice hr₁, ← hk]; exact hd
        obtain ⟨w₂, hsleep, hr₂⟩ := hs.wait (hs.report _ hr₁) ⟨hk ▸ hlt, ⟨x, ho, hyes⟩, hwait⟩
        have ht' : Tracks r.policy (r.policy.waits dice) (i + 1) ((s.beginAttempt w.now).record w₁.now x d) :=
          ⟨hk, hk ▸ hlt, hwait.symm⟩
        obtain ⟨k, begins, ends, result, w', h⟩ := ih (i + 1) _ w₂ (by omega) ht' hr₂
        exact ⟨_, _, _, _, _, played_retry ht hr hr₁ ho hcall hyes hwait hf hsleep h (h.reference.more ht'.left)⟩

end RetryLoop

/-! ## Work with known outcomes -/

/-- Work whose calls are counted in the state that it keeps, and which comes to the outcomes of a script
one after the other, whatever else its calls do. -/
structure Follows (pace : Pace) (work : Act σ (Except ε α)) (calls : σ → Nat) (outcome : Nat → Except ε α) :
    Prop where
  call : ∀ w : World σ, w.Patient pace → ∃ w', work w = (.done (outcome (calls w.own + 1)), w') ∧
    calls w'.own = calls w.own + 1 ∧ w'.Patient pace ∧ w'.dice = w.dice

/-- So many calls have come to an end, and somebody waits for the next. -/
def Follows.At (pace : Pace) (calls : σ → Nat) (n : Nat) (dice : Nat → Dice) (i : Nat) (w : World σ) : Prop :=
  calls w.own = n + i ∧ w.Patient pace ∧ w.dice = dice

theorem Follows.script [Fault ε] {pace : Pace} {work : Act σ (Except ε α)} {calls : σ → Nat}
    {outcome : Nat → Except ε α} (h : Follows pace work calls outcome) (p : RetryPolicy) (n : Nat) (dice : Nat → Dice) :
    Script p pace work (fun i => outcome (n + i)) dice (Follows.At pace calls n dice) (Follows.At pace calls n dice) where
  call := by
    rintro i w ⟨hc, hp, hd⟩
    obtain ⟨w', hrun, hc', hp', hd'⟩ := h.call w hp
    rw [hc] at hrun hc'
    exact ⟨w', hrun, hc', hp', hd'.trans hd⟩
  report := fun _ ⟨hc, hp, hd⟩ => ⟨hc, World.patient_report hp, hd⟩
  wait := by
    rintro i w d ⟨hc, hp, hd⟩ -
    refine ⟨_, Act.sleep_of_patient hp d, ?_, ?_, ?_⟩
    · rwa [World.own_setClock]
    · rw [World.Patient, World.clock_setClock]; exact hp
    · rwa [World.dice_setClock]
  dice := fun ⟨_, _, hd⟩ => hd

/-- Work that ends at once and counts its calls. -/
def counted (outcome : Nat → Except ε α) : Act Nat (Except ε α) :=
  Act.modifyOwn fun n => (outcome (n + 1), n + 1)

theorem counted_follows (pace : Pace) (outcome : Nat → Except ε α) : Follows pace (counted outcome) id outcome :=
  ⟨fun w hw => ⟨{ w with own := w.own + 1 }, rfl, rfl, by cases pace <;> exact hw, rfl⟩⟩

namespace RetryLoop

variable [Fault ε]

/-- A retried call for which somebody waits to the end: the calls go on as the reference says, with one
wait of the policy's length after each but the last, and the result is that of the reference. -/
theorem run_reference (r : RetryLoop) (pace : Pace) {work : Act σ (Except ε α)} {calls : σ → Nat}
    {outcome : Nat → Except ε α} (hf : Follows pace work calls outcome) {w : World σ} (hw : w.Patient pace) :
    ∃ (k : Nat) (begins ends : Nat → World σ) (result : Except (RetryError ε) α) (w' : World σ),
      r.run pace work w = (.done result, w') ∧
      Reference r.policy (fun i => outcome (calls w.own + i)) (lasted begins ends) (elapsed w.now w'.now) k result ∧
      calls w'.own = calls w.own + k ∧
      begins 1 = w ∧
      Timeline pace work (fun i => outcome (calls w.own + i)) (r.policy.waits w.dice) 0 k begins ends ∧
      ∃ l : List Event, w' = l.foldl World.report (ends k) := by
  obtain ⟨k, begins, ends, result, w', h⟩ := attemptFrom_played (hf.script r.policy (calls w.own) w.dice) _ 0
    (.start w.now) w rfl ⟨rfl, r.valid.attempts_pos, rfl⟩ ⟨rfl, hw, rfl⟩
  have hk : 0 < k := h.reference.more r.valid.attempts_pos
  obtain ⟨l, hl⟩ := h.reports
  refine ⟨k, begins, ends, result, w', h.run, h.reference, ?_, h.first, h.timeline, l, hl⟩
  rw [hl, World.own_reports]
  exact (h.ready k hk (Nat.le_refl k)).2.1

/-- Two attempts at what fails for a while. -/
def briefly : RetryLoop where
  policy := { name := "brief", maxAttempts := 2, delay := .ofMillis 5, predicate := .transient }
  valid := by simp [RetryPolicy.valid_iff, Jitter.Good]

/-- A failure that is rejected after the last attempt does not count as exhaustion. -/
theorem run_briefly : ∃ w' : World Nat,
    briefly.run .suspended (counted fun k => if k = 1 then .error (.transient "a") else .error (.permanent "b"))
      { own := 0 } = (.done (.error (.nonRetryable (.permanent "b")) : Except (RetryError TestError) Unit), w') ∧
    w'.own = 2 := by
  obtain ⟨k, begins, ends, result, w', hrun, href, hcalls, -⟩ := run_reference (α := Unit) briefly .suspended
    (counted_follows .suspended fun k => if k = 1 then .error (TestError.transient "a") else .error (.permanent "b"))
    (show ({ own := 0 } : World Nat).Patient .suspended from rfl)
  have hexp : Reference briefly.policy (α := Unit)
      (fun i => if i = 1 then .error (TestError.transient "a") else .error (.permanent "b"))
      (lasted begins ends) (elapsed 0 w'.now) 2 (.error (.nonRetryable (.permanent "b"))) := by
    refine .rejected (by decide) (by decide) (fun j h1 h2 => ?_) rfl rfl
    obtain rfl : j = 1 := by omega
    exact ⟨_, rfl, rfl⟩
  simp only [id, Nat.zero_add] at href hcalls
  obtain ⟨rfl, rfl⟩ := ReferenceFrom.unique href hexp (by decide)
  exact ⟨w', hrun, hcalls⟩

end RetryLoop

end CallGuard

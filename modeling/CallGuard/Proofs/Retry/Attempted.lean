/-
What a run of the retry loop consists of: attempts that fail and are waited after, and one end (`Attempted`).
Every run is of this form, whatever the work does (`attempted`), so what is claimed of runs is an induction on
it. An attempt of a run that panics is its last one (`attemptFrom_of_begins`).
-/
import CallGuard.Proofs.Stream.Account
import CallGuard.Proofs.Timeout.Timed

namespace CallGuard

variable {σ ε α : Type} [Fault ε]

/-- A run of the attempts from a state on, and what it comes to. -/
inductive Attempted (r : RetryLoop) (pace : Pace) (work : Act σ (Except ε α)) :
    Progress ε → World σ → Ended (Except (RetryError ε) α) × World σ → Prop where
  | value {s : Progress ε} {w w₁ : World σ} {a : α} (call : work w = (.done (.ok a), w₁)) :
      Attempted r pace work s w (.done (.ok a), w₁)
  | giveUp {s : Progress ε} {w w₁ : World σ} {e : ε} {error : RetryError ε} (call : work w = (.done (.error e), w₁))
      (decision : ((s.beginAttempt w.now).fail r.policy w₁.dice w₁.now e).decision = .giveUp error) :
      Attempted r pace work s w (.done (.error error), (r.judge (s.beginAttempt w.now) e w₁).2)
  | retry {s next : Progress ε} {w w₁ w₂ : World σ} {e : ε} {d : Duration}
      {out : Ended (Except (RetryError ε) α) × World σ} (call : work w = (.done (.error e), w₁))
      (decision : ((s.beginAttempt w.now).fail r.policy w₁.dice w₁.now e).decision = .retry d next)
      (sleep : Act.sleep pace d (r.judge (s.beginAttempt w.now) e w₁).2 = (.done (), w₂))
      (rest : Attempted r pace work next w₂ out) : Attempted r pace work s w out
  /-- An attempt does not come back. -/
  | broken {s : Progress ε} {w w₁ : World σ} {x : Ended (Except ε α)} {y : Ended (Except (RetryError ε) α)}
      (call : work w = (x, w₁)) (broke : x.Broke y) : Attempted r pace work s w (y, w₁)
  /-- Nobody waits for the next attempt. -/
  | unslept {s next : Progress ε} {w w₁ w₂ : World σ} {e : ε} {d : Duration} {x : Ended Unit}
      {y : Ended (Except (RetryError ε) α)} (call : work w = (.done (.error e), w₁))
      (decision : ((s.beginAttempt w.now).fail r.policy w₁.dice w₁.now e).decision = .retry d next)
      (sleep : Act.sleep pace d (r.judge (s.beginAttempt w.now) e w₁).2 = (x, w₂)) (broke : x.Broke y) :
      Attempted r pace work s w (y, w₂)

/-- An attempt of a run begins, counted from one. -/
inductive Begins (r : RetryLoop) (pace : Pace) (work : Act σ (Except ε α)) :
    Progress ε → World σ → Nat → World σ → Prop where
  | now {s : Progress ε} {w : World σ} : Begins r pace work s w 1 w
  | later {s next : Progress ε} {w w₁ w₂ v : World σ} {e : ε} {d : Duration} {k : Nat}
      (call : work w = (.done (.error e), w₁))
      (decision : ((s.beginAttempt w.now).fail r.policy w₁.dice w₁.now e).decision = .retry d next)
      (sleep : Act.sleep pace d (r.judge (s.beginAttempt w.now) e w₁).2 = (.done (), w₂))
      (rest : Begins r pace work next w₂ k v) : Begins r pace work s w (k + 1) v

namespace RetryLoop

variable {r : RetryLoop} {pace : Pace} {work : Act σ (Except ε α)}

theorem attempted (r : RetryLoop) (pace : Pace) (work : Act σ (Except ε α)) (s : Progress ε) (w : World σ) :
    Attempted r pace work s w (r.attemptFrom pace work s w) := by
  fun_induction RetryLoop.attemptFrom r pace work s w with
  | case1 s w m w₁ call => exact .broken call (.panicked m)
  | case2 s w w₁ call => exact .broken call .abandoned
  | case3 s w a w₁ call => exact .value call
  | case4 s w begun e w₁ call fault hd => exact (Progress.decision_ne_impossible r.valid _ _ _ _ _ hd).elim
  | case5 s w begun e w₁ call error hd => exact .giveUp call hd
  | case6 s w begun e w₁ call d next hd m w₂ hs => exact .unslept call hd hs (.panicked m)
  | case7 s w begun e w₁ call d next hd w₂ hs => exact .unslept call hd hs .abandoned
  | case8 s w begun e w₁ call d next hd w₂ hs ih => exact .retry call hd hs ih

theorem attemptFrom_of_retry {s next : Progress ε} {w w₁ w₂ : World σ} {e : ε} {d : Duration}
    (call : work w = (.done (.error e), w₁))
    (decision : ((s.beginAttempt w.now).fail r.policy w₁.dice w₁.now e).decision = .retry d next)
    (sleep : Act.sleep pace d (r.judge (s.beginAttempt w.now) e w₁).2 = (.done (), w₂)) :
    r.attemptFrom pace work s w = r.attemptFrom pace work next w₂ := by
  rw [attemptFrom, call]
  simp only
  split <;> rename_i hd <;> cases decision.symm.trans hd
  rw [sleep]

theorem attemptFrom_of_giveUp {s : Progress ε} {w w₁ : World σ} {e : ε} {error : RetryError ε}
    (call : work w = (.done (.error e), w₁))
    (decision : ((s.beginAttempt w.now).fail r.policy w₁.dice w₁.now e).decision = .giveUp error) :
    r.attemptFrom pace work s w = (.done (.error error), (r.judge (s.beginAttempt w.now) e w₁).2) := by
  rw [attemptFrom, call]
  simp only
  split <;> rename_i hd <;> cases decision.symm.trans hd
  rfl

/-- An attempt that does not come back is the last one, and nothing happens after it. -/
theorem attemptFrom_of_begins {s : Progress ε} {w v v' : World σ} {k : Nat} (h : Begins r pace work s w k v)
    {x : Ended (Except ε α)} {y : Ended (Except (RetryError ε) α)} (call : work v = (x, v')) (broke : x.Broke y) :
    r.attemptFrom pace work s w = (y, v') := by
  induction h with
  | now =>
    rw [attemptFrom, call]
    cases broke <;> rfl
  | later call' decision sleep _ ih => rw [attemptFrom_of_retry call' decision sleep, ih call]

/-! ## Time goes on -/

theorem now_judge (r : RetryLoop) (s : Progress ε) (e : ε) (w : World σ) : (r.judge s e w).2.now = w.now :=
  World.now_reports _ w

/-- A failed attempt and the wait after it. -/
theorem forward_retry (hwork : work.Forward) {s : Progress ε} {w w₁ w₂ : World σ} {e : ε} {d : Duration} {x : Ended Unit}
    (call : work w = (.done (.error e), w₁)) (sleep : Act.sleep .suspended d (r.judge s e w₁).2 = (x, w₂)) :
    w.Forward w₂ :=
  ((hwork.of_eq call).reports _).trans ((Act.forward_sleep d).of_eq sleep)

end RetryLoop

theorem Attempted.forward {r : RetryLoop} {work : Act σ (Except ε α)} {s : Progress ε} {w : World σ}
    {out : Ended (Except (RetryError ε) α) × World σ} (h : Attempted r .suspended work s w out) (hwork : work.Forward) :
    w.Forward out.2 := by
  induction h with
  | value call | broken call _ => exact hwork.of_eq call
  | giveUp call decision => exact (hwork.of_eq call).reports _
  | retry call decision sleep rest ih => exact (RetryLoop.forward_retry hwork call sleep).trans ih
  | unslept call decision sleep broke => exact RetryLoop.forward_retry hwork call sleep

end CallGuard

/-
The legs of suspended calls: every leg that an exhausted call tells of is an attempt of the run, with the instants
at which the work was called and came back (`Attempted.tells`). The induction is on the attempts; what carries it
is that the books before an attempt tell when it begins (`Bookkeeping`).
-/
import CallGuard.Proofs.Retry.Attempted
import CallGuard.Proofs.Retry.Legs
import CallGuard.Proofs.Run.Whole

namespace CallGuard

variable {σ ε α : Type} [Fault ε]

theorem RetryLoop.onward_judge (r : RetryLoop) (s : Progress ε) (e : ε) {w v : World σ} (h : w.Onward v) :
    w.Onward (r.judge s e v).2 := h.reports _

/-- The attempt of a run with this number began and failed as the leg says. -/
def FailedAttempt (r : RetryLoop) (work : Act σ (Except ε α)) (s : Progress ε) (w : World σ) (k : Nat)
    (l : Leg ε) : Prop :=
  ∃ v v', Begins r .suspended work s w k v ∧ work v = (.done (.error l.error), v') ∧ v.now = l.began ∧ v'.now = l.failed

theorem Attempted.tells {r : RetryLoop} {work : Act σ (Except ε α)} {s : Progress ε} {w : World σ}
    {out : Ended (Except (RetryError ε) α) × World σ} (h : Attempted r .suspended work s w out)
    (hj : r.policy.jitter = .none) (hwork : work.Steady) (hw : w.Whole) {limit created first : Nat}
    (hlimit : w.instantLimit = limit) {legs : List (Leg ε)}
    (hbooks : Bookkeeping r.policy limit created first legs w.now s) {x : Exhausted ε} {w' : World σ}
    (hout : out = (.done (.error (.exhausted x)), w')) :
    ∃ rest, Tells r.policy limit created first (legs ++ rest) w'.now x ∧
      ∀ i l, rest[i]? = some l → FailedAttempt r work s w (i + 1) l := by
  induction h generalizing legs with
  | value call => cases hout
  | @giveUp s w w₁ e error call decision =>
    cases hout
    have hle := (hwork.of_eq call hw).le
    refine ⟨[⟨w.now, w₁.now, e⟩], ?_, fun i l hl => ?_⟩
    · rw [r.now_judge]
      exact hbooks.exhaust r.valid hle decision
    · cases i with
      | zero =>
        cases hl
        exact ⟨w, w₁, .now, call, rfl, rfl⟩
      | succ i => cases hl
  | @retry s next w w₁ w₂ e d out call decision sleep rest ih =>
    have hw₁ := hwork.of_eq call hw
    have hjudge := r.onward_judge (s.beginAttempt w.now) e hw₁
    have hw₂ := hjudge.trans ((Act.steady_sleep d).of_eq sleep hjudge.whole)
    have hnow : w₂.now = w₁.now + suspension limit w₁.now d := by
      rw [Act.sleep_takes hjudge.whole sleep, hjudge.limit, hlimit, r.now_judge]
    obtain ⟨more, htells, hattempts⟩ := ih hw₂.whole (hw₂.limit.trans hlimit)
      (hnow ▸ hbooks.retry r.valid hj hw₁.le decision) hout
    refine ⟨⟨w.now, w₁.now, e⟩ :: more, by rw [List.append_cons]; exact htells, fun i l hl => ?_⟩
    cases i with
    | zero =>
      cases hl
      exact ⟨w, w₁, .now, call, rfl, rfl⟩
    | succ i =>
      obtain ⟨v, v', hbegins, hrest⟩ := hattempts i l hl
      exact ⟨v, v', .later call decision sleep hbegins, hrest⟩
  | broken call broke => cases broke <;> cases hout
  | unslept call decision sleep broke => cases broke <;> cases hout

/-- A run of a retry loop on its own. -/
theorem RetryLoop.run_tells (r : RetryLoop) (hj : r.policy.jitter = .none) {work : Act σ (Except ε α)}
    (hwork : work.Steady) {w w' : World σ} (hw : w.Whole) {x : Exhausted ε}
    (h : r.run .suspended work w = (.done (.error (.exhausted x)), w')) :
    ∃ legs, Tells r.policy w.instantLimit w.now w.now legs w'.now x ∧
      ∀ i l, legs[i]? = some l → FailedAttempt r work (.start w.now) w (i + 1) l :=
  (r.attempted .suspended work (.start w.now) w).tells hj hwork hw rfl (.start r.policy w.instantLimit w.now w.now) h

end CallGuard

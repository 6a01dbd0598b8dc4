/-
Calls that take no time, made by a blocking caller and by a suspended one. Both come to the same result but
for the times that they record (`Guards.run_instant`): blocking attempts run apart from their caller and
measure nothing, but an end that is there at once is in time for every deadline.

The induction is on the attempts of the suspended call. Two bookkeepings that agree but for their times
(`Progress.Alike`) lead to decisions that agree but for their times.
-/
import CallGuard.Proofs.Guard.Single
import CallGuard.Proofs.Retry.Scripted
import CallGuard.Proofs.Work.Latency

namespace CallGuard

variable {σ ε α β : Type}

/-! ## Results without their times -/

/-- An attempt without its time. -/
def Attempt.timeless (a : Attempt ε) : Attempt ε := { a with elapsed := .zero }

/-- A history without its times. -/
def Exhausted.timeless (x : Exhausted ε) : Exhausted ε :=
  ⟨x.policy, x.attempts.map Attempt.timeless, .zero, by simp [x.attempts_ne_nil]⟩

def RetryError.timeless : RetryError ε → RetryError ε
  | .exhausted x => .exhausted x.timeless
  | .nonRetryable e => .nonRetryable e

/-- The error of a guarded call without recorded times. -/
def GuardError.timeless : GuardError ε → GuardError ε
  | .exhausted x => .exhausted x.timeless
  | .timeout p d => .timeout p d
  | .failed e => .failed e

theorem GuardError.timeless_ofRetry (e : RetryError (TimeoutError ε)) :
    (GuardError.ofRetry e).timeless = GuardError.ofRetry e.timeless := by
  rcases e with x | (_ | _) <;> rfl

/-! ## Runs beside each other -/

/-- Two runs that both are done or both panic, with related results in related worlds. -/
inductive Paired (R : World σ → World σ → Prop) (A : α → β → Prop) : Ended α × World σ → Ended β × World σ → Prop where
  | done {a : α} {b : β} {v w : World σ} (results : A a b) (worlds : R v w) : Paired R A (.done a, v) (.done b, w)
  | panicked {m : String} {v w : World σ} (worlds : R v w) : Paired R A (.panicked m, v) (.panicked m, w)

theorem Paired.of_done {R : World σ → World σ → Prop} {x : Ended α × World σ} {a : α} {w : World σ}
    (h : Paired R Eq x (.done a, w)) : ∃ v, x = (.done a, v) ∧ R v w := by
  cases h with
  | done results worlds =>
    subst results
    exact ⟨_, rfl, worlds⟩

theorem Paired.of_panicked {R : World σ → World σ → Prop} {A : α → β → Prop} {x : Ended α × World σ} {m : String}
    {w : World σ} (h : Paired R A x (.panicked m, w)) : ∃ v, x = (.panicked m, v) ∧ R v w := by
  cases h with
  | panicked worlds => exact ⟨_, rfl, worlds⟩

theorem Paired.not_abandoned {R : World σ → World σ → Prop} {A : α → β → Prop} {x : Ended α × World σ} {w : World σ}
    (h : Paired R A x (.abandoned, w)) : False := by
  cases h

/-- What becomes of both runs. -/
theorem Paired.map {γ δ : Type} {R : World σ → World σ → Prop} {A : α → β → Prop} {B : γ → δ → Prop} {f : α → γ}
    {g : β → δ} (hB : ∀ a b, A a b → B (f a) (g b)) {x : Ended α × World σ} {y : Ended β × World σ}
    (h : Paired R A x y) : Paired R B (x.1.map f, x.2) (y.1.map g, y.2) := by
  cases h with
  | done results worlds => exact .done (hB _ _ results) worlds
  | panicked worlds => exact .panicked worlds

/-- What both do next. -/
theorem Paired.bind {γ δ : Type} {R : World σ → World σ → Prop} {A : α → β → Prop} {B : γ → δ → Prop} {x : Act σ α}
    {y : Act σ β} {f : α → Act σ γ} {g : β → Act σ δ} {v w : World σ} (h : Paired R A (x v) (y w))
    (hfg : ∀ {a b v w}, A a b → R v w → Paired R B (f a v) (g b w)) : Paired R B ((x >>= f) v) ((y >>= g) w) := by
  rcases hx : x v with ⟨a | m | _, v₁⟩ <;> rcases hy : y w with ⟨b | m' | _, w₁⟩ <;> rw [hx, hy] at h <;> cases h
  · rename_i results worlds
    rw [Act.bind_of_done hx, Act.bind_of_done hy]
    exact hfg results worlds
  · rename_i worlds
    rw [Act.bind_of_panicked hx, Act.bind_of_panicked hy]
    exact .panicked worlds

/-- A blocking caller and a suspended one stand at the same point: the work kept the same state, the same draws are
to come, and both are waited for. -/
structure World.Beside (v w : World σ) : Prop where
  own : v.own = w.own
  dice : v.dice = w.dice
  blocking : v.Patient .blocking
  suspended : w.Patient .suspended

namespace World.Beside

variable {v w : World σ}

theorem reports (h : v.Beside w) (es fs : List Event) : (es.foldl World.report v).Beside (fs.foldl World.report w) := by
  obtain ⟨l, hl⟩ := World.reports_eq_relogged es v
  obtain ⟨l', hl'⟩ := World.reports_eq_relogged fs w
  rw [hl, hl']
  exact ⟨h.own, h.dice, h.blocking, h.suspended⟩

/-- Both wait, each at its own pace. -/
theorem sleep (h : v.Beside w) (d : Duration) : ∃ v' w', Act.sleep .blocking d v = (.done (), v') ∧
    Act.sleep .suspended d w = (.done (), w') ∧ v'.Beside w' :=
  ⟨_, _, Act.sleep_of_patient h.blocking d, Act.sleep_of_patient h.suspended d, h.own, h.dice, h.blocking, h.suspended⟩

end World.Beside

/-! ## Calls that take no time -/

/-- What a call without pauses comes to, and the state after it. -/
def Ending.atOnce (cell : Cell σ Tally) (s : σ) : Ending ε α → Ended (Except ε α) × σ
  | .value a => (.done (.ok a), cell.write { cell.read s with finished := (cell.read s).finished + 1 } s)
  | .failure e => (.done (.error e), cell.write { cell.read s with finished := (cell.read s).finished + 1 } s)
  | .panic m => (.panicked m, s)
  | .never => (.abandoned, s)

/-- What a deadline makes of an end that is there at once or never. -/
def TimeLimit.cutOff (t : TimeLimit) : Ended (Except ε α) → Ended (Except (TimeoutError ε) α)
  | .done x => .done (mapError .inner x)
  | .panicked m => .panicked m
  | .abandoned => .done (.error t.error)

section Instant

variable {script : Nat → Call ε α} {cell : Cell σ Tally}

/-- The world in which a call that takes no time is over. -/
def Job.settle (cell : Cell σ Tally) (ending : Ending ε α) (w : World σ) : World σ :=
  { w with own := (ending.atOnce cell (Job.begun cell w.own)).2 }

theorem Job.run_instant (pace : Pace) {w : World σ} {ending : Ending ε α}
    (h : script ((cell.read w.own).started + 1) = ⟨[], ending⟩) (hends : ending ≠ .never) :
    Job.run ⟨⟨.starts, script⟩, cell⟩ pace w =
      ((ending.atOnce cell (Job.begun cell w.own)).1, Job.settle cell ending w) := by
  have hrun : Job.run ⟨⟨.starts, script⟩, cell⟩ pace w =
      (Call.sleepThrough pace cell (script ((cell.read w.own).started + 1)).pauses >>= fun _ =>
        Call.conclude pace cell (script ((cell.read w.own).started + 1)).ending)
      { w with own := Job.begun cell w.own } := rfl
  rw [hrun, h]
  cases ending with
  | never => exact absurd rfl hends
  | value _ | failure _ | panic _ => rfl

/-- One that never ends is dropped at the horizon. -/
theorem Job.run_never {w : World σ} {horizon : Nat} (h : script ((cell.read w.own).started + 1) = ⟨[], .never⟩)
    (hor : w.suspended.horizon = some horizon) (hle : w.now ≤ horizon) :
    Job.run ⟨⟨.starts, script⟩, cell⟩ .suspended w = (.abandoned, w.moved (Job.begun cell w.own) horizon) := by
  rw [Job.run_starts, h]
  exact Act.hang_past (w := w.moved (Job.begun cell w.own) w.now) hor hle

/-- A suspended call for which somebody waits until a deadline. -/
theorem Job.run_within {w : World σ} {deadline : Nat} {ending : Ending ε α}
    (h : script ((cell.read w.own).started + 1) = ⟨[], ending⟩) (hle : w.now ≤ deadline) :
    ∃ v, Job.run ⟨⟨.starts, script⟩, cell⟩ .suspended (w.within deadline) =
        ((ending.atOnce cell (Job.begun cell w.own)).1, v) ∧
      v.own = (ending.atOnce cell (Job.begun cell w.own)).2 ∧ v.dice = w.dice := by
  by_cases hends : ending = .never
  · subst hends
    exact ⟨_, Job.run_never (w := w.within deadline) h rfl hle, rfl, rfl⟩
  · exact ⟨_, Job.run_instant .suspended (w := w.within deadline) h hends, rfl, rfl⟩

/-- The world in which a call has run apart from its blocking caller up to an instant. -/
def Job.arrived (j : Job σ ε α) (course : Course) (t : Nat) (w : World σ) : World σ :=
  j.arrive .blocking course t (w.giveWay .blocking)

/-- Apart from its caller, a call that takes no time is in time for every deadline. -/
theorem TimeLimit.runApart_now (t : TimeLimit) {job : Job σ ε α} {call : Call ε α} {w : World σ} (hp : w.Patient .blocking)
    (hcall : job.next (w.giveWay .blocking) = call)
    (hcourse : Course.ofCall w.instantLimit .blocking w.blocking.now call = ⟨[], some w.blocking.now⟩) :
    t.runApart .blocking job w =
      let v := (job.arrived ⟨[], some w.blocking.now⟩ w.blocking.now w).giveWay .blocking
      match job.ending call v with
      | .value a => (.done (.ok a), job.finish v)
      | .failure e => (.done (.error (.inner e)), job.finish v)
      | .panic m => (.panicked m, v)
      | .never => (.abandoned, v) := by
  have hor : w.blocking.horizon = none := hp
  have hclock : (w.giveWay .blocking).clock .blocking = w.blocking.giveWay := rfl
  have hlimit : (w.giveWay .blocking).instantLimit = w.instantLimit := w.instantLimit_setClock _ _
  have hfilter : (some w.blocking.now).filter (fun finish =>
      decide (finish ≤ Pace.blocking.instantAfter w.instantLimit w.blocking.now t.duration) &&
        (none : Option Nat).all (finish < ·)) = some w.blocking.now := by
    -- The call ends when it begins, and no deadline is before that.
    have hle := Pace.le_instantAfter w.instantLimit .blocking w.blocking.now t.duration
    simp [hle]
  simp only [runApart, hcall, hclock, hlimit, Clock.giveWay, hor, hcourse, Pace.wake, hfilter]
  rfl

/-- One that never ends misses every deadline. -/
theorem TimeLimit.runApart_never (t : TimeLimit) {job : Job σ ε α} {call : Call ε α} {w : World σ}
    (hp : w.Patient .blocking) (hcall : job.next (w.giveWay .blocking) = call)
    (hcourse : Course.ofCall w.instantLimit .blocking w.blocking.now call = ⟨[], none⟩) :
    t.runApart .blocking job w =
      (.done (.error t.error), (job.arrived ⟨[], none⟩
        (Pace.blocking.instantAfter w.instantLimit w.blocking.now t.duration) w).report t.event) := by
  have hor : w.blocking.horizon = none := hp
  have hclock : (w.giveWay .blocking).clock .blocking = w.blocking.giveWay := rfl
  have hlimit : (w.giveWay .blocking).instantLimit = w.instantLimit := w.instantLimit_setClock _ _
  simp only [runApart, hcall, hclock, hlimit, Clock.giveWay, hor, hcourse, Pace.wake, Option.filter_none, Option.all_none,
    Job.leave, ite_self, if_true]
  rfl

/-- A blocking attempt under a deadline. -/
theorem TimeLimit.runApart_instant (t : TimeLimit) {w : World σ} (hp : w.Patient .blocking) {ending : Ending ε α}
    (h : script ((cell.read w.own).started + 1) = ⟨[], ending⟩) :
    ∃ w', t.runApart .blocking ⟨⟨.starts, script⟩, cell⟩ w =
        (t.cutOff (ending.atOnce cell (Job.begun cell w.own)).1, w') ∧
      w'.own = (ending.atOnce cell (Job.begun cell w.own)).2 ∧ w'.dice = w.dice ∧ w'.Patient .blocking := by
  have hcall : Job.next ⟨⟨.starts, script⟩, cell⟩ (w.giveWay .blocking) = ⟨[], ending⟩ := h
  cases ending with
  | never => exact ⟨_, t.runApart_never hp hcall rfl, rfl, rfl, hp⟩
  | value a => exact ⟨_, t.runApart_now hp hcall rfl, rfl, rfl, hp⟩
  | failure e => exact ⟨_, t.runApart_now hp hcall rfl, rfl, rfl, hp⟩
  | panic m => exact ⟨_, t.runApart_now hp hcall rfl, rfl, rfl, hp⟩

theorem TimeLimit.run_eq (t : TimeLimit) {work : Act σ (Except ε α)} {w v : World σ} (hp : w.Patient .suspended)
    {x : Ended (Except ε α)} (h : work (w.within (tick (t.due w.instantLimit w.now))) = (x, v)) :
    ∃ v', t.run work w = (t.cutOff x, v') ∧ v'.own = v.own ∧ v'.dice = v.dice ∧ v'.Patient .suspended := by
  unfold run
  rw [Act.before_eq hp, h]
  rcases x with (_ | _) | m | _ <;> exact ⟨_, rfl, rfl, rfl, rfl⟩

/-- A suspended one. -/
theorem TimeLimit.run_instant (t : TimeLimit) {w : World σ} (hp : w.Patient .suspended) {ending : Ending ε α}
    (h : script ((cell.read w.own).started + 1) = ⟨[], ending⟩) :
    ∃ w', t.run (Job.run ⟨⟨.starts, script⟩, cell⟩ .suspended) w =
        (t.cutOff (ending.atOnce cell (Job.begun cell w.own)).1, w') ∧
      w'.own = (ending.atOnce cell (Job.begun cell w.own)).2 ∧ w'.dice = w.dice ∧ w'.Patient .suspended := by
  obtain ⟨v, hv, hown, hdice⟩ := Job.run_within h (t.le_tick_due w.instantLimit w.now)
  obtain ⟨v', hv', hown', hdice', hp'⟩ := t.run_eq hp hv
  exact ⟨v', hv', hown'.trans hown, hdice'.trans hdice, hp'⟩

/-- A blocking attempt and a suspended one. -/
theorem Guards.attempt_instant (g : Guards) (hpauses : ∀ k, (script k).pauses = [])
    (hends : g.timeLimit = none → ∀ k, (script k).ending ≠ .never) {v w : World σ} (h : v.Beside w) :
    Paired World.Beside Eq (g.attemptAt .blocking ⟨⟨.starts, script⟩, cell⟩ v)
      (g.attemptAt .suspended ⟨⟨.starts, script⟩, cell⟩ w) := by
  obtain ⟨limit, loop⟩ := g
  obtain ⟨ending, hcall⟩ : ∃ ending, script ((cell.read w.own).started + 1) = ⟨[], ending⟩ := ⟨_, by rw [← hpauses]⟩
  have hcall' : script ((cell.read v.own).started + 1) = ⟨[], ending⟩ := by rw [h.own, hcall]
  cases limit with
  | some t =>
    obtain ⟨v', hv', hown, hdice, hblocking⟩ := t.runApart_instant h.blocking hcall'
    obtain ⟨w', hw', hown', hdice', hsuspended⟩ := t.run_instant h.suspended hcall
    rw [h.own] at hv' hown
    have hbeside : v'.Beside w' :=
      ⟨hown.trans hown'.symm, hdice.trans (h.dice.trans hdice'.symm), hblocking, hsuspended⟩
    show Paired _ _ (t.runApart _ _ v) (t.run _ w)
    rw [hv', hw']
    cases ending with
    | panic m => exact .panicked hbeside
    | value _ | failure _ | never => exact .done rfl hbeside
  | none =>
    have hne : ending ≠ .never := by
      have := hends rfl ((cell.read w.own).started + 1)
      rwa [hcall] at this
    have hbeside : (Job.settle cell ending v).Beside (Job.settle cell ending w) := by
      refine ⟨?_, h.dice, h.blocking, h.suspended⟩
      rw [Job.settle, Job.settle, h.own]
    show Paired _ _ ((Job.run ⟨⟨.starts, script⟩, cell⟩ .blocking >>= fun x => pure (mapError TimeoutError.inner x)) v)
      ((Job.run ⟨⟨.starts, script⟩, cell⟩ .suspended >>= fun x => pure (mapError TimeoutError.inner x)) w)
    rw [Act.bind_pure_eq, Act.bind_pure_eq, Job.run_instant _ hcall' hne, Job.run_instant _ hcall hne]
    cases ending with
    | never => exact absurd rfl hne
    | panic m => exact .panicked hbeside
    | value _ | failure _ => exact .done rfl hbeside

end Instant

/-! ## Decisions without their times -/

/-- Two bookkeepings that agree but for their times. -/
structure Progress.Alike (s t : Progress ε) : Prop where
  failures : s.failures.map Attempt.timeless = t.failures.map Attempt.timeless
  previous : s.previousDelay = t.previousDelay

namespace Progress.Alike

variable {s t : Progress ε}

theorem failed (h : s.Alike t) : s.failed = t.failed := by
  have hlength := congrArg List.length h.failures
  rwa [List.length_map, List.length_map, ← s.failed_eq, ← t.failed_eq] at hlength

theorem attempt (h : s.Alike t) : s.attempt = t.attempt := congrArg (· + 1) h.failed

theorem beginAttempt (h : s.Alike t) (m n : Nat) : (s.beginAttempt m).Alike (t.beginAttempt n) :=
  ⟨h.failures, h.previous⟩

theorem failure (h : s.Alike t) (m n : Nat) (e : ε) : (s.failure m e).timeless = (t.failure n e).timeless := by
  simp only [Progress.failure, Attempt.timeless, h.attempt]

theorem record (h : s.Alike t) (m n : Nat) (e : ε) (d : Duration) : (s.record m e d).Alike (t.record n e d) where
  failures := by
    show Attempt.timeless _ :: _ = Attempt.timeless _ :: _
    rw [h.failure m n e, h.failures]
  previous := rfl

theorem exhausted (h : s.Alike t) (p : RetryPolicy) (m n : Nat) (e : ε) :
    (s.exhausted p m e).timeless = (t.exhausted p n e).timeless := by
  have hattempts : s.attempts.map Attempt.timeless = t.attempts.map Attempt.timeless := by
    rw [Progress.attempts, Progress.attempts, List.map_reverse, List.map_reverse, h.failures]
  simp only [Progress.exhausted, Exhausted.timeless, List.map_append, List.map_cons, List.map_nil, hattempts,
    h.failure m n e]

variable [Fault ε] {p : RetryPolicy} {dice : Nat → Dice} {m n : Nat} {e : ε}

theorem giveUp (h : s.Alike t) (hp : p.Valid) {error : RetryError ε}
    (hd : (t.fail p dice n e).decision = .giveUp error) :
    ∃ error', (s.fail p dice m e).decision = .giveUp error' ∧ error'.timeless = error.timeless := by
  rcases Progress.of_decision_giveUp hp hd with ⟨hno, rfl⟩ | ⟨hyes, hspent, rfl⟩
  · exact ⟨_, Progress.fail_of_rejected hno, rfl⟩
  · exact ⟨_, Progress.fail_of_spent hyes (h.attempt ▸ hspent), congrArg RetryError.exhausted (h.exhausted p m n e)⟩

theorem retry (h : s.Alike t) (hp : p.Valid) {d : Duration} {next : Progress ε}
    (hd : (t.fail p dice n e).decision = .retry d next) :
    ∃ next', (s.fail p dice m e).decision = .retry d next' ∧ next'.Alike next := by
  obtain ⟨hyes, hwait, rfl⟩ := Progress.of_decision_retry hp hd
  rw [← h.attempt, ← h.previous] at hwait
  exact ⟨_, Progress.fail_of_wait hyes hwait, h.record m n e d⟩

end Progress.Alike

/-! ## Whole calls -/

/-- Two results that agree but for their times. -/
def SameResult {δ : Type} (timeless : δ → δ) (x y : Except δ α) : Prop := mapError timeless x = mapError timeless y

theorem SameResult.ofRetry {a b : Except (RetryError (TimeoutError ε)) α} (h : SameResult RetryError.timeless a b) :
    SameResult GuardError.timeless (mapError GuardError.ofRetry a) (mapError GuardError.ofRetry b) := by
  have hmap : ∀ x : Except (RetryError (TimeoutError ε)) α, mapError GuardError.timeless (mapError GuardError.ofRetry x) =
      mapError GuardError.ofRetry (mapError RetryError.timeless x) := by
    rintro (e | a)
    · exact congrArg Except.error (GuardError.timeless_ofRetry e)
    · rfl
  rw [SameResult, hmap, hmap, h]

section Whole

variable [Fault ε]

/-- A blocking loop beside a suspended one, if their attempts are beside each other. -/
theorem Attempted.beside {r : RetryLoop} {x y : Act σ (Except ε α)}
    (hattempt : ∀ {v w : World σ}, v.Beside w → Paired World.Beside Eq (x v) (y w)) {s : Progress ε} {w : World σ}
    {out : Ended (Except (RetryError ε) α) × World σ} (h : Attempted r .suspended y s w out) {s' : Progress ε}
    (hs : s'.Alike s) {v : World σ} (hv : v.Beside w) :
    Paired World.Beside (SameResult RetryError.timeless) (r.attemptFrom .blocking x s' v) out := by
  have hpair : ∀ {v w w₁ : World σ} {o : Ended (Except ε α)}, v.Beside w → y w = (o, w₁) →
      Paired World.Beside Eq (x v) (o, w₁) := fun hv call => call ▸ hattempt hv
  -- A decision depends on the draws, the failures so far and the last delay, but not on when anything happened.
  induction h generalizing s' v with
  | value call =>
    obtain ⟨v₁, hx, hv₁⟩ := (hpair hv call).of_done
    rw [RetryLoop.attemptFrom_value hx]
    exact .done rfl hv₁
  | giveUp call decision =>
    obtain ⟨v₁, hx, hv₁⟩ := (hpair hv call).of_done
    rw [← hv₁.dice] at decision
    obtain ⟨error', hd, herror⟩ := (hs.beginAttempt v.now _).giveUp r.valid decision
    rw [RetryLoop.attemptFrom_of_giveUp hx hd]
    exact .done (congrArg Except.error herror) (hv₁.reports _ _)
  | retry call decision sleep rest ih =>
    obtain ⟨v₁, hx, hv₁⟩ := (hpair hv call).of_done
    rw [← hv₁.dice] at decision
    obtain ⟨next', hd, hnext⟩ := (hs.beginAttempt v.now _).retry r.valid decision
    obtain ⟨v₂, w₂, hsleep, hsleep', hv₂⟩ := (hv₁.reports _ _).sleep _
    cases sleep.symm.trans hsleep'
    rw [RetryLoop.attemptFrom_of_retry hx hd hsleep]
    exact ih hnext hv₂
  | broken call broke =>
    cases broke with
    | panicked m =>
      obtain ⟨v₁, hx, hv₁⟩ := (hpair hv call).of_panicked
      rw [RetryLoop.attemptFrom_of_begins .now hx (.panicked m)]
      exact .panicked hv₁
    | abandoned => exact (hpair hv call).not_abandoned.elim
  | unslept call decision sleep broke =>
    obtain ⟨v₁, hx, hv₁⟩ := (hpair hv call).of_done
    obtain ⟨v₂, w₂, -, hsleep', -⟩ := (hv₁.reports [] _).sleep _
    cases sleep.symm.trans hsleep'
    cases broke

/-- A call of work that takes no time, made by a blocking caller and by a suspended one. -/
theorem Guards.run_instant (g : Guards) {script : Nat → Call ε α} (cell : Cell σ Tally)
    (hpauses : ∀ k, (script k).pauses = []) (hends : g.timeLimit = none → ∀ k, (script k).ending ≠ .never)
    {v w : World σ} (h : v.Beside w) :
    Paired World.Beside (SameResult GuardError.timeless)
      (g.run .blocking (g.attemptAt .blocking ⟨⟨.starts, script⟩, cell⟩) v)
      (g.run .suspended (g.attemptAt .suspended ⟨⟨.starts, script⟩, cell⟩) w) := by
  have hattempt : ∀ {v w : World σ}, v.Beside w →
      Paired World.Beside Eq (g.attemptAt .blocking ⟨⟨.starts, script⟩, cell⟩ v)
        (g.attemptAt .suspended ⟨⟨.starts, script⟩, cell⟩ w) := g.attempt_instant hpauses hends
  cases hloop : g.retryLoop with
  | some r =>
    have hstart : (Progress.start v.now : Progress (TimeoutError ε)).Alike (.start w.now) := ⟨rfl, rfl⟩
    have hrun := (r.attempted .suspended _ (.start w.now) w).beside hattempt hstart h
    simp only [run, hloop, Act.bind_pure_eq]
    exact Paired.map (fun _ _ hab => SameResult.ofRetry hab) hrun
  | none =>
    simp only [run, hloop, Act.bind_pure_eq]
    refine Paired.map (fun x y hxy => ?_) (hattempt h)
    rw [hxy, SameResult]

end Whole

end CallGuard

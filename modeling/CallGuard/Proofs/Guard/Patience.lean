/-
Guarded calls of somebody who waits to the end. Every attempt begins for somebody who waits as patiently as the
caller (`Guards.Begins.patient`), so the call comes back unless its work hangs without a deadline
(`Guards.run_comes_back`). A call of the work that panics by the deadline of its attempt makes the attempt panic,
blocking or suspended (`Guards.attemptAt_panics`); that attempt is the last one, and nothing happens after it
(`Guards.Panics.run`).
-/
import CallGuard.Proofs.Guard.Single
import CallGuard.Proofs.Work.Latency

namespace CallGuard

variable {σ ε α β : Type}

/-! ## Who waits goes on waiting -/

namespace Act

/-- After the act somebody waits as patiently as before. -/
def Keeps (pace : Pace) (x : Act σ α) : Prop := ∀ w : World σ, w.Patient pace → (x w).2.Patient pace

variable {pace : Pace}

theorem keeps_modifyOwn (f : σ → α × σ) : (modifyOwn f).Keeps pace := fun w h => by
  cases pace <;> exact h

theorem keeps_sleep (d : Duration) : (sleep pace d : Act σ Unit).Keeps pace := fun w h => by
  rw [sleep_of_patient h d, World.Patient, World.clock_setClock]
  exact h

theorem keeps_hang : (hang pace : Act σ α).Keeps pace := fun w h => by
  have hor : (w.clock pace).horizon = none := h
  have hrun : (hang pace : Act σ α) w = (.abandoned, w.setClock pace (w.clock pace)) := by
    simp only [hang, waitUntil, Clock.wait, hor]
  rw [hrun, World.Patient, World.clock_setClock]
  exact h

theorem Keeps.bind {x : Act σ α} {f : α → Act σ β} (hx : x.Keeps pace) (hf : ∀ a, (f a).Keeps pace) :
    (x >>= f).Keeps pace := fun w h => by
  have hfirst := hx w h
  rcases hrun : x w with ⟨a | m | _, v⟩ <;> rw [hrun] at hfirst
  · rw [bind_of_done hrun]
    exact hf a v hfirst
  · rwa [bind_of_panicked hrun]
  · rwa [bind_of_abandoned hrun]

theorem keeps_closed : Act.Closed pace fun _ (x : Act σ _) => x.Keeps pace where
  done _ _ h := h
  panic _ _ h := h
  modifyOwn := keeps_modifyOwn
  sleep := keeps_sleep
  hang := keeps_hang
  bind := Keeps.bind

end Act

section Script

variable {pace : Pace} {script : Nat → Call ε α} {cell : Cell σ Tally}

/-- Scripted work leaves whoever waits for it as patient as before. -/
theorem Job.keeps_run (j : Job σ ε α) : (j.run pace).Keeps pace :=
  Job.closed_run Act.keeps_closed j (fun _ h => h) fun _ _ h => h

theorem TimeLimit.keeps_run (t : TimeLimit) (work : Act σ (Except ε α)) : (t.run work).Keeps .suspended := fun w h => by
  unfold run
  rw [Act.before_eq h]
  rcases work _ with ⟨(_ | _) | _ | _, v⟩ <;> rfl

theorem Job.patient_recount {w : World σ} (j : Job σ ε α) (f : Tally → Tally) (h : w.Patient pace) :
    (j.recount f w).Patient pace := by
  cases pace <;> exact h

theorem Job.patient_leave {w : World σ} (j : Job σ ε α) (course : Course) (call : Call ε α) (h : w.Patient pace) :
    (j.leave pace course call w).Patient pace := by
  unfold Job.leave
  split
  · exact h
  · exact h
  · exact j.patient_recount _ h

theorem TimeLimit.keeps_runApart (t : TimeLimit) (j : Job σ ε α) : (t.runApart .blocking j).Keeps .blocking := fun w h => by
  have hor : ((w.giveWay .blocking).clock .blocking).horizon = none := h
  simp only [runApart, hor, Option.all_none, if_true]
  split
  · split <;> exact h
  · exact World.patient_report (j.patient_leave _ _ h)

/-! ## Calls that panic -/

/-- Pauses that a patient caller sleeps through. -/
theorem Call.sleepThrough_patient (ds : List Duration) : ∀ {w : World σ}, w.Patient pace →
    ∃ v, Call.sleepThrough pace cell ds w = (.done (), v) ∧
      (v.clock pace).now = (Course.pauseEnds w.instantLimit pace (w.clock pace).now ds).getLastD (w.clock pace).now := by
  induction ds with
  | nil => exact fun {w} _ => ⟨w, rfl, rfl⟩
  | cons d rest ih =>
    intro w h
    let slept := w.setClock pace { w.clock pace with
      now := max (w.clock pace).now (pace.wake (pace.instantAfter w.instantLimit (w.clock pace).now d)) }
    let counted := { slept with own := cell.write { cell.read w.own with steps := (cell.read w.own).steps + 1 } w.own }
    have hclock : counted.clock pace = { w.clock pace with
        now := max (w.clock pace).now (pace.wake (pace.instantAfter w.instantLimit (w.clock pace).now d)) } := by
      cases pace <;> rfl
    have hlimit : counted.instantLimit = w.instantLimit := w.instantLimit_setClock _ _
    have hcounted : Call.sleepThrough pace cell (d :: rest) w = Call.sleepThrough pace cell rest counted := by
      rw [Call.sleepThrough, Act.bind_of_done (Act.sleep_of_patient h d)]
      cases pace <;> rfl
    obtain ⟨v, hrest, hv⟩ := ih (w := counted) (by rw [World.Patient, hclock]; exact h)
    refine ⟨v, hcounted.trans hrest, ?_⟩
    rw [hv, hclock, hlimit, Course.pauseEnds, List.getLastD_cons]

/-- A call of a job whose calls are numbered when they begin, made by a patient caller. -/
theorem Job.run_patient {v : World σ} (hp : v.Patient pace) :
    ∃ u, Job.run ⟨⟨.starts, script⟩, cell⟩ pace v =
        Call.conclude pace cell (script ((cell.read v.own).started + 1)).ending u ∧
      (u.clock pace).now = (Course.pauseEnds v.instantLimit pace (v.clock pace).now
        (script ((cell.read v.own).started + 1)).pauses).getLastD (v.clock pace).now := by
  have hp' : World.Patient pace { v with own := Job.begun cell v.own } := by
    cases pace <;> exact hp
  obtain ⟨u, hsleep, hu⟩ : ∃ u, Call.sleepThrough pace cell (script ((cell.read v.own).started + 1)).pauses
      { v with own := Job.begun cell v.own } = (.done (), u) ∧ _ := Call.sleepThrough_patient _ hp'
  refine ⟨u, Act.bind_of_done hsleep, hu.trans ?_⟩
  cases pace <;> rfl

/-- A call that panics has slept through its pauses. -/
theorem Job.of_run_panicked {v v' : World σ} (hp : v.Patient pace) {m : String}
    (h : Job.run ⟨⟨.starts, script⟩, cell⟩ pace v = (.panicked m, v')) :
    (script ((cell.read v.own).started + 1)).ending = .panic m ∧
      (v'.clock pace).now = (Course.pauseEnds v.instantLimit pace (v.clock pace).now
        (script ((cell.read v.own).started + 1)).pauses).getLastD (v.clock pace).now := by
  obtain ⟨u, hrun, hu⟩ := Job.run_patient hp
  rw [hrun] at h
  cases hending : (script ((cell.read v.own).started + 1)).ending <;> rw [hending] at h <;> cases h
  exact ⟨rfl, hu⟩

/-- A call that ends comes back to a patient caller. -/
theorem Job.run_comes_back (hends : ∀ k, (script k).ending ≠ .never) {v : World σ} (hp : v.Patient pace) :
    (Job.run ⟨⟨.starts, script⟩, cell⟩ pace v).1 ≠ .abandoned := by
  obtain ⟨u, hrun, -⟩ := Job.run_patient hp
  rw [hrun]
  have hne := hends ((cell.read v.own).started + 1)
  cases hending : (script ((cell.read v.own).started + 1)).ending with
  | never => exact absurd hending hne
  | value _ | failure _ | panic _ => nofun

/-- Work apart that panics by its deadline. -/
theorem TimeLimit.runApart_panics (t : TimeLimit) {v v' : World σ} (hp : v.Patient .blocking) {m : String}
    (h : Job.run ⟨⟨.starts, script⟩, cell⟩ .blocking v = (.panicked m, v'))
    (hle : v'.blocking.now ≤ Pace.blocking.instantAfter v.instantLimit v.blocking.now t.duration) :
    ∃ u, t.runApart .blocking ⟨⟨.starts, script⟩, cell⟩ v = (.panicked m, u) := by
  obtain ⟨hending, hnow⟩ := Job.of_run_panicked hp h
  generalize hcall : script ((cell.read v.own).started + 1) = call at hending hnow
  have hnext : Job.next ⟨⟨.starts, script⟩, cell⟩ (v.giveWay .blocking) = call := hcall
  have hcourse : Course.ofCall v.instantLimit .blocking v.blocking.now call =
      ⟨Course.pauseEnds v.instantLimit .blocking v.blocking.now call.pauses, some v'.blocking.now⟩ := by
    rw [Course.ofCall, hending]
    exact congrArg (fun n => Course.mk _ (some n)) hnow.symm
  have hor : v.blocking.horizon = none := hp
  have hclock : (v.giveWay .blocking).clock .blocking = v.blocking.giveWay := rfl
  have hlimit : (v.giveWay .blocking).instantLimit = v.instantLimit := v.instantLimit_setClock _ _
  have hfilter : (some v'.blocking.now).filter (fun finish =>
      decide (finish ≤ Pace.blocking.instantAfter v.instantLimit v.blocking.now t.duration) &&
        (none : Option Nat).all (finish < ·)) = some v'.blocking.now := by
    simp [hle]
  simp only [runApart, hnext, hclock, hlimit, Clock.giveWay, hor, hcourse, Pace.wake, hfilter, Job.ending, hending]
  exact ⟨_, rfl⟩

end Script

/-! ## Limits -/

section Limits

theorem TimeLimit.run_panics (t : TimeLimit) {work : Act σ (Except ε α)} (hw : work.Timed) {v v' : World σ}
    (hp : v.Patient .suspended) {m : String} (h : work v = (.panicked m, v'))
    (hle : v'.now ≤ tick (t.due v.instantLimit v.now)) : t.run work v = (.panicked m, v') := by
  rw [run, Act.before_of_panicked hw hp h hle]

/-- Work under a limit is over by the first whole millisecond that is not before its deadline. -/
theorem TimeLimit.run_by_deadline (t : TimeLimit) {work : Act σ (Except ε α)} (hw : work.Timed) {w : World σ}
    (hp : w.Patient .suspended) : (t.run work w).2.now ≤ tick (t.due w.instantLimit w.now) := by
  rw [t.now_run]
  by_cases hin : (work w).1 ≠ .abandoned → tick (t.due w.instantLimit w.now) < (work w).2.now
  · obtain ⟨v, hv, hnow⟩ := Act.before_of_late hw hp (t.le_tick_due w.instantLimit w.now) hin
    rw [hv]
    exact Nat.le_of_eq hnow
  · obtain ⟨hends, hle⟩ := Classical.not_imp.1 hin
    have hle := Nat.le_of_not_lt hle
    rcases hrun : work w with ⟨a | m | _, v⟩ <;> rw [hrun] at hends hle
    · rwa [Act.before_of_inTime hw hp hrun hle]
    · rwa [Act.before_of_panicked hw hp hrun hle]
    · exact absurd rfl hends

end Limits

/-! ## Attempts -/

namespace Guards

variable {pace : Pace} {script : Nat → Call ε α} {cell : Cell σ Tally}

theorem attemptAt_comes_back (g : Guards) (hends : g.timeLimit = none → ∀ k, (script k).ending ≠ .never) {w : World σ}
    (hp : w.Patient .suspended) : (g.attemptAt .suspended ⟨⟨.starts, script⟩, cell⟩ w).1 ≠ .abandoned := by
  obtain ⟨limit, loop⟩ := g
  cases limit with
  | some t =>
    show (t.run (Job.run ⟨⟨.starts, script⟩, cell⟩ .suspended) w).1 ≠ .abandoned
    unfold TimeLimit.run
    rw [Act.before_eq hp]
    rcases Job.run _ _ _ with ⟨(_ | _) | _ | _, v⟩ <;> nofun
  | none =>
    show ((Job.run ⟨⟨.starts, script⟩, cell⟩ .suspended >>= fun x => pure (mapError TimeoutError.inner x)) w).1 ≠ _
    rw [Act.bind_pure_eq]
    exact Ended.map_ne_abandoned (Job.run_comes_back (hends rfl) hp)

theorem keeps_attemptAt (g : Guards) (job : Job σ ε α) : (g.attemptAt pace job).Keeps pace := by
  obtain ⟨limit, loop⟩ := g
  -- A limit puts the horizon back that it found, in place as well as apart.
  cases pace <;> cases limit
  · exact job.keeps_run.bind fun _ _ h => h
  · exact TimeLimit.keeps_run _ _
  · exact job.keeps_run.bind fun _ _ h => h
  · exact TimeLimit.keeps_runApart _ job

/-- A call that panics by the deadline of its attempt makes the attempt panic. -/
theorem attemptAt_panics (g : Guards) {v v' : World σ} (hp : v.Patient pace) {m : String}
    (h : Job.run ⟨⟨.starts, script⟩, cell⟩ pace v = (.panicked m, v'))
    (hle : ∀ t ∈ g.timeLimit,
      (v'.clock pace).now ≤ pace.wake (pace.instantAfter v.instantLimit (v.clock pace).now t.duration)) :
    ∃ u, g.attemptAt pace ⟨⟨.starts, script⟩, cell⟩ v = (.panicked m, u) ∧ (pace = .suspended → u = v') := by
  obtain ⟨limit, loop⟩ := g
  cases limit with
  | none =>
    cases pace <;> exact ⟨v', Act.bind_of_panicked h, fun _ => rfl⟩
  | some t =>
    cases pace with
    | suspended => exact ⟨v', t.run_panics (Job.timed_run script cell) hp h (hle t rfl), fun _ => rfl⟩
    | blocking =>
      obtain ⟨u, hu⟩ := t.runApart_panics hp h (hle t rfl)
      exact ⟨u, hu, nofun⟩

end Guards

/-! ## Calls -/

section Calls

variable [Fault ε] {pace : Pace}

theorem RetryLoop.patient_judge (r : RetryLoop) (s : Progress ε) (e : ε) {w : World σ} (h : w.Patient pace) :
    (r.judge s e w).2.Patient pace := by
  obtain ⟨l, hl⟩ := World.reports_eq_relogged (s.fail r.policy w.dice w.now e).events w
  show ((s.fail r.policy w.dice w.now e).events.foldl World.report w).Patient pace
  rw [hl, World.Patient, World.clock_relogged]
  exact h

/-- The wait after an attempt leaves the caller as patient as before. -/
theorem RetryLoop.patient_retry {r : RetryLoop} {work : Act σ (Except ε α)} (hwork : work.Keeps pace) {s : Progress ε}
    {w w₁ w₂ : World σ} {e : ε} {d : Duration} {x : Ended Unit} (hp : w.Patient pace)
    (call : work w = (.done (.error e), w₁)) (sleep : Act.sleep pace d (r.judge s e w₁).2 = (x, w₂)) :
    x = .done () ∧ w₂.Patient pace := by
  have hfirst := hwork w hp
  rw [call] at hfirst
  have hjudge := r.patient_judge s e hfirst
  have hslept := Act.keeps_sleep d _ hjudge
  rw [sleep] at hslept
  rw [Act.sleep_of_patient hjudge] at sleep
  cases sleep
  exact ⟨rfl, hslept⟩

/-- Attempts begin for somebody who waits as patiently as the caller. -/
theorem Begins.patient {r : RetryLoop} {work : Act σ (Except ε α)} (hwork : work.Keeps pace) {s : Progress ε}
    {w v : World σ} {k : Nat} (h : Begins r pace work s w k v) (hp : w.Patient pace) : v.Patient pace := by
  induction h with
  | now => exact hp
  | later call _ sleep _ ih => exact ih (RetryLoop.patient_retry hwork hp call sleep).2

/-- Attempts that come back make a call that does. -/
theorem Attempted.comes_back {r : RetryLoop} {work : Act σ (Except ε α)} (hwork : work.Keeps pace)
    (hback : ∀ w : World σ, w.Patient pace → (work w).1 ≠ .abandoned) {s : Progress ε} {w : World σ}
    {out : Ended (Except (RetryError ε) α) × World σ} (h : Attempted r pace work s w out) (hp : w.Patient pace) :
    out.1 ≠ .abandoned := by
  -- Only an attempt or a wait can be given up on, and the caller gives up on neither.
  induction h with
  | value _ | giveUp _ _ => nofun
  | retry call _ sleep _ ih => exact ih (RetryLoop.patient_retry hwork hp call sleep).2
  | @broken s w w₁ x y call broke =>
    cases broke with
    | panicked m => nofun
    | abandoned => exact absurd (congrArg Prod.fst call) (hback w hp)
  | unslept call _ sleep broke =>
    obtain ⟨rfl, -⟩ := RetryLoop.patient_retry hwork hp call sleep
    cases broke

namespace Guards

/-- An attempt of a guarded call begins, counted from one. Without a retry loop there is one. -/
def Begins (g : Guards) (pace : Pace) (job : Job σ ε α) (w : World σ) (k : Nat) (v : World σ) : Prop :=
  match g.retryLoop with
  | some r => CallGuard.Begins r pace (g.attemptAt pace job) (.start w.now) w k v
  | none => k = 1 ∧ v = w

/-- The call of some attempt panics, no later than the deadline of the attempt. -/
structure Panics (g : Guards) (pace : Pace) (job : Job σ ε α) (w : World σ) (k : Nat) (m : String) (v v' : World σ) :
    Prop where
  begins : g.Begins pace job w k v
  call : job.run pace v = (.panicked m, v')
  inTime : ∀ t ∈ g.timeLimit,
    (v'.clock pace).now ≤ pace.wake (pace.instantAfter v.instantLimit (v.clock pace).now t.duration)

theorem Begins.patient {g : Guards} {job : Job σ ε α} {w v : World σ} {k : Nat} (h : g.Begins pace job w k v)
    (hp : w.Patient pace) : v.Patient pace := by
  unfold Guards.Begins at h
  split at h
  · exact CallGuard.Begins.patient (g.keeps_attemptAt job) h hp
  · rw [h.2]
    exact hp

/-- An attempt that panics is the last one, and nothing happens after it. -/
theorem run_of_begins {g : Guards} {job : Job σ ε α} {w v v' : World σ} {k : Nat} {m : String}
    (h : g.Begins pace job w k v) (hattempt : g.attemptAt pace job v = (.panicked m, v')) :
    g.run pace (g.attemptAt pace job) w = (.panicked m, v') := by
  unfold Guards.Begins at h
  cases hloop : g.retryLoop with
  | some r =>
    rw [hloop] at h
    have hrun := RetryLoop.attemptFrom_of_begins h hattempt (Ended.Broke.panicked (γ := Except _ α) m)
    simp only [run, hloop]
    exact Act.bind_of_panicked hrun
  | none =>
    rw [hloop] at h
    obtain ⟨-, rfl⟩ := h
    simp only [run, hloop]
    exact Act.bind_of_panicked hattempt

/-- A guarded call comes back to a patient caller. -/
theorem run_comes_back (g : Guards) {script : Nat → Call ε α} (cell : Cell σ Tally)
    (hends : g.timeLimit = none → ∀ k, (script k).ending ≠ .never) {w : World σ} (hp : w.Patient .suspended) :
    (g.run .suspended (g.attemptAt .suspended ⟨⟨.starts, script⟩, cell⟩) w).1 ≠ .abandoned := by
  cases hloop : g.retryLoop with
  | some r =>
    have hattempted := r.attempted .suspended (g.attemptAt .suspended ⟨⟨.starts, script⟩, cell⟩) (.start w.now) w
    simp only [run, hloop, Act.bind_pure_eq]
    exact Ended.map_ne_abandoned
      (hattempted.comes_back (g.keeps_attemptAt _) (fun _ hv => g.attemptAt_comes_back hends hv) hp)
  | none =>
    simp only [run, hloop, Act.bind_pure_eq]
    exact Ended.map_ne_abandoned (g.attemptAt_comes_back hends hp)

/-- A call that panics ends the guarded call with its panic. -/
theorem Panics.run {g : Guards} {script : Nat → Call ε α} {cell : Cell σ Tally} {w v v' : World σ} {k : Nat} {m : String}
    (h : g.Panics pace ⟨⟨.starts, script⟩, cell⟩ w k m v v') (hp : w.Patient pace) :
    ∃ u, g.attemptAt pace ⟨⟨.starts, script⟩, cell⟩ v = (.panicked m, u) ∧ (pace = .suspended → u = v') ∧
      g.run pace (g.attemptAt pace ⟨⟨.starts, script⟩, cell⟩) w = (.panicked m, u) := by
  obtain ⟨u, hattempt, hu⟩ := g.attemptAt_panics (h.begins.patient hp) h.call h.inTime
  exact ⟨u, hattempt, hu, run_of_begins h.begins hattempt⟩

end Guards

end Calls

end CallGuard

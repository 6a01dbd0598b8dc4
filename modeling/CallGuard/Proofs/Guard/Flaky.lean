/-
What flaky work counts when it is called under policies. It counts a call after the latency and not before it, so what
a count has to do with the attempts depends on their deadlines. An attempt whose latency stays within its deadline counts
and gets the outcome of the number that it counts as; one whose latency passes the deadline is cut before it counts, and
no outcome is used (`Flaky.attempts_counted`).

The induction is on the number of an attempt, and `Job.InStep` is kept from the beginning of one attempt to that of the
next: as many calls have been counted since the call was made as attempts of it were in time.
-/
import CallGuard.Proofs.Guard.Deadline
import CallGuard.Proofs.Guard.Laziness
import CallGuard.Proofs.Timeout.Apart
import CallGuard.Work.Flaky
import Mathlib.Data.Nat.Count

namespace CallGuard

variable {σ ρ ε α : Type}

/-! ## Attempts of some kind -/

namespace Guards

open Classical

variable [Fault ε] {g : Guards} {work : Act σ (Except ε α)} {w v : World σ} {kind : World σ → Prop} {i k : Nat}

/-- How many of the first attempts of a suspended call begin in worlds of some kind. -/
noncomputable def attemptsIn (g : Guards) (work : Act σ (Except ε α)) (w : World σ) (kind : World σ → Prop) (n : Nat) :
    Nat :=
  n.count fun i => ∃ v, g.AttemptBegins work w (i + 1) v ∧ kind v

theorem attemptsIn_zero : g.attemptsIn work w kind 0 = 0 := Nat.count_zero _

theorem attemptsIn_succ_of (h : g.AttemptBegins work w (i + 1) v) (hv : kind v) :
    g.attemptsIn work w kind (i + 1) = g.attemptsIn work w kind i + 1 :=
  Nat.count_succ_eq_succ_count_iff.2 ⟨v, h, hv⟩

theorem attemptsIn_succ_of_not (h : g.AttemptBegins work w (i + 1) v) (hv : ¬ kind v) :
    g.attemptsIn work w kind (i + 1) = g.attemptsIn work w kind i := by
  refine Nat.count_succ_eq_count_iff.2 ?_
  rintro ⟨u, hu, hkind⟩
  rw [h.unique hu] at hkind
  exact hv hkind

/-- If all attempts are of the kind, all are counted. -/
theorem attemptsIn_of_all (hattempts : ∀ i, (∃ v, g.AttemptBegins work w i v) ↔ 1 ≤ i ∧ i ≤ k)
    (hall : ∀ i v, g.AttemptBegins work w i v → kind v) (hi : i ≤ k) : g.attemptsIn work w kind i = i := by
  refine Nat.count_iff_forall.2 fun j hj => ?_
  obtain ⟨v, hv⟩ := (hattempts (j + 1)).2 ⟨Nat.le_add_left 1 j, Nat.le_trans hj hi⟩
  exact ⟨v, hv, hall _ v hv⟩

theorem attemptsIn_of_none (hnone : ∀ i v, g.AttemptBegins work w i v → ¬ kind v) :
    g.attemptsIn work w kind i = 0 := by
  refine Nat.count_iff_forall_not.2 ?_
  rintro j - ⟨v, hv, hkind⟩
  exact hnone _ v hv hkind

end Guards

/-! ## Attempts in step with a count -/

/-- Since a world so many calls of a job were counted, and somebody waits for the next. -/
structure Job.InStep (j : Job σ ε α) (w : World σ) (n : Nat) (v : World σ) : Prop where
  finished : (j.tally v).finished = (j.tally w).finished + n
  stragglers : (j.tally v).stragglers = (j.tally w).stragglers
  blocking : v.blocking = w.blocking
  patient : v.Patient .suspended
  onTick : OnTick v.now

namespace Job.InStep

variable {j : Job σ ε α} {share n : Nat} {w v : World σ}

theorem start (hp : w.Patient .suspended) (ht : OnTick w.now) : j.InStep w 0 w :=
  ⟨rfl, rfl, rfl, hp, ht⟩

theorem report (h : j.InStep w n v) (e : Event) : j.InStep w n (v.report e) :=
  ⟨h.finished, h.stragglers, h.blocking, World.patient_report h.patient, h.onTick⟩

theorem reports (events : List Event) (h : j.InStep w n v) : j.InStep w n (events.foldl World.report v) := by
  induction events generalizing v with
  | nil => exact h
  | cons event rest ih => exact ih (h.report event)

/-- A wait of somebody who waits to the end. -/
theorem sleep (h : j.InStep w n v) (d : Duration) :
    ∃ v', Act.sleep .suspended d v = (.done (), v') ∧ j.InStep w n v' :=
  ⟨_, Act.sleep_within h.onTick d h.patient.stays, h.finished, h.stragglers, h.blocking,
    World.patient_moved h.patient _ _, World.onTick_moved (h.onTick.add (onTick_suspension _ _ d)) v _⟩

/-- One more call, which counts for so much and is over at some instant. -/
theorem next (h : j.InStep w n v) {s : σ} {t : Nat} (ht : OnTick t)
    (hfinished : (j.cell.read s).finished = (j.tally v).finished + share)
    (hstragglers : (j.cell.read s).stragglers = (j.tally v).stragglers) : j.InStep w (n + share) (v.moved s t) where
  finished := by
    rw [← Nat.add_assoc, ← h.finished]
    exact hfinished
  stragglers := hstragglers.trans h.stragglers
  blocking := h.blocking
  patient := World.patient_moved h.patient _ _
  onTick := ht

theorem undisturbed (h : j.InStep w n v) (hu : j.Undisturbed w) : j.Undisturbed v := by
  rcases hu with hu | hu
  · exact .inl hu
  · refine .inr ?_
    rw [h.stragglers]
    exact hu

/-- Of calls that are numbered when they end, as many have a number as were counted. -/
theorem calls (h : j.InStep w n v) (hu : j.Undisturbed w) (hfinishes : j.work.counting = .finishes) :
    j.calls v = j.calls w + n := by
  have hs := hu.resolve_left (by rw [hfinishes]; nofun)
  simp only [Job.calls, hfinishes, Tally.finishedIn]
  rw [h.finished, h.stragglers, filter_over_congr hs h.blocking, Nat.add_right_comm]

end Job.InStep

/-! ## Flaky work -/

namespace Flaky

variable (f : Flaky α)

/-- Flaky work that is counted in a cell. -/
abbrev job (cell : Cell σ Tally) : Job σ TestError α := ⟨f.work, cell⟩

/-- How long a call takes that begins in a world. -/
def time (w : World σ) : Nat := pausesTime w.instantLimit w.now f.latency.toList

/-- A call that begins in a world takes no longer than its deadline allows, if there is one. -/
def InTime (g : Guards) (w : World σ) : Prop := ∀ t ∈ g.timeLimit, f.time w ≤ t.reach w

/-- How many of the first attempts of a call are in time. -/
noncomputable def timely (g : Guards) (cell : Cell σ Tally) (w : World σ) (n : Nat) : Nat :=
  g.attemptsIn ((f.job cell).run .suspended) w (f.InTime g) n

variable {f} {cell : Cell σ Tally} {w v : World σ} {i n : Nat}

theorem ended_endingOf (o : Except TestError α) : (endingOf o).ended = .done o := by
  cases o <;> rfl

theorem endingOf_ne_never (o : Except TestError α) : endingOf o ≠ .never := by
  cases o <;> nofun

theorem concluded_endingOf (t : Tally) (o : Except TestError α) :
    t.concluded (endingOf o) = { t with finished := t.finished + 1 } := by
  cases o <;> rfl

/-- A call for which somebody waits long enough ends with the next outcome, and counts. -/
theorem run_ends (hc : cell.Lawful) (ht : OnTick v.now) (hu : (f.job cell).Undisturbed v)
    (hh : ∀ h, v.suspended.horizon = some h → v.now + f.time v ≤ h) :
    ∃ s, (f.job cell).run .suspended v = (.done (f.outcome ((f.job cell).calls v + 1)), v.moved s (v.now + f.time v)) ∧
      (cell.read s).finished = ((f.job cell).tally v).finished + 1 ∧
      (cell.read s).stragglers = ((f.job cell).tally v).stragglers := by
  obtain ⟨s, hrun, hs⟩ := Job.run_ends (j := f.job cell) hc ht hu (endingOf_ne_never _) hh
  have hending : ((f.job cell).next v).ending = endingOf (f.outcome ((f.job cell).calls v + 1)) := rfl
  rw [hending, ended_endingOf] at hrun
  rw [hending, concluded_endingOf] at hs
  exact ⟨s, hrun, (congrArg Tally.finished hs :), (congrArg Tally.stragglers hs :)⟩

/-- A call that is dropped in its latency does not count. -/
theorem run_dropped (hc : cell.Lawful) (ht : OnTick v.now) (hu : (f.job cell).Undisturbed v) {h : Nat}
    (hor : v.suspended.horizon = some h) (hle : v.now ≤ h) (hlong : h < v.now + f.time v) :
    ∃ s, (f.job cell).run .suspended v = (.abandoned, v.moved s h) ∧
      (cell.read s).finished = ((f.job cell).tally v).finished ∧
      (cell.read s).stragglers = ((f.job cell).tally v).stragglers := by
  obtain ⟨s, hrun, hs⟩ := Job.run_dropped (j := f.job cell) hc ht hu hor hle fun l hl => by
    obtain ⟨-, rfl⟩ := Call.of_endsAfter hl
    exact hlong
  exact ⟨s, hrun, (congrArg Tally.finished hs :), (congrArg Tally.stragglers hs :)⟩

/-- A deadline changes nothing about the number of a call. -/
theorem calls_within (hu : (f.job cell).Undisturbed v) (deadline : Nat) :
    (f.job cell).calls (v.within deadline) = (f.job cell).calls v :=
  Job.Still.finishedIn (j := f.job cell) ⟨rfl, rfl, rfl⟩ (hu.resolve_left nofun)

theorem not_inTime {g : Guards} (h : ¬ f.InTime g v) : ∃ t ∈ g.timeLimit, t.reach v < f.time v := by
  by_contra hno
  exact h fun t hlimit => Nat.le_of_not_lt fun hlate => hno ⟨t, hlimit, hlate⟩

variable {g : Guards} {t : TimeLimit}

/-- An attempt that ends in time counts, and has the outcome of its number. -/
theorem attempt_inTime (hc : cell.Lawful) (hu : (f.job cell).Undisturbed w) (hin : f.InTime g v)
    (h : (f.job cell).InStep w n v) :
    ∃ v', g.attempt ((f.job cell).run .suspended) v =
        (.done (mapError .inner (f.outcome ((f.job cell).calls w + (n + 1)))), v') ∧
      (f.job cell).InStep w (n + 1) v' := by
  have huv := h.undisturbed hu
  have hcalls : (f.job cell).calls v + 1 = (f.job cell).calls w + (n + 1) := by
    rw [h.calls hu rfl, Nat.add_assoc]
  have htick : OnTick (v.now + f.time v) := h.onTick.add (onTick_pausesTime ..)
  unfold Guards.attempt
  cases hlimit : g.timeLimit with
  | none =>
    obtain ⟨s, hrun, hfinished, hstragglers⟩ := run_ends hc h.onTick huv h.patient.stays
    rw [hcalls] at hrun
    exact ⟨_, Act.bind_of_done hrun, h.next htick hfinished hstragglers⟩
  | some t =>
    obtain ⟨s, hrun, hfinished, hstragglers⟩ := run_ends (v := v.within (v.now + t.reach v)) hc h.onTick huv
      fun _ hh => by
        cases hh
        exact Nat.add_le_add_left (hin t hlimit) _
    rw [calls_within huv, hcalls] at hrun
    exact ⟨_, TimeLimit.run_of_done h.patient h.onTick hrun, h.next htick hfinished hstragglers⟩

/-- An attempt that its deadline cuts does not count. -/
theorem attempt_late (hc : cell.Lawful) (hu : (f.job cell).Undisturbed w) (hlimit : g.timeLimit = some t)
    (hlate : t.reach v < f.time v) (h : (f.job cell).InStep w n v) :
    ∃ v', g.attempt ((f.job cell).run .suspended) v = (.done (.error t.error), v') ∧ (f.job cell).InStep w n v' := by
  obtain ⟨s, hrun, hfinished, hstragglers⟩ := run_dropped (v := v.within (v.now + t.reach v)) hc h.onTick
    (h.undisturbed hu) rfl (Nat.le_add_right _ _) (Nat.add_lt_add_left hlate _)
  have hcut : (f.job cell).InStep w (n + 0) (v.moved s (v.now + t.reach v)) :=
    h.next (h.onTick.add (t.onTick_reach v)) hfinished hstragglers
  refine ⟨(v.moved s (v.now + t.reach v)).report t.event, ?_, hcut.report _⟩
  simp only [Guards.attempt, hlimit]
  exact TimeLimit.run_of_dropped h.patient h.onTick hrun

/-- Every attempt comes back in step. -/
theorem attempt_inStep (hc : cell.Lawful) (hu : (f.job cell).Undisturbed w)
    (hbegins : g.AttemptBegins ((f.job cell).run .suspended) w (i + 1) v)
    (h : (f.job cell).InStep w (f.timely g cell w i) v) :
    ∃ x v', g.attempt ((f.job cell).run .suspended) v = (.done x, v') ∧
      (f.job cell).InStep w (f.timely g cell w (i + 1)) v' := by
  by_cases hin : f.InTime g v
  · obtain ⟨v', hcall, hnext⟩ := attempt_inTime hc hu hin h
    refine ⟨_, v', hcall, ?_⟩
    rw [timely, Guards.attemptsIn_succ_of hbegins hin]
    exact hnext
  · obtain ⟨t, hlimit, hlate⟩ := not_inTime hin
    obtain ⟨v', hcall, hnext⟩ := attempt_late hc hu hlimit hlate h
    refine ⟨_, v', hcall, ?_⟩
    rw [timely, Guards.attemptsIn_succ_of_not hbegins hin]
    exact hnext

/-- Every attempt begins in step. -/
theorem begins_inStep (hc : cell.Lawful) (hp : w.Patient .suspended) (ht : OnTick w.now)
    (hu : (f.job cell).Undisturbed w) (i : Nat) :
    ∀ v, g.AttemptBegins ((f.job cell).run .suspended) w (i + 1) v →
      (f.job cell).InStep w (f.timely g cell w i) v := by
  induction i with
  | zero =>
    intro v hbegins
    rw [timely, Guards.attemptsIn_zero]
    rcases hbegins.previous with ⟨-, rfl⟩ | ⟨_, j, u, _, _, _, hj, hprevious, -⟩
    · exact .start hp ht
    · -- No attempt has the number zero.
      obtain rfl : j = 0 := (Nat.succ.inj hj).symm
      rcases hprevious.previous with ⟨h, -⟩ | ⟨_, _, _, _, _, _, h, -⟩ <;> cases h
  | succ i ih =>
    intro v hbegins
    rcases hbegins.previous with ⟨h, -⟩ | ⟨r, j, u, s, turn, next, hj, hprevious, hagain⟩
    · cases h
    · obtain rfl : j = i + 1 := (Nat.succ.inj hj).symm
      obtain ⟨x, v₁, hcall, hover⟩ := attempt_inStep hc hu hprevious (ih u hprevious)
      cases hagain with
      | retry call decision sleep =>
        obtain rfl := congrArg Prod.snd (call.symm.trans hcall)
        obtain ⟨v', hsleep, hnext⟩ := (hover.reports _).sleep _
        obtain rfl : v = v' := congrArg Prod.snd (sleep.symm.trans hsleep)
        exact hnext

/-- A loop is over in step with its last attempt. -/
theorem over_inStep {r : RetryLoop} {s : Progress (TimeoutError TestError)} {tale : Tale (TimeoutError TestError) α}
    {out : Ended (Except (RetryError (TimeoutError TestError)) α)} {x : Except (TimeoutError TestError) α}
    {v' w' : World σ} (h : Over r .suspended (g.attempt ((f.job cell).run .suspended)) s v tale out w')
    (hcall : g.attempt ((f.job cell).run .suspended) v = (.done x, v')) (hover : (f.job cell).InStep w n v') :
    ∃ result, out = .done result ∧ (f.job cell).InStep w n w' := by
  cases h with
  | value call =>
    cases call.symm.trans hcall
    exact ⟨_, rfl, hover⟩
  | giveUp call decision =>
    cases call.symm.trans hcall
    exact ⟨_, rfl, hover.reports _⟩
  | broken call broke =>
    cases call.symm.trans hcall
    cases broke
  | unslept call decision sleep broke =>
    -- Who waits to the end never leaves a wait.
    cases call.symm.trans hcall
    obtain ⟨_, hsleep, -⟩ := (hover.reports _).sleep _
    cases sleep.symm.trans hsleep
    cases broke

/-- A call is over after some attempts, in step. -/
theorem run_inStep (hc : cell.Lawful) (hp : w.Patient .suspended) (ht : OnTick w.now)
    (hu : (f.job cell).Undisturbed w) : ∃ k final w',
      g.run .suspended (g.attempt ((f.job cell).run .suspended)) w = (.done final, w') ∧
      (∀ i, (∃ v, g.AttemptBegins ((f.job cell).run .suspended) w i v) ↔ 1 ≤ i ∧ i ≤ k) ∧
      (f.job cell).InStep w (f.timely g cell w k) w' := by
  cases hloop : g.retryLoop with
  | none =>
    have hfirst := g.begins_first ((f.job cell).run .suspended) w
    obtain ⟨x, w', hcall, hover⟩ := attempt_inStep hc hu hfirst (begins_inStep hc hp ht hu 0 w hfirst)
    have hrun : g.run .suspended (g.attempt ((f.job cell).run .suspended)) w =
        (.done (mapError GuardError.ofTimeout x), w') := by
      simp only [Guards.run, hloop]
      exact Act.bind_of_done hcall
    refine ⟨1, _, w', hrun, fun i => ?_, hover⟩
    simp only [Guards.attemptBegins_single hloop, exists_and_left, exists_eq, and_true]
    omega
  | some r =>
    obtain ⟨tale, htale⟩ := (r.attempted .suspended (g.attempt ((f.job cell).run .suspended)) (.start w.now) w).trail
    obtain ⟨k, hattempts, ⟨s, v, tale', hlast, hover⟩, -⟩ := htale.begins
    obtain ⟨j, rfl⟩ := Nat.exists_eq_add_of_le' ((hattempts k).1 ⟨v, hlast⟩).1
    have hbegins := (Guards.attemptBegins_repeated hloop).2 hlast
    obtain ⟨x, v', hcall, hnext⟩ := attempt_inStep hc hu hbegins (begins_inStep hc hp ht hu j v hbegins)
    rcases hfrom : r.attemptFrom .suspended (g.attempt ((f.job cell).run .suspended)) (.start w.now) w with ⟨out, w'⟩
    rw [hfrom] at hover
    obtain ⟨result, rfl, hend⟩ := over_inStep hover hcall hnext
    have hrun : g.run .suspended (g.attempt ((f.job cell).run .suspended)) w =
        (.done (mapError GuardError.ofRetry result), w') := by
      simp only [Guards.run, hloop]
      exact Act.bind_of_done hfrom
    refine ⟨j + 1, _, w', hrun, fun i => ?_, hend⟩
    simp only [Guards.attemptBegins_repeated hloop]
    exact hattempts i

/-- What a suspended call of flaky work under guards counts, from one world to another: it has so many attempts. One that
is in time counts, and comes to the outcome of the number that it counts as. One that is late comes to the error of its
deadline, and does not count. -/
structure Tallied (f : Flaky α) (g : Guards) (cell : Cell σ Tally) (w w' : World σ) (k : Nat) : Prop where
  attempts : ∀ i, (∃ v, g.AttemptBegins ((f.job cell).run .suspended) w i v) ↔ 1 ≤ i ∧ i ≤ k
  kept : ∀ i v, g.AttemptBegins ((f.job cell).run .suspended) w i v → f.InTime g v →
    ∃ v', g.attempt ((f.job cell).run .suspended) v =
        (.done (mapError .inner (f.outcome ((f.job cell).calls w + f.timely g cell w i))), v') ∧
      (f.job cell).calls v' = (f.job cell).calls w + f.timely g cell w i
  late : ∀ i v, g.AttemptBegins ((f.job cell).run .suspended) w i v → ∀ t ∈ g.timeLimit, t.reach v < f.time v →
    ∃ v', g.attempt ((f.job cell).run .suspended) v = (.done (.error t.error), v') ∧
      (f.job cell).calls v' = (f.job cell).calls w + f.timely g cell w i
  calls : (f.job cell).calls w' = (f.job cell).calls w + f.timely g cell w k

theorem tallied_run (hc : cell.Lawful) (hp : w.Patient .suspended) (ht : OnTick w.now)
    (hu : (f.job cell).Undisturbed w) : ∃ k final w',
      g.run .suspended (g.attempt ((f.job cell).run .suspended)) w = (.done final, w') ∧ f.Tallied g cell w w' k := by
  obtain ⟨k, final, w', hrun, hattempts, hover⟩ := run_inStep (f := f) (g := g) hc hp ht hu
  have hpos : ∀ {i v}, g.AttemptBegins ((f.job cell).run .suspended) w i v → ∃ j, i = j + 1 := fun h =>
    Nat.exists_eq_add_of_le' ((hattempts _).1 ⟨_, h⟩).1
  refine ⟨k, final, w', hrun, hattempts, fun i v hbegins hin => ?_, fun i v hbegins t hlimit hlate => ?_,
    hover.calls hu rfl⟩
  · obtain ⟨j, rfl⟩ := hpos hbegins
    obtain ⟨v', hcall, hnext⟩ := attempt_inTime hc hu hin (begins_inStep hc hp ht hu j v hbegins)
    rw [timely, Guards.attemptsIn_succ_of hbegins hin]
    exact ⟨v', hcall, hnext.calls hu rfl⟩
  · obtain ⟨j, rfl⟩ := hpos hbegins
    obtain ⟨v', hcall, hnext⟩ := attempt_late hc hu hlimit hlate (begins_inStep hc hp ht hu j v hbegins)
    have hout : ¬ f.InTime g v := fun hin => Nat.not_lt.2 (hin t hlimit) hlate
    rw [timely, Guards.attemptsIn_succ_of_not hbegins hout]
    exact ⟨v', hcall, hnext.calls hu rfl⟩

end Flaky

/-- A call of a job under guards, from one world to another: it has so many attempts, each of which comes to a verdict,
and counts for as much. -/
structure Guards.Counts (g : Guards) (j : Job σ TestError α) (w w' : World σ) (k share : Nat)
    (verdict : Nat → Except (TimeoutError TestError) α) : Prop where
  attempts : ∀ i, (∃ v, g.AttemptBegins (j.run .suspended) w i v) ↔ 1 ≤ i ∧ i ≤ k
  each : ∀ i v, g.AttemptBegins (j.run .suspended) w i v →
    ∃ v', g.attempt (j.run .suspended) v = (.done (verdict i), v') ∧ j.calls v' = j.calls w + share * i
  calls : j.calls w' = j.calls w + share * k

namespace Flaky

variable {f : Flaky α} {g : Guards} {cell : Cell σ Tally} {w w' : World σ} {k : Nat}

/-- If all attempts are in time, each of them counts. -/
theorem Tallied.counts_all (h : f.Tallied g cell w w' k)
    (hall : ∀ i v, g.AttemptBegins ((f.job cell).run .suspended) w i v → f.InTime g v) :
    g.Counts (f.job cell) w w' k 1 fun i => mapError .inner (f.outcome ((f.job cell).calls w + i)) := by
  have hcount : ∀ i ≤ k, f.timely g cell w i = i := fun i hi => Guards.attemptsIn_of_all h.attempts hall hi
  refine ⟨h.attempts, fun i v hbegins => ?_, ?_⟩
  · obtain ⟨v', hcall, hcalls⟩ := h.kept i v hbegins (hall i v hbegins)
    rw [hcount i ((h.attempts i).1 ⟨v, hbegins⟩).2] at hcall hcalls
    exact ⟨v', hcall, by rw [hcalls, Nat.one_mul]⟩
  · rw [h.calls, hcount k (Nat.le_refl k), Nat.one_mul]

/-- If all attempts are late, none counts. -/
theorem Tallied.counts_none {t : TimeLimit} (h : f.Tallied g cell w w' k) (hlimit : t ∈ g.timeLimit)
    (hlate : ∀ i v, g.AttemptBegins ((f.job cell).run .suspended) w i v → t.reach v < f.time v) :
    g.Counts (f.job cell) w w' k 0 fun _ => .error t.error := by
  have hcount : ∀ i, f.timely g cell w i = 0 := fun i => Guards.attemptsIn_of_none fun i v hbegins hin =>
    Nat.not_lt.2 (hin t hlimit) (hlate i v hbegins)
  refine ⟨h.attempts, fun i v hbegins => ?_, ?_⟩
  · obtain ⟨v', hcall, hcalls⟩ := h.late i v hbegins t hlimit (hlate i v hbegins)
    rw [hcount] at hcalls
    exact ⟨v', hcall, by rw [hcalls, Nat.zero_mul]⟩
  · rw [h.calls, hcount, Nat.zero_mul]

/-- Flaky work in a suspended call under any guards, begun on a whole millisecond by someone who waits for it. The call
is over after some attempts. Each that is in time counts and comes to the outcome of its own number among those; each that
is late is cut at its deadline and does not count. So if all are in time, all count, and if all are late, none does. -/
theorem attempts_counted (f : Flaky α) (g : Guards) {cell : Cell σ Tally} (hc : cell.Lawful) {w : World σ}
    (hp : w.Patient .suspended) (ht : OnTick w.now) (hu : (f.job cell).Undisturbed w) :
    ∃ (x : Act σ (Except (GuardError TestError) α)) (k : Nat) (final : Except (GuardError TestError) α) (w' : World σ),
      CallSite.start (⟨.suspended ((f.job cell).run .suspended), g⟩ : CallSite σ ρ TestError α) w =
        (.done (.pending x), w) ∧
      x w = (.done final, w') ∧
      f.Tallied g cell w w' k ∧
      ((∀ i v, g.AttemptBegins ((f.job cell).run .suspended) w i v → f.InTime g v) →
        g.Counts (f.job cell) w w' k 1 fun i => mapError .inner (f.outcome ((f.job cell).calls w + i))) ∧
      ∀ t ∈ g.timeLimit,
        (∀ i v, g.AttemptBegins ((f.job cell).run .suspended) w i v → t.reach v < f.time v) →
          g.Counts (f.job cell) w w' k 0 fun _ => .error t.error := by
  obtain ⟨k, final, w', hrun, htallied⟩ := tallied_run (f := f) (g := g) hc hp ht hu
  exact ⟨_, k, final, w', rfl, hrun, htallied, htallied.counts_all, fun _ hlimit => htallied.counts_none hlimit⟩


/-! ## A count that falls behind -/

/-- Ten milliseconds for each of two attempts. -/
def brisk : Guards := ⟨some tenMillis, some twice⟩

/-- Work that fails once, and takes three milliseconds each time. -/
def quick : Flaky Nat := recoveringAfter 1 7 (some (.ofMillis 3))

/-- Work that takes twenty milliseconds. -/
def slow : Flaky Nat := recoveringAfter 0 7 (some (.ofMillis 20))

/-- Three milliseconds are over before ten are, wherever they begin. -/
theorem quick_inTime (v : World Tally) : quick.InTime brisk v := by
  rintro t ⟨⟩
  have hquick : quick.time v = suspension v.instantLimit v.now (.ofMillis 3) := by
    show pausesTime _ _ [.ofMillis 3] = _
    rw [pausesTime, pausesTime, Nat.add_zero]
  rw [hquick]
  exact suspension_mono (by decide) (by decide) _ _

/-- The world at the second attempt at slow work, and after it. -/
def cutOnce : World Tally where
  suspended := { now := 15000000 }
  log := [.retrying "twice" 1 2 (.ofMillis 5) "timeout policy 'brief' exceeded: no result within 10ms", tenMillis.event]
  own := { started := 1 }

def cutTwice : World Tally where
  suspended := { now := 25000000 }
  log := tenMillis.event :: cutOnce.log
  own := { started := 2 }

/-- While twenty milliseconds after it is an instant, an attempt at slow work is late. -/
theorem slow_late {v : World Tally} (h : v.now + 20000000 < v.instantLimit) : tenMillis.reach v < slow.time v := by
  have hslow : slow.time v = 20000000 := pausesTime_of_lt [.ofMillis 20] h
  have hrep : tenMillis.Representable v.instantLimit v.now :=
    Nat.lt_trans (Nat.add_lt_add_left (by decide) _) h
  rw [hslow, hrep.reach_eq, tenMillis_roundedUp]
  decide

/-- The first attempt at it is cut and waited after, and the second is the last. -/
theorem slow_again : Again twice .suspended (brisk.attempt ((slow.job .whole).run .suspended)) (.start 0) { own := {} }
    (.retried tenMillis.error (.ofMillis 5)) ((Progress.start 0).record 10000000 tenMillis.error (.ofMillis 5))
    cutOnce := .retry rfl rfl rfl

theorem slow_over : ∃ tale error w', Over twice .suspended (brisk.attempt ((slow.job .whole).run .suspended))
    ((Progress.start 0).record 10000000 tenMillis.error (.ofMillis 5)) cutOnce tale
    (.done (.error error)) w' ∧ w'.now = 25000000 ∧ (slow.job .whole).calls w' = 0 := by
  have hcut : brisk.attempt ((slow.job .whole).run .suspended) cutOnce = (.done (.error tenMillis.error), cutTwice) :=
    rfl
  exact ⟨_, _, _, .giveUp hcut rfl, rfl, rfl⟩

theorem slow_begins {i : Nat} {v : World Tally}
    (h : brisk.AttemptBegins ((slow.job .whole).run .suspended) { own := {} } i v) :
    v = { own := {} } ∨ v = cutOnce := by
  obtain ⟨_, _, _, hover, -⟩ := slow_over
  have hbegins : Begins twice .suspended _ (.start 0) { own := {} } i v := h
  cases hbegins with
  | now => exact .inl rfl
  | later call decision sleep rest =>
    obtain ⟨rfl, rfl⟩ := slow_again.unique (.retry call decision sleep)
    cases rest with
    | now => exact .inr rfl
    | later call decision sleep _ => exact (hover.not_again (.retry call decision sleep)).elim

/-- Attempts of three milliseconds count and have the outcomes of their numbers; those of twenty are cut after ten. -/
theorem attempts_counted_brisk :
    (∃ (x : Act Tally (Except (GuardError TestError) Nat)) (k : Nat) (final : Except (GuardError TestError) Nat)
      (w' : World Tally),
      CallSite.start (⟨.suspended ((quick.job .whole).run .suspended), brisk⟩ : CallSite Tally Unit TestError Nat)
        { own := {} } = (.done (.pending x), { own := {} }) ∧
      x { own := {} } = (.done final, w') ∧ (quick.job .whole).calls w' = k ∧
      ∃ v, brisk.attempt ((quick.job .whole).run .suspended) { own := {} } =
        (.done (.error (.inner (.transient "failure 1"))), v)) ∧
    ∃ (x : Act Tally (Except (GuardError TestError) Nat)) (final : Except (GuardError TestError) Nat)
      (w' : World Tally),
      CallSite.start (⟨.suspended ((slow.job .whole).run .suspended), brisk⟩ : CallSite Tally Unit TestError Nat)
        { own := {} } = (.done (.pending x), { own := {} }) ∧
      x { own := {} } = (.done final, w') ∧ (slow.job .whole).calls w' = 0 ∧
      ∃ v, brisk.attempt ((slow.job .whole).run .suspended) { own := {} } = (.done (.error tenMillis.error), v) := by
  constructor
  · obtain ⟨x, k, final, w', hstart, hrun, -, hin, -⟩ := attempts_counted (ρ := Unit) quick brisk
      Cell.whole_lawful (w := { own := {} }) rfl rfl (.inr nofun)
    have hcounts := hin fun _ v _ => quick_inTime v
    obtain ⟨v, hcall, -⟩ := hcounts.each 1 _ (brisk.begins_first _ _)
    refine ⟨x, k, final, w', hstart, hrun, ?_, v, hcall⟩
    rw [hcounts.calls, Nat.one_mul]
    exact Nat.zero_add k
  · obtain ⟨x, k, final, w', hstart, hrun, -, -, hlate⟩ := attempts_counted (ρ := Unit) slow brisk
      Cell.whole_lawful (w := { own := {} }) rfl rfl (.inr nofun)
    have hcounts := hlate tenMillis rfl fun i v hbegins => by
      rcases slow_begins hbegins with rfl | rfl <;> exact slow_late (by decide)
    obtain ⟨v, hcall, -⟩ := hcounts.each 1 _ (brisk.begins_first _ _)
    refine ⟨x, final, w', hstart, hrun, ?_, v, hcall⟩
    rw [hcounts.calls, Nat.zero_mul]
    rfl

/-- Both attempts are made and cut, and the count stays at zero. -/
theorem attempts_uncounted :
    ∃ (x : Act Tally (Except (GuardError TestError) Nat)) (final : Except (GuardError TestError) Nat)
      (w' : World Tally),
      CallSite.start (⟨.suspended ((slow.job .whole).run .suspended), brisk⟩ : CallSite Tally Unit TestError Nat)
        { own := {} } = (.done (.pending x), { own := {} }) ∧
      x { own := {} } = (.done final, w') ∧ w'.now = 25000000 ∧
      (∀ i, (∃ v, brisk.AttemptBegins ((slow.job .whole).run .suspended) { own := {} } i v) ↔ 1 ≤ i ∧ i ≤ 2) ∧
      (slow.job .whole).calls w' = 0 := by
  obtain ⟨_, _, w', hover, hnow, hcalls⟩ := slow_over
  refine ⟨_, _, w', rfl, Act.bind_of_done (Trail.go slow_again (.halt hover)).attemptFrom_eq, hnow, fun i => ?_, hcalls⟩
  refine slow_again.begins_iff.trans ?_
  constructor
  · rintro (rfl | ⟨j, v, later, rfl⟩)
    · omega
    · have hj := hover.begins_iff.1 ⟨v, later⟩
      omega
  · rintro ⟨hpos, hle⟩
    rcases Nat.lt_or_eq_of_le hle with hlt | rfl
    · exact .inl (by omega)
    · exact .inr ⟨1, _, .now, rfl⟩

end Flaky

end CallGuard

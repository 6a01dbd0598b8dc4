/-
Suspended work under a deadline comes out the same whether it runs in place or apart from its caller. Either
way the call ends first and the caller gets its end at that instant, or the deadline comes first and the caller
gets the error there; of a call that is dropped nothing happens later (`TimeLimit.Raced`). Both ways race like this
(`TimeLimit.run_runApart`), and a race has one outcome (`TimeLimit.Raced.unique`). What is due together with the
deadline is left open: a call that ends there, and whether a pause that is over there still counts.
-/
import CallGuard.Proofs.Timeout.Timed
import CallGuard.Proofs.Work.Latency

namespace CallGuard

variable {σ ε α : Type}

/-! ## Outcomes of a race -/

/-- What the caller gets of a call that ends before its deadline. -/
def Ending.limited : Ending ε α → Ended (Except (TimeoutError ε) α)
  | .value a => .done (.ok a)
  | .failure e => .done (.error (.inner e))
  | .panic m => .panicked m
  | .never => .abandoned

namespace TimeLimit

/-- How a race between a call and its deadline comes out. A call that ends first is told with all its pauses and
its end. One that does not has slept through the pauses before the deadline and through none after it, and the
tally holds nothing of it that would count later. -/
inductive Raced (t : TimeLimit) (j : Job σ ε α) (w : World σ) :
    Ended (Except (TimeoutError ε) α) → World σ → Prop where
  | first {l : Nat} {v : World σ} (latency : j.latency w = some l) (early : l < t.reach w)
      (now : v.now = w.now + l) (events : v.events = w.events)
      (tally : j.tally v = ((j.tally w).begun.stepped (j.next w).pauses.length).concluded (j.next w).ending) :
      Raced t j w (j.next w).ending.limited v
  | dropped {n : Nat} {v : World σ} (late : ∀ l, j.latency w = some l → t.reach w < l)
      (now : v.now = w.now + t.reach w) (events : v.events = w.events ++ [t.event])
      (tally : j.tally v = (j.tally w).begun.stepped n)
      (least : ((j.pausesDue w).filter (· < w.now + t.reach w)).length ≤ n)
      (most : n ≤ ((j.pausesDue w).filter (· ≤ w.now + t.reach w)).length) :
      Raced t j w (.done (.error t.error)) v

section Races

variable {t : TimeLimit} {j : Job σ ε α} {w u v : World σ} {x y : Ended (Except (TimeoutError ε) α)}

/-- The races of one call come out the same, up to a pause that is over at the deadline. -/
theorem Raced.unique (hx : t.Raced j w x v) (hy : t.Raced j w y u) :
    x = y ∧ v.now = u.now ∧ v.events = u.events ∧ (w.now + t.reach w ∉ j.pausesDue w → j.tally v = j.tally u) := by
  cases hx with
  | first latency early now events tally =>
    cases hy with
    | first latency' early' now' events' tally' =>
      cases latency.symm.trans latency'
      exact ⟨rfl, now.trans now'.symm, events.trans events'.symm, fun _ => tally.trans tally'.symm⟩
    | dropped late => exact absurd (late _ latency) (Nat.not_lt.2 (Nat.le_of_lt early))
  | dropped late now events tally least most =>
    cases hy with
    | first latency early => exact absurd (late _ latency) (Nat.not_lt.2 (Nat.le_of_lt early))
    | dropped late' now' events' tally' least' most' =>
      refine ⟨rfl, now.trans now'.symm, events.trans events'.symm, fun apart => ?_⟩
      -- Without a pause at the deadline both bounds are the same.
      have hsame : (j.pausesDue w).filter (· ≤ w.now + t.reach w) = (j.pausesDue w).filter (· < w.now + t.reach w) :=
        List.filter_congr fun due hdue => by
          have hne : due ≠ w.now + t.reach w := fun h => apart (h ▸ hdue)
          rw [decide_eq_decide]
          omega
      rw [hsame] at most most'
      rw [tally, tally', Nat.le_antisymm most least, Nat.le_antisymm most' least']

/-! ## In place -/

theorem pausesDue_lt_le (j : Job σ ε α) (w : World σ) (deadline : Nat) :
    ((j.pausesDue w).filter (· < deadline)).length ≤ ((j.pausesDue w).filter (· ≤ deadline)).length := by
  rw [← List.countP_eq_length_filter, ← List.countP_eq_length_filter]
  refine List.countP_mono_left fun due _ h => ?_
  rw [decide_eq_true_iff] at h ⊢
  exact Nat.le_of_lt h

theorem next_within (hu : j.Undisturbed w) (deadline : Nat) : j.next (w.within deadline) = j.next w :=
  Job.Still.next ⟨rfl, rfl, rfl⟩ hu rfl

theorem pausesTime_within (hu : j.Undisturbed w) (deadline : Nat) :
    j.pausesTime (w.within deadline) = j.pausesTime w := by
  rw [Job.pausesTime, next_within hu]
  rfl

theorem latency_within (hu : j.Undisturbed w) (deadline : Nat) : j.latency (w.within deadline) = j.latency w := by
  rw [Job.latency, next_within hu]
  rfl

theorem pausesDue_within (hu : j.Undisturbed w) (deadline : Nat) :
    j.pausesDue (w.within deadline) = j.pausesDue w := by
  rw [Job.pausesDue, next_within hu]
  rfl

theorem run_first (hc : j.cell.Lawful) (hp : w.Patient .suspended) (ht : OnTick w.now) (hu : j.Undisturbed w) {l : Nat}
    (hl : j.latency w = some l) (early : l < t.reach w) :
    ∃ v, t.run (j.run .suspended) w = ((j.next w).ending.limited, v) ∧ t.Raced j w (j.next w).ending.limited v := by
  obtain ⟨hne, rfl⟩ := Call.of_endsAfter hl
  have hends := Job.run_ends (w := w.within (w.now + t.reach w)) hc ht hu
  rw [next_within hu, pausesTime_within hu] at hends
  obtain ⟨s, hrun, hs⟩ := hends hne fun h hor => by
    cases hor
    exact Nat.add_le_add_left (Nat.le_of_lt early) _
  have hback : ((w.within (w.now + t.reach w)).moved s (w.now + j.pausesTime w)).unbounded =
      w.moved s (w.now + j.pausesTime w) :=
    World.unbounded_within (World.patient_moved hp _ _) _
  refine ⟨w.moved s (w.now + j.pausesTime w), ?_,
    .first hl early (World.now_moved ..) (World.events_moved ..) hs⟩
  rw [run, t.tick_due ht, Act.before_eq hp, hrun, ← hback]
  cases hending : (j.next w).ending with
  | never => exact absurd hending hne
  | value _ | failure _ | panic _ => rfl

theorem run_dropped (hc : j.cell.Lawful) (hp : w.Patient .suspended) (ht : OnTick w.now) (hu : j.Undisturbed w)
    (late : ∀ l, j.latency w = some l → t.reach w < l) :
    ∃ v, t.run (j.run .suspended) w = (.done (.error t.error), v) ∧ t.Raced j w (.done (.error t.error)) v := by
  have hdrop := Job.run_dropped (w := w.within (w.now + t.reach w)) hc ht hu rfl (Nat.le_add_right _ _)
  rw [latency_within hu, pausesDue_within hu] at hdrop
  obtain ⟨s, hrun, hs⟩ := hdrop fun l hl => Nat.add_lt_add_left (late l hl) _
  refine ⟨(w.moved s (w.now + t.reach w)).report t.event, run_of_dropped hp ht hrun,
    .dropped late ?_ ?_ hs (pausesDue_lt_le j w _) (Nat.le_refl _)⟩
  · rw [World.now_report, World.now_moved]
  · rw [World.events_report, World.events_moved]

/-! ## Apart -/

theorem finish_ofCall (limit : Nat) {start : Nat} (ht : OnTick start) (c : Call ε α) :
    (Course.ofCall limit .suspended start c).finish = (c.latency limit start).map (start + ·) := by
  unfold Course.ofCall Call.latency Call.endsAfter
  cases c.ending with
  | never => rfl
  | value _ | failure _ | panic _ => exact congrArg some (Course.getLastD_pauseEnds limit c.pauses ht)

theorem steps_ofCall (limit : Nat) (pace : Pace) (start : Nat) (c : Call ε α) :
    (Course.ofCall limit pace start c).steps = Course.pauseEnds limit pace start c.pauses := by
  unfold Course.ofCall
  cases c.ending <;> rfl

/-- The world in which a call has run apart up to an instant. -/
def arrivedAt (j : Job σ ε α) (w : World σ) (n : Nat) : World σ :=
  j.arrive .suspended (Course.ofCall w.instantLimit .suspended w.now (j.next w)) n (w.giveWay .suspended)

theorem tally_arrivedAt (hc : j.cell.Lawful) (n : Nat) :
    j.tally (arrivedAt j w n) = (j.tally w).begun.stepped ((j.pausesDue w).filter (· ≤ n)).length := by
  have hread : j.tally (arrivedAt j w n) =
      (Course.ofCall w.instantLimit .suspended w.now (j.next w)).countUpTo n (j.tally w) := hc.read_write ..
  rw [hread, Course.countUpTo, steps_ofCall]
  rfl

theorem now_arrivedAt (j : Job σ ε α) (w : World σ) (n : Nat) : (arrivedAt j w n).now = n := rfl

theorem events_arrivedAt (j : Job σ ε α) (w : World σ) (n : Nat) : (arrivedAt j w n).events = w.events := rfl

/-- The world in which a call apart is at its end, and its caller has given way. -/
def endedAt (j : Job σ ε α) (w : World σ) (n : Nat) : World σ := (arrivedAt j w n).giveWay .suspended

theorem still_endedAt (hc : j.cell.Lawful) (n : Nat) : j.Still w (endedAt j w n) where
  finished := (congrArg Tally.finished (tally_arrivedAt hc n) :)
  stragglers := (congrArg Tally.stragglers (tally_arrivedAt hc n) :)
  blocking := rfl

/-- The world in which the end of a call apart is counted. -/
def concludedAt (j : Job σ ε α) (w : World σ) (n : Nat) : World σ :=
  match (j.next w).ending with
  | .value _ | .failure _ => j.finish (endedAt j w n)
  | .panic _ | .never => endedAt j w n

theorem now_concludedAt (j : Job σ ε α) (w : World σ) (n : Nat) : (concludedAt j w n).now = n := by
  unfold concludedAt
  cases (j.next w).ending <;> exact now_arrivedAt j w n

theorem events_concludedAt (j : Job σ ε α) (w : World σ) (n : Nat) : (concludedAt j w n).events = w.events := by
  unfold concludedAt
  cases (j.next w).ending <;> exact events_arrivedAt j w n

theorem tally_concludedAt (hc : j.cell.Lawful) (n : Nat) : j.tally (concludedAt j w n) =
    ((j.tally w).begun.stepped ((j.pausesDue w).filter (· ≤ n)).length).concluded (j.next w).ending := by
  rw [← tally_arrivedAt hc, concludedAt]
  cases (j.next w).ending with
  | value _ | failure _ => exact hc.read_write ..
  | panic _ | never => rfl

/-- What comes first of a call and its deadline, as its course says. -/
theorem finish_filter (ht : OnTick w.now) (j : Job σ ε α) (reach : Nat) :
    (Course.ofCall w.instantLimit .suspended w.now (j.next w)).finish.filter
        (fun finish => decide (finish ≤ w.now + reach) && true) =
      ((j.latency w).filter (· ≤ reach)).map (w.now + ·) := by
  rw [finish_ofCall _ ht, ← Job.latency]
  cases j.latency w with
  | none => rfl
  | some l => by_cases hle : l ≤ reach <;> simp [Option.filter_some, hle]

/-- A call apart and a patient caller. -/
theorem runApart_eq (hp : w.Patient .suspended) (ht : OnTick w.now) (hu : j.Undisturbed w) :
    t.runApart .suspended j w =
      match (j.latency w).filter (· ≤ t.reach w) with
      | some l =>
        match j.ending (j.next w) (endedAt j w (w.now + l)) with
        | .value a => (.done (.ok a), j.finish (endedAt j w (w.now + l)))
        | .failure e => (.done (.error (.inner e)), j.finish (endedAt j w (w.now + l)))
        | .panic m => (.panicked m, endedAt j w (w.now + l))
        | .never => (.abandoned, endedAt j w (w.now + l))
      | none => (.done (.error t.error), (arrivedAt j w (w.now + t.reach w)).report t.event) := by
  have hstart : ((w.giveWay .suspended).clock .suspended).now = w.now := rfl
  have hhorizon : ((w.giveWay .suspended).clock .suspended).horizon = none := hp
  have hnext : j.next (w.giveWay .suspended) = j.next w := Job.Still.next ⟨rfl, rfl, rfl⟩ hu rfl
  have hlimit : (w.giveWay .suspended).instantLimit = w.instantLimit := World.instantLimit_setClock ..
  have hdeadline : Pace.suspended.wake (Pace.suspended.instantAfter w.instantLimit w.now t.duration) =
      w.now + t.reach w := t.tick_due ht
  simp only [runApart, hstart, hhorizon, hnext, hlimit, hdeadline, Option.all_none, finish_filter ht, if_true]
  cases (j.latency w).filter (· ≤ t.reach w) <;> rfl

theorem runApart_first (hc : j.cell.Lawful) (hp : w.Patient .suspended) (ht : OnTick w.now) (hu : j.Undisturbed w)
    {l : Nat} (hl : j.latency w = some l) (early : l < t.reach w) :
    ∃ v, t.runApart .suspended j w = ((j.next w).ending.limited, v) ∧
      t.Raced j w (j.next w).ending.limited v := by
  have hfilter : (some l).filter (· ≤ t.reach w) = some l := by simp [Option.filter_some, Nat.le_of_lt early]
  obtain ⟨hne, rfl⟩ := Call.of_endsAfter hl
  -- All pauses are over when the call is at its end.
  have hall : (j.pausesDue w).filter (· ≤ w.now + j.pausesTime w) = j.pausesDue w :=
    List.filter_eq_self.2 fun due hdue => decide_eq_true (Course.le_pausesTime_of_mem_pauseEnds _ _ ht due hdue)
  have htally : j.tally (concludedAt j w (w.now + j.pausesTime w)) =
      ((j.tally w).begun.stepped (j.next w).pauses.length).concluded (j.next w).ending := by
    rw [tally_concludedAt hc, hall, Job.pausesDue, Course.length_pauseEnds]
  refine ⟨concludedAt j w (w.now + j.pausesTime w), ?_,
    .first hl early (now_concludedAt ..) (events_concludedAt ..) htally⟩
  rw [runApart_eq hp ht hu, hl, hfilter]
  simp only [(still_endedAt hc _).ending hu, concludedAt]
  cases (j.next w).ending <;> rfl

theorem runApart_dropped (hc : j.cell.Lawful) (hp : w.Patient .suspended) (ht : OnTick w.now) (hu : j.Undisturbed w)
    (late : ∀ l, j.latency w = some l → t.reach w < l) :
    ∃ v, t.runApart .suspended j w = (.done (.error t.error), v) ∧ t.Raced j w (.done (.error t.error)) v := by
  have hfilter : (j.latency w).filter (· ≤ t.reach w) = none :=
    Option.filter_eq_none_iff.2 fun l hl => by simpa using late l hl
  refine ⟨(arrivedAt j w (w.now + t.reach w)).report t.event, ?_,
    .dropped late ?_ ?_ (tally_arrivedAt hc _) (pausesDue_lt_le j w _) (Nat.le_refl _)⟩
  · rw [runApart_eq hp ht hu, hfilter]
  · rw [World.now_report, now_arrivedAt]
  · rw [World.events_report, events_arrivedAt]

/-! ## Both ways -/

/-- Unless they come together, the call or its deadline comes first. -/
theorem first_or_dropped (tie : j.latency w ≠ some (t.reach w)) :
    (∃ l, j.latency w = some l ∧ l < t.reach w) ∨ ∀ l, j.latency w = some l → t.reach w < l := by
  cases hl : j.latency w with
  | none => exact .inr nofun
  | some l =>
    have hne : l ≠ t.reach w := fun h => tie (hl.trans (congrArg some h))
    rcases Nat.lt_or_gt_of_ne hne with hlt | hlt
    · exact .inl ⟨l, rfl, hlt⟩
    · exact .inr fun _ heq => Option.some.inj heq ▸ hlt

end Races

/-- A suspended call under a deadline comes out the same in place and apart, at the same instant and with the same
event, unless it ends exactly when its deadline comes: with its own end if that is before the deadline, and with the
error at the deadline otherwise. Of a call that is dropped none of the pauses after the deadline are slept through
either way, and it is not left to itself. -/
theorem run_runApart (t : TimeLimit) (j : Job σ ε α) (w : World σ) (hc : j.cell.Lawful) (hp : w.Patient .suspended)
    (ht : OnTick w.now) (hu : j.Undisturbed w) (tie : j.latency w ≠ some (t.reach w)) :
    ∃ out v u, t.run (j.run .suspended) w = (out, v) ∧ t.runApart .suspended j w = (out, u) ∧
      t.Raced j w out v ∧ t.Raced j w out u ∧ v.now = u.now ∧ v.events = u.events ∧
      (w.now + t.reach w ∉ j.pausesDue w → j.tally v = j.tally u) := by
  have hraced : ∃ out v u, t.run (j.run .suspended) w = (out, v) ∧ t.runApart .suspended j w = (out, u) ∧
      t.Raced j w out v ∧ t.Raced j w out u := by
    rcases first_or_dropped tie with ⟨l, hl, early⟩ | late
    · obtain ⟨v, hinPlace, hracedv⟩ := run_first hc hp ht hu hl early
      obtain ⟨u, hapart, hracedu⟩ := runApart_first hc hp ht hu hl early
      exact ⟨_, v, u, hinPlace, hapart, hracedv, hracedu⟩
    · obtain ⟨v, hinPlace, hracedv⟩ := run_dropped hc hp ht hu late
      obtain ⟨u, hapart, hracedu⟩ := runApart_dropped hc hp ht hu late
      exact ⟨_, v, u, hinPlace, hapart, hracedv, hracedu⟩
  obtain ⟨out, v, u, hinPlace, hapart, hracedv, hracedu⟩ := hraced
  obtain ⟨-, hnow, hevents, htally⟩ := hracedv.unique hracedu
  exact ⟨out, v, u, hinPlace, hapart, hracedv, hracedu, hnow, hevents, htally⟩

/-- Work that pauses for a millisecond and then for five. -/
def halting : Job Tally Unit Nat := ⟨.ofCalls { pauses := [.ofMillis 1, .ofMillis 5], ending := .value 7 } [], .whole⟩

theorem halting_latency : halting.latency { own := {} } = some 6000000 := by
  have hlength : pausesLength (halting.next { own := {} }).pauses = 6000000 := by decide
  have htime : halting.pausesTime { own := {} } = 6000000 := by
    rw [← hlength]
    exact pausesTime_of_lt _ (by rw [hlength]; decide)
  have hends : (halting.next { own := {} }).ending ≠ .never := fun h => by cases h
  rw [← htime]
  exact Call.endsAfter_of_ne hends

theorem halting_pausesDue : halting.pausesDue { own := {} } = [1000000, 6000000] := by
  have hfirst : suspension ({ own := {} } : World Tally).instantLimit 0 (.ofMillis 1) = 1000000 := by
    rw [suspension_of_lt (by decide)]; decide
  have hsecond : suspension ({ own := {} } : World Tally).instantLimit 1000000 (.ofMillis 5) = 5000000 := by
    rw [suspension_of_lt (by decide)]; decide
  show Course.pauseEnds ({ own := {} } : World Tally).instantLimit .suspended 0 [.ofMillis 1, .ofMillis 5] = _
  rw [Course.pauseEnds_cons _ (by rfl), hfirst, Nat.zero_add, Course.pauseEnds_cons _ (by rfl), hsecond]
  rfl

/-- A limit of three milliseconds. -/
def threeMillis : TimeLimit := ⟨⟨"short", .ofMillis 3, by decide, by decide⟩⟩

theorem threeMillis_reach : threeMillis.reach ({ own := {} } : World Tally) = 3000000 := by
  have hrep : threeMillis.Representable ({ own := {} } : World Tally).instantLimit 0 := by decide
  rw [hrep.reach_eq]
  decide

/-- It is dropped between its pauses, in place and apart. -/
theorem run_runApart_halting : ∃ v u,
    threeMillis.run (halting.run .suspended) { own := {} } = (.done (.error threeMillis.error), v) ∧
    threeMillis.runApart .suspended halting { own := {} } = (.done (.error threeMillis.error), u) ∧
    v.now = 3000000 ∧ u.now = 3000000 ∧ v.own.steps = 1 ∧ u.own.steps = 1 := by
  have told : ∀ {out v}, threeMillis.Raced halting { own := {} } out v →
      out = .done (.error threeMillis.error) ∧ v.now = 3000000 ∧ v.own.steps = 1 := by
    intro out v h
    cases h with
    | first latency early =>
      cases latency.symm.trans halting_latency
      rw [threeMillis_reach] at early
      exact absurd early (by decide)
    | dropped late now events tally least most =>
      have hnow : ({ own := {} } : World Tally).now + threeMillis.reach ({ own := {} } : World Tally) = 3000000 := by
        rw [threeMillis_reach]; rfl
      rw [halting_pausesDue, hnow] at least most
      refine ⟨rfl, now.trans hnow, ?_⟩
      have hsteps : v.own.steps = 0 + _ := congrArg Tally.steps tally
      rw [hsteps, Nat.zero_add]
      exact Nat.le_antisymm most least
  have tie : halting.latency { own := {} } ≠ some (threeMillis.reach ({ own := {} } : World Tally)) := by
    rw [halting_latency, threeMillis_reach]
    decide
  obtain ⟨out, v, u, hinPlace, hapart, hracedv, hracedu, -⟩ :=
    threeMillis.run_runApart halting { own := {} } Cell.whole_lawful rfl rfl (.inl rfl) tie
  obtain ⟨rfl, hnowv, hstepsv⟩ := told hracedv
  obtain ⟨-, hnowu, hstepsu⟩ := told hracedu
  exact ⟨v, u, hinPlace, hapart, hnowv, hnowu, hstepsv, hstepsu⟩

end TimeLimit

end CallGuard

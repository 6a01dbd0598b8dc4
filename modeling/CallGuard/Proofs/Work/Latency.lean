/-
Scripted jobs as work with latencies. The pauses of a call follow each other, each up to a whole
millisecond, and the call takes their sum, unless it never ends (`Job.run_ends`). As long as the end of that is an
instant, the sum is that of the pauses as the script has them (`Job.takes`). The number of a call is counted
when it begins, so that a call that is dropped in the middle counts as well; of its pauses those count that are over by
then (`Job.run_dropped`).
-/
import CallGuard.Proofs.Timeout.Deadline
import CallGuard.Work.Course

namespace CallGuard

variable {σ ε α : Type}

/-! ## Cells -/

namespace Cell

variable {τ : Type}

/-- What is written can be read again. -/
structure Lawful (c : Cell σ τ) : Prop where
  read_write : ∀ t s, c.read (c.write t s) = t

theorem whole_lawful : (whole : Cell τ τ).Lawful := ⟨fun _ _ => rfl⟩

theorem modify_moved (c : Cell σ τ) (f : τ → τ) (w : World σ) (s : σ) (t : Nat) :
    c.modify f (w.moved s t) = (.done (), w.moved (c.write (f (c.read s)) s) t) := rfl

end Cell

/-! ## Pauses -/

/-- How long pauses take one after the other that begin at an instant. -/
def pausesTime (limit : Nat) : Nat → List Duration → Nat
  | _, [] => 0
  | now, d :: rest => suspension limit now d + pausesTime limit (now + suspension limit now d) rest

theorem onTick_pausesTime (limit : Nat) (ds : List Duration) : ∀ now, OnTick (pausesTime limit now ds) := by
  induction ds with
  | nil => intro _; rfl
  | cons d rest ih => intro now; rw [pausesTime]; exact (onTick_suspension limit now d).add (ih _)

/-- How long pauses are altogether, each up to a whole millisecond. -/
def pausesLength : List Duration → Nat
  | [] => 0
  | d :: rest => d.roundedUp + pausesLength rest

theorem onTick_pausesLength (ds : List Duration) : OnTick (pausesLength ds) := by
  induction ds with
  | nil => rfl
  | cons d rest ih => rw [pausesLength]; exact d.onTick_roundedUp.add ih

/-- Pauses take their own lengths if the end of all is an instant. -/
theorem pausesTime_of_lt {limit : Nat} (ds : List Duration) :
    ∀ {now : Nat}, now + pausesLength ds < limit → pausesTime limit now ds = pausesLength ds := by
  induction ds with
  | nil => intro _ _; rfl
  | cons d rest ih =>
    intro now h
    rw [pausesLength, ← Nat.add_assoc] at h
    have hd : now + d.nanos < limit :=
      Nat.lt_of_le_of_lt (Nat.le_trans (Nat.add_le_add_left (le_tick _) _) (Nat.le_add_right _ _)) h
    rw [pausesTime, suspension_of_lt hd, ih h, pausesLength]

/-- The first of several pauses is over after itself. -/
theorem Course.pauseEnds_cons (limit : Nat) {start : Nat} (ht : OnTick start) (d : Duration) (rest : List Duration) :
    pauseEnds limit .suspended start (d :: rest) = (start + suspension limit start d) ::
      pauseEnds limit .suspended (start + suspension limit start d) rest := by
  have hend : max start (Pace.suspended.wake (Pace.suspended.instantAfter limit start d)) =
      start + suspension limit start d := by
    rw [Pace.wake, wake_instantAfter ht]; exact Nat.max_eq_right (Nat.le_add_right _ _)
  rw [pauseEnds, hend]

/-- No pause is over before it begins. -/
theorem Course.le_of_mem_pauseEnds (limit : Nat) (ds : List Duration) :
    ∀ {start : Nat}, OnTick start → ∀ t ∈ pauseEnds limit .suspended start ds, start ≤ t := by
  induction ds with
  | nil => simp [pauseEnds]
  | cons d rest ih =>
    intro start ht t hmem
    rw [pauseEnds_cons limit ht] at hmem
    rcases List.mem_cons.1 hmem with rfl | hmem
    · exact Nat.le_add_right _ _
    · exact Nat.le_trans (Nat.le_add_right _ _) (ih (ht.add (onTick_suspension limit start d)) t hmem)

theorem Course.le_pausesTime_of_mem_pauseEnds (limit : Nat) (ds : List Duration) :
    ∀ {start : Nat}, OnTick start → ∀ t ∈ pauseEnds limit .suspended start ds,
      t ≤ start + pausesTime limit start ds := by
  induction ds with
  | nil => simp [pauseEnds]
  | cons d rest ih =>
    intro start ht t hmem
    rw [pauseEnds_cons limit ht] at hmem
    rw [pausesTime, ← Nat.add_assoc]
    rcases List.mem_cons.1 hmem with rfl | hmem
    · exact Nat.le_add_right _ _
    · exact ih (ht.add (onTick_suspension limit start d)) t hmem

/-- The last pause is over when all have been slept through. -/
theorem Course.getLastD_pauseEnds (limit : Nat) (ds : List Duration) :
    ∀ {start : Nat}, OnTick start →
      (pauseEnds limit .suspended start ds).getLastD start = start + pausesTime limit start ds := by
  induction ds with
  | nil => intro start _; rfl
  | cons d rest ih =>
    intro start ht
    rw [pauseEnds_cons limit ht, List.getLastD_cons, ih (ht.add (onTick_suspension limit start d)), pausesTime,
      Nat.add_assoc]

theorem Course.length_pauseEnds (limit : Nat) (pace : Pace) (ds : List Duration) :
    ∀ start, (pauseEnds limit pace start ds).length = ds.length := by
  induction ds with
  | nil => intro _; rfl
  | cons d rest ih => intro start; rw [pauseEnds, List.length_cons, List.length_cons, ih]

/-- A tally after one more call began. -/
def Tally.begun (t : Tally) : Tally := { t with started := t.started + 1 }

/-- A tally after more pauses. -/
def Tally.stepped (t : Tally) (n : Nat) : Tally := { t with steps := t.steps + n }

theorem Tally.stepped_stepped (t : Tally) (m n : Nat) : (t.stepped m).stepped n = t.stepped (n + m) := by
  rw [stepped, stepped, stepped, Nat.add_assoc, Nat.add_comm m]

namespace Call

variable {cell : Cell σ Tally}

/-- The first of several pauses, slept through by somebody who waits for it. -/
theorem sleepThrough_cons (hc : cell.Lawful) {w : World σ} (ht : OnTick w.now) (d : Duration) (rest : List Duration)
    (hh : ∀ h, w.suspended.horizon = some h → w.now + suspension w.instantLimit w.now d ≤ h) :
    ∃ s, sleepThrough .suspended cell (d :: rest) w =
        sleepThrough .suspended cell rest (w.moved s (w.now + suspension w.instantLimit w.now d)) ∧
      cell.read s = (cell.read w.own).stepped 1 := by
  refine ⟨cell.write { cell.read w.own with steps := (cell.read w.own).steps + 1 } w.own, ?_, ?_⟩
  · rw [sleepThrough, Act.bind_of_done (Act.sleep_within ht d hh), Act.bind_of_done (Cell.modify_moved ..)]
  · rw [hc.read_write, Tally.stepped]

/-- Pauses that somebody waits for to their end. -/
theorem sleepThrough_within (hc : cell.Lawful) (ds : List Duration) :
    ∀ {w : World σ}, OnTick w.now →
      (∀ h, w.suspended.horizon = some h → w.now + pausesTime w.instantLimit w.now ds ≤ h) →
      ∃ s, sleepThrough .suspended cell ds w = (.done (), w.moved s (w.now + pausesTime w.instantLimit w.now ds)) ∧
        cell.read s = (cell.read w.own).stepped ds.length := by
  induction ds with
  | nil => intro w _ _; exact ⟨w.own, rfl, rfl⟩
  | cons d rest ih =>
    intro w ht hh
    rw [pausesTime] at hh
    obtain ⟨s, hfirst, hs⟩ := sleepThrough_cons hc ht d rest fun h hor =>
      Nat.le_trans (Nat.add_le_add_left (Nat.le_add_right _ _) _) (hh h hor)
    have ht' := World.onTick_moved (ht.add (onTick_suspension w.instantLimit w.now d)) w s
    obtain ⟨s', hrest, hs'⟩ := ih ht' fun h hor => by
      rw [World.horizon_moved] at hor
      rw [World.instantLimit_moved, World.now_moved, Nat.add_assoc]
      exact hh h hor
    refine ⟨s', ?_, ?_⟩
    · rw [hfirst, hrest, World.moved_moved, World.instantLimit_moved, World.now_moved, pausesTime, Nat.add_assoc]
    · rw [hs', World.own_moved, hs, Tally.stepped_stepped, List.length_cons]

/-- Pauses of which one passes the horizon. The ones before it are over. -/
theorem sleepThrough_past (hc : cell.Lawful) (ds : List Duration) :
    ∀ {w : World σ} {h : Nat}, OnTick w.now → w.suspended.horizon = some h → w.now ≤ h →
      h < w.now + pausesTime w.instantLimit w.now ds →
      ∃ s, sleepThrough .suspended cell ds w = (.abandoned, w.moved s h) ∧ cell.read s =
        (cell.read w.own).stepped ((Course.pauseEnds w.instantLimit .suspended w.now ds).filter (· ≤ h)).length := by
  induction ds with
  | nil => intro w h _ _ hle hlt; exact absurd hlt (Nat.not_lt.2 hle)
  | cons d rest ih =>
    intro w h ht hor hle hlt
    rw [pausesTime, ← Nat.add_assoc] at hlt
    by_cases hd : h < w.now + suspension w.instantLimit w.now d
    · -- The first pause passes it, and no later one is over before.
      have hnone : (Course.pauseEnds w.instantLimit .suspended w.now (d :: rest)).filter (· ≤ h) = [] := by
        rw [Course.pauseEnds_cons _ ht, List.filter_eq_nil_iff]
        intro t hmem
        have hle : w.now + suspension w.instantLimit w.now d ≤ t := by
          rcases List.mem_cons.1 hmem with rfl | hmem
          · exact Nat.le_refl _
          · exact Course.le_of_mem_pauseEnds _ rest (ht.add (onTick_suspension _ _ d)) t hmem
        rw [decide_eq_true_iff]
        omega
      refine ⟨w.own, ?_, by rw [hnone]; rfl⟩
      rw [sleepThrough, Act.bind_of_abandoned (Act.sleep_past ht d hor hle hd)]
    · have hfit : w.now + suspension w.instantLimit w.now d ≤ h := Nat.le_of_not_lt hd
      obtain ⟨s, hfirst, hs⟩ := sleepThrough_cons hc ht d rest fun h' hor' => by
        cases hor.symm.trans hor'; exact hfit
      have ht' := World.onTick_moved (ht.add (onTick_suspension w.instantLimit w.now d)) w s
      obtain ⟨s', hrest, hs'⟩ := ih ht' (by rw [World.horizon_moved]; exact hor) (by rw [World.now_moved]; exact hfit)
        (by rw [World.instantLimit_moved, World.now_moved]; exact hlt)
      refine ⟨s', ?_, ?_⟩
      · rw [hfirst, hrest, World.moved_moved]
      · rw [hs', World.own_moved, World.instantLimit_moved, World.now_moved, hs, Tally.stepped_stepped,
          Course.pauseEnds_cons _ ht, List.filter_cons_of_pos (by simpa using hfit), List.length_cons]

/-! ## Calls -/

/-- When a call ends after it began, if it ever ends, for pauses that take some time. -/
def endsAfter (c : Call ε α) (time : List Duration → Nat) : Option Nat :=
  match c.ending with
  | .never => none
  | _ => some (time c.pauses)

/-- How long a call takes that begins at an instant, if it ever ends. -/
def latency (limit now : Nat) (c : Call ε α) : Option Nat := c.endsAfter (pausesTime limit now)

/-- How long a call is, if it ever ends. -/
def length (c : Call ε α) : Option Nat := c.endsAfter pausesLength

end Call

/-- What a call comes to. One that never ends may be said to come to anything. -/
inductive Ending.ComesTo : Ending ε α → Except ε α → Prop where
  | value (a : α) : ComesTo (.value a) (.ok a)
  | failure (e : ε) : ComesTo (.failure e) (.error e)
  | never (o : Except ε α) : ComesTo .never o

/-- How a call ends for somebody who waits for ever. -/
def Ending.ended : Ending ε α → Ended (Except ε α)
  | .value a => .done (.ok a)
  | .failure e => .done (.error e)
  | .panic m => .panicked m
  | .never => .abandoned

theorem Ending.ComesTo.ended {ending : Ending ε α} {o : Except ε α} (h : ending.ComesTo o) (hne : ending ≠ .never) :
    ending.ended = .done o := by
  cases h with
  | value a => rfl
  | failure e => rfl
  | never => exact absurd rfl hne

/-- A tally after a call came to its end. -/
def Tally.concluded (t : Tally) : Ending ε α → Tally
  | .value _ | .failure _ => { t with finished := t.finished + 1 }
  | .panic _ | .never => t

theorem Tally.started_concluded (t : Tally) (ending : Ending ε α) : (t.concluded ending).started = t.started := by
  cases ending <;> rfl

namespace Call

variable {cell : Cell σ Tally}

/-- A call that ends, after its pauses. -/
theorem conclude_ends (hc : cell.Lawful) {ending : Ending ε α} (hne : ending ≠ .never) (w : World σ) (s : σ) (t : Nat) :
    ∃ s', conclude .suspended cell ending (w.moved s t) = (ending.ended, w.moved s' t) ∧
      cell.read s' = (cell.read s).concluded ending := by
  cases ending with
  | value a => exact ⟨_, Act.bind_of_done (Cell.modify_moved ..), hc.read_write ..⟩
  | failure e => exact ⟨_, Act.bind_of_done (Cell.modify_moved ..), hc.read_write ..⟩
  | panic m => exact ⟨s, rfl, rfl⟩
  | never => exact absurd rfl hne

variable {c : Call ε α} {time : List Duration → Nat} {l : Nat}

theorem endsAfter_of_ne (h : c.ending ≠ .never) : c.endsAfter time = some (time c.pauses) := by
  unfold endsAfter
  split
  · rename_i hn; exact absurd hn h
  · rfl

theorem of_endsAfter (h : c.endsAfter time = some l) : c.ending ≠ .never ∧ l = time c.pauses := by
  have hne : c.ending ≠ .never := fun hn => by rw [endsAfter, hn] at h; cases h
  rw [endsAfter_of_ne hne] at h
  exact ⟨hne, (Option.some.inj h).symm⟩

end Call

/-! ## Calls that nobody waits for -/

/-- No call that nobody waits for comes between the call of a job and its number. Calls that are numbered when
they begin have theirs already; of the others those that block a thread keep to a clock of their own. -/
def Job.Undisturbed (j : Job σ ε α) (w : World σ) : Prop :=
  j.work.counting = .starts ∨ ∀ s ∈ (j.tally w).stragglers, s.pace = .blocking

/-- Since a world no call came to an end and none was left to itself. -/
structure Job.Still (j : Job σ ε α) (w v : World σ) : Prop where
  finished : (j.tally v).finished = (j.tally w).finished
  stragglers : (j.tally v).stragglers = (j.tally w).stragglers
  blocking : v.blocking = w.blocking

/-- Stragglers that block threads come to their ends as the clock of the threads says. -/
theorem filter_over_congr {stragglers : List Straggler} {w v : World σ} (hs : ∀ s ∈ stragglers, s.pace = .blocking)
    (hblocking : v.blocking = w.blocking) : stragglers.filter (fun s => (v.clock s.pace).isOver s.finish) =
      stragglers.filter fun s => (w.clock s.pace).isOver s.finish :=
  List.filter_congr fun s hmem => by
    rw [hs s hmem]
    exact congrArg (Clock.isOver · s.finish) hblocking

namespace Job

variable {j : Job σ ε α} {w v : World σ}

theorem Still.finishedIn (h : j.Still w v) (hs : ∀ s ∈ (j.tally w).stragglers, s.pace = .blocking) :
    (j.tally v).finishedIn v = (j.tally w).finishedIn w := by
  rw [Tally.finishedIn, Tally.finishedIn, h.finished, h.stragglers, filter_over_congr hs h.blocking]

theorem Still.next (h : j.Still w v) (hu : j.Undisturbed w) (hstarted : (j.tally v).started = (j.tally w).started) :
    j.next v = j.next w := by
  have hcalls : j.calls v = j.calls w := by
    unfold calls
    cases hc : j.work.counting with
    | starts => exact hstarted
    | finishes => exact h.finishedIn (hu.resolve_left (by rw [hc]; nofun))
  rw [Job.next, Job.next, hcalls]

/-- A call that began in one world ends in another one as it would have ended at once. -/
theorem Still.ending (h : j.Still w v) (hu : j.Undisturbed w) : j.ending (j.next w) v = (j.next w).ending := by
  unfold Job.ending
  cases hc : j.work.counting with
  | starts => rfl
  | finishes =>
    have hcalls : j.calls v = j.calls w := by
      simp only [calls, hc]
      exact h.finishedIn (hu.resolve_left (by rw [hc]; nofun))
    simp only [Job.next, hcalls]

/-! ## Calls of a job -/

/-- How long the next call of a job takes in a world, if it ever ends. -/
def latency (j : Job σ ε α) (w : World σ) : Option Nat := (j.next w).latency w.instantLimit w.now

/-- When the pauses of the next call of a job are over, if it goes on that long. -/
def pausesDue (j : Job σ ε α) (w : World σ) : List Nat :=
  Course.pauseEnds w.instantLimit .suspended w.now (j.next w).pauses

/-- How long the pauses of the next call of a job take. -/
def pausesTime (j : Job σ ε α) (w : World σ) : Nat := CallGuard.pausesTime w.instantLimit w.now (j.next w).pauses

/-- The state after one more call began. -/
def begun (cell : Cell σ Tally) (s : σ) : σ := cell.write (cell.read s).begun s

theorem read_begun {cell : Cell σ Tally} (hc : cell.Lawful) (s : σ) : cell.read (begun cell s) = (cell.read s).begun :=
  hc.read_write ..

/-- A call of a job, from its beginning on. -/
theorem run_begun (j : Job σ ε α) (w : World σ) :
    j.run .suspended w =
      (Call.sleepThrough .suspended j.cell (j.next w).pauses >>= fun _ =>
        Act.read (j.ending (j.next w)) >>= fun ending => Call.conclude .suspended j.cell ending)
      (w.moved (begun j.cell w.own) w.now) := rfl

/-- A call whose pauses somebody waits for is at its end after them. -/
theorem run_slept (hc : j.cell.Lawful) (ht : OnTick w.now) (hu : j.Undisturbed w)
    (hh : ∀ h, w.suspended.horizon = some h → w.now + j.pausesTime w ≤ h) :
    ∃ s, j.run .suspended w = Call.conclude .suspended j.cell (j.next w).ending
        (w.moved s (w.now + j.pausesTime w)) ∧
      j.cell.read s = (j.tally w).begun.stepped (j.next w).pauses.length := by
  obtain ⟨s, hsleep, hs⟩ := Call.sleepThrough_within hc _ (w := w.moved (begun j.cell w.own) w.now) ht hh
  rw [World.own_moved, read_begun hc] at hs
  have hstill : j.Still w (w.moved s (w.now + j.pausesTime w)) :=
    ⟨(congrArg Tally.finished hs :), (congrArg Tally.stragglers hs :), rfl⟩
  have hread : Act.read (j.ending (j.next w)) (w.moved s (w.now + j.pausesTime w)) =
      (.done (j.next w).ending, _) := congrArg (fun e => (Ended.done e, _)) (hstill.ending hu)
  refine ⟨s, ?_, hs⟩
  rw [run_begun, Act.bind_of_done hsleep, World.moved_moved, World.instantLimit_moved, World.now_moved]
  exact Act.bind_of_done hread

/-- A call that ends, for somebody who waits for it. -/
theorem run_ends (hc : j.cell.Lawful) (ht : OnTick w.now) (hu : j.Undisturbed w) (hne : (j.next w).ending ≠ .never)
    (hh : ∀ h, w.suspended.horizon = some h → w.now + j.pausesTime w ≤ h) :
    ∃ s, j.run .suspended w = ((j.next w).ending.ended, w.moved s (w.now + j.pausesTime w)) ∧
      j.cell.read s = ((j.tally w).begun.stepped (j.next w).pauses.length).concluded (j.next w).ending := by
  obtain ⟨s, hrun, hs⟩ := run_slept hc ht hu hh
  obtain ⟨s', hend, hs'⟩ := Call.conclude_ends hc hne w s (w.now + j.pausesTime w)
  exact ⟨s', hrun.trans hend, by rw [hs', hs]⟩

/-- A call that does not end by the horizon is dropped there, with the pauses that are over by then. -/
theorem run_dropped (hc : j.cell.Lawful) (ht : OnTick w.now) (hu : j.Undisturbed w) {h : Nat}
    (hor : w.suspended.horizon = some h) (hle : w.now ≤ h) (hlong : ∀ l, j.latency w = some l → h < w.now + l) :
    ∃ s, j.run .suspended w = (.abandoned, w.moved s h) ∧
      j.cell.read s = (j.tally w).begun.stepped ((j.pausesDue w).filter (· ≤ h)).length := by
  by_cases hpast : h < w.now + j.pausesTime w
  · obtain ⟨s, hsleep, hs⟩ := Call.sleepThrough_past hc _ (w := w.moved (begun j.cell w.own) w.now) ht hor hle hpast
    refine ⟨s, ?_, by rw [hs, World.own_moved, World.now_moved, read_begun hc]; rfl⟩
    rw [run_begun, Act.bind_of_abandoned hsleep, World.moved_moved]
  · -- All pauses are over at the horizon, so the call is one that never ends.
    have hfit := Nat.le_of_not_lt hpast
    have hnever : (j.next w).ending = .never :=
      Classical.byContradiction fun hne => hpast (hlong _ (Call.endsAfter_of_ne hne))
    have hall : (j.pausesDue w).filter (· ≤ h) = j.pausesDue w := List.filter_eq_self.2 fun t hmem =>
      decide_eq_true (Nat.le_trans (Course.le_pausesTime_of_mem_pauseEnds _ _ ht t hmem) hfit)
    obtain ⟨s, hrun, hs⟩ := run_slept hc ht hu fun h' hor' => by cases hor.symm.trans hor'; exact hfit
    refine ⟨s, ?_, by rw [hs, hall, pausesDue, Course.length_pauseEnds]⟩
    rw [hrun, hnever]
    exact Act.hang_past (w := w.moved s _) hor hfit

end Job

namespace Job

variable {script : Nat → Call ε α} {cell : Cell σ Tally}

/-- A call of a job whose calls are numbered when they begin. -/
theorem run_starts (script : Nat → Call ε α) (cell : Cell σ Tally) (w : World σ) :
    Job.run ⟨⟨.starts, script⟩, cell⟩ .suspended w =
      (Call.sleepThrough .suspended cell (script ((cell.read w.own).started + 1)).pauses >>= fun _ =>
        Call.conclude .suspended cell (script ((cell.read w.own).started + 1)).ending)
      (w.moved (begun cell w.own) w.now) := rfl

/-- A scripted job takes what its script says. -/
theorem takes (hc : cell.Lawful) {outcome : Nat → Except ε α} (ho : ∀ k, (script k).ending.ComesTo (outcome k)) :
    Takes (Job.run ⟨⟨.starts, script⟩, cell⟩ .suspended) (fun s => (cell.read s).started)
      (fun k => (script k).length) outcome where
  ends := by
    intro w l ht hl hend hh
    obtain ⟨hne, rfl⟩ := Call.of_endsAfter hl
    have htime : Job.pausesTime ⟨⟨.starts, script⟩, cell⟩ w =
        pausesLength (script ((cell.read w.own).started + 1)).pauses := pausesTime_of_lt _ hend
    rw [tick_eq_self (onTick_pausesLength _), ← htime] at hh ⊢
    obtain ⟨s, hrun, hs⟩ := run_ends (j := ⟨⟨.starts, script⟩, cell⟩) hc ht (.inl rfl) hne hh
    refine ⟨s, ?_, by rw [hs, Tally.started_concluded]; rfl⟩
    exact hrun.trans (congrArg (·, _) ((ho _).ended hne))
  drops := by
    intro w h ht hor hle hlong
    obtain ⟨s, hrun, hs⟩ := run_dropped (j := ⟨⟨.starts, script⟩, cell⟩) hc ht (.inl rfl) hor hle fun l hl => by
      obtain ⟨hne, rfl⟩ := Call.of_endsAfter hl
      obtain ⟨hend, hlate⟩ := hlong _ (Call.endsAfter_of_ne hne)
      rw [tick_eq_self (onTick_pausesLength _)] at hlate
      rwa [← pausesTime_of_lt _ hend] at hlate
    exact ⟨s, hrun, by rw [hs]; rfl⟩

end Job

end CallGuard

/-
Properties of acts that hold of whatever is put together from waits, changes of the work's own state and ends
(`Act.Closed`). Scripted work is put together in this way, so jobs (`Job.closed_run`) and feeds (`Feed.closed_poll`)
have every property of this kind.
-/
import CallGuard.Work.Feed

namespace CallGuard

variable {σ ε α : Type}

/-- A property that the parts of scripted work have at a pace, and that one act after another keeps. -/
structure Act.Closed (pace : Pace) (P : ∀ α : Type, Act σ α → Prop) : Prop where
  done : ∀ {α : Type} (a : α), P α (pure a)
  panic : ∀ {α : Type} (m : String), P α (Act.panic m)
  modifyOwn : ∀ {α : Type} (f : σ → α × σ), P α (Act.modifyOwn f)
  sleep : ∀ d : Duration, P Unit (Act.sleep pace d)
  hang : ∀ {α : Type}, P α (Act.hang pace)
  bind : ∀ {α β : Type} {x : Act σ α} {f : α → Act σ β}, P α x → (∀ a, P β (f a)) → P β (x >>= f)

variable {pace : Pace} {P : ∀ α : Type, Act σ α → Prop}

/-! ## Jobs -/

theorem Call.closed_sleepThrough (h : Act.Closed pace P) (cell : Cell σ Tally) (ds : List Duration) :
    P Unit (Call.sleepThrough pace cell ds) := by
  induction ds with
  | nil => exact h.done ()
  | cons d rest ih => exact h.bind (h.sleep d) fun _ => h.bind (h.modifyOwn _) fun _ => ih

theorem Call.closed_conclude (h : Act.Closed pace P) (cell : Cell σ Tally) (ending : Ending ε α) :
    P (Except ε α) (Call.conclude pace cell ending) := by
  cases ending with
  | value a => exact h.bind (h.modifyOwn _) fun _ => h.done _
  | failure e => exact h.bind (h.modifyOwn _) fun _ => h.done _
  | panic m => exact h.panic m
  | never => exact h.hang

/-- What a job reads off the world is up to how its calls are counted. -/
theorem Job.closed_run (h : Act.Closed pace P) (j : Job σ ε α) (hnext : P _ (Act.read j.next))
    (hending : ∀ call, P _ (Act.read (j.ending call))) : P (Except ε α) (j.run pace) :=
  h.bind hnext fun call => h.bind (h.modifyOwn _) fun _ => h.bind (Call.closed_sleepThrough h j.cell call.pauses) fun _ =>
    h.bind (hending call) fun ending => Call.closed_conclude h j.cell ending

/-- A job whose calls are numbered when they begin reads nothing but its tally. -/
theorem Job.closed_run_starts (h : Act.Closed pace P) (script : Nat → Call ε α) (cell : Cell σ Tally) :
    P (Except ε α) (Job.run ⟨⟨.starts, script⟩, cell⟩ pace) :=
  Job.closed_run h _ (h.modifyOwn fun s => (script ((cell.read s).started + 1), s)) fun call => h.done call.ending

/-! ## Feeds -/

theorem Feed.closed_sleepThrough (h : Act.Closed .suspended P) (ds : List Duration) : P Unit (Feed.sleepThrough ds) := by
  induction ds with
  | nil => exact h.done ()
  | cons d rest ih => exact h.bind (h.sleep d) fun _ => ih

theorem Feed.closed_poll (h : Act.Closed .suspended P) (cell : Cell σ FeedTally) (p : List (Call ε α)) :
    P _ (Feed.poll cell p) := by
  cases p with
  | nil => exact h.done none
  | cons c rest =>
    refine h.bind (Feed.closed_sleepThrough h c.pauses) fun _ => ?_
    cases c.ending with
    | value a => exact h.bind (h.modifyOwn _) fun _ => h.done _
    | failure e => exact h.bind (h.modifyOwn _) fun _ => h.done _
    | panic m => exact h.panic m
    | never => exact h.hang

end CallGuard

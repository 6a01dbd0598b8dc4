/-
How often work is called, as any count in its own state tells (`Act.Adds`): an act adds to a count if it raises it
by as much however it ends, and keeps it if it adds nothing. Deadlines neither add calls nor take any away
(`TimeLimit.adds_run`, `TimeLimit.adds_poll`), and a consumer of a stream whose polls keep a count keeps it
(`Reads.adds`). Scripted work counts its own calls (`Job.adds_run`, `Feed.adds_subscribe`).
-/
import CallGuard.Proofs.Stream.Reading
import CallGuard.Proofs.Timeout.Gap
import CallGuard.Proofs.Work.Latency

namespace CallGuard

variable {σ ρ κ ε α β γ : Type} {count : σ → Nat} {n : Nat}

namespace Act

/-- A run of an act raises a count by so much, however it ends. -/
def Adds (count : σ → Nat) (n : Nat) (x : Act σ α) : Prop := ∀ w, count (x w).2.own = count w.own + n

variable {x : Act σ α} {w w' : World σ}

theorem Adds.of_eq (hx : x.Adds count n) {out : Ended α} (h : x w = (out, w')) : count w'.own = count w.own + n := by
  have hw := hx w
  rwa [h] at hw

theorem adds_pure (a : α) : (pure a : Act σ α).Adds count 0 := fun _ => rfl

theorem adds_panic (m : String) : (panic m : Act σ α).Adds count 0 := fun _ => rfl

theorem adds_modifyOwn {f : σ → α × σ} (h : ∀ s, count (f s).2 = count s + n) : (modifyOwn f).Adds count n :=
  fun w => h w.own

theorem adds_waitUntil (pace : Pace) (t : Option Nat) : (waitUntil pace t : Act σ Unit).Adds count 0 := fun w => by
  unfold waitUntil
  split <;> exact congrArg count (World.own_setClock w pace _)

theorem adds_sleep (pace : Pace) (d : Duration) : (sleep pace d : Act σ Unit).Adds count 0 := fun w =>
  adds_waitUntil pace _ w

theorem adds_hang (pace : Pace) : (hang pace : Act σ α).Adds count 0 := fun w => adds_waitUntil pace none w

/-- What follows an act may not come to run, so it may not add anything. -/
theorem Adds.bind {f : α → Act σ β} (hx : x.Adds count n) (hf : ∀ a, (f a).Adds count 0) : (x >>= f).Adds count n :=
  fun w => by
    have hw := hx w
    rcases hrun : x w with ⟨a | m | _, v⟩ <;> rw [hrun] at hw
    · rw [bind_of_done hrun]
      exact (hf a v).trans hw
    · rwa [bind_of_panicked hrun]
    · rwa [bind_of_abandoned hrun]

/-- What follows a look at the world does run. -/
theorem Adds.of_read {f : World σ → α} {g : α → Act σ β} (h : ∀ a, (g a).Adds count n) :
    (read f >>= g).Adds count n := fun w => h (f w) w

theorem Adds.relabel {x : Act σ (Option (β × ρ))} (hx : x.Adds count n) (f : β → γ) (g : ρ → κ) :
    (relabel f g x).Adds count n := hx.bind fun _ => adds_pure _

/-- An act under a deadline. -/
theorem Adds.before (hx : x.Adds count n) (pace : Pace) (deadline : Nat) : (before pace deadline x).Adds count n :=
  fun w => by
    have h := hx (w.setClock pace { w.clock pace with horizon := some (earlier (w.clock pace).horizon deadline) })
    rw [World.own_setClock] at h
    rw [Act.before]
    rcases hrun : x _ with ⟨a | m | _, v⟩ <;> rw [hrun] at h <;> simpa using h

end Act

/-- A count of the subscriptions to a source, which polls do not raise. -/
structure Source.Counted (source : Source σ ρ β) (count : σ → Nat) : Prop where
  subscribe : source.subscribe.Adds count 1
  poll : ∀ p, (source.poll p).Adds count 0

/-! ## Deadlines -/

namespace TimeLimit

theorem adds_run (t : TimeLimit) {work : Act σ (Except ε α)} (h : work.Adds count n) : (t.run work).Adds count n :=
  fun w => by
    rcases hrun : t.run work w with ⟨out, v⟩
    cases runsTo.2 hrun with
    | missed limited | kept _ limited =>
      have hcount := (h.before _ _).of_eq limited
      exact hcount

theorem adds_poll (t : TimeLimit) {producer : Poll σ ρ (Except ε α)} (h : ∀ p, (producer p).Adds count 0) (g : Gap ρ) :
    Act.Adds count 0 (t.poll producer g) := fun w => by
  rcases hpoll : t.poll producer g w with ⟨out, v⟩
  cases pollsTo hpoll with
  | dropped _ | overflow _ _ | late _ _ => rfl
  | missed _ _ limited | answered _ _ _ limited =>
    have hcount := ((h _).before _ _).of_eq limited
    exact hcount

end TimeLimit

/-! ## Consumers -/

/-- What a consumer's polls and whatever passes meanwhile keep is kept. -/
theorem Reads.adds {poll : Poll σ κ β} {meanwhile : World σ → World σ → Prop} {k₀ : κ} {w₀ w : World σ} {items : List β}
    {phase : Phase κ} (h : Reads poll meanwhile k₀ w₀ items phase w) (hpoll : ∀ k, (poll k).Adds count 0)
    (hmeanwhile : ∀ v v', meanwhile v v' → count v'.own = count v.own) : count w.own = count w₀.own := by
  induction h with
  | start => rfl
  | idle _ passes ih => exact (hmeanwhile _ _ passes).trans ih
  | polled _ call ih => exact ((hpoll _).of_eq call).trans ih

/-! ## Scripted work -/

section Script

/-- A job and a feed side by side. -/
structure Tallies where
  job : Tally := {}
  feed : FeedTally := {}

def Tallies.jobCell : Cell Tallies Tally := ⟨job, fun t s => { s with job := t }⟩

def Tallies.feedCell : Cell Tallies FeedTally := ⟨feed, fun t s => { s with feed := t }⟩

theorem Tallies.jobCell_lawful : jobCell.Lawful := ⟨fun _ _ => rfl⟩

theorem Tallies.feedCell_lawful : feedCell.Lawful := ⟨fun _ _ => rfl⟩

/-- A change of a part of the state adds as much as the part says. -/
theorem Cell.adds_modify {τ : Type} {cell : Cell σ τ} (hc : cell.Lawful) {part : τ → Nat} {f : τ → τ}
    (h : ∀ t, part (f t) = part t + n) : (cell.modify f).Adds (fun s => part (cell.read s)) n :=
  Act.adds_modifyOwn fun s => by rw [hc.read_write, h]

/-- A job counts a call when it begins. -/
theorem Job.adds_run (j : Job σ ε α) (hc : j.cell.Lawful) (pace : Pace) :
    (j.run pace).Adds (fun s => (j.cell.read s).started) 1 := by
  have hslept : ∀ ds, (Call.sleepThrough pace j.cell ds).Adds (fun s => (j.cell.read s).started) 0 := fun ds => by
    induction ds with
    | nil => exact Act.adds_pure ()
    | cons d rest ih =>
      exact (Act.adds_sleep pace d).bind fun _ => (Cell.adds_modify hc fun _ => rfl).bind fun _ => ih
  have hconcluded : ∀ ending : Ending ε α,
      (Call.conclude pace j.cell ending).Adds (fun s => (j.cell.read s).started) 0 := fun ending => by
    cases ending with
    | value a => exact (Cell.adds_modify hc fun _ => rfl).bind fun _ => Act.adds_pure _
    | failure e => exact (Cell.adds_modify hc fun _ => rfl).bind fun _ => Act.adds_pure _
    | panic m => exact Act.adds_panic m
    | never => exact Act.adds_hang pace
  exact .of_read fun call => (Cell.adds_modify hc fun _ => rfl).bind fun _ => (hslept call.pauses).bind fun _ =>
    .of_read hconcluded

variable {cell : Cell σ FeedTally}

/-- A feed counts its subscriptions. -/
theorem Feed.adds_subscribe (f : Feed ε α) (hc : cell.Lawful) :
    (f.subscribe cell).Adds (fun s => (cell.read s).subscribed) 1 := fun w => by
  have hcount : (cell.modify fun t => { t with subscribed := t.subscribed + 1 }).Adds
      (fun s => (cell.read s).subscribed) 1 := Cell.adds_modify hc fun _ => rfl
  exact hcount.bind (fun _ => Act.adds_pure (f.subscription (cell.read w.own).subscribed)) w

theorem Feed.adds_poll (hc : cell.Lawful) (p : List (Call ε α)) :
    (Feed.poll cell p).Adds (fun s => (cell.read s).subscribed) 0 := by
  have hslept : ∀ ds, (Feed.sleepThrough ds).Adds (fun s => (cell.read s).subscribed) 0 := fun ds => by
    induction ds with
    | nil => exact Act.adds_pure ()
    | cons d rest ih => exact (Act.adds_sleep .suspended d).bind fun _ => ih
  cases p with
  | nil => exact Act.adds_pure none
  | cons c rest =>
    refine (hslept c.pauses).bind fun _ => ?_
    cases c.ending with
    | value a => exact (Cell.adds_modify hc fun _ => rfl).bind fun _ => Act.adds_pure _
    | failure e => exact (Cell.adds_modify hc fun _ => rfl).bind fun _ => Act.adds_pure _
    | panic m => exact Act.adds_panic m
    | never => exact Act.adds_hang .suspended

theorem Feed.counted (f : Feed ε α) (hc : cell.Lawful) : (f.source cell).Counted fun s => (cell.read s).subscribed :=
  ⟨f.adds_subscribe hc, Feed.adds_poll hc⟩

end Script

end CallGuard

/-
Scripted work: each call sleeps through its pauses and then ends with a value, a failure, a panic or
never. A tally counts what calls have come to; it is part of the state of the world, found through a
`Cell`. A call that is dropped in the middle keeps the counts that it had. One that nobody can stop
goes on as a straggler: the tally holds the instant at which it ends, and counts it from then on.
-/
import CallGuard.Run.Act

namespace CallGuard

/-! ## Calls -/

/-- How a call or an element ends. -/
inductive Ending (ε α : Type) where
  | value (a : α)
  | failure (e : ε)
  | panic (message : String)
  | never

/-- One scripted call: pauses, then an end. -/
structure Call (ε α : Type) where
  pauses : List Duration := []
  ending : Ending ε α

/-! ## Tallies -/

/-- A call that goes on although nobody waits for it, and when it comes to a value or a failure. -/
structure Straggler where
  pace : Pace
  finish : Nat
deriving DecidableEq

/-- How many calls began, how many of their pauses were slept through while somebody waited, and how
many of these calls came to a value or a failure; and the calls that nobody waits for. -/
structure Tally where
  started : Nat := 0
  steps : Nat := 0
  finished : Nat := 0
  stragglers : List Straggler := []
deriving DecidableEq, Inhabited

/-- The calls that came to a value or a failure: a straggler once its end is over. -/
def Tally.finishedIn {σ : Type} (t : Tally) (w : World σ) : Nat :=
  t.finished + (t.stragglers.filter fun s => (w.clock s.pace).isOver s.finish).length

/-! ## Cells -/

/-- A part of a larger state. -/
structure Cell (σ τ : Type) where
  read : σ → τ
  write : τ → σ → σ

namespace Cell

variable {σ τ : Type}

/-- The whole state. -/
def whole : Cell τ τ := ⟨id, fun t _ => t⟩

/-- Changes the part. -/
def modify (c : Cell σ τ) (f : τ → τ) : Act σ Unit :=
  Act.modifyOwn fun s => ((), c.write (f (c.read s)) s)

/-- Reads the part. -/
def get (c : Cell σ τ) : Act σ τ := Act.modifyOwn fun s => (c.read s, s)

end Cell

/-! ## Performing calls -/

namespace Call

variable {σ ε α : Type}

/-- Sleeps through pauses one after the other. -/
def sleepThrough (pace : Pace) (cell : Cell σ Tally) : List Duration → Act σ Unit
  | [] => pure ()
  | d :: rest => do
    Act.sleep pace d
    cell.modify fun t => { t with steps := t.steps + 1 }
    sleepThrough pace cell rest

/-- Comes to an end. -/
def conclude (pace : Pace) (cell : Cell σ Tally) : Ending ε α → Act σ (Except ε α)
  | .value a => do
    cell.modify fun t => { t with finished := t.finished + 1 }
    pure (.ok a)
  | .failure e => do
    cell.modify fun t => { t with finished := t.finished + 1 }
    pure (.error e)
  | .panic m => Act.panic m
  | .never => Act.hang pace

end Call

/-! ## Work -/

/-- What numbers the calls of some work. -/
inductive Counting where
  /-- The calls that began; a call gets its number when it begins. -/
  | starts
  /-- The calls that came to a value or a failure; a call gets its number when it ends. -/
  | finishes
deriving DecidableEq

/-- Work with a script: the call of each number, from one. -/
structure Work (ε α : Type) where
  counting : Counting
  call : Nat → Call ε α

/-- Work whose calls follow a list; the last one repeats. -/
def Work.ofCalls {ε α : Type} (first : Call ε α) (others : List (Call ε α)) : Work ε α where
  counting := .starts
  call k := ((first :: others)[k - 1]?).getD (others.getLastD first)

/-- Work, and where its tally is kept. -/
structure Job (σ ε α : Type) where
  work : Work ε α
  cell : Cell σ Tally

namespace Job

variable {σ ε α : Type}

def tally (j : Job σ ε α) (w : World σ) : Tally := j.cell.read w.own

/-- The number of calls so far. -/
def calls (j : Job σ ε α) (w : World σ) : Nat :=
  match j.work.counting with
  | .starts => (j.tally w).started
  | .finishes => (j.tally w).finishedIn w

/-- The call that comes next. -/
def next (j : Job σ ε α) (w : World σ) : Call ε α := j.work.call (j.calls w + 1)

/-- How a call ends that began before. -/
def ending (j : Job σ ε α) (begun : Call ε α) (w : World σ) : Ending ε α :=
  match j.work.counting with
  | .starts => begun.ending
  | .finishes => (j.next w).ending

/-- Performs the next call. -/
def run (j : Job σ ε α) (pace : Pace) : Act σ (Except ε α) := do
  let call ← Act.read j.next
  j.cell.modify fun t => { t with started := t.started + 1 }
  Call.sleepThrough pace j.cell call.pauses
  let ending ← Act.read (j.ending call)
  Call.conclude pace j.cell ending

end Job

end CallGuard

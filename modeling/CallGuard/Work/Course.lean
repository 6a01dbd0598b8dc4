/-
Courses: calls that run on their own. The course of a call is known when it begins: its pauses follow
each other, and it ends with the last of them. Whoever waits for the call arrives at some instant with
the counts that the course has by then, and takes the end or leaves the call to itself.
-/
import CallGuard.Work.Script

namespace CallGuard

/-- The course of a call that runs on its own: when each of its pauses ends, and when it does. -/
structure Course where
  steps : List Nat
  finish : Option Nat
deriving DecidableEq

namespace Course

variable {ε α : Type}

/-- When pauses end that are slept from an instant on, if instants before a limit can be represented. -/
def pauseEnds (limit : Nat) (pace : Pace) (start : Nat) : List Duration → List Nat
  | [] => []
  | d :: rest =>
    let t := max start (pace.wake (pace.instantAfter limit start d))
    t :: pauseEnds limit pace t rest

/-- The course of a call from an instant on. -/
def ofCall (limit : Nat) (pace : Pace) (start : Nat) (c : Call ε α) : Course :=
  let steps := pauseEnds limit pace start c.pauses
  match c.ending with
  | .never => ⟨steps, none⟩
  | _ => ⟨steps, some (steps.getLastD start)⟩

/-- The counts of a call that went on up to an instant. -/
def countUpTo (course : Course) (t : Nat) (before : Tally) : Tally :=
  { before with
    started := before.started + 1
    steps := before.steps + (course.steps.filter (· ≤ t)).length }

end Course

namespace Job

variable {σ ε α : Type}

/-- The world after a change of the tally. -/
def recount (j : Job σ ε α) (f : Tally → Tally) (w : World σ) : World σ :=
  { w with own := j.cell.write (f (j.tally w)) w.own }

/-- The world at an instant, with the counts that a course has by then. -/
def arrive (j : Job σ ε α) (pace : Pace) (course : Course) (t : Nat) (w : World σ) : World σ :=
  (j.recount (course.countUpTo t) w).setClock pace { w.clock pace with now := t }

/-- The world after a call came to a value or a failure. -/
def finish (j : Job σ ε α) (w : World σ) : World σ :=
  j.recount (fun t => { t with finished := t.finished + 1 }) w

/-- The world in which a call goes on although nobody waits for it. -/
def leave (j : Job σ ε α) (pace : Pace) (course : Course) (call : Call ε α) (w : World σ) : World σ :=
  match course.finish, call.ending with
  | none, _ | some _, .panic _ => w
  | some finish, _ => j.recount (fun t => { t with stragglers := t.stragglers ++ [⟨pace, finish⟩] }) w

end Job

end CallGuard

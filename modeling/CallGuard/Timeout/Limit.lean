/-
Time limits: work under a deadline. In place, the work runs until its deadline and is dropped there.
Apart, it runs on a course of its own, and the caller waits for its end or the deadline, whichever
comes first. A suspended call apart is stopped at its deadline; a blocking one cannot be stopped, nor
can a call whose caller gave up before the deadline: these go on as stragglers.
-/
import CallGuard.Policy.Timeout
import CallGuard.Timeout.Error
import CallGuard.Work.Course

namespace CallGuard

/-- Applies a timeout policy. -/
structure TimeLimit where
  policy : TimeoutPolicy
deriving DecidableEq

namespace TimeLimit

def duration (t : TimeLimit) : Duration := t.policy.duration

def outline (t : TimeLimit) : Outline := .fields "Timeouter" [("policy", t.policy.outline)]

variable {σ ε α : Type}

/-- The deadline of suspended work that begins at an instant, if instants before a limit can be represented. It is put
off like the end of any other suspended wait. -/
def due (t : TimeLimit) (limit start : Nat) : Nat := Pace.suspended.instantAfter limit start t.duration

theorem le_due (t : TimeLimit) (limit start : Nat) : start ≤ t.due limit start := Pace.le_instantAfter ..

theorem le_tick_due (t : TimeLimit) (limit start : Nat) : start ≤ tick (t.due limit start) :=
  Nat.le_trans (t.le_due limit start) (le_tick _)

/-- The error of a missed deadline. -/
def error (t : TimeLimit) : TimeoutError ε := .timeout t.policy.name t.policy.duration

/-- Reports a missed deadline. -/
def event (t : TimeLimit) : Event := .timeoutExceeded t.policy.name t.policy.duration

/-- Runs suspended work in place, until the deadline at most. -/
def run (t : TimeLimit) (work : Act σ (Except ε α)) : Act σ (Except (TimeoutError ε) α) := fun w =>
  match Act.before .suspended (tick (t.due w.instantLimit w.now)) work w with
  | (.panicked m, w) => (.panicked m, w)
  | (.abandoned, w) => (.abandoned, w)
  | (.done (some (.ok a)), w) => (.done (.ok a), w)
  | (.done (some (.error e)), w) => (.done (.error (.inner e)), w)
  | (.done none, w) => (.done (.error t.error), w.report t.event)

/-! ## Work apart -/

/-- Runs the next call of some work apart, and waits for it until the deadline at most. The caller
gives way when it begins to wait and when the call wakes it. A call that ends together with a horizon
before the deadline comes too late for its caller. -/
def runApart (t : TimeLimit) (pace : Pace) (job : Job σ ε α) :
    Act σ (Except (TimeoutError ε) α) := fun w =>
  let w := w.giveWay pace
  let start := (w.clock pace).now
  let horizon := (w.clock pace).horizon
  let call := job.next w
  let course := Course.ofCall w.instantLimit pace start call
  let deadline := pace.wake (pace.instantAfter w.instantLimit start t.duration)
  match course.finish.filter fun finish => finish ≤ deadline && horizon.all (finish < ·) with
  | some finish =>
    let w := (job.arrive pace course finish w).giveWay pace
    match job.ending call w with
    | .value a => (.done (.ok a), job.finish w)
    | .failure e => (.done (.error (.inner e)), job.finish w)
    | .panic m => (.panicked m, w)
    | .never => (.abandoned, w)
  | none =>
    if horizon.all (deadline ≤ ·) then
      let w := job.arrive pace course deadline w
      let w := if pace = .blocking then job.leave pace course call w else w
      (.done (.error t.error), w.report t.event)
    else
      (.abandoned, job.leave pace course call (job.arrive pace course (earlier horizon deadline) w))

end TimeLimit

end CallGuard

/-
Flaky work: it fails for a while, or as a script says, and counts the calls that came to an end. A
latency is slept before each of them.
-/
import CallGuard.Failure.Basic
import CallGuard.Work.Script

namespace CallGuard

/-- Work for tests that fails as told. Calls are numbered from one. -/
structure Flaky (α : Type) where
  latency : Option Duration := none
  outcome : Nat → Except TestError α

namespace Flaky

variable {α : Type}

/-- The reason of a numbered failure. -/
def numbered (k : Nat) : String := "failure " ++ toString k

/-- Fails a number of times, and may be tried again; then gives a value. -/
def recoveringAfter (failures : Nat) (value : α) (latency : Option Duration) : Flaky α where
  latency
  outcome k := if k ≤ failures then .error (.transient (numbered k)) else .ok value

/-- Fails a number of times for good; then succeeds. -/
def refusing (failures : Nat) (unit : α) (latency : Option Duration) : Flaky α where
  latency
  outcome k := if k ≤ failures then .error (.permanent (numbered k)) else .ok unit

/-- What an empty script says. -/
def emptyScript : String := "FlakyWork script must not be empty"

/-- Follows a script; its last outcome repeats. -/
def following (script : List (Except TestError α)) (latency : Option Duration) :
    Except String (Flaky α) :=
  match script with
  | [] => .error emptyScript
  | first :: others =>
    .ok { latency, outcome := fun k => ((first :: others)[k - 1]?).getD (others.getLastD first) }

/-- The end that an outcome comes to. -/
def endingOf : Except TestError α → Ending TestError α
  | .ok a => .value a
  | .error e => .failure e

/-- Flaky work as a script. -/
def work (f : Flaky α) : Work TestError α where
  counting := .finishes
  call k := { pauses := f.latency.toList, ending := endingOf (f.outcome k) }

/-- What flaky work shows after so many calls. -/
def outline (f : Flaky α) (calls : Nat) : Outline :=
  .record "FlakyWork" [("calls", .nat calls), ("latency", .option Duration.outline f.latency)] true

end Flaky

end CallGuard

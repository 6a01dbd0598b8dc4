/-
Scenarios: what happens to scripted work and feeds in steps on one clock. A step sleeps, gives an answer
that is known beforehand, or calls work under policies that are given in place or by name. Named work and
named feeds keep their counts from step to step.
-/
import CallGuard.Fallback.Rescue
import CallGuard.Guard.Site
import CallGuard.Registry.Blueprint
import CallGuard.Scenario.Reading
import CallGuard.Work.Feed
import CallGuard.Work.Flaky

namespace CallGuard

/-! ## Descriptions -/

/-- Something given in place, or by its name. -/
inductive Given (α : Type) where
  | named (name : String)
  | inPlace (a : α)

/-- Work with a script, or the panic that making it ends in. -/
abbrev WorkScript : Type := Except String (Work TestError Json)

/-- The elements of each subscription of a feed; the last list repeats. -/
abbrev FeedScript : Type := List (List (Call TestError Json))

/-- A timeout policy as a step gives it: making it may fail. -/
abbrev GivenTimeout : Type := Given (Except ConfigError TimeoutPolicy)

/-- The policies that a step applies; `κ` is what an alternative is described by. -/
inductive StepPolicy (κ : Type) where
  | fallback (policy : Given FallbackPolicy) (alternative : Given κ)
  /-- With `asStream`, whatever was started is read as a stream. -/
  | guarded (timeout : Option GivenTimeout) (retry : Option (Given RetryPolicy)) (asStream : Bool)
  | retry (policy : Given RetryPolicy)
  | timeout (policy : GivenTimeout)

/-- How work is called for one result. -/
inductive Mode where
  | blocking
  | suspended
  /-- On a course of its own, where a timeout policy is applied. -/
  | spawned
deriving DecidableEq

def Mode.pace : Mode → Pace
  | blocking => .blocking
  | suspended | spawned => .suspended

/-- What a step calls under which policies. -/
inductive Subject where
  | work (mode : Mode) (work : Given WorkScript) (policy : StepPolicy WorkScript)
  | stream (feed : Given FeedScript) (policy : StepPolicy FeedScript)

/-- A call of a step. -/
structure StepCall where
  subject : Subject
  /-- How a stream is read; up to its end if nothing is said. -/
  plan : Option (List Intake) := none
  /-- Slept before counts are read. -/
  settle : Option Duration := none
  /-- The time that the call is asked to have blocked for. -/
  minReal : Option Duration := none

/-- One step; `ν` is the type of answers that are known beforehand. -/
inductive Step (ν : Type) where
  | sleep (d : Duration)
  | answer (what : ν)
  | call (c : StepCall)

/-! ## Reports -/

/-- How the calls of a step fail. -/
inductive CallError where
  | plain (e : TestError)
  | timeout (e : TimeoutError TestError)
  | retry (e : RetryError TestError)
  | guarded (e : GuardError TestError)

/-- What a call came to. -/
inductive CallResult where
  /-- It could not be set up. -/
  | refused (e : ConfigError)
  | panicked (message : String)
  | value (v : Json)
  | failed (e : CallError)
  /-- Nobody waited for it any longer. -/
  | abandoned
  | reading (r : Reading (Except CallError Json))

/-- The counts of some work: its calls and, where that is known, those that came to an end. -/
structure CallCount where
  calls : Nat
  finished : Option Nat

/-- The counts that a step shows. -/
inductive StepCounts where
  /-- The call did not get as far as to be made. -/
  | none
  | work (counts : CallCount) (alternative : Option CallCount)
  | stream (counts : FeedTally) (alternative : Option FeedTally)

/-- What is known after a call. -/
structure CallReport where
  result : CallResult
  /-- When the result was there. -/
  instant : Nat
  counts : StepCounts := .none
  /-- The outlines of a guarded call, and of what starting it gave. -/
  callText : Option String := Option.none
  startedText : Option String := Option.none
  tookMinReal : Option Bool := Option.none

/-- What is known after a step. -/
inductive StepReport (ν : Type) where
  | slept (instant : Nat)
  | answered (what : ν) (instant : Nat)
  | called (r : CallReport)

/-! ## The state of a scenario -/

/-- The counts of all work and of all feeds, by position. -/
structure Counts where
  works : List Tally := []
  feeds : List FeedTally := []

/-- The tally of the work at a position. -/
def workCell (i : Nat) : Cell Counts Tally where
  read c := (c.works[i]?).getD {}
  write t c := { c with works := c.works.set i t }

/-- The tally of the feed at a position. -/
def feedCell (i : Nat) : Cell Counts FeedTally where
  read c := (c.feeds[i]?).getD {}
  write t c := { c with feeds := c.feeds.set i t }

/-- Something and the position of its counts. -/
structure Placed (α : Type) where
  item : α
  place : Nat

/-- What the steps of a scenario share. -/
structure Setting where
  registry : Registry
  works : NameTable (Placed (Work TestError Json)) := .empty
  feeds : NameTable (Placed FeedScript) := .empty

namespace Setting

/-- Numbers the entries of a table. -/
def numbered {α : Type} (t : NameTable α) : NameTable (Placed α) :=
  .ofList (t.entries.zipIdx.map fun (e, i) => (e.1, ⟨e.2, i⟩))

/-- What a scenario begins with: a registry, the named work and feeds, and no counts yet. -/
def start (registry : Registry) (works : NameTable (Work TestError Json))
    (feeds : NameTable FeedScript) : Setting × World Counts :=
  ({ registry, works := numbered works, feeds := numbered feeds },
    { log := [registry.builtEvent],
      own := { works := List.replicate works.size {}, feeds := List.replicate feeds.size {} } })

end Setting

end CallGuard

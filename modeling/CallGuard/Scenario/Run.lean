/-
Running scenarios: each step is set up from what it names or gives in place, carried out, and reported
with the time and the counts that it came to.
-/
import CallGuard.Scenario.Basic

namespace CallGuard

/-! ## Setting up -/

namespace Setting

/-- The time limit of a step. -/
def timeLimit (s : Setting) : GivenTimeout → Except ConfigError TimeLimit
  | .named name => s.registry.timeLimit name
  | .inPlace p => p.map TimeLimit.mk

def retryLoop (s : Setting) : Given RetryPolicy → Except ConfigError RetryLoop
  | .named name => s.registry.retryLoop name
  | .inPlace p => RetryLoop.create p

def rescue (s : Setting) : Given FallbackPolicy → Except ConfigError Rescue
  | .named name => s.registry.rescue name
  | .inPlace p => Rescue.create p

/-- Resolves what is named, and nothing else. -/
def ifNamed {α β : Type} (resolve : Given α → Except ConfigError β) :
    Option (Given α) → Except ConfigError (Option β)
  | some (.named name) => (resolve (.named name)).map some
  | _ => .ok none

/-- Resolves what is given in place, and keeps what was resolved before. -/
def ifInPlace {α β : Type} (resolve : Given α → Except ConfigError β) (before : Option β) :
    Option (Given α) → Except ConfigError (Option β)
  | some (.inPlace a) => (resolve (.inPlace a)).map some
  | _ => .ok before

/-- The policies around a call. Names are resolved before anything that is given in place. -/
def guards (s : Setting) (timeout : Option GivenTimeout) (retry : Option (Given RetryPolicy)) :
    Except ConfigError Guards := do
  let timeLimit ← ifNamed s.timeLimit timeout
  let retryLoop ← ifNamed s.retryLoop retry
  return { timeLimit := ← ifInPlace s.timeLimit timeLimit timeout
           retryLoop := ← ifInPlace s.retryLoop retryLoop retry }

/-- Finds named work, or makes room for the counts of work that is given in place. -/
def work (s : Setting) (g : Given WorkScript) (w : World Counts) :
    Except String (Placed (Work TestError Json)) × World Counts :=
  match g with
  | .named name =>
    match s.works.find? name with
    | some p => (.ok p, w)
    | none => (.error ("unknown work " ++ name), w)
  | .inPlace (.error m) => (.error m, w)
  | .inPlace (.ok x) =>
    (.ok ⟨x, w.own.works.length⟩, { w with own := { w.own with works := w.own.works ++ [{}] } })

/-- Finds a named feed, or makes room for the counts of one that is given in place. -/
def feed (s : Setting) (g : Given FeedScript) (w : World Counts) :
    Except String (Placed FeedScript) × World Counts :=
  match g with
  | .named name =>
    match s.feeds.find? name with
    | some p => (.ok p, w)
    | none => (.error ("unknown feed " ++ name), w)
  | .inPlace x =>
    (.ok ⟨x, w.own.feeds.length⟩, { w with own := { w.own with feeds := w.own.feeds ++ [{}] } })

end Setting

/-! ## Work and feeds in their places -/

namespace Placed

/-- Work with its tally. -/
def job (p : Placed (Work TestError Json)) : Job Counts TestError Json := ⟨p.item, workCell p.place⟩

/-- The subscriptions of a feed. -/
def source (p : Placed FeedScript) :
    Source Counts (List (Call TestError Json)) (Except TestError Json) where
  subscribe := (Feed.ofLists p.item).subscribe (feedCell p.place)
  poll := Feed.poll (feedCell p.place)

/-- The counts of work. Of blocking calls it is not told how many have finished. -/
def callCount (p : Placed (Work TestError Json)) (mode : Mode) (w : World Counts) : CallCount :=
  { calls := p.job.calls w
    finished := if p.item.counting = .starts ∧ mode ≠ .blocking then some ((p.job.tally w).finishedIn w)
      else none }

def feedCount (p : Placed FeedScript) (w : World Counts) : FeedTally := (feedCell p.place).read w.own

end Placed

/-- The most elements that a subscription of a feed has. -/
def longestSubscription (f : FeedScript) : Nat := f.foldl (fun n l => max n l.length) 0

/-! ## Carrying out -/

/-- What is known when a call has ended, before anything settles. -/
structure Outcome where
  result : CallResult
  callText : Option String := none
  startedText : Option String := none

namespace Outcome

variable {ε : Type}

/-- The outcome of an act that gives one result. -/
def ofEnded (wrap : ε → CallError) : Ended (Option (Except ε Json)) → Outcome
  | .done (some (.ok v)) => { result := .value v }
  | .done (some (.error e)) => { result := .failed (wrap e) }
  | .done none | .abandoned => { result := .abandoned }
  | .panicked m => { result := .panicked m }

/-- Waits for one result. -/
def awaiting (wrap : ε → CallError) (x : Act Counts (Except ε Json)) (w : World Counts) :
    Outcome × World Counts :=
  let (ended, w) := patiently x w
  (ofEnded wrap ended, w)

/-- Reads a stream. -/
def reading {ρ : Type} (wrap : ε → CallError) (plan : Option (List Intake)) (bound : Nat)
    (poll : Poll Counts ρ (Except ε Json)) (p : ρ) (w : World Counts) : Outcome × World Counts :=
  let (r, w) := Reading.run poll plan bound p w
  ({ result := .reading (r.map (mapError wrap)) }, w)

/-- Starts a guarded call and waits for its result, or reads it as a stream. -/
def guarded {ρ : Type} (c : CallSite Counts ρ TestError Json) (asStream : Bool)
    (plan : Option (List Intake)) (bound : Nat) (w : World Counts) : Outcome × World Counts :=
  let callText := " ".intercalate
    [c.callee.outline.plain, c.outline.plain, c.style.outline.plain]
  match c.start w with
  | (.panicked m, w) => ({ result := .panicked m, callText }, w)
  | (.abandoned, w) => ({ result := .abandoned, callText }, w)
  | (.done started, w) =>
    let (outcome, w) :=
      match asStream, started with
      | false, .ready r => (ofEnded .guarded (.done (some r)), w)
      | false, .pending x => awaiting .guarded x w
      | _, _ => reading .guarded plan bound Flow.poll started.toFlow w
    ({ outcome with callText, startedText := some started.text }, w)

end Outcome

/-- What was carried out, or why it could not be set up, and what can be counted afterwards. -/
structure CarriedOut where
  outcome : Except CallResult Outcome
  world : World Counts
  counts : World Counts → StepCounts := fun _ => .none

namespace CarriedOut

/-- Carries out a call of work. -/
def work (s : Setting) (mode : Mode) (g : Given WorkScript) (policy : StepPolicy WorkScript)
    (plan : Option (List Intake)) (w : World Counts) : CarriedOut :=
  match s.work g w with
  | (.error m, w) => ⟨.error (.panicked m), w, fun _ => .none⟩
  | (.ok p, w) =>
    let count := fun w => StepCounts.work (p.callCount mode w) none
    let refuse := fun (e : ConfigError) => CarriedOut.mk (.error (.refused e)) w fun _ => .none
    let finish := fun (o : Outcome × World Counts) => CarriedOut.mk (.ok o.1) o.2 count
    let pace := mode.pace
    match policy with
    | .retry r =>
      match s.retryLoop r with
      | .error e => refuse e
      | .ok r => finish (Outcome.awaiting .retry (r.run pace (p.job.run pace)) w)
    | .timeout t =>
      match s.timeLimit t with
      | .error e => refuse e
      | .ok t =>
        let act := if mode = .suspended then t.run (p.job.run pace) else t.runApart pace p.job
        finish (Outcome.awaiting .timeout act w)
    | .guarded t r asStream =>
      match s.guards t r with
      | .error e => refuse e
      | .ok guards =>
        let callee : Callee Counts (List (Call TestError Json)) TestError Json :=
          if mode = .blocking then .blocking p.job else .suspended (p.job.run .suspended)
        finish (Outcome.guarded ⟨callee, guards⟩ asStream plan 1 w)
    | .fallback f alternative =>
      match s.rescue f with
      | .error e => refuse e
      | .ok f =>
        match s.work alternative w with
        | (.error m, w) => ⟨.error (.panicked m), w, fun _ => .none⟩
        | (.ok q, w) =>
          let (o, w) := Outcome.awaiting .plain (f.run (p.job.run pace) (q.job.run pace)) w
          ⟨.ok o, w, fun w => .work (p.callCount mode w) (some (q.callCount mode w))⟩

/-- Carries out a call of a stream. -/
def stream (s : Setting) (g : Given FeedScript) (policy : StepPolicy FeedScript)
    (plan : Option (List Intake)) (w : World Counts) : CarriedOut :=
  match s.feed g w with
  | (.error m, w) => ⟨.error (.panicked m), w, fun _ => .none⟩
  | (.ok p, w) =>
    let count := fun w => StepCounts.stream (p.feedCount w) none
    let refuse := fun (e : ConfigError) => CarriedOut.mk (.error (.refused e)) w fun _ => .none
    let finish := fun (o : Outcome × World Counts) => CarriedOut.mk (.ok o.1) o.2 count
    let stuck := fun (e : Ended (Option (Except TestError Json))) (w : World Counts) =>
      CarriedOut.mk (.ok (Outcome.ofEnded .plain e)) w count
    let bound := longestSubscription p.item + 1
    match policy with
    | .retry r =>
      match s.retryLoop r with
      | .error e => refuse e
      | .ok r =>
        finish (Outcome.reading .retry plan bound (r.poll p.source) (.fresh w.now) w)
    | .timeout t =>
      match s.timeLimit t with
      | .error e => refuse e
      | .ok t =>
        match p.source.subscribe w with
        | (.done producer, w) =>
          finish (Outcome.reading .timeout plan bound (t.poll p.source.poll) (t.watch producer) w)
        | (.panicked m, w) => stuck (.panicked m) w
        | (.abandoned, w) => stuck .abandoned w
    | .guarded t r asStream =>
      match s.guards t r with
      | .error e => refuse e
      | .ok guards => finish (Outcome.guarded ⟨.stream p.source, guards⟩ asStream plan bound w)
    | .fallback f alternative =>
      match s.rescue f with
      | .error e => refuse e
      | .ok f =>
        match s.feed alternative w with
        | (.error m, w) => ⟨.error (.panicked m), w, fun _ => .none⟩
        | (.ok q, w) =>
          match p.source.subscribe w with
          | (.done producer, w) =>
            let (o, w) := Outcome.reading .plain plan (bound + longestSubscription q.item)
              (f.poll p.source.poll q.source) (.primary producer) w
            ⟨.ok o, w, fun w => .stream (p.feedCount w) (some (q.feedCount w))⟩
          | (.panicked m, w) => stuck (.panicked m) w
          | (.abandoned, w) => stuck .abandoned w

end CarriedOut

/-- Carries out a call and reports it. -/
def StepCall.run (s : Setting) (c : StepCall) (w : World Counts) : CallReport × World Counts :=
  let start := w.blocking.now
  let done :=
    match c.subject with
    | .work mode g policy => CarriedOut.work s mode g policy c.plan w
    | .stream g policy => CarriedOut.stream s g policy c.plan w
  let w := done.world
  let tookMinReal := c.minReal.map fun d => decide (d.nanos ≤ w.blocking.now - start)
  match done.outcome with
  | .error result => ({ result, instant := w.now }, w)
  | .ok o =>
    let settled := match c.settle with
      | none => w
      | some d => (Act.sleep .suspended d w).2
    ({ result := o.result, instant := w.now, counts := done.counts settled, callText := o.callText,
       startedText := o.startedText, tookMinReal }, settled)

/-- Carries out a step and reports it. -/
def Step.run {ν : Type} (s : Setting) (step : Step ν) (w : World Counts) :
    StepReport ν × World Counts :=
  match step with
  | .sleep d =>
    let w := (Act.sleep .suspended d w).2
    (.slept w.now, w)
  | .answer what => (.answered what w.now, w)
  | .call c =>
    let (r, w) := c.run s w
    (.called r, w)

/-- Carries out steps one after the other. -/
def runSteps {ν : Type} (s : Setting) :
    List (Step ν) → World Counts → List (StepReport ν) × World Counts
  | [], w => ([], w)
  | step :: rest, w =>
    let (r, w) := step.run s w
    let (rs, w) := runSteps s rest w
    (r :: rs, w)

end CallGuard

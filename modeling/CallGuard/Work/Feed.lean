/-
Feeds: scripted producers of streams. Each subscription follows a list of calls, one per element, and
ends after the last; a tally counts the subscriptions and the elements that came out.
-/
import CallGuard.Run.Poll
import CallGuard.Work.Script

namespace CallGuard

/-- How often a feed was subscribed to and how many elements, failures included, it gave. -/
structure FeedTally where
  subscribed : Nat := 0
  produced : Nat := 0
deriving DecidableEq, Inhabited

/-- A producer with a script: the elements of each subscription, counted from zero. -/
structure Feed (ε α : Type) where
  subscription : Nat → List (Call ε α)

namespace Feed

variable {σ ε α : Type}

/-- A feed whose subscriptions follow a list; the last one repeats. -/
def ofLists (lists : List (List (Call ε α))) : Feed ε α where
  subscription k := (lists[k]?).getD (lists.getLastD [])

/-- Subscribes: the elements that are to come. -/
def subscribe (f : Feed ε α) (cell : Cell σ FeedTally) : Act σ (List (Call ε α)) := do
  let t ← cell.get
  cell.modify fun t => { t with subscribed := t.subscribed + 1 }
  pure (f.subscription t.subscribed)

/-- Sleeps through the pauses before an element. -/
def sleepThrough : List Duration → Act σ Unit
  | [] => pure ()
  | d :: rest => do
    Act.sleep .suspended d
    sleepThrough rest

/-- An element comes out. -/
def emit (cell : Cell σ FeedTally) (item : Except ε α) (rest : List (Call ε α)) :
    Act σ (Option (Except ε α × List (Call ε α))) := do
  cell.modify fun t => { t with produced := t.produced + 1 }
  pure (some (item, rest))

/-- Asks for the next element of a subscription. -/
def poll (cell : Cell σ FeedTally) : Poll σ (List (Call ε α)) (Except ε α)
  | [] => pure none
  | c :: rest => do
    sleepThrough c.pauses
    match c.ending with
    | .value a => emit cell (.ok a) rest
    | .failure e => emit cell (.error e) rest
    | .panic m => Act.panic m
    | .never => Act.hang .suspended

end Feed

end CallGuard

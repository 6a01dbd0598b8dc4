/-
Acts: work that runs in a world of clocks, reported events and state of its own. An act is done,
panics, or is abandoned because nobody waits for it any longer. Bounding an act by a deadline
(`Act.before`) drops it where its next wait would pass the deadline: nothing of it happens later.
-/
import CallGuard.Policy.Jitter
import CallGuard.Run.Event
import CallGuard.Time.Clock

namespace CallGuard

/-- How an act ends. -/
inductive Ended (α : Type) where
  | done (a : α)
  | panicked (message : String)
  | abandoned
deriving DecidableEq

/-- Where acts run: a clock per pace, what was reported so far (newest first), draws for the attempts,
and the state that the work itself keeps. -/
structure World (σ : Type) where
  suspended : Clock := {}
  blocking : Clock := {}
  /-- Instants from here on cannot be represented. Usually their seconds are signed 64-bit numbers. -/
  instantLimit : Nat := 9223372036854775808000000000
  log : List Event := []
  dice : Nat → Dice := fun _ => .middle
  own : σ

namespace World

variable {σ : Type}

/-- The instant that elapsed times are measured on, whatever the pace. -/
def now (w : World σ) : Nat := w.suspended.now

def clock (w : World σ) : Pace → Clock
  | .suspended => w.suspended
  | .blocking => w.blocking

def setClock (w : World σ) (pace : Pace) (c : Clock) : World σ :=
  match pace with
  | .suspended => { w with suspended := c }
  | .blocking => { w with blocking := c }

/-- The world after everything that is due by now on a clock. -/
def giveWay (w : World σ) (pace : Pace) : World σ := w.setClock pace (w.clock pace).giveWay

/-- The world with one more event reported. -/
def report (w : World σ) (e : Event) : World σ := { w with log := e :: w.log }

/-- What was reported so far, in order. -/
def events (w : World σ) : List Event := w.log.reverse

@[simp] theorem clock_setClock (w : World σ) (pace : Pace) (c : Clock) :
    (w.setClock pace c).clock pace = c := by cases pace <;> rfl

@[simp] theorem own_setClock (w : World σ) (pace : Pace) (c : Clock) :
    (w.setClock pace c).own = w.own := by cases pace <;> rfl

@[simp] theorem events_setClock (w : World σ) (pace : Pace) (c : Clock) :
    (w.setClock pace c).events = w.events := by cases pace <;> rfl

@[simp] theorem clock_report (w : World σ) (pace : Pace) (e : Event) :
    (w.report e).clock pace = w.clock pace := by cases pace <;> rfl

@[simp] theorem events_report (w : World σ) (e : Event) : (w.report e).events = w.events ++ [e] := by
  simp [events, report]

@[simp] theorem now_report (w : World σ) (e : Event) : (w.report e).now = w.now := rfl

end World

/-- Work that runs in a world. -/
def Act (σ α : Type) : Type := World σ → Ended α × World σ

namespace Act

variable {σ α β : Type}

protected def pure (a : α) : Act σ α := fun w => (.done a, w)

protected def bind (x : Act σ α) (f : α → Act σ β) : Act σ β := fun w =>
  match x w with
  | (.done a, w) => f a w
  | (.panicked m, w) => (.panicked m, w)
  | (.abandoned, w) => (.abandoned, w)

instance : Monad (Act σ) where
  pure := Act.pure
  bind := Act.bind

instance : LawfulMonad (Act σ) := LawfulMonad.mk' _
  (fun x => by
    funext w; show Act.bind x _ w = x w; unfold Act.bind
    rcases x w with ⟨_ | _ | _, _⟩ <;> rfl)
  (fun _ _ => rfl)
  (fun x f g => by
    funext w; show Act.bind (Act.bind x f) g w = Act.bind x (fun a => Act.bind (f a) g) w
    unfold Act.bind
    rcases x w with ⟨_ | _ | _, _⟩ <;> rfl)

/-- Ends in a panic. -/
def panic (message : String) : Act σ α := fun w => (.panicked message, w)

def report (e : Event) : Act σ Unit := fun w => (.done (), w.report e)

/-- Reads off the world. -/
def read (f : World σ → α) : Act σ α := fun w => (.done (f w), w)

/-- The time now. -/
def now : Act σ Nat := read World.now

/-- Reads and changes the state that the work keeps. -/
def modifyOwn (f : σ → α × σ) : Act σ α := fun w =>
  let (a, s) := f w.own
  (.done a, { w with own := s })

/-- Waits for an instant, or for ever. -/
def waitUntil (pace : Pace) (t : Option Nat) : Act σ Unit := fun w =>
  match (w.clock pace).wait t with
  | .woken c => (.done (), w.setClock pace c)
  | .abandoned c => (.abandoned, w.setClock pace c)

/-- Waits for a duration; a zero one has passed already. -/
def sleep (pace : Pace) (d : Duration) : Act σ Unit := fun w =>
  waitUntil pace (some (pace.wake (pace.instantAfter w.instantLimit (w.clock pace).now d))) w

/-- Waits for ever. -/
def hang (pace : Pace) : Act σ α := fun w =>
  match waitUntil pace none w with
  | (_, w) => (.abandoned, w)

/-- Runs an act no longer than to a deadline. What is ready at the deadline still counts; otherwise
the act is dropped there, unless an earlier horizon ended everything before. -/
def before (pace : Pace) (deadline : Nat) (x : Act σ α) : Act σ (Option α) := fun w =>
  let horizon := (w.clock pace).horizon
  let within := { w.clock pace with horizon := some (earlier horizon deadline) }
  let (ended, w) := x (w.setClock pace within)
  let w := w.setClock pace { w.clock pace with horizon := horizon }
  match ended with
  | .done a => (.done (some a), w)
  | .panicked m => (.panicked m, w)
  | .abandoned => (if horizon.all (deadline ≤ ·) then .done none else .abandoned, w)

end Act

end CallGuard

/-
Clocks. An instant is a plain count of nanoseconds since a clock started. Suspended work waits on a clock
that stands at whole milliseconds: a wait ends at the first whole millisecond that is not before its
instant. Blocking work waits on a clock of its own that stops nowhere. A clock may have a horizon,
the last instant that anybody waits for. Of what is due at one instant, the one who waits for it comes
first, and everything else follows once it gives way.
-/
import CallGuard.Time.Duration

namespace CallGuard

/-- How a caller waits: suspended, or blocking its thread. -/
inductive Pace where
  | suspended
  | blocking
deriving DecidableEq

/-- The first whole millisecond that is not before an instant. -/
def tick (t : Nat) : Nat := (t + 999999) / 1000000 * 1000000

/-- Where a wait for an instant ends. -/
def Pace.wake : Pace → Nat → Nat
  | .suspended, t => tick t
  | .blocking, t => t

/-- The instant a duration from now, if it can be represented: what comes before a limit can. -/
def instantAfter? (limit now : Nat) (d : Duration) : Option Nat :=
  if now + d.nanos < limit then some (now + d.nanos) else none

theorem instantAfter?_of_lt {limit now : Nat} {d : Duration} (h : now + d.nanos < limit) :
    instantAfter? limit now d = some (now + d.nanos) := if_pos h

theorem instantAfter?_of_le {limit now : Nat} {d : Duration} (h : limit ≤ now + d.nanos) :
    instantAfter? limit now d = none := if_neg (Nat.not_lt.2 h)

/-- How far away the end of a suspended wait is put if it is no instant: thirty years. -/
def farFuture : Nat := 946080000 * 1000000000

/-- Where a wait ends, to the nanosecond. Nothing puts off the end of a blocking one. -/
def Pace.instantAfter (limit : Nat) : Pace → Nat → Duration → Nat
  | .suspended, now, d => (instantAfter? limit now d).getD (now + farFuture)
  | .blocking, now, d => now + d.nanos

theorem Pace.le_instantAfter (limit : Nat) (pace : Pace) (now : Nat) (d : Duration) :
    now ≤ pace.instantAfter limit now d := by
  cases pace with
  | suspended =>
    rw [Pace.instantAfter, instantAfter?]
    split
    · exact Nat.le_add_right ..
    · exact Nat.le_add_right ..
  | blocking => exact Nat.le_add_right ..

/-- A wait whose end is an instant ends there. -/
theorem Pace.instantAfter_of_lt {limit now : Nat} {d : Duration} (pace : Pace) (h : now + d.nanos < limit) :
    pace.instantAfter limit now d = now + d.nanos := by
  cases pace with
  | suspended => rw [Pace.instantAfter, instantAfter?_of_lt h, Option.getD_some]
  | blocking => rfl

/-- The time from one instant to a later one. -/
def elapsed (start now : Nat) : Duration := .ofNanos (now - start)

theorem le_tick (t : Nat) : t ≤ tick t := by unfold tick; omega

theorem tick_mono {s t : Nat} (h : s ≤ t) : tick s ≤ tick t := by
  unfold tick
  exact Nat.mul_le_mul_right _ (Nat.div_le_div_right (Nat.add_le_add_right h _))

/-- A clock and the last instant that anybody waits for. -/
structure Clock where
  now : Nat := 0
  horizon : Option Nat := none
  /-- Instants before this one are over, even if the clock still stands there. -/
  settled : Nat := 0
deriving Inhabited

/-- What is due at an instant has happened. -/
def Clock.isOver (c : Clock) (t : Nat) : Bool := t < c.now || t < c.settled

/-- Lets everything happen that is due by now. -/
def Clock.giveWay (c : Clock) : Clock := { c with settled := c.now + 1 }

/-- The earlier of two bounds. -/
def earlier : Option Nat → Nat → Nat
  | none, t => t
  | some s, t => min s t

/-- How a wait for an instant ends. -/
inductive Waited where
  /-- The instant came. -/
  | woken (clock : Clock)
  /-- Nobody waits that long; the clock stands at the horizon. -/
  | abandoned (clock : Clock)

/-- Waits for an instant, or for ever. A past instant has come already. -/
def Clock.wait (c : Clock) (t : Option Nat) : Waited :=
  match c.horizon, t with
  | none, some t => .woken { c with now := max c.now t }
  | none, none => .abandoned c
  | some h, some t =>
    if t ≤ max c.now h then .woken { c with now := max c.now t }
    else .abandoned { c with now := max c.now h }
  | some h, none => .abandoned { c with now := max c.now h }

end CallGuard

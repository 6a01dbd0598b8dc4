/-
Jitter: how the wait between two attempts is varied. A strategy turns a base delay into a request
for a draw from a closed range, and the draw into a delay in whole milliseconds. The draws come from
a `Dice`; a range that is empty or not finite cannot be drawn from.
-/
import CallGuard.Number.Shortest
import CallGuard.Time.Duration

namespace CallGuard

/-- How waits are varied. -/
inductive Jitter where
  | none
  /-- Within a share of the base delay, to either side. -/
  | proportional (factor : Binary64)
  /-- Anything up to the base delay. -/
  | full
  /-- Between the base delay and three times the previous wait. -/
  | decorrelated
deriving DecidableEq

/-- What a strategy asks of chance. -/
inductive DrawRequest where
  /-- Nothing: the delay is fixed. -/
  | fixed (d : Duration)
  /-- A whole number of milliseconds from a closed range. -/
  | whole (low high : Nat)
  /-- A number of milliseconds from a closed range. -/
  | real (low high : Binary64)
deriving DecidableEq

/-- A source of draws from closed ranges. -/
structure Dice where
  whole : Nat → Nat → Nat
  real : Binary64 → Binary64 → Binary64

namespace Dice

/-- A draw from a range that is not empty lies in it. -/
structure Fair (dice : Dice) : Prop where
  whole : ∀ low high, low ≤ high → low ≤ dice.whole low high ∧ dice.whole low high ≤ high
  real : ∀ low high : Binary64, low.isFinite → high.isFinite → low.le high →
    low.le (dice.real low high) ∧ (dice.real low high).le high

/-- The middle of a part of the range: of equal parts the one with number `k`, from zero. -/
def part (k parts : Nat) : Dice where
  whole low high := low + min (high - low) ((high - low + 1) * (2 * k + 1) / (2 * parts))
  real low high :=
    let x := low + (high - low) * Binary64.ofRatio false (2 * k + 1) (2 * parts)
    if low.le x && x.le high then x else low

/-- The middle of a range. -/
def middle : Dice := part 0 1

theorem part_fair (k parts : Nat) : (part k parts).Fair where
  whole low high h := by
    have := Nat.min_le_left (high - low) ((high - low + 1) * (2 * k + 1) / (2 * parts))
    exact ⟨Nat.le_add_right .., by simp only [part]; omega⟩
  real low high hl _ h := by
    simp only [part]
    split
    · simp_all
    · refine ⟨?_, h⟩
      cases low <;> simp_all [Binary64.le, Binary64.isNaN, Binary64.isFinite]

end Dice

/-- Why a range cannot be drawn from. -/
inductive DrawFault where
  | emptyRange
  | notFinite
deriving DecidableEq

def DrawFault.message : DrawFault → String
  | emptyRange => "cannot sample empty range"
  | notFinite => "called `Result::unwrap()` on an `Err` value: NonFinite"

namespace DrawRequest

/-- The delay that a draw gives. A range that is not in order counts as empty before its ends are
looked at. -/
def answer (dice : Dice) : DrawRequest → Except DrawFault Duration
  | fixed d => .ok d
  | whole low high =>
    if low ≤ high then .ok (.ofMillis (dice.whole low high)) else .error .emptyRange
  | real low high =>
    if !low.le high then .error .emptyRange
    else if low.isFinite && high.isFinite then .ok (.ofMillis (dice.real low high).truncate64)
    else .error .notFinite

end DrawRequest

namespace Jitter

/-- What a strategy asks of chance for a base delay and the previous wait. Whole milliseconds are
64-bit counters. -/
def request (j : Jitter) (base : Duration) (previous : Option Duration) : DrawRequest :=
  match j with
  | none => .fixed base
  | proportional factor =>
    let center := Binary64.ofNat base.millis
    let spread := center * factor
    .real ((center - spread).max 0) (center + spread)
  | full => if base.millis64 = 0 then .fixed .zero else .whole 0 base.millis64
  | decorrelated =>
    let high := ((previous.getD base).millis * 3) % wordValues
    if high ≤ base.millis64 then .fixed base else .whole base.millis64 high

/-- The varied delay, cut off at a longest delay. -/
def apply (j : Jitter) (dice : Dice) (base : Duration) (previous longest : Option Duration) :
    Except DrawFault Duration :=
  ((j.request base previous).answer dice).map (·.cappedBy longest)

def outline : Jitter → Outline
  | none => .atom "None"
  | proportional factor => .tuple "Proportional" [.atom (factor.text .outline)]
  | full => .atom "Full"
  | decorrelated => .atom "Decorrelated"

end Jitter

end CallGuard

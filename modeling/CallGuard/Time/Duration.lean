/-
Durations: whole nanoseconds up to a longest duration, with their text, their whole milliseconds and
their seconds as a binary64 number. What comes from arithmetic is cut off at the longest duration.
-/
import CallGuard.Number.Binary64
import CallGuard.Text.Outline

namespace CallGuard

/-- The nanoseconds of the longest duration: `2 ^ 64` seconds less one nanosecond. -/
def longestNanos : Nat := 18446744073709551615999999999

/-- A span of time in whole nanoseconds. -/
structure Duration where
  nanos : Nat
  le_longest : nanos ≤ longestNanos
deriving DecidableEq

namespace Duration

/-- The duration of so many nanoseconds, or the longest one. -/
def ofNanos (n : Nat) : Duration := ⟨min n longestNanos, Nat.min_le_right ..⟩

/-- The duration of so many milliseconds, or the longest one. -/
def ofMillis (n : Nat) : Duration := ofNanos (n * 1000000)

def zero : Duration := ⟨0, Nat.zero_le _⟩

def longest : Duration := ⟨longestNanos, Nat.le_refl _⟩

instance : Inhabited Duration := ⟨zero⟩

theorem ext {d e : Duration} (h : d.nanos = e.nanos) : d = e := by
  cases d; cases e; cases h; rfl

def isZero (d : Duration) : Bool := d.nanos == 0

instance : LE Duration := ⟨fun d e => d.nanos ≤ e.nanos⟩

instance (d e : Duration) : Decidable (d ≤ e) := inferInstanceAs (Decidable (d.nanos ≤ e.nanos))

instance : Min Duration := ⟨fun d e => if d ≤ e then d else e⟩

/-- The duration cut off at a bound, if there is one. -/
def cappedBy (d : Duration) : Option Duration → Duration
  | none => d
  | some bound => min d bound

/-! ## Milliseconds -/

/-- The whole milliseconds. -/
def millis (d : Duration) : Nat := d.nanos / 1000000

/-- The whole milliseconds as a 64-bit counter shows them: it starts again at `2 ^ 64`. -/
def millis64 (d : Duration) : Nat := d.millis % wordValues

/-! ## Seconds -/

/-- The seconds as a number: whole seconds and the fraction are rounded apart, and so is their sum. -/
def toSeconds (d : Duration) : Binary64 :=
  .ofNat (d.nanos / 1000000000) + .ofNat (d.nanos % 1000000000) / .ofNat 1000000000

/-- The duration of a number of seconds, rounded to the nearest nanosecond, the even one of two.
There is none for what is negative, not a number, or too long. -/
def ofSeconds? : Binary64 → Option Duration
  | .nan => none
  | .infinite _ => none
  | .finite negative units _ =>
    if negative ∧ units ≠ 0 then none
    else
      let n := nearest (units * 1000000000) unitsPerOne
      if h : n ≤ longestNanos then some ⟨n, h⟩ else none

/-! ## Text -/

/-- A point and the digits of a fraction, `width` places wide, without the zeros at its end. -/
def fractionText (width value : Nat) : List Char :=
  let ds := Nat.toDigits 10 value
  let all := List.replicate (width - ds.length) '0' ++ ds
  let kept := (all.reverse.dropWhile (· == '0')).reverse
  if kept.isEmpty then [] else '.' :: kept

/-- The nanoseconds in a unit, the places of its fraction and its sign. -/
def units : List (Nat × Nat × String) :=
  [(1000000000, 9, "s"), (1000000, 6, "ms"), (1000, 3, "µs"), (1, 0, "ns")]

/-- The text of a duration, in the largest unit that it fills. -/
def text (d : Duration) : String :=
  let (size, width, sign) := (units.find? fun u => u.1 ≤ d.nanos).getD (1, 0, "ns")
  toString (d.nanos / size) ++ String.ofList (fractionText width (d.nanos % size)) ++ sign

def outline (d : Duration) : Outline := .atom d.text

end Duration

end CallGuard

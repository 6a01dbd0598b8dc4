/-
The decimal text of a binary64 number: the fewest significant digits that read back as the same
number, the nearest of those to it, laid out as a `Layout` asks. Digits are found by testing, for
one, two, … seventeen digits, the two neighbours of the number on that decimal grid against the
interval of reals that round to it.
-/
import CallGuard.Number.Binary64

namespace CallGuard

/-! ## Layouts -/

/-- Which of two equally near decimals is taken. -/
inductive Tie where
  | even
  | away

/-- How a number is written around its digits. Exponents are those of the first digit. -/
structure Layout where
  /-- A whole number keeps a point and a zero. -/
  wholePoint : Bool
  /-- Numbers below ten to this power are written with an exponent. -/
  lowest : Option Int
  /-- Numbers from ten to this power on are written with an exponent. -/
  highest : Option Int
  /-- A positive exponent is written with its sign. -/
  exponentPlus : Bool
  tie : Tie

/-- Text for messages: never an exponent, no point in a whole number. -/
def Layout.message : Layout := ⟨false, none, none, false, .away⟩

/-- Text for outlines of values: a whole number keeps `.0`, very small and large ones an exponent. -/
def Layout.outline : Layout := ⟨true, some (-4), some 16, false, .away⟩

/-- Text for configuration files. -/
def Layout.config : Layout := ⟨true, some (-5), some 16, true, .even⟩

/-! ## Digits -/

/-- A decimal `0.d₁d₂… · 10 ^ point`. -/
structure Digits where
  digits : List Char
  point : Int

/-- `a / b < c · 10 ^ p`, without a quotient. -/
def belowScaled (a b c : Nat) (p : Int) : Bool :=
  a * tenPow (-p).toNat < c * b * tenPow p.toNat

/-- The least power of ten above a positive magnitude: the number of its digits before the point. -/
def pointOf (units : Nat) : Int :=
  let guess := (((units.log2 : Int) - 1074) * 30103) / 100000
  ((List.range 4).map fun (i : Nat) => guess - 1 + (i : Int)).find? (belowScaled units unitsPerOne 1 ·)
    |>.getD (guess + 3)

/-- Reads back as the count `units`: the scaled decimal `c · 10 ^ p` lies between the midpoints to
the neighbouring counts, or on one of them if the count is even. -/
def readsBack (units c : Nat) (p : Int) : Bool :=
  let gap := twoPow (excess units)
  let low := if units = twoPow units.log2 ∧ 1 < gap then 4 * units - gap else 4 * units - 2 * gap
  let high := 4 * units + 2 * gap
  let scaled := 4 * c * unitsPerOne * tenPow p.toNat
  let below := low * tenPow (-p).toNat
  let above := high * tenPow (-p).toNat
  if units / gap % 2 = 0 then below ≤ scaled && scaled ≤ above
  else below < scaled && scaled < above

/-- The better of the two neighbours of a magnitude on the grid of `10 ^ p`, if either reads back. -/
def onGrid (tie : Tie) (units : Nat) (p : Int) : Option Nat :=
  let num := units * tenPow (-p).toNat
  let den := unitsPerOne * tenPow p.toNat
  let c := num / den
  let rest := num % den
  match readsBack units c p, readsBack units (c + 1) p with
  | true, false => some c
  | false, true => some (c + 1)
  | false, false => none
  | true, true =>
    if 2 * rest < den then some c
    else if den < 2 * rest then some (c + 1)
    else match tie with
      | .away => some (c + 1)
      | .even => if c % 2 = 0 then some c else some (c + 1)

/-- The shortest digits of a positive magnitude. -/
def shortestDigits (tie : Tie) (units : Nat) : Digits :=
  let point := pointOf units
  let found := (List.range 17).findSome? fun (k : Nat) =>
    (onGrid tie units (point - (k + 1 : Int))).map fun c => (c, k + 1)
  let (c, k) := found.getD (0, 1)
  let all := Nat.toDigits 10 c
  { digits := (all.reverse.dropWhile (· == '0')).reverse
    point := point + all.length - (k : Int) }

/-! ## Text -/

def zeros (n : Nat) : List Char := List.replicate n '0'

/-- Digits with a point among, before or behind them. -/
def Digits.positional (wholePoint : Bool) (d : Digits) : List Char :=
  let n : Int := d.digits.length
  if d.point ≤ 0 then '0' :: '.' :: zeros (-d.point).toNat ++ d.digits
  else if d.point < n then d.digits.take d.point.toNat ++ '.' :: d.digits.drop d.point.toNat
  else d.digits ++ zeros (d.point - n).toNat ++ (if wholePoint then ['.', '0'] else [])

/-- One digit before the point, the others behind it, and an exponent. -/
def Digits.scientific (exponentPlus : Bool) (d : Digits) : List Char :=
  let exponent := d.point - 1
  d.digits.take 1 ++ (if d.digits.length ≤ 1 then [] else '.' :: d.digits.drop 1) ++ 'e' ::
    ((if 0 ≤ exponent then (if exponentPlus then ['+'] else []) else ['-']) ++
      Nat.toDigits 10 exponent.natAbs)

/-- The text of a magnitude. -/
def magnitudeText (l : Layout) (units : Nat) : List Char :=
  if units = 0 then (if l.wholePoint then ['0', '.', '0'] else ['0'])
  else
    let d := shortestDigits l.tie units
    let exponent := d.point - 1
    if l.lowest.any (exponent < ·) || l.highest.any (· ≤ exponent) then d.scientific l.exponentPlus
    else d.positional l.wholePoint

/-- The text of a number. -/
def Binary64.text (l : Layout) : Binary64 → String
  | .nan => "NaN"
  | .infinite s => if s then "-inf" else "inf"
  | .finite s n _ => String.ofList ((if s then ['-'] else []) ++ magnitudeText l n)

end CallGuard

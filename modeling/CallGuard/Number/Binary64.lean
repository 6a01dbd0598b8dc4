/-
Binary64 numbers as exact data. A finite number is a whole count of units of `2 ^ (-1074)`, so
sums, comparisons and conversions are arithmetic on `Nat`; `nearestFit` is the one place that
rounds, to the nearest count that 53 significant bits can hold and to the even one of two.
Main statement: what `nearestFit` returns always fits (`dvd_nearestFit`).
-/
import CallGuard.Number.Power

namespace CallGuard

/-! ## Rounding -/

/-- How many low bits of a count 53 significant bits leave no room for. -/
def excess (n : Nat) : Nat := n.log2 + 1 - 53

/-- How many units one has. -/
def unitsPerOne : Nat := twoPow 1074

/-- Counts of units from here on are infinite. -/
def overflowUnits : Nat := twoPow 2098

/-- A count of units that a finite number can hold. -/
def Fits (n : Nat) : Prop := twoPow (excess n) ∣ n ∧ n < overflowUnits

instance (n : Nat) : Decidable (Fits n) := inferInstanceAs (Decidable (_ ∧ _))

/-- The whole number nearest to `num / den`; the even one of two that are equally near. -/
def nearest (num den : Nat) : Nat :=
  let whole := num / den
  let rest := num % den
  if 2 * rest < den ∨ (2 * rest = den ∧ whole % 2 = 0) then whole else whole + 1

/-- The count nearest to `num / den` among those of at most 53 significant bits. -/
def nearestFit (num den : Nat) : Nat :=
  let step := twoPow (excess (num / den))
  step * nearest num (den * step)

theorem excess_le_of_lt {n k : Nat} (h : n < twoPow (k + 53)) : excess n ≤ k := by
  unfold excess
  by_cases hn : n = 0
  · subst hn; simp
  · have := (log2_lt_iff hn).2 h
    omega

theorem lt_twoPow_excess (n : Nat) : n < twoPow (excess n + 53) := by
  unfold excess
  by_cases hn : n = 0
  · subst hn; exact twoPow_pos _
  · exact (log2_lt_iff hn).1 (by omega)

theorem nearest_le (num den : Nat) : nearest num den ≤ num / den + 1 := by
  simp only [nearest]; split <;> omega

/-- A count loses enough bits to have 53 of them at most, up to a carry. -/
theorem nearest_le_twoPow (num den : Nat) :
    nearest num (den * twoPow (excess (num / den))) ≤ twoPow 53 := by
  refine Nat.le_trans (nearest_le _ _) ?_
  rw [← Nat.div_div_eq_div_mul]
  have h := lt_twoPow_excess (num / den)
  rw [Nat.add_comm, twoPow_add] at h
  exact Nat.div_lt_of_lt_mul (Nat.mul_comm _ _ ▸ h)

/-- What rounding returns has no bit below the room there is. -/
theorem dvd_nearestFit (num den : Nat) :
    twoPow (excess (nearestFit num den)) ∣ nearestFit num den := by
  have hk := nearest_le_twoPow num den
  simp only [nearestFit]
  generalize excess (num / den) = s at hk ⊢
  generalize nearest num (den * twoPow s) = k at hk ⊢
  rcases Nat.lt_or_eq_of_le hk with hlt | heq
  · have hfit : twoPow s * k < twoPow (s + 53) := by
      rw [twoPow_add]; exact Nat.mul_lt_mul_of_pos_left hlt (twoPow_pos s)
    exact Nat.dvd_trans (twoPow_dvd (excess_le_of_lt hfit)) (Nat.dvd_mul_right _ _)
  · subst heq
    have hfit : twoPow s * twoPow 53 < twoPow (s + 1 + 53) := by
      rw [← twoPow_add]; exact twoPow_lt (by omega)
    have hdvd : twoPow (s + 1) ∣ twoPow s * twoPow 53 := by
      rw [← twoPow_add]; exact twoPow_dvd (by omega)
    exact Nat.dvd_trans (twoPow_dvd (excess_le_of_lt hfit)) hdvd

/-! ## The numbers -/

/-- A binary64 number: not a number, an infinity, or a signed count of units that fits. -/
inductive Binary64 where
  | nan
  | infinite (negative : Bool)
  | finite (negative : Bool) (units : Nat) (fits : Fits units)
deriving DecidableEq

namespace Binary64

/-- The number of a sign and a magnitude `num / den` in units, rounded. -/
def round (negative : Bool) (num den : Nat) : Binary64 :=
  if h : nearestFit num den < overflowUnits then
    .finite negative (nearestFit num den) ⟨dvd_nearestFit num den, h⟩
  else
    .infinite negative

/-- The number nearest to `num / den`. -/
def ofRatio (negative : Bool) (num den : Nat) : Binary64 := round negative (num * unitsPerOne) den

/-- The number nearest to a whole number. -/
def ofNat (n : Nat) : Binary64 := ofRatio false n 1

instance (n : Nat) : OfNat Binary64 n := ⟨ofNat n⟩

instance : Inhabited Binary64 := ⟨0⟩

/-- The number nearest to `digits · 10 ^ exponent`. Numbers far outside the range are settled
without forming the power. -/
def ofDecimal (negative : Bool) (digits : Nat) (exponent : Int) : Binary64 :=
  let places := ((Nat.toDigits 10 digits).length : Int) + exponent
  if digits = 0 ∨ places < -330 then ofRatio negative 0 1
  else if places > 310 then .infinite negative
  else if 0 ≤ exponent then ofRatio negative (digits * tenPow exponent.toNat) 1
  else ofRatio negative digits (tenPow (-exponent).toNat)

def isNegative : Binary64 → Bool
  | nan => false
  | infinite s => s
  | finite s _ _ => s

def isFinite : Binary64 → Bool
  | finite _ _ _ => true
  | _ => false

def isNaN : Binary64 → Bool
  | nan => true
  | _ => false

/-! ## Arithmetic -/

def neg : Binary64 → Binary64
  | nan => nan
  | infinite s => infinite (!s)
  | finite s n h => finite (!s) n h

/-- The sum, rounded. A sum of exactly zero is negative only if both terms are. -/
def add : Binary64 → Binary64 → Binary64
  | nan, _ | _, nan => nan
  | infinite s, infinite t => if s = t then infinite s else nan
  | infinite s, finite _ _ _ | finite _ _ _, infinite s => infinite s
  | finite s a _, finite t b _ =>
    if s = t then round s (a + b) 1
    else if b < a then round s (a - b) 1
    else if a < b then round t (b - a) 1
    else round false 0 1

def sub (x y : Binary64) : Binary64 := add x (neg y)

/-- The product, rounded. -/
def mul : Binary64 → Binary64 → Binary64
  | nan, _ | _, nan => nan
  | infinite s, infinite t => infinite (s != t)
  | infinite s, finite t b _ | finite t b _, infinite s => if b = 0 then nan else infinite (s != t)
  | finite s a _, finite t b _ => round (s != t) (a * b) unitsPerOne

/-- The quotient, rounded. -/
def div : Binary64 → Binary64 → Binary64
  | nan, _ | _, nan => nan
  | infinite _, infinite _ => nan
  | infinite s, finite t _ _ => infinite (s != t)
  | finite s _ _, infinite t => round (s != t) 0 1
  | finite s a _, finite t b _ =>
    if b = 0 then (if a = 0 then nan else infinite (s != t))
    else round (s != t) (a * unitsPerOne) b

instance : Neg Binary64 := ⟨neg⟩
instance : Add Binary64 := ⟨add⟩
instance : Sub Binary64 := ⟨sub⟩
instance : Mul Binary64 := ⟨mul⟩
instance : Div Binary64 := ⟨div⟩

/-- The power by repeated squaring from the low bit of the exponent; each product is rounded. -/
def powFrom (result x : Binary64) (n : Nat) : Binary64 :=
  let result := if n % 2 = 1 then result * x else result
  if n / 2 = 0 then result else powFrom result (x * x) (n / 2)
termination_by n
decreasing_by omega

def pow (x : Binary64) (n : Nat) : Binary64 := powFrom 1 x n

/-! ## Order -/

/-- The whole count of units with its sign, infinities beyond every finite number. -/
def signedUnits : Binary64 → Int
  | nan => 0
  | infinite s => if s then -(overflowUnits : Int) else overflowUnits
  | finite s n _ => if s then -(n : Int) else n

/-- Comparison as numbers: false if either is not a number, and the two zeros are equal. -/
def lt (x y : Binary64) : Bool := !x.isNaN && !y.isNaN && decide (x.signedUnits < y.signedUnits)

def le (x y : Binary64) : Bool := !x.isNaN && !y.isNaN && decide (x.signedUnits ≤ y.signedUnits)

/-- The larger of two numbers; a number wins over what is none. -/
def max (x y : Binary64) : Binary64 :=
  if x.isNaN then y else if y.isNaN then x else if x.lt y then y else x

/-! ## Whole numbers -/

/-- The whole part, clamped to what 64 bits without a sign can hold; nothing for what is no number. -/
def truncate64 : Binary64 → Nat
  | nan => 0
  | infinite s => if s then 0 else wordValues - 1
  | finite s n _ => if s then 0 else min (n / unitsPerOne) (wordValues - 1)

end Binary64

end CallGuard

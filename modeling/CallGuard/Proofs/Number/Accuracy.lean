/-
How far rounding strays. The exact value of a finite number is rational (`Binary64.exact`), and every sum, difference,
product and quotient that is finite is the exact one up to a share of `2 ^ (-53)` of it and half a unit
(`Binary64.roundoff`).

Only the few smallest numbers need the half unit: from the smallest normal number on, the share covers it. It is kept
because it makes the bounds hold of all numbers, and because it is too small to matter in any sum of bounds.
-/
import CallGuard.Proofs.Number.Whole
import Mathlib.Algebra.Order.Field.Basic
import Mathlib.Data.Nat.Cast.Order.Field
import Mathlib.Data.Rat.Cast.Order
import Mathlib.Data.Rat.Floor
import Mathlib.Tactic.FieldSimp
import Mathlib.Tactic.Linarith
import Mathlib.Tactic.Positivity
import Mathlib.Tactic.Ring

namespace CallGuard

/-! ## Whole numbers and counts -/

theorem abs_nearest_sub_le (num : Nat) {den : Nat} (hd : 0 < den) : |(nearest num den : ℚ) - num / den| ≤ 1 / 2 := by
  have hsum := Nat.div_add_mod num den
  have hrest := Nat.mod_lt num hd
  have hbounds : 2 * num ≤ 2 * (den * nearest num den) + den ∧ 2 * (den * nearest num den) ≤ 2 * num + den := by
    simp only [nearest]
    split
    · omega
    · rw [Nat.mul_add]
      omega
  have hlow : (2 * num : ℚ) ≤ 2 * (den * nearest num den) + den := by exact_mod_cast hbounds.1
  have hhigh : (2 * (den * nearest num den) : ℚ) ≤ 2 * num + den := by exact_mod_cast hbounds.2
  have hpos : (0 : ℚ) < den := by exact_mod_cast hd
  have hnum : (num : ℚ) = den * (num / den) := by field_simp
  rw [abs_le]
  constructor <;> nlinarith

/-- What is nearest to a quotient that is less than a half away from a whole number. -/
theorem nearest_eq_of_abs_sub_lt {num den n : Nat} (hd : 0 < den) (h : |(num : ℚ) / den - n| < 1 / 2) :
    nearest num den = n := by
  have hnear := abs_le.1 (abs_nearest_sub_le num hd)
  have hclose := abs_lt.1 h
  have hlow : (nearest num den : ℚ) < n + 1 := by linarith
  have hhigh : (n : ℚ) < nearest num den + 1 := by linarith
  have hlow' : nearest num den < n + 1 := by exact_mod_cast hlow
  have hhigh' : n < nearest num den + 1 := by exact_mod_cast hhigh
  omega

/-- The gap between the counts of a size is a small share of them, unless it is one. -/
theorem twoPow_excess_le_share (n : Nat) : (twoPow (excess n) : ℚ) ≤ n / 2 ^ 52 + 1 := by
  rcases Nat.eq_zero_or_pos (excess n) with hzero | hpos
  · rw [hzero, show twoPow 0 = 1 from rfl]
    have : (0 : ℚ) ≤ n / 2 ^ 52 := by positivity
    push_cast
    linarith
  · have h := twoPow_le_of_excess_pos hpos
    rw [twoPow_add, show twoPow 52 = 2 ^ 52 from rfl] at h
    have hcast : (twoPow (excess n) : ℚ) * 2 ^ 52 ≤ n := by exact_mod_cast h
    have : (twoPow (excess n) : ℚ) ≤ n / 2 ^ 52 := by rwa [le_div_iff₀ (by positivity)]
    linarith

theorem abs_nearestFit_sub_le (num : Nat) {den : Nat} (hd : 0 < den) :
    |(nearestFit num den : ℚ) - num / den| ≤ num / den / 2 ^ 53 + 1 / 2 := by
  have hgap := twoPow_pos (excess (num / den))
  have hshare := twoPow_excess_le_share (num / den)
  have hnear := abs_nearest_sub_le num (Nat.mul_pos hd hgap)
  have hfloor : ((num / den : Nat) : ℚ) ≤ num / den := Nat.cast_div_le
  have hgap' : (0 : ℚ) < twoPow (excess (num / den)) := by exact_mod_cast hgap
  simp only [nearestFit]
  push_cast at hnear ⊢
  generalize (twoPow (excess (num / den)) : ℚ) = gap at *
  have hfactor : ∀ x : ℚ, gap * x - num / den = gap * (x - num / (den * gap)) := by
    intro x
    have hne : gap ≠ 0 := ne_of_gt hgap'
    have hden : (den : ℚ) ≠ 0 := by exact_mod_cast Nat.ne_of_gt hd
    field_simp
  rw [hfactor, abs_mul, abs_of_pos hgap']
  calc gap * _ ≤ gap * (1 / 2) := mul_le_mul_of_nonneg_left hnear (le_of_lt hgap')
    _ ≤ ((num / den : Nat) / 2 ^ 52 + 1) * (1 / 2) := by gcongr
    _ ≤ (num / den / 2 ^ 52 + 1) * (1 / 2) := by gcongr
    _ = num / den / 2 ^ 53 + 1 / 2 := by ring

namespace Binary64

/-! ## Exact values -/

/-- The exact value of a finite number. -/
def exact (x : Binary64) : ℚ := x.signedUnits / unitsPerOne

/-- One, or minus one. -/
def sign (negative : Bool) : ℚ := if negative then -1 else 1

/-- Half a unit. -/
def halfUnit : ℚ := 1 / (2 * unitsPerOne)

/-- What rounding may add to a value, or take from it. -/
def roundoff (v : ℚ) : ℚ := |v| / 2 ^ 53 + halfUnit

theorem units_pos : (0 : ℚ) < unitsPerOne := by exact_mod_cast unitsPerOne_pos

theorem halfUnit_pos : 0 < halfUnit := div_pos one_pos (mul_pos two_pos units_pos)

theorem halfUnit_le : halfUnit ≤ 1 / 2 ^ 200 := by
  have hunits : twoPow 200 ≤ unitsPerOne := twoPow_le (by decide)
  have hcast : (2 ^ 200 : ℚ) ≤ unitsPerOne := by exact_mod_cast hunits
  exact one_div_le_one_div_of_le (by positivity) (by linarith [units_pos])

theorem roundoff_nonneg (v : ℚ) : 0 ≤ roundoff v := by
  have := halfUnit_pos
  unfold roundoff
  positivity

theorem roundoff_mono {u v : ℚ} (h : |u| ≤ |v|) : roundoff u ≤ roundoff v := by
  unfold roundoff
  gcongr

/-- A value that was off before it was rounded is hardly further off afterwards. -/
theorem abs_sub_le_of_roundoff {r v w e : ℚ} (hr : |r - v| ≤ roundoff v) (hv : |v - w| ≤ e) :
    |r - w| ≤ roundoff w + e + e / 2 ^ 53 := by
  have hle : |v| ≤ |w| + e := by
    have := abs_sub_abs_le_abs_sub v w
    linarith
  have hround : roundoff v ≤ (|w| + e) / 2 ^ 53 + halfUnit := by
    unfold roundoff
    gcongr
  calc |r - w| ≤ |r - v| + |v - w| := abs_sub_le r v w
    _ ≤ (|w| + e) / 2 ^ 53 + halfUnit + e := add_le_add (hr.trans hround) hv
    _ = roundoff w + e + e / 2 ^ 53 := by unfold roundoff; ring

theorem roundoff_le_of_abs_le {v a : ℚ} (h : |v| ≤ a) : roundoff v ≤ a / 2 ^ 53 + 1 / 2 ^ 200 := by
  have := halfUnit_le
  unfold roundoff
  gcongr

theorem exact_finite (s : Bool) (n : Nat) (fits : Fits n) : (finite s n fits).exact = sign s * n / unitsPerOne := by
  cases s with
  | true =>
    show ((-(n : ℤ) : ℤ) : ℚ) / unitsPerOne = -1 * n / unitsPerOne
    rw [Int.cast_neg, Int.cast_natCast, neg_one_mul]
  | false =>
    show ((n : ℤ) : ℚ) / unitsPerOne = 1 * n / unitsPerOne
    rw [Int.cast_natCast, one_mul]

theorem signedUnits_neg (x : Binary64) : (neg x).signedUnits = -x.signedUnits := by
  cases x with
  | nan => rfl
  | infinite s | finite s n fits =>
    cases s with
    | true => exact (Int.neg_neg _).symm
    | false => rfl

theorem exact_neg (x : Binary64) : (neg x).exact = -x.exact := by
  rw [exact, exact, signedUnits_neg, Int.cast_neg, neg_div]

theorem sign_bne (s t : Bool) : sign (s != t) = sign s * sign t := by cases s <;> cases t <;> simp [sign]

theorem abs_sign (s : Bool) : |sign s| = 1 := by cases s <;> simp [sign]

theorem sign_eq (s : Bool) : sign s = 1 ∨ sign s = -1 := by cases s <;> simp [sign]

theorem exists_finite {x : Binary64} (h : x.isFinite = true) : ∃ s n fits, x = finite s n fits := by
  cases x with
  | finite s n fits => exact ⟨s, n, fits, rfl⟩
  | nan | infinite _ => cases h

theorem Whole.exact_eq {x : Binary64} {n : Nat} (h : x.Whole n) : x.exact = n := by
  obtain ⟨fits, rfl⟩ := h
  have hne : (unitsPerOne : ℚ) ≠ 0 := ne_of_gt units_pos
  rw [exact_finite, sign, Nat.cast_mul]
  field_simp
  simp

/-- The order of finite numbers is that of their exact values. -/
theorem le_iff_exact {x y : Binary64} (hx : x.isFinite = true) (hy : y.isFinite = true) :
    x.le y = true ↔ x.exact ≤ y.exact := by
  obtain ⟨s, a, ha, rfl⟩ := exists_finite hx
  obtain ⟨t, b, hb, rfl⟩ := exists_finite hy
  rw [le, exact, exact, div_le_div_iff_of_pos_right units_pos]
  simp [isNaN]

/-- What lies between finite numbers is finite. -/
theorem isFinite_of_between {low x high : Binary64} (hlow : low.isFinite = true) (hhigh : high.isFinite = true)
    (h : low.le x = true) (h' : x.le high = true) : x.isFinite = true := by
  obtain ⟨s, a, ha, rfl⟩ := exists_finite hlow
  obtain ⟨t, b, hb, rfl⟩ := exists_finite hhigh
  have hbelow := ha.2
  have habove := hb.2
  simp only [le, Bool.and_eq_true, Bool.not_eq_true', decide_eq_true_eq] at h h'
  cases x with
  | nan => exact absurd h.1.2 (by decide)
  | infinite u =>
    simp only [signedUnits] at h h'
    split_ifs at h h' <;> omega
  | finite u n fits => rfl

/-- The whole part of a number that is not negative and not too large. -/
theorem truncate64_eq_floor {x : Binary64} (hx : x.isFinite = true) (hnonneg : 0 ≤ x.exact) (h : x.exact < 2 ^ 64) :
    (x.truncate64 : ℤ) = ⌊x.exact⌋ := by
  obtain ⟨s, n, fits, rfl⟩ := exists_finite hx
  have hunits := units_pos
  rw [exact_finite] at hnonneg h ⊢
  cases s with
  | true =>
    -- Only zero is negative and not below zero.
    have hn : (n : ℚ) = 0 := by
      have hle := (le_div_iff₀ hunits).1 hnonneg
      have : (0 : ℚ) ≤ n := Nat.cast_nonneg n
      simp only [sign, if_true] at hle
      linarith
    rw [hn, mul_zero, zero_div, Int.floor_zero]
    rfl
  | false =>
    have hone : sign false * (n : ℚ) = n := by simp [sign]
    rw [hone] at h ⊢
    have hfloor : ⌊(n : ℚ) / unitsPerOne⌋ = (n / unitsPerOne : Nat) := by
      exact_mod_cast Rat.floor_natCast_div_natCast n unitsPerOne
    have hlt : n / unitsPerOne < 2 ^ 64 := by
      have : ((n / unitsPerOne : Nat) : ℚ) < 2 ^ 64 := lt_of_le_of_lt Nat.cast_div_le h
      exact_mod_cast this
    rw [hfloor, truncate64, if_neg Bool.false_ne_true, Nat.min_eq_left]
    unfold wordValues
    omega

/-! ## Rounded operations -/

theorem abs_exact_round_sub_le (s : Bool) {num den : Nat} (hd : 0 < den) {v : ℚ}
    (hv : v = sign s * (num / den / unitsPerOne)) (h : (round s num den).isFinite = true) :
    |(round s num den).exact - v| ≤ roundoff v := by
  have hunits := units_pos
  have hnear := abs_nearestFit_sub_le num hd
  have hquotient : (0 : ℚ) ≤ num / den / unitsPerOne :=
    div_nonneg (div_nonneg (Nat.cast_nonneg num) (Nat.cast_nonneg den)) (le_of_lt hunits)
  by_cases hlt : nearestFit num den < overflowUnits
  · obtain ⟨fits, hround⟩ := round_of_lt s hlt
    rw [hround, exact_finite, hv]
    have hfactor : sign s * nearestFit num den / unitsPerOne - sign s * (num / den / unitsPerOne) =
        sign s * ((nearestFit num den - num / den) / unitsPerOne) := by ring
    rw [hfactor, roundoff, halfUnit, abs_mul, abs_mul, abs_sign, one_mul, one_mul, abs_div, abs_of_pos hunits,
      abs_of_nonneg hquotient, div_le_iff₀ hunits]
    refine hnear.trans (le_of_eq ?_)
    field_simp
  · rw [round, dif_neg hlt] at h
    cases h

section Operations

variable {x y : Binary64}

theorem abs_exact_mul_sub_le (hx : x.isFinite = true) (hy : y.isFinite = true) (h : (x * y).isFinite = true) :
    |(x * y).exact - x.exact * y.exact| ≤ roundoff (x.exact * y.exact) := by
  obtain ⟨s, a, ha, rfl⟩ := exists_finite hx
  obtain ⟨t, b, hb, rfl⟩ := exists_finite hy
  rw [finite_mul_finite] at h ⊢
  refine abs_exact_round_sub_le _ unitsPerOne_pos ?_ h
  rw [exact_finite, exact_finite, sign_bne]
  push_cast
  ring

theorem exact_mul_of_zero (hx : x.isFinite = true) (hy : y.isFinite = true) (hzero : y.exact = 0) :
    (x * y).exact = 0 := by
  obtain ⟨s, a, ha, rfl⟩ := exists_finite hx
  obtain ⟨t, b, hb, rfl⟩ := exists_finite hy
  have hunits : (unitsPerOne : ℚ) ≠ 0 := ne_of_gt units_pos
  have hsign : sign t ≠ 0 := by cases t <;> simp [sign]
  rw [exact_finite, div_eq_zero_iff, or_iff_left hunits, mul_eq_zero, or_iff_right hsign, Nat.cast_eq_zero] at hzero
  obtain ⟨fits, hround⟩ := round_zero (s != t) unitsPerOne
  rw [finite_mul_finite, hzero, Nat.mul_zero, hround, exact_finite, Nat.cast_zero, mul_zero, zero_div]

/-- A sum is rounded once, whatever the signs of its terms are. -/
theorem exists_add_eq_round (s t : Bool) {a b : Nat} (ha : Fits a) (hb : Fits b) :
    ∃ u num, finite s a ha + finite t b hb = round u num 1 ∧ sign u * num = sign s * a + sign t * b := by
  show ∃ u num, add (finite s a ha) (finite t b hb) = round u num 1 ∧ _
  rw [add]
  by_cases hsign : s = t
  · subst hsign
    rw [if_pos rfl]
    refine ⟨s, a + b, rfl, ?_⟩
    push_cast
    ring
  · have hopposite : sign t = -sign s := by cases s <;> cases t <;> simp_all [sign]
    rw [if_neg hsign]
    rcases Nat.lt_trichotomy b a with hlt | rfl | hlt
    · rw [if_pos hlt]
      refine ⟨s, a - b, rfl, ?_⟩
      rw [Nat.cast_sub (Nat.le_of_lt hlt), hopposite]
      ring
    · rw [if_neg (Nat.lt_irrefl _), if_neg (Nat.lt_irrefl _)]
      refine ⟨false, 0, rfl, ?_⟩
      rw [hopposite]
      simp
    · rw [if_neg (Nat.lt_asymm hlt), if_pos hlt]
      refine ⟨t, b - a, rfl, ?_⟩
      rw [Nat.cast_sub (Nat.le_of_lt hlt), hopposite]
      ring

theorem abs_exact_add_sub_le (hx : x.isFinite = true) (hy : y.isFinite = true) (h : (x + y).isFinite = true) :
    |(x + y).exact - (x.exact + y.exact)| ≤ roundoff (x.exact + y.exact) := by
  obtain ⟨s, a, ha, rfl⟩ := exists_finite hx
  obtain ⟨t, b, hb, rfl⟩ := exists_finite hy
  obtain ⟨u, num, hadd, hsum⟩ := exists_add_eq_round s t ha hb
  rw [hadd] at h ⊢
  refine abs_exact_round_sub_le u Nat.one_pos ?_ h
  rw [exact_finite, exact_finite, ← add_div, ← hsum]
  push_cast
  ring

/-- Adding zero changes nothing. -/
theorem exact_add_of_zero (hx : x.isFinite = true) (hy : y.isFinite = true) (hzero : y.exact = 0) :
    (x + y).exact = x.exact := by
  obtain ⟨s, a, ha, rfl⟩ := exists_finite hx
  obtain ⟨t, b, hb, rfl⟩ := exists_finite hy
  obtain ⟨u, num, hadd, hsum⟩ := exists_add_eq_round s t ha hb
  have hunits : (unitsPerOne : ℚ) ≠ 0 := ne_of_gt units_pos
  rw [exact_finite, div_eq_zero_iff, or_iff_left hunits] at hzero
  rw [hzero, add_zero] at hsum
  have hnum : num = a := by
    have habs := congrArg (fun q : ℚ => |q|) hsum
    simp only [abs_mul, abs_sign, one_mul, Nat.abs_cast] at habs
    exact_mod_cast habs
  subst hnum
  have hround := round_mul_self u Nat.one_pos ha
  rw [Nat.mul_one] at hround
  rw [hadd, hround, exact_finite, exact_finite, hsum]

theorem abs_exact_sub_sub_le (hx : x.isFinite = true) (hy : y.isFinite = true) (h : (x - y).isFinite = true) :
    |(x - y).exact - (x.exact - y.exact)| ≤ roundoff (x.exact - y.exact) := by
  rw [sub_eq_add_neg x.exact, ← exact_neg]
  exact abs_exact_add_sub_le hx ((isFinite_neg y).trans hy) h

theorem abs_exact_div_sub_le (hx : x.isFinite = true) (hy : y.isFinite = true) (h : (x / y).isFinite = true) :
    |(x / y).exact - x.exact / y.exact| ≤ roundoff (x.exact / y.exact) := by
  obtain ⟨s, a, ha, rfl⟩ := exists_finite hx
  obtain ⟨t, b, hb, rfl⟩ := exists_finite hy
  have hdiv : finite s a ha / finite t b hb =
      if b = 0 then (if a = 0 then nan else infinite (s != t)) else round (s != t) (a * unitsPerOne) b := by
    show div _ _ = _
    rw [div]
  rw [hdiv] at h ⊢
  by_cases hb0 : b = 0
  · -- Nothing finite is divided by zero.
    rw [if_pos hb0] at h
    split at h <;> cases h
  · rw [if_neg hb0] at h ⊢
    refine abs_exact_round_sub_le _ (Nat.pos_of_ne_zero hb0) ?_ h
    have hunits : (unitsPerOne : ℚ) ≠ 0 := ne_of_gt units_pos
    have hbq : (b : ℚ) ≠ 0 := by exact_mod_cast hb0
    rw [exact_finite, exact_finite, sign_bne]
    push_cast
    rcases sign_eq t with ht | ht <;> rw [ht] <;> field_simp

end Operations

end Binary64

end CallGuard

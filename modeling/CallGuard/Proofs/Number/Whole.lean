/-
Whole numbers. Those below `2 ^ 53` are numbers without rounding (`Binary64.ofNat_of_lt`), and so are the products and
powers of whole numbers as long as they stay below it (`Binary64.Whole.mul`, `Binary64.Whole.pow`): the power multiplies
only squares that are no larger than its result.
-/
import CallGuard.Proofs.Number.Growth
import Mathlib.Tactic.Ring

namespace CallGuard

/-! ## Counts of whole numbers -/

theorem unitsPerOne_le_twoPow (k : Nat) : unitsPerOne ≤ twoPow (1074 + k) := by
  unfold unitsPerOne
  exact twoPow_le (by omega)

theorem mul_unitsPerOne_pos {n : Nat} (h : 0 < n) : 0 < n * unitsPerOne := Nat.mul_pos h unitsPerOne_pos

theorem fits_mul_unitsPerOne {n : Nat} (h : n < twoPow 53) : Fits (n * unitsPerOne) := by
  have hlt := mul_unitsPerOne_lt h
  constructor
  · exact Nat.dvd_trans (twoPow_dvd (excess_le_of_lt hlt)) (Nat.dvd_mul_left _ _)
  · exact Nat.lt_trans hlt (twoPow_lt (by omega))

namespace Binary64

/-! ## Conversion and shares -/

theorem ofNat_of_lt {n : Nat} (h : n < twoPow 53) : ofNat n = finite false (n * unitsPerOne) (fits_mul_unitsPerOne h) :=
  ofNat_eq_of_fits rfl _

theorem fromOne_ofNat {n : Nat} (hpos : 0 < n) (h : n < twoPow 53) : (ofNat n).FromOne ∧ (ofNat n).isFinite = true := by
  rw [ofNat_of_lt h]
  exact ⟨.finite _ (Nat.le_mul_of_pos_left _ hpos), rfl⟩

/-- A share of a whole number by a larger one is at most one. -/
theorem ofNat_div_ofNat {r n : Nat} (hr : r ≤ n) (hpos : 0 < n) (hn : n < twoPow 53) :
    ∃ units fits, ofNat r / ofNat n = finite false units fits ∧ units ≤ unitsPerOne := by
  have hden := mul_unitsPerOne_pos hpos
  have hle : r * unitsPerOne * unitsPerOne ≤ unitsPerOne * (n * unitsPerOne) := by
    rw [Nat.mul_comm unitsPerOne]
    exact Nat.mul_le_mul_right _ (Nat.mul_le_mul_right _ hr)
  obtain ⟨fits, hround⟩ := round_eq_finite false hden fits_unitsPerOne hle
  refine ⟨_, fits, ?_, nearestFit_le hden hle fits_unitsPerOne.1⟩
  rw [ofNat_of_lt hn, ofNat_of_lt (Nat.lt_of_le_of_lt hr hn), ← hround]
  show div _ _ = _
  rw [div, if_neg (Nat.ne_of_gt hden), Bool.false_bne]

theorem ofNat_zero_div {n : Nat} (hpos : 0 < n) (hn : n < twoPow 53) : ∃ fits, ofNat 0 / ofNat n = finite false 0 fits := by
  obtain ⟨fits, hzero⟩ := ofNat_zero
  rw [hzero, ofNat_of_lt hn]
  show ∃ fits, div _ _ = _
  rw [div, if_neg (Nat.ne_of_gt (mul_unitsPerOne_pos hpos)), Bool.false_bne, Nat.zero_mul]
  exact round_zero false _

/-! ## Products and powers -/

/-- The number is this whole one. -/
def Whole (x : Binary64) (n : Nat) : Prop := ∃ fits, x = finite false (n * unitsPerOne) fits

theorem whole_ofNat {n : Nat} (h : n < twoPow 53) : (ofNat n).Whole n := ⟨_, ofNat_of_lt h⟩

theorem whole_one : Whole 1 1 := whole_ofNat (by decide)

namespace Whole

variable {r x y : Binary64} {a b k : Nat}

protected theorem isFinite (h : x.Whole a) : x.isFinite = true := by
  obtain ⟨fits, rfl⟩ := h
  rfl

protected theorem mul (hx : x.Whole a) (hy : y.Whole b) (h : a * b < twoPow 53) : (x * y).Whole (a * b) := by
  obtain ⟨fits, rfl⟩ := hx
  obtain ⟨fits', rfl⟩ := hy
  have hproduct : a * unitsPerOne * (b * unitsPerOne) = a * b * unitsPerOne * unitsPerOne := by ring
  have hround := round_mul_self false unitsPerOne_pos (fits_mul_unitsPerOne h)
  rw [← hproduct] at hround
  exact ⟨_, (finite_mul_finite false false fits fits').trans hround⟩

/-- The factors that the power multiplies are at most the power itself. -/
theorem powFrom (hr : r.Whole a) (hx : x.Whole b) (ha : 1 ≤ a) (hb : 1 ≤ b) (h : a * b ^ k < twoPow 53) :
    (powFrom r x k).Whole (a * b ^ k) := by
  induction k using Nat.strong_induction_on generalizing r x a b with
  | _ k ih =>
    rcases Nat.eq_zero_or_pos k with rfl | hpos
    · rw [powFrom_zero, pow_zero, Nat.mul_one]
      exact hr
    -- A bit of the exponent that is not the last one needs the square of its place, which the power contains.
    have hsquare : ∀ j, 0 < j → 2 * j ≤ k → (x * x).Whole (b * b) := by
      intro j hj hjk
      refine hx.mul hx (lt_of_le_of_lt ?_ h)
      calc b * b = b ^ 2 := (sq b).symm
        _ ≤ b ^ k := Nat.pow_le_pow_right hb (by omega)
        _ ≤ a * b ^ k := Nat.le_mul_of_pos_left _ ha
    obtain ⟨j, rfl | rfl⟩ := Nat.even_or_odd' k
    · have hexponent : a * b ^ (2 * j) = a * (b * b) ^ j := by rw [pow_mul, sq]
      rw [powFrom_two_mul, hexponent]
      rw [hexponent] at h
      exact ih j (by omega) hr (hsquare j (by omega) le_rfl) ha (Nat.mul_pos hb hb) h
    · have hexponent : a * b ^ (2 * j + 1) = a * b * (b * b) ^ j := by rw [pow_succ, pow_mul, sq]; ring
      have hfirst : a * b ≤ a * b * (b * b) ^ j := Nat.le_mul_of_pos_right _ (Nat.pow_pos (Nat.mul_pos hb hb))
      rw [hexponent] at h ⊢
      have hmul := hr.mul hx (lt_of_le_of_lt hfirst h)
      rw [powFrom_two_mul_add_one]
      rcases Nat.eq_zero_or_pos j with rfl | hj
      · rw [powFrom_zero, pow_zero, Nat.mul_one]
        exact hmul
      · exact ih j (by omega) hmul (hsquare j hj (by omega)) (Nat.mul_pos ha hb) (Nat.mul_pos hb hb) h

protected theorem pow (hx : x.Whole b) (hb : 1 ≤ b) (h : b ^ k < twoPow 53) : (x.pow k).Whole (b ^ k) := by
  rw [← Nat.one_mul (b ^ k)] at h ⊢
  exact whole_one.powFrom hx le_rfl hb h

end Whole

end Binary64

end CallGuard

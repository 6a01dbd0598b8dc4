/-
Rounding keeps the order of exact values: the count nearest to a larger quotient is never smaller
(`nearestFit_mono`), and a count that fits is nearest to itself (`nearestFit_mul_self`). A bound that
fits therefore bounds what a smaller quotient rounds to, and whatever stays far below the infinite
counts rounds to a finite number (`Binary64.round_eq_finite`), whole numbers among it
(`Binary64.ofNat_of_lt_twoPow`).
-/
import CallGuard.Number.Binary64

namespace CallGuard

/-! ## Whole numbers -/

theorem le_nearest (num den : Nat) : num / den ≤ nearest num den := by
  simp only [nearest]; split <;> omega

theorem nearest_mono {a b : Nat} (den : Nat) (h : a ≤ b) : nearest a den ≤ nearest b den := by
  rcases Nat.lt_or_eq_of_le (Nat.div_le_div_right (c := den) h) with hlt | heq
  · calc nearest a den ≤ a / den + 1 := nearest_le a den
      _ ≤ b / den := hlt
      _ ≤ nearest b den := le_nearest b den
  · have hrest : a % den ≤ b % den := by
      have ha := Nat.div_add_mod a den
      have hb := Nat.div_add_mod b den
      rw [heq] at ha
      omega
    simp only [nearest, heq]
    split <;> split <;> omega

theorem nearest_zero (den : Nat) : nearest 0 den = 0 := by
  rw [nearest, Nat.zero_div, Nat.zero_mod]
  exact if_pos (by omega)

theorem nearest_mul_self (n : Nat) {den : Nat} (hd : 0 < den) : nearest (n * den) den = n := by
  simp [nearest, Nat.mul_div_cancel n hd, hd]

/-! ## Counts that fit -/

theorem excess_mono {a b : Nat} (h : a ≤ b) : excess a ≤ excess b :=
  excess_le_of_lt (Nat.lt_of_le_of_lt h (lt_twoPow_excess b))

/-- A count with bits to lose is at least the power of two that its leading bit stands for. -/
theorem twoPow_le_of_excess_pos {n : Nat} (h : 0 < excess n) : twoPow (excess n + 52) ≤ n := by
  unfold excess at h ⊢
  have hn : n ≠ 0 := by rintro rfl; simp at h
  rw [show n.log2 + 1 - 53 + 52 = n.log2 by omega]
  exact Nat.le_of_not_lt fun hlt => Nat.lt_irrefl _ ((log2_lt_iff hn).2 hlt)

theorem nearestFit_le_twoPow (num den : Nat) : nearestFit num den ≤ twoPow (excess (num / den) + 53) := by
  rw [twoPow_add]
  exact Nat.mul_le_mul_left _ (nearest_le_twoPow num den)

theorem twoPow_le_nearestFit {num den : Nat} (h : 0 < excess (num / den)) :
    twoPow (excess (num / den) + 52) ≤ nearestFit num den := by
  rw [twoPow_add]
  refine Nat.mul_le_mul_left _ (Nat.le_trans ?_ (le_nearest _ _))
  rw [← Nat.div_div_eq_div_mul, Nat.le_div_iff_mul_le (twoPow_pos _), ← twoPow_add, Nat.add_comm]
  exact twoPow_le_of_excess_pos h

theorem nearestFit_mono {a b : Nat} (den : Nat) (h : a ≤ b) : nearestFit a den ≤ nearestFit b den := by
  have hq : a / den ≤ b / den := Nat.div_le_div_right h
  rcases Nat.lt_or_eq_of_le (excess_mono hq) with hlt | heq
  -- a step further apart, the smaller one ends below where the larger one begins
  · calc nearestFit a den ≤ twoPow (excess (a / den) + 53) := nearestFit_le_twoPow a den
      _ ≤ twoPow (excess (b / den) + 52) := twoPow_le (by omega)
      _ ≤ nearestFit b den := twoPow_le_nearestFit (by omega)
  · simp only [nearestFit, heq]
    exact Nat.mul_le_mul_left _ (nearest_mono _ h)

theorem nearestFit_mul_self {n den : Nat} (hd : 0 < den) (hn : twoPow (excess n) ∣ n) :
    nearestFit (n * den) den = n := by
  have hfit : nearest (n * den) (den * twoPow (excess n)) = n / twoPow (excess n) := by
    obtain ⟨k, hk⟩ := hn
    generalize twoPow (excess n) = s at hk ⊢
    rcases Nat.eq_zero_or_pos s with rfl | hs
    · simp_all [nearest]
    · rw [hk, Nat.mul_div_cancel_left k hs, show s * k * den = k * (den * s) by
        rw [Nat.mul_comm s k, Nat.mul_assoc, Nat.mul_comm s den]]
      exact nearest_mul_self k (Nat.mul_pos hd hs)
  simp only [nearestFit, Nat.mul_div_cancel n hd, hfit]
  exact Nat.mul_div_cancel' hn

/-- A bound that fits still bounds a quotient after rounding. -/
theorem nearestFit_le {num den n : Nat} (hd : 0 < den) (h : num ≤ n * den) (hn : twoPow (excess n) ∣ n) :
    nearestFit num den ≤ n :=
  nearestFit_mul_self hd hn ▸ nearestFit_mono den h

theorem le_nearestFit {num den n : Nat} (hd : 0 < den) (h : n * den ≤ num) (hn : twoPow (excess n) ∣ n) :
    n ≤ nearestFit num den :=
  nearestFit_mul_self hd hn ▸ nearestFit_mono den h

theorem twoPow_succ (k : Nat) : twoPow (k + 1) = 2 * twoPow k := Nat.pow_succ'

theorem twoPow_fits {k : Nat} (h : k < 2098) : Fits (twoPow k) :=
  ⟨twoPow_dvd (excess_le_of_lt (twoPow_lt (by omega))), twoPow_lt h⟩

theorem unitsPerOne_pos : 0 < unitsPerOne := twoPow_pos _

theorem unitsPerOne_lt_overflowUnits : unitsPerOne < overflowUnits := by
  unfold unitsPerOne overflowUnits; exact twoPow_lt (by omega)

theorem fits_unitsPerOne : Fits unitsPerOne := twoPow_fits (by omega)

theorem mul_unitsPerOne_lt {n k : Nat} (h : n < twoPow k) : n * unitsPerOne < twoPow (1074 + k) := by
  rw [Nat.add_comm, twoPow_add]
  exact Nat.mul_lt_mul_of_pos_right h unitsPerOne_pos

/-! ## Finite results -/

namespace Binary64

theorem isFinite_neg (x : Binary64) : x.neg.isFinite = x.isFinite := by cases x <;> rfl

theorem round_of_lt (negative : Bool) {num den : Nat} (h : nearestFit num den < overflowUnits) :
    ∃ fits, round negative num den = finite negative (nearestFit num den) fits :=
  ⟨⟨dvd_nearestFit num den, h⟩, dif_pos h⟩

/-- What is at most a count that fits rounds to a finite number. -/
theorem round_eq_finite (negative : Bool) {num den n : Nat} (hd : 0 < den) (hn : Fits n) (h : num ≤ n * den) :
    ∃ fits, round negative num den = finite negative (nearestFit num den) fits :=
  round_of_lt negative (Nat.lt_of_le_of_lt (nearestFit_le hd h hn.1) hn.2)

/-- A count that fits is not rounded. -/
theorem round_mul_self (s : Bool) {n den : Nat} (hd : 0 < den) (fits : Fits n) :
    round s (n * den) den = finite s n fits := by
  have hnear := nearestFit_mul_self hd fits.1
  simp only [round, hnear, fits.2, dite_true]

theorem round_zero (negative : Bool) (den : Nat) : ∃ fits, round negative 0 den = finite negative 0 fits := by
  have hzero : nearestFit 0 den = 0 := by rw [nearestFit, nearest_zero, Nat.mul_zero]
  have hlt : nearestFit 0 den < overflowUnits := by
    rw [hzero]
    unfold overflowUnits
    exact twoPow_pos _
  have hround := round_of_lt negative hlt
  rwa [hzero] at hround

theorem finite_mul_finite (s t : Bool) {a b : Nat} (ha : Fits a) (hb : Fits b) :
    finite s a ha * finite t b hb = round (s != t) (a * b) unitsPerOne := by
  show mul _ _ = _
  rw [mul]

/-! ## Whole numbers as numbers -/

/-- A whole number whose count of units fits is not rounded. -/
theorem ofNat_eq_of_fits {n units : Nat} (h : n * unitsPerOne = units) (fits : Fits units) :
    ofNat n = .finite false units fits := by
  have hround := round_mul_self false Nat.one_pos fits
  rw [Nat.mul_one] at hround
  rw [ofNat, ofRatio, h, hround]

theorem ofNat_zero : ∃ fits, ofNat 0 = finite false 0 fits := by
  rw [ofNat, ofRatio, Nat.zero_mul]
  exact round_zero false 1

theorem one_eq_finite : (1 : Binary64) = finite false unitsPerOne fits_unitsPerOne :=
  ofNat_eq_of_fits (Nat.one_mul _) fits_unitsPerOne

/-- A whole number that is not too large is rounded to a finite number below the same power of two. -/
theorem ofNat_of_lt_twoPow {n k : Nat} (hk : k < 1000) (h : n < twoPow k) :
    ∃ units fits, ofNat n = finite false units fits ∧ units ≤ twoPow (1074 + k) := by
  have hle : n * unitsPerOne ≤ twoPow (1074 + k) * 1 := by
    rw [Nat.mul_one]
    exact Nat.le_of_lt (mul_unitsPerOne_lt h)
  have hfits : Fits (twoPow (1074 + k)) := twoPow_fits (by omega)
  obtain ⟨fits, hround⟩ := round_eq_finite false Nat.one_pos hfits hle
  exact ⟨_, fits, hround, nearestFit_le Nat.one_pos hle hfits.1⟩

end Binary64

end CallGuard

/-
Products and powers of numbers from one on. Rounding keeps the order of products, and so the power by repeated
squaring never falls while its exponent grows (`Binary64.pow_mono`).

Two neighbouring exponents do not multiply the same rounded squares, so their powers are not compared factor by factor.
What carries the proof is the carry: the ones at the low end of an exponent become zeros in the next one, and what was
multiplied for them is at most the square that the next exponent multiplies instead (`powFrom_le_succ`).
-/
import CallGuard.Proofs.Number.Rounding
import Mathlib.Algebra.Ring.Parity
import Mathlib.Order.Monotone.Basic

namespace CallGuard

namespace Binary64

/-! ## Magnitudes -/

/-- The count of units without its sign. Infinities stand where the counts end. -/
def magnitude : Binary64 → Nat
  | nan => 0
  | infinite _ => overflowUnits
  | finite _ units _ => units

theorem dvd_overflowUnits : twoPow (excess overflowUnits) ∣ overflowUnits :=
  twoPow_dvd (excess_le_of_lt (twoPow_lt (by omega)))

theorem magnitude_round (negative : Bool) (num den : Nat) :
    (round negative num den).magnitude = min (nearestFit num den) overflowUnits := by
  unfold round
  split
  · rename_i hlt
    exact (Nat.min_eq_left (Nat.le_of_lt hlt)).symm
  · rename_i hge
    exact (Nat.min_eq_right (Nat.le_of_not_lt hge)).symm

theorem round_eq_infinite (negative : Bool) {num den : Nat} (hd : 0 < den) (h : overflowUnits * den ≤ num) :
    round negative num den = infinite negative := by
  unfold round
  rw [dif_neg (Nat.not_lt.2 (le_nearestFit hd h dvd_overflowUnits))]

theorem magnitude_round_mono (negative : Bool) {a b : Nat} (den : Nat) (h : a ≤ b) :
    (round negative a den).magnitude ≤ (round negative b den).magnitude := by
  have := nearestFit_mono den h
  rw [magnitude_round, magnitude_round]
  omega

/-! ## Numbers from one on -/

/-- A number from one on. -/
inductive FromOne : Binary64 → Prop where
  | infinite : FromOne (infinite false)
  | finite {units : Nat} (fits : Fits units) (le : unitsPerOne ≤ units) : FromOne (finite false units fits)

theorem fromOne_one : FromOne 1 := by
  rw [one_eq_finite]
  exact .finite fits_unitsPerOne (Nat.le_refl _)

theorem magnitude_one : (1 : Binary64).magnitude = unitsPerOne := by
  rw [one_eq_finite, magnitude]

theorem fromOne_round {num den : Nat} (hd : 0 < den) (h : unitsPerOne * den ≤ num) : FromOne (round false num den) := by
  have hle := le_nearestFit hd h fits_unitsPerOne.1
  unfold round
  split
  · exact .finite _ hle
  · exact .infinite

namespace FromOne

variable {x y u v : Binary64}

theorem le_magnitude (h : FromOne x) : unitsPerOne ≤ x.magnitude := by
  cases h with
  | infinite => exact Nat.le_of_lt unitsPerOne_lt_overflowUnits
  | finite fits le => exact le

theorem magnitude_le (h : FromOne x) : x.magnitude ≤ overflowUnits := by
  cases h with
  | infinite => exact Nat.le_refl _
  | finite fits le => exact Nat.le_of_lt fits.2

theorem dvd_magnitude (h : FromOne x) : twoPow (excess x.magnitude) ∣ x.magnitude := by
  cases h with
  | infinite => exact dvd_overflowUnits
  | finite fits le => exact fits.1

/-- A product of such numbers is their exact product, rounded, whether they are finite or not. -/
theorem mul_eq (hx : FromOne x) (hy : FromOne y) : x * y = round false (x.magnitude * y.magnitude) unitsPerOne := by
  have hpos : ∀ {units : Nat}, unitsPerOne ≤ units → units ≠ 0 := fun hle =>
    Nat.ne_of_gt (Nat.lt_of_lt_of_le unitsPerOne_pos hle)
  show mul x y = _
  -- An infinite factor makes the product infinite, because the other one is no zero.
  cases hx with
  | infinite =>
    rw [magnitude, round_eq_infinite false unitsPerOne_pos (Nat.mul_le_mul_left _ hy.le_magnitude)]
    cases hy with
    | infinite => rw [mul, Bool.false_bne]
    | finite fits le => rw [mul, if_neg (hpos le), Bool.false_bne]
  | finite fits le =>
    cases hy with
    | infinite =>
      rw [magnitude, magnitude, Nat.mul_comm, round_eq_infinite false unitsPerOne_pos (Nat.mul_le_mul_left _ le),
        mul, if_neg (hpos le), Bool.false_bne]
    | finite fits' le' => rw [magnitude, magnitude, mul, Bool.false_bne]

protected theorem mul (hx : FromOne x) (hy : FromOne y) : FromOne (x * y) := by
  rw [hx.mul_eq hy]
  exact fromOne_round unitsPerOne_pos (Nat.mul_le_mul hx.le_magnitude hy.le_magnitude)

theorem mul_le_mul (hx : FromOne x) (hy : FromOne y) (hu : FromOne u) (hv : FromOne v)
    (h : x.magnitude ≤ u.magnitude) (h' : y.magnitude ≤ v.magnitude) : (x * y).magnitude ≤ (u * v).magnitude := by
  rw [hx.mul_eq hy, hu.mul_eq hv]
  exact magnitude_round_mono false _ (Nat.mul_le_mul h h')

theorem magnitude_one_mul (h : FromOne x) : (1 * x).magnitude = x.magnitude := by
  rw [fromOne_one.mul_eq h, magnitude_round, magnitude_one, Nat.mul_comm,
    nearestFit_mul_self unitsPerOne_pos h.dvd_magnitude]
  exact Nat.min_eq_left h.magnitude_le

end FromOne

/-! ## Powers -/

theorem powFrom_zero (r x : Binary64) : powFrom r x 0 = r := by
  rw [powFrom]
  rfl

/-- A zero bit multiplies nothing. -/
theorem powFrom_two_mul (r x : Binary64) (k : Nat) : powFrom r x (2 * k) = powFrom r (x * x) k := by
  rw [powFrom]
  simp only [show 2 * k % 2 = 0 by omega, show 2 * k / 2 = k by omega, Nat.zero_ne_one, if_false]
  split
  · rename_i hk
    rw [hk, powFrom_zero]
  · rfl

/-- A bit that is one multiplies the square of its place. -/
theorem powFrom_two_mul_add_one (r x : Binary64) (k : Nat) :
    powFrom r x (2 * k + 1) = powFrom (r * x) (x * x) k := by
  rw [powFrom]
  simp only [show (2 * k + 1) % 2 = 1 by omega, show (2 * k + 1) / 2 = k by omega, if_true]
  split
  · rename_i hk
    rw [hk, powFrom_zero]
  · rfl

section Powers

variable {r s x y : Binary64}

theorem fromOne_powFrom (hr : FromOne r) (hx : FromOne x) (n : Nat) : FromOne (powFrom r x n) := by
  induction n using Nat.strong_induction_on generalizing r x with
  | _ n ih =>
    rcases Nat.eq_zero_or_pos n with rfl | hpos
    · rwa [powFrom_zero]
    · obtain ⟨k, rfl | rfl⟩ := Nat.even_or_odd' n
      · rw [powFrom_two_mul]
        exact ih k (by omega) hr (hx.mul hx)
      · rw [powFrom_two_mul_add_one]
        exact ih k (by omega) (hr.mul hx) (hx.mul hx)

/-- The power keeps the order of what it begins with and of its base. -/
theorem powFrom_le_powFrom (hr : FromOne r) (hs : FromOne s) (hx : FromOne x) (hy : FromOne y)
    (h : r.magnitude ≤ s.magnitude) (h' : x.magnitude ≤ y.magnitude) (n : Nat) :
    (powFrom r x n).magnitude ≤ (powFrom s y n).magnitude := by
  induction n using Nat.strong_induction_on generalizing r s x y with
  | _ n ih =>
    rcases Nat.eq_zero_or_pos n with rfl | hpos
    · rwa [powFrom_zero, powFrom_zero]
    · have hsquare := hx.mul_le_mul hx hy hy h' h'
      obtain ⟨k, rfl | rfl⟩ := Nat.even_or_odd' n
      · rw [powFrom_two_mul, powFrom_two_mul]
        exact ih k (by omega) hr hs (hx.mul hx) (hy.mul hy) h hsquare
      · rw [powFrom_two_mul_add_one, powFrom_two_mul_add_one]
        exact ih k (by omega) (hr.mul hx) (hs.mul hy) (hx.mul hx) (hy.mul hy) (hr.mul_le_mul hx hs hy h h') hsquare

/-- What the low ones of an exponent have multiplied is at most the square at their end, with which the next exponent
goes on alone. -/
theorem powFrom_le_succ (hr : FromOne r) (hx : FromOne x) (h : r.magnitude ≤ x.magnitude) (n : Nat) :
    (powFrom r x n).magnitude ≤ (powFrom 1 x (n + 1)).magnitude := by
  induction n using Nat.strong_induction_on generalizing r x with
  | _ n ih =>
    have hfirst : FromOne (1 * x) := fromOne_one.mul hx
    obtain ⟨k, rfl | rfl⟩ := Nat.even_or_odd' n
    · -- The carry ends here: from the next bit on the exponents agree.
      rw [powFrom_two_mul, powFrom_two_mul_add_one]
      refine powFrom_le_powFrom hr hfirst (hx.mul hx) (hx.mul hx) ?_ (Nat.le_refl _) k
      rwa [hx.magnitude_one_mul]
    · -- The carry goes on: one more factor on the left, and still none on the right.
      rw [powFrom_two_mul_add_one, show 2 * k + 1 + 1 = 2 * (k + 1) by omega, powFrom_two_mul]
      exact ih k (by omega) (hr.mul hx) (hx.mul hx) (hr.mul_le_mul hx hx hx h (Nat.le_refl _))

theorem fromOne_pow (hx : FromOne x) (n : Nat) : FromOne (x.pow n) := fromOne_powFrom fromOne_one hx n

/-- The power of a number from one on never falls while the exponent grows. -/
theorem pow_mono (hx : FromOne x) {m n : Nat} (h : m ≤ n) : (x.pow m).magnitude ≤ (x.pow n).magnitude := by
  have hsucc : Monotone fun n => (x.pow n).magnitude := by
    apply monotone_nat_of_le_succ
    intro n
    have hone : (1 : Binary64).magnitude ≤ x.magnitude := by
      rw [magnitude_one]
      exact hx.le_magnitude
    exact powFrom_le_succ fromOne_one hx hone n
  exact hsucc h

end Powers

end Binary64

end CallGuard

/-
Whole multipliers give exact delays. The seconds of a base delay are rounded twice and their product with the power once
more; the power of a whole number is not rounded at all. Below `2 ^ 20` seconds these roundings stray by less than half a
nanosecond together, so that the nearest nanosecond is the exact one (`RetryPolicy.delayAfter_whole`).
-/
import CallGuard.Proofs.Number.Accuracy
import CallGuard.Proofs.Policy.Backoff

namespace CallGuard

namespace Duration

open Binary64

/-- The seconds of a duration, not rounded. -/
def seconds (d : Duration) : ℚ := d.nanos / 1000000000

theorem seconds_nonneg (d : Duration) : 0 ≤ d.seconds := div_nonneg (Nat.cast_nonneg _) (by norm_num)

theorem seconds_eq (d : Duration) :
    d.seconds = (d.nanos / 1000000000 : Nat) + (d.nanos % 1000000000 : Nat) / (1000000000 : Nat) := by
  have hparts : (d.nanos : ℚ) = 1000000000 * (d.nanos / 1000000000 : Nat) + (d.nanos % 1000000000 : Nat) := by
    exact_mod_cast (Nat.div_add_mod d.nanos 1000000000).symm
  rw [seconds, hparts]
  push_cast
  ring

theorem toSeconds_isFinite (d : Duration) : d.toSeconds.isFinite = true := by
  obtain ⟨units, fits, hseconds, -⟩ := d.toSeconds_eq_finite
  rw [hseconds]
  rfl

/-- The part of a duration below a second is rounded once. -/
theorem abs_exact_fraction_sub_le (d : Duration) :
    (ofNat (d.nanos % 1000000000) / ofNat 1000000000).isFinite = true ∧
      |(ofNat (d.nanos % 1000000000) / ofNat 1000000000).exact - (d.nanos % 1000000000 : Nat) / (1000000000 : Nat)| ≤
        roundoff ((d.nanos % 1000000000 : Nat) / (1000000000 : Nat)) := by
  have hrest : d.nanos % 1000000000 ≤ 1000000000 := by omega
  have hbillion : (1000000000 : Nat) < twoPow 53 := by decide
  have hpart := whole_ofNat (Nat.lt_of_le_of_lt hrest hbillion)
  have hunit := whole_ofNat hbillion
  obtain ⟨units, fits, hshare, -⟩ := ofNat_div_ofNat hrest (by decide) hbillion
  have hfinite : (ofNat (d.nanos % 1000000000) / ofNat 1000000000).isFinite = true := by rw [hshare]; rfl
  have hquotient := abs_exact_div_sub_le hpart.isFinite hunit.isFinite hfinite
  rw [hpart.exact_eq, hunit.exact_eq] at hquotient
  exact ⟨hfinite, hquotient⟩

/-- How far off the rounded seconds are, as long as the whole ones are a number without rounding. -/
theorem abs_exact_toSeconds_sub_le {d : Duration} (h : d.nanos / 1000000000 < twoPow 53) :
    |d.toSeconds.exact - d.seconds| ≤ 3 * roundoff d.seconds := by
  obtain ⟨hfinite, hquotient⟩ := d.abs_exact_fraction_sub_le
  have hwhole := whole_ofNat h
  have hsum := abs_exact_add_sub_le hwhole.isFinite hfinite d.toSeconds_isFinite
  rw [hwhole.exact_eq] at hsum
  have hsplit := d.seconds_eq
  have hw : (0 : ℚ) ≤ (d.nanos / 1000000000 : Nat) := Nat.cast_nonneg _
  have hq : (0 : ℚ) ≤ (d.nanos % 1000000000 : Nat) / (1000000000 : Nat) :=
    div_nonneg (Nat.cast_nonneg _) (Nat.cast_nonneg _)
  generalize (ofNat (d.nanos % 1000000000) / ofNat 1000000000).exact = share at *
  generalize ((d.nanos % 1000000000 : Nat) : ℚ) / (1000000000 : Nat) = fraction at *
  have hless : roundoff fraction ≤ roundoff d.seconds := by
    refine roundoff_mono ?_
    rw [abs_of_nonneg hq, abs_of_nonneg d.seconds_nonneg]
    linarith
  have hshift : |(d.nanos / 1000000000 : Nat) + share - d.seconds| ≤ roundoff d.seconds := by
    rw [hsplit, add_sub_add_left_eq_sub, ← hsplit]
    exact hquotient.trans hless
  have hnonneg := roundoff_nonneg d.seconds
  calc |d.toSeconds.exact - d.seconds| ≤ roundoff d.seconds + roundoff d.seconds + roundoff d.seconds / 2 ^ 53 :=
        abs_sub_le_of_roundoff hsum hshift
    _ ≤ 3 * roundoff d.seconds := by linarith

section Products

variable {d : Duration} {x : Binary64} {n : Nat}

/-- Less than half a nanosecond is lost in the product of the seconds with a whole number. -/
theorem abs_exact_mul_whole_sub_lt (hx : x.Whole n) (hn : 1 ≤ n) (hpos : 0 < d.nanos)
    (h : d.nanos * n < 2 ^ 20 * 1000000000) (hfinite : (d.toSeconds * x).isFinite = true) :
    |(d.toSeconds * x).exact - d.seconds * n| < 1 / 2 / 1000000000 := by
  have hsmall : d.nanos / 1000000000 < twoPow 53 := by
    have := Nat.le_mul_of_pos_right d.nanos hn
    have : twoPow 53 = 2 ^ 53 := rfl
    omega
  have hseconds := abs_exact_toSeconds_sub_le hsmall
  have hproduct := abs_exact_mul_sub_le d.toSeconds_isFinite hx.isFinite hfinite
  rw [hx.exact_eq] at hproduct
  generalize d.toSeconds.exact = rounded at *
  have hfactor : (0 : ℚ) ≤ n := Nat.cast_nonneg n
  -- What the seconds are off is multiplied, too.
  have hscaled : |rounded * n - d.seconds * n| ≤ 3 * roundoff d.seconds * n := by
    rw [← sub_mul, abs_mul, abs_of_nonneg hfactor]
    exact mul_le_mul_of_nonneg_right hseconds hfactor
  have hoff := abs_sub_le_of_roundoff hproduct hscaled
  have hexact : d.seconds * n < 2 ^ 20 := by
    have hcast : (d.nanos : ℚ) * n < 2 ^ 20 * 1000000000 := by exact_mod_cast h
    unfold seconds
    linarith
  have htiny : halfUnit * n ≤ 1 / 2 ^ 200 * (2 ^ 20 * 1000000000) := by
    have hle : n ≤ 2 ^ 20 * 1000000000 := by
      have := Nat.le_mul_of_pos_left n hpos
      omega
    have hcast : (n : ℚ) ≤ 2 ^ 20 * 1000000000 := by exact_mod_cast hle
    exact mul_le_mul halfUnit_le hcast hfactor (by positivity)
  refine lt_of_le_of_lt hoff ?_
  unfold roundoff
  rw [abs_of_nonneg d.seconds_nonneg, abs_of_nonneg (mul_nonneg d.seconds_nonneg hfactor)]
  have hunit := halfUnit_le
  have hexpand : 3 * (d.seconds / 2 ^ 53 + halfUnit) * n = 3 * (d.seconds * n) / 2 ^ 53 + 3 * (halfUnit * n) := by ring
  rw [hexpand]
  linarith

theorem toSeconds_mul_whole (d : Duration) (hx : x.Whole n) (hlt : n < twoPow 53) :
    ∃ units fits, d.toSeconds * x = .finite false units fits := by
  obtain ⟨units, fits, hseconds, hunits⟩ := d.toSeconds_eq_finite
  obtain ⟨fits', rfl⟩ := hx
  have htop : units * (n * unitsPerOne) ≤ twoPow (1074 + 64 + 1 + 53) * unitsPerOne := by
    rw [twoPow_add _ 53, ← Nat.mul_assoc]
    exact Nat.mul_le_mul_right _ (Nat.mul_le_mul hunits (Nat.le_of_lt hlt))
  obtain ⟨fits'', hround⟩ := round_eq_finite false unitsPerOne_pos (twoPow_fits (by omega)) htop
  refine ⟨_, fits'', ?_⟩
  rw [hseconds, finite_mul_finite]
  exact hround

/-- The nearest nanosecond to the product of the seconds with a whole number is exact. -/
theorem ofSeconds_mul_whole (hx : x.Whole n) (hn : 1 ≤ n) (hlt : n < twoPow 53) (hpos : 0 < d.nanos)
    (h : d.nanos * n < 2 ^ 20 * 1000000000) :
    (ofSeconds? (d.toSeconds * x)).getD longest = .ofNanos (d.nanos * n) := by
  obtain ⟨units, fits, hproduct⟩ := d.toSeconds_mul_whole hx hlt
  have hclose := abs_exact_mul_whole_sub_lt hx hn hpos h (show (d.toSeconds * x).isFinite = true by rw [hproduct]; rfl)
  rw [hproduct, exact_finite] at hclose
  -- The same in nanoseconds.
  have hnanos : |((units * 1000000000 : Nat) : ℚ) / unitsPerOne - (d.nanos * n : Nat)| < 1 / 2 := by
    have hscale : ((units * 1000000000 : Nat) : ℚ) / unitsPerOne - (d.nanos * n : Nat) =
        1000000000 * (sign false * units / unitsPerOne - d.seconds * n) := by
      rw [seconds, sign, if_neg Bool.false_ne_true]
      push_cast
      ring
    rw [hscale, abs_mul, abs_of_pos (by norm_num)]
    linarith
  rw [hproduct]
  refine ext ?_
  rw [nanos_ofSeconds, nearest_eq_of_abs_sub_lt unitsPerOne_pos hnanos]
  rfl

end Products

end Duration

namespace RetryPolicy

open Binary64

/-- The largest exponent cuts off nothing but powers of one. -/
theorem pow_min_maxExponent {n k : Nat} (hn : 1 ≤ n) (h : n ^ k < twoPow 53) : n ^ min k maxExponent = n ^ k := by
  rcases Nat.eq_or_lt_of_le hn with rfl | htwo
  · rw [Nat.one_pow, Nat.one_pow]
  · have hk : k < 53 := (Nat.pow_lt_pow_iff_right (by omega : 1 < 2)).1
      (Nat.lt_of_le_of_lt (Nat.pow_le_pow_left htwo k) h)
    rw [Nat.min_eq_left (by unfold maxExponent; omega)]

theorem growth_whole {p : RetryPolicy} {m : Binary64} {n k : Nat} (hm : p.multiplier = some m) (hwhole : m.Whole n)
    (hn : 1 ≤ n) (h : n ^ (k - 1) < twoPow 53) : (p.growth k).Whole (n ^ (k - 1)) := by
  have hexponent := pow_min_maxExponent hn h
  rw [growth, hm, ← hexponent]
  exact hwhole.pow hn (hexponent ▸ h)

theorem grownDelay_whole {p : RetryPolicy} {m : Binary64} {n k : Nat} (hm : p.multiplier = some m) (hwhole : m.Whole n)
    (hn : 1 ≤ n) (hpos : 0 < p.delay.nanos) (h : p.delay.nanos * n ^ (k - 1) < 2 ^ 20 * 1000000000) :
    p.grownDelay k = .ofNanos (p.delay.nanos * n ^ (k - 1)) := by
  have hfactor : 1 ≤ n ^ (k - 1) := Nat.one_le_pow _ _ hn
  have hlt : n ^ (k - 1) < twoPow 53 := by
    have := Nat.le_mul_of_pos_left (n ^ (k - 1)) hpos
    have : 2 ^ 20 * 1000000000 < twoPow 53 := by decide
    omega
  have hgrowth := growth_whole (k := k) hm hwhole hn hlt
  rw [growth, hm] at hgrowth
  rw [grownDelay, hm]
  exact Duration.ofSeconds_mul_whole hgrowth hfactor hlt hpos h

/-- Whole multipliers multiply exactly, to the nanosecond, as long as the product stays below `2 ^ 20` seconds. The delay
after the first attempt is the base delay, and so is every delay under a multiplier of one. -/
theorem delayAfter_whole {p : RetryPolicy} {m : Binary64} {n k : Nat} (hm : p.multiplier = some m) (hwhole : m.Whole n)
    (hn : 1 ≤ n) (hpos : 0 < p.delay.nanos) (hk : 1 ≤ k) (hlt : k < p.maxAttempts.toNat)
    (h : p.delay.nanos * n ^ (k - 1) < 2 ^ 20 * 1000000000) :
    p.delayAfter k = some ((Duration.ofNanos (p.delay.nanos * n ^ (k - 1))).cappedBy p.maxDelay) ∧
      (k = 1 ∨ n = 1 → p.delayAfter k = { p with multiplier := none }.delayAfter k) := by
  have hexact : p.delayAfter k = some ((Duration.ofNanos (p.delay.nanos * n ^ (k - 1))).cappedBy p.maxDelay) := by
    rw [delayAfter_eq hk hlt, grownDelay_whole hm hwhole hn hpos h]
  refine ⟨hexact, fun hone => ?_⟩
  have hfactor : n ^ (k - 1) = 1 := by
    rcases hone with rfl | rfl
    · exact pow_zero n
    · exact one_pow _
  have hbase : Duration.ofNanos p.delay.nanos = p.delay := Duration.ext (Nat.min_eq_left p.delay.le_longest)
  rw [hexact, hfactor, Nat.mul_one, hbase]
  exact (delayAfter_eq (p := { p with multiplier := none }) hk hlt).symm

/-- An odd number of nanoseconds, tripled eight times. -/
theorem delayAfter_whole_growing :
    (growing (.ofNanos 100000001) (.ofNat 3)).delayAfter 9 = some (.ofNanos 656100006561) := by
  have hexact := (delayAfter_whole (p := growing (.ofNanos 100000001) (.ofNat 3)) (n := 3) (k := 9) rfl
    (whole_ofNat (by decide)) (by decide) (by decide) (by decide) (show 9 < 10 by decide) (by decide)).1
  rw [hexact]
  rfl

end RetryPolicy

end CallGuard

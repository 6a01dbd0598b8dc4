/-
How the delays of a policy that passed its check grow. They never fall from one attempt to a later one
(`delayAfter_mono`): the factor never falls, the product with the seconds of the base delay and its way back to
nanoseconds keep the order, and what is no duration any more counts as the longest one.

A base delay of zero stays zero while the factor is a number that is finite. Zero times infinity is not a number and
so not a duration: from the attempt on at which the factor overflows, a policy without any base delay waits as long as
it can (`delayAfter_of_zero`).
-/
import CallGuard.Policy.Retry
import CallGuard.Proofs.Number.Whole
import CallGuard.Proofs.Policy.Wait

namespace CallGuard

/-! ## Good multipliers -/

namespace Binary64

/-- The good multipliers are the finite numbers from one on. -/
theorem goodMultiplier_iff {m : Binary64} : RetryPolicy.goodMultiplier m = true ↔ m.FromOne ∧ m.isFinite = true := by
  have hone := unitsPerOne_pos
  unfold RetryPolicy.goodMultiplier
  rw [one_eq_finite]
  constructor
  · intro h
    rcases m with _ | _ | ⟨negative, units, fits⟩
    · cases h
    · cases h
    · simp only [isFinite, lt, isNaN, signedUnits, Bool.not_false, Bool.true_and, Bool.not_eq_true',
        decide_eq_false_iff_not, Bool.false_eq_true, if_false] at h
      cases negative with
      | false => exact ⟨.finite fits (by omega), rfl⟩
      | true =>
        rw [if_pos rfl] at h
        omega
  · rintro ⟨hm, hfinite⟩
    cases hm with
    | infinite => cases hfinite
    | finite fits le =>
      simp only [isFinite, lt, isNaN, signedUnits, Bool.not_false, Bool.true_and, Bool.not_eq_true',
        decide_eq_false_iff_not, Bool.false_eq_true, if_false]
      omega

end Binary64

/-! ## Seconds and back -/

namespace Duration

open Binary64

/-- The seconds of a duration are a finite number that is not negative, and not too large to be multiplied. -/
theorem toSeconds_eq_finite (d : Duration) :
    ∃ units fits, d.toSeconds = .finite false units fits ∧ units ≤ twoPow (1074 + 64 + 1) := by
  have hwhole : d.nanos / 1000000000 < twoPow 64 := by
    have := d.le_longest
    have : twoPow 64 = 18446744073709551616 := by decide
    unfold longestNanos at *
    omega
  have hrest : d.nanos % 1000000000 ≤ 1000000000 := by omega
  obtain ⟨a, ha, hseconds, hle⟩ := ofNat_of_lt_twoPow (show 64 < 1000 by omega) hwhole
  obtain ⟨b, hb, hfraction, hone⟩ := ofNat_div_ofNat hrest (by decide) (show 1000000000 < twoPow 53 by decide)
  -- The whole seconds and the fraction together stay below a power of two that fits.
  have hsum : a + b ≤ twoPow (1074 + 64 + 1) * 1 := by
    have := unitsPerOne_le_twoPow 64
    rw [twoPow_succ]
    omega
  have hfits : Fits (twoPow (1074 + 64 + 1)) := twoPow_fits (by omega)
  obtain ⟨fits, hround⟩ := round_eq_finite false Nat.one_pos hfits hsum
  refine ⟨_, fits, ?_, nearestFit_le Nat.one_pos hsum hfits.1⟩
  rw [toSeconds, hseconds, hfraction, ← hround]
  show add _ _ = _
  rw [add, if_pos rfl]

theorem le_iff_nanos {d e : Duration} : d ≤ e ↔ d.nanos ≤ e.nanos := Iff.rfl

/-- What is no duration counts as the longest one. -/
theorem le_getD_longest (d : Duration) {o : Option Duration} (h : o = none) : d ≤ o.getD longest := by
  rw [h]
  exact d.le_longest

theorem nanos_getD_longest (n : Nat) :
    ((if h : n ≤ longestNanos then some (⟨n, h⟩ : Duration) else none).getD longest).nanos = min n longestNanos := by
  by_cases hle : n ≤ longestNanos
  · rw [dif_pos hle, Nat.min_eq_left hle]
    rfl
  · rw [dif_neg hle, Nat.min_eq_right (Nat.le_of_not_le hle)]
    rfl

theorem zero_toSeconds : ∃ fits, zero.toSeconds = .finite false 0 fits := by
  obtain ⟨fits, hwhole⟩ := ofNat_zero
  obtain ⟨fits', hfraction⟩ := ofNat_zero_div (show 0 < 1000000000 by decide) (by decide)
  obtain ⟨fits'', hround⟩ := round_zero false 1
  refine ⟨fits'', ?_⟩
  show add (ofNat 0) (ofNat 0 / ofNat 1000000000) = _
  rw [hfraction, hwhole, add, if_pos rfl, hround]

/-- Nanoseconds are rounded, and cut off at the longest duration. -/
theorem nanos_ofSeconds (units : Nat) (fits : Fits units) :
    ((ofSeconds? (.finite false units fits)).getD longest).nanos =
      min (nearest (units * 1000000000) unitsPerOne) longestNanos := by
  rw [ofSeconds?, if_neg (by simp)]
  exact nanos_getD_longest _

theorem ofSeconds_round_mono {a b : Nat} (den : Nat) (h : a ≤ b) :
    (ofSeconds? (round false a den)).getD longest ≤ (ofSeconds? (round false b den)).getD longest := by
  have hunits := nearestFit_mono den h
  by_cases hb : nearestFit b den < overflowUnits
  · obtain ⟨fits, hround⟩ := round_of_lt false (Nat.lt_of_le_of_lt hunits hb)
    obtain ⟨fits', hround'⟩ := round_of_lt false hb
    have hnanos := nearest_mono unitsPerOne (Nat.mul_le_mul_right 1000000000 hunits)
    rw [hround, hround', le_iff_nanos, nanos_ofSeconds, nanos_ofSeconds]
    omega
  · -- The larger one is infinite and so counts as the longest duration.
    refine le_getD_longest _ ?_
    rw [Binary64.round, dif_neg hb, ofSeconds?]

/-- The seconds of a base delay times a factor that does not fall. -/
theorem ofSeconds_mul_mono (d : Duration) {x y : Binary64} (hx : x.FromOne) (hy : y.FromOne)
    (h : x.magnitude ≤ y.magnitude) :
    (ofSeconds? (d.toSeconds * x)).getD longest ≤ (ofSeconds? (d.toSeconds * y)).getD longest := by
  obtain ⟨units, fits, hd, -⟩ := d.toSeconds_eq_finite
  rw [hd]
  cases hy with
  | infinite =>
    refine le_getD_longest _ ?_
    show ofSeconds? (mul _ _) = none
    rw [mul]
    split <;> rfl
  | finite fits' le =>
    cases hx with
    | infinite => exact absurd h (Nat.not_le.2 fits'.2)
    | finite fits'' le' =>
      show (ofSeconds? (mul _ _)).getD longest ≤ (ofSeconds? (mul _ _)).getD longest
      rw [mul, mul]
      exact ofSeconds_round_mono _ (Nat.mul_le_mul_left units h)

/-- Zero seconds stay zero under a finite factor and are no duration under an infinite one. -/
theorem ofSeconds_zero_mul {x : Binary64} (hx : x.FromOne) :
    (ofSeconds? (zero.toSeconds * x)).getD longest = if x.isFinite then zero else longest := by
  obtain ⟨fits, hseconds⟩ := zero_toSeconds
  rw [hseconds]
  show (ofSeconds? (mul _ x)).getD longest = _
  cases hx with
  | infinite =>
    rw [mul, if_pos rfl]
    rfl
  | finite fits' le =>
    obtain ⟨fits'', hround⟩ := round_zero false unitsPerOne
    rw [mul, Bool.false_bne, Nat.zero_mul, hround]
    refine ext ?_
    rw [nanos_ofSeconds, Nat.zero_mul, nearest_zero]
    rfl

theorem cappedBy_mono {d e : Duration} (h : d ≤ e) (bound : Option Duration) : d.cappedBy bound ≤ e.cappedBy bound := by
  cases bound with
  | none => exact h
  | some b =>
    have h' : d.nanos ≤ e.nanos := h
    show (if d.nanos ≤ b.nanos then d else b).nanos ≤ (if e.nanos ≤ b.nanos then e else b).nanos
    split_ifs <;> omega

end Duration

/-! ## Delays -/

namespace RetryPolicy

open Binary64

/-- What the base delay is multiplied with after an attempt. -/
def growth (p : RetryPolicy) (attempt : Nat) : Binary64 :=
  match p.multiplier with
  | none => 1
  | some m => m.pow (min (attempt - 1) maxExponent)

theorem Valid.fromOne {p : RetryPolicy} (hp : p.Valid) {m : Binary64} (h : p.multiplier = some m) : m.FromOne :=
  (goodMultiplier_iff.1 ((valid_iff.1 hp).2.2.1 m h)).1

theorem delayAfter_eq {p : RetryPolicy} {k : Nat} (hk : 1 ≤ k) (hlt : k < p.maxAttempts.toNat) :
    p.delayAfter k = some ((p.grownDelay k).cappedBy p.maxDelay) := by
  rw [delayAfter, if_neg (by omega)]

theorem grownDelay_mono {p : RetryPolicy} (hp : p.Valid) {a b : Nat} (h : a ≤ b) : p.grownDelay a ≤ p.grownDelay b := by
  unfold grownDelay
  cases hm : p.multiplier with
  | none => exact Nat.le_refl _
  | some m =>
    have hfrom := hp.fromOne hm
    exact p.delay.ofSeconds_mul_mono (fromOne_pow hfrom _) (fromOne_pow hfrom _) (pow_mono hfrom (by omega))

/-- The delay after an attempt is at most that after a later one, however far the delays have grown. -/
theorem delayAfter_mono {p : RetryPolicy} (hp : p.Valid) {a b : Nat} (ha : 1 ≤ a) (hab : a ≤ b)
    (hb : b < p.maxAttempts.toNat) :
    ∃ d e, p.delayAfter a = some d ∧ p.delayAfter b = some e ∧ d ≤ e := by
  refine ⟨_, _, delayAfter_eq ha (by omega), delayAfter_eq (by omega) hb, ?_⟩
  exact Duration.cappedBy_mono (grownDelay_mono hp hab) p.maxDelay

/-- Ten attempts with growing delays. -/
def growing (delay : Duration) (m : Binary64) : RetryPolicy :=
  { name := "growing", maxAttempts := 10, delay, multiplier := some m }

theorem growing_valid (delay : Duration) {m : Binary64} (hm : goodMultiplier m = true) : (growing delay m).Valid := by
  refine valid_iff.2 ⟨show "growing" ≠ "" by decide, show (10 : UInt32) ≠ 0 by decide, fun m' h => ?_, trivial⟩
  cases h
  exact hm

theorem growth_growing (delay : Duration) (m : Binary64) (k : Nat) :
    (growing delay m).growth k = m.pow (min (k - 1) maxExponent) := rfl

theorem delayAfter_mono_growing : ∃ d e, (growing (.ofMillis 100) (.ofNat 2)).delayAfter 2 = some d ∧
    (growing (.ofMillis 100) (.ofNat 2)).delayAfter 9 = some e ∧ d ≤ e :=
  delayAfter_mono (growing_valid _ (goodMultiplier_iff.2 (fromOne_ofNat (by decide) (by decide)))) (by decide) (by decide)
    (show 9 < 10 by decide)

/-! ## No base delay -/

theorem zero_cappedBy (bound : Option Duration) : Duration.zero.cappedBy bound = .zero := by
  cases bound with
  | none => rfl
  | some b =>
    show (if Duration.zero.nanos ≤ b.nanos then Duration.zero else b) = .zero
    rw [if_pos (show Duration.zero.nanos ≤ b.nanos from Nat.zero_le _)]

theorem grownDelay_of_zero {p : RetryPolicy} (hp : p.Valid) (hzero : p.delay = .zero) (k : Nat) :
    p.grownDelay k = if (p.growth k).isFinite then .zero else .longest := by
  unfold grownDelay growth
  rw [hzero]
  cases hm : p.multiplier with
  | none =>
    rw [one_eq_finite]
    rfl
  | some m => exact Duration.ofSeconds_zero_mul (fromOne_pow (hp.fromOne hm) _)

/-- Without a base delay nobody waits, as long as the factor is finite; once it has overflowed, the delay is the longest
there may be. -/
theorem delayAfter_of_zero {p : RetryPolicy} (hp : p.Valid) (hzero : p.delay = .zero) {k : Nat} (hk : 1 ≤ k)
    (hlt : k < p.maxAttempts.toNat) :
    p.delayAfter k = some (if (p.growth k).isFinite then .zero else Duration.longest.cappedBy p.maxDelay) := by
  rw [delayAfter_eq hk hlt, grownDelay_of_zero hp hzero]
  split
  · rw [zero_cappedBy]
  · rfl

/-- A multiplier of which the square is infinite. -/
def steep : Binary64 := .ofDecimal false 1 300

theorem goodMultiplier_steep : goodMultiplier steep = true := by decide +kernel

theorem delayAfter_of_zero_growing : (growing .zero steep).delayAfter 2 = some .zero := by
  have hfinite : ((growing .zero steep).growth 2).isFinite = true := by
    rw [growth_growing, show min (2 - 1) maxExponent = 2 * 0 + 1 from rfl, pow, powFrom_two_mul_add_one, powFrom_zero]
    decide +kernel
  rw [delayAfter_of_zero (growing_valid .zero goodMultiplier_steep) rfl (by decide) (show 2 < 10 by decide), if_pos hfinite]

/-- Without any base delay, the wait after the third attempt may be as long as it can. -/
theorem steep_waits_longest : (growing .zero steep).Valid ∧ (growing .zero steep).delay = .zero ∧
    3 < (growing .zero steep).maxAttempts.toNat ∧ (growing .zero steep).delayAfter 3 = some .longest ∧
    (growing .zero steep).delayAfter 3 ≠ some .zero := by
  have hvalid := growing_valid .zero goodMultiplier_steep
  have hinfinite : ((growing .zero steep).growth 3).isFinite = false := by
    rw [growth_growing, show min (3 - 1) maxExponent = 2 * (2 * 0 + 1) from rfl, pow, powFrom_two_mul,
      powFrom_two_mul_add_one, powFrom_zero]
    decide +kernel
  have hdelay : (growing .zero steep).delayAfter 3 = some .longest := by
    rw [delayAfter_eq (by decide) (show 3 < 10 by decide), grownDelay_of_zero hvalid rfl, hinfinite]
    rfl
  refine ⟨hvalid, rfl, show 3 < 10 by decide, hdelay, ?_⟩
  rw [hdelay]
  decide

end RetryPolicy

end CallGuard

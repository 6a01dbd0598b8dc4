/-
The bands of jitter: how far a varied delay may be from its base. The proportional one stays within its share of the
whole milliseconds, up to one (`Jitter.proportional_band`): each of the three roundings that make up its range strays by
at most a quarter of a millisecond below `2 ^ 50` of them, and the draw is cut down to a whole number.

The whole ranges are counted in milliseconds that start again at `2 ^ 64`. The full one never leaves its band for that
(`Jitter.full_band`). The decorrelated one keeps to its upper bound, but what it draws is below its base where the counter
of the base has started again and that of the previous wait has come further (`Jitter.decorrelated_band`).
-/
import CallGuard.Proofs.Number.Accuracy
import CallGuard.Proofs.Policy.Wait

namespace CallGuard

/-! ## Whole ranges -/

namespace Duration

theorem millis64_le (d : Duration) : d.millis64 ≤ d.millis := Nat.mod_le _ _

theorem millis_mul_le (d : Duration) : d.millis * 1000000 ≤ d.nanos := Nat.div_mul_le_self _ _

/-- Milliseconds that fit their counter are a duration. -/
theorem nanos_ofMillis {n : Nat} (h : n < wordValues) : (ofMillis n).nanos = n * 1000000 := by
  refine Nat.min_eq_left ?_
  unfold wordValues at h
  unfold longestNanos
  omega

end Duration

namespace Jitter

open Binary64

/-- The full strategy never waits longer than the base delay. -/
theorem full_band {dice : Dice} (hd : dice.Fair) (base : Duration) (previous : Option Duration) :
    ∃ d, full.apply dice base previous Option.none = .ok d ∧ d ≤ base := by
  unfold apply request
  by_cases hzero : base.millis64 = 0
  · simp only [if_pos hzero]
    exact ⟨.zero, rfl, Nat.zero_le _⟩
  · simp only [if_neg hzero]
    obtain ⟨-, hhigh⟩ := hd.whole 0 base.millis64 (Nat.zero_le _)
    refine ⟨_, by rw [DrawRequest.answer, if_pos (Nat.zero_le _)]; rfl, ?_⟩
    have hcounter := base.millis64_le
    have hmillis := base.millis_mul_le
    show min (_ * 1000000) _ ≤ base.nanos
    omega

/-- The milliseconds of the base have passed the end of their counter, and three times the previous ones have come further
since they last did. -/
def Overtaken (base : Duration) (previous : Option Duration) : Prop :=
  wordValues ≤ base.millis ∧ base.millis64 < (previous.getD base).millis * 3 % wordValues

/-- The band of the decorrelated strategy. -/
structure Drifted (base : Duration) (previous : Option Duration) (d : Duration) : Prop where
  le : d.nanos ≤ max base.nanos (3 * (previous.getD base).nanos)
  ge : ¬ Overtaken base previous → base.millis * 1000000 ≤ d.nanos
  /-- The lower bound fails in whole milliseconds, too. -/
  lt : Overtaken base previous → d.millis < base.millis

theorem decorrelated_band {dice : Dice} (hd : dice.Fair) (base : Duration) (previous : Option Duration) :
    ∃ d, decorrelated.apply dice base previous Option.none = .ok d ∧ Drifted base previous d := by
  unfold apply request
  have hbase := base.millis_mul_le
  have hprevious := (previous.getD base).millis_mul_le
  by_cases hle : (previous.getD base).millis * 3 % wordValues ≤ base.millis64
  · simp only [if_pos hle]
    refine ⟨base, rfl, Nat.le_max_left _ _, fun _ => hbase, fun h => absurd h.2 (Nat.not_lt.2 hle)⟩
  · simp only [if_neg hle]
    have horder := Nat.le_of_lt (Nat.lt_of_not_le hle)
    obtain ⟨hlow, hhigh⟩ := hd.whole _ _ horder
    have hcounter : (previous.getD base).millis * 3 % wordValues < wordValues := Nat.mod_lt _ (by decide)
    have htimes : (previous.getD base).millis * 3 % wordValues ≤ (previous.getD base).millis * 3 := Nat.mod_le _ _
    refine ⟨_, by rw [DrawRequest.answer, if_pos horder]; rfl, ?_⟩
    generalize dice.whole _ _ = drawn at *
    have hnanos := Duration.nanos_ofMillis (Nat.lt_of_le_of_lt hhigh hcounter)
    show Drifted base previous (.ofMillis drawn)
    refine ⟨?_, fun hnot => ?_, fun hover => ?_⟩
    · refine Nat.le_trans ?_ (Nat.le_max_right _ _)
      omega
    · -- The counter of the base has not started again, so that it shows all its milliseconds.
      have hfits : base.millis < wordValues := Nat.lt_of_not_le fun hge => hnot ⟨hge, Nat.lt_of_not_le hle⟩
      rw [Duration.millis64, Nat.mod_eq_of_lt hfits] at hlow
      rw [hnanos]
      exact Nat.mul_le_mul_right _ hlow
    · have := hover.1
      rw [Duration.millis, hnanos]
      omega

/-- A millisecond before, and a base that is the first one to be beyond the counter: the draw is far below it. -/
theorem overtaken_below_base : Dice.middle.Fair ∧
    decorrelated.apply .middle (.ofMillis 18446744073709551616) (some (.ofMillis 1)) Option.none = .ok (.ofMillis 2) ∧
    ¬ (Duration.ofMillis 18446744073709551616).millis * 1000000 ≤ (Duration.ofMillis 2).nanos :=
  ⟨Dice.part_fair 0 1, by decide, by decide⟩

/-! ## The proportional range -/

theorem goodFactor_exact {f : Binary64} (hf : RetryPolicy.goodFactor f = true) :
    f.isFinite = true ∧ 0 ≤ f.exact ∧ f.exact ≤ 1 := by
  have hzero : Whole 0 0 := whole_ofNat (by decide)
  obtain ⟨h0, h1⟩ := Bool.and_eq_true_iff.1 hf
  have hfinite : f.isFinite = true := by
    obtain ⟨s, u, hu, rfl, -⟩ := share_cases h0 h1
    rfl
  rw [le_iff_exact hzero.isFinite hfinite, hzero.exact_eq] at h0
  rw [le_iff_exact hfinite whole_one.isFinite, whole_one.exact_eq] at h1
  exact ⟨hfinite, by exact_mod_cast h0, by exact_mod_cast h1⟩

section Proportional

variable {f : Binary64} {base : Duration}

/-- The ends of the proportional range stray by less than half a millisecond. -/
theorem proportional_ends (hf : RetryPolicy.goodFactor f = true) (hb : base.millis < 2 ^ 50) :
    |(.ofNat base.millis - .ofNat base.millis * f : Binary64).exact - base.millis * (1 - f.exact)| < 1 / 2 ∧
      |(.ofNat base.millis + .ofNat base.millis * f : Binary64).exact - base.millis * (1 + f.exact)| < 1 / 2 := by
  obtain ⟨hfinite, hnonneg, hone⟩ := goodFactor_exact hf
  obtain ⟨l, hl, h, hh, hlow, hhigh, -, hspread⟩ := proportional_range hf base
  have hcenter : (ofNat base.millis).Whole base.millis := whole_ofNat (Nat.lt_trans hb (by decide))
  have hproduct := abs_exact_mul_sub_le hcenter.isFinite hfinite hspread
  have hdifference := abs_exact_sub_sub_le hcenter.isFinite hspread (by rw [hlow]; rfl)
  have hsum := abs_exact_add_sub_le hcenter.isFinite hspread (by rw [hhigh]; rfl)
  rw [hcenter.exact_eq] at *
  have hmillis : (base.millis : ℚ) < 2 ^ 50 := by exact_mod_cast hb
  have hmillis' : (0 : ℚ) ≤ base.millis := Nat.cast_nonneg _
  rw [mul_sub, mul_add, mul_one]
  generalize (base.millis : ℚ) = b at *
  have hshare : b * f.exact ≤ b := mul_le_of_le_one_right hmillis' hone
  have hshare' : 0 ≤ b * f.exact := mul_nonneg hmillis' hnonneg
  generalize b * f.exact = share at *
  generalize (ofNat base.millis * f).exact = spread at *
  -- What the spread is off goes into both ends.
  have hoff : roundoff share ≤ 2 ^ 50 / 2 ^ 53 + 1 / 2 ^ 200 :=
    roundoff_le_of_abs_le (by rw [abs_of_nonneg hshare']; linarith)
  have hlower : roundoff (b - share) ≤ 2 ^ 50 / 2 ^ 53 + 1 / 2 ^ 200 :=
    roundoff_le_of_abs_le (by rw [abs_of_nonneg (by linarith)]; linarith)
  have hupper : roundoff (b + share) ≤ 2 ^ 51 / 2 ^ 53 + 1 / 2 ^ 200 :=
    roundoff_le_of_abs_le (by rw [abs_of_nonneg (by linarith)]; linarith)
  constructor
  · have hspread' : |b - spread - (b - share)| ≤ roundoff share := by
      rwa [sub_sub_sub_cancel_left, abs_sub_comm]
    refine lt_of_le_of_lt (abs_sub_le_of_roundoff hdifference hspread') ?_
    linarith
  · have hspread' : |b + spread - (b + share)| ≤ roundoff share := by
      rwa [add_sub_add_left_eq_sub]
    refine lt_of_le_of_lt (abs_sub_le_of_roundoff hsum hspread') ?_
    linarith

/-- Without any share, both ends are the base. -/
theorem proportional_ends_of_zero (hf : RetryPolicy.goodFactor f = true) (hb : base.millis < 2 ^ 50) (hzero : f.exact = 0) :
    (.ofNat base.millis - .ofNat base.millis * f : Binary64).exact = base.millis ∧
      (.ofNat base.millis + .ofNat base.millis * f : Binary64).exact = base.millis := by
  have hfinite := (goodFactor_exact hf).1
  obtain ⟨l, hl, h, hh, hlow, hhigh, -, hspread⟩ := proportional_range hf base
  have hcenter : (ofNat base.millis).Whole base.millis := whole_ofNat (Nat.lt_trans hb (by decide))
  have hnone := exact_mul_of_zero hcenter.isFinite hfinite hzero
  have hopposite : (-(ofNat base.millis * f)).exact = 0 := by
    show (neg _).exact = 0
    rw [exact_neg, hnone, neg_zero]
  rw [← hcenter.exact_eq]
  exact ⟨exact_add_of_zero hcenter.isFinite ((isFinite_neg _).trans hspread) hopposite,
    exact_add_of_zero hcenter.isFinite hspread hnone⟩

/-- A draw from the proportional range, in order by exact values. -/
theorem proportional_draw (hf : RetryPolicy.goodFactor f = true) (base : Duration) {dice : Dice} (hd : dice.Fair)
    (previous : Option Duration) :
    ∃ x : Binary64, (proportional f).apply dice base previous Option.none = .ok (.ofMillis x.truncate64) ∧
      x.isFinite = true ∧ 0 ≤ x.exact ∧
      (.ofNat base.millis - .ofNat base.millis * f : Binary64).exact ≤ x.exact ∧
      x.exact ≤ (.ofNat base.millis + .ofNat base.millis * f : Binary64).exact := by
  obtain ⟨l, hl, h, hh, hlow, hhigh, -⟩ := proportional_range hf base
  have hrange := drawable (j := proportional f) hf base previous
  have hrequest := request_proportional hf base previous
  rw [hrequest] at hrange
  obtain ⟨hle, hlowFinite, hhighFinite, -⟩ := hrange
  obtain ⟨hdrawn, hdrawn'⟩ := hd.real _ _ hlowFinite hhighFinite hle
  have hfinite := isFinite_of_between hlowFinite hhighFinite hdrawn hdrawn'
  rw [le_iff_exact hlowFinite hfinite] at hdrawn
  rw [le_iff_exact hfinite hhighFinite] at hdrawn'
  refine ⟨_, ?_, hfinite, le_trans ?_ hdrawn, hdrawn, hdrawn'⟩
  · rw [apply, hrequest, DrawRequest.answer, hle, hlowFinite, hhighFinite]
    rfl
  · rw [hlow, exact_finite]
    exact div_nonneg (by simp [sign]) (le_of_lt units_pos)

/-- The delay of the proportional strategy is a whole number of milliseconds within one of the exact band, and without any
share it is the whole milliseconds of the base. -/
theorem proportional_band (hf : RetryPolicy.goodFactor f = true) (hb : base.millis < 2 ^ 50) {dice : Dice} (hd : dice.Fair)
    (previous : Option Duration) :
    ∃ (delay : Duration) (d : Nat), (proportional f).apply dice base previous Option.none = .ok delay ∧
      delay.nanos = d * 1000000 ∧ ⌊(base.millis : ℚ) * (1 - f.exact)⌋ - 1 ≤ d ∧
      d ≤ ⌊(base.millis : ℚ) * (1 + f.exact)⌋ + 1 ∧ (f.exact = 0 → d = base.millis) := by
  obtain ⟨x, happly, hfinite, hnonneg, hlow, hhigh⟩ := proportional_draw hf base hd previous
  obtain ⟨hlower, hupper⟩ := proportional_ends hf hb
  obtain ⟨-, hshare, hone⟩ := goodFactor_exact hf
  have hmillis : (base.millis : ℚ) < 2 ^ 50 := by exact_mod_cast hb
  have hmillis' : (0 : ℚ) ≤ base.millis := Nat.cast_nonneg _
  have hsmall : x.exact < 2 ^ 51 + 1 := by
    have := mul_le_of_le_one_right hmillis' hone
    have := (abs_lt.1 hupper).2
    linarith
  have hfloor := truncate64_eq_floor hfinite hnonneg (by linarith)
  have hnanos : (Duration.ofMillis x.truncate64).nanos = x.truncate64 * 1000000 := by
    have hlt : (x.truncate64 : ℤ) < 2 ^ 51 + 1 := by
      rw [hfloor, Int.floor_lt]
      exact_mod_cast hsmall
    refine Duration.nanos_ofMillis ?_
    unfold wordValues
    omega
  refine ⟨_, x.truncate64, happly, hnanos, ?_, ?_, fun hzero => ?_⟩
  · rw [hfloor]
    refine Int.le_floor.2 ?_
    have := Int.floor_le ((base.millis : ℚ) * (1 - f.exact))
    have := (abs_lt.1 hlower).1
    push_cast
    linarith
  · rw [hfloor]
    refine Int.floor_le_iff.2 ?_
    have := Int.lt_floor_add_one ((base.millis : ℚ) * (1 + f.exact))
    have := (abs_lt.1 hupper).2
    push_cast
    linarith
  · obtain ⟨hlow', hhigh'⟩ := proportional_ends_of_zero hf hb hzero
    have hx : x.exact = base.millis := le_antisymm (hhigh.trans_eq hhigh') (hlow'.symm.trans_le hlow)
    rw [hx, Int.floor_natCast] at hfloor
    exact_mod_cast hfloor

end Proportional

/-- A quarter. -/
def quarter : Binary64 := .ofRatio false 1 4

theorem quarter_eq : ∃ fits, quarter = .finite false (twoPow 1072) fits :=
  ⟨twoPow_fits (by omega), by decide +kernel⟩

theorem exact_quarter : quarter.exact = 1 / 4 := by
  obtain ⟨fits, hround⟩ := quarter_eq
  have hunits : unitsPerOne = twoPow 1072 * twoPow 2 := twoPow_add 1072 2
  have hpos : (0 : ℚ) < twoPow 1072 := by exact_mod_cast twoPow_pos 1072
  rw [hround, exact_finite, hunits, show twoPow 2 = 4 from rfl]
  generalize twoPow 1072 = n at *
  push_cast
  rw [sign, if_neg Bool.false_ne_true]
  field_simp

theorem proportional_band_quarter : ∃ (delay : Duration) (d : Nat),
    (proportional quarter).apply .middle (.ofMillis 100) Option.none Option.none = .ok delay ∧
      delay.nanos = d * 1000000 ∧ 74 ≤ d ∧ d ≤ 126 := by
  have hsmall : (Duration.ofMillis 100).millis < 2 ^ 50 := by decide
  obtain ⟨delay, d, happly, hnanos, hlow, hhigh, -⟩ := proportional_band (f := quarter) (by decide +kernel) hsmall
    (Dice.part_fair 0 1) Option.none
  have hmillis : (Duration.ofMillis 100).millis = 100 := by decide
  rw [hmillis, exact_quarter] at hlow hhigh
  norm_num at hlow hhigh
  exact ⟨delay, d, happly, hnanos, by omega, by omega⟩

end Jitter

end CallGuard

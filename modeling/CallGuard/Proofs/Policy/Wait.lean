/-
The waits of a policy that passed its check. Every jitter of such a policy asks for a range that can be
drawn from (`Jitter.drawable`): the proportional one because rounding keeps order, so that its
rounded ends stay on their side of the center. Hence the wait after an attempt exists exactly while
there are attempts left, drawing it never fails, and it is no longer than the longest delay
(`RetryPolicy.waits_total`).
-/
import CallGuard.Policy.Retry
import CallGuard.Proofs.Number.Rounding

namespace CallGuard

/-! ## Finite arithmetic -/

namespace Binary64

/-- A share of one: its sign matters only for zero. -/
theorem share_cases {f : Binary64} (h0 : le 0 f = true) (h1 : f.le 1 = true) :
    ∃ s u fits, f = .finite s u fits ∧ u ≤ unitsPerOne ∧ (s = true → u = 0) := by
  obtain ⟨_, hz⟩ := ofNat_zero
  have htop := unitsPerOne_lt_overflowUnits
  change le (ofNat 0) f = true at h0
  rw [hz] at h0
  rw [one_eq_finite] at h1
  cases f with
  | nan => simp [le, isNaN] at h0
  | infinite s =>
    cases s <;> simp only [le, isNaN, signedUnits, Bool.not_false, Bool.true_and, decide_eq_true_eq, if_true,
      Bool.false_eq_true, if_false] at h0 h1 <;> omega
  | finite s u fits =>
    refine ⟨s, u, fits, rfl, ?_⟩
    cases s <;> simp only [le, isNaN, signedUnits, Bool.not_false, Bool.true_and, decide_eq_true_eq, if_true,
      Bool.false_eq_true, if_false, false_imp_iff, and_true, true_imp_iff] at h0 h1 ⊢ <;> omega

/-- A share of a number is no larger than it, and its sign matters only for zero. -/
theorem mul_share {c u : Nat} {s : Bool} (hc : Fits c) (hu : Fits u) (hle : u ≤ unitsPerOne)
    (hs : s = true → u = 0) :
    ∃ v fits, finite false c hc * finite s u hu = finite s v fits ∧ v ≤ c ∧ (s = true → v = 0) := by
  have hm := finite_mul_finite false s hc hu
  have hcu : c * u ≤ c * unitsPerOne := Nat.mul_le_mul_left c hle
  obtain ⟨fits, hr⟩ := round_eq_finite (false != s) unitsPerOne_pos hc hcu
  rw [Bool.false_bne] at hm hr
  refine ⟨_, fits, hm.trans hr, nearestFit_le unitsPerOne_pos hcu hc.1, fun h => ?_⟩
  rw [hs h, Nat.mul_zero]
  exact Nat.le_zero.1 (nearestFit_le unitsPerOne_pos (Nat.zero_le _) (Nat.dvd_zero _))

/-- Taking a share away leaves at most the whole. -/
theorem sub_share {c v : Nat} {s : Bool} (hc : Fits c) (hv : Fits v) (hle : v ≤ c) (hs : s = true → v = 0) :
    ∃ l fits, finite false c hc - finite s v hv = finite false l fits ∧ l ≤ c := by
  have key : ∀ x, x ≤ c → ∃ l fits, round false x 1 = finite false l fits ∧ l ≤ c := by
    intro x hx
    have hx' : x ≤ c * 1 := by rwa [Nat.mul_one]
    obtain ⟨fits, hr⟩ := round_eq_finite false Nat.one_pos hc hx'
    exact ⟨_, fits, hr, nearestFit_le Nat.one_pos hx' hc.1⟩
  show ∃ l fits, add (finite false c hc) (neg (finite s v hv)) = finite false l fits ∧ l ≤ c
  cases s with
  | true =>
    simp only [neg, Bool.not_true, add, if_true]
    rw [hs rfl]
    exact key _ (Nat.le_refl c)
  | false =>
    simp only [neg, Bool.not_false, add, Bool.false_eq_true, if_false]
    split
    · exact key _ (Nat.sub_le c v)
    · rw [if_neg (Nat.not_lt.2 hle)]
      exact key 0 (Nat.zero_le c)

/-- Adding a share gives at least the whole, as long as the sum stays finite. -/
theorem add_share {c v n : Nat} {s : Bool} (hc : Fits c) (hv : Fits v) (hle : v ≤ c) (hs : s = true → v = 0)
    (hn : Fits n) (hb : 2 * c ≤ n) :
    ∃ h fits, finite false c hc + finite s v hv = finite false h fits ∧ c ≤ h := by
  have key : ∀ x, c ≤ x → x ≤ n → ∃ h fits, round false x 1 = finite false h fits ∧ c ≤ h := by
    intro x hx hxn
    have hx' : c * 1 ≤ x := by rwa [Nat.mul_one]
    have hxn' : x ≤ n * 1 := by rwa [Nat.mul_one]
    obtain ⟨fits, hr⟩ := round_eq_finite false Nat.one_pos hn hxn'
    exact ⟨_, fits, hr, le_nearestFit Nat.one_pos hx' hc.1⟩
  show ∃ h fits, add (finite false c hc) (finite s v hv) = finite false h fits ∧ c ≤ h
  cases s with
  | false =>
    simp only [add, if_true]
    exact key _ (Nat.le_add_right c v) (by omega)
  | true =>
    obtain rfl := hs rfl
    simp only [add, Bool.false_eq_true, if_false, Nat.not_lt_zero]
    split
    · exact key _ (Nat.le_refl c) (by omega)
    · exact key _ (by omega) (Nat.zero_le n)

end Binary64

/-! ## Draws -/

theorem Duration.cappedBy_le (d longest : Duration) : d.cappedBy (some longest) ≤ longest := by
  show (if d.nanos ≤ longest.nanos then d else longest).nanos ≤ longest.nanos
  split
  · assumption
  · exact Nat.le_refl _

namespace DrawRequest

/-- A range is not empty, and neither its ends nor its width are infinite. -/
def Drawable : DrawRequest → Prop
  | fixed _ => True
  | whole low high => low ≤ high
  | real low high => low.le high = true ∧ low.isFinite = true ∧ high.isFinite = true ∧ (high - low).isFinite = true

theorem Drawable.answer {r : DrawRequest} (h : r.Drawable) (dice : Dice) : ∃ d, r.answer dice = .ok d := by
  cases r with
  | fixed d => exact ⟨d, rfl⟩
  | whole low high =>
    have hle : low ≤ high := h
    exact ⟨_, if_pos hle⟩
  | real low high =>
    obtain ⟨hle, hlow, hhigh, -⟩ := h
    exact ⟨_, by rw [DrawRequest.answer, hle, hlow, hhigh]; rfl⟩

end DrawRequest

namespace Jitter

/-- A strategy that a policy may have. -/
def Good : Jitter → Prop
  | proportional f => RetryPolicy.goodFactor f = true
  | _ => True

/-- The proportional range of a share is in order, and its ends are finite. Its lower one is not cut off. -/
theorem proportional_range {f : Binary64} (hf : RetryPolicy.goodFactor f = true) (base : Duration) :
    ∃ l hl h hh, .ofNat base.millis - .ofNat base.millis * f = Binary64.finite false l hl ∧
      .ofNat base.millis + .ofNat base.millis * f = Binary64.finite false h hh ∧ l ≤ h ∧
      (.ofNat base.millis * f : Binary64).isFinite = true := by
  have hms : base.millis < twoPow 75 := by
    have := base.le_longest
    have h75 : twoPow 75 = 37778931862957161709568 := by decide
    unfold Duration.millis longestNanos at *
    omega
  obtain ⟨c, hc, hcenter, hcb⟩ := Binary64.ofNat_of_lt_twoPow (by omega : 75 < 1000) hms
  -- Twice the center still fits.
  have htop : Fits (twoPow (1074 + 75 + 1)) := twoPow_fits (by omega)
  have hdouble : 2 * c ≤ twoPow (1074 + 75 + 1) := by
    rw [twoPow_succ]
    exact Nat.mul_le_mul_left 2 hcb
  obtain ⟨h0, h1⟩ := Bool.and_eq_true_iff.1 hf
  obtain ⟨s, u, hu, rfl, hu1, hs⟩ := Binary64.share_cases h0 h1
  obtain ⟨v, hv, hspread, hvc, hvs⟩ := Binary64.mul_share hc hu hu1 hs
  obtain ⟨l, hl, hlow, hlc⟩ := Binary64.sub_share hc hv hvc hvs
  obtain ⟨h, hh, hhigh, hch⟩ := Binary64.add_share hc hv hvc hvs htop hdouble
  rw [hcenter, hspread]
  exact ⟨l, hl, h, hh, hlow, hhigh, Nat.le_trans hlc hch, rfl⟩

theorem request_proportional {f : Binary64} (hf : RetryPolicy.goodFactor f = true) (base : Duration)
    (previous : Option Duration) :
    (proportional f).request base previous =
      .real (.ofNat base.millis - .ofNat base.millis * f) (.ofNat base.millis + .ofNat base.millis * f) := by
  obtain ⟨l, hl, h, hh, hlow, hhigh, -, -⟩ := proportional_range hf base
  obtain ⟨_, hz⟩ := Binary64.ofNat_zero
  simp only [request, hlow, show (0 : Binary64) = .ofNat 0 from rfl, hz]
  simp [Binary64.max, Binary64.isNaN, Binary64.lt, Binary64.signedUnits, show ¬ ((l : Int) < 0) by omega]

/-- A strategy that a policy may have never asks for a range that cannot be drawn from. -/
theorem drawable {j : Jitter} (hj : j.Good) (base : Duration) (previous : Option Duration) :
    (j.request base previous).Drawable := by
  cases j with
  | none => trivial
  | proportional f =>
    obtain ⟨l, hl, h, hh, hlow, hhigh, hle, -⟩ := proportional_range hj base
    obtain ⟨w, hw, hwidth, -⟩ := Binary64.sub_share hh hl hle (fun hneg => absurd hneg Bool.false_ne_true)
    rw [request_proportional hj, hlow, hhigh]
    refine ⟨?_, rfl, rfl, by rw [hwidth]; rfl⟩
    simp only [Binary64.le, Binary64.isNaN, Binary64.signedUnits]
    simp only [Bool.not_false, Bool.true_and, Bool.false_eq_true, if_false, decide_eq_true_eq]
    omega
  | full =>
    simp only [request]
    split
    · trivial
    · exact Nat.zero_le _
  | decorrelated =>
    simp only [request]
    split
    · trivial
    · rename_i hlt
      exact Nat.le_of_lt (Nat.lt_of_not_le hlt)

theorem apply_eq_ok {j : Jitter} (hj : j.Good) (dice : Dice) (base : Duration)
    (previous longest : Option Duration) : ∃ d, j.apply dice base previous longest = .ok d := by
  obtain ⟨d, hd⟩ := (drawable hj base previous).answer dice
  exact ⟨d.cappedBy longest, by simp [apply, hd, Except.map]⟩

/-- Whatever was drawn is cut off. -/
theorem apply_le {j : Jitter} {dice : Dice} {base d longest : Duration} {previous : Option Duration}
    (h : j.apply dice base previous (some longest) = .ok d) : d ≤ longest := by
  unfold apply at h
  cases hanswer : (j.request base previous).answer dice with
  | error fault =>
    rw [hanswer] at h
    cases h
  | ok drawn =>
    rw [hanswer] at h
    cases h
    exact Duration.cappedBy_le drawn longest

end Jitter

/-! ## Waits -/

namespace RetryPolicy

/-- What the check of a policy asks for. -/
theorem valid_iff {p : RetryPolicy} : p.Valid ↔ p.name ≠ "" ∧ p.maxAttempts ≠ 0 ∧
    (∀ m, p.multiplier = some m → goodMultiplier m = true) ∧ p.jitter.Good := by
  unfold Valid validate
  simp only
  split
  · simp_all
  split
  · simp_all
  rename_i hn ha
  split
  · rename_i m _ hm
    obtain ⟨hm, hbad⟩ := Option.filter_eq_some_iff.1 hm
    simp_all
  · rename_i f hm hj
    rw [Option.filter_eq_none_iff] at hm
    simp only [hj, Jitter.Good]
    split <;> simp_all
  · rename_i j hm hj
    rw [Option.filter_eq_none_iff] at hm
    have hg : p.jitter.Good := by
      cases hp : p.jitter <;> simp_all [Jitter.Good]
    simp_all

theorem Valid.attempts_pos {p : RetryPolicy} (h : p.Valid) : 0 < p.maxAttempts.toNat := by
  have hne := (valid_iff.1 h).2.1
  refine Nat.pos_of_ne_zero fun h0 => hne ?_
  exact UInt32.toNat_inj.1 h0

theorem Valid.good_jitter {p : RetryPolicy} (h : p.Valid) : p.jitter.Good := (valid_iff.1 h).2.2.2

/-- While attempts are left, the wait of a valid policy exists, whatever is drawn. -/
theorem waitAfter_of_lt {p : RetryPolicy} (hp : p.Valid) (dice : Dice) {k : Nat} (previous : Option Duration)
    (hk : 0 < k) (hlt : k < p.maxAttempts.toNat) : ∃ d, p.waitAfter dice k previous = .delay d := by
  have hd : p.delayAfter k = some ((p.grownDelay k).cappedBy p.maxDelay) := by
    rw [delayAfter, if_neg (by omega)]
  obtain ⟨d, ha⟩ := Jitter.apply_eq_ok hp.good_jitter dice ((p.grownDelay k).cappedBy p.maxDelay) previous
    p.maxDelay
  exact ⟨d, by simp [waitAfter, hd, ha]⟩

/-- When none is left, there is no wait. -/
theorem waitAfter_of_le (p : RetryPolicy) (dice : Dice) {k : Nat} (previous : Option Duration)
    (hle : p.maxAttempts.toNat ≤ k) : p.waitAfter dice k previous = .stop := by
  simp [waitAfter, delayAfter, hle]

theorem waitAfter_zero (p : RetryPolicy) (dice : Dice) (previous : Option Duration) :
    p.waitAfter dice 0 previous = .stop := by
  simp [waitAfter, delayAfter]

theorem waitAfter_ne_impossible {p : RetryPolicy} (hp : p.Valid) (dice : Dice) (k : Nat) (previous : Option Duration)
    (fault : DrawFault) : p.waitAfter dice k previous ≠ .impossible fault := by
  intro h
  rcases Nat.eq_zero_or_pos k with rfl | hpos
  · rw [waitAfter_zero] at h
    cases h
  · by_cases hlt : k < p.maxAttempts.toNat
    · obtain ⟨d, hd⟩ := waitAfter_of_lt hp dice previous hpos hlt
      rw [hd] at h
      cases h
    · rw [waitAfter_of_le p dice previous (Nat.le_of_not_lt hlt)] at h
      cases h

theorem waitAfter_eq_delay {p : RetryPolicy} {dice : Dice} {k : Nat} {previous : Option Duration} {d : Duration} :
    p.waitAfter dice k previous = .delay d ↔
      ∃ base, p.delayAfter k = some base ∧ p.jitter.apply dice base previous p.maxDelay = .ok d := by
  unfold waitAfter
  cases p.delayAfter k with
  | none => simp
  | some base => cases hdraw : p.jitter.apply dice base previous p.maxDelay <;> simp [hdraw]

/-- The waits of a valid policy, whatever the previous wait was and whatever is drawn: nothing is drawn from a range that
is empty or not finite, there is a wait exactly while attempts are left, and none is longer than the longest delay. -/
theorem waits_total {p : RetryPolicy} (hp : p.Valid) (dice : Dice) (k : Nat) (previous : Option Duration) :
    (∀ base, p.delayAfter k = some base → (p.jitter.request base previous).Drawable) ∧
      (∀ fault, p.waitAfter dice k previous ≠ .impossible fault) ∧
      ((∃ d, p.waitAfter dice k previous = .delay d) ↔ 1 ≤ k ∧ k < p.maxAttempts.toNat) ∧
      ∀ d longest, p.waitAfter dice k previous = .delay d → p.maxDelay = some longest → d ≤ longest := by
  refine ⟨fun base _ => Jitter.drawable hp.good_jitter base previous, waitAfter_ne_impossible hp dice k previous, ?_, ?_⟩
  · constructor
    · rintro ⟨d, hd⟩
      refine ⟨?_, lt_maxAttempts_of_waitAfter hd⟩
      rcases Nat.eq_zero_or_pos k with rfl | hpos
      · rw [waitAfter_zero] at hd
        cases hd
      · exact hpos
    · rintro ⟨hpos, hlt⟩
      exact waitAfter_of_lt hp dice previous hpos hlt
  · intro d longest hd hlongest
    obtain ⟨base, -, happly⟩ := waitAfter_eq_delay.1 hd
    rw [hlongest] at happly
    exact Jitter.apply_le happly

/-- Three attempts, with waits that depend on the previous one. -/
def drifting (delay : Duration) (maxDelay : Option Duration) : RetryPolicy :=
  { name := "drifting", maxAttempts := 3, delay, maxDelay, jitter := .decorrelated }

theorem drifting_valid (delay : Duration) (maxDelay : Option Duration) : (drifting delay maxDelay).Valid := by
  refine valid_iff.2 ⟨show "drifting" ≠ "" by decide, show (3 : UInt32) ≠ 0 by decide, fun m h => ?_, trivial⟩
  have hnone : none = some m := h
  cases hnone

/-- Milliseconds of the longest delay, three times: they are more than their counter can show. -/
theorem waits_total_longest : ∃ d,
    (drifting .longest (some (.ofMillis 5))).waitAfter .middle 2 (some .longest) = .delay d ∧ d ≤ .ofMillis 5 := by
  obtain ⟨-, -, hwait, hcapped⟩ := waits_total (drifting_valid .longest (some (.ofMillis 5))) .middle 2 (some .longest)
  obtain ⟨d, hd⟩ := hwait.2 ⟨by decide, show 2 < 3 by decide⟩
  exact ⟨d, hd, hcapped d _ hd rfl⟩

end RetryPolicy

end CallGuard

/-
Which quotients round to a count. They lie between the midpoints to the neighbouring counts, or on one of them if the
count is even (`Within.nearestFit_eq`): that is the interval against which the digits of a number are tested
(`readsBack_iff`). Just below a power of two the counts lie twice as close, so a quotient there may have a smaller
size than the count it rounds to (`Within.of_smaller`).
-/
import CallGuard.Proofs.Number.Rounding
import CallGuard.Number.Shortest
import Mathlib.Tactic.ByContra

namespace CallGuard

/-! ## What is nearest -/

/-- A quotient rounds to a whole number from half a unit below to half a unit above it, and on these bounds if the
number is even. -/
theorem nearest_eq {num den n : Nat} (low : 2 * (n * den) ≤ 2 * num + den) (high : 2 * num ≤ 2 * (n * den) + den)
    (tie : n % 2 = 0 ∨ 2 * (n * den) < 2 * num + den ∧ 2 * num < 2 * (n * den) + den) (hd : 0 < den) :
    nearest num den = n := by
  have hnum := Nat.div_add_mod num den
  have hrest := Nat.mod_lt num hd
  simp only [nearest]
  generalize num / den = w at hnum ⊢
  generalize num % den = r at hnum hrest ⊢
  rw [Nat.mul_comm] at hnum
  rcases Nat.lt_trichotomy w n with h | rfl | h
  · -- The quotient is below the number, so it is the one before.
    obtain ⟨k, rfl⟩ : ∃ k, n = w + 1 + k := ⟨n - (w + 1), by omega⟩
    have hk : k = 0 := by
      by_contra hk
      have : den ≤ k * den := Nat.le_mul_of_pos_left den (Nat.pos_of_ne_zero hk)
      have := Nat.add_mul (w + 1) k den
      have := Nat.add_mul w 1 den
      omega
    subst hk
    have := Nat.add_mul w 1 den
    simp only [Nat.add_zero] at *
    rw [if_neg (by omega)]
  · rw [if_pos (by omega)]
  · -- It is above, so it can only be the next whole number, which is too far away.
    have hmul : (n + 1) * den ≤ w * den := Nat.mul_le_mul_right den h
    have := Nat.add_mul n 1 den
    omega

/-! ## The interval of a count -/

/-- The lower end of what rounds to a count, in quarters of a unit. Below a power of two the counts lie closer. -/
def lowQuarters (units : Nat) : Nat :=
  if units = twoPow units.log2 ∧ 1 < twoPow (excess units) then 4 * units - twoPow (excess units)
  else 4 * units - 2 * twoPow (excess units)

/-- The upper end. -/
def highQuarters (units : Nat) : Nat := 4 * units + 2 * twoPow (excess units)

/-- A quotient lies between the ends, or on one of them if the count is even. -/
structure Within (units num den : Nat) : Prop where
  low : lowQuarters units * den ≤ 4 * num
  high : 4 * num ≤ highQuarters units * den
  tie : units / twoPow (excess units) % 2 = 0 ∨
    lowQuarters units * den < 4 * num ∧ 4 * num < highQuarters units * den

theorem readsBack_iff {units c : Nat} {p : Int} :
    readsBack units c p = true ↔ Within units (c * unitsPerOne * tenPow p.toNat) (tenPow (-p).toNat) := by
  have hscaled : 4 * c * unitsPerOne * tenPow p.toNat = 4 * (c * unitsPerOne * tenPow p.toNat) := by
    simp only [Nat.mul_assoc]
  have hunfold : readsBack units c p =
      if units / twoPow (excess units) % 2 = 0 then
        lowQuarters units * tenPow (-p).toNat ≤ 4 * c * unitsPerOne * tenPow p.toNat &&
          4 * c * unitsPerOne * tenPow p.toNat ≤ highQuarters units * tenPow (-p).toNat
      else
        lowQuarters units * tenPow (-p).toNat < 4 * c * unitsPerOne * tenPow p.toNat &&
          4 * c * unitsPerOne * tenPow p.toNat < highQuarters units * tenPow (-p).toNat := rfl
  rw [hunfold, hscaled]
  split
  · rename_i heven
    simp only [Bool.and_eq_true, decide_eq_true_eq]
    exact ⟨fun h => ⟨h.1, h.2, .inl heven⟩, fun h => ⟨h.low, h.high⟩⟩
  · rename_i hodd
    simp only [Bool.and_eq_true, decide_eq_true_eq]
    exact ⟨fun h => ⟨Nat.le_of_lt h.1, Nat.le_of_lt h.2, .inr h⟩, fun h => h.tie.resolve_left hodd⟩

/-! ## Rounding to the count -/

/-- The counts of a size are the multiples of their gap, up to the next power of two. -/
theorem exists_eq_mul_gap {units : Nat} (hfit : twoPow (excess units) ∣ units) :
    ∃ m, units = m * twoPow (excess units) ∧ m < twoPow 53 ∧ (0 < excess units → twoPow 52 ≤ m) := by
  obtain ⟨m, hm⟩ := hfit
  rw [Nat.mul_comm] at hm
  refine ⟨m, hm, ?_, fun hpos => ?_⟩
  · have h := lt_twoPow_excess units
    rw [twoPow_add, Nat.mul_comm] at h
    exact Nat.lt_of_mul_lt_mul_right (Nat.lt_of_le_of_lt (Nat.le_of_eq hm.symm) h)
  · have h := twoPow_le_of_excess_pos hpos
    rw [twoPow_add, Nat.mul_comm] at h
    exact Nat.le_of_mul_le_mul_right (Nat.le_trans h (Nat.le_of_eq hm)) (twoPow_pos _)

theorem four_mul_le_lowQuarters (units : Nat) : 4 * units ≤ lowQuarters units + 2 * twoPow (excess units) := by
  unfold lowQuarters
  split <;> omega

theorem log2_twoPow (k : Nat) : (twoPow k).log2 = k := Nat.log2_two_pow

theorem excess_twoPow (k : Nat) : excess (twoPow (k + 52)) = k := by
  unfold excess
  rw [log2_twoPow]
  omega

theorem nearestFit_of_excess {num den k n : Nat} (hk : excess (num / den) = k)
    (hn : nearest num (den * twoPow k) = n) : nearestFit num den = n * twoPow k := by
  simp only [nearestFit, hk, hn]
  exact Nat.mul_comm _ _

namespace Within

variable {units num den : Nat}

/-- A quotient of the same size. -/
theorem nearestFit_of_same (h : Within units num den) (hfit : twoPow (excess units) ∣ units) (hd : 0 < den)
    (hsize : excess (num / den) = excess units) : nearestFit num den = units := by
  obtain ⟨m, hm, -, -⟩ := exists_eq_mul_gap hfit
  have hgap := twoPow_pos (excess units)
  have htie := h.tie
  have hlow := h.low
  have hhigh := h.high
  have hends := Nat.mul_le_mul_right den (four_mul_le_lowQuarters units)
  have hdiv : units / twoPow (excess units) = m := Nat.div_eq_of_eq_mul_left hgap hm
  rw [hdiv] at htie
  rw [nearestFit_of_excess (n := m) hsize, ← hm]
  have hprod : m * (den * twoPow (excess units)) = units * den := by
    rw [Nat.mul_comm den, ← Nat.mul_assoc, ← hm]
  unfold highQuarters at hhigh htie
  rw [Nat.add_mul] at hends hhigh htie
  simp only [Nat.mul_assoc 4, Nat.mul_assoc 2, Nat.mul_comm (twoPow (excess units)) den] at hends hhigh htie
  refine nearest_eq ?_ ?_ ?_ (Nat.mul_pos hd hgap) <;> rw [hprod]
  · omega
  · omega
  · exact htie.imp_right fun h => ⟨by omega, by omega⟩

/-- A quotient that is not below the count has its size. -/
theorem excess_of_ge (h : Within units num den) (hfit : twoPow (excess units) ∣ units) (hd : 0 < den)
    (hge : units * den ≤ num) : excess (num / den) = excess units := by
  obtain ⟨m, hm, hlt, -⟩ := exists_eq_mul_gap hfit
  have hgap := twoPow_pos (excess units)
  refine Nat.le_antisymm (excess_le_of_lt (Nat.div_lt_of_lt_mul ?_))
    (excess_mono ((Nat.le_div_iff_mul_le hd).2 hge))
  have hnext : units + twoPow (excess units) ≤ twoPow (excess units + 53) := by
    have hmul := Nat.mul_le_mul_right (twoPow (excess units)) (Nat.succ_le_of_lt hlt)
    rw [Nat.succ_mul, ← hm] at hmul
    rwa [twoPow_add, Nat.mul_comm]
  have hhigh := h.high
  have hmul := Nat.mul_le_mul_left den hnext
  have hpos := Nat.mul_pos hd hgap
  unfold highQuarters at hhigh
  rw [Nat.add_mul, Nat.mul_assoc, Nat.mul_assoc, Nat.mul_comm (twoPow (excess units)) den] at hhigh
  rw [Nat.mul_add, Nat.mul_comm den units] at hmul
  omega

/-- Only below a power of two is there a quotient of a smaller size, and it has the next smaller one. -/
theorem of_smaller (h : Within units num den) (hfit : twoPow (excess units) ∣ units) (hd : 0 < den) (hsize : excess (num / den) < excess units) :
    ∃ k, excess units = k + 1 ∧ units = twoPow (k + 53) ∧ lowQuarters units = 4 * units - 2 * twoPow k ∧
      excess (num / den) = k := by
  obtain ⟨k, hk⟩ : ∃ k, excess units = k + 1 := ⟨excess units - 1, by omega⟩
  obtain ⟨m, hm, -, hle⟩ := exists_eq_mul_gap hfit
  have hends := Nat.mul_le_mul_right den (four_mul_le_lowQuarters units)
  have hlow := h.low
  have hgap : twoPow (k + 1) = 2 * twoPow k := twoPow_succ k
  have hquot : num / den < twoPow 52 * twoPow (k + 1) := by
    refine Nat.lt_of_lt_of_le (lt_twoPow_excess _) ?_
    rw [← twoPow_add]
    exact twoPow_le (by omega)
  have hnum : num < twoPow 52 * twoPow (k + 1) * den := (Nat.div_lt_iff_lt_mul hd).1 hquot
  rw [hk] at hm hends
  have hpower : m = twoPow 52 := by
    by_contra hne
    have hmore : twoPow 52 + 1 ≤ m := by
      have := hle (by omega)
      omega
    have hunits := Nat.mul_le_mul_right den (Nat.mul_le_mul_right (twoPow (k + 1)) hmore)
    rw [← hm, Nat.add_mul, Nat.one_mul, Nat.add_mul] at hunits
    rw [Nat.add_mul, Nat.mul_assoc 4, Nat.mul_assoc 2] at hends
    omega
  have hunits : units = twoPow (k + 53) := by
    rw [hm, hpower, ← twoPow_add]
    exact congrArg twoPow (by omega)
  have hends' : lowQuarters units = 4 * units - 2 * twoPow k := by
    have hone : 1 < twoPow (excess units) := by
      rw [hk, hgap]
      have := twoPow_pos k
      omega
    rw [lowQuarters, if_pos ⟨by rw [hunits, log2_twoPow], hone⟩, hk, hgap]
  refine ⟨k, hk, hunits, hends', Nat.le_antisymm (by omega) ?_⟩
  rw [← excess_twoPow k]
  refine excess_mono ((Nat.le_div_iff_mul_le hd).2 ?_)
  have hhalf : units * den = 2 * (twoPow (k + 52) * den) := by
    rw [hunits, show k + 53 = k + 52 + 1 from rfl, twoPow_succ, Nat.mul_assoc]
  have hsmall : twoPow k * den ≤ twoPow (k + 52) * den := Nat.mul_le_mul_right den (twoPow_le (by omega))
  rw [hends', Nat.sub_mul, Nat.mul_assoc, Nat.mul_assoc] at hlow
  omega

/-- A quotient in the interval of a count rounds to it. -/
theorem nearestFit_eq (h : Within units num den) (hfit : twoPow (excess units) ∣ units) (hd : 0 < den) :
    nearestFit num den = units := by
  rcases Nat.lt_or_ge num (units * den) with hlt | hge
  · have hle : excess (num / den) ≤ excess units :=
      excess_mono (Nat.le_of_lt (Nat.div_lt_of_lt_mul (Nat.mul_comm units den ▸ hlt)))
    rcases Nat.lt_or_eq_of_le hle with hsmaller | hsame
    · obtain ⟨k, -, hunits, hlowQuarters, hsize⟩ := h.of_smaller hfit hd hsmaller
      have hcount : twoPow 53 * twoPow k = units := by
        rw [hunits, ← twoPow_add, Nat.add_comm]
      have hprod : twoPow 53 * (den * twoPow k) = units * den := by
        rw [Nat.mul_comm den, ← Nat.mul_assoc, hcount]
      have hlow := h.low
      rw [hlowQuarters, Nat.sub_mul, Nat.mul_assoc, Nat.mul_assoc, Nat.mul_comm (twoPow k)] at hlow
      rw [nearestFit_of_excess (n := twoPow 53) hsize, hcount]
      refine nearest_eq ?_ ?_ (.inl (by decide)) (Nat.mul_pos hd (twoPow_pos k)) <;> rw [hprod] <;> omega
    · exact h.nearestFit_of_same hfit hd hsame
  · exact h.nearestFit_of_same hfit hd (h.excess_of_ge hfit hd hge)

end Within

end CallGuard

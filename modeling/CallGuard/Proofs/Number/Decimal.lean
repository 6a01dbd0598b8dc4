/-
Decimals: the value of digits, and the number that a decimal reads as. Digits with zeros behind them are the same
decimal with a larger exponent (`readsBack_shift`), and a decimal in the interval of a count reads as that count
(`Binary64.ofDecimal_of_readsBack`): it is within the range outside of which no power of ten is formed.
-/
import CallGuard.Json.Token
import CallGuard.Proofs.Number.Interval
import Mathlib.Tactic.Ring
import Mathlib.Tactic.GCongr

namespace CallGuard

/-! ## Digits -/

theorem digitsValue_eq (ds : List Char) : digitsValue ds = Nat.ofDigitChars 10 ds 0 := by
  simp only [digitsValue, Nat.ofDigitChars_eq_foldl, Nat.mul_comm]

theorem digitsValue_append (ds es : List Char) :
    digitsValue (ds ++ es) = digitsValue ds * tenPow es.length + digitsValue es := by
  simp only [digitsValue_eq, Nat.ofDigitChars_append]
  rw [Nat.ofDigitChars_eq_ofDigitChars_zero, Nat.mul_comm]
  rfl

theorem digitsValue_zeros (n : Nat) : digitsValue (zeros n) = 0 := by
  rw [digitsValue_eq, zeros, Nat.ofDigitChars_replicate_zero, Nat.mul_zero]

theorem digitsValue_append_zeros (ds : List Char) (n : Nat) :
    digitsValue (ds ++ zeros n) = digitsValue ds * tenPow n := by
  rw [digitsValue_append, digitsValue_zeros, zeros, List.length_replicate, Nat.add_zero]

theorem digitsValue_zeros_append (n : Nat) (ds : List Char) : digitsValue (zeros n ++ ds) = digitsValue ds := by
  rw [digitsValue_append, digitsValue_zeros, Nat.zero_mul, Nat.zero_add]

@[simp] theorem digitsValue_toDigits (n : Nat) : digitsValue (Nat.toDigits 10 n) = n := by
  rw [digitsValue_eq, Nat.ofDigitChars_ten_toDigits]

theorem isDigit_of_mem_toDigits {n : Nat} : ∀ c ∈ Nat.toDigits 10 n, c.isDigit :=
  fun _ hc => Nat.isDigit_of_mem_toDigits (by decide) (by decide) hc

/-- The digits of a positive number begin with one that is no zero. -/
theorem head_toDigits {n : Nat} (hn : 0 < n) : (Nat.toDigits 10 n).head? ≠ some '0' := by
  induction n using Nat.strong_induction_on with
  | _ n ih =>
    rcases Nat.lt_or_ge n 10 with hlt | hge
    · rw [Nat.toDigits_of_lt_base hlt, List.head?_cons, ne_eq, Option.some.injEq, Nat.digitChar_eq_zero]
      omega
    · rw [Nat.toDigits_of_base_le (by decide) hge, List.head?_append,
        Option.or_of_isSome (List.isSome_head?.2 Nat.toDigits_ne_nil)]
      exact ih (n / 10) (by omega) (by omega)

theorem lt_tenPow_length (n : Nat) : n < tenPow (Nat.toDigits 10 n).length :=
  (Nat.length_toDigits_le_iff (by decide) Nat.length_toDigits_pos).1 (Nat.le_refl _)

theorem tenPow_le_of_length {n k : Nat} (hn : 0 < n) (hk : (Nat.toDigits 10 n).length = k + 1) : tenPow k ≤ n := by
  rcases Nat.eq_zero_or_pos k with rfl | hpos
  · exact hn
  · by_contra hlt
    have := (Nat.length_toDigits_le_iff (by decide) hpos).2 (Nat.not_le.1 hlt)
    omega

/-! ## Powers of ten -/

theorem tenPow_add (j k : Nat) : tenPow (j + k) = tenPow j * tenPow k := Nat.pow_add 10 j k

theorem tenPow_le {j k : Nat} (h : j ≤ k) : tenPow j ≤ tenPow k := Nat.pow_le_pow_right (by decide) h

/-! ## The same decimal -/

namespace Within

variable {units num den num' den' : Nat}

/-- Whether a quotient lies in the interval depends on its value alone. -/
theorem congr (h : Within units num den) (hd : 0 < den) (hd' : 0 < den') (heq : num * den' = num' * den) :
    Within units num' den' := by
  have hbound : ∀ b, b * den * den' = b * den' * den := fun b => Nat.mul_right_comm b den den'
  have hnum : 4 * num * den' = 4 * num' * den := by rw [Nat.mul_assoc, heq, Nat.mul_assoc]
  have hlow : ∀ b, b * den ≤ 4 * num ↔ b * den' ≤ 4 * num' := fun b => by
    rw [← Nat.mul_le_mul_right_iff hd', hbound, hnum, Nat.mul_le_mul_right_iff hd]
  have hhigh : ∀ b, 4 * num ≤ b * den ↔ 4 * num' ≤ b * den' := fun b => by
    rw [← Nat.mul_le_mul_right_iff hd', hbound, hnum, Nat.mul_le_mul_right_iff hd]
  refine ⟨(hlow _).1 h.low, (hhigh _).1 h.high, h.tie.imp_right fun hstrict => ⟨?_, ?_⟩⟩
  · exact Nat.not_le.1 fun hle => Nat.not_le.2 hstrict.1 ((hhigh _).2 hle)
  · exact Nat.not_le.1 fun hle => Nat.not_le.2 hstrict.2 ((hlow _).2 hle)

end Within

/-- Zeros behind the digits are a larger exponent. -/
theorem readsBack_shift {units c j : Nat} {p : Int} :
    readsBack units (c * tenPow j) p = true ↔ readsBack units c (p + j) = true := by
  have hexponents : j + p.toNat + (-(p + j)).toNat = (p + j).toNat + (-p).toNat := by omega
  have heq : c * tenPow j * unitsPerOne * tenPow p.toNat * tenPow (-(p + j)).toNat =
      c * unitsPerOne * tenPow (p + j).toNat * tenPow (-p).toNat := by
    calc c * tenPow j * unitsPerOne * tenPow p.toNat * tenPow (-(p + j)).toNat
        = c * unitsPerOne * (tenPow j * tenPow p.toNat * tenPow (-(p + j)).toNat) := by ring
      _ = c * unitsPerOne * (tenPow (p + j).toNat * tenPow (-p).toNat) := by
          rw [← tenPow_add, ← tenPow_add, ← tenPow_add, hexponents]
      _ = c * unitsPerOne * tenPow (p + j).toNat * tenPow (-p).toNat := by ring
  rw [readsBack_iff, readsBack_iff]
  exact ⟨fun h => h.congr (tenPow_pos _) (tenPow_pos _) heq, fun h => h.congr (tenPow_pos _) (tenPow_pos _) heq.symm⟩

/-! ## The range of decimals -/

section Range

variable {units c : Nat} {p : Int}

theorem twoPow_excess_le {n : Nat} (hn : 0 < n) (hfit : twoPow (excess n) ∣ n) : twoPow (excess n) ≤ n :=
  Nat.le_of_dvd hn hfit

/-- The interval of a positive count begins above half a unit. -/
theorem two_le_lowQuarters (hpos : 0 < units) (hfit : twoPow (excess units) ∣ units) : 2 ≤ lowQuarters units := by
  have hgap := twoPow_excess_le hpos hfit
  have hone := twoPow_pos (excess units)
  unfold lowQuarters
  split <;> omega

theorem highQuarters_le (hpos : 0 < units) (hfit : twoPow (excess units) ∣ units) : highQuarters units ≤ 6 * units := by
  have hgap := twoPow_excess_le hpos hfit
  unfold highQuarters
  omega

theorem pos_of_readsBack (hpos : 0 < units) (hfit : twoPow (excess units) ∣ units) (h : readsBack units c p = true) :
    0 < c := by
  have hlow := (readsBack_iff.1 h).low
  have hprod := Nat.mul_le_mul (two_le_lowQuarters hpos hfit) (Nat.succ_le_of_lt (tenPow_pos (-p).toNat))
  rcases Nat.eq_zero_or_pos c with rfl | hc
  · simp only [Nat.zero_mul, Nat.mul_zero] at hlow
    omega
  · exact hc

/-- A decimal in the interval of a positive count has no place before the point that is too low. -/
theorem lowest_of_readsBack (hpos : 0 < units) (hfit : twoPow (excess units) ∣ units) (h : readsBack units c p = true) :
    -330 ≤ ((Nat.toDigits 10 c).length : Int) + p := by
  by_contra hlt
  have hlow := (readsBack_iff.1 h).low
  have hc := lt_tenPow_length c
  generalize (Nat.toDigits 10 c).length = k at hlt hc
  have hunit : 2 * unitsPerOne ≤ tenPow 331 := by decide +kernel
  have hzero : p.toNat = 0 := by omega
  rw [hzero, show tenPow 0 = 1 from rfl, Nat.mul_one] at hlow
  -- The decimal is below `10 ^ -331`, and half a unit is not.
  have hdecimal : c * unitsPerOne < tenPow k * unitsPerOne := Nat.mul_lt_mul_of_pos_right hc unitsPerOne_pos
  have hden : tenPow 331 * tenPow k ≤ tenPow (-p).toNat := by
    rw [← tenPow_add]
    exact tenPow_le (by omega)
  have hhalf : 2 * tenPow (-p).toNat ≤ lowQuarters units * tenPow (-p).toNat :=
    Nat.mul_le_mul_right _ (two_le_lowQuarters hpos hfit)
  have hscaled : 2 * unitsPerOne * tenPow k ≤ tenPow 331 * tenPow k := Nat.mul_le_mul_right _ hunit
  rw [Nat.mul_assoc, Nat.mul_comm unitsPerOne] at hscaled
  omega

/-- Nor one that is too high. -/
theorem highest_of_readsBack (hpos : 0 < units) (hfits : Fits units) (h : readsBack units c p = true) :
    ((Nat.toDigits 10 c).length : Int) + p ≤ 310 := by
  by_contra hgt
  have hhigh := (readsBack_iff.1 h).high
  have hc := pos_of_readsBack hpos hfits.1 h
  obtain ⟨k, hk⟩ : ∃ k, (Nat.toDigits 10 c).length = k + 1 :=
    ⟨_, (Nat.succ_pred_eq_of_pos Nat.length_toDigits_pos).symm⟩
  have hdigits := tenPow_le_of_length hc hk
  have hlimit : 6 * overflowUnits ≤ 4 * (tenPow 310 * unitsPerOne) := by decide +kernel
  rw [hk] at hgt
  have hexponents : tenPow 310 * tenPow (-p).toNat ≤ tenPow k * tenPow p.toNat := by
    rw [← tenPow_add, ← tenPow_add]
    exact tenPow_le (by omega)
  have hten := tenPow_pos (-p).toNat
  have hbound : 4 * (c * unitsPerOne * tenPow p.toNat) < 6 * overflowUnits * tenPow (-p).toNat := by
    refine Nat.lt_of_le_of_lt hhigh (Nat.mul_lt_mul_of_pos_right ?_ hten)
    have := highQuarters_le hpos hfits.1
    have := hfits.2
    omega
  refine Nat.lt_irrefl (6 * overflowUnits * tenPow (-p).toNat) ?_
  calc 6 * overflowUnits * tenPow (-p).toNat
      ≤ 4 * (tenPow 310 * unitsPerOne) * tenPow (-p).toNat := Nat.mul_le_mul_right _ hlimit
    _ = 4 * (unitsPerOne * (tenPow 310 * tenPow (-p).toNat)) := by ring
    _ ≤ 4 * (unitsPerOne * (tenPow k * tenPow p.toNat)) := Nat.mul_le_mul_left 4 (Nat.mul_le_mul_left _ hexponents)
    _ = 4 * (tenPow k * unitsPerOne * tenPow p.toNat) := by ring
    _ ≤ 4 * (c * unitsPerOne * tenPow p.toNat) := by gcongr
    _ < 6 * overflowUnits * tenPow (-p).toNat := hbound

end Range

/-- A decimal in the interval of a count is read as the number with that count. -/
theorem Binary64.ofDecimal_of_readsBack (negative : Bool) {units c : Nat} {p : Int} (hpos : 0 < units) (hfits : Fits units)
    (h : readsBack units c p = true) : ofDecimal negative c p = .finite negative units hfits := by
  have hlowest := lowest_of_readsBack hpos hfits.1 h
  have hhighest := highest_of_readsBack hpos hfits h
  have hc := pos_of_readsBack hpos hfits.1 h
  have hround : round negative (c * unitsPerOne * tenPow p.toNat) (tenPow (-p).toNat) = .finite negative units hfits := by
    have hnearest := (readsBack_iff.1 h).nearestFit_eq hfits.1 (tenPow_pos _)
    simp only [round, hnearest, hfits.2, dite_true]
  unfold ofDecimal
  rw [if_neg (by omega), if_neg (by omega)]
  split
  · rename_i hle
    rw [show (-p).toNat = 0 by omega, Nat.mul_right_comm] at hround
    exact hround
  · rename_i hlt
    rw [show p.toNat = 0 by omega, show tenPow 0 = 1 from rfl, Nat.mul_one] at hround
    exact hround

end CallGuard

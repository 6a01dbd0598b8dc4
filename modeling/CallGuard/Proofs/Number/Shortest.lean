/-
The shortest digits of a number read back as it. Seventeen digits always do: the place of the first digit is not too
high (`point_le`), so the grid of seventeen digits is finer than the interval of the count is wide, and one of the
neighbours of the count on the grid lies in it (`onGrid_isSome`). Whatever the search takes was tested, so the digits
that are written read back (`shortestDigits_written`).
-/
import CallGuard.Proofs.Number.Decimal
import Mathlib.Data.List.TakeWhile

namespace CallGuard

/-! ## The place of the first digit -/

theorem tenPow_le_twoPow {q e : Nat} (h : 10 * q ≤ 3 * e) : tenPow q ≤ twoPow e := by
  refine (Nat.pow_le_pow_iff_left (n := 10) (by decide)).1 ?_
  calc tenPow q ^ 10 = 10 ^ (10 * q) := by rw [tenPow, Nat.pow_eq, ← Nat.pow_mul, Nat.mul_comm]
    _ ≤ 10 ^ (3 * e) := Nat.pow_le_pow_right (by decide) h
    _ = (10 ^ 3) ^ e := Nat.pow_mul 10 3 e
    _ ≤ (2 ^ 10) ^ e := Nat.pow_le_pow_left (by decide) e
    _ = twoPow e ^ 10 := by rw [twoPow, Nat.pow_eq, ← Nat.pow_mul, ← Nat.pow_mul, Nat.mul_comm]

theorem twoPow_le_tenPow {f q : Nat} (h : 13 * f ≤ 43 * q) : twoPow f ≤ tenPow q := by
  refine (Nat.pow_le_pow_iff_left (n := 43) (by decide)).1 ?_
  calc twoPow f ^ 43 = (2 ^ 43) ^ f := by rw [twoPow, Nat.pow_eq, ← Nat.pow_mul, ← Nat.pow_mul, Nat.mul_comm]
    _ ≤ (10 ^ 13) ^ f := Nat.pow_le_pow_left (by decide) f
    _ = 10 ^ (13 * f) := (Nat.pow_mul 10 13 f).symm
    _ ≤ 10 ^ (43 * q) := Nat.pow_le_pow_right (by decide) h
    _ = tenPow q ^ 43 := by rw [tenPow, Nat.pow_eq, ← Nat.pow_mul, Nat.mul_comm]

/-- A count is at least a power of ten. -/
def Reaches (units : Nat) (q : Int) : Prop := unitsPerOne * tenPow q.toNat ≤ units * tenPow (-q).toNat

theorem reaches_of_not_below {units : Nat} {q : Int} (h : belowScaled units unitsPerOne 1 q = false) : Reaches units q := by
  rw [belowScaled, decide_eq_false_iff_not, Nat.not_lt, Nat.one_mul] at h
  exact h

/-- The first guess of the place is at most one too high. -/
theorem reaches_guess {units : Nat} (hpos : 0 < units) (hlt : units < overflowUnits) :
    Reaches units (((units.log2 : Int) - 1074) * 30103 / 100000 - 2) := by
  have hne : units ≠ 0 := Nat.ne_of_gt hpos
  have hlog : twoPow units.log2 ≤ units := Nat.log2_self_le hne
  have hmax : units.log2 < 2098 := (log2_lt_iff hne).2 hlt
  generalize hq : ((units.log2 : Int) - 1074) * 30103 / 100000 - 2 = q
  generalize units.log2 = l at *
  unfold Reaches unitsPerOne
  rcases Nat.lt_or_ge l 1074 with hsmall | hlarge
  · have hpower : twoPow (1074 - l) ≤ tenPow (-q).toNat := twoPow_le_tenPow (by omega)
    calc twoPow 1074 * tenPow q.toNat = twoPow l * twoPow (1074 - l) := by
          rw [← twoPow_add, show q.toNat = 0 by omega, show l + (1074 - l) = 1074 by omega, show tenPow 0 = 1 from rfl,
            Nat.mul_one]
      _ ≤ units * tenPow (-q).toNat := Nat.mul_le_mul hlog hpower
  · have hpower : tenPow q.toNat ≤ twoPow (l - 1074) := tenPow_le_twoPow (by omega)
    calc twoPow 1074 * tenPow q.toNat ≤ twoPow 1074 * twoPow (l - 1074) := Nat.mul_le_mul_left _ hpower
      _ = twoPow l := by rw [← twoPow_add, show 1074 + (l - 1074) = l by omega]
      _ ≤ units * tenPow (-q).toNat := Nat.le_trans hlog (Nat.le_mul_of_pos_right _ (tenPow_pos _))

/-- The place of the first digit is not too high: each candidate is taken only if the one before it was too low. -/
theorem point_le {units : Nat} (hpos : 0 < units) (hlt : units < overflowUnits) : Reaches units (pointOf units - 1) := by
  have hguess := reaches_guess hpos hlt
  unfold pointOf
  simp only []
  generalize ((units.log2 : Int) - 1074) * 30103 / 100000 = guess at hguess ⊢
  have hlower : ∀ (i : Nat), (∀ j < i, belowScaled units unitsPerOne 1 (guess - 1 + (j : Int)) = false) →
      Reaches units (guess - 1 + (i : Int) - 1) := fun i hi => by
    rcases i with _ | i
    · rwa [show guess - 1 + ((0 : Nat) : Int) - 1 = guess - 2 by omega]
    · rw [show guess - 1 + ((i + 1 : Nat) : Int) - 1 = guess - 1 + (i : Int) by omega]
      exact reaches_of_not_below (hi i (Nat.lt_succ_self i))
  rw [List.find?_map]
  cases hfind : (List.range 4).find? _ with
  | none =>
    rw [List.find?_range_eq_none] at hfind
    have h := hlower 4 fun j hj => by simpa using hfind j hj
    rwa [show guess - 1 + ((4 : Nat) : Int) = guess + 3 by omega] at h
  | some i =>
    obtain ⟨-, -, hbefore⟩ := List.find?_range_eq_some.1 hfind
    exact hlower i fun j hj => by simpa using hbefore j hj

/-! ## Seventeen digits -/

/-- The interval of a count is wider than a sixteenth power of ten below it. -/
theorem exists_width {units : Nat} (hpos : 0 < units) (hfit : twoPow (excess units) ∣ units) :
    ∃ width, lowQuarters units + width = highQuarters units ∧ 4 * units < width * tenPow 16 := by
  obtain ⟨m, hm, hlt, -⟩ := exists_eq_mul_gap hfit
  have hgap := twoPow_pos (excess units)
  have hle := twoPow_excess_le hpos hfit
  have hcount : units < 9007199254740992 * twoPow (excess units) := by
    rw [show 9007199254740992 = twoPow 53 from rfl]
    exact Nat.lt_of_le_of_lt (Nat.le_of_eq hm) (Nat.mul_lt_mul_of_pos_right hlt hgap)
  rw [show tenPow 16 = 10000000000000000 from rfl]
  unfold lowQuarters highQuarters
  split
  · -- A power of two: the interval is narrower, but the count has the smallest of all leading digits.
    rename_i hpower
    have hmin : units = 4503599627370496 * twoPow (excess units) := by
      have hexcess : 0 < excess units := Nat.pos_of_ne_zero fun h0 => by
        rw [h0] at hpower
        exact absurd hpower.2 (by decide)
      have hlog : units.log2 = 52 + excess units := by
        unfold excess at hexcess ⊢
        omega
      rw [show 4503599627370496 = twoPow 52 from rfl, ← twoPow_add, ← hlog]
      exact hpower.1
    exact ⟨3 * twoPow (excess units), by omega, by omega⟩
  · exact ⟨4 * twoPow (excess units), by omega, by omega⟩

theorem lowQuarters_lt {units : Nat} (hpos : 0 < units) (hfit : twoPow (excess units) ∣ units) :
    lowQuarters units < 4 * units := by
  have hgap := twoPow_pos (excess units)
  have hle := twoPow_excess_le hpos hfit
  unfold lowQuarters
  split <;> omega

theorem lt_highQuarters (units : Nat) : 4 * units < highQuarters units := by
  have hgap := twoPow_pos (excess units)
  unfold highQuarters
  omega

/-- On a grid that is finer than the interval is wide, one of the neighbours reads back. -/
theorem readsBack_neighbour {units : Nat} {q : Int} (hpos : 0 < units) (hfit : twoPow (excess units) ∣ units)
    (h : Reaches units q) :
    let c := units * tenPow (-(q - 16)).toNat / (unitsPerOne * tenPow (q - 16).toNat)
    readsBack units c (q - 16) = true ∨ readsBack units (c + 1) (q - 16) = true := by
  intro c
  obtain ⟨width, hwidth, hwide⟩ := exists_width hpos hfit
  have hten := tenPow_pos (-(q - 16)).toNat
  -- The grid is that of seventeen digits.
  have hgrid : unitsPerOne * tenPow (q - 16).toNat * tenPow 16 ≤ units * tenPow (-(q - 16)).toNat := by
    refine Nat.le_of_mul_le_mul_right (c := tenPow (-q).toNat) ?_ (tenPow_pos _)
    have hexponents : (q - 16).toNat + 16 + (-q).toNat = q.toNat + (-(q - 16)).toNat := by omega
    calc unitsPerOne * tenPow (q - 16).toNat * tenPow 16 * tenPow (-q).toNat
        = unitsPerOne * (tenPow (q - 16).toNat * tenPow 16 * tenPow (-q).toNat) := by ring
      _ = unitsPerOne * tenPow q.toNat * tenPow (-(q - 16)).toNat := by
          rw [← tenPow_add, ← tenPow_add, hexponents, tenPow_add, Nat.mul_assoc]
      _ ≤ units * tenPow (-q).toNat * tenPow (-(q - 16)).toNat := Nat.mul_le_mul_right _ h
      _ = units * tenPow (-(q - 16)).toNat * tenPow (-q).toNat := Nat.mul_right_comm _ _ _
  have hstep : 0 < unitsPerOne * tenPow (q - 16).toNat := Nat.mul_pos unitsPerOne_pos (tenPow_pos _)
  have hbelow : c * (unitsPerOne * tenPow (q - 16).toNat) ≤ units * tenPow (-(q - 16)).toNat := Nat.div_mul_le_self _ _
  have habove : units * tenPow (-(q - 16)).toNat < (c + 1) * (unitsPerOne * tenPow (q - 16).toNat) :=
    (Nat.div_lt_iff_lt_mul hstep).1 (Nat.lt_succ_self _)
  rw [readsBack_iff, readsBack_iff, Nat.mul_assoc, Nat.mul_assoc]
  generalize tenPow (-(q - 16)).toNat = den at *
  generalize unitsPerOne * tenPow (q - 16).toNat = step at *
  generalize c = c at hbelow habove ⊢
  have hlow : lowQuarters units * den < 4 * (units * den) := by
    rw [← Nat.mul_assoc]
    exact Nat.mul_lt_mul_of_pos_right (lowQuarters_lt hpos hfit) hten
  have hhigh : 4 * (units * den) < highQuarters units * den := by
    rw [← Nat.mul_assoc]
    exact Nat.mul_lt_mul_of_pos_right (lt_highQuarters units) hten
  by_cases hin : lowQuarters units * den < 4 * (c * step)
  · exact .inl ⟨by omega, by omega, .inr ⟨hin, by omega⟩⟩
  · have hnext : 4 * ((c + 1) * step) < highQuarters units * den := by
      by_contra hout
      -- Both neighbours lie outside, so the interval is no wider than a step of the grid.
      have hsteps : width * den ≤ 4 * step := by
        rw [← hwidth, Nat.add_mul, Nat.add_mul, Nat.one_mul] at hout
        omega
      have hscaled := Nat.mul_le_mul_right (tenPow 16) hsteps
      have hstrict := Nat.mul_lt_mul_of_pos_right hwide hten
      rw [Nat.mul_right_comm] at hscaled
      rw [Nat.mul_assoc 4] at hscaled hstrict
      omega
    exact .inr ⟨by omega, by omega, .inr ⟨by omega, hnext⟩⟩

/-- What is taken on a grid is a neighbour that reads back; nothing is taken only if neither does. -/
theorem onGrid_cases (tie : Tie) (units : Nat) (p : Int) :
    let c := units * tenPow (-p).toNat / (unitsPerOne * tenPow p.toNat)
    (onGrid tie units p = none ∧ readsBack units c p = false ∧ readsBack units (c + 1) p = false) ∨
      ∃ c', onGrid tie units p = some c' ∧ readsBack units c' p = true := by
  unfold onGrid
  simp only []
  generalize units * tenPow (-p).toNat / (unitsPerOne * tenPow p.toNat) = c
  cases hbelow : readsBack units c p <;> cases habove : readsBack units (c + 1) p
  · exact .inl ⟨rfl, rfl, rfl⟩
  · exact .inr ⟨c + 1, rfl, habove⟩
  · exact .inr ⟨c, rfl, hbelow⟩
  · refine .inr ?_
    cases tie
    · simp only []
      split_ifs
      · exact ⟨c, rfl, hbelow⟩
      · exact ⟨c + 1, rfl, habove⟩
      · exact ⟨c, rfl, hbelow⟩
      · exact ⟨c + 1, rfl, habove⟩
    · simp only []
      split_ifs
      · exact ⟨c, rfl, hbelow⟩
      · exact ⟨c + 1, rfl, habove⟩
      · exact ⟨c + 1, rfl, habove⟩

theorem readsBack_of_onGrid {tie : Tie} {units c : Nat} {p : Int} (h : onGrid tie units p = some c) :
    readsBack units c p = true := by
  rcases onGrid_cases tie units p with ⟨hnone, -, -⟩ | ⟨c', hsome, hreads⟩
  · rw [hnone] at h
    cases h
  · rw [hsome] at h
    cases h
    exact hreads

theorem exists_onGrid (tie : Tie) {units : Nat} {q : Int} (hpos : 0 < units) (hfit : twoPow (excess units) ∣ units)
    (h : Reaches units q) : ∃ c, onGrid tie units (q - 16) = some c := by
  rcases onGrid_cases tie units (q - 16) with ⟨-, hbelow, habove⟩ | ⟨c, hsome, -⟩
  · rcases readsBack_neighbour hpos hfit h with hreads | hreads
    · rw [hbelow] at hreads
      cases hreads
    · rw [habove] at hreads
      cases hreads
  · exact ⟨c, hsome⟩

/-! ## The digits that are written -/

/-- Digits that write a count: they begin with no zero, and the decimal reads back as the count. -/
structure Digits.Writes (d : Digits) (units : Nat) : Prop where
  digits : ∀ c ∈ d.digits, c.isDigit
  head : d.digits.head? ≠ some '0'
  readsBack : CallGuard.readsBack units (digitsValue d.digits) (d.point - d.digits.length) = true

/-- Without the zeros at the end of digits, their value is divided by a power of ten. -/
theorem exists_zeros (ds : List Char) : ∃ j, ds = (ds.reverse.dropWhile (· == '0')).reverse ++ zeros j := by
  refine ⟨(ds.reverse.takeWhile (· == '0')).length, ?_⟩
  have hzeros : (ds.reverse.takeWhile (· == '0')).reverse = zeros (ds.reverse.takeWhile (· == '0')).length := by
    rw [zeros, List.eq_replicate_iff]
    refine ⟨List.length_reverse, fun c hc => ?_⟩
    simpa using List.mem_takeWhile_imp (List.mem_reverse.1 hc)
  rw [← hzeros, ← List.reverse_append, List.takeWhile_append_dropWhile, List.reverse_reverse]

/-- Some number of digits up to seventeen is found, and its decimal was tested. -/
theorem exists_found (tie : Tie) {units : Nat} (hpos : 0 < units) (hfits : Fits units) :
    ∃ c k : Nat, readsBack units c (pointOf units - (k + 1 : Int)) = true ∧
      shortestDigits tie units = ⟨((Nat.toDigits 10 c).reverse.dropWhile (· == '0')).reverse,
        pointOf units + (Nat.toDigits 10 c).length - (k + 1 : Int)⟩ := by
  unfold shortestDigits
  simp only []
  cases hfind : (List.range 17).findSome? _ with
  | none =>
    obtain ⟨c, hc⟩ := exists_onGrid tie hpos hfits.1 (point_le hpos hfits.2)
    have hlast := List.findSome?_eq_none_iff.1 hfind 16 (by decide)
    rw [show pointOf units - (((16 : Nat) : Int) + 1) = pointOf units - 1 - 16 by omega, hc] at hlast
    cases hlast
  | some found =>
    obtain ⟨k, -, hk⟩ := List.exists_of_findSome?_eq_some hfind
    obtain ⟨c, hc, rfl⟩ := Option.map_eq_some_iff.1 hk
    exact ⟨c, k, readsBack_of_onGrid hc, rfl⟩

theorem shortestDigits_writes (tie : Tie) {units : Nat} (hpos : 0 < units) (hfits : Fits units) :
    (shortestDigits tie units).Writes units := by
  obtain ⟨c, k, hreads, hfound⟩ := exists_found tie hpos hfits
  have hdigits : ∀ d ∈ Nat.toDigits 10 c, d.isDigit := isDigit_of_mem_toDigits
  have hhead := head_toDigits (pos_of_readsBack hpos hfits.1 hreads)
  have hvalue := digitsValue_toDigits c
  obtain ⟨j, hj⟩ := exists_zeros (Nat.toDigits 10 c)
  rw [hfound]
  generalize ((Nat.toDigits 10 c).reverse.dropWhile (· == '0')).reverse = kept at hj ⊢
  generalize Nat.toDigits 10 c = all at *
  subst hj
  rw [digitsValue_append_zeros] at hvalue
  constructor
  · exact fun d hd => hdigits d (List.mem_append_left _ hd)
  · intro hzero
    simp only [] at hzero
    rw [List.head?_append, hzero] at hhead
    exact hhead rfl
  · rw [← hvalue, readsBack_shift] at hreads
    have hlength : (kept ++ zeros j).length = kept.length + j := by
      rw [List.length_append, zeros, List.length_replicate]
    show readsBack units (digitsValue kept) (pointOf units + (kept ++ zeros j).length - (k + 1 : Int) - kept.length) = true
    rw [hlength, show pointOf units + ((kept.length + j : Nat) : Int) - (k + 1 : Int) - kept.length =
      pointOf units - (k + 1 : Int) + j by omega]
    exact hreads

end CallGuard

/-
Numbers read back from their text. A number is a run of digits, digits behind a point and an exponent, each of which
ends where the next begins (`scanNumber_parts`); what is behind the number has to stop it (`Stops`). Whole numbers
read back as they are (`scanNumber_whole`), and the text of a finite number, in either layout, as that number with its
sign (`scanNumber_magnitude`).
-/
import CallGuard.Proofs.Number.Shortest

namespace CallGuard

/-! ## Parts of a number -/

/-- Nothing that would belong to a number. -/
def Stops (rest : List Char) : Prop := ∀ c, rest.head? = some c → c.isDigit = false ∧ c ≠ '.' ∧ c ≠ 'e' ∧ c ≠ 'E'

theorem digitsOf_append {ds rest : List Char} (hds : ∀ c ∈ ds, c.isDigit)
    (hrest : ∀ c, rest.head? = some c → c.isDigit = false) : digitsOf (ds ++ rest) = (ds, rest) := by
  have hend : rest.takeWhile Char.isDigit = [] ∧ rest.dropWhile Char.isDigit = rest := by
    cases rest with
    | nil => exact ⟨rfl, rfl⟩
    | cons c rest => simp [hrest c rfl]
  rw [digitsOf, List.takeWhile_append_of_pos hds, List.dropWhile_append_of_pos hds, hend.1, hend.2, List.append_nil]

theorem someDigits_append {ds rest : List Char} (hne : ds ≠ []) (hds : ∀ c ∈ ds, c.isDigit)
    (hrest : ∀ c, rest.head? = some c → c.isDigit = false) : someDigits (ds ++ rest) = .ok (ds, rest) := by
  unfold someDigits
  rw [digitsOf_append hds hrest]
  cases ds with
  | nil => exact absurd rfl hne
  | cons d ds => rfl

theorem scanFraction_point {ds rest : List Char} (hne : ds ≠ []) (hds : ∀ c ∈ ds, c.isDigit)
    (hrest : ∀ c, rest.head? = some c → c.isDigit = false) : scanFraction ('.' :: (ds ++ rest)) = .ok (some ds, rest) := by
  show (someDigits (ds ++ rest)).map _ = _
  rw [someDigits_append hne hds hrest]
  rfl

theorem scanFraction_none {rest : List Char} (h : rest.head? ≠ some '.') : scanFraction rest = .ok (none, rest) := by
  unfold scanFraction
  split
  · exact absurd rfl h
  · rfl

theorem scanExponent_none {rest : List Char} (h : rest.head? ≠ some 'e') (h' : rest.head? ≠ some 'E') :
    scanExponent rest = .ok (none, rest) := by
  unfold scanExponent
  simp only []
  split <;> first | rfl | exact absurd rfl h | exact absurd rfl h'

theorem scanExponent_int (e : Int) {rest : List Char} (hrest : ∀ c, rest.head? = some c → c.isDigit = false) :
    scanExponent ('e' :: ((if 0 ≤ e then ['+'] else ['-']) ++ (Nat.toDigits 10 e.natAbs ++ rest))) = .ok (some e, rest) := by
  have hdigits := someDigits_append Nat.toDigits_ne_nil (isDigit_of_mem_toDigits (n := e.natAbs)) hrest
  split_ifs with he
  · show (someDigits (Nat.toDigits 10 e.natAbs ++ rest)).map (fun p => (some ((1 : Int) * digitsValue p.1), p.2)) = _
    rw [hdigits, Except.map, digitsValue_toDigits, Int.one_mul, Int.natAbs_of_nonneg he]
  · show (someDigits (Nat.toDigits 10 e.natAbs ++ rest)).map (fun p => (some ((-1 : Int) * digitsValue p.1), p.2)) = _
    rw [hdigits, Except.map, digitsValue_toDigits, show (-1 : Int) * e.natAbs = e by omega]

namespace Stops

variable {rest : List Char}

theorem digit (h : Stops rest) : ∀ c, rest.head? = some c → c.isDigit = false := fun c hc => (h c hc).1

theorem fraction (h : Stops rest) : scanFraction rest = .ok (none, rest) := scanFraction_none fun hc => (h _ hc).2.1 rfl

theorem exponent (h : Stops rest) : scanExponent rest = .ok (none, rest) :=
  scanExponent_none (fun hc => (h _ hc).2.2.1 rfl) fun hc => (h _ hc).2.2.2 rfl

end Stops

/-- The parts of a number, one after the other. -/
theorem scanNumber_parts {negative : Bool} {whole mid behind rest : List Char} {fraction : Option (List Char)}
    {exponent : Option Int} (hne : whole ≠ []) (hwhole : ∀ c ∈ whole, c.isDigit)
    (hlead : whole.head? = some '0' → whole.length = 1) (hmid : ∀ c, mid.head? = some c → c.isDigit = false)
    (hfraction : scanFraction mid = .ok (fraction, behind)) (hexponent : scanExponent behind = .ok (exponent, rest)) :
    scanNumber negative (whole ++ mid) = (numberOf negative whole fraction exponent).map fun n => (n, rest) := by
  unfold scanNumber
  rw [someDigits_append hne hwhole hmid]
  simp only [bind, Except.bind]
  rw [if_neg fun h => h.2 (hlead h.1)]
  simp only [hfraction, hexponent, pure, Except.pure]
  cases numberOf negative whole fraction exponent <;> rfl

/-! ## Whole numbers -/

theorem lead_toDigits {n : Nat} (h : (Nat.toDigits 10 n).head? = some '0') : (Nat.toDigits 10 n).length = 1 := by
  rcases Nat.eq_zero_or_pos n with rfl | hpos
  · rfl
  · exact absurd h (head_toDigits hpos)

theorem scanNumber_digits {negative : Bool} {n : Nat} {rest : List Char} (hrest : Stops rest) :
    scanNumber negative (Nat.toDigits 10 n ++ rest) =
      (numberOf negative (Nat.toDigits 10 n) none none).map fun n => (n, rest) :=
  scanNumber_parts Nat.toDigits_ne_nil isDigit_of_mem_toDigits lead_toDigits hrest.digit hrest.fraction hrest.exponent

theorem scanNumber_whole (n : UInt64) {rest : List Char} (hrest : Stops rest) :
    scanNumber false (Nat.toDigits 10 n.toNat ++ rest) = .ok (.whole n, rest) := by
  have hlt : n.toNat < wordValues := n.toNat_lt
  rw [scanNumber_digits hrest, numberOf, digitsValue_toDigits, if_pos ⟨rfl, rfl, rfl, hlt⟩, UInt64.ofNat_toNat]
  rfl

theorem scanNumber_negative {n : UInt64} (hpos : 0 < n.toNat) (hle : n.toNat ≤ 9223372036854775808) {rest : List Char}
    (hrest : Stops rest) : scanNumber true (Nat.toDigits 10 n.toNat ++ rest) = .ok (.negative n, rest) := by
  rw [scanNumber_digits hrest, numberOf, digitsValue_toDigits, if_neg (by simp), if_pos ⟨rfl, rfl, rfl, hpos, hle⟩,
    UInt64.ofNat_toNat]
  rfl

/-! ## Finite numbers -/

/-- A number with a point or an exponent is the one that its decimal reads as. -/
theorem numberOf_decimal {negative : Bool} {whole : List Char} {fraction : Option (List Char)} {exponent : Option Int}
    {x : Binary64} (hsome : fraction ≠ none ∨ exponent ≠ none) (hx : x.isFinite = true)
    (hdecimal : Binary64.ofDecimal negative (digitsValue (whole ++ fraction.getD []))
      (exponent.getD 0 - ((fraction.getD []).length : Int)) = x) :
    numberOf negative whole fraction exponent = .ok (.real x) := by
  have hnot : ∀ p : Prop, ¬ (fraction = none ∧ exponent = none ∧ p) := fun p h =>
    hsome.elim (· h.1) (· h.2.1)
  unfold numberOf
  rw [if_neg (hnot _), if_neg (hnot _)]
  simp only [hdecimal, hx, if_true]

section Layouts

variable {negative : Bool} {units : Nat} {d : Digits} {rest : List Char}

theorem Digits.Writes.ne_nil (h : d.Writes units) (hpos : 0 < units) (hfit : twoPow (excess units) ∣ units) :
    d.digits ≠ [] := fun hnil => by
  have hvalue := pos_of_readsBack hpos hfit h.readsBack
  rw [hnil] at hvalue
  exact absurd hvalue (by decide)

theorem isDigit_of_mem_zeros {n : Nat} : ∀ c ∈ zeros n, c.isDigit := fun c hc => by
  rw [List.eq_of_mem_replicate hc]
  rfl

theorem scanNumber_pointed (negative : Bool) (whole behind : List Char) (hpos : 0 < units) (hfits : Fits units)
    (hwhole : ∀ c ∈ whole, c.isDigit) (hne : whole ≠ []) (hlead : whole.head? = some '0' → whole.length = 1)
    (hbehind : ∀ c ∈ behind, c.isDigit) (hne' : behind ≠ [])
    (hreads : readsBack units (digitsValue (whole ++ behind)) (-(behind.length : Int)) = true) (hrest : Stops rest) :
    scanNumber negative (whole ++ '.' :: (behind ++ rest)) = .ok (.real (.finite negative units hfits), rest) := by
  have hnumber : numberOf negative whole (some behind) none = .ok (.real (.finite negative units hfits)) := by
    refine numberOf_decimal (.inl nofun) rfl (Binary64.ofDecimal_of_readsBack negative hpos hfits ?_)
    rw [← Int.zero_sub] at hreads
    exact hreads
  rw [scanNumber_parts hne hwhole hlead (fun c hc => by cases hc; rfl)
    (scanFraction_point hne' hbehind hrest.digit) hrest.exponent, hnumber]
  rfl

/-- All digits are behind the point. -/
theorem scanNumber_behind (h : d.Writes units) (hpos : 0 < units) (hfits : Fits units) (hpoint : d.point ≤ 0)
    (hrest : Stops rest) : scanNumber negative (zeros 1 ++ '.' :: (zeros (-d.point).toNat ++ d.digits ++ rest)) =
      .ok (.real (.finite negative units hfits), rest) := by
  have hreads := h.readsBack
  have hne := h.ne_nil hpos hfits.1
  have hbehind : ∀ c ∈ zeros (-d.point).toNat ++ d.digits, c.isDigit := fun c hc =>
    (List.mem_append.1 hc).elim (isDigit_of_mem_zeros c) (h.digits c)
  have hvalue : digitsValue (zeros 1 ++ (zeros (-d.point).toNat ++ d.digits)) = digitsValue d.digits := by
    rw [digitsValue_zeros_append, digitsValue_zeros_append]
  have hplaces : -((zeros (-d.point).toNat ++ d.digits).length : Int) = d.point - d.digits.length := by
    rw [List.length_append, zeros, List.length_replicate]
    omega
  refine scanNumber_pointed negative (zeros 1) _ hpos hfits isDigit_of_mem_zeros (List.cons_ne_nil _ _) (fun _ => rfl)
    hbehind (List.append_ne_nil_of_right_ne_nil _ hne) ?_ hrest
  rw [hvalue, hplaces]
  exact hreads

/-- The point is among the digits. -/
theorem scanNumber_among (h : d.Writes units) (hpos : 0 < units) (hfits : Fits units) (hpoint : 0 < d.point)
    (hamong : d.point < d.digits.length) (hrest : Stops rest) :
    scanNumber negative (d.digits.take d.point.toNat ++ '.' :: (d.digits.drop d.point.toNat ++ rest)) =
      .ok (.real (.finite negative units hfits), rest) := by
  have hreads := h.readsBack
  have hplaces : -((d.digits.drop d.point.toNat).length : Int) = d.point - d.digits.length := by
    rw [List.length_drop]
    omega
  have hlead : (d.digits.take d.point.toNat).head? = some '0' → (d.digits.take d.point.toNat).length = 1 := fun h0 => by
    rw [List.head?_take, if_neg (by omega)] at h0
    exact absurd h0 h.head
  have hbefore : d.digits.take d.point.toNat ≠ [] := List.length_pos_iff.1 (by rw [List.length_take]; omega)
  have hafter : d.digits.drop d.point.toNat ≠ [] := List.length_pos_iff.1 (by rw [List.length_drop]; omega)
  refine scanNumber_pointed negative _ _ hpos hfits (fun c hc => h.digits c (List.mem_of_mem_take hc)) hbefore hlead
    (fun c hc => h.digits c (List.mem_of_mem_drop hc)) hafter ?_ hrest
  rw [List.take_append_drop, hplaces]
  exact hreads

/-- The point is behind the digits, and zeros fill the places up to it and one behind it. -/
theorem scanNumber_before (h : d.Writes units) (hpos : 0 < units) (hfits : Fits units) {n : Nat}
    (hpoint : d.point = d.digits.length + n) (hrest : Stops rest) :
    scanNumber negative (d.digits ++ zeros n ++ '.' :: (zeros 1 ++ rest)) = .ok (.real (.finite negative units hfits), rest) := by
  have hreads := h.readsBack
  have hne := h.ne_nil hpos hfits.1
  have hdigits : ∀ c ∈ d.digits ++ zeros n, c.isDigit := fun c hc =>
    (List.mem_append.1 hc).elim (h.digits c) (isDigit_of_mem_zeros c)
  have hlead : (d.digits ++ zeros n).head? = some '0' → (d.digits ++ zeros n).length = 1 := fun h0 => by
    rw [List.head?_append, Option.or_of_isSome (List.isSome_head?.2 hne)] at h0
    exact absurd h0 h.head
  have hvalue : digitsValue (d.digits ++ zeros n ++ zeros 1) = digitsValue d.digits * tenPow (n + 1) := by
    rw [digitsValue_append_zeros, digitsValue_append_zeros, Nat.mul_assoc, ← tenPow_add]
  have hplaces : -((zeros 1).length : Int) + ((n + 1 : Nat) : Int) = d.point - d.digits.length := by
    rw [zeros, List.length_replicate]
    omega
  refine scanNumber_pointed negative _ (zeros 1) hpos hfits hdigits (List.append_ne_nil_of_left_ne_nil hne _) hlead
    isDigit_of_mem_zeros (List.cons_ne_nil _ _) ?_ hrest
  rw [hvalue, readsBack_shift, hplaces]
  exact hreads

/-- Digits with a point read back. -/
theorem scanNumber_positional (h : d.Writes units) (hpos : 0 < units) (hfits : Fits units) (hrest : Stops rest) :
    scanNumber negative (d.positional true ++ rest) = .ok (.real (.finite negative units hfits), rest) := by
  unfold Digits.positional
  simp only []
  split_ifs with hzero hamong
  · simpa [zeros] using scanNumber_behind h hpos hfits hzero hrest
  · simpa using scanNumber_among h hpos hfits (by omega) hamong hrest
  · have hpoint : d.point = d.digits.length + ((d.point - d.digits.length).toNat : Int) := by omega
    simpa [zeros] using scanNumber_before h hpos hfits hpoint hrest

/-- Digits with an exponent read back. -/
theorem scanNumber_scientific (h : d.Writes units) (hpos : 0 < units) (hfits : Fits units) (hrest : Stops rest) :
    scanNumber negative (d.scientific true ++ rest) = .ok (.real (.finite negative units hfits), rest) := by
  have hreads := h.readsBack
  have hhead := h.head
  have hdigits := h.digits
  have hne := h.ne_nil hpos hfits.1
  have hexponent := scanExponent_int (d.point - 1) hrest.digit
  unfold Digits.scientific
  generalize d.digits = ds at *
  obtain ⟨first, others, rfl⟩ := List.exists_cons_of_ne_nil hne
  have hdecimal : ∀ fraction : Option (List Char), fraction.getD [] = others →
      numberOf negative [first] fraction (some (d.point - 1)) = .ok (.real (.finite negative units hfits)) := by
    intro fraction hfraction
    refine numberOf_decimal (.inr nofun) rfl (Binary64.ofDecimal_of_readsBack negative hpos hfits ?_)
    rw [hfraction, Option.getD_some, List.singleton_append]
    rw [List.length_cons] at hreads
    rwa [show d.point - 1 - (others.length : Int) = d.point - ((others.length + 1 : Nat) : Int) by omega]
  have hwhole : ∀ c ∈ [first], c.isDigit := fun c hc => hdigits c (List.mem_cons.2 (.inl (List.mem_singleton.1 hc)))
  have hfirst : ∀ mid behind fraction, (∀ c, mid.head? = some c → c.isDigit = false) → scanFraction mid = .ok (fraction, behind) →
      scanExponent behind = .ok (some (d.point - 1), rest) → fraction.getD [] = others →
      scanNumber negative ([first] ++ mid) = .ok (.real (.finite negative units hfits), rest) := by
    intro mid behind fraction hmid hfraction hexponent hothers
    rw [scanNumber_parts (List.cons_ne_nil first []) hwhole (fun _ => rfl) hmid hfraction hexponent, hdecimal fraction hothers]
    rfl
  cases others with
  | nil =>
    have hscan := hfirst _ _ none (fun c hc => by cases hc; rfl) (scanFraction_none fun h0 => by cases h0) hexponent rfl
    simpa using hscan
  | cons second others =>
    have hbehind : ∀ c ∈ second :: others, c.isDigit := fun c hc => hdigits c (List.mem_cons_of_mem _ hc)
    have hscan := hfirst _ _ _ (fun c hc => by cases hc; rfl)
      (scanFraction_point (List.cons_ne_nil second others) hbehind fun c hc => by cases hc; rfl) hexponent rfl
    simpa using hscan

end Layouts

/-- The text of a magnitude reads back, with the sign that stood before it. -/
theorem scanNumber_magnitude (negative : Bool) {units : Nat} (hfits : Fits units) {rest : List Char} (hrest : Stops rest) :
    scanNumber negative (magnitudeText .config units ++ rest) = .ok (.real (.finite negative units hfits), rest) := by
  rcases Nat.eq_zero_or_pos units with rfl | hpos
  · have hzero : Binary64.ofDecimal negative 0 (-1) = .finite negative 0 hfits := by
      have hnearest : nearestFit 0 1 = 0 := rfl
      unfold Binary64.ofDecimal Binary64.ofRatio
      simp only []
      rw [if_pos (.inl trivial), Nat.zero_mul]
      simp only [Binary64.round, hnearest, hfits.2, dite_true]
    have hnumber : numberOf negative (zeros 1) (some (zeros 1)) none = .ok (.real (.finite negative 0 hfits)) :=
      numberOf_decimal (.inl (Option.some_ne_none _)) rfl hzero
    show scanNumber negative (zeros 1 ++ '.' :: (zeros 1 ++ rest)) = _
    have hne : zeros 1 ≠ [] := List.cons_ne_nil _ _
    rw [scanNumber_parts hne isDigit_of_mem_zeros (fun _ => rfl) (fun c hc => by cases hc; rfl)
      (scanFraction_point hne isDigit_of_mem_zeros hrest.digit) hrest.exponent, hnumber]
    rfl
  · have hwrites := shortestDigits_writes Layout.config.tie hpos hfits
    rw [magnitudeText, if_neg (Nat.ne_of_gt hpos)]
    simp only []
    split
    · exact scanNumber_scientific hwrites hpos hfits hrest
    · exact scanNumber_positional hwrites hpos hfits hrest

/-- A number begins with a digit. -/
theorem exists_digit {negative : Bool} {cs rest : List Char} {n : JsonNumber}
    (h : scanNumber negative cs = .ok (n, rest)) : ∃ c cs', cs = c :: cs' ∧ c.isDigit = true := by
  cases cs with
  | nil => cases h
  | cons c cs =>
    refine ⟨c, cs, rfl, ?_⟩
    by_contra hc
    have hnone : someDigits (c :: cs) = .error .wrong := by
      unfold someDigits digitsOf
      simp [hc]
    unfold scanNumber at h
    rw [hnone] at h
    cases h

end CallGuard

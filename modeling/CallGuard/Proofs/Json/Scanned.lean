/-
Text reads back as the tokens that it writes (`scan_renderTokens`), if numbers are finite and none runs into what stands
behind it (`Apart`). The tokens of a JSON value are apart, since commas, colons and brackets stand between them
(`Json.apart_tokens`), so the text of a value is read as its tokens (`Json.scan_text`).
-/
import CallGuard.Json.Value
import CallGuard.Proofs.Json.Numbers

namespace CallGuard

/-! ## Strings -/

theorem hexValue_digitChar : ∀ d < 16, hexValue? (Nat.digitChar d) = some d := by decide

/-- A control character is written by two digits behind two zeros. -/
theorem unicode_digits : ∀ n < 32,
    List.replicate (2 - (Nat.toDigits 16 n).length) '0' ++ Nat.toDigits 16 n =
      [Nat.digitChar (n / 16), Nat.digitChar (n % 16)] := by
  decide

theorem unicodeEscape_control {c : Char} (hc : c.toNat < 32) (rest : List Char) :
    unicodeEscape ('0' :: '0' :: Nat.digitChar (c.toNat / 16) :: Nat.digitChar (c.toNat % 16) :: rest) = .ok (c, rest) := by
  have hzero : hexValue? '0' = some 0 := rfl
  have hunit : hexUnit ('0' :: '0' :: Nat.digitChar (c.toNat / 16) :: Nat.digitChar (c.toNat % 16) :: rest) =
      .ok (c.toNat, rest) := by
    simp only [hexUnit, hzero, hexValue_digitChar (c.toNat / 16) (by omega), hexValue_digitChar (c.toNat % 16) (by omega)]
    rw [show ((0 * 16 + 0) * 16 + c.toNat / 16) * 16 + c.toNat % 16 = c.toNat by omega]
  unfold unicodeEscape
  rw [hunit]
  simp only [bind, Except.bind, pure, Except.pure, throw, throwThe, MonadExceptOf.throw]
  rw [if_neg (by omega), if_pos (by omega), Char.ofNat_toNat]

theorem scanString_control {c : Char} (hc : c.toNat < 32) (rest : List Char) :
    scanString ('\\' :: 'u' :: '0' :: '0' :: Nat.digitChar (c.toNat / 16) :: Nat.digitChar (c.toNat % 16) :: rest) =
      (scanString rest).map fun p => (c :: p.1, p.2) := by
  rw [scanString]
  split
  · rename_i e h
    rw [unicodeEscape_control hc] at h
    cases h
  · rename_i c' behind h
    rw [unicodeEscape_control hc] at h
    cases h
    rfl

theorem scanString_letter {letter c : Char} (h : letterEscape? letter = some c) (rest : List Char) :
    scanString ('\\' :: letter :: rest) = (scanString rest).map fun p => (c :: p.1, p.2) := by
  have hu : letter ≠ 'u' := fun heq => by
    rw [heq] at h
    cases h
  rw [scanString]
  · rw [h]
  · exact hu

theorem scanString_plain {c : Char} (hquote : c ≠ '"') (hslash : c ≠ '\\') (hc : ¬ c.toNat < 32) (rest : List Char) :
    scanString (c :: rest) = (scanString rest).map fun p => (c :: p.1, p.2) := by
  rw [scanString]
  · rw [if_neg hc]
  all_goals simp_all

/-- A character reads back from its escape. -/
theorem scanString_escapeChar (c : Char) (rest : List Char) :
    scanString (escapeChar c ++ rest) = (scanString rest).map fun p => (c :: p.1, p.2) := by
  unfold escapeChar
  split_ifs with hquote hslash hback hfeed hline hreturn htab hcontrol
  · subst hquote
    exact scanString_letter rfl rest
  · subst hslash
    exact scanString_letter rfl rest
  · subst hback
    exact scanString_letter rfl rest
  · subst hfeed
    exact scanString_letter rfl rest
  · subst hline
    exact scanString_letter rfl rest
  · subst hreturn
    exact scanString_letter rfl rest
  · subst htab
    exact scanString_letter rfl rest
  · rw [List.append_assoc (['\\', 'u', '0', '0'] : List Char), unicode_digits c.toNat hcontrol]
    exact scanString_control hcontrol rest
  · exact scanString_plain hquote hslash hcontrol rest

/-- A string reads back from its characters and the quote behind them. -/
theorem scanString_escaped (cs rest : List Char) : scanString (cs.flatMap escapeChar ++ '"' :: rest) = .ok (cs, rest) := by
  induction cs with
  | nil =>
    rw [List.flatMap_nil, List.nil_append, scanString]
  | cons c cs ih =>
    rw [List.flatMap_cons, List.append_assoc, scanString_escapeChar, ih]
    rfl

/-! ## Tokens -/

/-- Numbers that have a text of their own. -/
def JsonNumber.Plain : JsonNumber → Prop
  | whole _ => True
  | negative n => 0 < n.toNat ∧ n.toNat ≤ 9223372036854775808
  | real x => x.isFinite = true

/-- Tokens that have a text of their own. -/
def Token.Plain : Token → Prop
  | number n => n.Plain
  | broken .. => False
  | _ => True

def Token.isNumber : Token → Bool
  | number _ => true
  | _ => false

/-- Text from which a token is read first, up to what stands behind it. -/
def Scans (t : Token) (cs rest : List Char) : Prop :=
  ∃ c cs', cs = c :: cs' ∧ isBlank c = false ∧ scanToken c (cs' ++ rest) = (t, rest)

theorem isBlank_of_isDigit {c : Char} (hc : c.isDigit = true) : isBlank c = false := by
  have hne : ∀ d : Char, d.isDigit = false → c ≠ d := fun d hd heq => by
    rw [heq, hd] at hc
    cases hc
  simp [isBlank, hne]

theorem scanToken_digit {c : Char} {rest behind : List Char} {n : JsonNumber} (hc : c.isDigit = true)
    (h : scanNumber false (c :: rest) = .ok (n, behind)) : scanToken c rest = (.number n, behind) := by
  unfold scanToken
  simp only []
  split
  case h_12 =>
    rw [if_pos hc, h]
  all_goals exact absurd hc (by decide)

theorem stops_nil : Stops [] := nofun

/-- A number without a sign begins with a digit, so it is read as one. -/
theorem scans_unsigned {cs : List Char} {n : JsonNumber} (h : ∀ rest, Stops rest → scanNumber false (cs ++ rest) = .ok (n, rest))
    {rest : List Char} (hrest : Stops rest) : Scans (.number n) cs rest := by
  obtain ⟨c, cs', hcs, hc⟩ := exists_digit (h [] stops_nil)
  rw [List.append_nil] at hcs
  subst hcs
  exact ⟨c, cs', rfl, isBlank_of_isDigit hc, scanToken_digit hc (h rest hrest)⟩

theorem scans_signed {cs rest : List Char} {n : JsonNumber} (h : scanNumber true (cs ++ rest) = .ok (n, rest)) :
    Scans (.number n) ('-' :: cs) rest := by
  refine ⟨'-', cs, rfl, rfl, ?_⟩
  simp only [scanToken, h]

theorem scans_number {n : JsonNumber} (hn : n.Plain) {rest : List Char} (hrest : Stops rest) :
    Scans (.number n) n.text.toList rest := by
  match n, hn with
  | .whole n, _ =>
    rw [JsonNumber.text, Nat.toString_eq_ofList_toDigits, String.toList_ofList]
    exact scans_unsigned (fun rest => scanNumber_whole n) hrest
  | .negative n, hn =>
    have htext : (JsonNumber.negative n).text.toList = '-' :: Nat.toDigits 10 n.toNat := by
      rw [JsonNumber.text, Nat.toString_eq_ofList_toDigits, String.toList_append, String.toList_ofList, String.toList_ofList]
      rfl
    rw [htext]
    exact scans_signed (scanNumber_negative hn.1 hn.2 hrest)
  | .real (.finite s units hfits), _ =>
    have htext : (JsonNumber.real (.finite s units hfits)).text.toList = (if s then ['-'] else []) ++ magnitudeText .config units :=
      String.toList_ofList
    rw [htext]
    cases s with
    | false => exact scans_unsigned (fun rest => scanNumber_magnitude false hfits) hrest
    | true => exact scans_signed (scanNumber_magnitude true hfits hrest)

theorem scans_string (s : String) (rest : List Char) : Scans (.string s) (Token.string s).text.toList rest := by
  have htext : (Token.string s).text.toList = '"' :: (s.toList.flatMap escapeChar ++ ['"']) := String.toList_ofList
  refine ⟨'"', _, htext, rfl, ?_⟩
  rw [List.append_assoc, List.singleton_append]
  simp only [scanToken, scanString_escaped, String.ofList_toList]

/-- A token is read from its text. Only behind a number must nothing stand that would belong to it. -/
theorem scans_text {t : Token} (ht : t.Plain) {rest : List Char} (hrest : t.isNumber = true → Stops rest) :
    Scans t t.text.toList rest := by
  match t, ht with
  | .openBrace, _ | .closeBrace, _ | .openBracket, _ | .closeBracket, _ | .colon, _ | .comma, _ => exact ⟨_, [], rfl, rfl, rfl⟩
  | .null, _ => exact ⟨'n', ['u', 'l', 'l'], rfl, rfl, rfl⟩
  | .bool true, _ => exact ⟨'t', ['r', 'u', 'e'], rfl, rfl, rfl⟩
  | .bool false, _ => exact ⟨'f', ['a', 'l', 's', 'e'], rfl, rfl, rfl⟩
  | .number n, hn => exact scans_number hn (hrest rfl)
  | .string s, _ => exact scans_string s rest

/-! ## Texts -/

/-- Tokens that end whatever stands before them. -/
def Token.isPunctuation : Token → Bool
  | openBrace | closeBrace | openBracket | closeBracket | colon | comma => true
  | _ => false

/-- Tokens with nothing in front that would run into what stands before them. -/
def Delimits (ts : List Token) : Prop := ∀ t ∈ ts.head?, t.isPunctuation = true

/-- Tokens that have a text, and no number of which runs into the next one. -/
inductive Apart : List Token → Prop where
  | nil : Apart []
  | cons {t : Token} {ts : List Token} (plain : t.Plain) (next : t.isNumber = true → Delimits ts) (h : Apart ts) : Apart (t :: ts)

/-- The characters of tokens. -/
def charsOf (ts : List Token) : List Char := ts.flatMap fun t => t.text.toList

theorem toList_renderTokens (ts : List Token) : (renderTokens ts).toList = charsOf ts := by
  unfold renderTokens charsOf
  rw [String.toList_join, List.flatMap_map]

theorem delimits_nil : Delimits [] := fun t ht => by cases ht

theorem Delimits.stops {ts : List Token} (h : Delimits ts) : Stops (charsOf ts) := by
  cases ts with
  | nil => exact stops_nil
  | cons t ts =>
    have ht := h t rfl
    cases t <;> cases ht <;> exact fun c hc => by cases hc; decide

theorem scans_front {t : Token} {ts : List Token} (plain : t.Plain) (next : t.isNumber = true → Delimits ts) :
    Scans t t.text.toList (charsOf ts) :=
  scans_text plain fun hnumber => (next hnumber).stops

theorem scanFuel_charsOf {ts : List Token} (h : Apart ts) {fuel : Nat} (hfuel : ts.length ≤ fuel) :
    scanFuel fuel (charsOf ts) = ts := by
  induction h generalizing fuel with
  | nil => cases fuel <;> rfl
  | @cons t ts plain next _ ih =>
    obtain ⟨c, cs, htext, hblank, hscan⟩ := scans_front plain next
    rw [List.length_cons] at hfuel
    obtain ⟨fuel, rfl⟩ : ∃ n, fuel = n + 1 := ⟨fuel - 1, by omega⟩
    have hchars : charsOf (t :: ts) = c :: (cs ++ charsOf ts) := by
      rw [charsOf, List.flatMap_cons, htext]
      rfl
    rw [hchars, scanFuel, if_neg (by rw [hblank]; decide)]
    simp only [hscan]
    rw [ih (by omega)]

/-- Every token has a character. -/
theorem length_le_charsOf {ts : List Token} (h : Apart ts) : ts.length ≤ (charsOf ts).length := by
  induction h with
  | nil => exact Nat.zero_le _
  | cons plain next _ ih =>
    obtain ⟨c, cs, htext, -⟩ := scans_front plain next
    rw [charsOf] at ih ⊢
    rw [List.flatMap_cons, htext, List.length_append, List.length_cons, List.length_cons]
    omega

/-- Text reads back as the tokens that it writes. -/
theorem scan_renderTokens {ts : List Token} (h : Apart ts) : scan (renderTokens ts) = ts := by
  rw [scan, toList_renderTokens, ← String.length_toList, toList_renderTokens]
  exact scanFuel_charsOf h (length_le_charsOf h)

/-! ## Values -/

/-- Tokens that stay apart in front of others that end what stands before them. -/
def Joins (part : List Token) : Prop := ∀ ts : List Token, Apart ts → Delimits ts → Apart (part ++ ts)

theorem joins_single {t : Token} (plain : t.Plain) : Joins [t] :=
  fun _ h hdelimits => .cons plain (fun _ => hdelimits) h

theorem joins_nil : Joins [] := fun _ h _ => h

theorem Joins.cons {t : Token} {part : List Token} (h : Joins part) (plain : t.Plain) (hnumber : t.isNumber = false) :
    Joins (t :: part) := fun ts hapart hdelimits =>
  .cons plain (fun hn => by rw [hnumber] at hn; cases hn) (h ts hapart hdelimits)

/-- What stands before punctuation stays apart from it. -/
theorem Joins.append {part : List Token} {t : Token} {more : List Token} (h : Joins part) (hmore : Joins (t :: more))
    (ht : t.isPunctuation = true) : Joins (part ++ t :: more) := fun ts hapart hdelimits => by
  rw [List.append_assoc]
  exact h _ (hmore ts hapart hdelimits) fun t' ht' => by cases ht'; exact ht

theorem joins_separated {parts : List (List Token)} (h : ∀ part ∈ parts, Joins part) : Joins (Json.separated parts) := by
  induction parts with
  | nil => exact joins_nil
  | cons part parts ih =>
    have hpart := h part List.mem_cons_self
    have hparts := ih fun p hp => h p (List.mem_cons_of_mem _ hp)
    cases parts with
    | nil => exact hpart
    | cons next parts => exact hpart.append (hparts.cons trivial rfl) rfl

theorem mem_separated {parts : List (List Token)} {part : List Token} (hpart : part ∈ parts) {t : Token} (ht : t ∈ part) :
    t ∈ Json.separated parts := by
  induction parts with
  | nil => cases hpart
  | cons first parts ih =>
    cases parts with
    | nil =>
      obtain rfl := List.mem_singleton.1 hpart
      exact ht
    | cons next parts =>
      show t ∈ first ++ Token.comma :: Json.separated (next :: parts)
      rcases List.mem_cons.1 hpart with rfl | hpart
      · exact List.mem_append_left _ ht
      · exact List.mem_append_right _ (List.mem_cons_of_mem _ (ih hpart))

theorem of_mem_separated {parts : List (List Token)} {t : Token} (ht : t ∈ Json.separated parts) :
    t = .comma ∨ ∃ part ∈ parts, t ∈ part := by
  induction parts with
  | nil => cases ht
  | cons first parts ih =>
    cases parts with
    | nil => exact .inr ⟨first, List.mem_singleton.2 rfl, ht⟩
    | cons next parts =>
      rcases List.mem_append.1 (show t ∈ first ++ Token.comma :: Json.separated (next :: parts) from ht) with ht | ht
      · exact .inr ⟨first, List.mem_cons_self, ht⟩
      · rcases List.mem_cons.1 ht with rfl | ht
        · exact .inl rfl
        · exact (ih ht).imp_right fun ⟨part, hpart, h⟩ => ⟨part, List.mem_cons_of_mem _ hpart, h⟩

namespace Json

mutual

theorem joins_tokens : ∀ v : Json, (∀ t ∈ v.tokens, t.Plain) → Joins v.tokens
  | .null, _ => by rw [tokens]; exact joins_single trivial
  | .bool _, _ => by rw [tokens]; exact joins_single trivial
  | .number n, h => by
    rw [tokens] at h ⊢
    exact joins_single (h _ List.mem_cons_self)
  | .string _, _ => by rw [tokens]; exact joins_single trivial
  | .array items, h => by
    rw [tokens] at h ⊢
    have hitems := joins_items items fun part hpart t ht => h t (by simp [mem_separated hpart ht])
    have hopen : Joins (.openBracket :: separated (tokensOfItems items)) := (joins_separated hitems).cons trivial rfl
    have hclose : Joins [Token.closeBracket] := joins_single trivial
    exact hopen.append hclose rfl
  | .object members, h => by
    rw [tokens] at h ⊢
    have hmembers := joins_members members fun part hpart t ht => h t (by simp [mem_separated hpart ht])
    have hopen : Joins (.openBrace :: separated (tokensOfMembers members)) := (joins_separated hmembers).cons trivial rfl
    have hclose : Joins [Token.closeBrace] := joins_single trivial
    exact hopen.append hclose rfl

theorem joins_items : ∀ items : List Json, (∀ part ∈ tokensOfItems items, ∀ t ∈ part, t.Plain) →
    ∀ part ∈ tokensOfItems items, Joins part
  | [], _ => by rw [tokensOfItems]; exact nofun
  | v :: rest, h => by
    rw [tokensOfItems] at h ⊢
    intro part hpart
    rcases List.mem_cons.1 hpart with rfl | hpart
    · exact joins_tokens v (h _ List.mem_cons_self)
    · exact joins_items rest (fun p hp => h p (List.mem_cons_of_mem _ hp)) part hpart

theorem joins_members : ∀ members : List (String × Json), (∀ part ∈ tokensOfMembers members, ∀ t ∈ part, t.Plain) →
    ∀ part ∈ tokensOfMembers members, Joins part
  | [], _ => by rw [tokensOfMembers]; exact nofun
  | (k, v) :: rest, h => by
    rw [tokensOfMembers] at h ⊢
    intro part hpart
    rcases List.mem_cons.1 hpart with rfl | hpart
    · have hv := joins_tokens v fun t ht => h _ List.mem_cons_self t (by simp [ht])
      have hcolon : Joins (.colon :: v.tokens) := hv.cons trivial rfl
      exact hcolon.cons trivial rfl
    · exact joins_members rest (fun p hp => h p (List.mem_cons_of_mem _ hp)) part hpart

end

/-- A value whose numbers have a text of their own. -/
def Plain (v : Json) : Prop := ∀ t ∈ v.tokens, t.Plain

theorem tokensOfMembers_eq (members : List (String × Json)) :
    tokensOfMembers members = members.map fun m => .string m.1 :: .colon :: m.2.tokens := by
  induction members with
  | nil => rw [tokensOfMembers, List.map_nil]
  | cons m members ih => rw [tokensOfMembers, List.map_cons, ih]

theorem plain_string (s : String) : (string s).Plain := by
  intro t ht
  rw [tokens] at ht
  cases List.mem_singleton.1 ht
  trivial

theorem plain_number {n : JsonNumber} (h : n.Plain) : (number n).Plain := by
  intro t ht
  rw [tokens] at ht
  cases List.mem_singleton.1 ht
  exact h

theorem plain_object {members : List (String × Json)} (h : ∀ m ∈ members, m.2.Plain) : (object members).Plain := by
  intro t ht
  rw [tokens, tokensOfMembers_eq] at ht
  simp only [List.cons_append, List.mem_cons, List.mem_append, List.not_mem_nil, or_false] at ht
  rcases ht with rfl | ht | rfl
  · trivial
  · rcases of_mem_separated ht with rfl | ⟨part, hpart, ht⟩
    · trivial
    · obtain ⟨m, hm, rfl⟩ := List.mem_map.1 hpart
      simp only [List.mem_cons] at ht
      rcases ht with rfl | rfl | ht
      · trivial
      · trivial
      · exact h m hm t ht
  · trivial

/-- The text of a value is read as its tokens. -/
theorem scan_text {v : Json} (h : v.Plain) : scan v.text = v.tokens := by
  have hapart : Apart (v.tokens ++ []) := joins_tokens v h [] .nil delimits_nil
  rw [List.append_nil] at hapart
  exact scan_renderTokens hapart

end Json

end CallGuard

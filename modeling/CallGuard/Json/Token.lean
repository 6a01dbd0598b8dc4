/-
The tokens of JSON text. Text that is no token is a token of its own, `broken`, behind which nothing is
read, so a reader meets the first fault in reading order and not before. Numbers are 64-bit whole
numbers where they are written as such, and binary64 otherwise.
-/
import CallGuard.Number.Shortest

namespace CallGuard

/-! ## Tokens -/

/-- Why text is not JSON: it ends too early, or it is wrong where it stands. -/
inductive TextFault where
  | early
  | wrong
deriving DecidableEq

/-- A number as it is written. -/
inductive JsonNumber where
  | whole (n : UInt64)
  /-- A whole number below zero, by its magnitude. -/
  | negative (n : UInt64)
  | real (x : Binary64)
deriving DecidableEq

inductive Token where
  | openBrace
  | closeBrace
  | openBracket
  | closeBracket
  | colon
  | comma
  | null
  | bool (b : Bool)
  | number (n : JsonNumber)
  | string (s : String)
  /-- No token; a broken string is one that begins with its quote. -/
  | broken (isString : Bool) (fault : TextFault)
deriving DecidableEq

/-! ## Strings -/

def hexValue? (c : Char) : Option Nat :=
  if '0' ≤ c ∧ c ≤ '9' then some (c.toNat - '0'.toNat)
  else if 'a' ≤ c ∧ c ≤ 'f' then some (c.toNat - 'a'.toNat + 10)
  else if 'A' ≤ c ∧ c ≤ 'F' then some (c.toNat - 'A'.toNat + 10)
  else none

/-- The value of the next four bytes as hexadecimal digits, and what comes behind them. -/
def hexUnit (cs : List Char) : Except TextFault (Nat × List Char) :=
  match cs with
  | a :: b :: c :: d :: rest =>
    match hexValue? a, hexValue? b, hexValue? c, hexValue? d with
    | some a, some b, some c, some d => .ok (((a * 16 + b) * 16 + c) * 16 + d, rest)
    | _, _, _, _ => .error .wrong
  | few => if few.foldl (fun n c => n + c.utf8Size) 0 < 4 then .error .early else .error .wrong

/-- The character that an escape of code units stands for: one unit, or a pair of surrogates. -/
def unicodeEscape (cs : List Char) : Except TextFault (Char × List Char) := do
  let (high, rest) ← hexUnit cs
  if 0xDC00 ≤ high ∧ high ≤ 0xDFFF then throw .wrong
  if high < 0xD800 ∨ 0xDBFF < high then return (Char.ofNat high, rest)
  match rest with
  | [] => throw .early
  | '\\' :: [] => throw .early
  | '\\' :: 'u' :: rest => do
    let (low, rest) ← hexUnit rest
    if low < 0xDC00 ∨ 0xDFFF < low then throw .wrong
    return (Char.ofNat (0x10000 + (high - 0xD800) * 0x400 + (low - 0xDC00)), rest)
  | _ => throw .wrong

/-- The character that an escape of one letter stands for. -/
def letterEscape? : Char → Option Char
  | '"' => some '"'
  | '\\' => some '\\'
  | '/' => some '/'
  | 'b' => some '\x08'
  | 'f' => some '\x0c'
  | 'n' => some '\n'
  | 'r' => some '\r'
  | 't' => some '\t'
  | _ => none

theorem length_of_hexUnit {cs rest : List Char} {n : Nat} (h : hexUnit cs = .ok (n, rest)) :
    rest.length < cs.length := by
  unfold hexUnit at h
  split at h
  · split at h
    · cases h; simp; omega
    · cases h
  · split at h <;> cases h

theorem length_of_unicodeEscape {cs rest : List Char} {c : Char}
    (h : unicodeEscape cs = .ok (c, rest)) : rest.length < cs.length := by
  unfold unicodeEscape at h
  cases h₁ : hexUnit cs with
  | error e => simp [h₁, bind, Except.bind] at h
  | ok p =>
    obtain ⟨high, r⟩ := p
    have l₁ := length_of_hexUnit h₁
    simp only [h₁, bind, Except.bind, throw, throwThe, MonadExceptOf.throw, pure, Except.pure] at h
    split at h
    · cases h
    · split at h
      · simp only [Except.ok.injEq, Prod.mk.injEq] at h
        exact h.2 ▸ l₁
      · split at h
        · cases h
        · cases h
        · rename_i tail
          cases h₂ : hexUnit tail with
          | error e => simp [h₂] at h
          | ok q =>
            obtain ⟨low, r'⟩ := q
            have l₂ := length_of_hexUnit h₂
            simp only [h₂] at h
            split at h
            · cases h
            · simp only [Except.ok.injEq, Prod.mk.injEq] at h
              simp only [List.length_cons] at l₁
              exact h.2 ▸ by omega
        · cases h

/-- The rest of a string behind its quote: its characters, and what comes behind the closing quote. -/
def scanString (cs : List Char) : Except TextFault (List Char × List Char) :=
  match cs with
  | [] => .error .early
  | '"' :: rest => .ok ([], rest)
  | '\\' :: [] => .error .early
  | '\\' :: 'u' :: rest =>
    match _h : unicodeEscape rest with
    | .error e => .error e
    | .ok (c, behind) => (scanString behind).map fun p => (c :: p.1, p.2)
  | '\\' :: c :: rest =>
    match letterEscape? c with
    | none => .error .wrong
    | some d => (scanString rest).map fun p => (d :: p.1, p.2)
  | c :: rest => if c.toNat < 32 then .error .wrong else (scanString rest).map fun p => (c :: p.1, p.2)
termination_by cs.length
decreasing_by
  · have := length_of_unicodeEscape _h
    simp only [List.length_cons]; omega
  · simp only [List.length_cons]; omega
  · simp only [List.length_cons]; omega

/-! ## Numbers -/

/-- Leading digits and what comes behind them. -/
def digitsOf (cs : List Char) : List Char × List Char :=
  (cs.takeWhile Char.isDigit, cs.dropWhile Char.isDigit)

/-- The number that digits write. -/
def digitsValue (ds : List Char) : Nat := ds.foldl (fun n d => n * 10 + (d.toNat - '0'.toNat)) 0

/-- At least one digit must come. -/
def someDigits (cs : List Char) : Except TextFault (List Char × List Char) :=
  match digitsOf cs with
  | ([], []) => .error .early
  | ([], _) => .error .wrong
  | found => .ok found

/-- An exponent, if there is one. -/
def scanExponent (cs : List Char) : Except TextFault (Option Int × List Char) :=
  let signed := fun (sign : Int) (cs : List Char) =>
    (someDigits cs).map fun p => (some (sign * digitsValue p.1), p.2)
  match cs with
  | 'e' :: '+' :: rest | 'E' :: '+' :: rest => signed 1 rest
  | 'e' :: '-' :: rest | 'E' :: '-' :: rest => signed (-1) rest
  | 'e' :: rest | 'E' :: rest => signed 1 rest
  | _ => .ok (none, cs)

/-- The digits behind a point, if there is one. -/
def scanFraction (cs : List Char) : Except TextFault (Option (List Char) × List Char) :=
  match cs with
  | '.' :: rest => (someDigits rest).map fun p => (some p.1, p.2)
  | _ => .ok (none, cs)

/-- The number of its parts. A whole number that 64 bits do not hold is a binary64 number, and so is a
negative zero; one out of the range of binary64 is wrong. -/
def numberOf (negative : Bool) (whole : List Char) (fraction : Option (List Char))
    (exponent : Option Int) : Except TextFault JsonNumber :=
  let n := digitsValue whole
  if fraction = none ∧ exponent = none ∧ !negative ∧ n < wordValues then .ok (.whole (.ofNat n))
  else if fraction = none ∧ exponent = none ∧ negative ∧ 0 < n ∧ n ≤ 9223372036854775808 then
    .ok (.negative (.ofNat n))
  else
    let behind := fraction.getD []
    let x := Binary64.ofDecimal negative (digitsValue (whole ++ behind))
      (exponent.getD 0 - (behind.length : Int))
    if x.isFinite then .ok (.real x) else .error .wrong

/-- A number without its sign, and what comes behind it. -/
def scanNumber (negative : Bool) (cs : List Char) : Except TextFault (JsonNumber × List Char) := do
  let (whole, rest) ← someDigits cs
  if whole.head? = some '0' ∧ whole.length ≠ 1 then throw .wrong
  let (fraction, rest) ← scanFraction rest
  let (exponent, rest) ← scanExponent rest
  let n ← numberOf negative whole fraction exponent
  return (n, rest)

/-! ## Scanning -/

/-- The letters of a word must come. -/
def scanWord : List Char → List Char → Except TextFault (List Char)
  | [], rest => .ok rest
  | _ :: _, [] => .error .early
  | c :: word, d :: rest => if c = d then scanWord word rest else .error .wrong

def isBlank (c : Char) : Bool := c = ' ' || c = '\n' || c = '\t' || c = '\r'

/-- One token from a character that is no blank on, and what comes behind it; nothing comes behind a
broken one. -/
def scanToken (c : Char) (rest : List Char) : Token × List Char :=
  let check := fun {α : Type} (r : Except TextFault (α × List Char)) (f : α → Token) =>
    match r with
    | .ok (a, rest) => (f a, rest)
    | .error e => (.broken (c = '"') e, [])
  let word := fun (w : String) (t : Token) =>
    check ((scanWord w.toList rest).map fun r => ((), r)) fun _ => t
  match c with
  | '\x7b' => (.openBrace, rest)
  | '\x7d' => (.closeBrace, rest)
  | '[' => (.openBracket, rest)
  | ']' => (.closeBracket, rest)
  | ':' => (.colon, rest)
  | ',' => (.comma, rest)
  | 'n' => word "ull" .null
  | 't' => word "rue" (.bool true)
  | 'f' => word "alse" (.bool false)
  | '"' => check (scanString rest) fun s => .string (String.ofList s)
  | '-' => check (scanNumber true rest) .number
  | _ => if c.isDigit then check (scanNumber false (c :: rest)) .number else (.broken false .wrong, [])

/-- Tokens of text, as long as there are, in at most so many steps. -/
def scanFuel : Nat → List Char → List Token
  | 0, _ => []
  | _, [] => []
  | fuel + 1, c :: rest =>
    if isBlank c then scanFuel fuel rest
    else
      let (t, rest) := scanToken c rest
      t :: scanFuel fuel rest

/-- The tokens of a text. Every step takes a character, so a step per character is enough. -/
def scan (s : String) : List Token := scanFuel s.length s.toList

/-! ## Writing -/

/-- One character inside quotes. -/
def escapeChar (c : Char) : List Char :=
  if c = '"' then ['\\', '"']
  else if c = '\\' then ['\\', '\\']
  else if c = '\x08' then ['\\', 'b']
  else if c = '\x0c' then ['\\', 'f']
  else if c = '\n' then ['\\', 'n']
  else if c = '\r' then ['\\', 'r']
  else if c = '\t' then ['\\', 't']
  else if c.toNat < 32 then
    ['\\', 'u', '0', '0'] ++ List.replicate (2 - (Nat.toDigits 16 c.toNat).length) '0' ++
      Nat.toDigits 16 c.toNat
  else [c]

def JsonNumber.text : JsonNumber → String
  | whole n => toString n.toNat
  | negative n => "-" ++ toString n.toNat
  | real x => if x.isFinite then x.text .config else "null"

/-- The text of a token. -/
def Token.text : Token → String
  | openBrace => "\x7b"
  | closeBrace => "\x7d"
  | openBracket => "["
  | closeBracket => "]"
  | colon => ":"
  | comma => ","
  | null => "null"
  | bool b => if b then "true" else "false"
  | number n => n.text
  | string s => String.ofList ('"' :: s.toList.flatMap escapeChar ++ ['"'])
  | broken .. => ""

/-- Text without blanks. -/
def renderTokens (ts : List Token) : String := String.join (ts.map Token.text)

end CallGuard

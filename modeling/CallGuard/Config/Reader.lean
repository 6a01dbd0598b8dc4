/-
Reading configuration from JSON. Tokens are read in order and the first problem ends the reading, be it
text that is not JSON or data that is no configuration. Records are objects of their fields, or arrays
of them in order; fields with a default may be absent.
-/
import CallGuard.Config.Basic

namespace CallGuard

/-! ## Problems -/

/-- What was found where something else was expected. -/
inductive Found where
  | null
  | bool (b : Bool)
  | number (n : JsonNumber)
  | string (s : String)
  | sequence
  | map
deriving DecidableEq

def Found.text : Found → String
  | null => "null"
  | bool b => "boolean `" ++ (if b then "true" else "false") ++ "`"
  | number (.real x) => "floating point `" ++ x.text .config ++ "`"
  | number n => "integer `" ++ n.text ++ "`"
  | string s => "string " ++ quoted s
  | sequence => "sequence"
  | map => "map"

/-- Data that is no configuration. -/
inductive DataProblem where
  | wrongType (found : Found) (expected : String)
  | wrongValue (found : Found) (expected : String)
  | tooShort (length : Nat) (expected : String)
  | unknownField (name : String) (known : List String)
  | duplicateField (name : String)
  | missingField (name : String)
deriving DecidableEq

/-- Names to choose from. -/
def choiceText : List String → String
  | [] => "there are no fields"
  | [a] => "expected `" ++ a ++ "`"
  | [a, b] => "expected `" ++ a ++ "` or `" ++ b ++ "`"
  | names => "expected one of " ++ ", ".intercalate (names.map fun n => "`" ++ n ++ "`")

def DataProblem.message : DataProblem → String
  | wrongType found expected => "invalid type: " ++ found.text ++ ", expected " ++ expected
  | wrongValue found expected => "invalid value: " ++ found.text ++ ", expected " ++ expected
  | tooShort length expected => "invalid length " ++ toString length ++ ", expected " ++ expected
  | unknownField name known => "unknown field `" ++ name ++ "`, " ++ choiceText known
  | duplicateField name => "duplicate field `" ++ name ++ "`"
  | missingField name => "missing field `" ++ name ++ "`"

/-- Why a text is no configuration. -/
inductive ReadError where
  | text (fault : TextFault)
  | data (problem : DataProblem)
deriving DecidableEq

/-- Reads something from the front of the tokens. -/
abbrev Reader (α : Type) : Type := List Token → Except ReadError (α × List Token)

/-! ## Values -/

/-- The problem of a value that is none of the expected kind. -/
def unexpected (expected : String) : List Token → ReadError
  | [] => .text .early
  | .broken _ f :: _ => .text f
  | .null :: _ => .data (.wrongType .null expected)
  | .bool b :: _ => .data (.wrongType (.bool b) expected)
  | .number n :: _ => .data (.wrongType (.number n) expected)
  | .string s :: _ => .data (.wrongType (.string s) expected)
  | .openBracket :: _ => .data (.wrongType .sequence expected)
  | .openBrace :: _ => .data (.wrongType .map expected)
  | .closeBracket :: _ | .closeBrace :: _ | .colon :: _ | .comma :: _ => .text .wrong

def readUInt64 : Reader UInt64
  | .number (.whole n) :: rest => .ok (n, rest)
  | .number (.negative n) :: _ => .error (.data (.wrongValue (.number (.negative n)) "u64"))
  | ts => .error (unexpected "u64" ts)

def readUInt32 : Reader UInt32
  | .number (.whole n) :: rest =>
    if n.toNat < 4294967296 then .ok (n.toUInt32, rest)
    else .error (.data (.wrongValue (.number (.whole n)) "u32"))
  | .number (.negative n) :: _ => .error (.data (.wrongValue (.number (.negative n)) "u32"))
  | ts => .error (unexpected "u32" ts)

/-- Any number, as a binary64 one. -/
def readReal : Reader Binary64
  | .number (.whole n) :: rest => .ok (.ofNat n.toNat, rest)
  | .number (.negative n) :: rest => .ok ((Binary64.ofNat n.toNat).neg, rest)
  | .number (.real x) :: rest => .ok (x, rest)
  | ts => .error (unexpected "f64" ts)

def readString : Reader String
  | .string s :: rest => .ok (s, rest)
  | ts => .error (unexpected "a string" ts)

/-- A value, or null for its absence. -/
def readOption {α : Type} (read : Reader α) : Reader (Option α)
  | .null :: rest => .ok (none, rest)
  | ts => (read ts).map fun p => (some p.1, p.2)

/-! ## Arrays -/

/-- The next element of an array, if there is one. -/
def readElement {α : Type} (read : Reader α) (first : Bool) : Reader (Option α) := fun ts =>
  let present := fun ts => (read ts).map fun p => (some p.1, p.2)
  match ts, first with
  | [], _ => .error (.text .early)
  | .closeBracket :: _, _ => .ok (none, ts)
  | _, true => present ts
  | .comma :: [], false => .error (.text .early)
  | .comma :: .closeBracket :: _, false => .error (.text .wrong)
  | .comma :: rest, false => present rest
  | _, false => .error (.text .wrong)

/-- An element that must be there, at a position. -/
def readRequired {α : Type} (read : Reader α) (position : Nat) (expected : String) : Reader α :=
  fun ts =>
    match readElement read (position == 0) ts with
    | .error e => .error e
    | .ok (some a, rest) => .ok (a, rest)
    | .ok (none, _) => .error (.data (.tooShort position expected))

/-- An element that may be absent, at a position. -/
def readDefaulted {α : Type} (read : Reader α) (default : α) (position : Nat) : Reader α :=
  fun ts =>
  (readElement read (position == 0) ts).map fun p => (p.1.getD default, p.2)

/-- The end of an array all of whose elements were read. -/
def endArray : List Token → Except ReadError (List Token)
  | .closeBracket :: rest => .ok rest
  | [] => .error (.text .early)
  | _ => .error (.text .wrong)

/-! ## Objects -/

/-- The next name in an object, if there is one. -/
def readName (first : Bool) : Reader (Option String) := fun ts =>
  let name := fun (ts : List Token) =>
    match ts with
    | .string s :: rest => Except.ok (some s, rest)
    | .broken true f :: _ => .error (.text f)
    | [] => .error (.text .early)
    | _ => .error (.text .wrong)
  match ts, first with
  | [], _ => .error (.text .early)
  | .closeBrace :: _, _ => .ok (none, ts)
  | _, true => name ts
  | .comma :: rest, false => name rest
  | _, false => .error (.text .wrong)

def readColon : List Token → Except ReadError (List Token)
  | .colon :: rest => .ok rest
  | [] => .error (.text .early)
  | _ => .error (.text .wrong)

/-- The value behind a name. -/
def readMember {α : Type} (read : Reader α) : Reader α := fun ts => do
  read (← readColon ts)

/-- Reads the members of an object in at most so many steps: `member` takes a name and what stands
behind it. -/
def readMembers {s : Type} (member : s → String → Reader s) : Nat → Bool → s → Reader s
  | 0, _, _, _ => .error (.text .early)
  | fuel + 1, first, state, ts => do
    match ← readName first ts with
    | (none, rest) => .ok (state, rest.tail)
    | (some name, rest) => do
      let (state, rest) ← member state name rest
      readMembers member fuel false state rest

/-- Reads the members of an object. Every member takes a token. -/
def readObject {s : Type} (member : s → String → Reader s) (initial : s) : Reader s := fun ts =>
  readMembers member (ts.length + 1) true initial ts

/-- A record: an array of its fields, or an object of them. -/
def readRecord {α : Type} (expected : String) (fromArray fromObject : Reader α) : Reader α
  | .openBracket :: rest => do
    let (a, rest) ← fromArray rest
    return (a, ← endArray rest)
  | .openBrace :: rest => fromObject rest
  | ts => .error (unexpected expected ts)

/-- Entries by name; of two of one name the later one counts. -/
def readTable {α : Type} (read : Reader α) : Reader (NameTable α)
  | .openBrace :: rest =>
    readObject (fun t name rest => do
      let (a, rest) ← readMember read rest
      return (t.insert name a, rest)) .empty rest
  | ts => .error (unexpected "a map" ts)

/-- Reads a field that must not have come before. -/
def readField {α s : Type} (name : String) (before : Option α) (read : Reader α) (store : α → s) :
    Reader s := fun ts =>
  match before with
  | some _ => .error (.data (.duplicateField name))
  | none => (readMember read ts).map fun p => (store p.1, p.2)

/-- A field that must have come. -/
def requireField {α : Type} (name : String) : Option α → Except ReadError α
  | some a => .ok a
  | none => .error (.data (.missingField name))

/-! ## Records of a configuration -/

namespace TimeoutConfig

/-- The fields read so far. -/
structure Partial where
  durationMs : Option UInt64 := none

def fieldNames : List String := ["duration_ms"]

def readMember (p : Partial) (name : String) : Reader Partial :=
  if name = "duration_ms" then
    readField name p.durationMs readUInt64 fun a => { p with durationMs := some a }
  else fun _ => .error (.data (.unknownField name fieldNames))

def fromObject : Reader TimeoutConfig := fun ts => do
  let (p, rest) ← readObject readMember {} ts
  return (⟨← requireField "duration_ms" p.durationMs⟩, rest)

def fromArray : Reader TimeoutConfig := fun ts => do
  let (durationMs, rest) ← readRequired readUInt64 0 "struct TimeoutConfig with 1 element" ts
  return (⟨durationMs⟩, rest)

def read : Reader TimeoutConfig := readRecord "struct TimeoutConfig" fromArray fromObject

end TimeoutConfig

namespace RetryConfig

/-- The fields read so far. -/
structure Partial where
  attempts : Option UInt32 := none
  delayMs : Option UInt64 := none
  multiplier : Option (Option Binary64) := none
  maxDelayMs : Option (Option UInt64) := none
  predicate : Option (Option String) := none

def fieldNames : List String :=
  ["attempts", "delay_ms", "delay_multiplier", "max_delay_ms", "failure_predicate"]

def readMember (p : Partial) (name : String) : Reader Partial :=
  if name = "attempts" then
    readField name p.attempts readUInt32 fun a => { p with attempts := some a }
  else if name = "delay_ms" then
    readField name p.delayMs readUInt64 fun a => { p with delayMs := some a }
  else if name = "delay_multiplier" then
    readField name p.multiplier (readOption readReal) fun a => { p with multiplier := some a }
  else if name = "max_delay_ms" then
    readField name p.maxDelayMs (readOption readUInt64) fun a => { p with maxDelayMs := some a }
  else if name = "failure_predicate" then
    readField name p.predicate (readOption readString) fun a => { p with predicate := some a }
  else fun _ => .error (.data (.unknownField name fieldNames))

def fromObject : Reader RetryConfig := fun ts => do
  let (p, rest) ← readObject readMember {} ts
  let attempts ← requireField "attempts" p.attempts
  return (⟨attempts, p.delayMs.getD 0, p.multiplier.getD none, p.maxDelayMs.getD none,
    p.predicate.getD none⟩, rest)

def fromArray : Reader RetryConfig := fun ts => do
  let (attempts, ts) ← readRequired readUInt32 0 "struct RetryConfig with 5 elements" ts
  let (delayMs, ts) ← readDefaulted readUInt64 0 1 ts
  let (multiplier, ts) ← readDefaulted (readOption readReal) none 2 ts
  let (maxDelayMs, ts) ← readDefaulted (readOption readUInt64) none 3 ts
  let (predicate, ts) ← readDefaulted (readOption readString) none 4 ts
  return (⟨attempts, delayMs, multiplier, maxDelayMs, predicate⟩, ts)

def read : Reader RetryConfig := readRecord "struct RetryConfig" fromArray fromObject

end RetryConfig

namespace FallbackConfig

/-- The fields read so far. -/
structure Partial where
  predicate : Option (Option String) := none

def fieldNames : List String := ["failure_predicate"]

def readMember (p : Partial) (name : String) : Reader Partial :=
  if name = "failure_predicate" then
    readField name p.predicate (readOption readString) fun a => { p with predicate := some a }
  else fun _ => .error (.data (.unknownField name fieldNames))

def fromObject : Reader FallbackConfig := fun ts => do
  let (p, rest) ← readObject readMember {} ts
  return (⟨p.predicate.getD none⟩, rest)

def fromArray : Reader FallbackConfig := fun ts => do
  let (predicate, ts) ← readDefaulted (readOption readString) none 0 ts
  return (⟨predicate⟩, ts)

def read : Reader FallbackConfig := readRecord "struct FallbackConfig" fromArray fromObject

end FallbackConfig

namespace Configuration

/-- The families read so far. -/
structure Partial where
  timeout : Option (NameTable TimeoutConfig) := none
  retry : Option (NameTable RetryConfig) := none
  fallback : Option (NameTable FallbackConfig) := none

def fieldNames : List String := ["timeout", "retry", "fallback"]

def readMember (p : Partial) (name : String) : Reader Partial :=
  if name = "timeout" then
    readField name p.timeout (readTable TimeoutConfig.read) fun a => { p with timeout := some a }
  else if name = "retry" then
    readField name p.retry (readTable RetryConfig.read) fun a => { p with retry := some a }
  else if name = "fallback" then
    readField name p.fallback (readTable FallbackConfig.read) fun a => { p with fallback := some a }
  else fun _ => .error (.data (.unknownField name fieldNames))

def fromObject : Reader Configuration := fun ts => do
  let (p, rest) ← readObject readMember {} ts
  return (⟨p.timeout.getD .empty, p.retry.getD .empty, p.fallback.getD .empty⟩, rest)

def fromArray : Reader Configuration := fun ts => do
  let (timeout, ts) ← readDefaulted (readTable TimeoutConfig.read) .empty 0 ts
  let (retry, ts) ← readDefaulted (readTable RetryConfig.read) .empty 1 ts
  let (fallback, ts) ← readDefaulted (readTable FallbackConfig.read) .empty 2 ts
  return (⟨timeout, retry, fallback⟩, ts)

def read : Reader Configuration := readRecord "struct ResilienceConfig" fromArray fromObject

/-- Reads a configuration from tokens, all of which it must take. -/
def ofTokens (ts : List Token) : Except ReadError Configuration :=
  match read ts with
  | .error e => .error e
  | .ok (c, []) => .ok c
  | .ok (_, _ :: _) => .error (.text .wrong)

/-- Reads a configuration from text. -/
def ofText (s : String) : Except ReadError Configuration := ofTokens (scan s)

end Configuration

end CallGuard

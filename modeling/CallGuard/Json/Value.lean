/-
JSON values: reading them from text and writing them without blanks. An object has its names in
increasing order; of two members of one name the later one counts.
-/
import CallGuard.Json.Token
import CallGuard.Naming.Table

namespace CallGuard

/-- A JSON value. -/
inductive Json where
  | null
  | bool (b : Bool)
  | number (n : JsonNumber)
  | string (s : String)
  | array (items : List Json)
  | object (members : List (String × Json))
deriving Inhabited

namespace Json

/-! ## Writing -/

/-- Items with commas in between. -/
def separated : List (List Token) → List Token
  | [] => []
  | [ts] => ts
  | ts :: rest => ts ++ .comma :: separated rest

mutual

/-- The tokens of a value. -/
def tokens : Json → List Token
  | .null => [.null]
  | .bool b => [.bool b]
  | .number n => [.number n]
  | .string s => [.string s]
  | .array items => .openBracket :: separated (tokensOfItems items) ++ [.closeBracket]
  | .object members => .openBrace :: separated (tokensOfMembers members) ++ [.closeBrace]

def tokensOfItems : List Json → List (List Token)
  | [] => []
  | v :: rest => v.tokens :: tokensOfItems rest

def tokensOfMembers : List (String × Json) → List (List Token)
  | [] => []
  | (k, v) :: rest => (.string k :: .colon :: v.tokens) :: tokensOfMembers rest

end

/-- The text of a value. -/
def text (v : Json) : String := renderTokens v.tokens

/-! ## Reading -/

/-- How deep arrays and objects may be nested. -/
def maxDepth : Nat := 127

mutual

/-- Reads a value, in at most so many steps and levels. -/
def readValue : Nat → Nat → List Token → Option (Json × List Token)
  | 0, _, _ => none
  | fuel + 1, depth, ts =>
    match ts with
    | .null :: rest => some (.null, rest)
    | .bool b :: rest => some (.bool b, rest)
    | .number n :: rest => some (.number n, rest)
    | .string s :: rest => some (.string s, rest)
    | .openBracket :: .closeBracket :: rest => if depth = 0 then none else some (.array [], rest)
    | .openBrace :: .closeBrace :: rest => if depth = 0 then none else some (.object [], rest)
    | .openBracket :: rest => if depth = 0 then none else readItems fuel (depth - 1) [] rest
    | .openBrace :: rest => if depth = 0 then none else readMembers fuel (depth - 1) .empty rest
    | _ => none

/-- Reads the items of an array behind those read so far, which are in reverse. -/
def readItems : Nat → Nat → List Json → List Token → Option (Json × List Token)
  | 0, _, _, _ => none
  | fuel + 1, depth, before, ts => do
    let (v, rest) ← readValue fuel depth ts
    match rest with
    | .comma :: rest => readItems fuel depth (v :: before) rest
    | .closeBracket :: rest => some (.array (v :: before).reverse, rest)
    | _ => none

/-- Reads the members of an object behind those read so far. -/
def readMembers : Nat → Nat → NameTable Json → List Token → Option (Json × List Token)
  | 0, _, _, _ => none
  | fuel + 1, depth, before, ts =>
    match ts with
    | .string k :: .colon :: rest => do
      let (v, rest) ← readValue fuel depth rest
      let members := before.insert k v
      match rest with
      | .comma :: rest => readMembers fuel depth members rest
      | .closeBrace :: rest => some (.object members.entries, rest)
      | _ => none
    | _ => none

end

/-- The value that a text writes. Every two steps take a token. -/
def ofText? (s : String) : Option Json :=
  let ts := scan s
  match readValue (2 * ts.length + 1) maxDepth ts with
  | some (v, []) => some v
  | _ => none

/-! ## Building and taking apart -/

/-- An object of members in any order. -/
def ofMembers (members : List (String × Json)) : Json := .object (NameTable.ofList members).entries

def nat (n : Nat) : Json := .number (.whole (.ofNat n))

/-- A whole number. -/
def int (n : Int) : Json :=
  .number (if n < 0 then .negative (.ofNat n.natAbs) else .whole (.ofNat n.toNat))

/-- The member of a name. -/
def member? (v : Json) (name : String) : Option Json :=
  match v with
  | .object members => members.lookup name
  | _ => none

end Json

end CallGuard

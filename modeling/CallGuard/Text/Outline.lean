/-
Outlines: the structure of a value as text for programmers, with the names of its fields. An outline
is written on one line, or spread over lines with four blanks more per level.
-/
import CallGuard.Text.Quoted

namespace CallGuard

/-- The structure of a value. Keys of a mapping are texts. -/
inductive Outline where
  | atom (text : String)
  /-- Named fields; a `guarded` record says that it has more than it shows. -/
  | record (name : String) (fields : List (String × Outline)) (guarded : Bool)
  | tuple (name : String) (items : List Outline)
  | sequence (items : List Outline)
  | mapping (entries : List (String × Outline))
deriving Inhabited

namespace Outline

/-- A record that shows all its fields. -/
def fields (name : String) (fs : List (String × Outline)) : Outline := .record name fs false

def text (s : String) : Outline := .atom (quoted s)

def nat (n : Nat) : Outline := .atom (toString n)

/-- A value that may be absent. -/
def option {α : Type} (f : α → Outline) : Option α → Outline
  | none => .atom "None"
  | some a => .tuple "Some" [f a]

/-! ## On one line -/

mutual

/-- The outline on one line. -/
def plain : Outline → String
  | .atom t => t
  | .record name fs guarded =>
    match plainFields fs, guarded with
    | [], false => name
    | [], true => name ++ " \x7b .. \x7d"
    | ts, g => name ++ " \x7b " ++ ", ".intercalate (if g then ts ++ [".."] else ts) ++ " \x7d"
  | .tuple name items => name ++ "(" ++ ", ".intercalate (plainItems items) ++ ")"
  | .sequence items => "[" ++ ", ".intercalate (plainItems items) ++ "]"
  | .mapping entries => "\x7b" ++ ", ".intercalate (plainEntries entries) ++ "\x7d"

def plainItems : List Outline → List String
  | [] => []
  | o :: r => o.plain :: plainItems r

def plainFields : List (String × Outline) → List String
  | [] => []
  | (k, o) :: r => (k ++ ": " ++ o.plain) :: plainFields r

def plainEntries : List (String × Outline) → List String
  | [] => []
  | (k, o) :: r => (quoted k ++ ": " ++ o.plain) :: plainEntries r

end

/-! ## Over lines -/

/-- The text one level deeper. -/
def indented (s : String) : String :=
  String.ofList (s.toList.flatMap fun c => if c = '\n' then '\n' :: List.replicate 4 ' ' else [c])

/-- Parts on lines of their own between two delimiters, each with a comma behind it. -/
def block (opening closing : String) (parts : List String) : String :=
  if parts.isEmpty then opening ++ closing
  else opening ++ indented ("\n" ++ "\n".intercalate parts) ++ "\n" ++ closing

mutual

/-- The outline over several lines. -/
def spread : Outline → String
  | .atom t => t
  | .record name fs guarded =>
    match spreadFields fs, guarded with
    | [], false => name
    | [], true => name ++ " \x7b .. \x7d"
    | ts, g => name ++ block " \x7b" "\x7d" (if g then ts ++ [".."] else ts)
  | .tuple name items => name ++ block "(" ")" (spreadItems items)
  | .sequence items => block "[" "]" (spreadItems items)
  | .mapping entries => block "\x7b" "\x7d" (spreadEntries entries)

def spreadItems : List Outline → List String
  | [] => []
  | o :: r => (o.spread ++ ",") :: spreadItems r

def spreadFields : List (String × Outline) → List String
  | [] => []
  | (k, o) :: r => (k ++ ": " ++ o.spread ++ ",") :: spreadFields r

def spreadEntries : List (String × Outline) → List String
  | [] => []
  | (k, o) :: r => (quoted k ++ ": " ++ o.spread ++ ",") :: spreadEntries r

end

end Outline

end CallGuard

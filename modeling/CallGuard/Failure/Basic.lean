/-
Errors as classifiers see them. An error has a type, a message and a chain of sources below it. The
classes `Payload` and `Fault` say what a type of errors shows; `AnyError` is an error whose type has
been forgotten but for what it shows.
-/
import CallGuard.Text.Outline

namespace CallGuard

/-! ## Types of errors -/

/-- The identity of a type of errors: any type, by its full name, or a wrapper around a type. -/
inductive ErrorType where
  | named (name : String)
  | timeout (payload : ErrorType)
  | exhausted (payload : ErrorType)
  | retry (payload : ErrorType)
  | guarded (payload : ErrorType)
deriving DecidableEq

/-- The full name of a type, as the histories of exhausted retries show it. -/
def ErrorType.name : ErrorType → String
  | named name => name
  | timeout p => "resilient::timeout::error::TimeoutError<" ++ p.name ++ ">"
  | exhausted p => "resilient::retry::error::RetryExhausted<" ++ p.name ++ ">"
  | retry p => "resilient::retry::error::RetryError<" ++ p.name ++ ">"
  | guarded p => "resilient::aspect::ResilienceError<" ++ p.name ++ ">"

/-! ## Test errors -/

def ErrorType.test : ErrorType := .named "resilient::testing::TestError"

/-- An error made for tests: one that may pass, or one that stays. -/
inductive TestError where
  | transient (reason : String)
  | permanent (reason : String)
deriving DecidableEq

namespace TestError

def isTransient : TestError → Bool
  | transient _ => true
  | permanent _ => false

def message : TestError → String
  | transient reason => "transient failure: " ++ reason
  | permanent reason => "permanent failure: " ++ reason

def outline : TestError → Outline
  | transient reason => .tuple "Transient" [.text reason]
  | permanent reason => .tuple "Permanent" [.text reason]

end TestError

/-! ## Chains -/

/-- One error of a chain. Classifiers look at the type and the message, and into test errors. -/
inductive Link where
  | test (error : TestError)
  | other (type : ErrorType) (message : String)
deriving DecidableEq

namespace Link

def type : Link → ErrorType
  | test _ => .test
  | other t _ => t

def message : Link → String
  | test e => e.message
  | other _ m => m

end Link

/-- An error of any type: its own link, the chain of its sources, and its outline. -/
structure AnyError where
  link : Link
  sources : List Link
  outline : Outline

namespace AnyError

def message (e : AnyError) : String := e.link.message

/-- The error and everything below it, from the outside in. -/
def chain (e : AnyError) : List Link := e.link :: e.sources

end AnyError

/-! ## What a type of errors shows -/

/-- Values that stand for a failure: they have a type, a message and an outline. -/
class Payload (ε : Type) where
  type : ErrorType
  message : ε → String
  outline : ε → Outline

/-- Errors with a chain of sources. -/
class Fault (ε : Type) extends Payload ε where
  link : ε → Link
  sources : ε → List Link

/-- Forgets the type of an error. -/
def Fault.erase {ε : Type} [Fault ε] (e : ε) : AnyError :=
  ⟨Fault.link e, Fault.sources e, Payload.outline e⟩

/-- The error and everything below it. -/
def Fault.chain {ε : Type} [Fault ε] (e : ε) : List Link := Fault.link e :: Fault.sources e

/-- The link of an error that classifiers do not look into. -/
def Payload.plainLink {ε : Type} [Payload ε] (e : ε) : Link :=
  .other (Payload.type ε) (Payload.message e)

instance : Fault TestError where
  type := .test
  message := TestError.message
  outline := TestError.outline
  link := .test
  sources _ := []

end CallGuard

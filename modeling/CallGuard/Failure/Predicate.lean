/-
Failure predicates: which failures a policy applies to. A predicate is a decision on errors of any
type; the usual ones look at the message or along the chain of sources.
-/
import CallGuard.Failure.Basic

namespace CallGuard

/-- A decision on failures. -/
structure FailurePredicate where
  accepts : AnyError → Bool

/-- A text occurs in another. -/
def occursIn (part : List Char) : List Char → Bool
  | [] => part.isEmpty
  | c :: r => part.isPrefixOf (c :: r) || occursIn part r

namespace FailurePredicate

/-- The decision on an error of a known type. -/
def test {ε : Type} [Fault ε] (p : FailurePredicate) (e : ε) : Bool := p.accepts (Fault.erase e)

/-- Accepts every failure. -/
def always : FailurePredicate := ⟨fun _ => true⟩

/-- Accepts no failure. -/
def never : FailurePredicate := ⟨fun _ => false⟩

instance : Inhabited FailurePredicate := ⟨always⟩

/-- Accepts a failure if it, or any error below it, has the type. -/
def withCause (type : ErrorType) : FailurePredicate :=
  ⟨fun e => e.chain.any fun l => l.type == type⟩

/-- The first test error of a chain decides. -/
def firstTestError : List Link → Option TestError
  | [] => none
  | .test e :: _ => some e
  | .other _ _ :: r => firstTestError r

/-- Accepts a failure if the outermost test error of its chain is transient. -/
def transient : FailurePredicate :=
  ⟨fun e => ((firstTestError e.chain).map TestError.isTransient).getD false⟩

/-- Accepts failures whose own message contains a text. -/
def messageContains (part : String) : FailurePredicate :=
  ⟨fun e => occursIn part.toList e.message.toList⟩

/-- Accepts failures whose own message starts with a text. -/
def messageStartsWith (part : String) : FailurePredicate :=
  ⟨fun e => part.toList.isPrefixOf e.message.toList⟩

/-- A predicate shows nothing of its decision. -/
def outline (_ : FailurePredicate) : Outline := .record "FailurePredicate" [] true

end FailurePredicate

end CallGuard

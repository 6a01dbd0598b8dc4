/-
Fallback policies: which failures are answered by an alternative.
-/
import CallGuard.Failure.Predicate
import CallGuard.Policy.Error

namespace CallGuard

/-- Which failures are answered by an alternative. -/
structure FallbackPolicy where
  name : String
  predicate : FailurePredicate := .always

namespace FallbackPolicy

/-- Says what is wrong with a policy, if anything. -/
def validate (p : FallbackPolicy) : Except ConfigError Unit :=
  if p.name = "" then .error (.invalidPolicy .fallback p.name .emptyName) else .ok ()

/-- The policy can be applied. -/
def Valid (p : FallbackPolicy) : Prop := p.name ≠ ""

instance (p : FallbackPolicy) : Decidable p.Valid := inferInstanceAs (Decidable (_ ≠ _))

theorem validate_eq_ok {p : FallbackPolicy} : p.validate = .ok () ↔ p.Valid := by
  unfold validate Valid; split <;> simp_all

def outline (p : FallbackPolicy) : Outline :=
  .fields "FallbackPolicy" [("name", .text p.name), ("failure_predicate", p.predicate.outline)]

end FallbackPolicy

end CallGuard

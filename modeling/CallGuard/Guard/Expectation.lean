/-
Expectations on results, for tests: that a deadline was missed, or that so many attempts were made and
all of them failed. A result that falls short is described.
-/
import CallGuard.Failure.Basic

namespace CallGuard

variable {ε α : Type} [Payload ε]

/-- The outline of a result. -/
def resultOutline (value : α → Outline) : Except ε α → Outline
  | .ok a => .tuple "Ok" [value a]
  | .error e => .tuple "Err" [Payload.outline e]

/-- Accepts a missed deadline, as `missed` tells it. -/
def expectTimeout (missed : ε → Bool) (value : α → Outline) (r : Except ε α) : Except String Unit :=
  let unexpected := Except.error ("Expected timeout, got " ++ (resultOutline value r).plain)
  match r with
  | .ok _ => unexpected
  | .error e => if missed e then .ok () else unexpected

/-- What a wrong number of attempts says. -/
def wrongAttempts (found expected : Nat) : String :=
  "assertion `left == right` failed: unexpected attempt count\n  left: " ++ toString found ++
    "\n right: " ++ toString expected

/-- Accepts a history of so many attempts, whose number `count?` tells. -/
def expectExhausted (count? : ε → Option Nat) (attempts : Nat) (value : α → Outline)
    (r : Except ε α) : Except String Unit :=
  let unexpected := fun (o : Outline) => Except.error ("Expected exhausted retries, got " ++ o.plain)
  match r with
  | .ok _ => unexpected (resultOutline value r)
  | .error e =>
    match count? e with
    | none => unexpected (Payload.outline e)
    | some n => if n = attempts then .ok () else .error (wrongAttempts n attempts)

end CallGuard

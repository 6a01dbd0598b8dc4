/-
Timeout policies: a name and how long a result may take. Neither the name is empty nor the duration
zero; `TimeoutPolicy.create` refuses anything else.
-/
import CallGuard.Policy.Error
import CallGuard.Time.Duration

namespace CallGuard

/-- How long a result may take. -/
structure TimeoutPolicy where
  name : String
  duration : Duration
  name_ne_empty : name ≠ ""
  duration_ne_zero : duration ≠ .zero
deriving DecidableEq

namespace TimeoutPolicy

/-- The policy of a name and a duration. The name is looked at first. -/
def create (name : String) (duration : Duration) : Except ConfigError TimeoutPolicy :=
  if hn : name = "" then .error (.invalidPolicy .timeout name .emptyName)
  else if hd : duration = .zero then .error (.invalidPolicy .timeout name .zeroDuration)
  else .ok ⟨name, duration, hn, hd⟩

theorem create_eq_ok {name : String} {d : Duration} {p : TimeoutPolicy} :
    create name d = .ok p ↔ p.name = name ∧ p.duration = d := by
  unfold create
  split
  · rename_i hn
    simp only [reduceCtorEq, false_iff, not_and]
    intro h; exact absurd (h.trans hn) p.name_ne_empty
  · split
    · rename_i hd
      simp only [reduceCtorEq, false_iff, not_and]
      intro _ h; exact absurd (h.trans hd) p.duration_ne_zero
    · cases p; simp [eq_comm]

def outline (p : TimeoutPolicy) : Outline :=
  .fields "TimeoutPolicy" [("name", .text p.name), ("duration", p.duration.outline)]

end TimeoutPolicy

end CallGuard

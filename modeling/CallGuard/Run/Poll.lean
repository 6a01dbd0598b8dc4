/-
Streams as states and a poll. Polling a state is an act that gives the next element and the state
after it, or nothing when the stream has ended; nothing happens between two polls.
-/
import CallGuard.Run.Act

namespace CallGuard

/-- Asks a stream in some state for its next element. -/
abbrev Poll (σ ρ β : Type) : Type := ρ → Act σ (Option (β × ρ))

/-- What can be subscribed to, and how a producer of it is polled. -/
structure Source (σ ρ β : Type) where
  subscribe : Act σ ρ
  poll : Poll σ ρ β

variable {σ ρ κ β γ : Type}

/-- Changes the element and the state that a poll gives. -/
def relabel (f : β → γ) (g : ρ → κ) (x : Act σ (Option (β × ρ))) :
    Act σ (Option (γ × κ)) :=
  x >>= fun o => pure (o.map fun p => (f p.1, g p.2))

/-- Changes the error of a result. -/
def mapError {ε δ α : Type} (f : ε → δ) : Except ε α → Except δ α
  | .ok a => .ok a
  | .error e => .error (f e)

end CallGuard

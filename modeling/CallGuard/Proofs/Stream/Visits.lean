/-
The visits that a consumer pays to a stream: every poll with the world in which it is made, what the
consumer sees of it, and the world that it leaves. Between two visits passes what the relation `meanwhile`
allows, so a schedule of polls is any list of visits (`Visits`).
-/
import CallGuard.Proofs.Stream.Reading

namespace CallGuard

variable {σ κ β δ α : Type}

/-- A poll as the consumer sees it. -/
structure Visit (σ β : Type) where
  asked : World σ
  outcome : Ended (Option β)
  left : World σ

/-- What the consumer sees of what a poll comes to. -/
def seen : Ended (Option (β × κ)) → Ended (Option β)
  | .done o => .done (o.map Prod.fst)
  | .panicked m => .panicked m
  | .abandoned => .abandoned

/-- The visits that a consumer can have paid, and where it stands after them. -/
inductive Visits (poll : Poll σ κ β) (meanwhile : World σ → World σ → Prop) (k₀ : κ) (w₀ : World σ) :
    List (Visit σ β) → Phase κ → World σ → Prop where
  | start : Visits poll meanwhile k₀ w₀ [] (.reading k₀) w₀
  | polled {vs : List (Visit σ β)} {k : κ} {w v w' : World σ} {out : Ended (Option (β × κ))}
      (h : Visits poll meanwhile k₀ w₀ vs (.reading k) w) (passes : meanwhile w v) (call : poll k v = (out, w')) :
      Visits poll meanwhile k₀ w₀ (vs ++ [⟨v, seen out, w'⟩]) (.after out) w'

/-! ## The gap between elements -/

/-- When the last element that is no failure was handed out. -/
def lastDelivery (vs : List (Visit σ (Except δ α))) : Option Nat :=
  vs.foldl (fun last v => match v.outcome with
    | .done (some (.ok _)) => some v.left.now
    | _ => last) none

/-- When the gap began in which a consumer with these visits asks now: with the last element that is no failure,
or else with the first visit. -/
def gapStart (vs : List (Visit σ (Except δ α))) (now : Nat) : Nat :=
  (lastDelivery vs).getD ((vs.head?.map (·.asked.now)).getD now)

/-- An element starts the gap anew. -/
theorem gapStart_element (vs : List (Visit σ (Except δ α))) (w w' : World σ) (a : α) (now : Nat) :
    gapStart (vs ++ [⟨w, .done (some (.ok a)), w'⟩]) now = w'.now := by
  rw [gapStart, lastDelivery, List.foldl_append]
  rfl

/-- A failure leaves the gap as it is. -/
theorem gapStart_failure (vs : List (Visit σ (Except δ α))) (w w' : World σ) (e : δ) (now : Nat) :
    gapStart (vs ++ [⟨w, .done (some (.error e)), w'⟩]) now = gapStart vs w.now := by
  have hlast : lastDelivery (vs ++ [⟨w, .done (some (.error e)), w'⟩]) = lastDelivery vs := by
    rw [lastDelivery, List.foldl_append]
    rfl
  rw [gapStart, gapStart, hlast]
  cases vs <;> rfl

end CallGuard

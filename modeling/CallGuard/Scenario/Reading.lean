/-
Reading a stream as a consumer with a plan does: some elements, a pause, some more elements, or
everything up to the end. The time of each element is kept. A consumer that gets nothing for a very long
time gives up.
-/
import CallGuard.Run.Poll

namespace CallGuard

/-- How long anybody waits for one result or element. -/
def patience : Duration := .ofMillis 5000000000

/-- Waits for a result as long as anybody does. -/
def patiently {σ α : Type} (x : Act σ α) : Act σ (Option α) := fun w =>
  Act.before .suspended (tick (Pace.suspended.instantAfter w.instantLimit w.now patience)) x w

/-- A part of a consumer's plan. -/
inductive Intake where
  | take (count : Nat)
  | pause (d : Duration)

/-- What a consumer got. -/
inductive Received (β : Type) where
  | element (b : β)
  | panic (message : String)

/-- How reading came to its end. -/
inductive ReadingEnd where
  /-- The stream ended at an instant. -/
  | ended (instant : Nat)
  /-- The plan was carried out; the stream has not ended. -/
  | stopped
  | panicked
  /-- The consumer gave up. -/
  | abandoned
deriving DecidableEq

/-- What a consumer got and when, and how the reading ended. -/
structure Reading (β : Type) where
  items : List (Nat × Received β)
  ending : ReadingEnd

namespace Reading

variable {σ ρ β : Type}

/-- Reads so many elements, if there are as many: what came, and the state behind it or the end. -/
def take (poll : Poll σ ρ β) : Nat → ρ → World σ →
    (List (Nat × Received β) × Except ReadingEnd ρ) × World σ
  | 0, p, w => (([], .ok p), w)
  | n + 1, p, w =>
    match patiently (poll p) w with
    | (.done (some (some (b, p))), w) =>
      let ((items, rest), w') := take poll n p w
      (((w.now, .element b) :: items, rest), w')
    | (.done (some none), w) => (([], .error (.ended w.now)), w)
    | (.done none, w) | (.abandoned, w) => (([], .error .abandoned), w)
    | (.panicked m, w) => (([(w.now, .panic m)], .error .panicked), w)

/-- Carries out a plan. -/
def follow (poll : Poll σ ρ β) : List Intake → ρ → World σ → Reading β × World σ
  | [], _, w => (⟨[], .stopped⟩, w)
  | .pause d :: plan, p, w => follow poll plan p (Act.sleep .suspended d w).2
  | .take n :: plan, p, w =>
    match take poll n p w with
    | ((items, .error e), w) => (⟨items, e⟩, w)
    | ((items, .ok p), w) =>
      let (r, w) := follow poll plan p w
      (⟨items ++ r.items, r.ending⟩, w)

/-- Reads as a plan says, or everything up to the end of a stream of at most `bound` elements. -/
def run (poll : Poll σ ρ β) (plan : Option (List Intake)) (bound : Nat) (p : ρ) (w : World σ) :
    Reading β × World σ :=
  follow poll (plan.getD [.take (bound + 1)]) p w

/-- Changes the elements. -/
def map {γ : Type} (f : β → γ) (r : Reading β) : Reading γ :=
  ⟨r.items.map fun
    | (t, .element b) => (t, .element (f b))
    | (t, .panic m) => (t, .panic m), r.ending⟩

end Reading

end CallGuard

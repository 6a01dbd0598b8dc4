/-
Streams under a timeout: a deadline for the gap between elements. The gap is counted from the last
element that was handed out, or from the first poll; failures do not start it anew. An element that is
asked for after the deadline comes too late even if it is there. After a missed deadline the producer
is dropped and the stream ends.
-/
import CallGuard.Run.Poll
import CallGuard.Timeout.Limit

namespace CallGuard

/-- The state of a stream with deadlines over producers in states `ρ`. -/
structure Gap (ρ : Type) where
  /-- There is none after a missed deadline. -/
  producer : Option ρ
  /-- When the gap began, once the stream was polled. -/
  since : Option Nat := none

/-- What a deadline that is no instant says. -/
def instantOverflow : String := "overflow when adding duration to instant"

namespace TimeLimit

variable {σ ρ ε α : Type}

/-- A stream that nobody has polled. -/
def watch (_ : TimeLimit) (producer : ρ) : Gap ρ := ⟨some producer, none⟩

/-- The stream after a missed deadline. -/
def miss (t : TimeLimit) (since : Nat) (w : World σ) :
    Ended (Option (Except (TimeoutError ε) α × Gap ρ)) × World σ :=
  (.done (some (.error t.error, ⟨none, some since⟩)), w.report t.event)

/-- Polls a stream with deadlines. -/
def poll (t : TimeLimit) (producer : Poll σ ρ (Except ε α)) :
    Poll σ (Gap ρ) (Except (TimeoutError ε) α) := fun g w =>
  match g.producer with
  | none => (.done none, w)
  | some p =>
    let since := g.since.getD w.now
    match instantAfter? w.instantLimit since t.duration with
    | none => (.panicked instantOverflow, w)
    | some deadline =>
      if deadline < w.now then t.miss since w
      else
        match Act.before .suspended (tick deadline) (producer p) w with
        | (.panicked m, w) => (.panicked m, w)
        | (.abandoned, w) => (.abandoned, w)
        | (.done none, w) => t.miss since w
        | (.done (some none), w) => (.done none, w)
        | (.done (some (some (.ok a, p))), w) => (.done (some (.ok a, ⟨some p, some w.now⟩)), w)
        | (.done (some (some (.error e, p))), w) =>
          (.done (some (.error (.inner e), ⟨some p, some since⟩)), w)

end TimeLimit

end CallGuard

/-
Streams with deadlines, for every producer that only waits and every schedule of visits. The deadline of a
visit is told from the visits before it (`TimeLimit.deadline`), and so is everything else: the consumer gets
what the producer gives as long as that is obtained in time, then once the timeout, then the end
(`TimeLimit.Watching`).

The induction is on the visits. What carries it is that the gap of the state began when the gap of the visits
did (`Anchored`).
-/
import CallGuard.Proofs.Stream.Visits
import CallGuard.Proofs.Timeout.Gap
import CallGuard.Proofs.Timeout.Timed

namespace CallGuard

variable {σ ρ ε α : Type}

namespace TimeLimit

/-! ## Deadlines told from visits -/

/-- The deadline of a visit that is paid now, after other visits. -/
def deadline (t : TimeLimit) (vs : List (Visit σ (Except (TimeoutError ε) α))) (now : Nat) : Nat :=
  gapStart vs now + t.duration.nanos

/-- What a producer comes to next is obtained in time: it is asked for by the deadline, and is there by the first
whole millisecond that is not before the deadline. -/
structure Obtained (t : TimeLimit) (producer : Poll σ ρ (Except ε α))
    (vs : List (Visit σ (Except (TimeoutError ε) α))) (p : ρ) (w : World σ)
    (out : Ended (Option (Except ε α × ρ))) (w' : World σ) : Prop where
  asked : w.now ≤ t.deadline vs w.now
  given : producer p w = (out, w')
  ends : out ≠ .abandoned
  available : w'.now ≤ tick (t.deadline vs w.now)

/-- What comes next is not obtained in time. The consumer learns it at once if it asked too late, and otherwise at
the first whole millisecond that is not before the deadline. -/
structure Missed (t : TimeLimit) (producer : Poll σ ρ (Except ε α))
    (vs : List (Visit σ (Except (TimeoutError ε) α))) (p : ρ) (w w' : World σ) : Prop where
  never : ∀ out v, ¬ t.Obtained producer vs p w out v
  late : t.deadline vs w.now < w.now → w'.now = w.now
  waited : w.now ≤ t.deadline vs w.now → w'.now = tick (t.deadline vs w.now)

/-- The visits of a consumer that obtained everything in time, and the producer after them. -/
inductive InTime (t : TimeLimit) (producer : Poll σ ρ (Except ε α)) (p₀ : ρ) :
    List (Visit σ (Except (TimeoutError ε) α)) → ρ → Prop where
  | start : InTime t producer p₀ [] p₀
  | element {vs : List (Visit σ (Except (TimeoutError ε) α))} {p p' : ρ} {w w' : World σ} {x : Except ε α}
      (h : InTime t producer p₀ vs p) (obtained : t.Obtained producer vs p w (.done (some (x, p'))) w') :
      InTime t producer p₀ (vs ++ [⟨w, .done (some (mapError .inner x)), w'⟩]) p'

section Poll

variable {t : TimeLimit} {producer : Poll σ ρ (Except ε α)} {g : Gap ρ} {p : ρ} {w w' : World σ} {since : Nat}

theorem poll_dropped (hg : g.producer = none) : t.poll producer g w = (.done none, w) := by
  rw [poll, hg]

theorem poll_late (hg : g.producer = some p) (hs : g.since.getD w.now = since)
    (hrep : since + t.duration.nanos < w.instantLimit) (hlate : since + t.duration.nanos < w.now) :
    t.poll producer g w = t.miss since w := by
  simp only [poll, hg, hs, instantAfter?_of_lt hrep, if_pos hlate]

theorem poll_inTime (hg : g.producer = some p) (hs : g.since.getD w.now = since)
    (hrep : since + t.duration.nanos < w.instantLimit) (hasked : w.now ≤ since + t.duration.nanos)
    (hp : (producer p).Timed) (hw : w.Patient .suspended) {out : Ended (Option (Except ε α × ρ))}
    (hrun : producer p w = (out, w')) (hends : out ≠ .abandoned) (hle : w'.now ≤ tick (since + t.duration.nanos)) :
    t.poll producer g w = (answer since w' out, w') := by
  simp only [poll, hg, hs, instantAfter?_of_lt hrep, if_neg (Nat.not_lt.2 hasked)]
  cases out with
  | done event =>
    rw [Act.before_of_inTime hp hw hrun hle]
    rcases event with _ | ⟨_ | _, _⟩ <;> rfl
  | panicked m => rw [Act.before_of_panicked hp hw hrun hle]; rfl
  | abandoned => exact absurd rfl hends

theorem poll_waited (hg : g.producer = some p) (hs : g.since.getD w.now = since)
    (hrep : since + t.duration.nanos < w.instantLimit) (hasked : w.now ≤ since + t.duration.nanos)
    (h : Act.before .suspended (tick (since + t.duration.nanos)) (producer p) w = (.done none, w')) :
    t.poll producer g w = t.miss since w' := by
  simp only [poll, hg, hs, instantAfter?_of_lt hrep, if_neg (Nat.not_lt.2 hasked), h]

/-- A poll of a stream that still has its producer: what is obtained in time is handed on, and otherwise the
deadline is missed. -/
theorem poll_cases {vs : List (Visit σ (Except (TimeoutError ε) α))} (hp : (producer p).Timed)
    (hw : w.Patient .suspended) (hg : g.producer = some p) (hs : g.since.getD w.now = gapStart vs w.now)
    (hrep : t.deadline vs w.now < w.instantLimit) :
    (∃ out w', t.Obtained producer vs p w out w' ∧
      t.poll producer g w = (answer (gapStart vs w.now) w' out, w')) ∨
    ∃ w', t.Missed producer vs p w w' ∧
      t.poll producer g w = (.done (some (.error t.error, ⟨none, some (gapStart vs w.now)⟩)), w') := by
  by_cases hlate : t.deadline vs w.now < w.now
  · refine .inr ⟨w.report t.event, ⟨fun out v h => Nat.not_lt.2 h.asked hlate, fun _ => rfl, fun h =>
      absurd hlate (Nat.not_lt.2 h)⟩, poll_late hg hs hrep hlate⟩
  have hasked := Nat.le_of_not_lt hlate
  by_cases hin : (producer p w).1 ≠ .abandoned → tick (t.deadline vs w.now) < (producer p w).2.now
  · obtain ⟨v, hv, hnow⟩ := Act.before_of_late hp hw (Nat.le_trans hasked (le_tick _)) hin
    refine .inr ⟨v.report t.event, ⟨fun out u h => ?_, fun h => absurd h hlate, fun _ => hnow⟩,
      poll_waited hg hs hrep hasked hv⟩
    rw [h.given] at hin
    exact Nat.not_lt.2 h.available (hin h.ends)
  · obtain ⟨hends, hle⟩ := Classical.not_imp.1 hin
    have hle := Nat.le_of_not_lt hle
    exact .inl ⟨_, _, ⟨hasked, rfl, hends, hle⟩, poll_inTime hg hs hrep hasked hp hw rfl hends hle⟩

end Poll

/-! ## All visits -/

/-- The gap of a state began when the gap of the visits did. -/
def Anchored (vs : List (Visit σ (Except (TimeoutError ε) α))) : Phase (Gap ρ) → Prop
  | .reading g => ∀ p now, g.producer = some p → g.since.getD now = gapStart vs now
  | .ended | .broken => True

theorem anchored_element {vs : List (Visit σ (Except (TimeoutError ε) α))} {w w' : World σ} {x : Except ε α} {p : ρ} :
    Anchored (vs ++ [⟨w, seen (answer (gapStart vs w.now) w' (.done (some (x, p)))), w'⟩])
      (Phase.after (answer (gapStart vs w.now) w' (.done (some (x, p))))) := by
  cases x with
  | ok a => exact fun _ now _ => (gapStart_element vs w w' a now).symm
  | error e => exact fun _ now _ => (gapStart_failure vs w w' (.inner e) now).symm

/-- A limit that is no whole number of milliseconds. -/
def oneAndAHalf : TimeLimit := ⟨⟨"uneven", ⟨1500000, by decide⟩, by decide, by simp [Duration.zero]⟩⟩

/-- The world at an instant, when so many elements have come out. -/
def produced (n t : Nat) : World FeedTally := World.moved { own := {} } { produced := n } t

end TimeLimit

end CallGuard

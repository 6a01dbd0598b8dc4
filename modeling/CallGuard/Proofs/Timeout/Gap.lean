/-
What a run or a poll under a limit can come to, told once for each from the work below it (`TimeLimit.RunsTo`,
`TimeLimit.PollsTo`): either a deadline is missed, or the work below decides. What limits keep of the work below
is drawn from these cases. So what comes out of a stream came out of its producer, in the same state of its own
(`TimeLimit.poll_element`): a deadline only ever takes polls away.
-/
import CallGuard.Timeout.Gap

namespace CallGuard

variable {σ ρ ε α β : Type}

/-- Changes the result of an act that is done. -/
def Ended.map (f : α → β) : Ended α → Ended β
  | .done a => .done (f a)
  | .panicked m => .panicked m
  | .abandoned => .abandoned

theorem Ended.map_ne_abandoned {f : α → β} {x : Ended α} (h : x ≠ .abandoned) : x.map f ≠ .abandoned := by
  cases x with
  | abandoned => exact absurd rfl h
  | done _ | panicked _ => nofun

theorem Act.before_some {pace : Pace} {deadline : Nat} {x : Act σ α} {w w' : World σ} {a : α}
    (h : Act.before pace deadline x w = (.done (some a), w')) :
    ∃ v v', x v = (.done a, v') ∧ v.own = w.own ∧ v'.own = w'.own := by
  simp only [Act.before] at h
  generalize hv : w.setClock pace _ = v at h
  have hown : v.own = w.own := by rw [← hv, World.own_setClock]
  rcases hx : x v with ⟨b | m | _, v'⟩ <;> rw [hx] at h
  · cases h
    exact ⟨v, v', hx, hown, by simp⟩
  · cases h
  · simp only at h
    split at h <;> cases h

namespace TimeLimit

/-! ## Runs -/

/-- What a run under a limit comes to, told from its work until the deadline. -/
inductive RunsTo (t : TimeLimit) (work : Act σ (Except ε α)) (w : World σ) :
    Ended (Except (TimeoutError ε) α) → World σ → Prop where
  | missed {v : World σ}
      (limited : Act.before .suspended (tick (t.due w.instantLimit w.now)) work w = (.done none, v)) :
      RunsTo t work w (.done (.error t.error)) (v.report t.event)
  | kept (out : Ended (Except ε α)) {v : World σ}
      (limited : Act.before .suspended (tick (t.due w.instantLimit w.now)) work w = (out.map some, v)) :
      RunsTo t work w (out.map (mapError .inner)) v

theorem runsTo {t : TimeLimit} {work : Act σ (Except ε α)} {w v : World σ} {out : Ended (Except (TimeoutError ε) α)} :
    t.RunsTo work w out v ↔ t.run work w = (out, v) := by
  constructor
  · intro h
    cases h with
    | missed limited => rw [run, limited]
    | kept out limited =>
      rw [run, limited]
      rcases out with (_ | _) | _ | _ <;> rfl
  · intro h
    rcases limited : Act.before .suspended (tick (t.due w.instantLimit w.now)) work w with ⟨(_ | x) | m | _, u⟩ <;>
      rw [run, limited] at h
    · cases h; exact .missed limited
    · cases x <;> cases h <;> exact .kept (.done _) limited
    · cases h; exact .kept (.panicked m) limited
    · cases h; exact .kept .abandoned limited

/-! ## Polls -/

/-- What a poll comes to when its producer came to something in time. -/
def answer (since : Nat) (w' : World σ) :
    Ended (Option (Except ε α × ρ)) → Ended (Option (Except (TimeoutError ε) α × Gap ρ))
  | .done none => .done none
  | .done (some (.ok a, p)) => .done (some (.ok a, ⟨some p, some w'.now⟩))
  | .done (some (.error e, p)) => .done (some (.error (.inner e), ⟨some p, some since⟩))
  | .panicked m => .panicked m
  | .abandoned => .abandoned

/-- The deadline of a poll, which is counted from where the gap began. -/
def gapEnd (t : TimeLimit) (g : Gap ρ) (w : World σ) : Nat := g.since.getD w.now + t.duration.nanos

/-- What a poll of a stream under a limit comes to, told from a poll of its producer until the deadline. -/
inductive PollsTo (t : TimeLimit) (producer : Poll σ ρ (Except ε α)) (g : Gap ρ) (w : World σ) :
    Ended (Option (Except (TimeoutError ε) α × Gap ρ)) → World σ → Prop where
  /-- A deadline was missed before. -/
  | dropped (nobody : g.producer = none) : PollsTo t producer g w (.done none) w
  /-- The deadline is no instant. -/
  | overflow {p : ρ} (holds : g.producer = some p) (beyond : w.instantLimit ≤ t.gapEnd g w) :
      PollsTo t producer g w (.panicked instantOverflow) w
  /-- The poll comes too late. -/
  | late {p : ρ} (holds : g.producer = some p) (past : t.gapEnd g w < w.now) :
      PollsTo t producer g w (.done (some (.error t.error, ⟨none, some (g.since.getD w.now)⟩))) (w.report t.event)
  /-- The producer comes to nothing in time. -/
  | missed {p : ρ} {v : World σ} (holds : g.producer = some p) (asked : w.now ≤ t.gapEnd g w)
      (limited : Act.before .suspended (tick (t.gapEnd g w)) (producer p) w = (.done none, v)) :
      PollsTo t producer g w (.done (some (.error t.error, ⟨none, some (g.since.getD w.now)⟩))) (v.report t.event)
  | answered {p : ρ} (out : Ended (Option (Except ε α × ρ))) {v : World σ} (holds : g.producer = some p)
      (asked : w.now ≤ t.gapEnd g w)
      (limited : Act.before .suspended (tick (t.gapEnd g w)) (producer p) w = (out.map some, v)) :
      PollsTo t producer g w (answer (g.since.getD w.now) v out) v

theorem pollsTo {t : TimeLimit} {producer : Poll σ ρ (Except ε α)} {g : Gap ρ} {w v : World σ}
    {out : Ended (Option (Except (TimeoutError ε) α × Gap ρ))} (h : t.poll producer g w = (out, v)) :
    t.PollsTo producer g w out v := by
  cases holds : g.producer with
  | none =>
    simp only [poll, holds] at h
    cases h
    exact .dropped holds
  | some p =>
    by_cases hlim : t.gapEnd g w < w.instantLimit
    · have hinstant : instantAfter? w.instantLimit (g.since.getD w.now) t.duration = some (t.gapEnd g w) :=
        instantAfter?_of_lt hlim
      simp only [poll, holds, hinstant] at h
      split at h
      · rename_i past
        cases h
        exact .late holds past
      · rename_i asked
        have asked := Nat.le_of_not_lt asked
        split at h <;> rename_i limited <;> cases h
        · exact .answered (.panicked _) holds asked limited
        · exact .answered .abandoned holds asked limited
        · exact .missed holds asked limited
        · exact .answered (.done none) holds asked limited
        · exact .answered (.done (some (.ok _, _))) holds asked limited
        · exact .answered (.done (some (.error _, _))) holds asked limited
    · have hinstant : instantAfter? w.instantLimit (g.since.getD w.now) t.duration = none :=
        instantAfter?_of_le (Nat.le_of_not_lt hlim)
      simp only [poll, holds, hinstant] at h
      cases h
      exact .overflow holds (Nat.le_of_not_lt hlim)

/-- An element under a deadline is an element of the producer. -/
theorem poll_element {t : TimeLimit} {producer : Poll σ ρ (Except ε α)} {g g' : Gap ρ} {w w' : World σ} {a : α}
    (h : t.poll producer g w = (.done (some (.ok a, g')), w')) :
    ∃ p p' v v', g.producer = some p ∧ g'.producer = some p' ∧ producer p v = (.done (some (.ok a, p')), v') ∧
      v.own = w.own ∧ v'.own = w'.own := by
  generalize hout : (Ended.done (some (Except.ok a, g')) : Ended (Option (Except (TimeoutError ε) α × Gap ρ))) = out at h
  cases pollsTo h with
  | dropped _ | overflow _ _ | late _ _ | missed _ _ _ => cases hout
  | @answered p out _ holds _ limited =>
    rcases out with (_ | ⟨_ | _, p'⟩) | _ | _ <;> cases hout
    obtain ⟨u, u', hx, hu, hu'⟩ := Act.before_some limited
    exact ⟨p, p', u, u', holds, rfl, hx, hu, hu'⟩

/-- The end under a deadline is the end of the producer, unless a deadline was missed before. -/
theorem poll_ended {t : TimeLimit} {producer : Poll σ ρ (Except ε α)} {g : Gap ρ} {w w' : World σ}
    (h : t.poll producer g w = (.done none, w')) :
    g.producer = none ∨ ∃ p v v', g.producer = some p ∧ producer p v = (.done none, v') ∧ v.own = w.own := by
  generalize hout : (Ended.done none : Ended (Option (Except (TimeoutError ε) α × Gap ρ))) = out at h
  cases pollsTo h with
  | dropped nobody => exact .inl nobody
  | overflow _ _ | late _ _ | missed _ _ _ => cases hout
  | @answered p out _ holds _ limited =>
    rcases out with (_ | ⟨_ | _, p'⟩) | _ | _ <;> cases hout
    obtain ⟨u, u', hx, hu, -⟩ := Act.before_some limited
    exact .inr ⟨p, u, u', holds, hx, hu⟩

end TimeLimit

end CallGuard

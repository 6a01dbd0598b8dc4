/-
Feeds of which every subscription replays one sequence. A producer is what is left of the script of its
subscription, so the place where it stands is told by what it lacks (`Feed.Stands`). The pauses of the
script play no part.
-/
import CallGuard.Proofs.Run.Waiting
import CallGuard.Proofs.Stream.Replay

namespace CallGuard

variable {σ ε α : Type}

/-- The call comes to a value. -/
def Call.Gives (c : Call ε α) : Prop := ∃ a, c.ending = .value a

namespace Feed

/-! ## Polls -/

/-- A poll that comes back gives what the next call of the script comes to. -/
theorem poll_cons {cell : Cell σ FeedTally} {c : Call ε α} {rest : List (Call ε α)} {w w' : World σ}
    {o : Option (Except ε α × List (Call ε α))} (h : poll cell (c :: rest) w = (.done o, w')) :
    (∃ a, c.ending = .value a ∧ o = some (.ok a, rest)) ∨ ∃ e, c.ending = .failure e ∧ o = some (.error e, rest) := by
  rw [poll] at h
  obtain ⟨-, v, -, h⟩ := Act.of_bind_done h
  cases hend : c.ending with
  | value a =>
    simp only [hend] at h
    obtain ⟨-, v', -, h⟩ := Act.of_bind_done h
    cases h
    exact .inl ⟨a, rfl, rfl⟩
  | failure e =>
    simp only [hend] at h
    obtain ⟨-, v', -, h⟩ := Act.of_bind_done h
    cases h
    exact .inr ⟨e, rfl, rfl⟩
  | panic m => simp only [hend] at h; cases h
  | never => simp only [hend] at h; cases h

theorem poll_value {cell : Cell σ FeedTally} {p p' : List (Call ε α)} {w w' : World σ} {a : α}
    (h : poll cell p w = (.done (some (.ok a, p')), w')) : ∃ c, p = c :: p' ∧ c.ending = .value a := by
  cases p with
  | nil => cases h
  | cons c rest =>
    rcases poll_cons h with ⟨b, hend, ho⟩ | ⟨e, hend, ho⟩
    · cases ho; exact ⟨c, rfl, hend⟩
    · cases ho

theorem poll_end {cell : Cell σ FeedTally} {p : List (Call ε α)} {w w' : World σ}
    (h : poll cell p w = (.done none, w')) : p = [] := by
  cases p with
  | nil => rfl
  | cons c rest => rcases poll_cons h with ⟨b, -, ho⟩ | ⟨e, -, ho⟩ <;> cases ho

/-! ## Replaying -/

/-- Every subscription of a feed replays a sequence: it gives the elements of the sequence as long as it
gives elements, and all of them if it gives nothing else. -/
structure Replaying (f : Feed ε α) (xs : Stream'.Seq α) : Prop where
  element : ∀ i n c a, (∀ b ∈ (f.subscription i).take n, b.Gives) → (f.subscription i)[n]? = some c →
    c.ending = .value a → xs.get? n = some a
  whole : ∀ i, (∀ c ∈ f.subscription i, c.Gives) → xs.get? (f.subscription i).length = none

/-- A producer has given so many elements, and nothing else. -/
def Stands (f : Feed ε α) (p : List (Call ε α)) (n : Nat) : Prop :=
  ∃ i, p = (f.subscription i).drop n ∧ n ≤ (f.subscription i).length ∧ ∀ c ∈ (f.subscription i).take n, c.Gives

theorem Replaying.replays {f : Feed ε α} {xs : Stream'.Seq α} (hf : f.Replaying xs) (cell : Cell σ FeedTally)
    (meanwhile : σ → σ → Prop) : Replays (f.source cell) meanwhile xs fun _ => f.Stands where
  subscribe := by
    intro w w' p h
    cases h
    exact ⟨(cell.read w.own).subscribed, rfl, Nat.zero_le _, by simp⟩
  element := by
    rintro w w' p p' n a ⟨i, rfl, hn, hgives⟩ h
    obtain ⟨c, hdrop, hend⟩ := poll_value h
    have hlt : n < (f.subscription i).length := by
      rw [← Nat.not_le, ← List.drop_eq_nil_iff, hdrop]; nofun
    rw [List.drop_eq_getElem_cons hlt] at hdrop
    obtain ⟨hc, hrest⟩ := List.cons.inj hdrop
    have hget : (f.subscription i)[n]? = some c := by rw [List.getElem?_eq_getElem hlt, hc]
    refine ⟨hf.element i n c a hgives hget hend, i, hrest.symm, hlt, fun b hb => ?_⟩
    rw [List.take_succ_eq_append_getElem hlt, List.mem_append, List.mem_singleton] at hb
    rcases hb with hb | rfl
    · exact hgives b hb
    · exact ⟨a, hc ▸ hend⟩
  ended := by
    rintro w w' p n ⟨i, rfl, hn, hgives⟩ h
    obtain rfl : n = (f.subscription i).length := Nat.le_antisymm hn (List.drop_eq_nil_iff.1 (poll_end h))
    exact hf.whole i (by rwa [List.take_length] at hgives)
  idle h _ := h

end Feed

end CallGuard

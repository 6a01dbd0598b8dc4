/-
Acts that do not read what was reported (`Act.Deaf`): with another log they come to the same end in the same
world, but for its log. Scripted work is deaf (`Job.deaf`), whatever the script is, and so is everything that
is put together from deaf acts.
-/
import CallGuard.Proofs.Run.Waiting
import CallGuard.Proofs.Work.Closed

namespace CallGuard

variable {σ α β : Type}

namespace World

/-- The world with another log. -/
def relogged (w : World σ) (l : List Event) : World σ := { w with log := l }

@[simp] theorem now_relogged (w : World σ) (l : List Event) : (w.relogged l).now = w.now := rfl

@[simp] theorem own_relogged (w : World σ) (l : List Event) : (w.relogged l).own = w.own := rfl

@[simp] theorem clock_relogged (w : World σ) (l : List Event) (pace : Pace) : (w.relogged l).clock pace = w.clock pace := by
  cases pace <;> rfl

@[simp] theorem setClock_relogged (w : World σ) (l : List Event) (pace : Pace) (c : Clock) :
    (w.relogged l).setClock pace c = (w.setClock pace c).relogged l := by
  cases pace <;> rfl

theorem reports_eq_relogged (es : List Event) (w : World σ) : ∃ l, es.foldl report w = w.relogged l := by
  induction es generalizing w with
  | nil => exact ⟨w.log, rfl⟩
  | cons e es ih =>
    obtain ⟨l, hl⟩ := ih (w.report e)
    exact ⟨l, hl⟩

end World

namespace Act

/-- An act that does not read what was reported. -/
def Deaf (x : Act σ α) : Prop := ∀ w l, ∃ l', x (w.relogged l) = ((x w).1, (x w).2.relogged l')

theorem deaf_pure (a : α) : (pure a : Act σ α).Deaf := fun _ l => ⟨l, rfl⟩

theorem deaf_panic (m : String) : (panic m : Act σ α).Deaf := fun _ l => ⟨l, rfl⟩

theorem deaf_modifyOwn (f : σ → α × σ) : (modifyOwn f).Deaf := fun _ l => ⟨l, rfl⟩

theorem deaf_read {f : World σ → α} (hf : ∀ w l, f (w.relogged l) = f w) : (read f).Deaf := fun w l =>
  ⟨l, by rw [read, hf]; rfl⟩

theorem deaf_waitUntil (pace : Pace) (t : Option Nat) : (waitUntil pace t : Act σ Unit).Deaf := fun w l => by
  refine ⟨l, ?_⟩
  simp only [waitUntil, World.clock_relogged, World.setClock_relogged]
  split <;> rfl

theorem deaf_sleep (pace : Pace) (d : Duration) : (sleep pace d : Act σ Unit).Deaf := fun w l => by
  simp only [sleep, World.clock_relogged]
  exact deaf_waitUntil pace _ w l

theorem deaf_hang (pace : Pace) : (hang pace : Act σ α).Deaf := fun w l => by
  obtain ⟨l', h⟩ := deaf_waitUntil pace none w l
  exact ⟨l', by rw [hang, h]; rfl⟩

/-- One act after the other. -/
theorem Deaf.bind {x : Act σ α} {f : α → Act σ β} (hx : x.Deaf) (hf : ∀ a, (f a).Deaf) : (x >>= f).Deaf := fun w l => by
  obtain ⟨l', h⟩ := hx w l
  rcases hrun : x w with ⟨a | m | _, v⟩ <;> rw [hrun] at h
  · rw [bind_of_done h, bind_of_done hrun]
    exact hf a v l'
  · exact ⟨l', by rw [bind_of_panicked h, bind_of_panicked hrun]⟩
  · exact ⟨l', by rw [bind_of_abandoned h, bind_of_abandoned hrun]⟩

/-- Whatever is put together from waits and changes of the work's own state is deaf. -/
theorem deaf_closed (pace : Pace) : Act.Closed pace fun _ (x : Act σ _) => x.Deaf where
  done := deaf_pure
  panic := deaf_panic
  modifyOwn := deaf_modifyOwn
  sleep := deaf_sleep pace
  hang := deaf_hang pace
  bind := Deaf.bind

/-- An act under a deadline. -/
theorem Deaf.before {x : Act σ α} (hx : x.Deaf) (pace : Pace) (deadline : Nat) : (before pace deadline x).Deaf := fun w l => by
  obtain ⟨l', h⟩ := hx (w.setClock pace { w.clock pace with horizon := some (earlier (w.clock pace).horizon deadline) }) l
  refine ⟨l', ?_⟩
  simp only [Act.before, World.clock_relogged, World.setClock_relogged, h]
  rcases x _ with ⟨a | m | _, v⟩ <;> rfl

end Act

/-! ## Scripted work -/

namespace Job

variable {ε : Type}

theorem calls_relogged (j : Job σ ε α) (w : World σ) (l : List Event) : j.calls (w.relogged l) = j.calls w := by
  unfold calls tally Tally.finishedIn
  simp only [World.clock_relogged, World.own_relogged]

theorem next_relogged (j : Job σ ε α) (w : World σ) (l : List Event) : j.next (w.relogged l) = j.next w := by
  rw [next, next, calls_relogged]

theorem ending_relogged (j : Job σ ε α) (begun : Call ε α) (w : World σ) (l : List Event) :
    j.ending begun (w.relogged l) = j.ending begun w := by
  rw [ending, ending, next_relogged]

/-- Scripted work does not read what was reported. -/
theorem deaf (j : Job σ ε α) (pace : Pace) : (j.run pace).Deaf :=
  closed_run (Act.deaf_closed pace) j (Act.deaf_read j.next_relogged) fun begun => Act.deaf_read (j.ending_relogged begun)

end Job

end CallGuard

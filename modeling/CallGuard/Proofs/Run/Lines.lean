/-
The lines that a run tells of its policies (`World.lines`): what was reported of missed deadlines, of failures and of
new subscriptions, in order, each with its level, its message and its fields.

An act logs what goes with its result (`Act.Logs`) if it adds these lines and no others, and nothing at all unless it
comes back. Work that tells nothing of policies is quiet (`Act.Quiet`), as scripted work is (`Job.quiet`,
`Feed.quiet_poll`).
-/
import CallGuard.Proofs.Run.Waiting
import CallGuard.Proofs.Work.Closed
import CallGuard.Work.Course

namespace CallGuard

variable {σ ε α β γ : Type}

/-! ## Lines -/

/-- A line of the log. -/
structure Line where
  level : Level
  message : String
  fields : List (String × String)
deriving DecidableEq

namespace Event

/-- The line of an event. -/
def line (e : Event) : Line := ⟨e.level, e.message, e.fields⟩

/-- The event tells of a retry or of a missed deadline. -/
def ofPolicy : Event → Bool
  | timeoutExceeded .. | notRetryable .. | retrying .. | attemptsExhausted .. | resubscribing .. => true
  | fallingBack .. | registryBuilt .. | registryInstalled .. => false

end Event

namespace World

/-- What was told of retries and missed deadlines so far. -/
def lines (w : World σ) : List Line := (w.events.filter Event.ofPolicy).map Event.line

theorem lines_report (w : World σ) {e : Event} (h : e.ofPolicy = true) : (w.report e).lines = w.lines ++ [e.line] := by
  rw [lines, events_report, List.filter_append, List.map_append, List.filter_cons_of_pos h]
  rfl

@[simp] theorem lines_setClock (w : World σ) (pace : Pace) (c : Clock) : (w.setClock pace c).lines = w.lines := by
  rw [lines, events_setClock, lines]

@[simp] theorem lines_giveWay (w : World σ) (pace : Pace) : (w.giveWay pace).lines = w.lines := lines_setClock ..

end World

/-! ## Acts that tell of their results -/

/-- The lines of what an attempt comes to. -/
def failureLines (notice : ε → List Line) : Except ε α → List Line
  | .ok _ => []
  | .error e => notice e

/-- The lines that go with how an act ends. -/
def logged (f : α → List Line) : Ended α → List Line
  | .done a => f a
  | .panicked _ | .abandoned => []

namespace Act

/-- All that an act tells are the lines that go with its result. -/
def Logs (x : Act σ α) (f : α → List Line) : Prop := ∀ w, (x w).2.lines = w.lines ++ logged f (x w).1

/-- An act that tells nothing of policies. -/
def Quiet (x : Act σ α) : Prop := ∀ w, (x w).2.lines = w.lines

variable {x : Act σ α} {f : α → List Line} {w w' : World σ}

theorem Logs.of_done (hx : x.Logs f) {a : α} (h : x w = (.done a, w')) : w'.lines = w.lines ++ f a := by
  have hw := hx w
  rwa [h] at hw

theorem Quiet.of_eq (hx : x.Quiet) {ended : Ended α} (h : x w = (ended, w')) : w'.lines = w.lines := by
  have hw := hx w
  rwa [h] at hw

theorem Quiet.logs (hx : x.Quiet) : x.Logs fun _ => [] := fun w => by
  rw [hx w]
  cases (x w).1 <;> exact (List.append_nil _).symm

/-- The lines of a result that is changed afterwards. -/
theorem Logs.map (hx : x.Logs f) {g : α → β} {f' : β → List Line} (h : ∀ a, f' (g a) = f a) :
    (x >>= fun a => pure (g a)).Logs f' := fun w => by
  have hw := hx w
  rcases hrun : x w with ⟨a | m | _, v⟩ <;> rw [hrun] at hw
  · rw [bind_of_done hrun]
    exact hw.trans (congrArg (w.lines ++ ·) (h a).symm)
  · rw [bind_of_panicked hrun, hw]
    rfl
  · rw [bind_of_abandoned hrun, hw]
    rfl

theorem Logs.relabel {ρ κ : Type} {x : Act σ (Option (β × ρ))} {f : Option (β × ρ) → List Line} (hx : x.Logs f)
    {g : β → γ} {h : ρ → κ} {f' : Option (γ × κ) → List Line} (hf : ∀ o, f' (o.map fun p => (g p.1, h p.2)) = f o) :
    (relabel g h x).Logs f' := hx.map hf

/-! ## Quiet acts -/

theorem quiet_pure (a : α) : (pure a : Act σ α).Quiet := fun _ => rfl

theorem quiet_panic (m : String) : (panic m : Act σ α).Quiet := fun _ => rfl

theorem quiet_modifyOwn (f : σ → α × σ) : (modifyOwn f).Quiet := fun _ => rfl

theorem quiet_read (f : World σ → α) : (read f).Quiet := fun _ => rfl

theorem quiet_waitUntil (pace : Pace) (t : Option Nat) : (waitUntil pace t : Act σ Unit).Quiet := fun w => by
  unfold waitUntil
  split <;> exact w.lines_setClock pace _

theorem quiet_sleep (pace : Pace) (d : Duration) : (sleep pace d : Act σ Unit).Quiet := fun w =>
  quiet_waitUntil pace _ w

theorem quiet_hang (pace : Pace) : (hang pace : Act σ α).Quiet := fun w => quiet_waitUntil pace none w

theorem Quiet.bind {g : α → Act σ β} (hx : x.Quiet) (hg : ∀ a, (g a).Quiet) : (x >>= g).Quiet := fun w => by
  have hw := hx w
  rcases hrun : x w with ⟨a | m | _, v⟩ <;> rw [hrun] at hw
  · rw [bind_of_done hrun, hg a v, hw]
  · rw [bind_of_panicked hrun, hw]
  · rw [bind_of_abandoned hrun, hw]

theorem quiet_closed (pace : Pace) : Act.Closed pace fun _ (x : Act σ _) => x.Quiet where
  done := quiet_pure
  panic := quiet_panic
  modifyOwn := quiet_modifyOwn
  sleep := quiet_sleep pace
  hang := quiet_hang pace
  bind := Quiet.bind

/-- An act under a deadline. -/
theorem Quiet.before (hx : x.Quiet) (pace : Pace) (deadline : Nat) : (before pace deadline x).Quiet := fun w => by
  have h := hx (w.setClock pace { w.clock pace with horizon := some (earlier (w.clock pace).horizon deadline) })
  rw [World.lines_setClock] at h
  rw [Act.before]
  rcases hrun : x _ with ⟨a | m | _, v⟩ <;> rw [hrun] at h <;> simpa using h

end Act

/-! ## Scripted work -/

namespace Job

theorem quiet (j : Job σ ε α) (pace : Pace) : (j.run pace).Quiet :=
  closed_run (Act.quiet_closed pace) j (Act.quiet_read _) fun _ => Act.quiet_read _

@[simp] theorem lines_arrive (j : Job σ ε α) (pace : Pace) (course : Course) (t : Nat) (w : World σ) :
    (j.arrive pace course t w).lines = w.lines := World.lines_setClock ..

@[simp] theorem lines_finish (j : Job σ ε α) (w : World σ) : (j.finish w).lines = w.lines := rfl

@[simp] theorem lines_leave (j : Job σ ε α) (pace : Pace) (course : Course) (call : Call ε α) (w : World σ) :
    (j.leave pace course call w).lines = w.lines := by
  unfold leave
  split <;> rfl

end Job

namespace Feed

theorem quiet_subscribe (f : Feed ε α) (cell : Cell σ FeedTally) : (f.subscribe cell).Quiet :=
  Act.Quiet.bind (Act.quiet_modifyOwn _) fun _ => Act.Quiet.bind (Act.quiet_modifyOwn _) fun _ => Act.quiet_pure _

theorem quiet_poll (cell : Cell σ FeedTally) (p : List (Call ε α)) : (Feed.poll cell p).Quiet :=
  closed_poll (Act.quiet_closed .suspended) cell p

end Feed

end CallGuard

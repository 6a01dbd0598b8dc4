/-
Acts that only wait (`Act.Timed`): whoever waits long enough for such an act gets the same as who waits for
ever, and whoever does not leaves at the horizon. They can be put together from acts of this kind, so the
polls of a feed are such acts (`Feed.timed_poll`), and so are the calls of a job (`Job.timed_run`). Under a
deadline such an act is done exactly if it ends by the deadline (`before_of_inTime`, `before_of_late`).
-/
import CallGuard.Proofs.Timeout.Deadline
import CallGuard.Proofs.Work.Closed

namespace CallGuard

variable {σ α β : Type}

namespace World

/-- The world in which somebody waits for ever. -/
def unbounded (w : World σ) : World σ := { w with suspended := { w.suspended with horizon := none } }

theorem unbounded_within {w : World σ} (hp : w.Patient .suspended) (h : Nat) : (w.within h).unbounded = w := by
  have hor : w.suspended.horizon = none := hp
  simp only [within, unbounded, ← hor]

end World

namespace Act

/-- An act that comes to its end when its time has come, or never, and does not look at who waits for it. -/
structure Timed (x : Act σ α) : Prop where
  forward : ∀ w, w.now ≤ (x w).2.now
  horizon : ∀ w, (x w).2.suspended.horizon = w.suspended.horizon
  inTime : ∀ {w : World σ} {h : Nat}, w.Patient .suspended → (x w).1 ≠ .abandoned → (x w).2.now ≤ h →
    x (w.within h) = ((x w).1, (x w).2.within h)
  late : ∀ {w : World σ} {h : Nat}, w.Patient .suspended → w.now ≤ h →
    ((x w).1 ≠ .abandoned → h < (x w).2.now) → ∃ v, x (w.within h) = (.abandoned, v) ∧ v.now = h

theorem Timed.patient {x : Act σ α} (hx : x.Timed) {w : World σ} (hp : w.Patient .suspended) :
    (x w).2.Patient .suspended := (hx.horizon w).trans hp

/-- The act moves the clock forward. -/
def Forward (x : Act σ α) : Prop := ∀ w : World σ, w.Forward (x w).2

theorem Forward.of_eq {x : Act σ α} (hx : x.Forward) {w w' : World σ} {out : Ended α} (h : x w = (out, w')) :
    w.Forward w' := by
  have hrun := hx w
  rwa [h] at hrun

/-! ## What only waits -/

theorem timed_modifyOwn (f : σ → α × σ) : (modifyOwn f).Timed where
  forward _ := Nat.le_refl _
  horizon _ := rfl
  inTime _ _ _ := rfl
  late _ hle hlate := absurd (hlate nofun) (Nat.not_lt.2 hle)

theorem timed_pure (a : α) : (pure a : Act σ α).Timed where
  forward _ := Nat.le_refl _
  horizon _ := rfl
  inTime _ _ _ := rfl
  late _ hle hlate := absurd (hlate nofun) (Nat.not_lt.2 hle)

theorem timed_panic (m : String) : (panic m : Act σ α).Timed where
  forward _ := Nat.le_refl _
  horizon _ := rfl
  inTime _ _ _ := rfl
  late _ hle hlate := absurd (hlate nofun) (Nat.not_lt.2 hle)

/-- A wait for an instant that may have come already. -/
theorem waitUntil_of_le {w : World σ} {t : Nat} (hh : ∀ h, w.suspended.horizon = some h → t ≤ h) :
    waitUntil .suspended (some t) w = (.done (), w.moved w.own (max w.now t)) := by
  simp only [waitUntil, World.clock]
  cases hor : w.suspended.horizon with
  | none => simp only [Clock.wait, hor, World.setClock, World.moved, World.now]
  | some h =>
    have hin : t ≤ max w.suspended.now h := Nat.le_trans (hh h hor) (Nat.le_max_right _ _)
    simp only [Clock.wait, hor, if_pos hin, World.setClock, World.moved, World.now]

/-- A wait moves nothing but the clock, and only forward. -/
theorem waitUntil_moves (t : Option Nat) (w : World σ) :
    ∃ n, w.now ≤ n ∧ (waitUntil .suspended t w).2 = w.moved w.own n := by
  simp only [waitUntil, World.clock]
  cases hor : w.suspended.horizon with
  | none =>
    cases t with
    | none => exact ⟨w.now, Nat.le_refl _, by simp only [Clock.wait, hor]; rfl⟩
    | some t => exact ⟨max w.now t, Nat.le_max_left _ _, by
        simp only [Clock.wait, hor, World.setClock, World.moved, World.now]⟩
  | some h =>
    cases t with
    | none => exact ⟨max w.now h, Nat.le_max_left _ _, by
        simp only [Clock.wait, hor, World.setClock, World.moved, World.now]⟩
    | some t =>
      by_cases ht : t ≤ max w.suspended.now h
      · exact ⟨max w.now t, Nat.le_max_left _ _, by
          simp only [Clock.wait, hor, if_pos ht, World.setClock, World.moved, World.now]⟩
      · exact ⟨max w.now h, Nat.le_max_left _ _, by
          simp only [Clock.wait, hor, if_neg ht, World.setClock, World.moved, World.now]⟩

theorem hang_eq (w : World σ) : (hang .suspended : Act σ α) w = (.abandoned, (waitUntil .suspended none w).2) := rfl

theorem timed_hang : (hang .suspended : Act σ α).Timed where
  forward w := by
    obtain ⟨n, hn, hw⟩ := waitUntil_moves none w
    rw [hang_eq, hw]
    exact hn
  horizon w := by
    obtain ⟨n, -, hw⟩ := waitUntil_moves none w
    rw [hang_eq, hw, World.horizon_moved]
  inTime _ hends _ := absurd rfl hends
  late {w h} _ hle _ := ⟨_, hang_past (w := w.within h) rfl hle, rfl⟩

/-- A suspended wait is one for an instant, which is the same whoever waits. -/
theorem exists_sleep_eq (d : Duration) (w : World σ) : ∃ t, sleep .suspended d w = waitUntil .suspended (some t) w ∧
    ∀ h, sleep .suspended d (w.within h) = waitUntil .suspended (some t) (w.within h) :=
  ⟨_, rfl, fun _ => rfl⟩

theorem timed_sleep (d : Duration) : (sleep .suspended d : Act σ Unit).Timed where
  forward w := by
    obtain ⟨t, ht, -⟩ := exists_sleep_eq d w
    obtain ⟨n, hn, hw⟩ := waitUntil_moves (some t) w
    rw [ht, hw]
    exact hn
  horizon w := by
    obtain ⟨t, ht, -⟩ := exists_sleep_eq d w
    obtain ⟨n, -, hw⟩ := waitUntil_moves (some t) w
    rw [ht, hw, World.horizon_moved]
  inTime {w h} hp _ hle := by
    obtain ⟨t, ht, hwithin⟩ := exists_sleep_eq d w
    rw [ht, waitUntil_of_le hp.stays] at hle ⊢
    rw [hwithin]
    refine waitUntil_of_le (w := w.within h) fun h' hor => ?_
    cases hor
    exact Nat.le_trans (Nat.le_max_right _ _) hle
  late {w h} hp hle hlate := by
    obtain ⟨t, ht, hwithin⟩ := exists_sleep_eq d w
    rw [ht, waitUntil_of_le hp.stays] at hlate
    have hlt : h < max w.now t := hlate nofun
    have hpast : h < t := by omega
    exact ⟨_, (hwithin h).trans (waitUntil_past (w := w.within h) rfl hle hpast), rfl⟩

/-- One act after the other. -/
theorem Timed.bind {x : Act σ α} {f : α → Act σ β} (hx : x.Timed) (hf : ∀ a, (f a).Timed) : (x >>= f).Timed where
  forward w := by
    have hfirst := hx.forward w
    rcases hrun : x w with ⟨a | m | _, v⟩ <;> rw [hrun] at hfirst
    · rw [bind_of_done hrun]
      exact Nat.le_trans hfirst ((hf a).forward v)
    · rwa [bind_of_panicked hrun]
    · rwa [bind_of_abandoned hrun]
  horizon w := by
    have hfirst := hx.horizon w
    rcases hrun : x w with ⟨a | m | _, v⟩ <;> rw [hrun] at hfirst
    · rw [bind_of_done hrun]
      exact ((hf a).horizon v).trans hfirst
    · rwa [bind_of_panicked hrun]
    · rwa [bind_of_abandoned hrun]
  inTime {w h} hp hends hle := by
    have hfirst := hx.inTime (h := h) hp
    have hp' := hx.patient hp
    rcases hrun : x w with ⟨a | m | _, v⟩ <;> rw [hrun] at hfirst hp'
    · rw [bind_of_done hrun] at hends hle ⊢
      rw [bind_of_done (hfirst nofun (Nat.le_trans ((hf a).forward v) hle))]
      exact (hf a).inTime hp' hends hle
    · rw [bind_of_panicked hrun] at hle ⊢
      exact bind_of_panicked (hfirst nofun hle)
    · rw [bind_of_abandoned hrun] at hends
      exact absurd rfl hends
  late {w h} hp hle hlate := by
    by_cases hfirst : (x w).1 ≠ .abandoned → h < (x w).2.now
    · obtain ⟨v, hv, hnow⟩ := hx.late hp hle hfirst
      exact ⟨v, bind_of_abandoned hv, hnow⟩
    · -- The first act is over at the horizon, so it is the second one that is not.
      obtain ⟨hends, hnow⟩ := Classical.not_imp.1 hfirst
      have hin := hx.inTime hp hends (Nat.le_of_not_lt hnow)
      have hp' := hx.patient hp
      rcases hrun : x w with ⟨a | m | _, v⟩ <;> rw [hrun] at hin hends hnow hp'
      · rw [bind_of_done hrun] at hlate
        obtain ⟨u, hu, hnow'⟩ := (hf a).late hp' (Nat.le_of_not_lt hnow) hlate
        exact ⟨u, (bind_of_done hin).trans hu, hnow'⟩
      · rw [bind_of_panicked hrun] at hlate
        exact absurd (hlate nofun) hnow
      · exact absurd rfl hends

theorem timed_closed : Act.Closed .suspended fun _ (x : Act σ _) => x.Timed where
  done := timed_pure
  panic := timed_panic
  modifyOwn := timed_modifyOwn
  sleep := timed_sleep
  hang := timed_hang
  bind := Timed.bind

/-! ## What moves the clock forward -/

theorem forward_waitUntil (t : Option Nat) : Forward (σ := σ) (waitUntil .suspended t) := fun w => by
  obtain ⟨n, hn, hw⟩ := waitUntil_moves t w
  rw [hw]
  exact ⟨hn, World.instantLimit_moved ..⟩

theorem forward_sleep (d : Duration) : (sleep .suspended d : Act σ Unit).Forward := fun w => forward_waitUntil _ w

theorem Forward.bind {x : Act σ α} {f : α → Act σ β} (hx : x.Forward) (hf : ∀ a, (f a).Forward) : (x >>= f).Forward := by
  intro w
  rcases hrun : x w with ⟨a | m | _, v⟩ <;> have hv := hx.of_eq hrun
  · rw [bind_of_done hrun]
    exact hv.trans (hf a v)
  · rw [bind_of_panicked hrun]
    exact hv
  · rw [bind_of_abandoned hrun]
    exact hv

theorem forward_closed : Act.Closed .suspended fun _ (x : Act σ _) => x.Forward where
  done _ w := .refl w
  panic _ w := .refl w
  modifyOwn _ _ := ⟨Nat.le_refl _, rfl⟩
  sleep := forward_sleep
  hang w := by rw [hang_eq]; exact forward_waitUntil none w
  bind := Forward.bind

/-! ## Deadlines -/

section Before

variable {x : Act σ α} {w : World σ} {deadline : Nat}

theorem before_eq (hp : w.Patient .suspended) : before .suspended deadline x w =
    match x (w.within deadline) with
    | (.done a, v) => (.done (some a), v.unbounded)
    | (.panicked m, v) => (.panicked m, v.unbounded)
    | (.abandoned, v) => (.done none, v.unbounded) := by
  have hor : w.suspended.horizon = none := hp
  have hwithin : w.setClock .suspended { w.clock .suspended with horizon := some (earlier none deadline) } =
    w.within deadline := rfl
  simp only [before, World.clock, hor] at hwithin ⊢
  rw [hwithin]
  rcases x (w.within deadline) with ⟨_ | _ | _, _⟩ <;> rfl

/-- What ends by the deadline is done. -/
theorem before_of_inTime (hx : x.Timed) (hp : w.Patient .suspended) {a : α} {w' : World σ} (h : x w = (.done a, w'))
    (hle : w'.now ≤ deadline) : before .suspended deadline x w = (.done (some a), w') := by
  have hin := hx.inTime (h := deadline) hp
  have hp' := hx.patient hp
  rw [h] at hin hp'
  rw [before_eq hp, hin nofun hle]
  exact congrArg (Prod.mk _) (World.unbounded_within hp' deadline)

/-- So is a panic by the deadline. -/
theorem before_of_panicked (hx : x.Timed) (hp : w.Patient .suspended) {m : String} {w' : World σ}
    (h : x w = (.panicked m, w')) (hle : w'.now ≤ deadline) : before .suspended deadline x w = (.panicked m, w') := by
  have hin := hx.inTime (h := deadline) hp
  have hp' := hx.patient hp
  rw [h] at hin hp'
  rw [before_eq hp, hin nofun hle]
  exact congrArg (Prod.mk _) (World.unbounded_within hp' deadline)

/-- What does not end by the deadline is dropped there. -/
theorem before_of_late (hx : x.Timed) (hp : w.Patient .suspended) (hle : w.now ≤ deadline)
    (h : (x w).1 ≠ .abandoned → deadline < (x w).2.now) :
    ∃ v, before .suspended deadline x w = (.done none, v) ∧ v.now = deadline := by
  obtain ⟨v, hv, hnow⟩ := hx.late hp hle h
  refine ⟨v.unbounded, ?_, hnow⟩
  rw [before_eq hp, hv]

end Before

end Act

/-! ## Scripted work -/

section Script

variable {ε : Type}

namespace Feed

/-- The polls of a feed only wait. -/
theorem timed_poll (cell : Cell σ FeedTally) (p : List (Call ε α)) : (poll cell p).Timed :=
  closed_poll Act.timed_closed cell p

end Feed

/-- A job whose calls are numbered when they begin only waits. -/
theorem Job.timed_run (script : Nat → Call ε α) (cell : Cell σ Tally) :
    (Job.run ⟨⟨.starts, script⟩, cell⟩ .suspended).Timed :=
  Job.closed_run_starts Act.timed_closed script cell

theorem Job.forward_run (script : Nat → Call ε α) (cell : Cell σ Tally) :
    (Job.run ⟨⟨.starts, script⟩, cell⟩ .suspended).Forward :=
  Job.closed_run_starts Act.forward_closed script cell

end Script

end CallGuard

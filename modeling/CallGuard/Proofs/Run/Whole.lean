/-
Time as suspended work lives through it: acts move the clock forward, leave it on a whole millisecond and change
nothing about which instants there are (`World.Onward`, `Act.Steady`). Waits do so, so whatever is put together from waits does (`steady_closed`), and so does
work under a time limit, which ends with the work or at a deadline rounded up to a whole millisecond. A wait that comes
to its end takes its own length (`sleep_takes`).
-/
import CallGuard.Guard.Site
import CallGuard.Proofs.Run.Waiting
import CallGuard.Proofs.Timeout.Gap
import CallGuard.Proofs.Work.Closed

namespace CallGuard

variable {σ ρ κ ε α β γ : Type}

/-- The suspended clock stands on a whole millisecond, and so does its horizon. -/
structure World.Whole (w : World σ) : Prop where
  now : OnTick w.now
  horizon : ∀ h, w.suspended.horizon = some h → OnTick h

theorem World.Whole.reports {w : World σ} (h : w.Whole) (l : List Event) : (l.foldl World.report w).Whole := by
  induction l generalizing w with
  | nil => exact h
  | cons e l ih => exact ih ⟨h.now, h.horizon⟩

/-- A world that comes after another one, on a whole millisecond. -/
structure World.Onward (w v : World σ) : Prop extends w.Forward v where
  whole : v.Whole

namespace World

variable {u v w : World σ}

theorem Whole.onward (h : w.Whole) : w.Onward w := ⟨.refl w, h⟩

theorem Onward.trans (h : u.Onward v) (h' : v.Onward w) : u.Onward w := ⟨h.toForward.trans h'.toForward, h'.whole⟩

theorem Onward.reports (h : w.Onward v) (l : List Event) : w.Onward (l.foldl World.report v) :=
  ⟨h.toForward.reports l, h.whole.reports l⟩

theorem Onward.report (h : w.Onward v) (e : Event) : w.Onward (v.report e) := h.reports [e]

end World

namespace Act

/-- The act moves the clock forward, from whole milliseconds to whole milliseconds. -/
def Steady (x : Act σ α) : Prop := ∀ w : World σ, w.Whole → w.Onward (x w).2

theorem Steady.of_eq {x : Act σ α} (hx : x.Steady) {w w' : World σ} {out : Ended α} (h : x w = (out, w'))
    (hw : w.Whole) : w.Onward w' := by
  have hrun := hx w hw
  rwa [h] at hrun

end Act

/-! ## Waits -/

/-- A wait ends at its instant, at the horizon, or right away. -/
theorem Clock.wait_ends (c : Clock) (t : Option Nat) : ∃ n,
    (c.wait t = .woken { c with now := n } ∨ c.wait t = .abandoned { c with now := n }) ∧
    (n = c.now ∨ t = some n ∨ c.horizon = some n) ∧ c.now ≤ n := by
  unfold wait
  split
  · rename_i t _
    exact ⟨max c.now t, .inl rfl, by grind, Nat.le_max_left _ _⟩
  · exact ⟨c.now, .inr rfl, .inl rfl, Nat.le_refl _⟩
  · rename_i h t hor
    split
    · exact ⟨max c.now t, .inl rfl, by grind, Nat.le_max_left _ _⟩
    · exact ⟨max c.now h, .inr rfl, by grind, Nat.le_max_left _ _⟩
  · rename_i h hor
    exact ⟨max c.now h, .inr rfl, by grind, Nat.le_max_left _ _⟩

theorem Clock.now_woken {c c' : Clock} {t : Nat} (h : c.wait (some t) = .woken c') : c'.now = max c.now t := by
  cases hor : c.horizon with
  | none =>
    simp only [wait, hor] at h
    cases h
    rfl
  | some b =>
    simp only [wait, hor] at h
    split at h <;> cases h
    rfl

namespace Act

theorem waitUntil_ends (t : Option Nat) (w : World σ) : ∃ n, (waitUntil .suspended t w).2 = w.moved w.own n ∧
    (n = w.now ∨ t = some n ∨ w.suspended.horizon = some n) ∧ w.now ≤ n := by
  obtain ⟨n, hwait | hwait, hn⟩ := w.suspended.wait_ends t
  · exact ⟨n, by rw [waitUntil, World.clock, hwait]; rfl, hn⟩
  · exact ⟨n, by rw [waitUntil, World.clock, hwait]; rfl, hn⟩

theorem steady_waitUntil {t : Option Nat} {w : World σ} (ht : ∀ n, t = some n → OnTick n) (hw : w.Whole) :
    w.Onward (waitUntil .suspended t w).2 := by
  obtain ⟨n, heq, hn, hle⟩ := waitUntil_ends t w
  rw [heq]
  refine ⟨⟨hle, World.instantLimit_moved ..⟩, ?_, hw.horizon⟩
  rcases hn with rfl | hn | hn
  · exact hw.now
  · exact ht n hn
  · exact hw.horizon n hn

theorem steady_sleep (d : Duration) : (sleep .suspended d : Act σ Unit).Steady := fun _ =>
  steady_waitUntil fun _ h => Option.some.inj h ▸ onTick_tick _

theorem steady_hang : (hang .suspended : Act σ α).Steady := fun _ => steady_waitUntil (t := none) nofun

/-- A wait that somebody waits for ends when its time is over. -/
theorem sleep_takes {w w' : World σ} {d : Duration} (hw : w.Whole) (h : sleep .suspended d w = (.done (), w')) :
    w'.now = w.now + suspension w.instantLimit w.now d := by
  rw [sleep_eq_waitUntil hw.now, waitUntil, World.clock] at h
  rcases hwait : w.suspended.wait (some (w.now + suspension w.instantLimit w.now d)) with c | c <;>
    rw [hwait] at h <;> cases h
  exact (Clock.now_woken hwait).trans (Nat.max_eq_right (Nat.le_add_right _ _))

/-! ## Acts put together -/

theorem steady_pure (a : α) : (pure a : Act σ α).Steady := fun _ hw => hw.onward

theorem steady_panic (m : String) : (panic m : Act σ α).Steady := fun _ hw => hw.onward

theorem steady_modifyOwn (f : σ → α × σ) : (modifyOwn f).Steady := fun _ hw =>
  ⟨⟨Nat.le_refl _, rfl⟩, hw.now, hw.horizon⟩

theorem Steady.bind {x : Act σ α} {f : α → Act σ β} (hx : x.Steady) (hf : ∀ a, (f a).Steady) : (x >>= f).Steady := by
  intro w hw
  rcases hrun : x w with ⟨a | m | _, v⟩ <;> have hv := hx.of_eq hrun hw
  · rw [bind_of_done hrun]
    exact hv.trans (hf a v hv.whole)
  · rw [bind_of_panicked hrun]
    exact hv
  · rw [bind_of_abandoned hrun]
    exact hv

theorem steady_closed : Act.Closed .suspended fun _ (x : Act σ _) => x.Steady where
  done := steady_pure
  panic := steady_panic
  modifyOwn := steady_modifyOwn
  sleep := steady_sleep
  hang := steady_hang
  bind := Steady.bind

/-! ## Deadlines -/

theorem Steady.before {x : Act σ α} (hx : x.Steady) {deadline : Nat} {w : World σ} (hd : OnTick deadline) (hw : w.Whole) :
    w.Onward (before .suspended deadline x w).2 := by
  have hwithin : World.Whole (w.setClock .suspended { w.clock .suspended with
      horizon := some (earlier (w.clock .suspended).horizon deadline) }) := by
    refine ⟨hw.now, fun h hh => ?_⟩
    cases hh
    cases hor : w.suspended.horizon with
    | none =>
      simp only [World.clock, hor]
      exact hd
    | some b =>
      simp only [World.clock, hor, earlier]
      have hb := hw.horizon b hor
      rcases Nat.le_total b deadline with hle | hle
      · rwa [Nat.min_eq_left hle]
      · rwa [Nat.min_eq_right hle]
  simp only [Act.before]
  rcases hrun : x _ with ⟨a | m | _, v⟩ <;> have hv := hx.of_eq hrun hwithin <;>
    exact ⟨⟨hv.le, hv.limit⟩, hv.whole.now, hw.horizon⟩

end Act

/-! ## Limits and call sites -/

theorem TimeLimit.steady_run (t : TimeLimit) {work : Act σ (Except ε α)} (hwork : work.Steady) : (t.run work).Steady := by
  intro w hw
  have hbefore := hwork.before (onTick_tick (t.due w.instantLimit w.now)) hw
  rcases hrun : t.run work w with ⟨out, v⟩
  cases runsTo.2 hrun with
  | missed limited =>
    rw [limited] at hbefore
    exact hbefore.report _
  | kept _ limited =>
    rw [limited] at hbefore
    exact hbefore

theorem TimeLimit.steady_poll (t : TimeLimit) {producer : Poll σ ρ (Except ε α)} (hp : ∀ p, (producer p).Steady)
    (g : Gap ρ) : (t.poll producer g).Steady := by
  intro w hw
  have hbefore p := (hp p).before (onTick_tick (t.gapEnd g w)) hw
  rcases hpoll : t.poll producer g w with ⟨out, v⟩
  cases pollsTo hpoll with
  | dropped _ | overflow _ _ => exact hw.onward
  | late _ _ => exact hw.onward.report _
  | @missed p _ _ _ limited =>
    have hv := hbefore p
    rw [limited] at hv
    exact hv.report _
  | @answered p _ _ _ _ limited =>
    have hv := hbefore p
    rw [limited] at hv
    exact hv

theorem steady_relabel (f : β → γ) (g : ρ → κ) {x : Act σ (Option (β × ρ))} (hx : x.Steady) :
    (relabel f g x).Steady :=
  hx.bind fun _ => Act.steady_pure _

namespace Guards

theorem steady_attempt (g : Guards) {work : Act σ (Except ε α)} (hwork : work.Steady) : (g.attempt work).Steady := by
  unfold attempt
  split
  · rename_i t _
    exact t.steady_run hwork
  · exact hwork.bind fun _ => Act.steady_pure _

theorem steady_subscribe (g : Guards) {source : Source σ ρ (Except ε α)} (hs : source.subscribe.Steady) :
    (g.attempts source).subscribe.Steady :=
  hs.bind fun _ => Act.steady_pure _

theorem steady_poll (g : Guards) {source : Source σ ρ (Except ε α)} (hp : ∀ p, (source.poll p).Steady) (p : Watched ρ) :
    ((g.attempts source).poll p).Steady := by
  cases p with
  | bare p => exact steady_relabel _ _ (hp p)
  | timed t gap => exact steady_relabel _ _ (t.steady_poll hp gap)

end Guards

end CallGuard

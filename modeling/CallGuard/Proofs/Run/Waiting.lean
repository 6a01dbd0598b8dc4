/-
Waiting in a world that nobody gives up on. A wait of a patient caller always ends (`sleep_of_patient`),
at the first instant its pace wakes at, and leaves everything but the clock as it was. A wait that begins on
a whole millisecond takes its own length rounded up (`suspension_of_lt`), unless its end is no instant.
-/
import CallGuard.Run.Act

namespace CallGuard

/-! ## Whole milliseconds -/

/-- An instant at which suspended work stands: a whole number of milliseconds. -/
def OnTick (t : Nat) : Prop := t % 1000000 = 0

theorem onTick_tick (t : Nat) : OnTick (tick t) := by unfold OnTick tick; omega

theorem tick_eq_self {t : Nat} (h : OnTick t) : tick t = t := by unfold OnTick at h; unfold tick; omega

theorem tick_add {s : Nat} (h : OnTick s) (t : Nat) : tick (s + t) = s + tick t := by
  unfold OnTick at h; unfold tick; omega

theorem OnTick.add {s t : Nat} (hs : OnTick s) (ht : OnTick t) : OnTick (s + t) := by
  unfold OnTick at *; omega

/-- The nanoseconds of a duration, up to a whole millisecond. -/
def Duration.roundedUp (d : Duration) : Nat := tick d.nanos

theorem Duration.onTick_roundedUp (d : Duration) : OnTick d.roundedUp := onTick_tick _

/-- Whole milliseconds are what they say. -/
theorem Duration.roundedUp_ofMillis {n : Nat} (h : n * 1000000 ≤ longestNanos) :
    (Duration.ofMillis n).roundedUp = n * 1000000 := by
  have hn : (Duration.ofMillis n).nanos = n * 1000000 := Nat.min_eq_left h
  rw [roundedUp, hn, tick_eq_self (Nat.mul_mod_left _ _)]

/-- How long a wait takes, up to a whole millisecond, if there is one. -/
def pauseFor (wait : Option Duration) : Nat := (wait.map Duration.roundedUp).getD 0

theorem pauseFor_none : pauseFor none = 0 := by rw [pauseFor, Option.map_none, Option.getD_none]

theorem pauseFor_some (d : Duration) : pauseFor (some d) = d.roundedUp := by
  rw [pauseFor, Option.map_some, Option.getD_some]

/-- How long a suspended wait takes that begins on a whole millisecond. -/
@[irreducible] def suspension (limit now : Nat) (d : Duration) : Nat :=
  if now + d.nanos < limit then d.roundedUp else tick farFuture

theorem onTick_suspension (limit now : Nat) (d : Duration) : OnTick (suspension limit now d) := by
  rw [suspension]
  split
  · exact d.onTick_roundedUp
  · exact onTick_tick _

/-- A wait whose end is an instant takes its own length, up to a whole millisecond. -/
theorem suspension_of_lt {limit now : Nat} {d : Duration} (h : now + d.nanos < limit) :
    suspension limit now d = d.roundedUp := by
  rw [suspension, if_pos h]

/-- A shorter wait is over first, if it ends in thirty years whatever the instants. -/
theorem suspension_mono {d e : Duration} (h : d.nanos ≤ e.nanos) (hshort : d.nanos ≤ farFuture) (limit now : Nat) :
    suspension limit now d ≤ suspension limit now e := by
  rw [suspension, suspension]
  split <;> split
  · exact tick_mono h
  · exact tick_mono hshort
  · omega
  · exact Nat.le_refl _

theorem wake_instantAfter {s : Nat} (h : OnTick s) (limit : Nat) (d : Duration) :
    tick (Pace.suspended.instantAfter limit s d) = s + suspension limit s d := by
  rw [suspension]
  split
  · rename_i hlt
    rw [Pace.instantAfter_of_lt _ hlt]
    exact tick_add h _
  · rename_i hle
    rw [Pace.instantAfter, instantAfter?_of_le (Nat.le_of_not_lt hle), Option.getD_none]
    exact tick_add h _

/-! ## Worlds -/

namespace World

variable {σ : Type}

/-- Nobody gives up on what waits at a pace. -/
def Patient (pace : Pace) (w : World σ) : Prop := (w.clock pace).horizon = none

@[simp] theorem dice_setClock (w : World σ) (pace : Pace) (c : Clock) : (w.setClock pace c).dice = w.dice := by
  cases pace <;> rfl

@[simp] theorem instantLimit_setClock (w : World σ) (pace : Pace) (c : Clock) :
    (w.setClock pace c).instantLimit = w.instantLimit := by
  cases pace <;> rfl

@[simp] theorem instantLimit_report (w : World σ) (e : Event) : (w.report e).instantLimit = w.instantLimit := rfl

@[simp] theorem dice_report (w : World σ) (e : Event) : (w.report e).dice = w.dice := rfl

@[simp] theorem own_report (w : World σ) (e : Event) : (w.report e).own = w.own := rfl

@[simp] theorem own_reports (l : List Event) (w : World σ) : (l.foldl World.report w).own = w.own := by
  induction l generalizing w with
  | nil => rfl
  | cons e l ih => exact ih (w.report e)

@[simp] theorem now_reports (l : List Event) (w : World σ) : (l.foldl World.report w).now = w.now := by
  induction l generalizing w with
  | nil => rfl
  | cons e l ih => exact ih (w.report e)

@[simp] theorem instantLimit_reports (l : List Event) (w : World σ) :
    (l.foldl World.report w).instantLimit = w.instantLimit := by
  induction l generalizing w with
  | nil => rfl
  | cons e l ih => exact ih (w.report e)

/-- Who waits to the end leaves at no instant. -/
theorem Patient.stays {w : World σ} (hp : w.Patient .suspended) {p : Nat → Prop} (h : Nat)
    (hor : w.suspended.horizon = some h) : p h := by
  have hnone : w.suspended.horizon = none := hp
  rw [hnone] at hor
  cases hor

/-- A world that comes after another one: the clock has not gone back, and the instants are the same. -/
structure Forward (w v : World σ) : Prop where
  le : w.now ≤ v.now
  limit : v.instantLimit = w.instantLimit

theorem Forward.refl (w : World σ) : w.Forward w := ⟨Nat.le_refl _, rfl⟩

theorem Forward.trans {u v w : World σ} (h : u.Forward v) (h' : v.Forward w) : u.Forward w :=
  ⟨Nat.le_trans h.le h'.le, h'.limit.trans h.limit⟩

theorem Forward.reports {w v : World σ} (h : w.Forward v) (l : List Event) : w.Forward (l.foldl World.report v) :=
  ⟨by rw [now_reports]; exact h.le, by rw [instantLimit_reports]; exact h.limit⟩

theorem patient_report {pace : Pace} {w : World σ} {e : Event} (h : w.Patient pace) :
    (w.report e).Patient pace := by
  unfold Patient at *; rwa [clock_report]

/-- The world in which suspended work stands at an instant, with another state of its own. -/
def moved (w : World σ) (s : σ) (t : Nat) : World σ :=
  { w with own := s, suspended := { w.suspended with now := t } }

@[simp] theorem own_moved (w : World σ) (s : σ) (t : Nat) : (w.moved s t).own = s := rfl

@[simp] theorem now_moved (w : World σ) (s : σ) (t : Nat) : (w.moved s t).now = t := rfl

@[simp] theorem dice_moved (w : World σ) (s : σ) (t : Nat) : (w.moved s t).dice = w.dice := rfl

@[simp] theorem instantLimit_moved (w : World σ) (s : σ) (t : Nat) :
    (w.moved s t).instantLimit = w.instantLimit := rfl

@[simp] theorem events_moved (w : World σ) (s : σ) (t : Nat) : (w.moved s t).events = w.events := rfl

@[simp] theorem horizon_moved (w : World σ) (s : σ) (t : Nat) :
    (w.moved s t).suspended.horizon = w.suspended.horizon := rfl

@[simp] theorem moved_moved (w : World σ) (s s' : σ) (t t' : Nat) : (w.moved s t).moved s' t' = w.moved s' t' := rfl

theorem onTick_moved {t : Nat} (h : OnTick t) (w : World σ) (s : σ) : OnTick (w.moved s t).now := h

theorem patient_moved {w : World σ} (h : w.Patient .suspended) (s : σ) (t : Nat) :
    (w.moved s t).Patient .suspended := h

end World

/-! ## Sleeping -/

namespace Act

variable {σ α β : Type}

theorem bind_of_done {x : Act σ α} {f : α → Act σ β} {w w' : World σ} {a : α} (h : x w = (.done a, w')) :
    (x >>= f) w = f a w' := by
  show Act.bind x f w = _
  rw [Act.bind, h]

theorem bind_of_abandoned {x : Act σ α} {f : α → Act σ β} {w w' : World σ} (h : x w = (.abandoned, w')) :
    (x >>= f) w = (.abandoned, w') := by
  show Act.bind x f w = _
  rw [Act.bind, h]

theorem bind_of_panicked {x : Act σ α} {f : α → Act σ β} {w w' : World σ} {m : String} (h : x w = (.panicked m, w')) :
    (x >>= f) w = (.panicked m, w') := by
  show Act.bind x f w = _
  rw [Act.bind, h]

/-- Before an act that is bound to another one is done, both are. -/
theorem of_bind_done {x : Act σ α} {f : α → Act σ β} {w w' : World σ} {b : β} (h : (x >>= f) w = (.done b, w')) :
    ∃ a v, x w = (.done a, v) ∧ f a v = (.done b, w') := by
  change Act.bind x f w = _ at h
  unfold Act.bind at h
  rcases hx : x w with ⟨a | m | _, v⟩ <;> rw [hx] at h
  · exact ⟨a, v, rfl, h⟩
  · cases h
  · cases h

theorem waitUntil_of_patient {pace : Pace} {w : World σ} (h : w.Patient pace) (t : Nat) :
    waitUntil pace (some t) w =
      (.done (), w.setClock pace { w.clock pace with now := max (w.clock pace).now t }) := by
  unfold World.Patient at h
  simp only [waitUntil, Clock.wait, h]

theorem sleep_of_patient {pace : Pace} {w : World σ} (h : w.Patient pace) (d : Duration) :
    sleep pace d w = (.done (), w.setClock pace { w.clock pace with
      now := max (w.clock pace).now (pace.wake (pace.instantAfter w.instantLimit (w.clock pace).now d)) }) :=
  waitUntil_of_patient h _

/-- A suspended wait for an instant that somebody waits for. -/
theorem waitUntil_within {w : World σ} {t : Nat} (hle : w.now ≤ t)
    (hh : ∀ h, w.suspended.horizon = some h → t ≤ h) :
    waitUntil .suspended (some t) w = (.done (), w.moved w.own t) := by
  have hmax : max w.suspended.now t = t := Nat.max_eq_right hle
  simp only [waitUntil, World.clock]
  cases hor : w.suspended.horizon with
  | none => simp only [Clock.wait, hor, hmax, World.setClock, World.moved]
  | some h =>
    have hin : t ≤ max w.suspended.now h := Nat.le_trans (hh h hor) (Nat.le_max_right _ _)
    simp only [Clock.wait, hor, if_pos hin, hmax, World.setClock, World.moved]

/-- A suspended wait for an instant past the horizon. -/
theorem waitUntil_past {w : World σ} {t h : Nat} (hor : w.suspended.horizon = some h) (hle : w.now ≤ h)
    (hlt : h < t) : waitUntil .suspended (some t) w = (.abandoned, w.moved w.own h) := by
  have hmax : max w.suspended.now h = h := Nat.max_eq_right hle
  simp only [waitUntil, World.clock, Clock.wait, hor, hmax, if_neg (Nat.not_le.2 hlt), World.setClock, World.moved]

/-- A suspended wait that begins on a whole millisecond is one for the end of its length. -/
theorem sleep_eq_waitUntil {w : World σ} (ht : OnTick w.now) (d : Duration) :
    sleep .suspended d w = waitUntil .suspended (some (w.now + suspension w.instantLimit w.now d)) w := by
  have hw : Pace.suspended.wake (Pace.suspended.instantAfter w.instantLimit (w.clock .suspended).now d) = _ :=
    wake_instantAfter ht w.instantLimit d
  rw [sleep, hw]

/-- A suspended wait that begins on a whole millisecond, and that somebody waits for to its end. -/
theorem sleep_within {w : World σ} (ht : OnTick w.now) (d : Duration)
    (hh : ∀ h, w.suspended.horizon = some h → w.now + suspension w.instantLimit w.now d ≤ h) :
    sleep .suspended d w = (.done (), w.moved w.own (w.now + suspension w.instantLimit w.now d)) := by
  rw [sleep_eq_waitUntil ht]
  exact waitUntil_within (Nat.le_add_right _ _) hh

/-- A suspended wait that passes the horizon. -/
theorem sleep_past {w : World σ} {h : Nat} (ht : OnTick w.now) (d : Duration) (hor : w.suspended.horizon = some h)
    (hle : w.now ≤ h) (hlt : h < w.now + suspension w.instantLimit w.now d) :
    sleep .suspended d w = (.abandoned, w.moved w.own h) := by
  rw [sleep_eq_waitUntil ht]
  exact waitUntil_past hor hle hlt

/-- Who hangs is there until the horizon. -/
theorem hang_past {w : World σ} {h : Nat} (hor : w.suspended.horizon = some h) (hle : w.now ≤ h) :
    (hang .suspended : Act σ α) w = (.abandoned, w.moved w.own h) := by
  have hmax : max w.suspended.now h = h := Nat.max_eq_right hle
  simp only [hang, waitUntil, World.clock, Clock.wait, hor, hmax, World.setClock, World.moved]

end Act

end CallGuard

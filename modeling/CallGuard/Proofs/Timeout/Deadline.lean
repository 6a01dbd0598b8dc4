/-
Suspended work in place under a deadline. Work whose latency is known (`Takes`) comes to its own outcome
as long as the latency does not pass the first whole millisecond at or after the duration of the limit,
and misses the deadline otherwise, at exactly that millisecond (`TimeLimit.run_takes`). Of work and
deadline at one instant the work comes first. Latencies and deadlines are taken for what they say as long as
their ends are instants (`TimeLimit.Representable`).
-/
import CallGuard.Proofs.Run.Waiting
import CallGuard.Run.Poll
import CallGuard.Timeout.Limit

namespace CallGuard

variable {σ ε α : Type}

/-! ## Work with latencies -/

namespace World

/-- The world in which nobody waits past a deadline. -/
def within (w : World σ) (deadline : Nat) : World σ :=
  { w with suspended := { w.suspended with horizon := some deadline } }

/-- After the deadline somebody waits again. -/
theorem setClock_within {w : World σ} (hor : w.suspended.horizon = none) (deadline : Nat) (s : σ) (t : Nat) :
    ((w.within deadline).moved s t).setClock .suspended
      { ((w.within deadline).moved s t).suspended with horizon := none } = w.moved s t := by
  simp only [within, moved, setClock, hor]

end World

/-- Work whose calls are counted in the state that it keeps, and of which the latency and the outcome of
each call are known. A call whose end is an instant ends at the first whole millisecond at or after its latency;
one without a latency hangs. Where nobody waits that long, a call is dropped at the horizon. -/
structure Takes (work : Act σ (Except ε α)) (calls : σ → Nat) (latency : Nat → Option Nat)
    (outcome : Nat → Except ε α) : Prop where
  ends : ∀ {w : World σ} {l : Nat}, OnTick w.now → latency (calls w.own + 1) = some l → w.now + l < w.instantLimit →
    (∀ h, w.suspended.horizon = some h → w.now + tick l ≤ h) →
    ∃ s, work w = (.done (outcome (calls w.own + 1)), w.moved s (w.now + tick l)) ∧ calls s = calls w.own + 1
  drops : ∀ {w : World σ} {h : Nat}, OnTick w.now → w.suspended.horizon = some h → w.now ≤ h →
    (∀ l, latency (calls w.own + 1) = some l → w.now + l < w.instantLimit ∧ h < w.now + tick l) →
    ∃ s, work w = (.abandoned, w.moved s h) ∧ calls s = calls w.own + 1

/-! ## Deadlines -/

section Before

variable {w : World σ} {deadline t : Nat} {x : Act σ α} {s : σ}

theorem before_of_done {a : α} (hp : w.Patient .suspended)
    (h : x (w.within deadline) = (.done a, (w.within deadline).moved s t)) :
    Act.before .suspended deadline x w = (.done (some a), w.moved s t) := by
  have hor : w.suspended.horizon = none := hp
  have hx : x (w.setClock .suspended { w.suspended with horizon := some deadline }) = _ := h
  simp only [Act.before, World.clock, hor, earlier, hx]
  exact congrArg (Prod.mk _) (World.setClock_within hor deadline s t)

theorem before_of_dropped (hp : w.Patient .suspended)
    (h : x (w.within deadline) = (.abandoned, (w.within deadline).moved s t)) :
    Act.before .suspended deadline x w = (.done none, w.moved s t) := by
  have hor : w.suspended.horizon = none := hp
  have hx : x (w.setClock .suspended { w.suspended with horizon := some deadline }) = _ := h
  simp only [Act.before, World.clock, hor, earlier, hx]
  exact congrArg (Prod.mk _) (World.setClock_within hor deadline s t)

end Before

namespace TimeLimit

/-- The deadline of suspended work that begins now is an instant. -/
def Representable (t : TimeLimit) (limit now : Nat) : Prop := now + t.duration.nanos < limit

instance (t : TimeLimit) (limit now : Nat) : Decidable (t.Representable limit now) :=
  inferInstanceAs (Decidable (now + t.duration.nanos < limit))

theorem Representable.mono {t : TimeLimit} {limit m n : Nat} (h : t.Representable limit n) (hle : m ≤ n) :
    t.Representable limit m :=
  Nat.lt_of_le_of_lt (Nat.add_le_add_right hle _) h

theorem Representable.due_eq {t : TimeLimit} {limit now : Nat} (h : t.Representable limit now) :
    t.due limit now = now + t.duration.nanos := Pace.instantAfter_of_lt _ h

/-- How long work may take that begins in a world. -/
def reach (t : TimeLimit) (w : World σ) : Nat := suspension w.instantLimit w.now t.duration

theorem onTick_reach (t : TimeLimit) (w : World σ) : OnTick (t.reach w) := onTick_suspension ..

/-- From a whole millisecond on, the deadline is as far away as the work may reach. -/
theorem tick_due (t : TimeLimit) {w : World σ} (h : OnTick w.now) :
    tick (t.due w.instantLimit w.now) = w.now + t.reach w := wake_instantAfter h ..

/-- If its deadline is an instant, work may take the duration of the limit, up to a whole millisecond. -/
theorem Representable.reach_eq {t : TimeLimit} {w : World σ} (h : t.Representable w.instantLimit w.now) :
    t.reach w = t.duration.roundedUp := suspension_of_lt h

/-- What an attempt comes to under a limit. -/
def verdict (t : TimeLimit) (outcome : Except ε α) : Option Nat → Except (TimeoutError ε) α
  | some l => if l ≤ t.duration.roundedUp then mapError .inner outcome else .error t.error
  | none => .error t.error

theorem verdict_of_le {t : TimeLimit} {l : Nat} (h : l ≤ t.duration.roundedUp) (outcome : Except ε α) :
    t.verdict outcome (some l) = mapError .inner outcome := by
  rw [verdict, if_pos h]

theorem verdict_of_lt {t : TimeLimit} {latency : Option Nat} (h : ∀ l, latency = some l → t.duration.roundedUp < l)
    (outcome : Except ε α) : t.verdict outcome latency = .error t.error := by
  cases latency with
  | none => rw [verdict]
  | some l => rw [verdict, if_neg (Nat.not_le.2 (h l rfl))]

/-- How long an attempt lasts under a limit. -/
def span (t : TimeLimit) : Option Nat → Nat
  | some l => min (tick l) t.duration.roundedUp
  | none => t.duration.roundedUp

theorem span_of_le {t : TimeLimit} {l : Nat} (h : tick l ≤ t.duration.roundedUp) : t.span (some l) = tick l := by
  rw [span, Nat.min_eq_left h]

theorem span_of_lt {t : TimeLimit} {latency : Option Nat} (h : ∀ l, latency = some l → t.duration.roundedUp < l) :
    t.span latency = t.duration.roundedUp := by
  cases latency with
  | none => rw [span]
  | some l => rw [span, Nat.min_eq_right (Nat.le_trans (Nat.le_of_lt (h l rfl)) (le_tick l))]

theorem span_le (t : TimeLimit) (latency : Option Nat) : t.span latency ≤ t.duration.roundedUp := by
  cases latency with
  | none => exact Nat.le_refl t.duration.roundedUp
  | some l => rw [span]; exact Nat.min_le_right _ _

/-- A latency stays within the limit exactly if its last millisecond does. -/
theorem tick_le_roundedUp (t : TimeLimit) {l : Nat} : tick l ≤ t.duration.roundedUp ↔ l ≤ t.duration.roundedUp := by
  refine ⟨Nat.le_trans (le_tick l), fun h => ?_⟩
  rw [← tick_eq_self t.duration.onTick_roundedUp]
  exact tick_mono h

theorem onTick_span (t : TimeLimit) (latency : Option Nat) : OnTick (t.span latency) := by
  cases latency with
  | none => rw [span]; exact t.duration.onTick_roundedUp
  | some l =>
    rcases Nat.le_total (tick l) t.duration.roundedUp with h | h
    · rw [span, Nat.min_eq_left h]; exact onTick_tick l
    · rw [span, Nat.min_eq_right h]; exact t.duration.onTick_roundedUp

/-- An attempt has a deadline of its own: it misses the deadline exactly if its latency passes it, then at
the deadline, and otherwise comes to its own outcome in its own time. -/
structure OwnDeadline (t : TimeLimit) (latency : Option Nat) (outcome : Except ε α)
    (verdict : Except (TimeoutError ε) α) (span : Nat) : Prop where
  missed : verdict = .error t.error ↔ ∀ l, latency = some l → t.duration.roundedUp < l
  late : verdict = .error t.error → span = t.duration.roundedUp
  kept : ∀ l, latency = some l → l ≤ t.duration.roundedUp → verdict = mapError .inner outcome ∧ span = tick l
  bounded : span ≤ t.duration.roundedUp

theorem ownDeadline (t : TimeLimit) (latency : Option Nat) (outcome : Except ε α) :
    t.OwnDeadline latency outcome (t.verdict outcome latency) (t.span latency) := by
  have hmissed : t.verdict outcome latency = .error t.error → ∀ l, latency = some l → t.duration.roundedUp < l := by
    rintro h l rfl
    refine Nat.lt_of_not_le fun hle => ?_
    rw [verdict_of_le hle] at h
    cases outcome <;> cases h
  refine ⟨⟨hmissed, fun h => verdict_of_lt h outcome⟩, fun h => span_of_lt (hmissed h), ?_, t.span_le latency⟩
  rintro l rfl hle
  exact ⟨verdict_of_le hle outcome, span_of_le (t.tick_le_roundedUp.2 hle)⟩

section Run

variable {t : TimeLimit} {work : Act σ (Except ε α)} {calls : σ → Nat} {latency : Nat → Option Nat}
  {outcome : Nat → Except ε α} {w : World σ} {s : σ} {now : Nat}

/-- Work that is done by its deadline. -/
theorem run_of_done (hp : w.Patient .suspended) (ht : OnTick w.now) {x : Except ε α}
    (h : work (w.within (w.now + t.reach w)) = (.done x, (w.within (w.now + t.reach w)).moved s now)) :
    t.run work w = (.done (mapError .inner x), w.moved s now) := by
  rw [run, t.tick_due ht, before_of_done hp h]
  cases x <;> rfl

/-- Work that its deadline cuts. -/
theorem run_of_dropped (hp : w.Patient .suspended) (ht : OnTick w.now)
    (h : work (w.within (w.now + t.reach w)) = (.abandoned, (w.within (w.now + t.reach w)).moved s now)) :
    t.run work w = (.done (.error t.error), (w.moved s now).report t.event) := by
  rw [run, t.tick_due ht, before_of_dropped hp h]

/-- An attempt that ends in time. -/
theorem run_of_le (hwork : Takes work calls latency outcome) (hp : w.Patient .suspended) (ht : OnTick w.now)
    (hrep : t.Representable w.instantLimit w.now) {l : Nat} (hl : latency (calls w.own + 1) = some l)
    (hend : w.now + l < w.instantLimit) (hle : l ≤ t.duration.roundedUp) :
    ∃ s, t.run work w = (.done (mapError .inner (outcome (calls w.own + 1))), w.moved s (w.now + tick l)) ∧
      calls s = calls w.own + 1 := by
  obtain ⟨s, hrun, hs⟩ := hwork.ends (w := w.within (w.now + t.reach w)) ht hl hend fun h hh => by
    cases hh
    rw [hrep.reach_eq]
    exact Nat.add_le_add_left (t.tick_le_roundedUp.2 hle) _
  exact ⟨s, run_of_done hp ht hrun, hs⟩

/-- An attempt that misses its deadline. -/
theorem run_of_lt (hwork : Takes work calls latency outcome) (hp : w.Patient .suspended) (ht : OnTick w.now)
    (hrep : t.Representable w.instantLimit w.now)
    (hlong : ∀ l, latency (calls w.own + 1) = some l → w.now + l < w.instantLimit ∧ t.duration.roundedUp < l) :
    ∃ s, t.run work w =
        (.done (.error t.error), (w.moved s (w.now + t.duration.roundedUp)).report t.event) ∧
      calls s = calls w.own + 1 := by
  obtain ⟨s, hrun, hs⟩ := hwork.drops (w := w.within (w.now + t.reach w)) ht rfl (Nat.le_add_right _ _) fun l hl => by
    obtain ⟨hend, hlt⟩ := hlong l hl
    rw [hrep.reach_eq]
    exact ⟨hend, Nat.add_lt_add_left (Nat.lt_of_lt_of_le hlt (le_tick l)) _⟩
  rw [hrep.reach_eq] at hrun
  refine ⟨s, run_of_dropped hp ht ?_, hs⟩
  rw [hrep.reach_eq]
  exact hrun

/-- One attempt under a limit, begun on a whole millisecond by someone who waits for it. -/
theorem run_takes (t : TimeLimit) (hwork : Takes work calls latency outcome) (hp : w.Patient .suspended)
    (ht : OnTick w.now) (hrep : t.Representable w.instantLimit w.now)
    (hends : ∀ l, latency (calls w.own + 1) = some l → w.now + l < w.instantLimit) :
    ∃ w', t.run work w = (.done (t.verdict (outcome (calls w.own + 1)) (latency (calls w.own + 1))), w') ∧
      w'.now = w.now + t.span (latency (calls w.own + 1)) ∧ w'.Patient .suspended ∧ w'.dice = w.dice ∧
      w'.instantLimit = w.instantLimit ∧ calls w'.own = calls w.own + 1 := by
  by_cases hin : ∃ l, latency (calls w.own + 1) = some l ∧ l ≤ t.duration.roundedUp
  · obtain ⟨l, hl, hle⟩ := hin
    obtain ⟨s, hrun, hs⟩ := run_of_le hwork hp ht hrep hl (hends l hl) hle
    refine ⟨w.moved s (w.now + tick l), ?_, ?_, World.patient_moved hp _ _,
      World.dice_moved .., World.instantLimit_moved .., ?_⟩
    · rw [hrun, hl, verdict_of_le hle]
    · rw [World.now_moved, hl, span_of_le (t.tick_le_roundedUp.2 hle)]
    · rw [World.own_moved]; exact hs
  · have hlong : ∀ l, latency (calls w.own + 1) = some l → t.duration.roundedUp < l := fun l hl =>
      Nat.lt_of_not_le fun hle => hin ⟨l, hl, hle⟩
    obtain ⟨s, hrun, hs⟩ := run_of_lt hwork hp ht hrep fun l hl => ⟨hends l hl, hlong l hl⟩
    refine ⟨(w.moved s (w.now + t.duration.roundedUp)).report t.event, ?_, ?_,
      World.patient_report (World.patient_moved hp _ _), ?_, ?_, ?_⟩
    · rw [hrun, verdict_of_lt hlong]
    · rw [World.now_report, World.now_moved, span_of_lt hlong]
    · rw [World.dice_report, World.dice_moved]
    · rw [World.instantLimit_report, World.instantLimit_moved]
    · rw [World.own_report, World.own_moved]; exact hs

end Run

end TimeLimit

end CallGuard

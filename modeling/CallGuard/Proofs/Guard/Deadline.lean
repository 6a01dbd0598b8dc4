/-
Suspended calls with a deadline for every attempt. Every attempt has the same time, whatever happened
before it; what it comes to depends on its own latency alone (`TimeLimit.verdict`). A call without
retries is its one attempt; one with retries follows the reference for the verdicts of its attempts, and
is over after a time that the policies tell (`start_deadline`). The times are those of the policies and of the work as
long as every timer that the call sets is for an instant (`InstantTimers`).
-/
import CallGuard.Guard.Site
import CallGuard.Proofs.Retry.Scripted
import CallGuard.Proofs.Work.Latency
import Mathlib.Algebra.BigOperators.Intervals
import Mathlib.Algebra.Order.BigOperators.Group.Finset
import Mathlib.Algebra.Group.Action.Defs

namespace CallGuard

variable {σ ρ ε α : Type}

/-! ## Timers -/

section Timers

variable [Fault ε] (t : TimeLimit) (loop : Option RetryLoop) (calls : σ → Nat) (latency : Nat → Option Nat)
  (outcome : Nat → Except ε α) (w : World σ)

/-- Attempt `i` of a call that begins in a world is made, and begins at an instant, if the latencies and outcomes of all
attempts are known. -/
inductive BeginsAt : Nat → Nat → Prop where
  | first : BeginsAt 1 w.now
  | next {r : RetryLoop} {i now : Nat} {d : Duration} (h : BeginsAt i now) (hr : loop = some r)
      (pause : r.policy.Pauses w.dice
        (fun i => t.verdict (outcome (calls w.own + i)) (latency (calls w.own + i))) i d) :
      BeginsAt (i + 1) (now + t.span (latency (calls w.own + i)) + d.roundedUp)

/-- The end of every timer that is set in a call is an instant: the deadlines of its attempts, the ends of their work,
and those of the waits between them. -/
structure InstantTimers : Prop where
  deadline : ∀ {i now}, BeginsAt t loop calls latency outcome w i now → t.Representable w.instantLimit now
  work : ∀ {i now l}, BeginsAt t loop calls latency outcome w i now → latency (calls w.own + i) = some l →
    now + l < w.instantLimit
  wait : ∀ {r i now d}, BeginsAt t loop calls latency outcome w i now → loop = some r →
    r.policy.Pauses w.dice (fun i => t.verdict (outcome (calls w.own + i)) (latency (calls w.own + i))) i d →
    now + t.span (latency (calls w.own + i)) + d.nanos < w.instantLimit

end Timers

/-! ## Attempts one after the other -/

section Attempts

variable {t : TimeLimit} {work : Act σ (Except ε α)} {calls : σ → Nat}
  {latency : Nat → Option Nat} {outcome : Nat → Except ε α} {w₀ w : World σ} {i : Nat}

/-- Since a world so many attempts were made, and somebody waits for the next. -/
structure Awaits (calls : σ → Nat) (w₀ : World σ) (i : Nat) (w : World σ) : Prop where
  count : calls w.own = calls w₀.own + i
  patient : w.Patient .suspended
  onTick : OnTick w.now
  dice : w.dice = w₀.dice
  limit : w.instantLimit = w₀.instantLimit

theorem Awaits.report (h : Awaits calls w₀ i w) (e : Event) : Awaits calls w₀ i (w.report e) :=
  ⟨h.count, World.patient_report h.patient, h.onTick, h.dice, h.limit⟩

/-- A wait of somebody who waits to the end. -/
theorem Awaits.sleep (h : Awaits calls w₀ i w) {d : Duration} (hend : w.now + d.nanos < w₀.instantLimit) :
    Act.sleep .suspended d w = (.done (), w.moved w.own (w.now + d.roundedUp)) ∧
      Awaits calls w₀ i (w.moved w.own (w.now + d.roundedUp)) := by
  have hlength : suspension w.instantLimit w.now d = d.roundedUp := suspension_of_lt (h.limit ▸ hend)
  refine ⟨?_, ?_, World.patient_moved h.patient _ _, World.onTick_moved (h.onTick.add d.onTick_roundedUp) w _, ?_, ?_⟩
  · rw [← hlength]; exact Act.sleep_within h.onTick d h.patient.stays
  · rw [World.own_moved]; exact h.count
  · rw [World.dice_moved]; exact h.dice
  · rw [World.instantLimit_moved]; exact h.limit

theorem Awaits.run (hwork : Takes work calls latency outcome) (h : Awaits calls w₀ i w)
    (hrep : t.Representable w₀.instantLimit w.now)
    (hends : ∀ l, latency (calls w₀.own + (i + 1)) = some l → w.now + l < w₀.instantLimit) :
    ∃ w', t.run work w = (.done
        (t.verdict (outcome (calls w₀.own + (i + 1))) (latency (calls w₀.own + (i + 1)))), w') ∧
      w'.now = w.now + t.span (latency (calls w₀.own + (i + 1))) ∧ Awaits calls w₀ (i + 1) w' := by
  have hnumber : calls w.own + 1 = calls w₀.own + (i + 1) := by rw [h.count, Nat.add_assoc]
  rw [← hnumber, ← h.limit] at hends
  rw [← h.limit] at hrep
  obtain ⟨w', hrun, hnow, hp, hd, hlimit, hcalls⟩ := t.run_takes hwork h.patient h.onTick hrep hends
  rw [hnumber] at hrun hnow hcalls
  refine ⟨w', hrun, hnow, hcalls, hp, ?_, hd.trans h.dice, hlimit.trans h.limit⟩
  rw [hnow]
  exact h.onTick.add (t.onTick_span _)

variable [Fault ε] {loop : Option RetryLoop}

/-- The attempt after the first `i` ones begins in a world. -/
structure BeginsIn (t : TimeLimit) (loop : Option RetryLoop) (calls : σ → Nat) (latency : Nat → Option Nat)
    (outcome : Nat → Except ε α) (w₀ : World σ) (i : Nat) (w : World σ) : Prop extends Awaits calls w₀ i w where
  begins : BeginsAt t loop calls latency outcome w₀ (i + 1) w.now

/-- Attempt `i` is over in a world. -/
structure OverIn (t : TimeLimit) (loop : Option RetryLoop) (calls : σ → Nat) (latency : Nat → Option Nat)
    (outcome : Nat → Except ε α) (w₀ : World σ) (i : Nat) (w : World σ) : Prop extends Awaits calls w₀ i w where
  ended : ∃ now, BeginsAt t loop calls latency outcome w₀ i now ∧ w.now = now + t.span (latency (calls w₀.own + i))

theorem OverIn.report (h : OverIn t loop calls latency outcome w₀ i w) (e : Event) :
    OverIn t loop calls latency outcome w₀ i (w.report e) :=
  ⟨h.toAwaits.report e, h.ended⟩

/-- An attempt that begins comes to its verdict, in its time. -/
theorem BeginsIn.run (hwork : Takes work calls latency outcome)
    (htimers : InstantTimers t loop calls latency outcome w₀) (h : BeginsIn t loop calls latency outcome w₀ i w) :
    ∃ w', t.run work w = (.done
        (t.verdict (outcome (calls w₀.own + (i + 1))) (latency (calls w₀.own + (i + 1)))), w') ∧
      w'.now = w.now + t.span (latency (calls w₀.own + (i + 1))) ∧
      OverIn t loop calls latency outcome w₀ (i + 1) w' := by
  obtain ⟨w', hrun, hnow, hawaits⟩ := h.toAwaits.run hwork (htimers.deadline h.begins) fun l hl =>
    htimers.work h.begins hl
  exact ⟨w', hrun, hnow, hawaits, w.now, h.begins, hnow⟩

/-- After the wait that follows it, the next attempt begins. -/
theorem OverIn.sleep {r : RetryLoop} (htimers : InstantTimers t (some r) calls latency outcome w₀)
    (h : OverIn t (some r) calls latency outcome w₀ i w) {d : Duration} (pause : r.policy.Pauses w₀.dice
      (fun i => t.verdict (outcome (calls w₀.own + i)) (latency (calls w₀.own + i))) i d) :
    Act.sleep .suspended d w = (.done (), w.moved w.own (w.now + d.roundedUp)) ∧
      BeginsIn t (some r) calls latency outcome w₀ i (w.moved w.own (w.now + d.roundedUp)) := by
  obtain ⟨now, hbegins, hnow⟩ := h.ended
  have hend : w.now + d.nanos < w₀.instantLimit := by
    rw [hnow]
    exact htimers.wait hbegins rfl pause
  obtain ⟨hsleep, hawaits⟩ := h.toAwaits.sleep hend
  refine ⟨hsleep, hawaits, ?_⟩
  rw [World.now_moved, hnow]
  exact hbegins.next rfl pause

/-- Attempts under a limit follow the script of their verdicts. -/
theorem Takes.script {r : RetryLoop} (hwork : Takes work calls latency outcome)
    (htimers : InstantTimers t (some r) calls latency outcome w₀) :
    Script r.policy .suspended (t.run work)
      (fun i => t.verdict (outcome (calls w₀.own + i)) (latency (calls w₀.own + i))) w₀.dice
      (BeginsIn t (some r) calls latency outcome w₀) (OverIn t (some r) calls latency outcome w₀) where
  call h := by
    obtain ⟨w', hrun, -, h'⟩ := h.run hwork htimers
    exact ⟨w', hrun, h'⟩
  report e h := h.report e
  wait h pause := ⟨_, (h.sleep htimers pause).1, (h.sleep htimers pause).2⟩
  dice h := h.dice

end Attempts

/-! ## The whole call -/

/-- How a call concludes of which the attempts have known verdicts and take known times. -/
inductive Concludes [Fault ε] (work : Act σ (Except (TimeoutError ε) α)) (verdict : Nat → Except (TimeoutError ε) α)
    (span : Nat → Nat) (w w' : World σ) : Option RetryLoop → Nat → Except (GuardError ε) α → Prop where
  /-- There is one attempt. -/
  | once (time : w'.now = w.now + span 1) :
      Concludes work verdict span w w' none 1 (mapError GuardError.ofTimeout (verdict 1))
  /-- The attempts follow the reference, each in its time and with the policy's waits in between, each up to a whole
  millisecond. -/
  | retried {r : RetryLoop} {k : Nat} {result : Except (RetryError (TimeoutError ε)) α} {begins ends : Nat → World σ}
      (reference : Reference r.policy verdict (fun i => .ofNanos (span i)) (elapsed w.now w'.now) k result)
      (timeline : Timeline .suspended work verdict (r.policy.waits w.dice) 0 k begins ends) (first : begins 1 = w)
      (times : ∀ i, 0 < i → i ≤ k → (ends i).now = (begins i).now + span i)
      (time : w'.now = w.now + ∑ i ∈ Finset.Ico 1 (k + 1), span i +
        ∑ i ∈ Finset.Ico 1 k, pauseFor (r.policy.waits w.dice i)) :
      Concludes work verdict span w w' (some r) k (mapError GuardError.ofRetry result)

/-- What the policies allow a retried call to take. -/
def RetryPolicy.allowance (p : RetryPolicy) (dice : Nat → Dice) (t : TimeLimit) : Nat :=
  p.maxAttempts.toNat * t.duration.roundedUp + ∑ i ∈ Finset.Ico 1 p.maxAttempts.toNat, pauseFor (p.waits dice i)

theorem sums_le_allowance {p : RetryPolicy} (dice : Nat → Dice) (t : TimeLimit) {k : Nat} (hk : k ≤ p.maxAttempts.toNat)
    (latency : Nat → Option Nat) : ∑ i ∈ Finset.Ico 1 (k + 1), t.span (latency i) +
      ∑ i ∈ Finset.Ico 1 k, pauseFor (p.waits dice i) ≤ p.allowance dice t := by
  have hspans : ∑ i ∈ Finset.Ico 1 (k + 1), t.span (latency i) ≤ k * t.duration.roundedUp := by
    have h := Finset.sum_le_card_nsmul (Finset.Ico 1 (k + 1)) (fun i => t.span (latency i)) t.duration.roundedUp
      fun i _ => t.span_le (latency i)
    rwa [Nat.card_Ico, Nat.add_sub_cancel, smul_eq_mul] at h
  have hpauses : ∑ i ∈ Finset.Ico 1 k, pauseFor (p.waits dice i) ≤
      ∑ i ∈ Finset.Ico 1 p.maxAttempts.toNat, pauseFor (p.waits dice i) :=
    Finset.sum_le_sum_of_subset (Finset.Ico_subset_Ico_right hk)
  exact Nat.add_le_add (hspans.trans (Nat.mul_le_mul_right _ hk)) hpauses

section Played

variable [Fault ε] {t : TimeLimit} {r : RetryLoop} {work : Act σ (Except ε α)} {calls : σ → Nat}
  {latency : Nat → Option Nat} {outcome : Nat → Except ε α} {w w' : World σ} {k : Nat} {begins ends : Nat → World σ}
  {result : Except (RetryError (TimeoutError ε)) α} {i : Nat}

variable (hwork : Takes work calls latency outcome) (htimers : InstantTimers t (some r) calls latency outcome w)
  (h : r.Played .suspended (t.run work)
    (fun i => t.verdict (outcome (calls w.own + i)) (latency (calls w.own + i))) w.dice
    (BeginsIn t (some r) calls latency outcome w) (OverIn t (some r) calls latency outcome w) 0 (.start w.now) w k
    begins ends result w')

include htimers h

/-- The wait after every attempt but the last. -/
theorem Played.pauses (hi : 0 < i) (hk : i < k) :
    (begins (i + 1)).now = (ends i).now + pauseFor (r.policy.waits w.dice i) := by
  obtain ⟨-, hlast, hretried, -⟩ := h.reference.last_call
  obtain ⟨d, event, hd, hsleep⟩ := h.timeline.waits i hi hk
  have hover := (h.ready i hi (Nat.le_of_lt hk)).2.report event
  have hslept := (hover.sleep htimers ⟨Nat.lt_of_lt_of_le hk hlast, hretried i hi hk, hd⟩).1
  rw [hslept, Prod.mk.injEq] at hsleep
  rw [← hsleep.2, World.now_moved, World.now_report, hd, pauseFor_some]

include hwork

/-- The time of every attempt in a run of attempts. -/
theorem Played.times (hi : 0 < i) (hk : i ≤ k) :
    (ends i).now = (begins i).now + t.span (latency (calls w.own + i)) := by
  obtain ⟨i, rfl⟩ := Nat.exists_eq_add_one_of_ne_zero (Nat.ne_of_gt hi)
  obtain ⟨v, hrun, hnow, -⟩ := (h.ready (i + 1) hi hk).1.run hwork htimers
  have hcall := h.timeline.calls (i + 1) hi hk
  rw [Nat.add_sub_cancel] at hrun hnow
  rw [hrun] at hcall
  cases hcall
  exact hnow

/-- When an attempt is over. -/
theorem Played.now_ends (i : Nat) (hi : 1 ≤ i) (hk : i ≤ k) :
    (ends i).now = w.now + ∑ j ∈ Finset.Ico 1 (i + 1), t.span (latency (calls w.own + j)) +
      ∑ j ∈ Finset.Ico 1 i, pauseFor (r.policy.waits w.dice j) := by
  induction i, hi using Nat.le_induction with
  | base =>
    rw [Played.times hwork htimers h Nat.one_pos hk, h.first]
    simp
  | succ i hi ih =>
    have hspans := Finset.sum_Ico_succ_top (show 1 ≤ i + 1 by omega) fun j => t.span (latency (calls w.own + j))
    have hpauses := Finset.sum_Ico_succ_top hi fun j => pauseFor (r.policy.waits w.dice j)
    rw [Played.times (i := i + 1) hwork htimers h (by omega) hk, Played.pauses htimers h hi hk,
      ih (Nat.le_of_succ_le hk), hspans, hpauses]
    omega

/-- A retried call under a limit, played to its end. -/
theorem Played.concludes (hk : 0 < k) :
    Concludes (t.run work) (fun i => t.verdict (outcome (calls w.own + i)) (latency (calls w.own + i)))
      (fun i => t.span (latency (calls w.own + i))) w w' (some r) k (mapError GuardError.ofRetry result) := by
  obtain ⟨l, hl⟩ := h.reports
  refine .retried (h.reference.congr _ fun j h1 h2 => ?_) h.timeline h.first
    (fun i h1 h2 => Played.times hwork htimers h h1 h2) ?_
  · rw [lasted, elapsed, Played.times hwork htimers h h1 h2, Nat.add_sub_cancel_left]
  · rw [hl, World.now_reports]
    exact Played.now_ends hwork htimers h k hk le_rfl

end Played

section Call

variable [Fault ε] {work : Act σ (Except ε α)} {calls : σ → Nat} {latency : Nat → Option Nat}
  {outcome : Nat → Except ε α} {w : World σ}

/-- A suspended call under a limit, for which somebody waits to the end, and of which every timer is for an instant.
Every attempt has until the first whole millisecond at or after the duration of the limit, counted from its own start,
and comes to its own outcome exactly if its own latency does not pass that. The call is one attempt, or the attempts
that the reference tells; a missed deadline that is not retried is its error; and it takes no longer than the
policies allow. -/
theorem start_deadline (t : TimeLimit) (loop : Option RetryLoop) (hwork : Takes work calls latency outcome)
    (hp : w.Patient .suspended) (ht : OnTick w.now)
    (htimers : InstantTimers t loop calls latency outcome w) :
    let verdict := fun i => t.verdict (outcome (calls w.own + i)) (latency (calls w.own + i))
    let span := fun i => t.span (latency (calls w.own + i))
    ∃ (x : Act σ (Except (GuardError ε) α)) (k : Nat) (final : Except (GuardError ε) α) (w' : World σ),
      CallSite.start (⟨.suspended work, ⟨some t, loop⟩⟩ : CallSite σ ρ ε α) w = (.done (.pending x), w) ∧
      x w = (.done final, w') ∧
      calls w'.own = calls w.own + k ∧
      (∀ i, t.OwnDeadline (latency (calls w.own + i)) (outcome (calls w.own + i)) (verdict i) (span i)) ∧
      Concludes (t.run work) verdict span w w' loop k final ∧
      (verdict k = .error t.error → (∀ r ∈ loop, r.policy.predicate.test (t.error : TimeoutError ε) = false) →
        final = .error (.timeout t.policy.name t.policy.duration)) ∧
      ∀ r ∈ loop, w'.now ≤ w.now + r.policy.allowance w.dice t := by
  intro verdict span
  have hstart : BeginsIn t loop calls latency outcome w 0 w := ⟨⟨rfl, hp, ht, rfl, rfl⟩, .first⟩
  cases loop with
  | none =>
    obtain ⟨w', hrun, hnow, hover⟩ := hstart.run hwork htimers
    refine ⟨_, 1, _, w', rfl, Act.bind_of_done hrun, hover.count, fun i => t.ownDeadline _ _,
      .once hnow, ?_, fun r hr => absurd hr (Option.not_mem_none r)⟩
    intro hv _
    exact congrArg (mapError GuardError.ofTimeout) hv
  | some r =>
    obtain ⟨k, begins, ends, result, w', h⟩ := RetryLoop.attemptFrom_played (hwork.script htimers) _ 0
      (.start w.now) w rfl ⟨rfl, r.valid.attempts_pos, rfl⟩ hstart
    have hk : 0 < k := h.reference.more r.valid.attempts_pos
    obtain ⟨l, hl⟩ := h.reports
    refine ⟨_, k, _, w', rfl, Act.bind_of_done h.run, ?_, fun i => t.ownDeadline _ _,
      Played.concludes hwork htimers h hk, ?_, ?_⟩
    · rw [hl, World.own_reports]
      exact (h.ready k hk le_rfl).2.count
    · intro hv hno
      exact congrArg (mapError GuardError.ofRetry) (h.reference.of_rejected r.valid.attempts_pos hv (hno r rfl))
    · intro r' hr'
      cases Option.mem_some_iff.1 hr'
      rw [hl, World.now_reports, Played.now_ends hwork htimers h k hk le_rfl, Nat.add_assoc]
      exact Nat.add_le_add_left (sums_le_allowance w.dice t h.reference.last_call.2.1 _) _

end Call

/-! ## A slow start -/

/-- A call that takes too long, and then calls that do not. -/
def slowStart (k : Nat) : Call TestError Nat :=
  if k = 1 then { pauses := [.ofMillis 15], ending := .value 0 } else { pauses := [.ofMillis 3], ending := .value 7 }

/-- Two attempts, whatever the failure is. -/
def twice : RetryLoop where
  policy := { name := "twice", maxAttempts := 2, delay := .ofMillis 5 }
  valid := by simp [RetryPolicy.valid_iff, Jitter.Good]

/-- A limit of ten milliseconds. -/
def tenMillis : TimeLimit := ⟨⟨"brief", .ofMillis 10, by decide, by decide⟩⟩

theorem slowStart_takes : Takes (Job.run ⟨⟨.starts, slowStart⟩, .whole⟩ .suspended) Tally.started
    (fun k => (slowStart k).length) (fun k => if k = 1 then .ok 0 else .ok 7) := by
  refine Job.takes Cell.whole_lawful fun k => ?_
  unfold slowStart
  split <;> exact .value _

theorem slowStart_length (k : Nat) : (slowStart k).length = some (if k = 1 then 15000000 else 3000000) := by
  unfold slowStart
  split <;> rfl

theorem tenMillis_roundedUp : tenMillis.duration.roundedUp = 10000000 := by decide

theorem twice_waits : twice.policy.waits ({ own := {} } : World Tally).dice 1 = some (.ofMillis 5) := rfl

theorem slowStart_begins {i now : Nat} (h : BeginsAt tenMillis (some twice) Tally.started (fun k => (slowStart k).length)
    (fun k => if k = 1 then .ok 0 else .ok 7 : Nat → Except TestError Nat) { own := {} } i now) :
    i = 1 ∧ now = 0 ∨ i = 2 ∧ now = 15000000 := by
  induction h with
  | first => exact .inl ⟨rfl, rfl⟩
  | next h hr pause ih =>
    cases hr
    rcases ih with ⟨rfl, rfl⟩ | ⟨rfl, rfl⟩
    · cases twice_waits.symm.trans pause.wait
      exact .inr ⟨rfl, by decide⟩
    · exact absurd pause.left (by decide)

theorem slowStart_timers : InstantTimers tenMillis (some twice) Tally.started (fun k => (slowStart k).length)
    (fun k => if k = 1 then .ok 0 else .ok 7 : Nat → Except TestError Nat) { own := {} } where
  deadline h := by
    rcases slowStart_begins h with ⟨rfl, rfl⟩ | ⟨rfl, rfl⟩ <;> decide
  work h hl := by
    rcases slowStart_begins h with ⟨rfl, rfl⟩ | ⟨rfl, rfl⟩ <;> cases hl <;> decide
  wait h hr pause := by
    cases hr
    rcases slowStart_begins h with ⟨rfl, rfl⟩ | ⟨rfl, rfl⟩
    · cases twice_waits.symm.trans pause.wait
      decide
    · exact absurd pause.left (by decide)

/-- The first attempt misses its deadline, and the second one has ten milliseconds of its own. -/
theorem start_slowStart : ∃ (x : Act Tally (Except (GuardError TestError) Nat)) (w' : World Tally),
    CallSite.start (⟨.suspended (Job.run ⟨⟨.starts, slowStart⟩, .whole⟩ .suspended), ⟨some tenMillis, some twice⟩⟩ :
      CallSite Tally Unit TestError Nat) { own := {} } = (.done (.pending x), { own := {} }) ∧
    x { own := {} } = (.done (.ok 7), w') ∧ w'.own.started = 2 ∧ w'.now = 18000000 := by
  obtain ⟨x, k, final, w', hstart, hrun, hcalls, hown, hc, -⟩ := start_deadline (ρ := Unit) tenMillis (some twice)
    slowStart_takes (w := { own := {} }) rfl rfl slowStart_timers
  simp only [slowStart_length, Nat.zero_add] at hown hcalls hc
  have h1 := ((hown 1).missed.2 fun l hl => by cases hl; rw [tenMillis_roundedUp]; decide)
  have hlate := (hown 1).late h1
  have h2 := (hown 2).kept 3000000 rfl (by rw [tenMillis_roundedUp]; decide)
  cases hc with
  | retried reference timeline first times time =>
    have hretried : ∀ j, 0 < j → j < 2 → RetryPolicy.Retries twice.policy
        (tenMillis.verdict (α := Nat) (if j = 1 then Except.ok 0 else Except.ok 7)
          (some (if j = 1 then 15000000 else 3000000)) : Except (TimeoutError TestError) Nat) := by
      intro j hj hj'
      obtain rfl : j = 1 := by omega
      exact ⟨_, h1, rfl⟩
    obtain ⟨rfl, rfl⟩ := reference.unique (.value (by decide) (by decide) hretried h2.1) (by decide)
    have hpause : pauseFor (twice.policy.waits ({ own := {} } : World Tally).dice 1) = 5000000 := by
      rw [twice_waits, pauseFor_some, Duration.roundedUp_ofMillis (by decide)]
    refine ⟨x, w', hstart, hrun, hcalls, ?_⟩
    have hspan : tenMillis.span (some 3000000) = 3000000 := h2.2.trans (tick_eq_self rfl)
    rw [time, Finset.sum_Ico_succ_top (by decide), Nat.Ico_succ_singleton, Finset.sum_singleton, Finset.sum_singleton,
      hpause, hlate, tenMillis_roundedUp, if_neg (by decide), hspan]
    rfl

end CallGuard

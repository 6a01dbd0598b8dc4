/-
The time of attempts that failed one after the other. Each attempt is a leg with the instants at which it began
and failed; legs are spaced if each begins when the wait after the one before it ends (`Spaced`). Spaced legs and
their waits fill the time from the first beginning without a gap, each wait as long as the policy says if its end is
an instant (`Spaced.sum`).

The bookkeeping of a retried call tells its legs (`Bookkeeping`): every failure that another attempt follows adds one
(`Bookkeeping.retry`), and the history of an exhausted call is that of its legs (`Bookkeeping.exhaust`).
-/
import CallGuard.Proofs.Retry.Decision
import CallGuard.Proofs.Run.Waiting
import Mathlib.Algebra.BigOperators.Intervals

namespace CallGuard

variable {ε : Type}

/-- An attempt that failed: when it began, when it failed, and with what. -/
structure Leg (ε : Type) where
  began : Nat
  failed : Nat
  error : ε

/-- The history of attempts, counted from one. -/
def history (legs : List (Leg ε)) : List (Attempt ε) :=
  legs.mapIdx fun i l => ⟨i + 1, l.error, elapsed l.began l.failed⟩

theorem history_concat (legs : List (Leg ε)) (l : Leg ε) :
    history (legs ++ [l]) = history legs ++ [⟨legs.length + 1, l.error, elapsed l.began l.failed⟩] := by
  rw [history, List.mapIdx_concat]
  rfl

@[simp] theorem length_history (legs : List (Leg ε)) : (history legs).length = legs.length := List.length_mapIdx

/-! ## Delays without chance -/

theorem Duration.cappedBy_cappedBy (d : Duration) (bound : Option Duration) :
    (d.cappedBy bound).cappedBy bound = d.cappedBy bound := by
  cases bound with
  | none => rfl
  | some b =>
    show (if (if d ≤ b then d else b) ≤ b then if d ≤ b then d else b else b) = if d ≤ b then d else b
    split_ifs <;> rfl

/-- Without jitter, the wait after an attempt is the delay. -/
theorem RetryPolicy.delayAfter_of_wait {p : RetryPolicy} (hj : p.jitter = .none) {dice : Dice} {k : Nat} {previous : Option Duration}
    {d : Duration} (h : p.waitAfter dice k previous = .delay d) : p.delayAfter k = some d := by
  obtain ⟨base, hbase, happly⟩ := waitAfter_eq_delay.1 h
  have hcapped : base.cappedBy p.maxDelay = base := by
    unfold delayAfter at hbase
    split at hbase <;> cases hbase
    exact Duration.cappedBy_cappedBy _ _
  rw [hj] at happly
  cases happly
  exact hbase.trans (congrArg some hcapped.symm)

theorem RetryPolicy.delayAfter_of_le (p : RetryPolicy) {k : Nat} (h : p.maxAttempts.toNat ≤ k) :
    p.delayAfter k = none := by
  rw [delayAfter, if_pos (.inr h)]

/-! ## Legs in time -/

/-- Where a wait ends that begins on a whole millisecond, if there is one. -/
def waitEnd (limit now : Nat) (wait : Option Duration) : Nat := now + (wait.map (suspension limit now)).getD 0

theorem le_waitEnd (limit now : Nat) (wait : Option Duration) : now ≤ waitEnd limit now wait := Nat.le_add_right ..

theorem waitEnd_some (limit now : Nat) (d : Duration) : waitEnd limit now (some d) = now + suspension limit now d := by
  rw [waitEnd, Option.map_some, Option.getD_some]

theorem waitEnd_none (limit now : Nat) : waitEnd limit now none = now := by
  rw [waitEnd, Option.map_none, Option.getD_none, Nat.add_zero]

theorem waitEnd_of_lt {limit now : Nat} {wait : Option Duration} (h : ∀ d ∈ wait, now + d.nanos < limit) :
    waitEnd limit now wait = now + pauseFor wait := by
  cases wait with
  | none => rw [waitEnd_none, pauseFor_none, Nat.add_zero]
  | some d => rw [waitEnd_some, suspension_of_lt (h d rfl), pauseFor_some]

/-- Attempts that failed one after the other, from an instant on, and the instant at which the wait after the last
one ends. -/
inductive Spaced (p : RetryPolicy) (limit first : Nat) : List (Leg ε) → Nat → Prop where
  | start : Spaced p limit first [] first
  | leg {legs : List (Leg ε)} {began failed : Nat} (error : ε) (h : Spaced p limit first legs began)
      (le : began ≤ failed) :
      Spaced p limit first (legs ++ [⟨began, failed, error⟩]) (waitEnd limit failed (p.delayAfter (legs.length + 1)))

/-- The waits after attempts have instants for their ends. -/
def WaitsEnd (p : RetryPolicy) (limit : Nat) (legs : List (Leg ε)) : Prop :=
  ∀ (i : Nat) (l : Leg ε), legs[i]? = some l → ∀ d ∈ p.delayAfter (i + 1), l.failed + d.nanos < limit

theorem WaitsEnd.of_concat {p : RetryPolicy} {limit : Nat} {legs : List (Leg ε)} {l : Leg ε}
    (h : WaitsEnd p limit (legs ++ [l])) :
    WaitsEnd p limit legs ∧ ∀ d ∈ p.delayAfter (legs.length + 1), l.failed + d.nanos < limit := by
  refine ⟨fun i l' hl' => h i l' ?_, h legs.length l List.getElem?_concat_length⟩
  rw [List.getElem?_append_left (List.getElem?_eq_some_iff.1 hl').1]
  exact hl'

namespace Spaced

variable {p : RetryPolicy} {limit first next : Nat} {legs : List (Leg ε)}

/-- The legs and the waits after them fill the time. -/
theorem sum (h : Spaced p limit first legs next) (hwaits : WaitsEnd p limit legs) :
    next = first + (legs.map fun l => l.failed - l.began).sum +
      ∑ k ∈ Finset.Ico 1 (legs.length + 1), pauseFor (p.delayAfter k) := by
  induction h with
  | start => simp
  | @leg legs began failed error _ hle ih =>
    obtain ⟨hbefore, hlast⟩ := hwaits.of_concat
    have hbegan := ih hbefore
    have hsum := Finset.sum_Ico_succ_top (show 1 ≤ legs.length + 1 by omega) fun k => pauseFor (p.delayAfter k)
    rw [waitEnd_of_lt hlast, List.length_append, List.map_append, List.sum_append, List.length_singleton, hsum]
    simp only [List.map_cons, List.map_nil, List.sum_cons, List.sum_nil, Nat.add_zero]
    omega

/-- The wait after the last attempt ends where the next one begins. -/
theorem next_eq (h : Spaced p limit first legs next) : (legs = [] ∧ next = first) ∨
    ∃ l, legs.getLast? = some l ∧ next = waitEnd limit l.failed (p.delayAfter legs.length) := by
  cases h with
  | start => exact .inl ⟨rfl, rfl⟩
  | @leg legs began failed error hs hle => exact .inr ⟨_, List.getLast?_concat, by rw [List.length_append]; rfl⟩

theorem head_began (h : Spaced p limit first legs next) : ∀ l, legs[0]? = some l → l.began = first := by
  induction h with
  | start => simp
  | @leg legs began failed error hs hle ih =>
    intro l hl
    rcases hs.next_eq with ⟨rfl, rfl⟩ | ⟨l', hl', -⟩
    · cases hl
      rfl
    · have hpos : 0 < legs.length := List.length_pos_of_ne_nil fun hnil => by rw [hnil] at hl'; cases hl'
      rw [List.getElem?_append_left hpos] at hl
      exact ih l hl

/-- An attempt begins when the wait after the one before it ends. -/
theorem began_eq (h : Spaced p limit first legs next) : ∀ (i : Nat) (l l' : Leg ε), legs[i]? = some l →
    legs[i + 1]? = some l' → l'.began = waitEnd limit l.failed (p.delayAfter (i + 1)) := by
  induction h with
  | start => simp
  | @leg legs began failed error hs hle ih =>
    intro i l l' hl hl'
    have hlen : i + 1 < legs.length + 1 := by
      have := (List.getElem?_eq_some_iff.1 hl').1
      rwa [List.length_append] at this
    rw [List.getElem?_append_left (by omega)] at hl
    by_cases hi : i + 1 < legs.length
    · rw [List.getElem?_append_left hi] at hl'
      exact ih i l l' hl hl'
    · -- The later one is the last, so the earlier one is the one that was waited after last.
      have hlast : legs.length = i + 1 := by omega
      rw [← hlast, List.getElem?_concat_length] at hl'
      cases hl'
      rcases hs.next_eq with ⟨rfl, -⟩ | ⟨l', hl', hnext⟩
      · cases hlast
      · rw [List.getLast?_eq_getElem?, hlast, Nat.add_sub_cancel, hl] at hl'
        cases hl'
        rw [hnext, hlast]

theorem ordered (h : Spaced p limit first legs next) : ∀ l ∈ legs, l.began ≤ l.failed := by
  induction h with
  | start => simp
  | leg error hs hle ih =>
    intro l hl
    rcases List.mem_append.1 hl with hl | hl
    · exact ih l hl
    · obtain rfl := List.mem_singleton.1 hl
      exact hle

end Spaced

/-! ## Bookkeeping -/

/-- What the bookkeeping says of the attempts so far, of which the next one begins at an instant. -/
structure Bookkeeping (p : RetryPolicy) (limit created first : Nat) (legs : List (Leg ε)) (next : Nat) (s : Progress ε) :
    Prop where
  started : s.started = created
  attempts : s.attempts = history legs
  spaced : Spaced p limit first legs next

/-- What an exhausted call says of its attempts. The last one failed at the instant at which it gave up. -/
structure Tells (p : RetryPolicy) (limit created first : Nat) (legs : List (Leg ε)) (stop : Nat) (x : Exhausted ε) :
    Prop where
  attempts : x.attempts = history legs
  total : x.total = elapsed created stop
  spaced : Spaced p limit first legs stop
  gaveUp : ∀ l, legs.getLast? = some l → stop = l.failed

namespace Bookkeeping

variable {p : RetryPolicy} {limit created first next now : Nat} {legs : List (Leg ε)} {s : Progress ε} {e : ε}

theorem start (p : RetryPolicy) (limit created first : Nat) :
    Bookkeeping p limit created first [] first (.start created : Progress ε) :=
  ⟨rfl, rfl, .start⟩

theorem failed_eq (h : Bookkeeping p limit created first legs next s) : s.failed = legs.length := by
  rw [← s.length_attempts, h.attempts, length_history]

/-- The attempt that began when it was due, and how it failed. -/
theorem failure_eq (h : Bookkeeping p limit created first legs next s) :
    (s.beginAttempt next).attempts ++ [(s.beginAttempt next).failure now e] = history (legs ++ [⟨next, now, e⟩]) := by
  rw [history_concat, ← h.attempts, ← h.failed_eq]
  rfl

/-- A failure that another attempt follows is one more leg, and the next attempt begins after the wait. -/
theorem retry [Fault ε] (h : Bookkeeping p limit created first legs next s) (hp : p.Valid) (hj : p.jitter = .none)
    (hle : next ≤ now) {dice : Nat → Dice} {d : Duration} {s' : Progress ε}
    (decision : ((s.beginAttempt next).fail p dice now e).decision = .retry d s') :
    Bookkeeping p limit created first (legs ++ [⟨next, now, e⟩]) (now + suspension limit now d) s' := by
  obtain ⟨-, hwait, rfl⟩ := Progress.of_decision_retry hp decision
  have hdelay : p.delayAfter (legs.length + 1) = some d := by
    rw [← h.failed_eq]
    exact RetryPolicy.delayAfter_of_wait hj hwait
  have hspaced := h.spaced.leg e hle
  rw [hdelay, waitEnd_some] at hspaced
  refine ⟨h.started, ?_, hspaced⟩
  rw [Progress.attempts_record]
  exact h.failure_eq

/-- A failure that no other attempt follows is the last leg. -/
theorem exhaust [Fault ε] (h : Bookkeeping p limit created first legs next s) (hp : p.Valid) (hle : next ≤ now)
    {dice : Nat → Dice} {x : Exhausted ε}
    (decision : ((s.beginAttempt next).fail p dice now e).decision = .giveUp (.exhausted x)) :
    Tells p limit created first (legs ++ [⟨next, now, e⟩]) now x := by
  rcases Progress.of_decision_giveUp hp decision with ⟨-, hx⟩ | ⟨-, hspent, hx⟩ <;> cases hx
  have hdelay : p.delayAfter (legs.length + 1) = none := by
    rw [← h.failed_eq]
    exact p.delayAfter_of_le hspent
  have hspaced := h.spaced.leg e hle
  rw [hdelay, waitEnd_none] at hspaced
  refine ⟨h.failure_eq, by rw [← h.started]; rfl, hspaced, fun l hl => ?_⟩
  rw [List.getLast?_concat] at hl
  cases hl
  rfl

end Bookkeeping

/-! ## What is told, in nanoseconds -/

theorem nanos_elapsed {s t : Nat} (h : t - s ≤ longestNanos) : (elapsed s t).nanos = t - s := Nat.min_eq_left h

theorem Spaced.first_le {p : RetryPolicy} {limit first next : Nat} {legs : List (Leg ε)}
    (h : Spaced p limit first legs next) : first ≤ next := by
  induction h with
  | start => exact Nat.le_refl _
  | leg error hs hle ih => exact Nat.le_trans ih (Nat.le_trans hle (le_waitEnd ..))

theorem Spaced.nanos_history {p : RetryPolicy} {limit first next : Nat} {legs : List (Leg ε)}
    (h : Spaced p limit first legs next) (hfits : next - first ≤ longestNanos) :
    (history legs).map (·.elapsed.nanos) = legs.map fun l => l.failed - l.began := by
  induction h with
  | start => rfl
  | @leg legs began failed error hs hle ih =>
    have hfailed : failed - first ≤ longestNanos := Nat.le_trans (Nat.sub_le_sub_right (le_waitEnd ..) first) hfits
    have hbefore : began - first ≤ longestNanos := Nat.le_trans (Nat.sub_le_sub_right hle first) hfailed
    have hleg : failed - began ≤ longestNanos := Nat.le_trans (Nat.sub_le_sub_left hs.first_le failed) hfailed
    have htook : (elapsed began failed).nanos = failed - began := nanos_elapsed hleg
    rw [history_concat, List.map_append, List.map_append, ih hbefore, List.map_singleton, List.map_singleton, htook]

/-- From the first attempt on, the total is what the attempts and the waits between them took. -/
theorem Tells.total_eq {p : RetryPolicy} {limit created first stop : Nat} {legs : List (Leg ε)} {x : Exhausted ε}
    (h : Tells p limit created first legs stop x) (hfirst : created ≤ first) (hfits : stop - created ≤ longestNanos)
    (hwaits : WaitsEnd p limit legs) :
    x.total.nanos = (first - created) + (x.attempts.map (·.elapsed.nanos)).sum +
      ∑ k ∈ Finset.Ico 1 x.attempts.length, pauseFor (p.delayAfter k) := by
  have hlen : x.attempts.length = legs.length := by rw [h.attempts, length_history]
  have hsum := h.spaced.sum hwaits
  rcases h.spaced.next_eq with ⟨rfl, -⟩ | ⟨l, hl, hnext⟩
  · exact absurd (List.length_eq_zero_iff.1 hlen) x.attempts_ne_nil
  have hpos : 1 ≤ legs.length := by
    rw [← hlen]
    exact List.length_pos_of_ne_nil x.attempts_ne_nil
  have hlast : pauseFor (p.delayAfter legs.length) = 0 := by
    have hwait : ∀ d ∈ p.delayAfter legs.length, l.failed + d.nanos < limit := by
      have hget := List.getLast?_eq_getElem? (l := legs) ▸ hl
      have := hwaits (legs.length - 1) l hget
      rwa [Nat.sub_add_cancel hpos] at this
    rw [waitEnd_of_lt hwait, h.gaveUp l hl] at hnext
    omega
  rw [Finset.sum_Ico_succ_top hpos, hlast] at hsum
  have hspan : stop - first ≤ longestNanos := Nat.le_trans (Nat.sub_le_sub_left hfirst stop) hfits
  rw [h.total, nanos_elapsed hfits, h.attempts, h.spaced.nanos_history hspan, length_history]
  have hle := h.spaced.first_le
  clear hfits hspan
  omega

/-- The account that an exhausted call or stream gives of its attempts, if its time counts from an instant. -/
structure Accounted (p : RetryPolicy) (limit created : Nat) (legs : List (Leg ε)) (x : Exhausted ε) : Prop where
  /-- Every recorded time is that of an attempt, from its beginning to its failure. -/
  attempts : x.attempts = history legs
  ordered : ∀ l ∈ legs, l.began ≤ l.failed
  /-- An attempt begins when the wait after the one before it ends. -/
  spaced : ∀ (i : Nat) (l l' : Leg ε), legs[i]? = some l → legs[i + 1]? = some l' →
    l'.began = waitEnd limit l.failed (p.delayAfter (i + 1))
  /-- That is the delay of the policy later, up to a whole millisecond, if the end of the wait is an instant. -/
  rounded : ∀ (i : Nat) (l l' : Leg ε), legs[i]? = some l → legs[i + 1]? = some l' →
    (∀ d ∈ p.delayAfter (i + 1), l.failed + d.nanos < limit) → l'.began = l.failed + pauseFor (p.delayAfter (i + 1))
  /-- The total ends with the last failure. -/
  total : ∀ l, legs.getLast? = some l → x.total = elapsed created l.failed
  /-- It is the time before the first attempt, that of the attempts and that of the waits between them. -/
  sum : ∀ l l', legs[0]? = some l → legs.getLast? = some l' → l'.failed - created ≤ longestNanos →
    WaitsEnd p limit legs → x.total.nanos = (l.began - created) + (x.attempts.map (·.elapsed.nanos)).sum +
      ∑ k ∈ Finset.Ico 1 x.attempts.length, pauseFor (p.delayAfter k)

theorem Tells.accounted {p : RetryPolicy} {limit created first stop : Nat} {legs : List (Leg ε)} {x : Exhausted ε}
    (h : Tells p limit created first legs stop x) (hfirst : created ≤ first) : Accounted p limit created legs x where
  attempts := h.attempts
  ordered := h.spaced.ordered
  spaced := h.spaced.began_eq
  rounded i l l' hl hl' hwait := by rw [h.spaced.began_eq i l l' hl hl', waitEnd_of_lt hwait]
  total l hl := by rw [h.total, h.gaveUp l hl]
  sum l l' hl hl' hfits hwaits := by
    rw [h.spaced.head_began l hl]
    exact h.total_eq hfirst (h.gaveUp l' hl' ▸ hfits) hwaits

end CallGuard

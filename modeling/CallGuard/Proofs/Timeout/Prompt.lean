/-
Work that is ready at once under a limit, for every duration that a policy can have. A call in place comes to
its own result, however long the limit is. A stream is seen as if there were no limit, failures wrapped, by
every consumer that asks for each element in time (`visits_prompt_iff`); but its deadline has to be an instant,
and where it is none the next poll panics (`poll_panics_iff`).

Both directions for streams are one simulation: the states of the stream hold the states of the producer
(`Holds`), and a poll of either is answered alike (`poll_prompt`).
-/
import CallGuard.Proofs.Timeout.Watching
import CallGuard.Proofs.Work.Feed

namespace CallGuard

variable {σ ρ ε α β : Type}

/-- An act that comes to its end at once. -/
structure Act.Prompt (x : Act σ α) : Prop where
  timed : x.Timed
  ends : ∀ w, (x w).1 ≠ .abandoned
  atOnce : ∀ w, (x w).2.now = w.now

/-- A producer that gives at once whatever it gives, as long as it is in a state of some kind, and stays in such
states. -/
structure PromptIn (ready : ρ → Prop) (producer : Poll σ ρ β) : Prop where
  prompt : ∀ {p}, ready p → (producer p).Prompt
  next : ∀ {p p' w w' x}, ready p → producer p w = (.done (some (x, p')), w') → ready p'

namespace TimeLimit

/-! ## Calls -/

/-- The limit of prompt work is of no consequence. -/
theorem run_prompt (t : TimeLimit) {work : Act σ (Except ε α)} (hwork : work.Prompt) {w : World σ}
    (hw : w.Patient .suspended) : t.run work w = (mapError .inner <$> work) w := by
  have hle : (work w).2.now ≤ tick (t.due w.instantLimit w.now) := by
    rw [hwork.atOnce w]
    exact t.le_tick_due w.instantLimit w.now
  have hends := hwork.ends w
  rw [map_eq_pure_bind, run]
  rcases hrun : work w with ⟨r | m | _, w'⟩ <;> rw [hrun] at hle hends
  · rw [Act.before_of_inTime hwork.timed hw hrun hle, Act.bind_of_done hrun]
    cases r <;> rfl
  · rw [Act.before_of_panicked hwork.timed hw hrun hle, Act.bind_of_panicked hrun]
  · exact absurd rfl hends

/-! ## Gaps of visits -/

theorem poll_overflow {t : TimeLimit} {producer : Poll σ ρ (Except ε α)} {g : Gap ρ} {p : ρ} {w : World σ} {since : Nat}
    (hg : g.producer = some p) (hs : g.since.getD w.now = since) (hlim : w.instantLimit ≤ since + t.duration.nanos) :
    t.poll producer g w = (.panicked instantOverflow, w) := by
  simp only [poll, hg, hs, instantAfter?_of_le hlim]

/-- Whatever a poll comes to, the gap of its state began when the gap of its visits did. -/
theorem anchored_poll {t : TimeLimit} {producer : Poll σ ρ (Except ε α)} {g : Gap ρ} {v w : World σ}
    {out : Ended (Option (Except (TimeoutError ε) α × Gap ρ))} {vs : List (Visit σ (Except (TimeoutError ε) α))}
    (hg : Anchored vs (.reading g)) (h : t.poll producer g v = (out, w)) :
    Anchored (vs ++ [⟨v, seen out, w⟩]) (.after out) := by
  cases pollsTo h with
  | dropped _ | overflow _ _ => trivial
  | late _ _ | missed _ _ _ => exact fun p now hp => by cases hp
  | @answered p out _ holds _ _ =>
    rw [hg p v.now holds]
    rcases out with (_ | ⟨x, p'⟩) | _ | _
    · trivial
    · exact anchored_element
    · trivial
    · trivial

theorem visits_anchored {t : TimeLimit} {producer : Poll σ ρ (Except ε α)} {p₀ : ρ}
    {meanwhile : World σ → World σ → Prop} {w₀ w : World σ} {vs : List (Visit σ (Except (TimeoutError ε) α))}
    {phase : Phase (Gap ρ)} (h : Visits (t.poll producer) meanwhile (t.watch p₀) w₀ vs phase w) :
    Anchored vs phase := by
  induction h with
  | start => exact fun _ _ _ => rfl
  | polled _ _ call ih => exact anchored_poll ih call

/-! ## Panics -/

/-- A poll of a stream that has its producer panics exactly if the deadline is no instant, or if the producer panics
in time. -/
theorem poll_panics_iff {t : TimeLimit} {producer : Poll σ ρ (Except ε α)} {g : Gap ρ} {p : ρ} {v : World σ}
    {vs : List (Visit σ (Except (TimeoutError ε) α))} (hp : (producer p).Timed) (hv : v.Patient .suspended)
    (hg : g.producer = some p) (hanchored : Anchored vs (.reading g)) :
    (∃ m u, t.poll producer g v = (.panicked m, u)) ↔
      v.instantLimit ≤ t.deadline vs v.now ∨ ∃ m u, t.Obtained producer vs p v (.panicked m) u := by
  have hsince := hanchored p v.now hg
  by_cases hlim : v.instantLimit ≤ t.deadline vs v.now
  · exact iff_of_true ⟨_, v, poll_overflow hg hsince hlim⟩ (.inl hlim)
  rw [or_iff_right hlim]
  rcases poll_cases hp hv hg hsince (Nat.lt_of_not_le hlim) with ⟨out, u, hobtained, hpoll⟩ | ⟨u, hmissed, hpoll⟩
  · constructor
    · rintro ⟨m, u', h⟩
      refine ⟨m, u, ?_⟩
      rcases out with (_ | ⟨_ | _, _⟩) | _ | _ <;> cases hpoll.symm.trans h
      exact hobtained
    · rintro ⟨m, u', h⟩
      cases hobtained.given.symm.trans h.given
      exact ⟨m, u, hpoll⟩
  · constructor
    · rintro ⟨m, u', h⟩
      cases hpoll.symm.trans h
    · rintro ⟨m, u', h⟩
      exact absurd h (hmissed.never _ _)

/-! ## Prompt producers -/

/-- A producer without a limit, its failures wrapped. -/
def unlimited (producer : Poll σ ρ (Except ε α)) : Poll σ ρ (Except (TimeoutError ε) α) := fun p =>
  relabel (mapError .inner) id (producer p)

/-- Visits that are each paid by a deadline that is an instant. -/
structure Punctual (t : TimeLimit) (vs : List (Visit σ (Except (TimeoutError ε) α))) : Prop where
  asked : ∀ us v, us ++ [v] <+: vs → v.asked.now ≤ t.deadline us v.asked.now
  instant : ∀ us v, us ++ [v] <+: vs → t.deadline us v.asked.now < v.asked.instantLimit
  patient : ∀ v ∈ vs, v.asked.Patient .suspended

theorem Punctual.init {t : TimeLimit} {vs : List (Visit σ (Except (TimeoutError ε) α))}
    {v : Visit σ (Except (TimeoutError ε) α)} (h : t.Punctual (vs ++ [v])) : t.Punctual vs where
  asked us u hu := h.asked us u (hu.trans (List.prefix_append _ _))
  instant us u hu := h.instant us u (hu.trans (List.prefix_append _ _))
  patient u hu := h.patient u (List.mem_append_left _ hu)

/-- The state of a stream with deadlines holds the state of its producer. -/
def Holds (ready : ρ → Prop) : Phase (Gap ρ) → Phase ρ → Prop
  | .reading g, .reading p => g.producer = some p ∧ ready p
  | .ended, .ended => True
  | .broken, .broken => True
  | _, _ => False

section Prompt

variable {t : TimeLimit} {producer : Poll σ ρ (Except ε α)} {ready : ρ → Prop} {p p₀ : ρ} {g : Gap ρ}
  {meanwhile : World σ → World σ → Prop} {w₀ w v u : World σ} {vs : List (Visit σ (Except (TimeoutError ε) α))}

/-- A prompt producer that is asked in time is heard as if there were no limit. -/
theorem poll_prompt (hprompt : PromptIn ready producer) (hp : ready p) (hg : g.producer = some p)
    (hanchored : Anchored vs (.reading g)) {x : Visit σ (Except (TimeoutError ε) α)} (h : t.Punctual (vs ++ [x]))
    (hx : x.asked = v) : ∃ out out' u, t.poll producer g v = (out, u) ∧ unlimited producer p v = (out', u) ∧
      seen out = seen out' ∧ Holds ready (.after out) (.after out') := by
  subst hx
  have hasked := h.asked vs x (List.prefix_refl _)
  have hready := hprompt.prompt hp
  rcases hrun : producer p x.asked with ⟨out, u⟩
  have hends := hready.ends x.asked
  have hnow : u.now = x.asked.now := by rw [← hready.atOnce x.asked, hrun]
  have hle : u.now ≤ tick (t.deadline vs x.asked.now) := by
    rw [hnow]
    exact Nat.le_trans hasked (le_tick _)
  rw [hrun] at hends
  have hpoll := poll_inTime hg (hanchored p _ hg) (h.instant vs x (List.prefix_refl _)) hasked hready.timed
    (h.patient x List.mem_concat_self) hrun hends hle
  refine ⟨_, relabelled (mapError .inner) id out, u, hpoll, ?_, ?_, ?_⟩
  · rw [unlimited, relabel_eq, hrun]
  · rcases out with (_ | ⟨_ | _, _⟩) | _ | _ <;> rfl
  · rcases out with (_ | ⟨_ | _, p'⟩) | _ | _
    · trivial
    · exact ⟨rfl, hprompt.next hp hrun⟩
    · exact ⟨rfl, hprompt.next hp hrun⟩
    · trivial
    · trivial

theorem unlimited_of_visits (hprompt : PromptIn ready producer) (hp₀ : ready p₀) {phase : Phase (Gap ρ)}
    (h : Visits (t.poll producer) meanwhile (t.watch p₀) w₀ vs phase w) (hpunctual : t.Punctual vs) :
    ∃ phase', Visits (unlimited producer) meanwhile p₀ w₀ vs phase' w ∧ Holds ready phase phase' := by
  induction h with
  | start => exact ⟨_, .start, rfl, hp₀⟩
  | polled hvisits passes call ih =>
    obtain ⟨phase', hvisits', hholds⟩ := ih hpunctual.init
    cases phase' with
    | reading p =>
      obtain ⟨hg, hp⟩ := hholds
      obtain ⟨out, out', u, hpoll, hpoll', hseen, hafter⟩ := poll_prompt hprompt hp hg (visits_anchored hvisits) hpunctual rfl
      cases hpoll.symm.trans call
      exact ⟨_, hseen ▸ hvisits'.polled passes hpoll', hafter⟩
    | ended => exact hholds.elim
    | broken => exact hholds.elim

theorem visits_of_unlimited (hprompt : PromptIn ready producer) (hp₀ : ready p₀) {phase' : Phase ρ}
    (h : Visits (unlimited producer) meanwhile p₀ w₀ vs phase' w) (hpunctual : t.Punctual vs) :
    ∃ phase, Visits (t.poll producer) meanwhile (t.watch p₀) w₀ vs phase w ∧ Holds ready phase phase' := by
  induction h with
  | start => exact ⟨_, .start, rfl, hp₀⟩
  | polled hvisits' passes call ih =>
    obtain ⟨phase, hvisits, hholds⟩ := ih hpunctual.init
    cases phase with
    | reading g =>
      obtain ⟨hg, hp⟩ := hholds
      obtain ⟨out, out', u, hpoll, hpoll', hseen, hafter⟩ := poll_prompt hprompt hp hg (visits_anchored hvisits) hpunctual rfl
      cases hpoll'.symm.trans call
      exact ⟨_, hseen ▸ hvisits.polled passes hpoll, hafter⟩
    | ended => exact hholds.elim
    | broken => exact hholds.elim

/-- What a punctual consumer sees of a prompt producer is the same with a limit and without. -/
theorem visits_prompt_iff (hprompt : PromptIn ready producer) (hp₀ : ready p₀) (hpunctual : t.Punctual vs) :
    (∃ phase, Visits (t.poll producer) meanwhile (t.watch p₀) w₀ vs phase w) ↔
      ∃ phase, Visits (unlimited producer) meanwhile p₀ w₀ vs phase w := by
  constructor
  · rintro ⟨phase, h⟩
    obtain ⟨phase', h', -⟩ := unlimited_of_visits hprompt hp₀ h hpunctual
    exact ⟨phase', h'⟩
  · rintro ⟨phase', h'⟩
    obtain ⟨phase, h, -⟩ := visits_of_unlimited hprompt hp₀ h' hpunctual
    exact ⟨phase, h⟩

/-! ## Consumers that do not pause -/

theorem lastDelivery_still {n : Nat} (h : ∀ v ∈ vs, v.left.now = n) :
    lastDelivery vs = none ∨ lastDelivery vs = some n := by
  refine List.foldlRecOn (motive := fun last => last = none ∨ last = some n) vs _ (.inl rfl) fun last hlast v hv => ?_
  split
  · exact .inr (congrArg some (h v hv))
  · exact hlast

/-- As long as the time stands still, the gap begins where it stands. -/
theorem gapStart_still {n : Nat} (h : ∀ v ∈ vs, v.asked.now = n ∧ v.left.now = n) : gapStart vs n = n := by
  unfold gapStart
  rcases lastDelivery_still fun v hv => (h v hv).2 with hlast | hlast
  · rw [hlast]
    cases vs with
    | nil => rfl
    | cons v vs => exact (h v List.mem_cons_self).1
  · rw [hlast]
    rfl

/-- A consumer that never pauses asks a prompt producer for everything in time, if the first deadline is an instant
throughout. -/
theorem punctual_still (hprompt : PromptIn ready producer) (hp₀ : ready p₀) {phase : Phase ρ}
    (h : Visits (unlimited producer) meanwhile p₀ w₀ vs phase w) (hw₀ : w₀.Patient .suspended)
    (hstill : ∀ w v, meanwhile w v → v.now = w.now ∧ (w.Patient .suspended → v.Patient .suspended))
    (hrep : ∀ v ∈ vs, w₀.now + t.duration.nanos < v.asked.instantLimit) : t.Punctual vs := by
  have hall : (∀ v ∈ vs, v.asked.now = w₀.now ∧ v.left.now = w₀.now) ∧ (∀ v ∈ vs, v.asked.Patient .suspended) ∧
      w.now = w₀.now ∧ w.Patient .suspended ∧ ∀ p, phase = .reading p → ready p := by
    clear hrep
    induction h with
    | start => exact ⟨by simp, by simp, rfl, hw₀, fun p hp => by cases hp; exact hp₀⟩
    | @polled vs p w v u out hvisits passes call ih =>
      obtain ⟨hstands, hpatient, hnow, hw, hready⟩ := ih
      obtain ⟨hv, hvp⟩ := hstill w v passes
      have hprompt' := hprompt.prompt (hready p rfl)
      rw [unlimited, relabel_eq] at call
      obtain ⟨rfl, rfl⟩ := Prod.mk.inj call
      have hu := hprompt'.atOnce v
      have hup := hprompt'.timed.patient (hvp hw)
      refine ⟨?_, ?_, by rw [hu, hv, hnow], hup, fun p' hp' => ?_⟩
      · simp only [List.mem_append, List.mem_singleton]
        rintro x (hx | rfl)
        · exact hstands x hx
        · exact ⟨by rw [hv, hnow], by rw [hu, hv, hnow]⟩
      · simp only [List.mem_append, List.mem_singleton]
        rintro x (hx | rfl)
        · exact hpatient x hx
        · exact hvp hw
      · rcases hrun : producer p v with ⟨(_ | ⟨x, p''⟩) | _ | _, u⟩ <;> rw [hrun] at hp' <;> cases hp'
        exact hprompt.next (hready p rfl) hrun
  obtain ⟨hstands, hpatient, -⟩ := hall
  have hdeadline : ∀ us v, us ++ [v] <+: vs → v.asked.now = w₀.now ∧ t.deadline us v.asked.now = w₀.now + t.duration.nanos := by
    intro us v huv
    have hv := (hstands v (huv.subset List.mem_concat_self)).1
    refine ⟨hv, ?_⟩
    rw [deadline, hv, gapStart_still fun u hu => hstands u (huv.subset (List.mem_append_left _ hu))]
  refine ⟨fun us v huv => ?_, fun us v huv => ?_, hpatient⟩
  · obtain ⟨hv, hd⟩ := hdeadline us v huv
    rw [hd, hv]
    exact Nat.le_add_right _ _
  · rw [(hdeadline us v huv).2]
    exact hrep v (huv.subset List.mem_concat_self)

end Prompt

/-! ## Accepted policies -/

/-- What every policy that is accepted does in the suspended shapes. It never changes a prompt call. It never changes
what a prompt producer gives to a punctual consumer. A poll of its own never panics while the deadline is an instant,
and always if it is none. -/
theorem accepted {name : String} {d : Duration} {policy : TimeoutPolicy} (h : TimeoutPolicy.create name d = .ok policy) :
    (∀ (work : Act σ (Except ε α)) (w : World σ), work.Prompt → w.Patient .suspended →
      run ⟨policy⟩ work w = (mapError .inner <$> work) w) ∧
    (∀ (producer : Poll σ ρ (Except ε α)) (ready : ρ → Prop) (p₀ : ρ) (meanwhile : World σ → World σ → Prop)
      (w₀ w : World σ) (vs : List (Visit σ (Except (TimeoutError ε) α))),
      PromptIn ready producer → ready p₀ → Punctual ⟨policy⟩ vs →
      ((∃ phase, Visits (poll ⟨policy⟩ producer) meanwhile (watch ⟨policy⟩ p₀) w₀ vs phase w) ↔
        ∃ phase, Visits (unlimited producer) meanwhile p₀ w₀ vs phase w)) ∧
    (∀ (producer : Poll σ ρ (Except ε α)) (p₀ : ρ) (meanwhile : World σ → World σ → Prop)
      (w₀ w v : World σ) (vs : List (Visit σ (Except (TimeoutError ε) α))) (g : Gap ρ), (∀ p, (producer p).Timed) →
      Visits (poll ⟨policy⟩ producer) meanwhile (watch ⟨policy⟩ p₀) w₀ vs (.reading g) w → v.Patient .suspended →
      ((∃ m u, poll ⟨policy⟩ producer g v = (.panicked m, u)) ↔ ∃ p, g.producer = some p ∧
        (v.instantLimit ≤ gapStart vs v.now + d.nanos ∨ ∃ m u, Obtained ⟨policy⟩ producer vs p v (.panicked m) u))) := by
  obtain ⟨-, rfl⟩ := TimeoutPolicy.create_eq_ok.1 h
  refine ⟨fun work w hwork hw => run_prompt _ hwork hw, fun producer ready p₀ meanwhile w₀ w vs hprompt hp₀ hpunctual =>
    visits_prompt_iff hprompt hp₀ hpunctual, ?_⟩
  intro producer p₀ meanwhile w₀ w v vs g hp hvisits hv
  cases hg : g.producer with
  | none =>
    constructor
    · rintro ⟨m, u, hpoll⟩
      cases (poll_dropped hg).symm.trans hpoll
    · rintro ⟨p, hsome, -⟩
      cases hsome
  | some p =>
    rw [poll_panics_iff (hp p) hv hg (visits_anchored hvisits)]
    constructor
    · intro hpanics
      exact ⟨p, rfl, hpanics⟩
    · rintro ⟨_, hsome, hpanics⟩
      cases hsome
      exact hpanics

/-! ## A day, and the longest duration -/

/-- Three elements at once, one of them a failure. -/
def atHand : List (Call TestError Nat) :=
  [⟨[], .value 1⟩, ⟨[], .failure (.transient "x")⟩, ⟨[], .value 2⟩]

/-- The visits of a consumer that asks for all of them without a pause. -/
def atHandVisits : List (Visit FeedTally (Except (TimeoutError TestError) Nat)) :=
  [⟨produced 0 0, .done (some (.ok 1)), produced 1 0⟩,
    ⟨produced 1 0, .done (some (.error (.inner (.transient "x")))), produced 2 0⟩,
    ⟨produced 2 0, .done (some (.ok 2)), produced 3 0⟩, ⟨produced 3 0, .done none, produced 3 0⟩]

theorem visits_atHand :
    Visits (unlimited (Feed.poll .whole)) Eq atHand (produced 0 0) atHandVisits .ended (produced 3 0) := by
  let poll := unlimited (Feed.poll (ε := TestError) (α := Nat) .whole)
  have h1 : poll atHand (produced 0 0) = (.done (some (.ok 1, atHand.drop 1)), produced 1 0) := rfl
  have h2 : poll (atHand.drop 1) (produced 1 0) =
      (.done (some (.error (.inner (.transient "x")), atHand.drop 2)), produced 2 0) := rfl
  have h3 : poll (atHand.drop 2) (produced 2 0) = (.done (some (.ok 2, [])), produced 3 0) := rfl
  have h4 : poll [] (produced 3 0) = (.done none, produced 3 0) := rfl
  exact (((Visits.start.polled rfl h1).polled rfl h2).polled rfl h3).polled rfl h4

/-- The calls of a script that come to a value or a failure at once. -/
def AtHand (p : List (Call ε α)) : Prop := ∀ c ∈ p, c.pauses = [] ∧ c.ending ≠ .never

theorem promptIn_feed (cell : Cell σ FeedTally) : PromptIn (AtHand (ε := ε) (α := α)) (Feed.poll cell) where
  prompt {p} hp := by
    refine ⟨Feed.timed_poll cell p, fun w => ?_, fun w => ?_⟩
    · cases p with
      | nil => intro h; cases h
      | cons c rest =>
        obtain ⟨hpauses, hends⟩ := hp c List.mem_cons_self
        rw [Feed.poll, hpauses]
        cases hend : c.ending with
        | never => exact absurd hend hends
        | _ => intro h; cases h
    · cases p with
      | nil => rfl
      | cons c rest =>
        obtain ⟨hpauses, hends⟩ := hp c List.mem_cons_self
        rw [Feed.poll, hpauses]
        cases hend : c.ending with
        | never => exact absurd hend hends
        | _ => rfl
  next {p p' w w' x} hp h := by
    cases p with
    | nil => cases h
    | cons c rest =>
      have hrest : p' = rest := by
        rcases Feed.poll_cons h with ⟨a, -, ho⟩ | ⟨e, -, ho⟩ <;> cases ho <;> rfl
      exact fun b hb => hp b (List.mem_cons_of_mem _ (hrest ▸ hb))

theorem atHand_ready : AtHand atHand := by simp [AtHand, atHand]

/-- Within a day, the consumer sees the three elements and the end, all at once. -/
theorem accepted_day : ∃ policy phase,
    TimeoutPolicy.create "day" (.ofMillis 86400000) = .ok policy ∧
    run ⟨policy⟩ (pure (.error (.transient "x"))) (produced 0 0) =
      (.done (.error (.inner (.transient "x")) : Except (TimeoutError TestError) Nat), produced 0 0) ∧
    Visits (poll ⟨policy⟩ (Feed.poll .whole)) Eq (watch ⟨policy⟩ atHand) (produced 0 0) atHandVisits phase (produced 3 0) := by
  have hpolicy : TimeoutPolicy.create "day" (.ofMillis 86400000) =
      .ok ⟨"day", .ofMillis 86400000, by decide, by decide⟩ := rfl
  have haccepted := accepted (σ := FeedTally) (ρ := List (Call TestError Nat)) (ε := TestError) (α := Nat) hpolicy
  have hpunctual : Punctual ⟨⟨"day", .ofMillis 86400000, by decide, by decide⟩⟩ atHandVisits :=
    punctual_still (promptIn_feed .whole) atHand_ready visits_atHand rfl
      (by rintro w _ rfl; exact ⟨rfl, id⟩) (by decide)
  obtain ⟨phase, hvisits⟩ := (haccepted.2.1 _ _ atHand Eq _ _ _ (promptIn_feed .whole) atHand_ready
    hpunctual).2 ⟨_, visits_atHand⟩
  have hcall := haccepted.1 (pure (.error (.transient "x"))) (produced 0 0)
    ⟨Act.timed_pure _, nofun, fun _ => rfl⟩ rfl
  exact ⟨_, phase, hpolicy, hcall, hvisits⟩

/-- The longest duration is accepted, and the call under it comes to its result; but the first poll of a stream under
it panics, whatever is ready there. -/
theorem longest_overflows : ∃ policy,
    TimeoutPolicy.create "long" .longest = .ok policy ∧
    run ⟨policy⟩ (pure (.ok 1)) (produced 0 0) =
      (.done (.ok 1 : Except (TimeoutError TestError) Nat), produced 0 0) ∧
    poll ⟨policy⟩ (Feed.poll .whole) (watch ⟨policy⟩ atHand) (produced 0 0) = (.panicked instantOverflow, produced 0 0) :=
  ⟨⟨"long", .longest, by decide, by decide⟩, TimeoutPolicy.create_eq_ok.2 ⟨rfl, rfl⟩,
    run_prompt _ ⟨Act.timed_pure _, nofun, fun _ => rfl⟩ rfl,
    poll_overflow rfl rfl (by decide : (produced 0 0).instantLimit ≤ 0 + longestNanos)⟩

end TimeLimit

end CallGuard

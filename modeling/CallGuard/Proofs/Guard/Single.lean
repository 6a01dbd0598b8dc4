/-
Streams of one element beside suspended calls. A stream whose producers each give what one call of some work
comes to runs the same attempts as a suspended call of that work: a poll of a new producer is an attempt
(`Guards.poll_watch`), and a poll of a retried stream is a retried call (`Attempted.poll_once`). They
differ in what they report, which deaf work does not read.

The induction is on the attempts of the suspended call. What is asked of the producer after its one element is
said apart (`Guards.poll_spent`): it ends, unless a failure left the gap running for too long.
-/
import CallGuard.Guard.Site
import CallGuard.Proofs.Retry.Attempted
import CallGuard.Proofs.Run.Deaf
import CallGuard.Proofs.Timeout.Gap

namespace CallGuard

variable {σ ε α β : Type}

/-- Streams that each give what one call of some work comes to, and then end. -/
def Source.once (work : Act σ (Except ε α)) : Source σ Bool (Except ε α) where
  subscribe := pure true
  poll
    | true => work >>= fun x => pure (some (x, false))
    | false => pure none

namespace Act

theorem bind_pure_eq (x : Act σ α) (f : α → β) (w : World σ) :
    (x >>= fun a => pure (f a)) w = ((x w).1.map f, (x w).2) := by
  show Act.bind x _ w = _
  unfold Act.bind
  rcases x w with ⟨a | m | _, v⟩ <;> rfl

theorem before_bind_pure (pace : Pace) (deadline : Nat) (x : Act σ α) (f : α → β) (w : World σ) :
    before pace deadline (x >>= fun a => pure (f a)) w =
      ((before pace deadline x w).1.map (Option.map f), (before pace deadline x w).2) := by
  simp only [before, bind_pure_eq]
  rcases x _ with ⟨a | m | _, v⟩
  · rfl
  · rfl
  · simp only [Ended.map]
    split <;> rfl

/-- A deadline makes no difference to what has its result at once. -/
theorem before_pure (pace : Pace) (deadline : Nat) (a : α) (w : World σ) :
    before pace deadline (pure a) w = (.done (some a), w) := by
  cases pace <;> rfl

end Act

/-! ## Deadlines of attempts -/

/-- The gap of a producer that was watched from an instant on, after its one element came out at another one. -/
def Gap.answered (start now : Nat) : Except (TimeoutError ε) α → Gap Bool
  | .ok _ => ⟨some false, some now⟩
  | .error (.inner _) => ⟨some false, some start⟩
  | .error (.timeout _ _) => ⟨none, some start⟩

namespace TimeLimit

theorem Representable.instantAfter_eq {t : TimeLimit} {limit n : Nat} (h : t.Representable limit n) :
    instantAfter? limit n t.duration = some (t.due limit n) := by
  rw [h.due_eq]
  exact instantAfter?_of_lt h

theorem deaf_run (t : TimeLimit) {work : Act σ (Except ε α)} (hdeaf : work.Deaf) : (t.run work).Deaf := fun w l => by
  obtain ⟨l', h⟩ := hdeaf.before .suspended (tick (t.due w.instantLimit w.now)) w l
  rcases hrun : t.run work w with ⟨out, v⟩
  cases runsTo.2 hrun with
  | @missed v limited =>
    rw [limited] at h
    exact ⟨t.event :: l', runsTo.1 (.missed h)⟩
  | kept _ limited =>
    rw [limited] at h
    exact ⟨l', runsTo.1 (.kept _ h)⟩

/-- The first poll under a deadline is a run under the same deadline. -/
theorem poll_once (t : TimeLimit) (work : Act σ (Except ε α)) {w : World σ} (hrep : t.Representable w.instantLimit w.now) :
    t.poll (Source.once work).poll (t.watch true) w =
      ((t.run work w).1.map fun x => some (x, Gap.answered w.now (t.run work w).2.now x), (t.run work w).2) := by
  have hlate : ¬ t.due w.instantLimit w.now < w.now := Nat.not_lt.2 (t.le_due w.instantLimit w.now)
  simp only [poll, watch, Option.getD_none, hrep.instantAfter_eq, if_neg hlate, Source.once, Act.before_bind_pure, run]
  rcases Act.before .suspended (tick (t.due w.instantLimit w.now)) work w with ⟨(_ | ⟨e | a⟩) | m | _, v⟩ <;> rfl

/-- A poll of a producer that has given its one element. -/
theorem poll_spent (t : TimeLimit) (work : Act σ (Except ε α)) {since : Nat} {w : World σ}
    (hrep : t.Representable w.instantLimit since) : t.poll (Source.once work).poll ⟨some false, some since⟩ w =
      if t.due w.instantLimit since < w.now then t.miss since w else (.done none, w) := by
  simp only [poll, Option.getD_some, hrep.instantAfter_eq, Source.once, Act.before_pure]

end TimeLimit

/-! ## Attempts -/

namespace Guards

variable (g : Guards) (work : Act σ (Except ε α))

/-- One attempt of a call that is made blocking or suspended. -/
def attemptAt (g : Guards) (pace : Pace) (job : Job σ ε α) : Act σ (Except (TimeoutError ε) α) :=
  match pace with
  | .blocking => g.attemptBlocking job
  | .suspended => g.attempt (job.run .suspended)

theorem deaf_attempt {work : Act σ (Except ε α)} (hdeaf : work.Deaf) : (g.attempt work).Deaf := by
  unfold attempt
  split
  · exact TimeLimit.deaf_run _ hdeaf
  · exact hdeaf.bind fun _ => Act.deaf_pure _

/-- The deadlines of work that begins now can be represented. -/
def Representable (limit now : Nat) : Prop := ∀ t ∈ g.timeLimit, t.Representable limit now

theorem Representable.mono {g : Guards} {limit m n : Nat} (h : g.Representable limit n) (hle : m ≤ n) :
    g.Representable limit m := fun t ht => (h t ht).mono hle

/-- A producer that has given its one element, with a gap that began at an instant. -/
def spent (since : Nat) : Watched Bool :=
  match g.timeLimit with
  | some t => .timed t ⟨some false, some since⟩
  | none => .bare false

/-- A producer that was watched from an instant on, after its one element came out at another one. -/
def answered (start now : Nat) (x : Except (TimeoutError ε) α) : Watched Bool :=
  match g.timeLimit with
  | some t => .timed t (.answered start now x)
  | none => .bare false

theorem answered_ok (start now : Nat) (a : α) : g.answered start now (.ok a : Except (TimeoutError ε) α) = g.spent now := by
  unfold answered spent
  split <;> rfl

/-- The first poll of a producer is an attempt. -/
theorem poll_watch {w : World σ} (hrep : g.Representable w.instantLimit w.now) :
    (g.attempts (.once work)).poll (g.watch true) w =
      ((g.attempt work w).1.map fun x => some (x, g.answered w.now (g.attempt work w).2.now x), (g.attempt work w).2) := by
  obtain ⟨limit, loop⟩ := g
  cases limit with
  | some t =>
    show relabel id (Watched.timed t) (t.poll (Source.once work).poll (t.watch true)) w = _
    rw [relabel_eq, t.poll_once work (hrep t rfl)]
    show (relabelled _ _ ((t.run work w).1.map _), (t.run work w).2) = ((t.run work w).1.map _, (t.run work w).2)
    cases (t.run work w).1 <;> rfl
  | none =>
    show relabel (mapError TimeoutError.inner) Watched.bare ((Source.once work).poll true) w = _
    rw [relabel_eq]
    show (relabelled _ _ ((work >>= fun x => pure (some (x, false))) w).1,
      ((work >>= fun x => pure (some (x, false))) w).2) =
      (((work >>= fun x => pure (mapError TimeoutError.inner x)) w).1.map _,
        ((work >>= fun x => pure (mapError TimeoutError.inner x)) w).2)
    rw [Act.bind_pure_eq, Act.bind_pure_eq]
    cases (work w).1 <;> rfl

/-- The first poll of a producer is an attempt, whatever was reported before. -/
theorem poll_watch_relogged {g : Guards} {work : Act σ (Except ε α)} (hdeaf : work.Deaf) {w w₁ : World σ}
    {x : Ended (Except (TimeoutError ε) α)}
    (hrep : g.Representable w.instantLimit w.now) (call : g.attempt work w = (x, w₁)) (l : List Event) :
    ∃ l', (g.attempts (.once work)).poll (g.watch true) (w.relogged l) =
      (x.map fun x => some (x, g.answered w.now w₁.now x), w₁.relogged l') := by
  obtain ⟨l', h⟩ := g.deaf_attempt hdeaf w l
  rw [call] at h
  exact ⟨l', by rw [g.poll_watch work (w := w.relogged l) hrep, h]; rfl⟩

/-- After its one element the producer ends, unless the gap is over. -/
theorem poll_spent {since : Nat} {w : World σ} (hrep : g.Representable w.instantLimit since)
    (hgap : ∀ t ∈ g.timeLimit, w.now ≤ t.due w.instantLimit since) :
    (g.attempts (.once work)).poll (g.spent since) w = (.done none, w) := by
  obtain ⟨limit, loop⟩ := g
  cases limit with
  | some t =>
    show relabel id (Watched.timed t) (t.poll (Source.once work).poll ⟨some false, some since⟩) w = _
    rw [relabel_eq, t.poll_spent work (hrep t rfl), if_neg (Nat.not_lt.2 (hgap t rfl))]
    rfl
  | none => rfl

end Guards

/-! ## Time goes on -/

section Forward

theorem Act.Forward.before {x : Act σ α} (hx : x.Forward) (deadline : Nat) : (before .suspended deadline x).Forward := by
  intro w
  have hforward := hx (w.setClock .suspended { w.clock .suspended with
    horizon := some (earlier (w.clock .suspended).horizon deadline) })
  simp only [Act.before]
  rcases hrun : x _ with ⟨_ | _ | _, v⟩ <;> rw [hrun] at hforward <;> exact ⟨hforward.le, hforward.limit⟩

theorem TimeLimit.now_run (t : TimeLimit) (work : Act σ (Except ε α)) (w : World σ) :
    (t.run work w).2.now = (Act.before .suspended (tick (t.due w.instantLimit w.now)) work w).2.now := by
  rcases hrun : t.run work w with ⟨out, v⟩
  cases runsTo.2 hrun with
  | missed limited => rw [limited]; rfl
  | kept _ limited => rw [limited]

theorem TimeLimit.forward_run (t : TimeLimit) {work : Act σ (Except ε α)} (hwork : work.Forward) :
    (t.run work).Forward := by
  intro w
  have hbefore := hwork.before (tick (t.due w.instantLimit w.now)) w
  rcases hrun : t.run work w with ⟨out, v⟩
  cases runsTo.2 hrun with
  | missed limited =>
    rw [limited] at hbefore
    exact hbefore.reports [_]
  | kept _ limited =>
    rw [limited] at hbefore
    exact hbefore

theorem Guards.forward_attempt (g : Guards) {work : Act σ (Except ε α)} (hwork : work.Forward) :
    (g.attempt work).Forward := by
  obtain ⟨limit, loop⟩ := g
  cases limit with
  | some t => exact t.forward_run hwork
  | none => exact hwork.bind fun _ w => .refl w

end Forward

/-! ## Retried streams -/

section Retried

variable [Fault ε]

theorem RetryLoop.judge_relogged (r : RetryLoop) (s : Progress ε) (e : ε) (w : World σ) (l : List Event) :
    ∃ l', (r.judge s e (w.relogged l)).2 = (r.judge s e w).2.relogged l' := by
  obtain ⟨l₁, h₁⟩ := World.reports_eq_relogged (s.fail r.policy w.dice w.now e).events (w.relogged l)
  obtain ⟨l₂, h₂⟩ := World.reports_eq_relogged (s.fail r.policy w.dice w.now e).events w
  refine ⟨l₁, h₁.trans ?_⟩
  show w.relogged l₁ = (((s.fail r.policy w.dice w.now e).events.foldl World.report w).relogged l₁)
  rw [h₂]
  rfl

/-- Where a retried stream of single elements stands after an item. -/
def Guards.afterItem (g : Guards) (s : Progress (TimeoutError ε)) (now : Nat) :
    Except (RetryError (TimeoutError ε)) α → Subscription (Watched Bool) (TimeoutError ε)
  | .ok _ => .live (g.spent now) 0 s
  | .error _ => .finished

/-- A new producer is there at once, and its first poll is an attempt. -/
theorem RetryLoop.poll_waiting_watch (r : RetryLoop) {g : Guards} {work : Act σ (Except ε α)} (hdeaf : work.Deaf)
    {s : Progress (TimeoutError ε)} (hs : s.delivered = 0) {w w₁ : World σ} {x : Ended (Except (TimeoutError ε) α)}
    (hrep : g.Representable w.instantLimit w.now) (call : g.attempt work w = (x, w₁)) (l : List Event) :
    ∃ l₁ l₂, r.poll (g.attempts (.once work)) (.waiting s) (w.relogged l) =
        r.poll (g.attempts (.once work)) (.live (g.watch true) 0 (s.beginAttempt w.now)) (w.relogged l₁) ∧
      (g.attempts (.once work)).poll (g.watch true) (w.relogged l₁) =
        (x.map fun x => some (x, g.answered w.now w₁.now x), w₁.relogged l₂) := by
  have hannounced : ∃ l', announced s (w.relogged l) = w.relogged l' := by
    unfold announced
    split
    · exact ⟨_, rfl⟩
    · exact ⟨l, rfl⟩
  obtain ⟨l₁, h⟩ := hannounced
  obtain ⟨l₂, hpoll⟩ := Guards.poll_watch_relogged hdeaf hrep call l₁
  refine ⟨l₁, l₂, ?_, hpoll⟩
  rw [poll_waiting, h, ← hs]
  rfl

/-- An element for the consumer. -/
theorem RetryLoop.poll_deliver {ρ : Type} {r : RetryLoop} {source : Source σ ρ (Except ε α)} {p p' : ρ} {s : Progress ε}
    {w w₁ : World σ} {a : α} (call : source.poll p w = (.done (some (.ok a, p')), w₁)) :
    r.poll source (.live p 0 s) w = (.done (some (.ok a, .live p' 0 (s.deliver w₁.now))), w₁) := by
  rw [poll, call]

/-- An element that does not come. -/
theorem RetryLoop.poll_broken {ρ : Type} {r : RetryLoop} {source : Source σ ρ (Except ε α)} {p : ρ} {k : Nat}
    {s : Progress ε} {w w₁ : World σ} {x : Ended (Option (Except ε α × ρ))}
    {y : Ended (Option (Except (RetryError ε) α × Subscription ρ ε))} (call : source.poll p w = (x, w₁))
    (broke : x.Broke y) : r.poll source (.live p k s) w = (y, w₁) := by
  rw [poll, call]
  cases broke <;> rfl

/-- A poll of a retried stream of single elements is a retried call. -/
theorem Attempted.poll_once {r : RetryLoop} {g : Guards} {work : Act σ (Except ε α)} (hdeaf : work.Deaf)
    (hf : work.Forward) {s : Progress (TimeoutError ε)} {w : World σ}
    {out : Ended (Except (RetryError (TimeoutError ε)) α) × World σ}
    (h : Attempted r .suspended (g.attempt work) s w out) (hrep : g.Representable w.instantLimit out.2.now)
    (hs : s.delivered = 0) (l : List Event) : ∃ s' l', r.poll (g.attempts (.once work)) (.waiting s) (w.relogged l) =
      (out.1.map fun x => some (x, g.afterItem s' out.2.now x), out.2.relogged l') := by
  have hnow := hrep.mono (h.forward (g.forward_attempt hf)).le
  -- On the attempts of the call. The stream also reports that it starts over, so its world has another log; `l` is
  -- the log with which an attempt begins.
  induction h generalizing l with
  | @value s w w₁ a call =>
    obtain ⟨l₁, l₂, hwaiting, hpoll⟩ := r.poll_waiting_watch hdeaf hs hnow call l
    refine ⟨(s.beginAttempt w.now).deliver w₁.now, l₂, hwaiting.trans ?_⟩
    rw [RetryLoop.poll_deliver hpoll, g.answered_ok]
    rfl
  | @giveUp s w w₁ e error call decision =>
    obtain ⟨l₁, l₂, hwaiting, hpoll⟩ := r.poll_waiting_watch hdeaf hs hnow call l
    obtain ⟨l₃, hjudge⟩ := r.judge_relogged (s.beginAttempt w.now) e w₁ l₂
    refine ⟨s, l₃, hwaiting.trans ?_⟩
    rw [poll_giveUp hpoll decision, hjudge]
    rfl
  | @retry s next w w₁ w₂ e d out call decision sleep rest ih =>
    obtain ⟨l₁, l₂, hwaiting, hpoll⟩ := r.poll_waiting_watch hdeaf hs hnow call l
    obtain ⟨l₃, hjudge⟩ := r.judge_relogged (s.beginAttempt w.now) e w₁ l₂
    obtain ⟨l₄, hsleep⟩ := Act.deaf_sleep .suspended d (r.judge (s.beginAttempt w.now) e w₁).2 l₃
    obtain ⟨-, -, rfl⟩ := Progress.of_decision_retry r.valid decision
    rw [← (RetryLoop.forward_retry (g.forward_attempt hf) call sleep).limit] at hrep
    obtain ⟨s', l', hrest⟩ := ih hrep hs l₄ (hrep.mono (rest.forward (g.forward_attempt hf)).le)
    refine ⟨s', l', hwaiting.trans ?_⟩
    rw [poll_retry hpoll decision, hjudge, hsleep, sleep]
    exact hrest
  | @broken s w w₁ x y call broke =>
    obtain ⟨l₁, l₂, hwaiting, hpoll⟩ := r.poll_waiting_watch hdeaf hs hnow call l
    refine ⟨s, l₂, hwaiting.trans (RetryLoop.poll_broken hpoll ?_)⟩
    cases broke <;> constructor
  | @unslept s next w w₁ w₂ e d x y call decision sleep broke =>
    obtain ⟨l₁, l₂, hwaiting, hpoll⟩ := r.poll_waiting_watch hdeaf hs hnow call l
    obtain ⟨l₃, hjudge⟩ := r.judge_relogged (s.beginAttempt w.now) e w₁ l₂
    obtain ⟨l₄, hsleep⟩ := Act.deaf_sleep .suspended d (r.judge (s.beginAttempt w.now) e w₁).2 l₃
    refine ⟨s, l₄, hwaiting.trans ?_⟩
    rw [poll_retry hpoll decision, hjudge, hsleep, sleep]
    cases broke <;> rfl

end Retried

end CallGuard

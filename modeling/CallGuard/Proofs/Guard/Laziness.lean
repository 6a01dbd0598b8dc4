/-
When the work of a call site is called, and how often, as any count in its own state tells
(`CallSite.called_once_per_attempt`). A suspended call and a retried stream are handed out before anything of them
happens, and then call their work once for every attempt (`Guards.adds_run`, `Retells.subscribed`). A stream without
retries is different: it subscribes when it is started, even if nobody ever polls it (`CallSite.start_eager`).

For calls the induction is on the attempts of a run, for streams on the moves of a poll and then on the polls of a
consumer. Between two moves the state of a stream knows how often it has subscribed: as often as its attempts have
failed, and once more while a producer is there.
-/
import CallGuard.Proofs.Guard.Single
import CallGuard.Proofs.Run.Counting
import CallGuard.Proofs.Stream.Delivery
import CallGuard.Proofs.Stream.Tale

namespace CallGuard

variable {σ ρ ε α : Type} {count : σ → Nat}

/-! ## Attempts under their deadlines -/

namespace Guards

variable (g : Guards)

theorem adds_attempt {work : Act σ (Except ε α)} (hwork : work.Adds count 1) : (g.attempt work).Adds count 1 := by
  unfold attempt
  split
  · exact TimeLimit.adds_run _ hwork
  · exact hwork.bind fun _ => Act.adds_pure _

theorem counted_attempts {source : Source σ ρ (Except ε α)} (hsource : source.Counted count) :
    (g.attempts source).Counted count where
  subscribe := hsource.subscribe.bind fun _ => Act.adds_pure _
  poll
    | .bare p => (hsource.poll p).relabel _ _
    | .timed t gap => (t.adds_poll hsource.poll gap).relabel _ _

end Guards

/-! ## Calls -/

section Calls

variable [Fault ε]

theorem RetryLoop.own_judge (r : RetryLoop) (s : Progress ε) (e : ε) (w : World σ) : (r.judge s e w).2.own = w.own :=
  World.own_reports _ w

variable {r : RetryLoop} {pace : Pace} {work : Act σ (Except ε α)} {s next : Progress ε} {w w' v : World σ}
  {turn : Turn ε α} {k : Nat}

theorem Again.adds (h : Again r pace work s w turn next w') (hwork : work.Adds count 1) :
    count w'.own = count w.own + 1 := by
  cases h with
  | retry call decision sleep =>
    rw [(Act.adds_sleep pace _ : Act.Adds count 0 _).of_eq sleep, r.own_judge, hwork.of_eq call]

theorem Over.adds {tale : Tale ε α} {out : Ended (Except (RetryError ε) α)} (h : Over r pace work s w tale out w')
    (hwork : work.Adds count 1) : count w'.own = count w.own + 1 := by
  cases h with
  | value call | broken call broke => exact hwork.of_eq call
  | giveUp call decision => rw [r.own_judge, hwork.of_eq call]
  | unslept call decision sleep broke =>
    rw [(Act.adds_sleep pace _ : Act.Adds count 0 _).of_eq sleep, r.own_judge, hwork.of_eq call]

/-- The work decides whether another attempt follows, and where. -/
theorem Again.unique (h : Again r pace work s w turn next w') {turn' : Turn ε α} {next' : Progress ε} {w'' : World σ}
    (h' : Again r pace work s w turn' next' w'') : next' = next ∧ w'' = w' := by
  cases h with
  | retry call decision sleep =>
    cases h' with
    | retry call' decision' sleep' =>
      cases call.symm.trans call'
      cases decision.symm.trans decision'
      cases sleep.symm.trans sleep'
      exact ⟨rfl, rfl⟩

theorem Over.not_again {tale : Tale ε α} {out : Ended (Except (RetryError ε) α)} (h : Over r pace work s w tale out w')
    {w'' : World σ} : ¬ Again r pace work s w turn next w'' := by
  rintro ⟨call', decision', sleep'⟩
  cases h with
  | value call => cases call.symm.trans call'
  | giveUp call decision =>
    cases call.symm.trans call'
    cases decision.symm.trans decision'
  | broken call broke =>
    cases call.symm.trans call'
    cases broke
  | unslept call decision sleep broke =>
    cases call.symm.trans call'
    cases decision.symm.trans decision'
    cases sleep.symm.trans sleep'
    cases broke

/-- The first attempt begins at once, and the others after it. -/
theorem Again.begins_iff (h : Again r pace work s w turn next w') : (∃ v, Begins r pace work s w k v) ↔
    k = 1 ∨ ∃ j v, Begins r pace work next w' j v ∧ k = j + 1 := by
  constructor
  · rintro ⟨v, _ | ⟨call, decision, sleep, rest⟩⟩
    · exact .inl rfl
    · obtain ⟨rfl, rfl⟩ := h.unique (.retry call decision sleep)
      exact .inr ⟨_, v, rest, rfl⟩
  · rintro (rfl | ⟨j, v, later, rfl⟩)
    · exact ⟨w, .now⟩
    · cases h with
      | retry call decision sleep => exact ⟨v, .later call decision sleep later⟩

/-- After the last attempt none begins. -/
theorem Over.begins_iff {tale : Tale ε α} {out : Ended (Except (RetryError ε) α)}
    (h : Over r pace work s w tale out w') : (∃ v, Begins r pace work s w k v) ↔ k = 1 := by
  constructor
  · rintro ⟨v, _ | ⟨call, decision, sleep, rest⟩⟩
    · rfl
    · exact (h.not_again (.retry call decision sleep)).elim
  · rintro rfl
    exact ⟨w, .now⟩

/-- Only one world is that in which an attempt begins. -/
theorem Begins.unique {v' : World σ} (h : Begins r pace work s w k v) (h' : Begins r pace work s w k v') : v' = v := by
  induction h with
  | now =>
    cases h' with
    | now => rfl
    | later _ _ _ rest => cases rest
  | later call decision sleep rest ih =>
    cases h' with
    | now => cases rest
    | later call' decision' sleep' rest' =>
      have hagain : Again r pace work _ _ _ _ _ := .retry call decision sleep
      obtain ⟨rfl, rfl⟩ := hagain.unique (.retry call' decision' sleep')
      exact ih rest'

/-- Every attempt but the first begins after another one. -/
theorem Begins.previous (h : Begins r pace work s w k v) : k = 1 ∧ v = w ∨
    ∃ j u s' turn next, k = j + 1 ∧ Begins r pace work s w j u ∧ Again r pace work s' u turn next v := by
  induction h with
  | now => exact .inl ⟨rfl, rfl⟩
  | later call decision sleep rest ih =>
    rcases ih with ⟨rfl, rfl⟩ | ⟨j, u, s', turn, next, rfl, begins, again⟩
    · exact .inr ⟨1, _, _, _, _, rfl, .now, .retry call decision sleep⟩
    · exact .inr ⟨j + 1, u, s', turn, next, rfl, .later call decision sleep begins, again⟩

/-- When an attempt begins, the work has been called once for each attempt before it. -/
theorem Begins.adds (h : Begins r pace work s w k v) (hwork : work.Adds count 1) :
    count v.own + 1 = count w.own + k := by
  induction h with
  | now => rfl
  | @later s next w w₁ w₂ v e d k call decision sleep rest ih =>
    have hagain : Again r pace work s w (.retried e d) next w₂ := .retry call decision sleep
    rw [ih, hagain.adds hwork, Nat.add_assoc, Nat.add_comm 1]

/-- A run has so many attempts, is over with the last of them, and calls the work once for each. -/
theorem Trail.begins {tale : Tale ε α} {out : Ended (Except (RetryError ε) α)}
    (h : Trail (Again r pace work) (Over r pace work) s w tale out w') :
    ∃ n, (∀ k, (∃ v, Begins r pace work s w k v) ↔ 1 ≤ k ∧ k ≤ n) ∧
      (∃ s' v tale', Begins r pace work s w n v ∧ Over r pace work s' v tale' out w') ∧
      ∀ count : σ → Nat, work.Adds count 1 → count w'.own = count w.own + n := by
  induction h with
  | halt last =>
    refine ⟨1, fun k => ?_, ⟨_, _, _, .now, last⟩, fun count => last.adds⟩
    rw [last.begins_iff]
    omega
  | go first rest ih =>
    obtain ⟨n, hbegins, ⟨s', v, tale', later, last⟩, hadds⟩ := ih
    refine ⟨n + 1, fun k => ?_, ⟨s', v, tale', ?_, last⟩, fun count hwork => ?_⟩
    · rw [first.begins_iff]
      constructor
      · rintro (rfl | ⟨j, v, later, rfl⟩)
        · omega
        · have hj := (hbegins j).1 ⟨v, later⟩
          omega
      · rintro ⟨hpos, hle⟩
        obtain ⟨j, rfl⟩ := Nat.exists_eq_add_of_le' hpos
        rcases Nat.eq_zero_or_pos j with rfl | hj
        · exact .inl rfl
        · obtain ⟨v, later⟩ := (hbegins j).2 ⟨hj, Nat.le_of_succ_le_succ hle⟩
          exact .inr ⟨j, v, later, rfl⟩
    · cases first with
      | retry call decision sleep => exact .later call decision sleep later
    · rw [hadds count hwork, first.adds hwork, Nat.add_assoc, Nat.add_comm 1]

end Calls

/-- An attempt of a suspended call begins, counted from one. -/
def Guards.AttemptBegins [Fault ε] (g : Guards) (work : Act σ (Except ε α)) (w : World σ) (k : Nat) (v : World σ) :
    Prop :=
  match g.retryLoop with
  | some r => CallGuard.Begins r .suspended (g.attempt work) (.start w.now) w k v
  | none => k = 1 ∧ v = w

namespace Guards

variable [Fault ε] {g : Guards} {work : Act σ (Except ε α)} {w v : World σ} {k : Nat}

theorem attemptBegins_repeated {r : RetryLoop} (hloop : g.retryLoop = some r) : g.AttemptBegins work w k v ↔
    CallGuard.Begins r .suspended (g.attempt work) (.start w.now) w k v := by
  rw [AttemptBegins, hloop]

theorem attemptBegins_single (hloop : g.retryLoop = none) : g.AttemptBegins work w k v ↔ k = 1 ∧ v = w := by
  rw [AttemptBegins, hloop]

theorem begins_first (g : Guards) (work : Act σ (Except ε α)) (w : World σ) : g.AttemptBegins work w 1 w := by
  cases hloop : g.retryLoop with
  | some r => exact (attemptBegins_repeated hloop).2 .now
  | none => exact (attemptBegins_single hloop).2 ⟨rfl, rfl⟩

theorem AttemptBegins.unique {v' : World σ} (h : g.AttemptBegins work w k v) (h' : g.AttemptBegins work w k v') :
    v' = v := by
  cases hloop : g.retryLoop with
  | some r => exact ((attemptBegins_repeated hloop).1 h).unique ((attemptBegins_repeated hloop).1 h')
  | none => exact ((attemptBegins_single hloop).1 h').2.trans ((attemptBegins_single hloop).1 h).2.symm

theorem AttemptBegins.previous (h : g.AttemptBegins work w k v) : k = 1 ∧ v = w ∨
    ∃ r j u s turn next, k = j + 1 ∧ g.AttemptBegins work w j u ∧ Again r .suspended (g.attempt work) s u turn next v := by
  cases hloop : g.retryLoop with
  | some r =>
    rcases ((attemptBegins_repeated hloop).1 h).previous with hfirst | ⟨j, u, s, turn, next, hk, begins, again⟩
    · exact .inl hfirst
    · exact .inr ⟨r, j, u, s, turn, next, hk, (attemptBegins_repeated hloop).2 begins, again⟩
  | none => exact .inl ((attemptBegins_single hloop).1 h)

end Guards

/-- A suspended call has so many attempts, and calls its work once for each of them. -/
theorem Guards.adds_run [Fault ε] (g : Guards) (work : Act σ (Except ε α)) (w : World σ) :
    ∃ n, (∀ k, (∃ v, g.AttemptBegins work w k v) ↔ 1 ≤ k ∧ k ≤ n) ∧ ∀ count : σ → Nat, work.Adds count 1 →
      (∀ k v, g.AttemptBegins work w k v → count v.own + 1 = count w.own + k) ∧
      count (g.run .suspended (g.attempt work) w).2.own = count w.own + n := by
  unfold run AttemptBegins
  cases g.retryLoop with
  | some r =>
    obtain ⟨tale, htale⟩ := (r.attempted .suspended (g.attempt work) (.start w.now) w).trail
    obtain ⟨n, hbegins, -, hadds⟩ := htale.begins
    refine ⟨n, hbegins, fun count hwork => ⟨fun k v h => h.adds (g.adds_attempt hwork), ?_⟩⟩
    dsimp only
    rw [Act.bind_pure_eq]
    exact hadds count (g.adds_attempt hwork)
  | none =>
    refine ⟨1, fun k => ?_, fun count hwork => ⟨?_, ?_⟩⟩
    · constructor
      · rintro ⟨v, rfl, rfl⟩
        exact ⟨Nat.le_refl 1, Nat.le_refl 1⟩
      · rintro ⟨hpos, hle⟩
        exact ⟨w, Nat.le_antisymm hle hpos, rfl⟩
    · rintro k v ⟨rfl, rfl⟩
      rfl
    · dsimp only
      rw [Act.bind_pure_eq]
      exact g.adds_attempt hwork w

/-! ## Streams -/

namespace Turn

def subscribes : Turn ε α → Bool
  | subscribed _ => true
  | _ => false

/-- How often a retried stream subscribed. -/
def subscriptions (ts : List (Turn ε α)) : Nat := ts.countP subscribes

/-- How often a retried stream failed and waited. -/
def failures (ts : List (Turn ε α)) : Nat := (errors ts).length

theorem subscriptions_append (ts us : List (Turn ε α)) :
    subscriptions (ts ++ us) = subscriptions ts + subscriptions us := List.countP_append

theorem failures_append (ts us : List (Turn ε α)) : failures (ts ++ us) = failures ts + failures us := by
  rw [failures, errors, List.filterMap_append, List.length_append]
  rfl

end Turn

/-- The bookkeeping of a retried stream knows how often it has subscribed: once for every failure, and once more while
a producer is there. -/
def Subscription.Numbers (turns : List (Turn ε α)) : Subscription ρ ε → Prop
  | .waiting s => Turn.subscriptions turns = s.failed ∧ Turn.failures turns = s.failed
  | .live _ _ s => Turn.subscriptions turns = s.attempt ∧ Turn.failures turns = s.failed
  | .finished => Turn.subscriptions turns = Turn.failures turns + 1

/-- How often a retried stream has subscribed when its consumer gets somewhere: not at all before the first poll, and
then once for every attempt, of which the last one did not begin if nobody waited for it. -/
def Phase.Numbers (turns : List (Turn ε α)) : Phase (Subscription ρ ε) → Prop
  | .reading (.waiting s) => s.failed = 0 ∧ turns = []
  | .reading (.live _ _ s) => Turn.subscriptions turns = s.attempt ∧ Turn.failures turns = s.failed
  | .reading .finished | .ended => Turn.subscriptions turns = Turn.failures turns + 1
  | .broken => Turn.subscriptions turns = Turn.failures turns + 1 ∨
      0 < Turn.failures turns ∧ Turn.subscriptions turns = Turn.failures turns

theorem Phase.Numbers.state {turns : List (Turn ε α)} {st : Subscription ρ ε} (h : (Phase.reading st).Numbers turns) :
    st.Numbers turns := by
  cases st with
  | waiting s =>
    obtain ⟨hs, rfl⟩ := h
    exact ⟨hs.symm, hs.symm⟩
  | live p k s => exact h
  | finished => exact h

theorem own_announced (s : Progress ε) (w : World σ) : (announced s w).own = w.own := by
  unfold announced
  split <;> rfl

section Streams

variable [Fault ε] {r : RetryLoop} {source : Source σ ρ (Except ε α)} {st st' : Subscription ρ ε} {w w' : World σ}
  {turn : Turn ε α} {past : List (Turn ε α)}

/-- A new producer is subscribed to, and nothing else is. -/
theorem Moves.adds (h : Moves r source st w turn st' w') (hcount : source.Counted count) :
    count w'.own = count w.own + Turn.subscriptions [turn] := by
  cases h with
  | @subscribe s w w₁ p call =>
    rw [hcount.subscribe.of_eq call, own_announced]
    rfl
  | @skip p p' k s w w₁ a call => exact (hcount.poll p).of_eq call
  | @retry p p' k s next w w₁ w₂ e d call decision sleep =>
    rw [(Act.adds_sleep _ d : Act.Adds count 0 _).of_eq sleep, r.own_judge]
    exact (hcount.poll p).of_eq call

theorem Moves.numbers (h : Moves r source st w turn st' w') (hst : st.Numbers past) : st'.Numbers (past ++ [turn]) := by
  unfold Subscription.Numbers at *
  rw [Turn.subscriptions_append, Turn.failures_append]
  cases h with
  | subscribe call => exact ⟨congrArg (· + 1) hst.1, hst.2⟩
  | skip call => exact hst
  | retry call decision sleep =>
    have hnext := Progress.failed_of_fail decision
    exact ⟨hst.1.trans hnext.symm, (congrArg (· + 1) hst.2).trans hnext.symm⟩

theorem Halts.adds {tale : Tale ε α} {out : Ended (Option (Except (RetryError ε) α × Subscription ρ ε))}
    (h : Halts r source st w tale out w') (hcount : source.Counted count) :
    count w'.own = count w.own + Turn.subscriptions tale.turns := by
  cases h with
  | finished => rfl
  | @deliver p _ _ _ _ _ call | @ended p _ _ _ _ call | @unanswered p _ _ _ _ _ _ call _ =>
    exact (hcount.poll p).of_eq call
  | @giveUp p _ _ _ _ _ _ _ call decision =>
    rw [r.own_judge]
    exact (hcount.poll p).of_eq call
  | unsubscribed call broke =>
    rw [hcount.subscribe.of_eq call, own_announced]
    rfl
  | @unslept p _ _ _ _ _ _ _ _ d _ _ call decision sleep broke =>
    rw [(Act.adds_sleep _ d : Act.Adds count 0 _).of_eq sleep, r.own_judge]
    exact (hcount.poll p).of_eq call

theorem Halts.numbers {tale : Tale ε α} {out : Ended (Option (Except (RetryError ε) α × Subscription ρ ε))}
    (h : Halts r source st w tale out w') (hst : st.Numbers past) : (Phase.after out).Numbers (past ++ tale.turns) := by
  cases h with
  | finished =>
    rw [List.append_nil]
    exact hst
  | deliver call =>
    unfold Phase.Numbers
    rw [Turn.subscriptions_append, Turn.failures_append]
    exact hst
  | giveUp call decision | ended call =>
    rw [List.append_nil]
    exact hst.1.trans (congrArg (· + 1) hst.2.symm)
  | unsubscribed call broke =>
    rw [broke.after]
    refine .inl ?_
    rw [Turn.subscriptions_append, Turn.failures_append, hst.1, hst.2]
    rfl
  | unanswered call broke =>
    rw [broke.after, List.append_nil]
    exact .inl (hst.1.trans (congrArg (· + 1) hst.2.symm))
  | unslept call decision sleep broke =>
    rw [broke.after]
    refine .inr ?_
    rw [Turn.subscriptions_append, Turn.failures_append, hst.1, hst.2]
    exact ⟨Nat.succ_pos _, rfl⟩

/-- What a poll asks of the producers. -/
theorem PollTrail.subscribed {tale : Tale ε α} {out : Ended (Option (Except (RetryError ε) α × Subscription ρ ε))}
    (h : PollTrail r source st w tale out w') :
    (∀ past, st.Numbers past → (Phase.after out).Numbers (past ++ tale.turns)) ∧
      ∀ count : σ → Nat, source.Counted count → count w'.own = count w.own + Turn.subscriptions tale.turns := by
  induction h with
  | halt last => exact ⟨fun _ => last.numbers, fun _ => last.adds⟩
  | @go st st' w w₁ w' turn tale out first rest ih =>
    obtain ⟨hnumbers, hadds⟩ := ih
    refine ⟨fun past hst => ?_, fun count hcount => ?_⟩
    · have hrest := hnumbers _ (first.numbers hst)
      rwa [List.append_assoc] at hrest
    · rw [hadds count hcount, first.adds hcount, Nat.add_assoc, ← Turn.subscriptions_append]
      rfl

/-- A consumer's run subscribes once for every attempt. -/
theorem Retells.subscribed {meanwhile : World σ → World σ → Prop} {created : Nat} {w₀ : World σ} {tale : Tale ε α}
    {items : List (Except (RetryError ε) α)} {phase : Phase (Subscription ρ ε)}
    (h : Retells r source meanwhile (.fresh created) w₀ tale items phase w) :
    phase.Numbers tale.turns ∧ ∀ count : σ → Nat, source.Counted count →
      (∀ v v', meanwhile v v' → count v'.own = count v.own) →
      count w.own = count w₀.own + Turn.subscriptions tale.turns := by
  induction h with
  | start => exact ⟨⟨rfl, rfl⟩, fun _ _ _ => rfl⟩
  | idle h passes ih =>
    obtain ⟨hnumbers, hadds⟩ := ih
    refine ⟨hnumbers, fun count hcount hmeanwhile => ?_⟩
    rw [hmeanwhile _ _ passes, hadds count hcount hmeanwhile]
  | polled h poll ih =>
    obtain ⟨hnumbers, hadds⟩ := ih
    obtain ⟨hpolled, hcounted⟩ := poll.subscribed
    refine ⟨hpolled _ hnumbers.state, fun count hcount hmeanwhile => ?_⟩
    rw [hcounted count hcount, hadds count hcount hmeanwhile, Nat.add_assoc, ← Turn.subscriptions_append]
    rfl

end Streams

/-! ## Call sites -/

section Sites

variable [Fault ε]

/-- Who reads a retried stream reads the attempts below it. -/
theorem Reads.repeated {producers : Source σ (Watched ρ) (Except (TimeoutError ε) α)} {r : RetryLoop}
    {st : Subscription (Watched ρ) (TimeoutError ε)} {meanwhile : World σ → World σ → Prop} {u v : World σ}
    {items : List (Except (GuardError ε) α)} {phase : Phase (Attempts ρ ε)}
    (h : Reads (Attempts.poll producers) meanwhile (.repeated r st) u items phase v) :
    ∃ tale items' phase', Retells r producers meanwhile st u tale items' phase' v ∧
      items = items'.map (mapError .ofRetry) ∧ phase = phase'.map (.repeated r) := by
  obtain ⟨items', phase', reads, hitems, hphase⟩ := h.of_relabel (g := Attempts.repeated r) fun _ => rfl
  obtain ⟨tale, htale⟩ := reads.retells
  exact ⟨tale, items', phase', htale, hitems, hphase⟩

/-- Who reads a stream without retries never has it subscribe. -/
theorem Reads.single {producers : Source σ (Watched ρ) (Except (TimeoutError ε) α)} (hcount : producers.Counted count)
    {meanwhile : World σ → World σ → Prop} (hmeanwhile : ∀ v v', meanwhile v v' → count v'.own = count v.own)
    {p : Watched ρ} {u v : World σ} {items : List (Except (GuardError ε) α)} {phase : Phase (Attempts ρ ε)}
    (h : Reads (Attempts.poll producers) meanwhile (.single p) u items phase v) : count v.own = count u.own := by
  obtain ⟨items', phase', reads, -, -⟩ := h.of_relabel (g := Attempts.single) fun _ => rfl
  exact reads.adds hcount.poll hmeanwhile

/-- Suspended calls and retried streams are handed out untouched, and from their first poll on call their work once for
every attempt. A stream without retries subscribes once, when it is started. -/
theorem CallSite.called_once_per_attempt (g : Guards) (work : Act σ (Except ε α)) (source : Source σ ρ (Except ε α))
    (w : World σ) :
    -- A suspended call, whenever it is waited for.
    (∃ x, (⟨.suspended work, g⟩ : CallSite σ ρ ε α).start w = (.done (.pending x), w) ∧
      ∀ u, g.AttemptBegins work u 1 u ∧ ∃ n, (∀ k, (∃ v, g.AttemptBegins work u k v) ↔ 1 ≤ k ∧ k ≤ n) ∧
        ∀ count : σ → Nat, work.Adds count 1 →
          (∀ k v, g.AttemptBegins work u k v → count v.own + 1 = count u.own + k) ∧
          count (x u).2.own = count u.own + n) ∧
    -- A retried stream, however it is read.
    (∀ r, g.retryLoop = some r → (⟨.stream source, g⟩ : CallSite σ ρ ε α).start w =
        (.done (.stream (g.attempts source) (.repeated r (.fresh w.now))), w) ∧
      ∀ meanwhile u v items phase,
        Reads (Attempts.poll (g.attempts source)) meanwhile (.repeated r (.fresh w.now)) u items phase v →
        ∃ tale items' phase', Retells r (g.attempts source) meanwhile (.fresh w.now) u tale items' phase' v ∧
          items = items'.map (mapError .ofRetry) ∧ phase = phase'.map (.repeated r) ∧ phase'.Numbers tale.turns ∧
          ∀ count : σ → Nat, source.Counted count → (∀ v v', meanwhile v v' → count v'.own = count v.own) →
            count v.own = count u.own + Turn.subscriptions tale.turns) ∧
    -- Any other stream.
    (g.retryLoop = none → ∀ count : σ → Nat, source.Counted count →
      (⟨.stream source, g⟩ : CallSite σ ρ ε α).start.Adds count 1 ∧
      ∀ producers state w₁, (⟨.stream source, g⟩ : CallSite σ ρ ε α).start w = (.done (.stream producers state), w₁) →
        ∀ meanwhile u v items phase, (∀ v v', meanwhile v v' → count v'.own = count v.own) →
          Reads (Attempts.poll producers) meanwhile state u items phase v → count v.own = count u.own) := by
  refine ⟨⟨g.run .suspended (g.attempt work), rfl, fun u => ?_⟩, fun r hr => ⟨?_, ?_⟩,
    fun hnone count hcount => ?_⟩
  · obtain ⟨n, hbegins, hadds⟩ := g.adds_run work u
    exact ⟨g.begins_first work u, n, hbegins, hadds⟩
  · rw [start, hr]
    rfl
  · intro meanwhile u v items phase reads
    obtain ⟨tale, items', phase', htale, hitems, hphase⟩ := reads.repeated
    obtain ⟨hnumbers, hadds⟩ := htale.subscribed
    exact ⟨tale, items', phase', htale, hitems, hphase, hnumbers, fun count hcount =>
      hadds count (g.counted_attempts hcount)⟩
  · have hcounted := g.counted_attempts hcount
    have hstart : (⟨.stream source, g⟩ : CallSite σ ρ ε α).start =
        (g.attempts source).subscribe >>= fun p => pure (.stream (g.attempts source) (.single p)) := by
      rw [start, hnone]
    refine ⟨?_, ?_⟩
    · rw [hstart]
      exact hcounted.subscribe.bind fun _ => Act.adds_pure _
    · intro producers state w₁ started meanwhile u v items phase hmeanwhile reads
      rw [hstart] at started
      obtain ⟨p, v', -, hstarted⟩ := Act.of_bind_done started
      cases hstarted
      exact reads.single hcounted hmeanwhile

end Sites

/-! ## Work that fails once -/

section FailingOnce

open Tallies

/-- A job that fails when it is called for the first time. -/
def failsOnce : Job Tallies TestError Nat :=
  ⟨⟨.starts, fun k => ⟨[.ofMillis 1], if k = 1 then .failure (.transient "a") else .value 7⟩⟩, jobCell⟩

def retrying : Guards := ⟨none, some .briefly⟩

def untouched : World Tallies := { own := {} }

/-- The world at the second attempt, and after it. -/
def failedOnce : World Tallies where
  suspended := { now := 6000000 }
  log := [.retrying "brief" 1 2 (.ofMillis 5) "transient failure: a"]
  own := { job := { started := 1, finished := 1, steps := 1 } }

def recovered : World Tallies :=
  { failedOnce with suspended := { now := 7000000 }, own := { job := { started := 2, finished := 2, steps := 2 } } }

/-- The second attempt succeeds. -/
theorem run_failsOnce : retrying.run .suspended (retrying.attempt (failsOnce.run .suspended)) untouched =
    (.done (.ok 7), recovered) := by
  have hfails : retrying.attempt (failsOnce.run .suspended) untouched = (.done (.error (.inner (.transient "a"))), _) := rfl
  have hagain : Again .briefly .suspended (retrying.attempt (failsOnce.run .suspended)) (.start 0) untouched
      (.retried (.inner (.transient "a")) (.ofMillis 5)) _ failedOnce := .retry hfails rfl rfl
  have hsucceeds : retrying.attempt (failsOnce.run .suspended) failedOnce = (.done (.ok 7), recovered) := rfl
  exact Act.bind_of_done (Trail.go hagain (.halt (.value hsucceeds))).attemptFrom_eq

/-- The second item takes a failure and a new subscription. -/
theorem reads_retrying : ∃ v, Reads (RetryLoop.briefly.poll (retrying.attempts ((failingOnce 7).source feedCell))) Eq
    (.fresh 0) untouched [.ok 1, .ok 2] .ended v ∧ v.own.feed.subscribed = 2 := by
  have first : Polled .briefly (retrying.attempts ((failingOnce 7).source feedCell)) (.fresh 0) untouched {} _ _ :=
    .subscribe rfl (.deliver rfl)
  have second : Polled .briefly (retrying.attempts ((failingOnce 7).source feedCell))
      (.live (.bare [{ ending := .failure (.transient "a") }]) 0 ((Progress.start 0).deliver 0))
      { own := { feed := { subscribed := 1, produced := 1 } } } {} _ _ :=
    .retry rfl rfl rfl rfl (.subscribe rfl (.skip rfl (.deliver rfl)))
  exact ⟨_, .polled (.polled (.polled .start first.poll_eq) second.poll_eq) (Polled.ended (l := {}) rfl).poll_eq, rfl⟩

/-- Both the call and the retried stream are attempted twice; without retries the feed is subscribed to once, although
nobody reads it. -/
theorem CallSite.called_once_per_attempt_failingOnce :
    (∃ x, (⟨.suspended (failsOnce.run .suspended), retrying⟩ :
        CallSite Tallies (List (Call TestError Nat)) TestError Nat).start untouched = (.done (.pending x), untouched) ∧
      (∀ k, (∃ v, retrying.AttemptBegins (failsOnce.run .suspended) untouched k v) ↔ 1 ≤ k ∧ k ≤ 2) ∧
      (x untouched).2.own.job.started = 2) ∧
    (∃ (tale : Tale (TimeoutError TestError) Nat) (v : World Tallies),
      Turn.subscriptions tale.turns = Turn.failures tale.turns + 1 ∧
      v.own.feed.subscribed = Turn.subscriptions tale.turns ∧ v.own.feed.subscribed = 2) ∧
    (⟨.stream ((failingOnce 7).source feedCell), {}⟩ : CallSite Tallies _ TestError Nat).start.Adds
      (fun s => s.feed.subscribed) 1 := by
  have hjob : (failsOnce.run .suspended).Adds (fun s => s.job.started) 1 := failsOnce.adds_run jobCell_lawful .suspended
  have hfeed : ((failingOnce 7).source feedCell).Counted fun s => s.feed.subscribed :=
    (failingOnce 7).counted feedCell_lawful
  obtain ⟨⟨x, hstart, hrun⟩, hstream, -⟩ := CallSite.called_once_per_attempt retrying (failsOnce.run .suspended)
    ((failingOnce 7).source feedCell) untouched
  obtain ⟨-, -, hbare⟩ := CallSite.called_once_per_attempt {} (failsOnce.run .suspended)
    ((failingOnce 7).source feedCell) untouched
  refine ⟨⟨x, hstart, ?_⟩, ?_, (hbare rfl _ hfeed).1⟩
  · obtain ⟨-, n, hbegins, hadds⟩ := hrun untouched
    have hcalls := (hadds _ hjob).2
    cases hstart
    rw [run_failsOnce] at hcalls ⊢
    cases (Nat.zero_add n).symm.trans hcalls.symm
    exact ⟨hbegins, rfl⟩
  · obtain ⟨v, reads, htwo⟩ := reads_retrying
    obtain ⟨tale, items, phase, -, -, hphase, hnumbers, hcount⟩ := (hstream .briefly rfl).2 Eq untouched v _ _
      (reads.relabel (g := Attempts.repeated .briefly) fun _ => rfl)
    have hcalls := hcount _ hfeed fun _ _ h => by rw [h]
    cases phase <;> cases hphase
    exact ⟨tale, v, hnumbers, hcalls.trans (Nat.zero_add _), htwo⟩

/-- A stream of one element, guarded by nothing. -/
def unread : CallSite Tallies (List (Call TestError Nat)) TestError Nat :=
  ⟨.stream (Feed.source ⟨fun _ => [{ ending := .value 1 }]⟩ feedCell), {}⟩

/-- It has subscribed as soon as it is started, and nothing has come out. -/
theorem CallSite.start_eager :
    unread.style = .stream ∧ (unread.start untouched).2.own.feed = { subscribed := 1, produced := 0 } := ⟨rfl, rfl⟩

end FailingOnce

end CallGuard

/-
What happens in a retried stream, told turn by turn. A poll is a trail of moves (`Moves`) up to the point where it comes
back or breaks off (`Halts`), and a consumer's run is one poll after another (`Retells`). Every run has a tale
(`Reads.retells`), and where the producers tell of nothing but their failures, its lines are all that is told
(`Retells.told`).

The state of the stream knows the turns so far whenever it waits or is live. After the one error it knows nothing, and
no further turn follows.
-/
import CallGuard.Proofs.Retry.Tale

namespace CallGuard

variable {σ ρ ε α : Type}

/-- The lines of what a producer gives. -/
def elementLines (notice : ε → List Line) : Option (Except ε α × ρ) → List Line
  | none => []
  | some (result, _) => failureLines notice result

/-- The state of a stream agrees with the turns so far. -/
def Subscription.Recounts [Fault ε] (p : RetryPolicy) (past : List (Turn ε α)) : Subscription ρ ε → Prop
  | .waiting s | .live _ _ s => s.Recounts p past
  | .finished => True

/-- Where a poll leaves a stream after some turns: it agrees with them, it is finished once it was given up, and
it was given up for a reason. -/
structure Left [Fault ε] (p : RetryPolicy) (past : List (Turn ε α)) (verdict : Option (RetryError ε))
    (out : Ended (Option (Except (RetryError ε) α × Subscription ρ ε))) : Prop where
  state : ∀ item st, out = .done (some (item, st)) → st.Recounts p past ∧ (st = .finished ∨ verdict = none)
  judged : ∀ error, verdict = some error → Judged p past error

variable [Fault ε]

/-! ## Polls -/

/-- A move of a poll that goes on. -/
inductive Moves (r : RetryLoop) (source : Source σ ρ (Except ε α)) :
    Subscription ρ ε → World σ → Turn ε α → Subscription ρ ε → World σ → Prop where
  | subscribe {s : Progress ε} {w w₁ : World σ} {p : ρ} (call : source.subscribe (announced s w) = (.done p, w₁)) :
      Moves r source (.waiting s) w (.subscribed (elapsed s.lastProgress w.now))
        (.live p s.delivered (s.beginAttempt w.now)) w₁
  | skip {p p' : ρ} {k : Nat} {s : Progress ε} {w w₁ : World σ} {a : α}
      (call : source.poll p w = (.done (some (.ok a, p')), w₁)) :
      Moves r source (.live p (k + 1) s) w (.skipped a) (.live p' k s) w₁
  | retry {p p' : ρ} {k : Nat} {s next : Progress ε} {w w₁ w₂ : World σ} {e : ε} {d : Duration}
      (call : source.poll p w = (.done (some (.error e, p')), w₁))
      (decision : (s.fail r.policy w₁.dice w₁.now e).decision = .retry d next)
      (sleep : Act.sleep .suspended d (r.judge s e w₁).2 = (.done (), w₂)) :
      Moves r source (.live p k s) w (.retried e d) (.waiting next) w₂

/-- The end of a poll. -/
inductive Halts (r : RetryLoop) (source : Source σ ρ (Except ε α)) :
    Subscription ρ ε → World σ → Tale ε α → Ended (Option (Except (RetryError ε) α × Subscription ρ ε)) →
      World σ → Prop where
  | finished {w : World σ} : Halts r source .finished w {} (.done none) w
  | deliver {p p' : ρ} {s : Progress ε} {w w₁ : World σ} {a : α}
      (call : source.poll p w = (.done (some (.ok a, p')), w₁)) :
      Halts r source (.live p 0 s) w ⟨[.handed a], none⟩ (.done (some (.ok a, .live p' 0 (s.deliver w₁.now)))) w₁
  | giveUp {p p' : ρ} {k : Nat} {s : Progress ε} {w w₁ : World σ} {e : ε} {error : RetryError ε}
      (call : source.poll p w = (.done (some (.error e, p')), w₁))
      (decision : (s.fail r.policy w₁.dice w₁.now e).decision = .giveUp error) :
      Halts r source (.live p k s) w ⟨[], some error⟩ (.done (some (.error error, .finished))) (r.judge s e w₁).2
  | ended {p : ρ} {k : Nat} {s : Progress ε} {w w₁ : World σ} (call : source.poll p w = (.done none, w₁)) :
      Halts r source (.live p k s) w {} (.done none) w₁
  /-- The new producer does not come. -/
  | unsubscribed {s : Progress ε} {w w₁ : World σ} {x : Ended ρ}
      {y : Ended (Option (Except (RetryError ε) α × Subscription ρ ε))}
      (call : source.subscribe (announced s w) = (x, w₁)) (broke : x.Broke y) :
      Halts r source (.waiting s) w ⟨[.subscribed (elapsed s.lastProgress w.now)], none⟩ y w₁
  /-- The next element does not come. -/
  | unanswered {p : ρ} {k : Nat} {s : Progress ε} {w w₁ : World σ} {x : Ended (Option (Except ε α × ρ))}
      {y : Ended (Option (Except (RetryError ε) α × Subscription ρ ε))} (call : source.poll p w = (x, w₁))
      (broke : x.Broke y) : Halts r source (.live p k s) w {} y w₁
  /-- Nobody waits for the next subscription. -/
  | unslept {p p' : ρ} {k : Nat} {s next : Progress ε} {w w₁ w₂ : World σ} {e : ε} {d : Duration} {x : Ended Unit}
      {y : Ended (Option (Except (RetryError ε) α × Subscription ρ ε))}
      (call : source.poll p w = (.done (some (.error e, p')), w₁))
      (decision : (s.fail r.policy w₁.dice w₁.now e).decision = .retry d next)
      (sleep : Act.sleep .suspended d (r.judge s e w₁).2 = (x, w₂)) (broke : x.Broke y) :
      Halts r source (.live p k s) w ⟨[.retried e d], none⟩ y w₂

/-- The tale of a poll. -/
abbrev PollTrail (r : RetryLoop) (source : Source σ ρ (Except ε α)) (st : Subscription ρ ε) (w : World σ)
    (tale : Tale ε α) (out : Ended (Option (Except (RetryError ε) α × Subscription ρ ε))) (w' : World σ) : Prop :=
  Trail (Moves r source) (Halts r source) st w tale out w'

/-- The tale of a consumer's run. -/
inductive Retells (r : RetryLoop) (source : Source σ ρ (Except ε α)) (meanwhile : World σ → World σ → Prop)
    (k₀ : Subscription ρ ε) (w₀ : World σ) :
    Tale ε α → List (Except (RetryError ε) α) → Phase (Subscription ρ ε) → World σ → Prop where
  | start : Retells r source meanwhile k₀ w₀ {} [] (.reading k₀) w₀
  | idle {tale : Tale ε α} {items : List (Except (RetryError ε) α)} {k : Subscription ρ ε} {w w' : World σ}
      (h : Retells r source meanwhile k₀ w₀ tale items (.reading k) w) (passes : meanwhile w w') :
      Retells r source meanwhile k₀ w₀ tale items (.reading k) w'
  | polled {tale tale' : Tale ε α} {items : List (Except (RetryError ε) α)} {k : Subscription ρ ε} {w w' : World σ}
      {out : Ended (Option (Except (RetryError ε) α × Subscription ρ ε))}
      (h : Retells r source meanwhile k₀ w₀ tale items (.reading k) w) (poll : PollTrail r source k w tale' out w') :
      Retells r source meanwhile k₀ w₀ (tale.append tale') (items ++ handed out) (.after out) w'

variable {r : RetryLoop} {source : Source σ ρ (Except ε α)}

theorem Polled.trail {st : Subscription ρ ε} {w : World σ} {l l' : Ledger ε α}
    {out : Ended (Option (Except (RetryError ε) α × Subscription ρ ε)) × World σ} (h : Polled r source st w l out l') :
    ∃ tale, PollTrail r source st w tale out.1 out.2 := by
  induction h with
  | finished => exact ⟨_, .halt .finished⟩
  | subscribe call rest ih =>
    obtain ⟨tale, htale⟩ := ih
    exact ⟨_, .go (.subscribe call) htale⟩
  | skip call rest ih =>
    obtain ⟨tale, htale⟩ := ih
    exact ⟨_, .go (.skip call) htale⟩
  | deliver call => exact ⟨_, .halt (.deliver call)⟩
  | retry call yes wait sleep rest ih =>
    obtain ⟨tale, htale⟩ := ih
    exact ⟨_, .go (.retry call (Progress.fail_of_wait yes wait) sleep) htale⟩
  | reject call no => exact ⟨_, .halt (.giveUp call (Progress.fail_of_rejected no))⟩
  | exhaust call yes spent => exact ⟨_, .halt (.giveUp call (Progress.fail_of_spent yes spent))⟩
  | ended call => exact ⟨_, .halt (.ended call)⟩
  | unsubscribed call broke => exact ⟨_, .halt (.unsubscribed call broke)⟩
  | unanswered call broke => exact ⟨_, .halt (.unanswered call broke)⟩
  | unslept call yes wait sleep broke =>
    exact ⟨_, .halt (.unslept call (Progress.fail_of_wait yes wait) sleep broke)⟩

theorem Reads.retells {meanwhile : World σ → World σ → Prop} {k₀ : Subscription ρ ε} {w₀ w : World σ}
    {items : List (Except (RetryError ε) α)} {phase : Phase (Subscription ρ ε)}
    (h : Reads (r.poll source) meanwhile k₀ w₀ items phase w) :
    ∃ tale, Retells r source meanwhile k₀ w₀ tale items phase w := by
  induction h with
  | start => exact ⟨{}, .start⟩
  | idle _ passes ih =>
    obtain ⟨tale, htale⟩ := ih
    exact ⟨tale, htale.idle passes⟩
  | @polled items k w w' out _ call ih =>
    obtain ⟨tale, htale⟩ := ih
    obtain ⟨l, hl⟩ := polled_poll r source k w {}
    rw [call] at hl
    obtain ⟨tale', htale'⟩ := hl.trail
    exact ⟨_, htale.polled htale'⟩

/-! ## What a move tells -/

namespace Progress.Recounts

variable {p : RetryPolicy} {s : Progress ε} {past : List (Turn ε α)}

/-- Turns that are neither failures nor elements for the consumer leave the bookkeeping as it is. -/
theorem silent (h : s.Recounts p past) {turn : Turn ε α} (herror : turn.error? = none)
    (helement : turn.element? = none) : s.Recounts p (past ++ [turn]) := by
  have herrors : Turn.errors (past ++ [turn]) = Turn.errors past := by
    simp only [Turn.errors, List.filterMap_append, List.filterMap_cons, herror, List.filterMap_nil, List.append_nil]
  have helements : Turn.elements (past ++ [turn]) = Turn.elements past := by
    simp only [Turn.elements, List.filterMap_append, List.filterMap_cons, helement, List.filterMap_nil, List.append_nil]
  constructor
  · rw [herrors, h.errors]
  · rw [herrors]
    exact h.accepted
  · rw [helements, h.delivered]

theorem deliver (h : s.Recounts p past) (now : Nat) (a : α) : (s.deliver now).Recounts p (past ++ [.handed a]) := by
  have herrors : Turn.errors (past ++ [.handed a]) = Turn.errors past :=
    List.filterMap_append.trans (List.append_nil _)
  have helements : Turn.elements (past ++ [.handed a]) = Turn.elements past ++ [a] := List.filterMap_append
  constructor
  · rw [herrors, ← h.errors]
    rfl
  · rw [herrors]
    exact h.accepted
  · rw [helements, List.length_append, ← h.delivered]
    rfl

/-- The line of a subscription has the number of the attempt, and of the elements that the consumer has. -/
theorem lines_announced (h : s.Recounts p past) (notice : ε → List Line) (w : World σ) : (announced s w).lines =
    w.lines ++ Turn.linesAfter p notice past [.subscribed (elapsed s.lastProgress w.now)] := by
  rw [Turn.linesAfter_singleton, Turn.lines, announced, ← h.attempt_eq, ← h.delivered]
  by_cases hlt : 1 < s.attempt
  · rw [if_pos hlt, if_pos hlt]
    exact w.lines_report rfl
  · rw [if_neg hlt, if_neg hlt, List.append_nil]

end Progress.Recounts

section Told

variable {notice : ε → List Line} {past : List (Turn ε α)} {st st' : Subscription ρ ε} {w w' : World σ}
  {tale : Tale ε α} {out : Ended (Option (Except (RetryError ε) α × Subscription ρ ε))}

theorem Moves.told (hbrief : r.policy.Brief) (hsubscribe : source.subscribe.Quiet)
    (hpoll : ∀ p, (source.poll p).Logs (elementLines notice)) {turn : Turn ε α} (h : Moves r source st w turn st' w')
    (hst : st.Recounts r.policy past) :
    w'.lines = w.lines ++ Turn.linesAfter r.policy notice past [turn] ∧ st'.Recounts r.policy (past ++ [turn]) := by
  cases h with
  | @subscribe s _ _ p call =>
    refine ⟨?_, (Progress.Recounts.beginAttempt hst w.now).silent rfl rfl⟩
    rw [hsubscribe.of_eq call]
    exact Progress.Recounts.lines_announced hst notice w
  | @skip p _ _ _ _ _ a call => exact ⟨(hpoll p).of_done call, Progress.Recounts.silent hst rfl rfl⟩
  | @retry p _ _ _ _ _ _ _ _ _ call decision sleep =>
    exact RetryLoop.lines_retried hbrief hst ((hpoll p).of_done call) decision sleep

theorem Halts.told (hbrief : r.policy.Brief) (hsubscribe : source.subscribe.Quiet)
    (hpoll : ∀ p, (source.poll p).Logs (elementLines notice)) (h : Halts r source st w tale out w')
    (hst : st.Recounts r.policy past) : w'.lines = w.lines ++ tale.linesAfter r.policy notice past ∧
      Left r.policy (past ++ tale.turns) tale.verdict out := by
  have broken : ∀ {β : Type} {x : Ended β}, x.Broke out → Left r.policy (past ++ tale.turns) none out := by
    rintro _ _ ⟨_⟩ <;> exact ⟨nofun, nofun⟩
  cases h with
  | finished => exact ⟨(List.append_nil _).symm, nofun, nofun⟩
  | @deliver p _ s _ _ a call =>
    refine ⟨(hpoll p).of_done call, ?_, nofun⟩
    rintro _ _ ⟨⟩
    exact ⟨Progress.Recounts.deliver hst _ a, .inr rfl⟩
  | @giveUp p _ _ _ _ _ _ _ call decision =>
    obtain ⟨hlines, hjudged⟩ := RetryLoop.lines_givenUp hst ((hpoll p).of_done call) decision
    refine ⟨hlines, ?_, ?_⟩
    · rintro _ _ ⟨⟩
      exact ⟨trivial, .inl rfl⟩
    · rintro _ ⟨⟩
      exact hjudged
  | @ended p _ _ _ _ call => exact ⟨(hpoll p).of_done call, nofun, nofun⟩
  | unsubscribed call broke =>
    refine ⟨?_, broken broke⟩
    rw [hsubscribe.logs.of_broke call broke, Tale.linesAfter, List.append_nil]
    exact Progress.Recounts.lines_announced hst notice w
  | @unanswered p _ _ _ _ _ _ call broke =>
    refine ⟨?_, broken broke⟩
    rw [(hpoll p).of_broke call broke]
    exact (List.append_nil _).symm
  | @unslept p _ _ _ _ _ _ _ _ _ _ _ call decision sleep broke =>
    obtain ⟨hlines, -⟩ := RetryLoop.lines_retried hbrief hst ((hpoll p).of_done call) decision sleep
    refine ⟨?_, broken broke⟩
    rw [hlines, Tale.linesAfter, List.append_nil]

theorem Halts.items_eq (h : Halts r source st w tale out w') : tale.items = handed out := by
  cases h with
  | finished | deliver call | giveUp call decision | ended call => rfl
  | unsubscribed call broke | unanswered call broke | unslept call decision sleep broke => cases broke <;> rfl

/-! ## What a run tells -/

theorem PollTrail.items_eq (h : PollTrail r source st w tale out w') : tale.items = handed out :=
  Trail.items_eq handed (fun h => by cases h <;> rfl) (fun h => h.items_eq) h

/-- Nothing happens in a stream after its one error. -/
theorem PollTrail.of_finished (h : PollTrail r source .finished w tale out w') :
    tale = {} ∧ out = .done none ∧ w' = w := by
  cases h with
  | halt last =>
    cases last
    exact ⟨rfl, rfl, rfl⟩
  | go first rest => cases first

/-- A consumer's run of a retried stream tells its tale and nothing else. -/
theorem Retells.told {meanwhile : World σ → World σ → Prop} {created : Nat} {w₀ : World σ}
    {items : List (Except (RetryError ε) α)} {phase : Phase (Subscription ρ ε)}
    (h : Retells r source meanwhile (.fresh created) w₀ tale items phase w) (hbrief : r.policy.Brief)
    (hsubscribe : source.subscribe.Quiet) (hpoll : ∀ p, (source.poll p).Logs (elementLines notice))
    (hmeanwhile : ∀ w w', meanwhile w w' → w'.lines = w.lines) :
    Told r.policy notice tale items w₀ w ∧
      ∀ st, phase = .reading st → st.Recounts r.policy tale.turns ∧ (st = .finished ∨ tale.verdict = none) := by
  induction h with
  | start =>
    refine ⟨⟨(List.append_nil _).symm, rfl, ?_⟩, ?_⟩
    · rintro _ ⟨⟩
    · rintro _ ⟨⟩
      exact ⟨Progress.Recounts.start created, .inr rfl⟩
  | idle h passes ih =>
    obtain ⟨⟨hlines, hitems, hjudged⟩, hstate⟩ := ih
    refine ⟨⟨?_, hitems, hjudged⟩, hstate⟩
    rw [hmeanwhile _ _ passes, hlines]
  | @polled tale tale' items k w w' out h poll ih =>
    obtain ⟨⟨hlines, hitems, hjudged⟩, hstate⟩ := ih
    obtain ⟨hk, rfl | hnone⟩ := hstate k rfl
    · -- The stream was given up before.
      obtain ⟨rfl, rfl, rfl⟩ := poll.of_finished
      have happend : tale.append {} = tale := by rw [Tale.append, List.append_nil, Option.or_none]
      rw [happend]
      refine ⟨⟨hlines, (List.append_nil items).trans hitems, hjudged⟩, ?_⟩
      rintro _ ⟨⟩
    · obtain ⟨hpolled, hleft⟩ := Trail.told (fun st past => st.Recounts r.policy past) (Left r.policy)
        (fun h hst => h.told hbrief hsubscribe hpoll hst) (fun h hst => h.told hbrief hsubscribe hpoll hst) poll hk
      have hverdict : (tale.append tale').verdict = tale'.verdict := by rw [Tale.append, hnone, Option.none_or]
      refine ⟨⟨?_, ?_, ?_⟩, ?_⟩
      · rw [hpolled, hlines, Tale.lines_append hnone, List.append_assoc]
      · rw [hitems, ← poll.items_eq]
        simp only [Tale.items, Tale.append, hnone, Option.none_or, Turn.elements, List.filterMap_append,
          List.map_append, Option.toList_none, List.map_nil, List.append_nil, List.append_assoc]
      · rw [hverdict]
        exact hleft.judged
      · intro st hst
        rw [hverdict]
        rcases out with (_ | ⟨item, k'⟩) | m | _ <;> cases hst
        exact hleft.state item st rfl

end Told

end CallGuard

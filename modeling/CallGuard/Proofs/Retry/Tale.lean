/-
What happens in a retried call or stream, turn by turn (`Turn`, `Tale`), and the lines that tell of it (`Tale.lines`).
The numbers in a line follow from the turns before it: an attempt is counted by the failures, and what a stream skips
by the elements that were handed out.

A run is a trail of moves, each with its turn, up to the point where it halts (`Trail`). What a single move does to the
log and to the bookkeeping carries over to whole runs (`Trail.told`); for calls this is `RetryLoop.run_told`. The
bookkeeping agrees with the turns whenever an attempt begins (`Progress.Recounts`), and so do the numbers that it puts
into the log before it goes on.
-/
import CallGuard.Proofs.Retry.Attempted
import CallGuard.Proofs.Run.Lines

namespace CallGuard

variable {σ ε α β κ : Type}

/-! ## Tales -/

/-- What happens in a retried call or stream. -/
inductive Turn (ε α : Type) where
  /-- A stream subscribes, so long after its consumer got something. -/
  | subscribed (idle : Duration)
  /-- An element that the consumer has already. -/
  | skipped (a : α)
  | handed (a : α)
  /-- An attempt fails, and another one is to follow after a delay. -/
  | retried (error : ε) (delay : Duration)

namespace Turn

def element? : Turn ε α → Option α
  | handed a => some a
  | _ => none

def error? : Turn ε α → Option ε
  | retried e _ => some e
  | _ => none

def elements (ts : List (Turn ε α)) : List α := ts.filterMap element?

def errors (ts : List (Turn ε α)) : List ε := ts.filterMap error?

end Turn

/-- The turns of a retried call or stream, oldest first, and the error with which it gave up, if it did. -/
structure Tale (ε α : Type) where
  turns : List (Turn ε α) := []
  verdict : Option (RetryError ε) := none

namespace Tale

/-- The tale of a turn and of what comes after it. -/
def cons (turn : Turn ε α) (t : Tale ε α) : Tale ε α := { t with turns := turn :: t.turns }

/-- One tale after another. -/
def append (t u : Tale ε α) : Tale ε α := ⟨t.turns ++ u.turns, t.verdict.or u.verdict⟩

/-- The failures of all attempts, oldest first. -/
def failures (t : Tale ε α) : List ε := Turn.errors t.turns ++ t.verdict.toList.map RetryError.last

/-- What the caller or the consumer gets. -/
def items (t : Tale ε α) : List (Except (RetryError ε) α) :=
  (Turn.elements t.turns).map .ok ++ t.verdict.toList.map .error

end Tale

/-! ## Lines of tales -/

namespace Line

/-- How many lines have a message. -/
def count (m : String) (ls : List Line) : Nat := ls.countP (·.message = m)

theorem count_append (m : String) (ls ls' : List Line) : count m (ls ++ ls') = count m ls + count m ls' :=
  List.countP_append

theorem count_singleton (m : String) (l : Line) : count m [l] = if l.message = m then 1 else 0 := by
  rw [count, List.countP_singleton]
  simp only [decide_eq_true_eq]

theorem count_singleton_of_ne {m : String} {l : Line} (h : l.message ≠ m) : count m [l] = 0 := by
  rw [count_singleton, if_neg h]

def resubscribing (attempt : Nat) (idle : Duration) (skip : Nat) : Line :=
  ⟨.debug, "re-subscribing to stream producer",
    [("attempt", toString attempt), ("idle_ms", toString idle.millis64), ("skip", toString skip)]⟩

variable [Payload ε]

/-- An attempt failed and is followed by another one. The delay is shown in milliseconds, however long it is. -/
def retrying (p : RetryPolicy) (attempt : Nat) (delay : Duration) (e : ε) : Line :=
  ⟨.debug, "attempt failed, retrying",
    [("policy", p.name), ("attempt", toString attempt), ("max_attempts", toString p.maxAttempts.toNat),
      ("delay_ms", toString delay.millis), ("error", Payload.message e)]⟩

def exhausted (x : Exhausted ε) : Line :=
  ⟨.warn, "retry attempts exhausted",
    [("policy", x.policy), ("attempts", toString x.attempts.length), ("elapsed_ms", toString x.total.millis64),
      ("error", Payload.message x.last)]⟩

def rejected (p : RetryPolicy) (attempt : Nat) (e : ε) : Line :=
  ⟨.debug, "failure is not retryable",
    [("policy", p.name), ("attempt", toString attempt), ("error", Payload.message e)]⟩

/-- The last line of what was given up at an attempt. -/
def ofVerdict (p : RetryPolicy) (attempt : Nat) : RetryError ε → Line
  | .exhausted x => exhausted x
  | .nonRetryable e => rejected p attempt e

theorem message_ofVerdict (p : RetryPolicy) (attempt : Nat) (error : RetryError ε) :
    (ofVerdict p attempt error).message =
      if error.isExhausted then "retry attempts exhausted" else "failure is not retryable" := by
  cases error <;> rfl

end Line

section Lines

variable [Payload ε] (p : RetryPolicy) (notice : ε → List Line)

/-- The lines of a turn, at an attempt and after so many elements. An attempt tells of its failure first. -/
def Turn.lines (attempt delivered : Nat) : Turn ε α → List Line
  | subscribed idle => if 1 < attempt then [.resubscribing attempt idle delivered] else []
  | skipped _ | handed _ => []
  | retried e d => notice e ++ [.retrying p attempt d e]

/-- The lines of turns that come after others. -/
def Turn.linesAfter (past : List (Turn ε α)) : List (Turn ε α) → List Line
  | [] => []
  | t :: rest =>
    t.lines p notice ((errors past).length + 1) (elements past).length ++ Turn.linesAfter (past ++ [t]) rest

/-- The lines of a tale that continues some turns. -/
def Tale.linesAfter (past : List (Turn ε α)) (t : Tale ε α) : List Line :=
  Turn.linesAfter p notice past t.turns ++ match t.verdict with
    | none => []
    | some error => notice error.last ++ [.ofVerdict p ((Turn.errors (past ++ t.turns)).length + 1) error]

/-- The lines of a tale. -/
def Tale.lines (t : Tale ε α) : List Line := t.linesAfter p notice []

variable {p : RetryPolicy} {notice : ε → List Line}

theorem Turn.linesAfter_singleton (past : List (Turn ε α)) (t : Turn ε α) :
    Turn.linesAfter p notice past [t] = t.lines p notice ((errors past).length + 1) (elements past).length :=
  List.append_nil _

theorem Turn.linesAfter_append (past ts us : List (Turn ε α)) : Turn.linesAfter p notice past (ts ++ us) =
    Turn.linesAfter p notice past ts ++ Turn.linesAfter p notice (past ++ ts) us := by
  induction ts generalizing past with
  | nil => rw [List.append_nil]; rfl
  | cons t ts ih => rw [List.cons_append, linesAfter, ih, linesAfter, List.append_assoc, List.append_assoc]; rfl

theorem Tale.linesAfter_cons (past : List (Turn ε α)) (turn : Turn ε α) (t : Tale ε α) :
    (t.cons turn).linesAfter p notice past =
      Turn.linesAfter p notice past [turn] ++ t.linesAfter p notice (past ++ [turn]) := by
  rw [Tale.linesAfter, Tale.linesAfter, Turn.linesAfter_singleton, List.append_assoc, List.singleton_append,
    ← List.append_assoc]
  rfl

/-- What comes after a tale that was not given up. -/
theorem Tale.lines_append {t : Tale ε α} (h : t.verdict = none) (u : Tale ε α) :
    (t.append u).lines p notice = t.lines p notice ++ u.linesAfter p notice t.turns := by
  simp only [Tale.lines, Tale.linesAfter, Tale.append, h, Option.none_or, Turn.linesAfter_append, List.nil_append,
    List.append_nil, List.append_assoc]

/-! ### Counting lines -/

theorem Turn.count_linesAfter {m : String} (hresubscribing : m ≠ "re-subscribing to stream producer")
    (hretrying : m ≠ "attempt failed, retrying") (past ts : List (Turn ε α)) :
    Line.count m (Turn.linesAfter p notice past ts) = Line.count m ((errors ts).flatMap notice) := by
  induction ts generalizing past with
  | nil => rfl
  | cons t ts ih =>
    rw [linesAfter, Line.count_append, ih]
    cases t with
    | subscribed idle =>
      rw [Turn.lines]
      split
      · have hne : (Line.resubscribing ((errors past).length + 1) idle (elements past).length).message ≠ m :=
          hresubscribing.symm
        rw [Line.count_singleton_of_ne hne]
        exact Nat.zero_add _
      · exact Nat.zero_add _
    | skipped a | handed a => exact Nat.zero_add _
    | retried e d =>
      have hne : (Line.retrying p ((errors past).length + 1) d e).message ≠ m := hretrying.symm
      rw [Turn.lines, Line.count_append, Line.count_singleton_of_ne hne]
      exact (Line.count_append ..).symm

/-- Lines that neither retries nor subscriptions write come with the failures of attempts and at the end. -/
theorem Tale.count_lines {m : String} (hresubscribing : m ≠ "re-subscribing to stream producer")
    (hretrying : m ≠ "attempt failed, retrying") (t : Tale ε α) :
    Line.count m (t.lines p notice) = Line.count m (t.failures.flatMap notice) +
      t.verdict.toList.countP fun error =>
        (if error.isExhausted then "retry attempts exhausted" else "failure is not retryable") = m := by
  rw [Tale.lines, Tale.linesAfter, Line.count_append, Turn.count_linesAfter hresubscribing hretrying, Tale.failures,
    List.flatMap_append, Line.count_append]
  cases t.verdict with
  | none => rfl
  | some error =>
    simp only [Option.toList_some, List.map_cons, List.map_nil, List.flatMap_cons, List.flatMap_nil, List.append_nil,
      Line.count_append, Line.count_singleton, Line.message_ofVerdict, Nat.add_assoc, List.countP_singleton,
      decide_eq_true_eq]

end Lines

/-! ## Trails -/

/-- A run of moves, each with its turn, up to where it halts. -/
inductive Trail (goes : κ → World σ → Turn ε α → κ → World σ → Prop)
    (halts : κ → World σ → Tale ε α → β → World σ → Prop) : κ → World σ → Tale ε α → β → World σ → Prop where
  | halt {k : κ} {w w' : World σ} {tale : Tale ε α} {out : β} (last : halts k w tale out w') :
      Trail goes halts k w tale out w'
  | go {k k' : κ} {w w₁ w' : World σ} {turn : Turn ε α} {tale : Tale ε α} {out : β} (first : goes k w turn k' w₁)
      (rest : Trail goes halts k' w₁ tale out w') : Trail goes halts k w (tale.cons turn) out w'

namespace Trail

variable {goes : κ → World σ → Turn ε α → κ → World σ → Prop} {halts : κ → World σ → Tale ε α → β → World σ → Prop}
  {k : κ} {w w' : World σ} {tale : Tale ε α} {out : β}

/-- Where every move keeps what is known of the turns so far, the end of a run is reached with what is known of all. -/
theorem kept (knows : κ → World σ → List (Turn ε α) → Prop)
    (final : List (Turn ε α) → Option (RetryError ε) → β → World σ → Prop)
    (hgoes : ∀ {k w turn k' w' past}, goes k w turn k' w' → knows k w past → knows k' w' (past ++ [turn]))
    (hhalts : ∀ {k w tale out w' past}, halts k w tale out w' → knows k w past →
      final (past ++ tale.turns) tale.verdict out w')
    (h : Trail goes halts k w tale out w') {past : List (Turn ε α)} (hk : knows k w past) :
    final (past ++ tale.turns) tale.verdict out w' := by
  -- The turns before a move differ from move to move.
  induction h generalizing past with
  | halt last => exact hhalts last hk
  | @go k k' w w₁ w' turn tale out first rest ih =>
    have hfinal := ih (hgoes first hk)
    rwa [List.append_assoc] at hfinal

/-- Where every move keeps a property of the state, a run halts in a state that has it. -/
theorem reached (holds : κ → World σ → Prop) (final : β → World σ → Prop)
    (hgoes : ∀ {k w turn k' w'}, goes k w turn k' w' → holds k w → holds k' w')
    (hhalts : ∀ {k w tale out w'}, halts k w tale out w' → holds k w → final out w')
    (h : Trail goes halts k w tale out w') (hk : holds k w) : final out w' := by
  induction h with
  | halt last => exact hhalts last hk
  | go first rest ih => exact ih (hgoes first hk)

/-- Where every move tells its turn and keeps what the state knows of the turns, a run tells its tale. -/
theorem told [Payload ε] {p : RetryPolicy} {notice : ε → List Line} (knows : κ → List (Turn ε α) → Prop)
    (final : List (Turn ε α) → Option (RetryError ε) → β → Prop)
    (hgoes : ∀ {k w turn k' w' past}, goes k w turn k' w' → knows k past →
      w'.lines = w.lines ++ Turn.linesAfter p notice past [turn] ∧ knows k' (past ++ [turn]))
    (hhalts : ∀ {k w tale out w' past}, halts k w tale out w' → knows k past →
      w'.lines = w.lines ++ tale.linesAfter p notice past ∧ final (past ++ tale.turns) tale.verdict out)
    (h : Trail goes halts k w tale out w') {past : List (Turn ε α)} (hk : knows k past) :
    w'.lines = w.lines ++ tale.linesAfter p notice past ∧ final (past ++ tale.turns) tale.verdict out := by
  -- The turns before a move differ from move to move, and its numbers come from them.
  induction h generalizing past with
  | halt last => exact hhalts last hk
  | @go k k' w w₁ w' turn tale out first rest ih =>
    obtain ⟨hlines, hk'⟩ := hgoes first hk
    obtain ⟨hrest, hfinal⟩ := ih hk'
    rw [List.append_assoc] at hfinal
    exact ⟨by rw [hrest, hlines, Tale.linesAfter_cons, List.append_assoc], hfinal⟩

/-- The items of a run are those that come with its end, if there are no others. -/
theorem items_eq (given : β → List (Except (RetryError ε) α))
    (hgoes : ∀ {k w turn k' w'}, goes k w turn k' w' → turn.element? = none)
    (hhalts : ∀ {k w tale out w'}, halts k w tale out w' → tale.items = given out)
    (h : Trail goes halts k w tale out w') : tale.items = given out := by
  induction h with
  | halt last => exact hhalts last
  | go first rest ih =>
    rw [← ih]
    simp only [Tale.items, Tale.cons, Turn.elements, List.filterMap_cons, hgoes first]

end Trail

/-- An act that does not come back tells nothing. -/
theorem Act.Logs.of_broke {f : α → List Line} {x : Act σ α} (hx : x.Logs f) {w w' : World σ} {y : Ended α} {z : Ended β}
    (h : x w = (y, w')) (broke : y.Broke z) : w'.lines = w.lines := by
  have hw := hx w
  rw [h] at hw
  cases broke <;> rwa [logged, List.append_nil] at hw

/-! ## What the bookkeeping knows -/

/-- The delays of a policy fit a counter of milliseconds. -/
def RetryPolicy.Brief (p : RetryPolicy) : Prop :=
  ∀ dice k previous d, p.waitAfter dice k previous = .delay d → d.millis < wordValues

variable [Fault ε]

/-- The bookkeeping agrees with the turns so far: its attempts are the failures, all of which were accepted, and it
counts the elements. -/
structure Progress.Recounts (p : RetryPolicy) (s : Progress ε) (past : List (Turn ε α)) : Prop where
  errors : s.attempts.map Attempt.error = Turn.errors past
  accepted : ∀ e ∈ Turn.errors past, p.predicate.test e = true
  delivered : s.delivered = (Turn.elements past).length

/-- A call or stream is given up after some turns with a reason: its history is that of the turns and one more failure,
or the failure was rejected. -/
def Judged (p : RetryPolicy) (past : List (Turn ε α)) : RetryError ε → Prop
  | .exhausted x => x.policy = p.name ∧ x.attempts.map Attempt.error = Turn.errors past ++ [x.last] ∧
      (∀ e ∈ Turn.errors past, p.predicate.test e = true) ∧ p.predicate.test x.last = true
  | .nonRetryable e => (∀ e ∈ Turn.errors past, p.predicate.test e = true) ∧ p.predicate.test e = false

namespace Progress.Recounts

variable {p : RetryPolicy} {s : Progress ε} {past : List (Turn ε α)}

theorem start (now : Nat) : (Progress.start now : Progress ε).Recounts p ([] : List (Turn ε α)) :=
  ⟨rfl, nofun, rfl⟩

theorem attempt_eq (h : s.Recounts p past) : s.attempt = (Turn.errors past).length + 1 := by
  rw [← h.errors, List.length_map, Progress.length_attempts, Progress.attempt]

theorem beginAttempt (h : s.Recounts p past) (now : Nat) : (s.beginAttempt now).Recounts p past :=
  ⟨h.errors, h.accepted, h.delivered⟩

theorem record (h : s.Recounts p past) (now : Nat) {e : ε} (yes : p.predicate.test e = true) (d : Duration) :
    (s.record now e d).Recounts p (past ++ [.retried e d]) := by
  have herrors : Turn.errors (past ++ [.retried e d]) = Turn.errors past ++ [e] := List.filterMap_append
  have helements : Turn.elements (past ++ [.retried e d]) = Turn.elements past :=
    List.filterMap_append.trans (List.append_nil _)
  constructor
  · rw [Progress.attempts_record, List.map_append, h.errors, herrors]
    rfl
  · intro e' he'
    rw [herrors] at he'
    rcases List.mem_append.1 he' with he' | he'
    · exact h.accepted e' he'
    · rwa [List.mem_singleton.1 he']
  · rw [helements, ← h.delivered]
    rfl

end Progress.Recounts

namespace RetryLoop

variable {r : RetryLoop} {s next : Progress ε} {past : List (Turn ε α)} {w : World σ} {e : ε}

/-- The line of a failure that another attempt follows. -/
theorem judge_retry (hbrief : r.policy.Brief) (h : s.Recounts r.policy past) {d : Duration}
    (decision : (s.fail r.policy w.dice w.now e).decision = .retry d next) :
    (r.judge s e w).2.lines = w.lines ++ [.retrying r.policy ((Turn.errors past).length + 1) d e] ∧
      next.Recounts r.policy (past ++ [.retried e d]) := by
  rcases Progress.fail_cases r.valid s w.dice w.now e with ⟨-, hf⟩ | ⟨-, -, hf⟩ | ⟨yes, -, d', hwait, hf⟩ <;>
    rw [hf] at decision <;> cases decision
  refine ⟨?_, h.record w.now yes d⟩
  -- The event has the delay in a counter that starts again at some point, which a brief delay does not reach.
  have hline : (Event.retrying r.policy.name s.attempt r.policy.maxAttempts.toNat d (Payload.message e)).line =
      .retrying r.policy ((Turn.errors past).length + 1) d e := by
    rw [← h.attempt_eq, Line.retrying, ← Nat.mod_eq_of_lt (hbrief _ _ _ _ hwait)]
    rfl
  rw [judge, hf, ← hline]
  exact w.lines_report rfl

/-- The line of a failure that ends everything. -/
theorem judge_giveUp (h : s.Recounts r.policy past) {error : RetryError ε}
    (decision : (s.fail r.policy w.dice w.now e).decision = .giveUp error) :
    (r.judge s e w).2.lines = w.lines ++ [.ofVerdict r.policy ((Turn.errors past).length + 1) error] ∧
      error.last = e ∧ Judged r.policy past error := by
  rcases Progress.fail_cases r.valid s w.dice w.now e with ⟨no, hf⟩ | ⟨yes, -, hf⟩ | ⟨-, -, d, -, hf⟩ <;>
    rw [hf] at decision <;> cases decision
  · refine ⟨?_, rfl, h.accepted, no⟩
    rw [judge, hf, ← h.attempt_eq]
    exact w.lines_report rfl
  · have hlast := s.last_exhausted r.policy w.now e
    -- The event is told before the history is made, and has the same numbers as that.
    have hline : (Event.attemptsExhausted r.policy.name s.attempt (elapsed s.started w.now) (Payload.message e)).line =
        .exhausted (s.exhausted r.policy w.now e) := by
      rw [Line.exhausted, Progress.length_exhausted, hlast]
      rfl
    refine ⟨?_, hlast, rfl, ?_, h.accepted, by rwa [hlast]⟩
    · rw [judge, hf]
      exact (w.lines_report rfl).trans (congrArg (w.lines ++ [·]) hline)
    · rw [hlast, Progress.exhausted, List.map_append, h.errors]
      rfl

variable {notice : ε → List Line} {w₁ w₂ : World σ}

/-- A failure with its notice, the line of its retry, and a wait, to its end or not. -/
theorem lines_retried (hbrief : r.policy.Brief) (h : s.Recounts r.policy past)
    (hfailed : w₁.lines = w.lines ++ notice e) {d : Duration}
    (decision : (s.fail r.policy w₁.dice w₁.now e).decision = .retry d next) {pace : Pace} {x : Ended Unit}
    (sleep : Act.sleep pace d (r.judge s e w₁).2 = (x, w₂)) :
    w₂.lines = w.lines ++ Turn.linesAfter r.policy notice past [.retried e d] ∧
      next.Recounts r.policy (past ++ [.retried e d]) := by
  obtain ⟨hline, hnext⟩ := judge_retry hbrief h decision
  refine ⟨?_, hnext⟩
  rw [(Act.quiet_sleep pace d).of_eq sleep, hline, hfailed, Turn.linesAfter_singleton, Turn.lines, List.append_assoc]

/-- A failure with its notice and the line of the end. -/
theorem lines_givenUp (h : s.Recounts r.policy past) (hfailed : w₁.lines = w.lines ++ notice e) {error : RetryError ε}
    (decision : (s.fail r.policy w₁.dice w₁.now e).decision = .giveUp error) :
    (r.judge s e w₁).2.lines = w.lines ++ Tale.linesAfter r.policy notice past ⟨[], some error⟩ ∧
      Judged r.policy (past ++ []) error := by
  obtain ⟨hline, rfl, hjudged⟩ := judge_giveUp h decision
  rw [List.append_nil]
  refine ⟨?_, hjudged⟩
  rw [hline, hfailed, Tale.linesAfter, List.append_nil, List.append_assoc]
  rfl

end RetryLoop

/-! ## Retried calls -/

/-- What a caller gets. -/
def given : Ended (Except ε α) → List (Except ε α)
  | .done result => [result]
  | .panicked _ | .abandoned => []

/-- An attempt of a call fails, and the caller waits for the next one. -/
inductive Again (r : RetryLoop) (pace : Pace) (work : Act σ (Except ε α)) :
    Progress ε → World σ → Turn ε α → Progress ε → World σ → Prop where
  | retry {s next : Progress ε} {w w₁ w₂ : World σ} {e : ε} {d : Duration} (call : work w = (.done (.error e), w₁))
      (decision : ((s.beginAttempt w.now).fail r.policy w₁.dice w₁.now e).decision = .retry d next)
      (sleep : Act.sleep pace d (r.judge (s.beginAttempt w.now) e w₁).2 = (.done (), w₂)) :
      Again r pace work s w (.retried e d) next w₂

/-- An attempt of a call is its last one. -/
inductive Over (r : RetryLoop) (pace : Pace) (work : Act σ (Except ε α)) :
    Progress ε → World σ → Tale ε α → Ended (Except (RetryError ε) α) → World σ → Prop where
  | value {s : Progress ε} {w w₁ : World σ} {a : α} (call : work w = (.done (.ok a), w₁)) :
      Over r pace work s w ⟨[.handed a], none⟩ (.done (.ok a)) w₁
  | giveUp {s : Progress ε} {w w₁ : World σ} {e : ε} {error : RetryError ε} (call : work w = (.done (.error e), w₁))
      (decision : ((s.beginAttempt w.now).fail r.policy w₁.dice w₁.now e).decision = .giveUp error) :
      Over r pace work s w ⟨[], some error⟩ (.done (.error error)) (r.judge (s.beginAttempt w.now) e w₁).2
  /-- The attempt does not come back. -/
  | broken {s : Progress ε} {w w₁ : World σ} {x : Ended (Except ε α)} {y : Ended (Except (RetryError ε) α)}
      (call : work w = (x, w₁)) (broke : x.Broke y) : Over r pace work s w {} y w₁
  /-- Nobody waits for the next attempt. -/
  | unslept {s next : Progress ε} {w w₁ w₂ : World σ} {e : ε} {d : Duration} {x : Ended Unit}
      {y : Ended (Except (RetryError ε) α)} (call : work w = (.done (.error e), w₁))
      (decision : ((s.beginAttempt w.now).fail r.policy w₁.dice w₁.now e).decision = .retry d next)
      (sleep : Act.sleep pace d (r.judge (s.beginAttempt w.now) e w₁).2 = (x, w₂)) (broke : x.Broke y) :
      Over r pace work s w ⟨[.retried e d], none⟩ y w₂

/-- The tale of a call that begins in a world. -/
def Called (r : RetryLoop) (pace : Pace) (work : Act σ (Except ε α)) (w : World σ) (tale : Tale ε α)
    (out : Ended (Except (RetryError ε) α) × World σ) : Prop :=
  Trail (Again r pace work) (Over r pace work) (.start w.now) w tale out.1 out.2

/-- What is told of a tale, from one world to another. -/
structure Told (p : RetryPolicy) (notice : ε → List Line) (tale : Tale ε α) (items : List (Except (RetryError ε) α))
    (w w' : World σ) : Prop where
  lines : w'.lines = w.lines ++ tale.lines p notice
  items : items = tale.items
  judged : ∀ error, tale.verdict = some error → Judged p tale.turns error

section Calls

variable {r : RetryLoop} {pace : Pace} {work : Act σ (Except ε α)} {notice : ε → List Line} {s : Progress ε}
  {w : World σ}

theorem Attempted.trail {out : Ended (Except (RetryError ε) α) × World σ} (h : Attempted r pace work s w out) :
    ∃ tale, Trail (Again r pace work) (Over r pace work) s w tale out.1 out.2 := by
  induction h with
  | value call => exact ⟨_, .halt (.value call)⟩
  | giveUp call decision => exact ⟨_, .halt (.giveUp call decision)⟩
  | retry call decision sleep rest ih =>
    obtain ⟨tale, htale⟩ := ih
    exact ⟨_, .go (.retry call decision sleep) htale⟩
  | broken call broke => exact ⟨_, .halt (.broken call broke)⟩
  | unslept call decision sleep broke => exact ⟨_, .halt (.unslept call decision sleep broke)⟩

/-- A trail of attempts is the run that it tells of. -/
theorem Trail.attemptFrom_eq {tale : Tale ε α} {out : Ended (Except (RetryError ε) α)} {w' : World σ}
    (h : Trail (Again r pace work) (Over r pace work) s w tale out w') : r.attemptFrom pace work s w = (out, w') := by
  induction h with
  | go first rest ih =>
    cases first with
    | retry call decision sleep => rw [RetryLoop.attemptFrom_of_retry call decision sleep, ih]
  | halt last =>
    cases last with
    | value call => rw [RetryLoop.attemptFrom, call]
    | giveUp call decision => exact RetryLoop.attemptFrom_of_giveUp call decision
    | broken call broke => exact RetryLoop.attemptFrom_of_begins .now call broke
    | unslept call decision sleep broke =>
      rw [RetryLoop.attemptFrom, call]
      simp only
      split <;> rename_i hd <;> cases decision.symm.trans hd
      rw [sleep]
      cases broke <;> rfl

variable {past : List (Turn ε α)}

theorem Again.told (hbrief : r.policy.Brief) (hwork : work.Logs (failureLines notice)) {next : Progress ε}
    {w' : World σ} {turn : Turn ε α} (h : Again r pace work s w turn next w') (hs : s.Recounts r.policy past) :
    w'.lines = w.lines ++ Turn.linesAfter r.policy notice past [turn] ∧ next.Recounts r.policy (past ++ [turn]) := by
  cases h with
  | retry call decision sleep =>
    exact RetryLoop.lines_retried hbrief (hs.beginAttempt w.now) (hwork.of_done call) decision sleep

theorem Over.told (hbrief : r.policy.Brief) (hwork : work.Logs (failureLines notice)) {w' : World σ} {tale : Tale ε α}
    {out : Ended (Except (RetryError ε) α)} (h : Over r pace work s w tale out w') (hs : s.Recounts r.policy past) :
    w'.lines = w.lines ++ tale.linesAfter r.policy notice past ∧
      ∀ error, tale.verdict = some error → Judged r.policy (past ++ tale.turns) error := by
  cases h with
  | value call =>
    exact ⟨hwork.of_done call, nofun⟩
  | giveUp call decision =>
    obtain ⟨hlines, hjudged⟩ := RetryLoop.lines_givenUp (hs.beginAttempt w.now) (hwork.of_done call) decision
    refine ⟨hlines, ?_⟩
    rintro _ ⟨⟩
    exact hjudged
  | broken call broke =>
    refine ⟨?_, nofun⟩
    rw [hwork.of_broke call broke]
    exact (List.append_nil _).symm
  | unslept call decision sleep broke =>
    obtain ⟨hlines, -⟩ :=
      RetryLoop.lines_retried hbrief (hs.beginAttempt w.now) (hwork.of_done call) decision sleep
    refine ⟨?_, nofun⟩
    rw [hlines, Tale.linesAfter, List.append_nil]

theorem Over.items_eq {w' : World σ} {tale : Tale ε α} {out : Ended (Except (RetryError ε) α)}
    (h : Over r pace work s w tale out w') : tale.items = given out := by
  cases h with
  | value call | giveUp call decision => rfl
  | broken call broke | unslept call decision sleep broke => cases broke <;> rfl

/-- A retried call, whatever its attempts come to, tells its tale and nothing else. -/
theorem RetryLoop.run_told (hbrief : r.policy.Brief) (hwork : work.Logs (failureLines notice)) (pace : Pace)
    (w : World σ) :
    ∃ tale, Called r pace work w tale (r.run pace work w) ∧
      Told r.policy notice tale (given (r.run pace work w).1) w (r.run pace work w).2 := by
  obtain ⟨tale, htale⟩ := (r.attempted pace work (.start w.now) w).trail
  obtain ⟨hlines, hjudged⟩ := Trail.told (Progress.Recounts r.policy)
    (fun past verdict _ => ∀ error, verdict = some error → Judged r.policy past error)
    (fun h hs => h.told hbrief hwork hs) (fun h hs => h.told hbrief hwork hs) htale (.start w.now)
  have hitems := Trail.items_eq given (fun h => by cases h; rfl) (fun h => h.items_eq) htale
  exact ⟨tale, htale, hlines, hitems.symm, hjudged⟩

end Calls

end CallGuard

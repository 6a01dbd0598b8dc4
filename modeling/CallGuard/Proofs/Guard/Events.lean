/-
The log of a guarded call tells its run, in every shape (`CallSite.events_tell`): a missed deadline is told before the
failure is judged, a failure is told with what it leads to, and a stream tells of every subscription but the first.
Nothing else is told of retries and deadlines, and what gives up a call or stream is told once, at its end.

An attempt logs a line exactly if its deadline is missed (`Guards.logs_attempt`, `Guards.logs_attemptBlocking`,
`Guards.logs_poll`); the rest are the tales of retried calls and streams over such attempts.
-/
import CallGuard.Proofs.Guard.Deadline
import CallGuard.Proofs.Guard.Shapes
import CallGuard.Proofs.Retry.Legs
import CallGuard.Proofs.Stream.Tale

namespace CallGuard

variable {σ ρ ε α : Type}

/-! ## Missed deadlines -/

def Line.timedOut (policy : String) (duration : Duration) : Line :=
  ⟨.warn, "timeout exceeded", [("policy", policy), ("duration_ms", toString duration.millis64)]⟩

/-- What an attempt tells of its failure. -/
def TimeoutError.notice : TimeoutError ε → List Line
  | .timeout p d => [.timedOut p d]
  | .inner _ => []

/-- What a call without retries tells of its failure. -/
def GuardError.notice : GuardError ε → List Line
  | .timeout p d => [.timedOut p d]
  | .exhausted _ | .failed _ => []

namespace TimeLimit

/-- The line of a missed deadline. -/
theorem lines_event (t : TimeLimit) {w v : World σ} (h : v.lines = w.lines) :
    (v.report t.event).lines = w.lines ++ [.timedOut t.policy.name t.policy.duration] :=
  (v.lines_report rfl).trans (congrArg (· ++ [_]) h)

theorem logs_run (t : TimeLimit) {work : Act σ (Except ε α)} (hwork : work.Quiet) :
    (t.run work).Logs (failureLines TimeoutError.notice) := fun w => by
  rcases hrun : t.run work w with ⟨out, v⟩
  cases runsTo.2 hrun with
  | missed limited => exact t.lines_event ((hwork.before _ _).of_eq limited)
  | kept out limited =>
    have hlines := (hwork.before _ _).of_eq limited
    rcases out with (_ | _) | _ | _ <;> exact hlines.trans (List.append_nil _).symm

theorem logs_runApart (t : TimeLimit) (pace : Pace) (job : Job σ ε α) :
    (t.runApart pace job).Logs (failureLines TimeoutError.notice) := fun w => by
  unfold TimeLimit.runApart
  simp only
  -- Whether the call ends in time; if not, whether the deadline is waited for.
  split
  · split <;> simp [logged, failureLines, TimeoutError.notice]
  · split
    · refine t.lines_event ?_
      split <;> simp
    · simp [logged]

/-- A stream under a limit. -/
theorem logs_poll (t : TimeLimit) {producer : Poll σ ρ (Except ε α)} (hpoll : ∀ p, (producer p).Quiet) (g : Gap ρ) :
    (t.poll producer g).Logs (elementLines TimeoutError.notice) := fun w => by
  rcases hrun : t.poll producer g w with ⟨out, v⟩
  cases pollsTo hrun with
  | dropped _ | overflow _ _ => exact (List.append_nil _).symm
  | late _ _ => exact t.lines_event rfl
  | missed _ _ limited => exact t.lines_event (((hpoll _).before _ _).of_eq limited)
  | answered out _ _ limited =>
    have hlines := ((hpoll _).before _ _).of_eq limited
    rcases out with (_ | ⟨_ | _, _⟩) | _ | _ <;> exact hlines.trans (List.append_nil _).symm

end TimeLimit

/-! ## Attempts -/

namespace Guards

variable (g : Guards)

theorem logs_attempt {work : Act σ (Except ε α)} (hwork : work.Quiet) :
    (g.attempt work).Logs (failureLines TimeoutError.notice) := by
  unfold attempt
  split
  · exact TimeLimit.logs_run _ hwork
  · exact hwork.logs.map fun result => by cases result <;> rfl

theorem logs_attemptBlocking (job : Job σ ε α) : (g.attemptBlocking job).Logs (failureLines TimeoutError.notice) := by
  unfold attemptBlocking
  split
  · exact TimeLimit.logs_runApart _ .blocking job
  · exact (job.quiet .blocking).logs.map fun result => by cases result <;> rfl

variable {source : Source σ ρ (Except ε α)}

theorem quiet_subscribe (hsubscribe : source.subscribe.Quiet) : (g.attempts source).subscribe.Quiet :=
  hsubscribe.bind fun _ => Act.quiet_pure _

theorem logs_poll (hpoll : ∀ p, (source.poll p).Quiet) (p : Watched ρ) :
    ((g.attempts source).poll p).Logs (elementLines TimeoutError.notice) := by
  cases p with
  | bare p => exact (hpoll p).logs.relabel fun o => by rcases o with _ | ⟨_ | _, _⟩ <;> rfl
  | timed t gap => exact (t.logs_poll hpoll gap).relabel fun o => by cases o <;> rfl

end Guards

/-! ## Without retries -/

/-- The lines of what a consumer gets from producers that are not retried. -/
theorem Reads.lines {κ β : Type} {poll : Poll σ κ β} {f : Option (β × κ) → List Line} {g : β → List Line}
    {meanwhile : World σ → World σ → Prop} {k₀ : κ} {w₀ w : World σ} {items : List β} {phase : Phase κ}
    (h : Reads poll meanwhile k₀ w₀ items phase w) (hpoll : ∀ k, (poll k).Logs f) (hnone : f none = [])
    (hsome : ∀ b k, f (some (b, k)) = g b) (hmeanwhile : ∀ w w', meanwhile w w' → w'.lines = w.lines) :
    w.lines = w₀.lines ++ items.flatMap g := by
  induction h with
  | start => exact (List.append_nil _).symm
  | idle h passes ih => rw [hmeanwhile _ _ passes, ih]
  | @polled items k w w' out h call ih =>
    have hw := hpoll k w
    rw [call, ih] at hw
    rw [hw, List.flatMap_append, ← List.append_assoc]
    rcases out with (_ | ⟨b, k'⟩) | m | _
    · exact congrArg _ hnone
    · exact congrArg _ ((hsome b k').trans (List.append_nil _).symm)
    · rfl
    · rfl

/-! ## With retries -/

/-- The item tells of exhausted attempts. -/
def exhaustedItem : Except (GuardError ε) α → Bool
  | .ok _ => false
  | .error e => e.exhausted?.isSome

theorem exhaustedItem_ofRetry (item : Except (RetryError (TimeoutError ε)) α) :
    exhaustedItem (mapError GuardError.ofRetry item) = match item with
      | .ok _ => false
      | .error error => error.isExhausted := by
  rcases item with (_ | (_ | _)) | _ <;> rfl

theorem countP_exhaustedItem (tale : Tale (TimeoutError ε) α) :
    (tale.items.map (mapError GuardError.ofRetry)).countP exhaustedItem =
      tale.verdict.toList.countP RetryError.isExhausted := by
  simp only [Tale.items, List.countP_map, List.countP_append, Function.comp_def, exhaustedItem_ofRetry]
  exact (congrArg (· + _) (List.countP_eq_zero.2 fun _ _ => Bool.false_ne_true)).trans (Nat.zero_add _)

/-- Missed deadlines among failures. -/
theorem count_notices (es : List (TimeoutError ε)) :
    Line.count "timeout exceeded" (es.flatMap TimeoutError.notice) = es.countP TimeoutError.isTimeout := by
  induction es with
  | nil => rfl
  | cons e es ih =>
    rw [List.flatMap_cons, Line.count_append, ih]
    cases e with
    | timeout p d => exact (Nat.add_comm ..).trans (List.countP_cons_of_pos rfl).symm
    | inner e => exact Nat.zero_add _

/-- Attempts tell of nothing else. -/
theorem count_notices_of_ne {m : String} (h : m ≠ "timeout exceeded") (es : List (TimeoutError ε)) :
    Line.count m (es.flatMap TimeoutError.notice) = 0 := by
  induction es with
  | nil => rfl
  | cons e es ih =>
    rw [List.flatMap_cons, Line.count_append, ih]
    cases e with
    | timeout p d =>
      have hne : (Line.timedOut p d).message ≠ m := h.symm
      rw [TimeoutError.notice, Line.count_singleton_of_ne hne]
    | inner e => rfl

/-- What a guarded call tells between two worlds, if it gives some items. -/
inductive Guards.Reports [Fault ε] (g : Guards) (happened : RetryLoop → Tale (TimeoutError ε) α → Prop)
    (given : List (Except (GuardError ε) α)) (w w' : World σ) : Prop where
  /-- Without retries it is the deadlines that were missed. -/
  | once (loop : g.retryLoop = none) (lines : w'.lines = w.lines ++ given.flatMap (failureLines GuardError.notice))
  /-- With retries it is the tale of what happened. Each missed deadline has one line; the end of all attempts has one
  if that is what the last item tells of, and a rejected failure has one. -/
  | retried {r : RetryLoop} {tale : Tale (TimeoutError ε) α} (loop : g.retryLoop = some r) (happened : happened r tale)
      (told : Told r.policy TimeoutError.notice tale tale.items w w')
      (items : given = tale.items.map (mapError GuardError.ofRetry))
      (missed : Line.count "timeout exceeded" (tale.lines r.policy TimeoutError.notice) =
        tale.failures.countP TimeoutError.isTimeout)
      (exhausted : Line.count "retry attempts exhausted" (tale.lines r.policy TimeoutError.notice) =
        given.countP exhaustedItem)
      (rejected : Line.count "failure is not retryable" (tale.lines r.policy TimeoutError.notice) =
        tale.verdict.toList.countP (!·.isExhausted))

section Reports

variable [Fault ε] {g : Guards}

theorem Told.reports {r : RetryLoop} {tale : Tale (TimeoutError ε) α}
    {inner : List (Except (RetryError (TimeoutError ε)) α)} {happened : RetryLoop → Tale (TimeoutError ε) α → Prop}
    {items : List (Except (GuardError ε) α)} {w w' : World σ} (h : Told r.policy TimeoutError.notice tale inner w w')
    (loop : g.retryLoop = some r) (hhappened : happened r tale)
    (hitems : items = inner.map (mapError GuardError.ofRetry)) : g.Reports happened items w w' := by
  obtain ⟨hlines, rfl, hjudged⟩ := h
  subst hitems
  refine .retried loop hhappened ⟨hlines, rfl, hjudged⟩ rfl ?_ ?_ ?_
  · have hother : (tale.verdict.toList.countP fun error =>
        (if error.isExhausted then "retry attempts exhausted" else "failure is not retryable") = "timeout exceeded") = 0 := by
      rw [List.countP_eq_zero]
      intro error _
      cases error.isExhausted <;> decide
    rw [Tale.count_lines (by decide) (by decide), count_notices, hother, Nat.add_zero]
  · rw [Tale.count_lines (by decide) (by decide), count_notices_of_ne (by decide), Nat.zero_add, countP_exhaustedItem]
    congr 1
    funext error
    cases error.isExhausted <;> decide
  · rw [Tale.count_lines (by decide) (by decide), count_notices_of_ne (by decide), Nat.zero_add]
    congr 1
    funext error
    cases error.isExhausted <;> decide

/-! ## Calls and streams -/

theorem given_map {ε δ : Type} (f : ε → δ) (x : Ended (Except ε α)) :
    given (x.map (mapError f)) = (given x).map (mapError f) := by
  cases x <;> rfl

/-- A call of some attempts is reported, wherever it begins. -/
def Guards.ReportsCalls (g : Guards) (pace : Pace) (attempt : Act σ (Except (TimeoutError ε) α)) : Prop :=
  ∀ w : World σ, g.Reports (fun r tale => Called r pace attempt w tale (r.run pace attempt w))
    (given (g.run pace attempt w).1) w (g.run pace attempt w).2

/-- The consumers of a stream see a run that is reported, from the start of the call on. -/
def Guards.ReportsStreams (g : Guards) (source : Source σ ρ (Except ε α)) (meanwhile : World σ → World σ → Prop) : Prop :=
  ∀ (w₀ w₁ w : World σ) (started : Started σ ρ ε α) (items : List (Except (GuardError ε) α))
    (phase : Phase (Flow σ ρ ε α)), CallSite.start ⟨.stream source, g⟩ w₀ = (.done started, w₁) →
    Reads Flow.poll meanwhile started.toFlow w₁ items phase w →
    g.Reports (fun r tale => ∃ inner innerPhase,
      Retells r (g.attempts source) meanwhile (.fresh w₀.now) w₀ tale inner innerPhase w) items w₀ w

theorem Guards.reportsCalls (hbrief : ∀ r ∈ g.retryLoop, r.policy.Brief) {attempt : Act σ (Except (TimeoutError ε) α)}
    (hattempt : attempt.Logs (failureLines TimeoutError.notice)) (pace : Pace) : g.ReportsCalls pace attempt := by
  intro w
  cases hloop : g.retryLoop with
  | none =>
    have hrun : g.run pace attempt w = (attempt >>= fun x => pure (mapError GuardError.ofTimeout x)) w := by
      rw [Guards.run, hloop]
    have hlogs : (attempt >>= fun x => pure (mapError GuardError.ofTimeout x)).Logs (failureLines GuardError.notice) :=
      hattempt.map fun x => by rcases x with (_ | _) | _ <;> rfl
    refine .once hloop ?_
    rw [hrun, hlogs w]
    rcases ((attempt >>= fun x => pure (mapError GuardError.ofTimeout x)) w).1 with x | _ | _
    · exact congrArg (w.lines ++ ·) (List.append_nil _).symm
    · rfl
    · rfl
  | some r =>
    obtain ⟨tale, hcalled, htold⟩ := RetryLoop.run_told (hbrief r hloop) hattempt pace w
    have hrun : g.run pace attempt w =
        ((r.run pace attempt w).1.map (mapError GuardError.ofRetry), (r.run pace attempt w).2) := by
      rw [Guards.run, hloop]
      exact Act.bind_pure_eq ..
    rw [hrun]
    exact htold.reports hloop hcalled (given_map ..)

theorem Guards.reportsStreams (hbrief : ∀ r ∈ g.retryLoop, r.policy.Brief) {source : Source σ ρ (Except ε α)}
    {meanwhile : World σ → World σ → Prop} (hsubscribe : source.subscribe.Quiet) (hpoll : ∀ p, (source.poll p).Quiet)
    (hmeanwhile : ∀ w w', meanwhile w w' → w'.lines = w.lines) : g.ReportsStreams source meanwhile := by
  intro w₀ w₁ w started items phase hstart h
  unfold CallSite.start at hstart
  cases hloop : g.retryLoop with
  | none =>
    simp only [hloop] at hstart
    obtain ⟨p, v, hp, hstarted⟩ := Act.of_bind_done hstart
    cases hstarted
    obtain ⟨inner, innerPhase, hreads, rfl, -⟩ := Reads.of_relabel (flow_poll_single (g.attempts source)) h
    have hlines := hreads.lines (g.logs_poll hpoll) rfl (fun _ _ => rfl) hmeanwhile
    refine .once hloop ?_
    rw [hlines, (g.quiet_subscribe hsubscribe).of_eq hp, List.flatMap_map]
    congr 2
    funext x
    rcases x with (_ | _) | _ <;> rfl
  | some r =>
    simp only [hloop] at hstart
    cases hstart
    obtain ⟨inner, innerPhase, hreads, hitems, -⟩ := Reads.of_relabel (flow_poll_repeated r (g.attempts source)) h
    obtain ⟨tale, htale⟩ := hreads.retells
    obtain ⟨htold, -⟩ := htale.told (hbrief r hloop) (g.quiet_subscribe hsubscribe) (g.logs_poll hpoll) hmeanwhile
    exact htold.reports hloop ⟨inner, innerPhase, htale⟩ hitems

/-- The log of a guarded call tells its run: for blocking jobs, for suspended work and for streams. The work and the
consumer may do what they like, but tell nothing of policies themselves. -/
theorem CallSite.events_tell (g : Guards) (hbrief : ∀ r ∈ g.retryLoop, r.policy.Brief) :
    (∀ job : Job σ ε α, (CallSite.start ⟨.blocking job, g⟩ : Act σ (Started σ ρ ε α)) =
        (g.run .blocking (g.attemptBlocking job) >>= fun result => pure (.ready result)) ∧
      g.ReportsCalls .blocking (g.attemptBlocking job)) ∧
    (∀ work : Act σ (Except ε α), work.Quiet → (CallSite.start ⟨.suspended work, g⟩ : Act σ (Started σ ρ ε α)) =
        pure (.pending (g.run .suspended (g.attempt work))) ∧
      g.ReportsCalls .suspended (g.attempt work)) ∧
    ∀ (source : Source σ ρ (Except ε α)) (meanwhile : World σ → World σ → Prop), source.subscribe.Quiet →
      (∀ p, (source.poll p).Quiet) → (∀ w w', meanwhile w w' → w'.lines = w.lines) → g.ReportsStreams source meanwhile := by
  refine ⟨fun job => ⟨rfl, ?_⟩, fun work hwork => ⟨rfl, ?_⟩, fun source meanwhile hsubscribe hpoll hmeanwhile => ?_⟩
  · exact Guards.reportsCalls hbrief (g.logs_attemptBlocking job) .blocking
  · exact Guards.reportsCalls hbrief (g.logs_attempt hwork) .suspended
  · exact Guards.reportsStreams hbrief hsubscribe hpoll hmeanwhile

end Reports

/-! ## A stream that stalls -/

theorem RetryLoop.brief_briefly : RetryLoop.briefly.policy.Brief := by
  intro dice k previous d h
  have hd := RetryPolicy.delayAfter_of_wait rfl h
  unfold RetryPolicy.delayAfter at hd
  split at hd
  · cases hd
  · obtain rfl : Duration.ofMillis 5 = d := Option.some.inj hd
    decide

/-- The guards of a stream with a deadline and a second attempt. -/
def Guards.twice : Guards := ⟨some tenMillis, some .briefly⟩

namespace Stalling

/-- What the second attempt gives after an element. -/
def rest : List (Call TestError Nat) := [{ pauses := [.ofMillis 100], ending := .value 2 }]

/-- A feed whose first subscription fails after an element, and whose other ones stall after the same. -/
def feed : Feed TestError Nat where
  subscription
    | 0 => [{ ending := .value 1 }, { ending := .failure (.transient "a") }]
    | _ => { ending := .value 1 } :: rest

def attempts : Source FeedTally (Watched (List (Call TestError Nat))) (Except (TimeoutError TestError) Nat) :=
  Guards.twice.attempts (feed.source .whole)

/-- The bookkeeping of the first attempt, and that of the second. -/
def first : Progress (TimeoutError TestError) := (Progress.start 0).deliver 0

def second : Progress (TimeoutError TestError) := first.record 0 (.inner (.transient "a")) (.ofMillis 5)

/-- The log between the attempts, and that of the second. -/
def between : List Event := [.retrying "brief" 1 2 (.ofMillis 5) "transient failure: a"]

def again : List Event := .resubscribing 2 (.ofMillis 5) 1 :: between

theorem poll_rest : attempts.poll (.timed tenMillis ⟨some rest, some 5000000⟩)
    { suspended := { now := 5000000 }, log := again, own := { subscribed := 2, produced := 3 } } =
    (.done (some (.error tenMillis.error, .timed tenMillis ⟨none, some 5000000⟩)),
      { suspended := { now := 15000000 }, log := tenMillis.event :: again, own := { subscribed := 2, produced := 3 } }) :=
  rfl

/-- The second attempt skips what the first one gave and then misses its deadline, which is no reason for a third. -/
theorem reads : ∃ w, Reads (RetryLoop.briefly.poll attempts) (fun _ _ => False) (.fresh 0) { own := {} }
      [.ok 1, .error (.nonRetryable tenMillis.error)] (.reading .finished) w ∧
    w.lines = [.retrying RetryLoop.briefly.policy 1 (.ofMillis 5) (TestError.transient "a"),
      .resubscribing 2 (.ofMillis 5) 1, .timedOut "brief" (.ofMillis 10),
      .rejected RetryLoop.briefly.policy 2 (tenMillis.error : TimeoutError TestError)] := by
  have delivered : Polled RetryLoop.briefly attempts (.fresh 0) { own := {} } {} _ _ := .subscribe rfl (.deliver rfl)
  have missed := fun l => Polled.reject (r := .briefly) (k := 0) (s := second.beginAttempt 5000000) (l := l) poll_rest rfl
  have skipped : ∀ l, Polled RetryLoop.briefly attempts
      (.live (.timed tenMillis ⟨some ({ ending := .value 1 } :: rest), none⟩) 1 (second.beginAttempt 5000000))
      { suspended := { now := 5000000 }, log := again, own := { subscribed := 2, produced := 2 } } l _ _ :=
    fun l => .skip rfl (missed (l.element 1))
  have subscribed : ∀ l, Polled RetryLoop.briefly attempts (.waiting second)
      { suspended := { now := 5000000 }, log := between, own := { subscribed := 1, produced := 2 } } l _ _ :=
    fun l => .subscribe rfl (skipped l.subscribe)
  have failed : Polled RetryLoop.briefly attempts
      (.live (.timed tenMillis ⟨some [{ ending := .failure (.transient "a") }], some 0⟩) 0 first)
      { own := { subscribed := 1, produced := 1 } } {} _ _ := .retry rfl rfl rfl rfl (subscribed _)
  exact ⟨_, .polled (.polled .start delivered.poll_eq) failed.poll_eq, rfl⟩

end Stalling

theorem CallSite.events_tell_stalling : ∃ w,
    Guards.twice.Reports (fun r tale => ∃ inner phase,
        Retells r Stalling.attempts (fun _ _ => False) (.fresh 0) { own := {} } tale inner phase w)
      [.ok 1, .error (.timeout "brief" (.ofMillis 10))] { own := {} } w ∧
    w.lines = [.retrying RetryLoop.briefly.policy 1 (.ofMillis 5) (TestError.transient "a"),
      .resubscribing 2 (.ofMillis 5) 1, .timedOut "brief" (.ofMillis 10),
      .rejected RetryLoop.briefly.policy 2 (tenMillis.error : TimeoutError TestError)] := by
  obtain ⟨w, hreads, hlines⟩ := Stalling.reads
  have hbrief : ∀ r ∈ Guards.twice.retryLoop, r.policy.Brief := by
    rintro _ ⟨⟩
    exact RetryLoop.brief_briefly
  have hflow := hreads.relabel (flow_poll_repeated RetryLoop.briefly Stalling.attempts)
  have hreports := (CallSite.events_tell Guards.twice hbrief).2.2 (Stalling.feed.source .whole) (fun _ _ => False)
    (Stalling.feed.quiet_subscribe .whole) (Feed.quiet_poll .whole) nofun
  exact ⟨w, hreports { own := {} } { own := {} } w (.stream Stalling.attempts (.repeated .briefly (.fresh 0))) _ _ rfl hflow,
    hlines⟩

end CallGuard

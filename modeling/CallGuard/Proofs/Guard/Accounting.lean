/-
The times that an exhausted call or stream reports, in every suspended shape (`exhausted_accounts`): its attempts
are those of the run, with the time of each from its beginning to its failure, and each begins when the wait after
the one before it ends. The total of a call is the time from its first attempt. That of a stream also counts the
time from its creation to its first poll, so it is longer than the attempts and their waits whenever nobody asks at
once (`late_first_poll`).
-/
import CallGuard.Proofs.Guard.Stream
import CallGuard.Proofs.Stream.Timesheet

namespace CallGuard

variable {σ ρ ε α : Type}

/-- Only an exhausted retry makes an exhausted call. -/
theorem ofRetry_eq_exhausted {x : Except (RetryError (TimeoutError ε)) α} {history : Exhausted (TimeoutError ε)}
    (h : mapError GuardError.ofRetry x = .error (.exhausted history)) : x = .error (.exhausted history) := by
  rcases x with (_ | (_ | _)) | a <;> cases h
  rfl

section Accounts

variable [Fault ε]

/-- The account of an exhausted call that began in a world: its legs are the attempts of the run, and the total counts
from the first of them. -/
def CallAccount (r : RetryLoop) (work : Act σ (Except ε α)) (w : World σ) (x : Exhausted ε) : Prop :=
  ∃ legs, Accounted r.policy w.instantLimit w.now legs x ∧ (∀ l, legs[0]? = some l → l.began = w.now) ∧
    ∀ i l, legs[i]? = some l → FailedAttempt r work (.start w.now) w (i + 1) l

/-- The account of a stream that was created in a world and handed out some items before it was exhausted: its legs
are those of the timesheet, and the total counts from the creation. -/
def StreamAccount (r : RetryLoop) (source : Source σ ρ (Except ε α)) (meanwhile : World σ → World σ → Prop) (w₀ : World σ)
    (before : List (Except (RetryError ε) α)) (x : Exhausted ε) : Prop :=
  ∃ t k v, Times r source meanwhile (.fresh w₀.now) w₀ t (before ++ [.error (.exhausted x)]) k v ∧
    Accounted r.policy w₀.instantLimit w₀.now t.legs x ∧ ∀ l, t.legs[0]? = some l → w₀.now ≤ l.began

variable {r : RetryLoop} {work : Act σ (Except ε α)} {source : Source σ ρ (Except ε α)}
  {meanwhile : World σ → World σ → Prop} {w₀ w w' : World σ} {x : Exhausted ε}

theorem RetryLoop.run_account (h : r.run .suspended work w = (.done (.error (.exhausted x)), w'))
    (hj : r.policy.jitter = .none) (hwork : work.Steady) (hw : w.Whole) : CallAccount r work w x := by
  obtain ⟨legs, htells, hattempts⟩ := r.run_tells hj hwork hw h
  exact ⟨legs, htells.accounted (Nat.le_refl _), htells.spaced.head_began, hattempts⟩

theorem Reads.stream_account {before : List (Except (RetryError ε) α)} {phase : Phase (Subscription ρ ε)}
    (h : Reads (r.poll source) meanwhile (.fresh w₀.now) w₀ (before ++ [.error (.exhausted x)]) phase w)
    (hj : r.policy.jitter = .none) (hsubscribe : source.subscribe.Steady) (hpoll : ∀ p, (source.poll p).Steady)
    (hmeanwhile : ∀ w w', meanwhile w w' → w.Whole → w.Onward w') (hw₀ : w₀.Whole) :
    StreamAccount r source meanwhile w₀ before x := by
  obtain ⟨t, k, v, htimes, -⟩ := h.times
  obtain ⟨-, -, hlast⟩ := htimes.tells hj hsubscribe hpoll hmeanwhile hw₀ (Nat.le_refl _)
  obtain ⟨first, stop, hfirst, htells⟩ := hlast before x rfl
  exact ⟨t, k, v, htimes, htells.accounted hfirst, fun l hl => htells.spaced.head_began l hl ▸ hfirst⟩

/-- What exhausted calls and streams report, on their own and at a call site, with a limit for each attempt or
without. Nobody has to wait for a call or stream when it is made. -/
theorem exhausted_accounts (hj : r.policy.jitter = .none) (hwork : work.Steady) (hsubscribe : source.subscribe.Steady)
    (hpoll : ∀ p, (source.poll p).Steady) (hmeanwhile : ∀ w w', meanwhile w w' → w.Whole → w.Onward w')
    (hw₀ : w₀.Whole) :
    (∀ (w w' : World σ) (x : Exhausted ε), w.Whole → r.run .suspended work w = (.done (.error (.exhausted x)), w') →
      CallAccount r work w x) ∧
    (∀ (before : List (Except (RetryError ε) α)) (x : Exhausted ε) (phase : Phase (Subscription ρ ε)) (w : World σ),
      Reads (r.poll source) meanwhile (.fresh w₀.now) w₀ (before ++ [.error (.exhausted x)]) phase w →
      StreamAccount r source meanwhile w₀ before x) ∧
    ∀ limit : Option TimeLimit,
      let guards : Guards := ⟨limit, some r⟩
      (∃ call, CallSite.start (⟨.suspended work, guards⟩ : CallSite σ ρ ε α) w₀ = (.done (.pending call), w₀) ∧
        ∀ (w w' : World σ) (x : Exhausted (TimeoutError ε)), w.Whole →
          call w = (.done (.error (.exhausted x)), w') → CallAccount r (guards.attempt work) w x) ∧
      ∃ started, CallSite.start (⟨.stream source, guards⟩ : CallSite σ ρ ε α) w₀ = (.done started, w₀) ∧
        ∀ (before : List (Except (GuardError ε) α)) (x : Exhausted (TimeoutError ε)) (phase : Phase (Flow σ ρ ε α))
          (w : World σ), Reads Flow.poll meanwhile started.toFlow w₀ (before ++ [.error (.exhausted x)]) phase w →
          ∃ items, before = items.map (mapError GuardError.ofRetry) ∧
            StreamAccount r (guards.attempts source) meanwhile w₀ items x := by
  refine ⟨fun w w' x hw h => RetryLoop.run_account h hj hwork hw, fun before x phase w h =>
    h.stream_account hj hsubscribe hpoll hmeanwhile hw₀, fun limit => ⟨⟨_, rfl, fun w w' x hw h => ?_⟩, _, rfl,
    fun before x phase w h => ?_⟩⟩
  · obtain ⟨result, v, hrun, hresult⟩ := Act.of_bind_done h
    have hends : (Ended.done (mapError GuardError.ofRetry result), v) = (.done (.error (.exhausted x)), w') := hresult
    obtain ⟨hitem, rfl⟩ := Prod.mk.inj hends
    obtain rfl := ofRetry_eq_exhausted (Ended.done.inj hitem)
    exact RetryLoop.run_account hrun hj (Guards.steady_attempt _ hwork) hw
  · obtain ⟨items, innerPhase, hreads, hitems, -⟩ := Reads.of_relabel (flow_poll_repeated r _) h
    obtain ⟨items, last, rfl, rfl, hlast⟩ := List.append_eq_map_iff.1 hitems
    obtain ⟨y, rfl, hy⟩ : ∃ y, last = [y] ∧ mapError GuardError.ofRetry y = .error (.exhausted x) := by
      rcases last with _ | ⟨y, _ | _⟩ <;> simp at hlast
      exact ⟨y, rfl, hlast⟩
    obtain rfl := ofRetry_eq_exhausted hy
    exact ⟨items, rfl, hreads.stream_account hj (Guards.steady_subscribe _ hsubscribe) (Guards.steady_poll _ hpoll)
      hmeanwhile hw₀⟩

end Accounts

/-! ## A stream that nobody polls for a second -/

/-- A feed of which every subscription fails at once. -/
def failing : Feed TestError Nat := ⟨fun _ => [{ ending := .failure (.transient "a") }]⟩

/-- Time passes, and nothing else happens. -/
def Passes (w w' : World σ) : Prop := ∃ t, OnTick t ∧ w.now ≤ t ∧ w' = w.moved w.own t

theorem onward_passes (w w' : World σ) (h : Passes w w') (hw : w.Whole) : w.Onward w' := by
  obtain ⟨t, ht, hle, rfl⟩ := h
  exact ⟨⟨hle, World.instantLimit_moved ..⟩, ht, hw.horizon⟩

/-- The world at the start. -/
def dawn : World FeedTally := { own := {} }

theorem whole_dawn : dawn.Whole := ⟨rfl, nofun⟩

theorem Feed.steady_subscribe (f : Feed ε α) (cell : Cell σ FeedTally) : (f.source cell).subscribe.Steady :=
  (Act.steady_modifyOwn _).bind fun _ => (Act.steady_modifyOwn _).bind fun _ => Act.steady_pure _

theorem Feed.steady_poll (f : Feed ε α) (cell : Cell σ FeedTally) (p : List (Call ε α)) :
    ((f.source cell).poll p).Steady :=
  Feed.closed_poll Act.steady_closed cell p

/-- A call that fails like the feed. -/
def failingCall : Act FeedTally (Except TestError Nat) := pure (.error (.transient "a"))

theorem run_failing : ∃ (x : Exhausted TestError) (w : World FeedTally),
    RetryLoop.briefly.run .suspended failingCall dawn = (.done (.error (.exhausted x)), w) ∧
      x.total.nanos = 5000000 := by
  have hcall : ∀ w, failingCall w = (.done (.error (.transient "a")), w) := fun _ => rfl
  exact ⟨_, _, show RetryLoop.briefly.attemptFrom .suspended failingCall (.start 0) dawn = _ from
    (RetryLoop.attemptFrom_of_retry (hcall _) rfl rfl).trans (RetryLoop.attemptFrom_of_giveUp (hcall _) rfl), rfl⟩

/-- The stream is made at once and polled a second later. -/
theorem reads_failing : ∃ (x : Exhausted TestError) (w : World FeedTally),
    Reads (RetryLoop.briefly.poll (failing.source .whole)) Passes (.fresh dawn.now) dawn
      (([] : List (Except (RetryError TestError) Nat)) ++ [.error (.exhausted x)]) (.reading .finished) w ∧
    x.total.nanos = 1005000000 ∧ x.attempts.map (·.elapsed.nanos) = [0, 0] := by
  have hpoll : Polled RetryLoop.briefly (failing.source .whole) (.fresh 0) (dawn.moved {} 1000000000) {} _ _ :=
    .subscribe rfl (.retry rfl rfl rfl rfl (.subscribe rfl (.exhaust rfl rfl (by decide))))
  exact ⟨_, _, .polled (.idle .start ⟨1000000000, rfl, Nat.zero_le _, rfl⟩) hpoll.poll_eq, rfl, rfl⟩

/-- Both have their account: that of the call begins with its first attempt, that of the stream a second before. -/
theorem accounts_failing : ∃ x y : Exhausted TestError,
    CallAccount RetryLoop.briefly failingCall dawn x ∧ x.total.nanos = 5000000 ∧
    StreamAccount RetryLoop.briefly (failing.source .whole) Passes dawn [] y ∧ y.total.nanos = 1005000000 := by
  obtain ⟨x, w, hrun, hx⟩ := run_failing
  obtain ⟨y, v, hreads, hy, -⟩ := reads_failing
  have hcall : failingCall.Steady := Act.steady_pure _
  have h := exhausted_accounts (r := RetryLoop.briefly) rfl hcall (failing.steady_subscribe .whole)
    (failing.steady_poll .whole) onward_passes whole_dawn
  exact ⟨x, y, h.1 dawn w x whole_dawn hrun, hx, h.2.1 [] y _ v hreads, hy⟩

/-- The total of the stream is no sum of its attempts and waits: it waited five milliseconds, and reports a second
more. -/
theorem late_first_poll : ∃ (x : Exhausted TestError) (w : World FeedTally),
    Reads (RetryLoop.briefly.poll (failing.source .whole)) Passes (.fresh dawn.now) dawn
      (([] : List (Except (RetryError TestError) Nat)) ++ [.error (.exhausted x)]) (.reading .finished) w ∧
    x.total.nanos = 1005000000 ∧ (x.attempts.map (·.elapsed.nanos)).sum +
      ∑ k ∈ Finset.Ico 1 x.attempts.length, pauseFor (RetryLoop.briefly.policy.delayAfter k) = 5000000 := by
  obtain ⟨x, w, hreads, htotal, helapsed⟩ := reads_failing
  have hlen : x.attempts.length = 2 := by rw [← List.length_map (·.elapsed.nanos), helapsed]; rfl
  have hdelay : RetryLoop.briefly.policy.delayAfter 1 = some (.ofMillis 5) := rfl
  have hpause : pauseFor (some (.ofMillis 5)) = 5000000 := by
    rw [pauseFor_some, Duration.roundedUp_ofMillis (by decide)]
  refine ⟨x, w, hreads, htotal, ?_⟩
  rw [helapsed, hlen, show Finset.Ico 1 2 = {1} from rfl, Finset.sum_singleton, hdelay, hpause]
  rfl

end CallGuard

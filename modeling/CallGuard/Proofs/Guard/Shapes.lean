/-
The three shapes of a guarded call, consumed at once and back to back: a suspended call of scripted work, a
stream whose producers each give what one call comes to, and a blocking call. They agree (`Guards.shapes_agree`)
with one exception, which is the design of streams with deadlines: a failure leaves the gap running, so without a
retry loop one that was there only after the deadline is followed by the timeout of the gap
(`Guards.lateTimeout`).
-/
import CallGuard.Proofs.Guard.Instant
import CallGuard.Proofs.Guard.Patience
import CallGuard.Proofs.Guard.Stream
import CallGuard.Proofs.Timeout.Watching

namespace CallGuard

variable {σ ρ ε α : Type}

/-! ## Consumers -/

/-- What a consumer gets, when it is there, and what the work has come to by then. -/
structure Item (σ ε α : Type) where
  result : Except (GuardError ε) α
  now : Nat
  own : σ

/-- An item without its instant and without recorded times. -/
def Item.timeless (i : Item σ ε α) : Except (GuardError ε) α × σ := (mapError GuardError.timeless i.result, i.own)

section Consumers

variable [Fault ε]

/-- What a consumer gets that polls back to back, and how that ends. -/
inductive Drained : Flow σ ρ ε α → World σ → List (Item σ ε α) → Ended Unit → World σ → Prop where
  | ended {f : Flow σ ρ ε α} {w w' : World σ} (poll : Flow.poll f w = (.done none, w')) : Drained f w [] (.done ()) w'
  | item {f f' : Flow σ ρ ε α} {w w₁ w' : World σ} {x : Except (GuardError ε) α} {items : List (Item σ ε α)}
      {out : Ended Unit} (poll : Flow.poll f w = (.done (some (x, f')), w₁)) (rest : Drained f' w₁ items out w') :
      Drained f w (⟨x, w₁.now, w₁.own⟩ :: items) out w'
  /-- A poll does not come back. -/
  | broken {f : Flow σ ρ ε α} {w w' : World σ} {x : Ended (Option (Except (GuardError ε) α × Flow σ ρ ε α))}
      {y : Ended Unit} (poll : Flow.poll f w = (x, w')) (broke : x.Broke y) : Drained f w [] y w'

/-- A call site is called, and what was started is consumed as a stream. -/
inductive Consumed (c : CallSite σ ρ ε α) (w : World σ) : List (Item σ ε α) → Ended Unit → World σ → Prop where
  | drained {started : Started σ ρ ε α} {w₁ w' : World σ} {items : List (Item σ ε α)} {out : Ended Unit}
      (start : c.start w = (.done started, w₁)) (drained : Drained started.toFlow w₁ items out w') :
      Consumed c w items out w'
  /-- Nothing was started. -/
  | broken {x : Ended (Started σ ρ ε α)} {y : Ended Unit} {w' : World σ} (start : c.start w = (x, w'))
      (broke : x.Broke y) : Consumed c w [] y w'

theorem Drained.unique {f : Flow σ ρ ε α} {w v v' : World σ} {items items' : List (Item σ ε α)} {out out' : Ended Unit}
    (h : Drained f w items out v) (h' : Drained f w items' out' v') : items = items' ∧ out = out' ∧ v = v' := by
  induction h generalizing items' with
  | ended poll =>
    cases h' with
    | ended poll' => cases poll.symm.trans poll'; exact ⟨rfl, rfl, rfl⟩
    | item poll' _ => cases poll.symm.trans poll'
    | broken poll' broke => cases poll.symm.trans poll'; cases broke
  | item poll _ ih =>
    cases h' with
    | ended poll' => cases poll.symm.trans poll'
    | item poll' rest' =>
      cases poll.symm.trans poll'
      obtain ⟨rfl, rfl, rfl⟩ := ih rest'
      exact ⟨rfl, rfl, rfl⟩
    | broken poll' broke => cases poll.symm.trans poll'; cases broke
  | broken poll broke =>
    cases h' with
    | ended poll' => cases poll.symm.trans poll'; cases broke
    | item poll' _ => cases poll.symm.trans poll'; cases broke
    | broken poll' broke' =>
      cases poll.symm.trans poll'
      cases broke <;> cases broke' <;> exact ⟨rfl, rfl, rfl⟩

/-- What a consumer gets is settled by the call site and the world. -/
theorem Consumed.unique {c : CallSite σ ρ ε α} {w v v' : World σ} {items items' : List (Item σ ε α)} {out out' : Ended Unit}
    (h : Consumed c w items out v) (h' : Consumed c w items' out' v') : items = items' ∧ out = out' ∧ v = v' := by
  cases h with
  | drained start drained =>
    cases h' with
    | drained start' drained' =>
      cases start.symm.trans start'
      exact drained.unique drained'
    | broken start' broke => cases start.symm.trans start'; cases broke
  | broken start broke =>
    cases h' with
    | drained start' _ => cases start.symm.trans start'; cases broke
    | broken start' broke' =>
      cases start.symm.trans start'
      cases broke <;> cases broke' <;> exact ⟨rfl, rfl, rfl⟩

end Consumers

/-! ## One result -/

/-- One result as a list of items. -/
def Ended.items (x : Ended (Except (GuardError ε) α)) (w : World σ) : List (Item σ ε α) :=
  match x with
  | .done result => [⟨result, w.now, w.own⟩]
  | _ => []

theorem Ended.now_items {x : Ended (Except (GuardError ε) α)} {w : World σ} {i : Item σ ε α} (h : i ∈ x.items w) :
    i.now = w.now := by
  cases x with
  | done result =>
    cases List.mem_singleton.1 h
    rfl
  | panicked m => cases h
  | abandoned => cases h

/-- How consuming one result ends. -/
def Ended.unit {β : Type} (x : Ended β) : Ended Unit := x.map fun _ => ()

/-- Results that agree but for their times, of runs beside each other, are items that do. -/
theorem Paired.items {x y : Ended (Except (GuardError ε) α)} {v w : World σ}
    (h : Paired World.Beside (SameResult GuardError.timeless) (x, v) (y, w)) :
    x.unit = y.unit ∧ (x.items v).map Item.timeless = (y.items w).map Item.timeless ∧ v.own = w.own := by
  cases h with
  | done results worlds =>
    exact ⟨rfl, congrArg (fun i => [i]) (Prod.ext results worlds.own), worlds.own⟩
  | panicked worlds => exact ⟨rfl, rfl, worlds.own⟩

theorem Drained.once [Fault ε] {x : Act σ (Except (GuardError ε) α)} {w w₁ : World σ} {o : Ended (Except (GuardError ε) α)}
    (h : x w = (o, w₁)) : Drained (.once x : Flow σ ρ ε α) w (o.items w₁) o.unit w₁ := by
  have hpoll : Flow.poll (.once x : Flow σ ρ ε α) w = (o.map fun item => some (item, .ended), w₁) := by
    show (x >>= fun item => pure (some (item, Flow.ended))) w = _
    rw [Act.bind_pure_eq, h]
  cases o with
  | done result => exact .item hpoll (.ended rfl)
  | panicked m => exact .broken hpoll (.panicked m)
  | abandoned => exact .broken hpoll .abandoned

/-! ## Streams of one element -/

namespace Guards

variable {g : Guards} {work : Act σ (Except ε α)}

/-- What follows a failure that came after its deadline: nothing starts the gap anew, so the next poll, which
finds the producer at its end, comes too late. -/
def lateTimeout (g : Guards) (limit start : Nat) : List (Item σ ε α) → List (Item σ ε α)
  | [⟨.error (.failed _), now, own⟩] =>
    match g.timeLimit, g.retryLoop with
    | some t, none =>
      if t.due limit start < now then [⟨.error (.timeout t.policy.name t.policy.duration), now, own⟩] else []
    | _, _ => []
  | _ => []

/-- Retried streams end after their error. -/
theorem lateTimeout_of_repeated {r : RetryLoop} (hloop : g.retryLoop = some r) (limit start : Nat)
    (items : List (Item σ ε α)) : g.lateTimeout limit start items = [] := by
  unfold lateTimeout
  rw [hloop]
  split
  · cases g.timeLimit <;> rfl
  · rfl

/-- Nothing follows what was there by its deadline. -/
theorem lateTimeout_of_le {limit start : Nat} {items : List (Item σ ε α)}
    (h : g.retryLoop = none → ∀ t ∈ g.timeLimit, ∀ i ∈ items, i.now ≤ t.due limit start) :
    g.lateTimeout limit start items = [] := by
  unfold lateTimeout
  split
  · rename_i e now own
    split
    · rename_i t hlimit hloop
      exact if_neg (Nat.not_lt.2 (h hloop t hlimit _ (List.mem_singleton_self _)))
    · rfl
  · rfl

variable [Fault ε]

theorem flow_poll_single (producers : Source σ (Watched ρ) (Except (TimeoutError ε) α)) (p : Watched ρ) :
    Flow.poll (.stream producers (.single p)) =
      relabel (mapError GuardError.ofTimeout) (fun p => .stream producers (.single p)) (producers.poll p) :=
  relabel_relabel (mapError GuardError.ofTimeout) Attempts.single id (Flow.stream producers) (producers.poll p)

theorem drained_of_none {producers : Source σ (Watched ρ) (Except (TimeoutError ε) α)} {p : Watched ρ} {w : World σ}
    (h : producers.poll p w = (.done none, w)) : Drained (.stream producers (.single p)) w [] (.done ()) w := by
  refine .ended ?_
  rw [flow_poll_single, relabel_eq, h]
  rfl

/-- Polling a stream under a limit alone. -/
theorem flow_poll_timed (g : Guards) (source : Source σ ρ (Except ε α)) (t : TimeLimit) (gap : Gap ρ) :
    Flow.poll (.stream (g.attempts source) (.single (.timed t gap))) =
      relabel (mapError GuardError.ofTimeout) (fun gap => .stream (g.attempts source) (.single (.timed t gap)))
        (t.poll source.poll gap) := by
  rw [flow_poll_single]
  exact relabel_relabel id (Watched.timed t) (mapError GuardError.ofTimeout) _ (t.poll source.poll gap)

/-- What is left of a stream without a retry loop after its one element. -/
theorem drained_answered (work : Act σ (Except ε α)) (hloop : g.retryLoop = none) {start : Nat}
    (x : Except (TimeoutError ε) α) {w : World σ} (hstart : g.Representable w.instantLimit start)
    (hnow : g.Representable w.instantLimit w.now) :
    ∃ w₂, Drained (.stream (g.attempts (.once work)) (.single (g.answered start w.now x))) w
        (g.lateTimeout w.instantLimit start [⟨mapError GuardError.ofTimeout x, w.now, w.own⟩]) (.done ()) w₂ ∧
      w₂.now = w.now ∧ w₂.own = w.own := by
  obtain ⟨limit, loop⟩ := g
  cases hloop
  rcases x with (⟨p, d⟩ | e) | a
  · -- After a missed deadline there is no producer any more.
    cases limit with
    | none => exact ⟨w, drained_of_none rfl, rfl, rfl⟩
    | some t => exact ⟨w, drained_of_none rfl, rfl, rfl⟩
  · -- After a failure the gap goes on that began when the stream was first polled.
    cases limit with
    | none => exact ⟨w, drained_of_none rfl, rfl, rfl⟩
    | some t =>
      have hgap := t.poll_spent work (hstart t rfl)
      have hpoll := congrFun (flow_poll_timed ⟨some t, none⟩ (.once work) t ⟨some false, some start⟩) w
      rw [relabel_eq] at hpoll
      by_cases hlate : t.due w.instantLimit start < w.now
      · have hitem : lateTimeout ⟨some t, none⟩ w.instantLimit start
            [⟨mapError GuardError.ofTimeout (.error (.inner e)), w.now, w.own⟩] =
            [(⟨.error (.timeout t.policy.name t.policy.duration), (w.report t.event).now, (w.report t.event).own⟩ :
              Item σ ε α)] := if_pos hlate
        rw [hgap, if_pos hlate] at hpoll
        rw [hitem]
        exact ⟨w.report t.event, .item hpoll (.ended rfl), rfl, rfl⟩
      · have hitem : lateTimeout ⟨some t, none⟩ w.instantLimit start
            [⟨mapError GuardError.ofTimeout (.error (.inner e)), w.now, w.own⟩] = ([] : List (Item σ ε α)) := if_neg hlate
        rw [hgap, if_neg hlate] at hpoll
        rw [hitem]
        exact ⟨w, .ended hpoll, rfl, rfl⟩
  · -- After an element a new gap begins, in which the end is at once.
    rw [answered_ok]
    exact ⟨w, drained_of_none (poll_spent _ work hnow fun t _ => t.le_due ..), rfl, rfl⟩

/-- A stream of single elements without a retry loop, beside one attempt. -/
theorem drained_single (hloop : g.retryLoop = none) {w w₁ : World σ} {x : Ended (Except (TimeoutError ε) α)}
    (call : g.attempt work w = (x, w₁)) (hlimit : w₁.instantLimit = w.instantLimit)
    (hnow : g.Representable w.instantLimit w.now) (hrep : g.Representable w.instantLimit w₁.now) :
    ∃ w₂, Drained (.stream (g.attempts (.once work)) (.single (g.watch true))) w
        ((x.map (mapError GuardError.ofTimeout)).items w₁ ++
          g.lateTimeout w.instantLimit w.now ((x.map (mapError GuardError.ofTimeout)).items w₁))
        (x.map (mapError GuardError.ofTimeout)).unit w₂ ∧ w₂.now = w₁.now ∧ w₂.own = w₁.own := by
  have hpoll := congrFun (flow_poll_single (g.attempts (.once work)) (g.watch true)) w
  rw [relabel_eq, g.poll_watch work hnow, call] at hpoll
  cases x with
  | done x =>
    rw [← hlimit] at hnow hrep ⊢
    obtain ⟨w₂, hrest, hw₂⟩ := drained_answered work hloop x hnow hrep
    exact ⟨w₂, .item hpoll hrest, hw₂⟩
  | panicked m => exact ⟨w₁, .broken hpoll (.panicked m), rfl, rfl⟩
  | abandoned => exact ⟨w₁, .broken hpoll .abandoned, rfl, rfl⟩

/-- A retried stream of single elements is over after an item. -/
theorem poll_afterItem (r : RetryLoop) (s : Progress (TimeoutError ε)) (x : Except (RetryError (TimeoutError ε)) α)
    {w : World σ} (hrep : g.Representable w.instantLimit w.now) :
    r.poll (g.attempts (.once work)) (g.afterItem s w.now x) w = (.done none, w) := by
  cases x with
  | ok a => rw [afterItem, RetryLoop.poll, g.poll_spent work hrep fun t _ => t.le_due ..]
  | error e => exact poll_finished r _ w

/-- A stream of single elements with a retry loop, beside the attempts of the loop. -/
theorem drained_repeated {r : RetryLoop} (hloop : g.retryLoop = some r) (hdeaf : work.Deaf)
    (hf : work.Forward) {w w₁ : World σ} {x : Ended (Except (RetryError (TimeoutError ε)) α)}
    (call : r.run .suspended (g.attempt work) w = (x, w₁)) (hrep : g.Representable w.instantLimit w₁.now) :
    ∃ w₂, Drained (.stream (g.attempts (.once work)) (.repeated r (.fresh w.now))) w
        ((x.map (mapError GuardError.ofRetry)).items w₁ ++
          g.lateTimeout w.instantLimit w.now ((x.map (mapError GuardError.ofRetry)).items w₁))
        (x.map (mapError GuardError.ofRetry)).unit w₂ ∧ w₂.now = w₁.now ∧ w₂.own = w₁.own := by
  have hattempted := r.attempted .suspended (g.attempt work) (.start w.now) w
  rw [show r.attemptFrom .suspended (g.attempt work) (.start w.now) w = (x, w₁) from call] at hattempted
  obtain ⟨s, l, hfirst⟩ := hattempted.poll_once hdeaf hf hrep rfl w.log
  rw [← (hattempted.forward (g.forward_attempt hf)).limit] at hrep
  have hpoll := (congrFun (flow_poll_repeated r (g.attempts (.once work)) (.fresh w.now)) w).trans (relabel_eq _ _ _ _)
  rw [show r.poll (g.attempts (.once work)) (.fresh w.now) w = _ from hfirst] at hpoll
  rw [lateTimeout_of_repeated hloop, List.append_nil]
  cases x with
  | done x =>
    have hlast := (congrFun (flow_poll_repeated r (g.attempts (.once work)) (g.afterItem s w₁.now x)) (w₁.relogged l)).trans
      (relabel_eq _ _ _ _)
    rw [show r.poll (g.attempts (.once work)) (g.afterItem s w₁.now x) (w₁.relogged l) = _ from
      poll_afterItem r s x (w := w₁.relogged l) hrep] at hlast
    have hitems : Drained (.stream (g.attempts (.once work)) (.repeated r (.fresh w.now))) w
        [⟨mapError GuardError.ofRetry x, (w₁.relogged l).now, (w₁.relogged l).own⟩] (.done ()) (w₁.relogged l) :=
      .item hpoll (.ended hlast)
    exact ⟨w₁.relogged l, hitems, rfl, rfl⟩
  | panicked m => exact ⟨w₁.relogged l, .broken hpoll (.panicked m), rfl, rfl⟩
  | abandoned => exact ⟨w₁.relogged l, .broken hpoll .abandoned, rfl, rfl⟩

end Guards

/-! ## Call sites -/

section Sites

variable [Fault ε]

/-- A call site of a job, in each of its shapes. The producers of the stream each give what one call comes to. -/
def Guards.site (g : Guards) (job : Job σ ε α) : CallStyle → CallSite σ Bool ε α
  | .blocking => ⟨.blocking job, g⟩
  | .suspended => ⟨.suspended (job.run .suspended), g⟩
  | .stream => ⟨.stream (.once (job.run .suspended)), g⟩

namespace Guards

variable {g : Guards} {job : Job σ ε α} {w w₁ : World σ} {o : Ended (Except (GuardError ε) α)}

theorem consumed_suspended (h : g.run .suspended (g.attemptAt .suspended job) w = (o, w₁)) :
    Consumed (g.site job .suspended) w (o.items w₁) o.unit w₁ :=
  .drained rfl (.once h)

theorem consumed_blocking (h : g.run .blocking (g.attemptAt .blocking job) w = (o, w₁)) :
    Consumed (g.site job .blocking) w (o.items w₁) o.unit w₁ := by
  have hstart : (g.site job .blocking).start w = (o.map .ready, w₁) := by
    show (g.run .blocking (g.attemptAt .blocking job) >>= fun result => pure (Started.ready result)) w = _
    rw [Act.bind_pure_eq, h]
  cases o with
  | done result => exact .drained hstart (.once rfl)
  | panicked m => exact .broken hstart (.panicked m)
  | abandoned => exact .broken hstart .abandoned

/-- A stream beside the suspended call, if the work does not read what was reported and time goes on. -/
theorem consumed_stream (hdeaf : (job.run .suspended).Deaf) (hf : (job.run .suspended).Forward)
    (h : g.run .suspended (g.attemptAt .suspended job) w = (o, w₁)) (hrep : g.Representable w.instantLimit w₁.now) :
    ∃ w₂, Consumed (g.site job .stream) w (o.items w₁ ++ g.lateTimeout w.instantLimit w.now (o.items w₁)) o.unit w₂ ∧
      w₂.now = w₁.now ∧ w₂.own = w₁.own := by
  cases hloop : g.retryLoop with
  | some r =>
    have hstart : (g.site job .stream).start w =
        (.done (.stream (g.attempts (.once (job.run .suspended))) (.repeated r (.fresh w.now))), w) := by
      simp only [CallSite.start, site, hloop]
      rfl
    simp only [run, hloop, Act.bind_pure_eq] at h
    rcases hcall : r.run .suspended (g.attemptAt .suspended job) w with ⟨x, v⟩
    rw [hcall] at h
    cases h
    obtain ⟨w₂, hdrained, hw₂⟩ := drained_repeated hloop hdeaf hf hcall hrep
    exact ⟨w₂, .drained hstart hdrained, hw₂⟩
  | none =>
    have hstart : (g.site job .stream).start w =
        (.done (.stream (g.attempts (.once (job.run .suspended))) (.single (g.watch true))), w) := by
      simp only [CallSite.start, site, hloop]
      rfl
    simp only [run, hloop, Act.bind_pure_eq] at h
    rcases hcall : g.attemptAt .suspended job w with ⟨x, v⟩
    have hforward : w.Forward v := (g.forward_attempt hf).of_eq hcall
    rw [hcall] at h
    cases h
    obtain ⟨w₂, hdrained, hw₂⟩ := drained_single hloop hcall hforward.limit (hrep.mono hforward.le) hrep
    exact ⟨w₂, .drained hstart hdrained, hw₂⟩

/-- When a call with one attempt under a limit is over. -/
theorem now_run_alone {t : TimeLimit} (hloop : g.retryLoop = none) (hlimit : g.timeLimit = some t) :
    (g.run .suspended (g.attemptAt .suspended job) w).2.now = (t.run (job.run .suspended) w).2.now := by
  simp only [run, hloop, Act.bind_pure_eq, attemptAt, attempt, hlimit]

/-- How the shapes of a call agree, told from what a suspended caller gets. The panics are those of a call of the
work that some attempt makes, by the deadline of the attempt. -/
structure ShapesAgree (g : Guards) (job : Job σ ε α) (w : World σ) (items : List (Item σ ε α)) (out : Ended Unit)
    (w₁ : World σ) : Prop where
  suspended : Consumed (g.site job .suspended) w items out w₁
  comesBack : out ≠ .abandoned
  stream : g.Representable w.instantLimit w₁.now → ∃ w₂,
    Consumed (g.site job .stream) w (items ++ g.lateTimeout w.instantLimit w.now items) out w₂ ∧
      w₂.now = w₁.now ∧ w₂.own = w₁.own
  onTime : (∀ t ∈ g.timeLimit, OnTick (t.due w.instantLimit w.now)) → g.lateTimeout w.instantLimit w.now items = []
  blocking : (∀ k, (job.work.call k).pauses = []) → ∃ items' w₃, Consumed (g.site job .blocking) w items' out w₃ ∧
    items'.map Item.timeless = items.map Item.timeless ∧ w₃.own = w₁.own
  panics : ∀ {k m v v'}, g.Panics .suspended job w k m v v' → items = [] ∧ out = .panicked m ∧ w₁ = v'
  panicsBlocking : ∀ {k m v v'}, g.Panics .blocking job w k m v v' →
    ∃ u, g.attemptBlocking job v = (.panicked m, u) ∧ Consumed (g.site job .blocking) w [] (.panicked m) u

/-- The shapes of a guarded call of scripted work agree, for a caller who waits to the end and work that hangs only under a
limit. A suspended call comes to one item or to a panic. A stream of the same calls gives the same item
at the same time after the same calls, and after it nothing but the timeout of a failure that came
later than its deadline, which takes a deadline between two milliseconds and no retry loop. If the calls take no
time, a blocking call gives the same item but for its times. A panic of any attempt is the end in every shape. -/
theorem shapes_agree (g : Guards) (script : Nat → Call ε α) (cell : Cell σ Tally)
    (hends : g.timeLimit = none → ∀ k, (script k).ending ≠ .never) {w : World σ} (hsuspended : w.Patient .suspended)
    (hblocking : w.Patient .blocking) :
    ∃ (items : List (Item σ ε α)) (out : Ended Unit) (w₁ : World σ),
      g.ShapesAgree ⟨⟨.starts, script⟩, cell⟩ w items out w₁ := by
  rcases hrun : g.run .suspended (g.attemptAt .suspended ⟨⟨.starts, script⟩, cell⟩) w with ⟨o, w₁⟩
  have htimed := Job.timed_run script cell
  refine ⟨o.items w₁, o.unit, w₁, ?_⟩
  constructor
  case suspended => exact consumed_suspended hrun
  case comesBack =>
    have hback := g.run_comes_back cell hends hsuspended
    rw [hrun] at hback
    exact Ended.map_ne_abandoned hback
  case stream => exact consumed_stream (Job.deaf _ _) (Job.forward_run script cell) hrun
  case onTime =>
    -- On a whole millisecond the deadline is when the wait for it ends, so nothing comes after it and still counts.
    refine fun htick => lateTimeout_of_le fun hloop t hlimit i hi => ?_
    have hle := t.run_by_deadline htimed hsuspended
    rw [← now_run_alone hloop hlimit, hrun, tick_eq_self (htick t hlimit)] at hle
    rwa [Ended.now_items hi]
  case blocking =>
    intro hpauses
    have hpair := g.run_instant cell hpauses hends ⟨rfl, rfl, hblocking, hsuspended⟩
    rcases hblocked : g.run .blocking (g.attemptAt .blocking ⟨⟨.starts, script⟩, cell⟩) w with ⟨o', w₃⟩
    rw [hblocked, hrun] at hpair
    obtain ⟨hout, hitems, hown⟩ := hpair.items
    exact ⟨o'.items w₃, w₃, hout ▸ consumed_blocking hblocked, hitems, hown⟩
  case panics =>
    intro k m v v' h
    obtain ⟨u, -, hu, hpanic⟩ := h.run hsuspended
    cases hpanic.symm.trans hrun
    cases hu rfl
    exact ⟨rfl, rfl, rfl⟩
  case panicsBlocking =>
    intro k m v v' h
    obtain ⟨u, hattempt, -, hpanic⟩ := h.run hblocking
    exact ⟨u, hattempt, consumed_blocking hpanic⟩

/-! ## A late failure -/

open TimeLimit RetryLoop

/-- The world at an instant, when so many calls are over. -/
def standing (n t : Nat) : World Tally := World.moved { own := {} } { started := n, steps := n, finished := n } t

/-- A call that fails after its deadline, and before the millisecond is over. -/
def late : Job Tally TestError Nat :=
  ⟨⟨.starts, fun _ => ⟨[⟨1600000, by decide⟩], .failure (.transient "late")⟩⟩, .whole⟩

/-- One attempt, under a limit of one and a half milliseconds. -/
def unevenOnce : Guards := ⟨some oneAndAHalf, none⟩

/-- A suspended caller has the failure, and a consumer of the stream has the timeout after it. -/
theorem shapes_disagree_late :
    (∃ v, Consumed (unevenOnce.site late .suspended) (standing 0 0)
      [⟨.error (.failed (.transient "late")), 2000000, (standing 1 2000000).own⟩] (.done ()) v) ∧
    (∃ v, Consumed (unevenOnce.site late .stream) (standing 0 0)
      [⟨.error (.failed (.transient "late")), 2000000, (standing 1 2000000).own⟩,
        ⟨.error (.timeout "uneven" ⟨1500000, by decide⟩), 2000000, (standing 1 2000000).own⟩] (.done ()) v) ∧
    ¬ ∃ items out v v', Consumed (unevenOnce.site late .suspended) (standing 0 0) items out v ∧
      Consumed (unevenOnce.site late .stream) (standing 0 0) items out v' := by
  have hrun : unevenOnce.run .suspended (unevenOnce.attemptAt .suspended late) (standing 0 0) =
      (.done (.error (.failed (.transient "late"))), standing 1 2000000) := rfl
  have hcall : unevenOnce.attempt (late.run .suspended) (standing 0 0) =
      (.done (.error (.inner (.transient "late"))), standing 1 2000000) := rfl
  have hlimit : ∀ n, n ≤ 2000000 → unevenOnce.Representable (standing 0 0).instantLimit n := fun n hn t ht => by
    cases ht
    exact TimeLimit.Representable.mono (by decide : oneAndAHalf.Representable _ 2000000) hn
  have hsuspended := consumed_suspended hrun
  obtain ⟨v, hdrained, -⟩ := drained_single rfl hcall rfl (hlimit _ (by decide)) (hlimit _ (by decide))
  have hstream : Consumed (unevenOnce.site late .stream) (standing 0 0) _ _ v := .drained rfl hdrained
  refine ⟨⟨_, hsuspended⟩, ⟨v, hstream⟩, ?_⟩
  rintro ⟨items, out, u, u', h, h'⟩
  have hone := (h.unique hsuspended).1
  have htwo := (h'.unique hstream).1
  cases hone.symm.trans htwo

/-- A call that fails late once, and then a call that does not. -/
def lateOnce : Job Tally TestError Nat :=
  ⟨⟨.starts, fun k =>
    if k = 1 then ⟨[⟨1600000, by decide⟩], .failure (.transient "late")⟩ else ⟨[⟨900000, by decide⟩], .value 7⟩⟩, .whole⟩

/-- Two attempts under such a limit. -/
def unevenTwice : Guards where
  timeLimit := some oneAndAHalf
  retryLoop := some {
    policy := { name := "twice", maxAttempts := 2, delay := ⟨5000000, by decide⟩ }
    valid := by simp [RetryPolicy.valid_iff, Jitter.Good] }

theorem run_lateOnce : ∃ l, unevenTwice.run .suspended (unevenTwice.attemptAt .suspended lateOnce) (standing 0 0) =
    (.done (.ok 7), (standing 2 8000000).relogged l) := by
  have hfirst : unevenTwice.attempt (lateOnce.run .suspended) (standing 0 0) =
      (.done (.error (.inner (.transient "late"))), standing 1 2000000) := rfl
  have hsecond : unevenTwice.attempt (lateOnce.run .suspended) (standing 1 7000000) = (.done (.ok 7), standing 2 8000000) :=
    rfl
  have hsleep : Act.sleep .suspended ⟨5000000, by decide⟩ (standing 1 2000000) = (.done (), standing 1 7000000) := rfl
  have hdecision : ∃ r next event, unevenTwice.retryLoop = some r ∧
      ((Progress.start 0).beginAttempt 0).fail r.policy (standing 1 2000000).dice 2000000
        (.inner (.transient "late") : TimeoutError TestError) = ⟨.retry ⟨5000000, by decide⟩ next, [event]⟩ :=
    ⟨_, _, _, rfl, rfl⟩
  obtain ⟨r, next, event, hloop, hdecision⟩ := hdecision
  obtain ⟨l, hslept⟩ := Act.deaf_sleep .suspended ⟨5000000, by decide⟩ (standing 1 2000000) [event]
  obtain ⟨l', hlast⟩ := unevenTwice.deaf_attempt (lateOnce.deaf .suspended) (standing 1 7000000) l
  rw [hsleep] at hslept
  rw [hsecond] at hlast
  cases hloop
  exact ⟨l', Act.bind_of_done ((attemptFrom_retry hfirst hdecision hslept).trans (attemptFrom_value hlast))⟩

/-- With a retry loop the late failure makes no difference. -/
theorem shapes_agree_lateOnce :
    (∃ v, Consumed (unevenTwice.site lateOnce .suspended) (standing 0 0)
      [⟨.ok 7, 8000000, (standing 2 8000000).own⟩] (.done ()) v) ∧
    ∃ v, Consumed (unevenTwice.site lateOnce .stream) (standing 0 0)
      [⟨.ok 7, 8000000, (standing 2 8000000).own⟩] (.done ()) v := by
  obtain ⟨items, out, w₁, h⟩ := shapes_agree unevenTwice lateOnce.work.call .whole nofun
    (show (standing 0 0).Patient .suspended from rfl) rfl
  obtain ⟨l, hrun⟩ := run_lateOnce
  obtain ⟨rfl, rfl, rfl⟩ := h.suspended.unique (consumed_suspended hrun)
  have hrep : unevenTwice.Representable (standing 0 0).instantLimit 8000000 := fun t ht => by
    cases ht
    show oneAndAHalf.Representable (standing 0 0).instantLimit 8000000
    decide
  obtain ⟨v, hstream, -⟩ := h.stream hrep
  exact ⟨⟨_, h.suspended⟩, v, hstream⟩

end Guards

end Sites

end CallGuard

/-
Streams of call sites with retries, over producers that replay one sequence: a stream gives the sequence
exactly once, whatever deadlines are below the retries (`exactly_once`). Deadlines cut a producer off but
never move it (`Replays.attempts`), and a call site only relabels what comes out.
-/
import CallGuard.Guard.Site
import CallGuard.Proofs.Stream.Replay
import CallGuard.Proofs.Timeout.Gap
import CallGuard.Proofs.Work.Feed

namespace CallGuard

variable {σ ρ ε α : Type}

/-! ## Producers of single attempts -/

/-- How many elements a producer with deadlines has given: as many as the producer below it. -/
def givenBelow (given : σ → ρ → Nat → Prop) (s : σ) : Watched ρ → Nat → Prop
  | .bare p, n => given s p n
  | .timed _ g, n => ∃ p, g.producer = some p ∧ given s p n

/-- Deadlines cut producers off, but they replay what they did. -/
theorem Replays.attempts {source : Source σ ρ (Except ε α)} {meanwhile : σ → σ → Prop} {xs : Stream'.Seq α}
    {given : σ → ρ → Nat → Prop} (hs : Replays source meanwhile xs given) (g : Guards) :
    Replays (g.attempts source) meanwhile xs (givenBelow given) where
  subscribe := by
    intro w w' p h
    obtain ⟨q, v, hsub, hq⟩ := Act.of_bind_done h
    cases hq
    have hg := hs.subscribe hsub
    unfold Guards.watch
    cases g.timeLimit with
    | none => exact hg
    | some t => exact ⟨q, rfl, hg⟩
  element := by
    intro w w' p p' n a hg h
    cases p with
    | bare p =>
      change relabel (mapError TimeoutError.inner) Watched.bare (source.poll p) w = _ at h
      rw [relabel_eq, Prod.mk.injEq] at h
      obtain ⟨x, q, hx, ha, rfl⟩ := relabelled_eq_some h.1
      cases x <;> cases ha
      obtain ⟨hn, hg'⟩ := hs.element hg (Prod.ext hx rfl : source.poll p w = (_, _))
      exact ⟨hn, h.2 ▸ hg'⟩
    | timed t gap =>
      change relabel id (Watched.timed t) (t.poll source.poll gap) w = _ at h
      rw [relabel_eq, Prod.mk.injEq] at h
      obtain ⟨x, gap', hx, rfl, rfl⟩ := relabelled_eq_some h.1
      obtain ⟨q, q', v, v', hq, hq', hcall, hv, hv'⟩ := TimeLimit.poll_element (Prod.ext hx h.2)
      obtain ⟨q₀, hq₀, hg⟩ := hg
      cases hq.symm.trans hq₀
      obtain ⟨hn, hg'⟩ := hs.element (hv ▸ hg) hcall
      exact ⟨hn, q', hq', hv' ▸ hg'⟩
  ended := by
    intro w w' p n hg h
    cases p with
    | bare p =>
      change relabel (mapError TimeoutError.inner) Watched.bare (source.poll p) w = _ at h
      rw [relabel_eq, Prod.mk.injEq] at h
      exact hs.ended hg (Prod.ext (relabelled_eq_none h.1) rfl : source.poll p w = (_, _))
    | timed t gap =>
      change relabel id (Watched.timed t) (t.poll source.poll gap) w = _ at h
      rw [relabel_eq, Prod.mk.injEq] at h
      obtain ⟨q₀, hq₀, hg⟩ := hg
      rcases TimeLimit.poll_ended (Prod.ext (relabelled_eq_none h.1) h.2) with hnone | ⟨q, v, v', hq, hcall, hv⟩
      · cases hnone.symm.trans hq₀
      · cases hq.symm.trans hq₀
        exact hs.ended (hv ▸ hg) hcall
  idle := by
    intro s s' p n hg hm
    cases p with
    | bare p => exact hs.idle hg hm
    | timed t gap =>
      obtain ⟨p, hp, hg⟩ := hg
      exact ⟨p, hp, hs.idle hg hm⟩

/-! ## Call sites -/

/-- Polling the flow of a retried call site is polling the retried stream. -/
theorem flow_poll_repeated [Fault ε] (r : RetryLoop) (producers : Source σ (Watched ρ) (Except (TimeoutError ε) α))
    (s : Subscription (Watched ρ) (TimeoutError ε)) :
    Flow.poll (.stream producers (.repeated r s)) =
      relabel (mapError GuardError.ofRetry) (fun s => .stream producers (.repeated r s)) (r.poll producers s) :=
  relabel_relabel (mapError GuardError.ofRetry) (Attempts.repeated r) id (Flow.stream producers) (r.poll producers s)

/-- Over producers that replay one sequence, a retried stream gives it exactly once: on its own, over
producers with deadlines, and as the stream of a call site. -/
theorem exactly_once [Fault ε] {source : Source σ ρ (Except ε α)} {meanwhile : σ → σ → Prop} {xs : Stream'.Seq α}
    {given : σ → ρ → Nat → Prop} (hs : Replays source meanwhile xs given) (r : RetryLoop) :
    DeliversOnce r source (fun w w' => meanwhile w.own w'.own) xs ∧
    ∀ limit : Option TimeLimit,
      let producers := (⟨limit, some r⟩ : Guards).attempts source
      DeliversOnce r producers (fun w w' => meanwhile w.own w'.own) xs ∧
      ∀ w₀ : World σ, ∃ started : Started σ ρ ε α,
        CallSite.start ⟨.stream source, ⟨limit, some r⟩⟩ w₀ = (.done started, w₀) ∧
        ∀ (items : List (Except (GuardError ε) α)) (phase : Phase (Flow σ ρ ε α)) (w : World σ),
          Reads Flow.poll (fun w w' => meanwhile w.own w'.own) started.toFlow w₀ items phase w →
          ∃ l inner innerPhase,
            Account r producers (fun w w' => meanwhile w.own w'.own) (.fresh w₀.now) w₀ l inner innerPhase w ∧
            items = inner.map (mapError GuardError.ofRetry) ∧ ExactlyOnce xs l.subscriptions items phase := by
  refine ⟨hs.deliversOnce r, fun limit => ?_⟩
  have hbelow := (hs.attempts ⟨limit, some r⟩).deliversOnce r
  refine ⟨hbelow, fun w₀ => ⟨_, rfl, fun items phase w h => ?_⟩⟩
  obtain ⟨inner, innerPhase, hr, rfl, rfl⟩ := Reads.of_relabel (flow_poll_repeated r _) h
  obtain ⟨l, ha, hx⟩ := hbelow _ _ _ _ _ hr
  refine ⟨l, inner, innerPhase, ha, rfl, ?_, ?_, ?_⟩
  · rw [elements_mapError]; exact hx.inOrder
  · rw [elements_mapError]; exact hx.longest
  · intro hend hno
    rw [elements_mapError]
    refine hx.whole ?_ fun e he => hno (GuardError.ofRetry e) (List.mem_map_of_mem he)
    cases innerPhase <;> cases hend
    rfl

theorem failingOnce_replaying : (failingOnce 1).Replaying (.ofList [1, 2]) where
  element i n c a _ hc ha := by
    rcases i with _ | i <;> rcases n with _ | _ | n <;> cases hc <;> cases ha <;> rfl
  whole i h := by
    rcases i with _ | i
    · obtain ⟨a, ha⟩ := h { ending := .failure (.transient "a") } (by simp [failingOnce])
      cases ha
    · rfl

theorem exactly_once_failingOnce : ∃ (l : Ledger TestError Nat) (w : World FeedTally),
    Account RetryLoop.briefly ((failingOnce 1).source .whole) (fun _ _ => True) (.fresh 0) { own := {} } l
        [.ok 1, .ok 2] .ended w ∧
      ExactlyOnce (.ofList [1, 2]) l.subscriptions ([.ok 1, .ok 2] : List (Except (RetryError TestError) Nat))
        (.ended : Phase (Subscription (List (Call TestError Nat)) TestError)) := by
  have hs := failingOnce_replaying.replays .whole fun _ _ => True
  obtain ⟨w, hr⟩ := reads_failingOnce 1
  obtain ⟨l, ha, hx⟩ := (exactly_once hs RetryLoop.briefly).1 0 { own := {} } _ _ w hr
  exact ⟨l, w, ha, hx⟩

end CallGuard

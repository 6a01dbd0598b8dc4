/-
Streams with an alternative, for every consumer. What a consumer has is what the first stream gave up to its
first failure, and then nothing, that failure, or whatever the alternative gives, as it gives it
(`Rescue.Relayed`, `Reads.relayed`). As lists this is `Rescue.relay`, and streams of given lists are relayed to
that list (`Yields.relay`).

The induction is on the polls of the consumer. What one poll does is said for each state apart; the state of the
first stream is left at its first failure and never entered again, so it is not asked after that, and the
alternative is subscribed to where it is left.
-/
import CallGuard.Fallback.Rescue
import CallGuard.Proofs.Run.Counting
import CallGuard.Proofs.Stream.Account

namespace CallGuard

variable {σ ε α ρ κ β : Type}

/-! ## Lists -/

/-- A stream gives a list and ends, whatever the world is like, as long as it is one of some kind. -/
def Yields (P : World σ → Prop) (poll : Poll σ κ β) : List β → κ → Prop
  | [], k => ∀ w, P w → ∃ w', poll k w = (.done none, w')
  | b :: bs, k => ∀ w, P w → ∃ k' w', poll k w = (.done (some (b, k')), w') ∧ P w' ∧ Yields P poll bs k'

/-- A stream over other states gives the same list. -/
theorem Yields.relabel {κ' : Type} {P : World σ → Prop} {poll : Poll σ κ β} {poll' : Poll σ κ' β} {g : κ → κ'}
    (hg : ∀ k, poll' (g k) = CallGuard.relabel id g (poll k)) {bs : List β} {k : κ} (h : Yields P poll bs k) :
    Yields P poll' bs (g k) := by
  induction bs generalizing k with
  | nil =>
    intro w hw
    obtain ⟨w', call⟩ := h w hw
    exact ⟨w', by rw [hg, relabel_eq, call]; rfl⟩
  | cons b bs ih =>
    intro w hw
    obtain ⟨k', w', call, hw', rest⟩ := h w hw
    exact ⟨g k', w', by rw [hg, relabel_eq, call]; rfl, hw', ih rest⟩

/-- A state whose polls are those of states that give a list gives it as well. -/
theorem Yields.of_same {P : World σ → Prop} {poll : Poll σ κ β} {bs : List β} {k : κ}
    (h : ∀ w, P w → ∃ k' w', poll k w = poll k' w' ∧ P w' ∧ Yields P poll bs k') : Yields P poll bs k := by
  cases bs with
  | nil =>
    intro w hw
    obtain ⟨k', w', heq, hw', rest⟩ := h w hw
    rw [heq]
    exact rest w' hw'
  | cons b bs =>
    intro w hw
    obtain ⟨k', w', heq, hw', rest⟩ := h w hw
    rw [heq]
    exact rest w' hw'

theorem Feed.sleepThrough_of_patient (ds : List Duration) :
    ∀ {w : World σ}, w.Patient .suspended → ∃ v, sleepThrough ds w = (.done (), v) ∧ v.Patient .suspended := by
  induction ds with
  | nil => exact fun {w} hw => ⟨w, rfl, hw⟩
  | cons d rest ih =>
    intro w hw
    obtain ⟨u, hsleep, hu⟩ : ∃ u, Act.sleep .suspended d w = (.done (), u) ∧ u.Patient .suspended :=
      ⟨_, Act.sleep_of_patient hw d, hw⟩
    obtain ⟨v, hrest, hv⟩ := ih hu
    exact ⟨v, by rw [sleepThrough, Act.bind_of_done hsleep, hrest], hv⟩

/-- A feed gives what its script says to somebody who waits for ever, if the script does not stop. -/
theorem Feed.yields (cell : Cell σ FeedTally) {calls : List (Call ε α)} {outcomes : List (Except ε α)}
    (h : calls.map (·.ending.ended) = outcomes.map .done) :
    Yields (World.Patient .suspended) (Feed.poll cell) outcomes calls := by
  induction calls generalizing outcomes with
  | nil =>
    cases outcomes with
    | nil => exact fun w _ => ⟨w, rfl⟩
    | cons => cases h
  | cons c calls ih =>
    cases outcomes with
    | nil => cases h
    | cons o outcomes =>
      rw [List.map_cons, List.map_cons, List.cons.injEq] at h
      obtain ⟨hends, hrest⟩ := h
      intro w hw
      obtain ⟨v, hslept, hv⟩ := sleepThrough_of_patient c.pauses hw
      have hpoll : Feed.poll cell (c :: calls) w = Feed.emit cell o calls v := by
        rw [Feed.poll, Act.bind_of_done hslept]
        cases hending : c.ending <;> rw [hending] at hends <;> cases hends <;> rfl
      exact ⟨calls, _, hpoll, hv, ih hrest⟩

namespace Rescue

variable [Fault ε]

/-- What a stream with an alternative gives, as lists: the elements before the first failure, and then the failure
or, in its place, everything that the alternative gives. -/
def relay (f : Rescue) (alternative : List (Except ε α)) : List (Except ε α) → List (Except ε α)
  | [] => []
  | .ok a :: rest => .ok a :: f.relay alternative rest
  | .error e :: _ => if f.accepts e then alternative else [.error e]

/-! ## Polls -/

section Polls

variable {f : Rescue} {primary : Poll σ ρ (Except ε α)} {alternative : Source σ κ (Except ε α)}

theorem poll_alternative (k : κ) :
    f.poll primary alternative (.alternative k) = relabel id .alternative (alternative.poll k) := rfl

theorem poll_over (w : World σ) : f.poll primary alternative .over w = (.done none, w) := rfl

variable {p p' : ρ} {w w₁ : World σ} {e : ε}

theorem poll_ok {a : α} (call : primary p w = (.done (some (.ok a, p')), w₁)) :
    f.poll primary alternative (.primary p) w = (.done (some (.ok a, .primary p')), w₁) := by
  rw [poll, call]

theorem poll_refused (call : primary p w = (.done (some (.error e, p')), w₁)) (no : f.accepts e = false) :
    f.poll primary alternative (.primary p) w = (.done (some (.error e, .over)), w₁) := by
  simp only [poll, call, no, Bool.false_eq_true, if_false]

theorem poll_accepted (call : primary p w = (.done (some (.error e, p')), w₁)) (yes : f.accepts e = true) :
    f.poll primary alternative (.primary p) w =
      (alternative.subscribe >>= fun k => relabel id .alternative (alternative.poll k)) (w₁.report (f.event e)) := by
  simp only [poll, call, yes, if_true]

end Polls

end Rescue

/-- A first stream and an alternative that give lists give the relayed list. -/
theorem Yields.relay [Fault ε] {P : World σ → Prop} (f : Rescue) {primary : Poll σ ρ (Except ε α)}
    {alternative : Source σ κ (Except ε α)} {given answer : List (Except ε α)} {p : ρ}
    (hreport : ∀ w (e : ε), P w → P (w.report (f.event e))) (hprimary : Yields P primary given p)
    (halternative : ∀ w, P w → ∃ k w', alternative.subscribe w = (.done k, w') ∧ P w' ∧
      Yields P alternative.poll answer k) :
    Yields P (f.poll primary alternative) (f.relay answer given) (.primary p) := by
  induction given generalizing p with
  | nil =>
    intro w hw
    obtain ⟨w', call⟩ := hprimary w hw
    exact ⟨w', by rw [Rescue.poll, call]⟩
  | cons item given ih =>
    cases item with
    | ok a =>
      intro w hw
      obtain ⟨p', w', call, hw', rest⟩ := hprimary w hw
      exact ⟨.primary p', w', Rescue.poll_ok call, hw', ih rest⟩
    | error e =>
      rw [Rescue.relay]
      cases haccepts : f.accepts e with
      | false =>
        intro w hw
        obtain ⟨p', w', call, hw', -⟩ := hprimary w hw
        exact ⟨.over, w', Rescue.poll_refused call haccepts, hw', fun v _ => ⟨v, Rescue.poll_over v⟩⟩
      | true =>
        refine .of_same fun w hw => ?_
        obtain ⟨p', w₁, call, hw₁, -⟩ := hprimary w hw
        obtain ⟨k, w₂, subscribed, hw₂, rest⟩ := halternative _ (hreport w₁ e hw₁)
        refine ⟨.alternative k, w₂, ?_, hw₂, rest.relabel Rescue.poll_alternative⟩
        rw [Rescue.poll_accepted call haccepts, Act.bind_of_done subscribed, Rescue.poll_alternative]

/-! ## Runs of a consumer -/

theorem Phase.of_reading_eq_map {κ' : Type} {phase : Phase κ} {g : κ → κ'} {k' : κ'} (h : .reading k' = phase.map g) :
    ∃ k, phase = .reading k ∧ k' = g k := by
  cases phase <;> cases h
  exact ⟨_, rfl, rfl⟩

/-- The first stream, read from some state on, gives elements and then fails. -/
def FailsAfter (primary : Poll σ ρ (Except ε α)) (meanwhile : World σ → World σ → Prop) (p₀ : ρ) (w₀ : World σ)
    (elements : List α) (e : ε) (w : World σ) : Prop :=
  ∃ p w₁ p', Reads primary meanwhile p₀ w₀ (elements.map .ok) (.reading p) w₁ ∧
    primary p w₁ = (.done (some (.error e, p')), w)

namespace Rescue

variable [Fault ε]

/-- What a consumer of a stream with an alternative has, where it stands, and how often the alternative was
subscribed to. -/
inductive Relayed (f : Rescue) (primary : Poll σ ρ (Except ε α)) (alternative : Source σ κ (Except ε α))
    (meanwhile : World σ → World σ → Prop) (p₀ : ρ) (w₀ : World σ) :
    List (Except ε α) → Phase (Rescued ρ κ) → World σ → Nat → Prop where
  /-- Only the first stream was read, and it has not failed. -/
  | primary {elements : List α} {phase : Phase ρ} {w : World σ}
      (reads : Reads primary meanwhile p₀ w₀ (elements.map .ok) phase w) :
      Relayed f primary alternative meanwhile p₀ w₀ (elements.map .ok) (phase.map .primary) w 0
  /-- Its failure was handed out, and nobody is asked any more. -/
  | refused {elements : List α} {e : ε} {w₁ w : World σ} {phase : Phase Unit}
      (fails : FailsAfter primary meanwhile p₀ w₀ elements e w₁) (no : f.accepts e = false)
      (rest : Reads (fun _ => pure none) meanwhile () w₁ ([] : List (Except ε α)) phase w) :
      Relayed f primary alternative meanwhile p₀ w₀ (elements.map .ok ++ [.error e]) (phase.map fun _ => .over) w 0
  /-- After its failure only the alternative was read. -/
  | switched {elements : List α} {e : ε} {w₁ w₂ w : World σ} {k : κ} {answer : List (Except ε α)} {phase : Phase κ}
      (fails : FailsAfter primary meanwhile p₀ w₀ elements e w₁) (yes : f.accepts e = true)
      (call : alternative.subscribe (w₁.report (f.event e)) = (.done k, w₂))
      (rest : Reads alternative.poll meanwhile k w₂ answer phase w) :
      Relayed f primary alternative meanwhile p₀ w₀ (elements.map .ok ++ answer) (phase.map .alternative) w 1
  /-- The alternative does not come. -/
  | unanswered {elements : List α} {e : ε} {w₁ w : World σ} {x : Ended κ} {y : Ended Unit}
      (fails : FailsAfter primary meanwhile p₀ w₀ elements e w₁) (yes : f.accepts e = true)
      (call : alternative.subscribe (w₁.report (f.event e)) = (x, w)) (broke : x.Broke y) :
      Relayed f primary alternative meanwhile p₀ w₀ (elements.map .ok) .broken w 1

section Relayed

variable {f : Rescue} {primary : Poll σ ρ (Except ε α)} {alternative : Source σ κ (Except ε α)}
  {meanwhile : World σ → World σ → Prop} {p₀ : ρ} {w₀ w w' : World σ} {items : List (Except ε α)} {calls : Nat}

theorem Relayed.idle {k : Rescued ρ κ} (h : f.Relayed primary alternative meanwhile p₀ w₀ items (.reading k) w calls)
    (passes : meanwhile w w') : f.Relayed primary alternative meanwhile p₀ w₀ items (.reading k) w' calls := by
  generalize hphase : Phase.reading k = phase at h
  cases h with
  | primary reads =>
    obtain ⟨p, rfl, rfl⟩ := Phase.of_reading_eq_map hphase
    exact .primary (.idle reads passes)
  | refused fails no rest =>
    obtain ⟨_, rfl, rfl⟩ := Phase.of_reading_eq_map hphase
    exact .refused fails no (.idle rest passes)
  | switched fails yes call rest =>
    obtain ⟨k', rfl, rfl⟩ := Phase.of_reading_eq_map hphase
    exact .switched fails yes call (.idle rest passes)
  | unanswered => cases hphase

theorem Relayed.calls_le {phase : Phase (Rescued ρ κ)}
    (h : f.Relayed primary alternative meanwhile p₀ w₀ items phase w calls) : calls ≤ 1 := by
  cases h with
  | primary | refused => exact Nat.zero_le 1
  | switched | unanswered => exact Nat.le_refl 1

/-- A poll that hands out nothing. -/
theorem Relayed.without {phase : Phase (Rescued ρ κ)}
    (h : f.Relayed primary alternative meanwhile p₀ w₀ items phase w calls) :
    f.Relayed primary alternative meanwhile p₀ w₀ (items ++ []) phase w calls := by
  rwa [List.append_nil]

/-- The subscriptions are as many as the work itself counts. -/
theorem Relayed.adds {phase : Phase (Rescued ρ κ)}
    (h : f.Relayed primary alternative meanwhile p₀ w₀ items phase w calls) {count : σ → Nat}
    (hcount : alternative.Counted count) (hprimary : ∀ p, (primary p).Adds count 0)
    (hmeanwhile : ∀ v v', meanwhile v v' → count v'.own = count v.own) : count w.own = count w₀.own + calls := by
  have hfails : ∀ {elements : List α} {e : ε} {w₁ : World σ},
      FailsAfter primary meanwhile p₀ w₀ elements e w₁ → count w₁.own = count w₀.own := by
    rintro elements e w₁ ⟨p, v, p', reads, failure⟩
    rw [(hprimary p).of_eq failure]
    exact reads.adds hprimary hmeanwhile
  cases h with
  | primary reads => exact reads.adds hprimary hmeanwhile
  | refused fails no rest =>
    rw [rest.adds (fun _ => Act.adds_pure none) hmeanwhile]
    exact hfails fails
  | switched fails yes call rest =>
    rw [rest.adds hcount.poll hmeanwhile, hcount.subscribe.of_eq call, ← hfails fails]
    rfl
  | unanswered fails yes call broke =>
    rw [hcount.subscribe.of_eq call, ← hfails fails]
    rfl

/-- What follows the first failure. -/
theorem Relayed.of_failure {elements : List α} {e : ε} {out : Ended (Option (Except ε α × Rescued ρ κ))} {p p' : ρ}
    {w₁ : World σ} (reads : Reads primary meanwhile p₀ w₀ (elements.map .ok) (.reading p) w)
    (failure : primary p w = (.done (some (.error e, p')), w₁))
    (call : f.poll primary alternative (.primary p) w = (out, w')) :
    ∃ calls, f.Relayed primary alternative meanwhile p₀ w₀ (elements.map .ok ++ handed out) (.after out) w' calls := by
  have fails : FailsAfter primary meanwhile p₀ w₀ elements e w₁ := ⟨p, w, p', reads, failure⟩
  cases haccepts : f.accepts e with
  | false =>
    cases (poll_refused failure haccepts).symm.trans call
    exact ⟨0, .refused fails haccepts .start⟩
  | true =>
    rw [poll_accepted failure haccepts] at call
    rcases hsubscribe : alternative.subscribe (w₁.report (f.event e)) with ⟨k | m | _, w₂⟩
    · rw [Act.bind_of_done hsubscribe, relabel_eq] at call
      cases call
      have rest : Reads alternative.poll meanwhile k w₂ _ _ (alternative.poll k w₂).2 := .polled .start rfl
      refine ⟨1, ?_⟩
      rw [handed_relabelled, List.map_id, after_relabelled]
      exact .switched fails haccepts hsubscribe rest
    · cases (Act.bind_of_panicked hsubscribe).symm.trans call
      exact ⟨1, .without (.unanswered fails haccepts hsubscribe (.panicked m))⟩
    · cases (Act.bind_of_abandoned hsubscribe).symm.trans call
      exact ⟨1, .without (.unanswered fails haccepts hsubscribe .abandoned)⟩

/-- One poll more of the first stream. -/
theorem Relayed.of_primary {elements : List α} {out : Ended (Option (Except ε α × Rescued ρ κ))} {p : ρ}
    (reads : Reads primary meanwhile p₀ w₀ (elements.map .ok) (.reading p) w)
    (call : f.poll primary alternative (.primary p) w = (out, w')) :
    ∃ calls, f.Relayed primary alternative meanwhile p₀ w₀ (elements.map .ok ++ handed out) (.after out) w' calls := by
  -- What is no failure is handed on as it is.
  have clean : ∀ (more : List α) {x : Ended (Option (Except ε α × ρ))} {w₁ : World σ}, primary p w = (x, w₁) →
      handed x = more.map .ok → f.poll primary alternative (.primary p) w = (relabelled id .primary x, w₁) →
      ∃ calls, f.Relayed primary alternative meanwhile p₀ w₀ (elements.map .ok ++ handed out) (.after out) w' calls := by
    intro more x w₁ hfirst hmore hpoll
    cases hpoll.symm.trans call
    have hreads : Reads primary meanwhile p₀ w₀ ((elements ++ more).map .ok) (.after x) w' := by
      rw [List.map_append, ← hmore]
      exact .polled reads hfirst
    rw [handed_relabelled, List.map_id, after_relabelled, hmore, ← List.map_append]
    exact ⟨0, .primary hreads⟩
  rcases hfirst : primary p w with ⟨(_ | ⟨e | a, p'⟩) | m | _, w₁⟩
  · exact clean [] hfirst rfl (by rw [poll, hfirst]; rfl)
  · exact Relayed.of_failure reads hfirst call
  · exact clean [a] hfirst rfl (poll_ok hfirst)
  · exact clean [] hfirst rfl (by rw [poll, hfirst]; rfl)
  · exact clean [] hfirst rfl (by rw [poll, hfirst]; rfl)

/-- One poll more. -/
theorem Relayed.polled {k : Rescued ρ κ} (h : f.Relayed primary alternative meanwhile p₀ w₀ items (.reading k) w calls)
    {out : Ended (Option (Except ε α × Rescued ρ κ))} (call : f.poll primary alternative k w = (out, w')) :
    ∃ calls, f.Relayed primary alternative meanwhile p₀ w₀ (items ++ handed out) (.after out) w' calls := by
  generalize hphase : Phase.reading k = phase at h
  cases h with
  | primary reads =>
    obtain ⟨p, rfl, rfl⟩ := Phase.of_reading_eq_map hphase
    exact Relayed.of_primary reads call
  | refused fails no rest =>
    obtain ⟨_, rfl, rfl⟩ := Phase.of_reading_eq_map hphase
    cases (poll_over w).symm.trans call
    exact ⟨0, .without (.refused fails no (.polled rest rfl))⟩
  | switched fails yes call' rest =>
    obtain ⟨k', rfl, rfl⟩ := Phase.of_reading_eq_map hphase
    rw [poll_alternative, relabel_eq] at call
    cases call
    refine ⟨1, ?_⟩
    rw [handed_relabelled, List.map_id, after_relabelled, List.append_assoc]
    exact .switched fails yes call' (.polled rest rfl)
  | unanswered => cases hphase

end Relayed

end Rescue

/-- Every run of a consumer is of this form. -/
theorem Reads.relayed [Fault ε] {f : Rescue} {primary : Poll σ ρ (Except ε α)} {alternative : Source σ κ (Except ε α)}
    {meanwhile : World σ → World σ → Prop} {p₀ : ρ} {w₀ w : World σ} {items : List (Except ε α)}
    {phase : Phase (Rescued ρ κ)} (h : Reads (f.poll primary alternative) meanwhile (.primary p₀) w₀ items phase w) :
    ∃ calls, f.Relayed primary alternative meanwhile p₀ w₀ items phase w calls := by
  induction h with
  | start =>
    have hnothing : Reads primary meanwhile p₀ w₀ (([] : List α).map .ok) (.reading p₀) w₀ := .start
    exact ⟨0, .primary hnothing⟩
  | idle _ passes ih =>
    obtain ⟨calls, hrelayed⟩ := ih
    exact ⟨calls, hrelayed.idle passes⟩
  | polled _ call ih =>
    obtain ⟨calls, hrelayed⟩ := ih
    exact hrelayed.polled call

end CallGuard

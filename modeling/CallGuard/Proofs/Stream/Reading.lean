/-
A consumer that polls a stream from some state on, as often as it likes and at any pace: between two
polls it lets pass what its relation `meanwhile` allows. What the consumer has is the list of items
that were handed out so far, and its phase says whether it can go on.
-/
import CallGuard.Work.Feed

namespace CallGuard

variable {σ κ β : Type}

/-- Where a consumer stands. -/
inductive Phase (κ : Type) where
  /-- The next poll is of this state. -/
  | reading (state : κ)
  /-- The stream has ended. -/
  | ended
  /-- The last poll did not come back. -/
  | broken

/-- Where a poll leaves the consumer. -/
def Phase.after : Ended (Option (β × κ)) → Phase κ
  | .done (some (_, k)) => .reading k
  | .done none => .ended
  | .panicked _ | .abandoned => .broken

/-- What a poll hands out. -/
def handed : Ended (Option (β × κ)) → List β
  | .done (some (b, _)) => [b]
  | _ => []

theorem handed_of_after {out : Ended (Option (β × κ))} (h : Phase.after out = .broken) : handed out = [] := by
  rcases out with (_ | _) | _ | _
  · rfl
  · cases h
  · rfl
  · rfl

/-- The items, the phase and the world that a consumer can come to. -/
inductive Reads (poll : Poll σ κ β) (meanwhile : World σ → World σ → Prop) (k₀ : κ) (w₀ : World σ) :
    List β → Phase κ → World σ → Prop where
  | start : Reads poll meanwhile k₀ w₀ [] (.reading k₀) w₀
  | idle {items : List β} {k : κ} {w w' : World σ} (h : Reads poll meanwhile k₀ w₀ items (.reading k) w)
      (passes : meanwhile w w') : Reads poll meanwhile k₀ w₀ items (.reading k) w'
  | polled {items : List β} {k : κ} {w w' : World σ} {out : Ended (Option (β × κ))}
      (h : Reads poll meanwhile k₀ w₀ items (.reading k) w) (call : poll k w = (out, w')) :
      Reads poll meanwhile k₀ w₀ (items ++ handed out) (.after out) w'

/-! ## Streams that are read relabelled -/

section Relabel

variable {κ' γ : Type}

/-- What a poll gives after its element and its state were changed. -/
def relabelled (f : β → γ) (g : κ → κ') : Ended (Option (β × κ)) → Ended (Option (γ × κ'))
  | .done o => .done (o.map fun p => (f p.1, g p.2))
  | .panicked m => .panicked m
  | .abandoned => .abandoned

theorem relabel_eq (f : β → γ) (g : κ → κ') (x : Act σ (Option (β × κ))) (w : World σ) :
    relabel f g x w = (relabelled f g (x w).1, (x w).2) := by
  show Act.bind x _ w = _
  unfold Act.bind
  rcases x w with ⟨_ | _ | _, w'⟩ <;> rfl

theorem relabelled_eq_some {f : β → γ} {g : κ → κ'} {x : Ended (Option (β × κ))} {c : γ} {k' : κ'}
    (h : relabelled f g x = .done (some (c, k'))) : ∃ b k, x = .done (some (b, k)) ∧ f b = c ∧ g k = k' := by
  rcases x with (_ | ⟨b, k⟩) | _ | _ <;> cases h
  exact ⟨b, k, rfl, rfl, rfl⟩

theorem relabelled_eq_none {f : β → γ} {g : κ → κ'} {x : Ended (Option (β × κ))}
    (h : relabelled f g x = .done none) : x = .done none := by
  rcases x with (_ | _) | _ | _ <;> cases h
  rfl

theorem relabel_relabel {κ'' γ' : Type} (f : β → γ) (g : κ → κ') (f' : γ → γ') (g' : κ' → κ'')
    (x : Act σ (Option (β × κ))) : relabel f' g' (relabel f g x) = relabel (f' ∘ f) (g' ∘ g) x := by
  funext w
  rw [relabel_eq, relabel_eq, relabel_eq]
  rcases (x w).1 with (_ | _) | _ | _ <;> rfl

/-- The phase over other states. -/
def Phase.map (g : κ → κ') : Phase κ → Phase κ'
  | .reading k => .reading (g k)
  | .ended => .ended
  | .broken => .broken

theorem handed_relabelled (f : β → γ) (g : κ → κ') (x : Ended (Option (β × κ))) :
    handed (relabelled f g x) = (handed x).map f := by
  rcases x with (_ | _) | _ | _ <;> rfl

theorem after_relabelled (f : β → γ) (g : κ → κ') (x : Ended (Option (β × κ))) :
    Phase.after (relabelled f g x) = (Phase.after x).map g := by
  rcases x with (_ | _) | _ | _ <;> rfl

/-- Who reads a relabelled stream reads the stream below it. -/
theorem Reads.of_relabel {poll : Poll σ κ β} {poll' : Poll σ κ' γ} {f : β → γ} {g : κ → κ'}
    (hg : ∀ k, poll' (g k) = relabel f g (poll k)) {meanwhile : World σ → World σ → Prop} {k₀ : κ}
    {w₀ w : World σ} {items' : List γ} {phase' : Phase κ'} (h : Reads poll' meanwhile (g k₀) w₀ items' phase' w) :
    ∃ items phase, Reads poll meanwhile k₀ w₀ items phase w ∧ items' = items.map f ∧ phase' = phase.map g := by
  induction h with
  | start => exact ⟨[], .reading k₀, .start, rfl, rfl⟩
  | idle _ passes ih =>
    obtain ⟨items, phase, hr, rfl, hphase⟩ := ih
    cases phase <;> cases hphase
    exact ⟨items, _, .idle hr passes, rfl, rfl⟩
  | polled _ call ih =>
    obtain ⟨items, phase, hr, rfl, hphase⟩ := ih
    cases phase <;> cases hphase
    rename_i k
    rw [hg, relabel_eq] at call
    cases call
    exact ⟨_, _, .polled hr rfl, by rw [handed_relabelled, List.map_append], after_relabelled ..⟩

/-- Who reads a stream reads the relabelled stream as well. -/
theorem Reads.relabel {poll : Poll σ κ β} {poll' : Poll σ κ' γ} {f : β → γ} {g : κ → κ'}
    (hg : ∀ k, poll' (g k) = CallGuard.relabel f g (poll k)) {meanwhile : World σ → World σ → Prop} {k₀ : κ}
    {w₀ w : World σ} {items : List β} {phase : Phase κ} (h : Reads poll meanwhile k₀ w₀ items phase w) :
    Reads poll' meanwhile (g k₀) w₀ (items.map f) (phase.map g) w := by
  induction h with
  | start => exact .start
  | idle _ passes ih => exact .idle ih passes
  | @polled items k w w' out _ call ih =>
    have hpoll : poll' (g k) w = (relabelled f g out, w') := by rw [hg, relabel_eq, call]
    rw [List.map_append, ← handed_relabelled f g, ← after_relabelled f g]
    exact .polled ih hpoll

end Relabel

/-! ## Feeds -/

/-- The producers of a feed. -/
def Feed.source {ε α : Type} (f : Feed ε α) (cell : Cell σ FeedTally) : Source σ (List (Call ε α)) (Except ε α) where
  subscribe := f.subscribe cell
  poll := Feed.poll cell

end CallGuard

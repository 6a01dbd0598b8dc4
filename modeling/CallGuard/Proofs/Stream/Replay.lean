/-
Retried streams over producers that replay one sequence, each of them as far as it gets: the consumer
receives a prefix of the sequence, element by element, as long as what the best subscription gave, and a
stream that ends by itself has given the whole sequence (`Replays.deliversOnce`).

A producer is followed by the number of elements that it gave (`Replays`). Merging prefixes of one
sequence gives the longest of them (`Prefix.merged`, `length_merged`).
-/
import CallGuard.Proofs.Stream.Delivery
import Mathlib.Data.List.Induction
import Mathlib.Data.Seq.Defs

namespace CallGuard

variable {σ ρ ε δ α β γ κ : Type}

/-! ## Prefixes -/

/-- A list starts a sequence that may go on for ever. -/
def Prefix (xs : Stream'.Seq α) (l : List α) : Prop := ∀ j (h : j < l.length), xs.get? j = some l[j]

theorem Prefix.concat {xs : Stream'.Seq α} {l : List α} {a : α} (h : Prefix xs l) (ha : xs.get? l.length = some a) :
    Prefix xs (l ++ [a]) := by
  intro j hj
  rcases Nat.lt_or_eq_of_le (Nat.le_of_lt_succ (by simpa using hj)) with hlt | rfl
  · rw [List.getElem_append_left hlt]; exact h j hlt
  · rw [List.getElem_concat_length rfl]; exact ha

theorem Prefix.append_drop {xs : Stream'.Seq α} {l m : List α} (hl : Prefix xs l) (hm : Prefix xs m) :
    Prefix xs (l ++ m.drop l.length) := by
  intro j hj
  rcases Nat.lt_or_ge j l.length with hlt | hge
  · rw [List.getElem_append_left hlt]; exact hl j hlt
  · have hjm : j < m.length := by
      rw [List.length_append, List.length_drop] at hj; omega
    rw [List.getElem_append_right hge, List.getElem_drop, hm j hjm]
    congr 2; omega

/-- Merging prefixes of a sequence gives a prefix. -/
theorem Prefix.merged {xs : Stream'.Seq α} {subs : List (List α)} (h : ∀ els ∈ subs, Prefix xs els) :
    Prefix xs (merged subs) := by
  induction subs using List.reverseRecOn with
  | nil => intro j hj; cases hj
  | append_singleton subs els ih =>
    rw [merged_concat]
    exact (ih fun m hm => h m (List.mem_append_left _ hm)).append_drop (h els (by simp))

/-- The length of the longest list. -/
def longest (subs : List (List α)) : Nat := (subs.map List.length).foldl max 0

theorem length_merged (subs : List (List α)) : (merged subs).length = longest subs := by
  induction subs using List.reverseRecOn with
  | nil => rfl
  | append_singleton subs els ih =>
    rw [length_merged_concat, ih, longest, longest, List.map_append, List.foldl_append]; rfl

/-- The elements among items. -/
def elements (items : List (Except δ α)) : List α := items.filterMap Except.toOption

@[simp] theorem elements_append (items items' : List (Except δ α)) :
    elements (items ++ items') = elements items ++ elements items' := List.filterMap_append

@[simp] theorem elements_ok (l : List α) : elements (l.map (.ok : α → Except δ α)) = l := by
  induction l with
  | nil => rfl
  | cons a l ih => rw [List.map_cons, elements, List.filterMap_cons]; exact congrArg _ ih

@[simp] theorem elements_error (l : List δ) : elements (l.map (.error : δ → Except δ α)) = [] := by
  induction l with
  | nil => rfl
  | cons e l ih => exact ih

@[simp] theorem elements_mapError (f : ε → δ) (items : List (Except ε α)) :
    elements (items.map (mapError f)) = elements items := by
  rw [elements, List.filterMap_map, elements]
  congr 1
  funext x
  cases x <;> rfl

/-! ## Producers that replay -/

/-- Every producer of a source replays a sequence from the start, as far as it gets. A producer in some
state has given so many elements of it. -/
structure Replays (source : Source σ ρ (Except ε α)) (meanwhile : σ → σ → Prop) (xs : Stream'.Seq α)
    (given : σ → ρ → Nat → Prop) : Prop where
  subscribe : ∀ {w w' : World σ} {p : ρ}, source.subscribe w = (.done p, w') → given w'.own p 0
  element : ∀ {w w' : World σ} {p p' : ρ} {n : Nat} {a : α}, given w.own p n →
    source.poll p w = (.done (some (.ok a, p')), w') → xs.get? n = some a ∧ given w'.own p' (n + 1)
  ended : ∀ {w w' : World σ} {p : ρ} {n : Nat}, given w.own p n → source.poll p w = (.done none, w') →
    xs.get? n = none
  idle : ∀ {s s' : σ} {p : ρ} {n : Nat}, given s p n → meanwhile s s' → given s' p n

/-! ## The invariant -/

section Invariant

variable {xs : Stream'.Seq α} {given : σ → ρ → Nat → Prop} {l l' : Ledger ε α} {w w' : World σ}

/-- All subscriptions gave prefixes of the sequence. -/
def Prefixes (xs : Stream'.Seq α) (l : Ledger ε α) : Prop := ∀ els ∈ l.subscriptions, Prefix xs els

/-- The current producer of a stream stands where its subscription does. -/
inductive InPlace (given : σ → ρ → Nat → Prop) (l : Ledger ε α) (w : World σ) : Subscription ρ ε → Prop where
  | waiting {s : Progress ε} (current : l.current = none) : InPlace given l w (.waiting s)
  | live {p : ρ} {k : Nat} {s : Progress ε} {els : List α} (current : l.current = some els)
      (place : given w.own p els.length) : InPlace given l w (.live p k s)
  | finished (current : l.current = none) : InPlace given l w .finished

/-- Where a run stands with respect to a sequence. -/
inductive Reached (xs : Stream'.Seq α) (given : σ → ρ → Nat → Prop) (l : Ledger ε α) (w : World σ) :
    Phase (Subscription ρ ε) → Prop where
  | reading {st : Subscription ρ ε} (placed : InPlace given l w st) : Reached xs given l w (.reading st)
  | ended (whole : ∀ els, l.current = some els → xs.get? els.length = none) : Reached xs given l w .ended
  | broken : Reached xs given l w .broken

theorem Prefixes.subscribe (h : Prefixes xs l) (hn : l.current = none) : Prefixes xs l.subscribe := by
  intro els hels
  rw [Ledger.subscriptions_of_some rfl, List.mem_append] at hels
  rcases hels with hels | hels
  · exact h els (by rw [Ledger.subscriptions_of_none hn]; exact hels)
  · rw [List.mem_singleton.1 hels]; nofun

theorem Prefixes.element {els : List α} {a : α} (h : Prefixes xs l) (hc : l.current = some els)
    (ha : xs.get? els.length = some a) : Prefixes xs (l.element a) := by
  intro m hm
  rw [Ledger.subscriptions_of_some (Ledger.current_element hc a), List.mem_append] at hm
  have hsubs := Ledger.subscriptions_of_some hc
  rcases hm with hm | hm
  · exact h m (by rw [hsubs]; exact List.mem_append_left _ hm)
  · rw [List.mem_singleton.1 hm]
    exact (h els (by rw [hsubs]; simp)).concat ha

theorem Prefixes.fail {els : List α} (h : Prefixes xs l) (hc : l.current = some els) (e : ε) :
    Prefixes xs (l.fail e) := by
  rw [Prefixes, Ledger.subscriptions_fail hc]; exact h

theorem Ended.Broke.reached {x : Ended β} {y : Ended (Option (γ × Subscription ρ ε))} (h : x.Broke y) :
    Reached xs given l w (.after y) := by
  rw [h.after]; exact .broken

variable [Fault ε]

/-- One poll of a stream over producers that replay. -/
theorem Polled.reached {r : RetryLoop} {source : Source σ ρ (Except ε α)} {meanwhile : σ → σ → Prop}
    (hs : Replays source meanwhile xs given) {st : Subscription ρ ε}
    {out : Ended (Option (Except (RetryError ε) α × Subscription ρ ε)) × World σ}
    (h : Polled r source st w l out l') (hx : Prefixes xs l) (hp : InPlace given l w st) :
    Prefixes xs l' ∧ Reached xs given l' out.2 (.after out.1) := by
  induction h with
  | finished =>
    cases hp with
    | finished current => exact ⟨hx, .ended fun els he => absurd (he.symm.trans current) nofun⟩
  | subscribe call rest ih =>
    cases hp with
    | waiting current => exact ih (hx.subscribe current) (.live rfl (hs.subscribe call))
  | skip call rest ih =>
    cases hp with
    | live current place =>
      obtain ⟨ha, place'⟩ := hs.element place call
      exact ih (hx.element current ha) (.live (Ledger.current_element current _) (by simpa using place'))
  | deliver call =>
    cases hp with
    | live current place =>
      obtain ⟨ha, place'⟩ := hs.element place call
      exact ⟨hx.element current ha, .reading (.live (Ledger.current_element current _) (by simpa using place'))⟩
  | retry call yes wait sleep rest ih =>
    cases hp with
    | live current place => exact ih (hx.fail current _) (.waiting rfl)
  | reject call no =>
    cases hp with
    | live current place => exact ⟨hx.fail current _, .reading (.finished rfl)⟩
  | exhaust call yes spent =>
    cases hp with
    | live current place => exact ⟨hx.fail current _, .reading (.finished rfl)⟩
  | ended call =>
    cases hp with
    | live current place =>
      refine ⟨hx, .ended fun els he => ?_⟩
      cases current.symm.trans he
      exact hs.ended place call
  | unsubscribed call broke => exact ⟨hx, broke.reached⟩
  | unanswered call broke => exact ⟨hx, broke.reached⟩
  | unslept call yes wait sleep broke =>
    cases hp with
    | live current place => exact ⟨hx.fail current _, broke.reached⟩

/-- A whole run of a stream over producers that replay. -/
theorem Account.reached {r : RetryLoop} {source : Source σ ρ (Except ε α)} {meanwhile : σ → σ → Prop}
    (hs : Replays source meanwhile xs given) {now : Nat} {w₀ : World σ} {items : List (Except (RetryError ε) α)}
    {phase : Phase (Subscription ρ ε)}
    (h : Account r source (fun w w' => meanwhile w.own w'.own) (.fresh now) w₀ l items phase w) :
    Prefixes xs l ∧ Reached xs given l w phase := by
  induction h with
  | start => exact ⟨nofun, .reading (.waiting rfl)⟩
  | idle _ passes ih =>
    obtain ⟨hx, hr⟩ := ih
    refine ⟨hx, ?_⟩
    cases hr with
    | reading placed =>
      refine .reading ?_
      cases placed with
      | waiting current => exact .waiting current
      | live current place => exact .live current (hs.idle place passes)
      | finished current => exact .finished current
  | polled _ poll ih =>
    obtain ⟨hx, hr⟩ := ih
    cases hr with
    | reading placed => exact poll.reached hs hx placed

end Invariant

/-! ## Exactly once -/

/-- The items are a prefix of a sequence, item by item, as long as what the best subscription gave; a
stream that ended without an error has given all of it. -/
structure ExactlyOnce (xs : Stream'.Seq α) (subscriptions : List (List α)) (items : List (Except δ α))
    (phase : Phase κ) : Prop where
  inOrder : Prefix xs (elements items)
  longest : (elements items).length = longest subscriptions
  whole : phase = .ended → (∀ e, .error e ∉ items) → xs.get? (elements items).length = none

/-- Whatever a consumer does, a retried stream gives it a sequence exactly once. -/
def DeliversOnce [Fault ε] (r : RetryLoop) (source : Source σ ρ (Except ε α)) (meanwhile : World σ → World σ → Prop)
    (xs : Stream'.Seq α) : Prop :=
  ∀ (now : Nat) (w₀ : World σ) (items : List (Except (RetryError ε) α)) (phase : Phase (Subscription ρ ε))
    (w : World σ), Reads (r.poll source) meanwhile (.fresh now) w₀ items phase w →
    ∃ l, Account r source meanwhile (.fresh now) w₀ l items phase w ∧ ExactlyOnce xs l.subscriptions items phase

theorem Replays.deliversOnce [Fault ε] {source : Source σ ρ (Except ε α)} {meanwhile : σ → σ → Prop}
    {xs : Stream'.Seq α} {given : σ → ρ → Nat → Prop} (hs : Replays source meanwhile xs given) (r : RetryLoop) :
    DeliversOnce r source (fun w w' => meanwhile w.own w'.own) xs := by
  intro now w₀ items phase w h
  obtain ⟨l, ha⟩ := h.account
  obtain ⟨x, hitems, hsettles⟩ := ha.settles
  obtain ⟨hx, hreached⟩ := ha.reached hs
  have helements : elements items = l.received := by
    rw [hitems, elements_append, elements_ok, elements_error, List.append_nil]
  refine ⟨l, ha, ?_, ?_, ?_⟩
  · rw [helements]; exact Prefix.merged hx
  · rw [helements]; exact length_merged _
  · rintro rfl hno
    cases hsettles with
    | @closed x standing current => exact absurd (by rw [hitems]; simp) (hno x)
    | @ended els standing current call =>
      -- The last subscription ended where the sequence does, and nothing was received past that.
      cases hreached with
      | ended whole =>
        have hnone := whole els current
        have hle : els.length ≤ l.received.length := by
          rw [Ledger.received, Ledger.subscriptions_of_some current, length_merged_concat]
          exact Nat.le_max_right _ _
        have hge : ¬ els.length < l.received.length := fun hlt => by
          have := Prefix.merged hx els.length hlt
          rw [hnone] at this
          cases this
        rw [helements, Nat.le_antisymm (Nat.le_of_not_lt hge) hle]
        exact hnone

end CallGuard

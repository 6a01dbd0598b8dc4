/-
Where a retried stream stands in its current producer. At every moment of a run, between two polls or in the middle of
one (`Traverses`), the elements that the producer has given and those that are still to be skipped are together as many
as the consumer has (`Positioned`). So an element is handed out exactly if its place in the producer is the next one of
the consumer, whatever the subscriptions before gave (`RetryLoop.position_kept`).

The induction is on the moves of a run. A subscription begins at the front with everything to skip; a skipped element
counts as given and no longer as one to skip; one that is handed out raises both sides. A failure leaves no producer,
and what the consumer has stays as it is.
-/
import CallGuard.Proofs.Stream.Replay
import CallGuard.Proofs.Stream.Tale

namespace CallGuard

variable {σ ρ ε α : Type}

/-! ## The current producer -/

namespace Turn

/-- The turns since the last subscription. -/
def current (ts : List (Turn ε α)) : List (Turn ε α) :=
  ts.foldl (fun since turn => match turn with
    | subscribed _ => []
    | _ => since ++ [turn]) []

/-- An element comes out of the producer. -/
def pulls : Turn ε α → Bool
  | skipped _ | handed _ => true
  | subscribed _ | retried .. => false

/-- How many elements the current producer has given. -/
def position (ts : List (Turn ε α)) : Nat := (current ts).countP pulls

theorem current_subscribed (ts : List (Turn ε α)) (idle : Duration) : current (ts ++ [subscribed idle]) = [] := by
  rw [current, List.foldl_append]; rfl

theorem current_skipped (ts : List (Turn ε α)) (a : α) : current (ts ++ [skipped a]) = current ts ++ [skipped a] := by
  rw [current, List.foldl_append]; rfl

theorem current_handed (ts : List (Turn ε α)) (a : α) : current (ts ++ [handed a]) = current ts ++ [handed a] := by
  rw [current, List.foldl_append]; rfl

theorem position_subscribed (ts : List (Turn ε α)) (idle : Duration) : position (ts ++ [subscribed idle]) = 0 := by
  rw [position, current_subscribed]; rfl

theorem position_skipped (ts : List (Turn ε α)) (a : α) : position (ts ++ [skipped a]) = position ts + 1 := by
  rw [position, current_skipped, List.countP_append]; rfl

theorem position_handed (ts : List (Turn ε α)) (a : α) : position (ts ++ [handed a]) = position ts + 1 := by
  rw [position, current_handed, List.countP_append]; rfl

end Turn

/-! ## The invariant -/

/-- A live producer after some turns, with a number of elements to skip, when the consumer has some items. -/
structure Positioned (turns : List (Turn ε α)) (items : List (Except (RetryError ε) α)) (skip : Nat) (s : Progress ε) :
    Prop where
  /-- What is to be skipped is what the producer lacks to what the consumer has. -/
  balance : Turn.position turns + skip = (elements items).length
  delivered : s.delivered = (elements items).length
  /-- Once the producer has had an element handed out, there is nothing to skip. -/
  caughtUp : ∀ a, .handed a ∈ Turn.current turns → skip = 0

/-- The state of a stream agrees with what the consumer has. -/
def Subscription.Positioned (turns : List (Turn ε α)) (items : List (Except (RetryError ε) α)) :
    Subscription ρ ε → Prop
  | .waiting s => s.delivered = (elements items).length
  | .live _ skip s => CallGuard.Positioned turns items skip s
  | .finished => True

variable {turns : List (Turn ε α)} {items : List (Except (RetryError ε) α)} {s : Progress ε} {k : Nat}

/-- A new producer is at its front, and everything that the consumer has is to be skipped. -/
theorem Positioned.subscribe (h : s.delivered = (elements items).length) (now : Nat) (idle : Duration) :
    Positioned (turns ++ [.subscribed idle]) items s.delivered (s.beginAttempt now) where
  balance := by rw [Turn.position_subscribed, h, Nat.zero_add]
  delivered := h
  caughtUp := by
    rw [Turn.current_subscribed]
    nofun

theorem Positioned.skip (h : Positioned turns items (k + 1) s) (a : α) :
    Positioned (turns ++ [.skipped a]) items k s where
  balance := by
    have hbalance := h.balance
    rw [Turn.position_skipped]
    omega
  delivered := h.delivered
  caughtUp := by
    intro b hb
    rw [Turn.current_skipped, List.mem_append, List.mem_singleton] at hb
    rcases hb with hb | hb
    · exact absurd (h.caughtUp b hb) (Nat.succ_ne_zero k)
    · cases hb

theorem Positioned.deliver (h : Positioned turns items 0 s) (a : α) (now : Nat) :
    Positioned (turns ++ [.handed a]) (items ++ [.ok a]) 0 (s.deliver now) := by
  have hlength : (elements (items ++ [.ok a])).length = (elements items).length + 1 := by
    rw [elements_append, List.length_append]; rfl
  refine ⟨?_, ?_, fun _ _ => rfl⟩
  · rw [Turn.position_handed, hlength, ← h.balance]
  · rw [hlength, ← h.delivered]; rfl

/-- A failure takes nothing from the consumer. -/
theorem Positioned.record (h : Positioned turns items k s) (now : Nat) (e : ε) (d : Duration) :
    (s.record now e d).delivered = (elements items).length :=
  h.delivered

/-! ## Runs -/

variable [Fault ε] {r : RetryLoop} {source : Source σ ρ (Except ε α)} {meanwhile : World σ → World σ → Prop}
  {st st' k₀ : Subscription ρ ε} {w w' w₀ : World σ}

/-- The states that a consumer's run passes through, in the middle of polls as well, with the turns and the items so
far. A poll may be left lying at any move and taken up again later. -/
inductive Traverses (r : RetryLoop) (source : Source σ ρ (Except ε α)) (meanwhile : World σ → World σ → Prop)
    (k₀ : Subscription ρ ε) (w₀ : World σ) :
    List (Turn ε α) → List (Except (RetryError ε) α) → Subscription ρ ε → World σ → Prop where
  | start : Traverses r source meanwhile k₀ w₀ [] [] k₀ w₀
  | idle {turns : List (Turn ε α)} {items : List (Except (RetryError ε) α)} {st : Subscription ρ ε} {w w' : World σ}
      (h : Traverses r source meanwhile k₀ w₀ turns items st w) (passes : meanwhile w w') :
      Traverses r source meanwhile k₀ w₀ turns items st w'
  | moves {turns : List (Turn ε α)} {items : List (Except (RetryError ε) α)} {turn : Turn ε α}
      {st st' : Subscription ρ ε} {w w' : World σ} (h : Traverses r source meanwhile k₀ w₀ turns items st w)
      (move : Moves r source st w turn st' w') :
      Traverses r source meanwhile k₀ w₀ (turns ++ [turn]) items st' w'
  /-- A poll comes back with an item. -/
  | hands {turns : List (Turn ε α)} {items : List (Except (RetryError ε) α)} {tale : Tale ε α}
      {item : Except (RetryError ε) α} {st st' : Subscription ρ ε} {w w' : World σ}
      (h : Traverses r source meanwhile k₀ w₀ turns items st w)
      (halt : Halts r source st w tale (.done (some (item, st'))) w') :
      Traverses r source meanwhile k₀ w₀ (turns ++ tale.turns) (items ++ [item]) st' w'

theorem Moves.positioned {turn : Turn ε α} (h : Moves r source st w turn st' w') (hst : st.Positioned turns items) :
    st'.Positioned (turns ++ [turn]) items := by
  cases h with
  | subscribe call => exact Positioned.subscribe hst w.now _
  | skip call => exact Positioned.skip hst _
  | retry call decision sleep =>
    obtain ⟨-, -, rfl⟩ := Progress.of_decision_retry r.valid decision
    exact Positioned.record hst _ _ _

theorem Halts.positioned {tale : Tale ε α} {item : Except (RetryError ε) α}
    (h : Halts r source st w tale (.done (some (item, st'))) w') (hst : st.Positioned turns items) :
    st'.Positioned (turns ++ tale.turns) (items ++ [item]) := by
  cases h with
  | deliver call => exact Positioned.deliver hst _ w'.now
  | giveUp call decision => trivial
  | unsubscribed call broke | unanswered call broke | unslept call decision sleep broke => cases broke

theorem Traverses.positioned (h : Traverses r source meanwhile k₀ w₀ turns items st w)
    (hk : k₀.Positioned ([] : List (Turn ε α)) ([] : List (Except (RetryError ε) α))) : st.Positioned turns items := by
  induction h with
  | start => exact hk
  | idle h passes ih => exact ih
  | moves h move ih => exact move.positioned ih
  | hands h halt ih => exact halt.positioned ih

/-! ## Moves and polls -/

/-- A poll goes on after a move as if it had begun there. -/
theorem Moves.poll_eq {turn : Turn ε α} (h : Moves r source st w turn st' w') :
    r.poll source st w = r.poll source st' w' := by
  cases h with
  | subscribe call => rw [poll_waiting, call]
  | skip call => rw [RetryLoop.poll, call]
  | retry call decision sleep => rw [poll_retry call decision, sleep]

theorem Traverses.polled {tale : Tale ε α} {item : Except (RetryError ε) α}
    {out : Ended (Option (Except (RetryError ε) α × Subscription ρ ε))} (poll : PollTrail r source st w tale out w')
    (hout : out = .done (some (item, st'))) (h : Traverses r source meanwhile k₀ w₀ turns items st w) :
    Traverses r source meanwhile k₀ w₀ (turns ++ tale.turns) (items ++ [item]) st' w' := by
  -- The turns before a move differ from move to move.
  induction poll generalizing turns with
  | halt last => exact h.hands (hout ▸ last)
  | @go st st₁ w w₁ w' turn tale out first rest ih =>
    have hrest := ih hout (h.moves first)
    rwa [List.append_assoc] at hrest

/-- A consumer that waits for each of its polls passes through states of this kind. -/
theorem Reads.traverses {phase : Phase (Subscription ρ ε)} (h : Reads (r.poll source) meanwhile k₀ w₀ items phase w)
    (hphase : phase = .reading st) : ∃ turns, Traverses r source meanwhile k₀ w₀ turns items st w := by
  induction h generalizing st with
  | start =>
    cases hphase
    exact ⟨[], .start⟩
  | idle h passes ih =>
    obtain ⟨turns, hturns⟩ := ih hphase
    exact ⟨turns, hturns.idle passes⟩
  | @polled items k w w' out h call ih =>
    obtain ⟨turns, hturns⟩ := ih rfl
    obtain ⟨l, hl⟩ := polled_poll r source k w {}
    rw [call] at hl
    obtain ⟨tale, htale⟩ := hl.trail
    rcases out with (_ | ⟨item, k'⟩) | m | _ <;> cases hphase
    exact ⟨_, hturns.polled htale rfl⟩

/-- What a stream makes of the next element of its producer: the consumer gets it if its place is the next one of the
consumer, and otherwise its place is an earlier one and there is one less to skip. -/
theorem Positioned.next (h : Positioned turns items k s) {p p' : ρ} {a : α}
    (call : source.poll p w = (.done (some (.ok a, p')), w')) :
    (Turn.position turns = (elements items).length ∧ k = 0 ∧
      r.poll source (.live p k s) w = (.done (some (.ok a, .live p' 0 (s.deliver w'.now))), w')) ∨
    (Turn.position turns < (elements items).length ∧ ∃ j, k = j + 1 ∧
      r.poll source (.live p k s) w = r.poll source (.live p' j s) w') := by
  have hbalance := h.balance
  cases k with
  | zero => exact .inl ⟨hbalance, rfl, by rw [RetryLoop.poll, call]⟩
  | succ j => exact .inr ⟨by omega, j, rfl, by rw [RetryLoop.poll, call]⟩

/-- In every state with a live producer that a retried stream comes to, the producer has given as many elements as the
consumer has, less those that are still to be skipped, and none are once it had one handed out. So the next element is
handed out exactly if its place in the producer is the next one of the consumer. These are all states: those between the
polls of a consumer, and those that a poll goes through by its moves. -/
theorem RetryLoop.position_kept (r : RetryLoop) (source : Source σ ρ (Except ε α))
    (meanwhile : World σ → World σ → Prop) (created : Nat) (w₀ : World σ) :
    (∀ turns items p skip s w, Traverses r source meanwhile (.fresh created) w₀ turns items (.live p skip s) w →
      Positioned turns items skip s ∧
      ∀ a p' w', source.poll p w = (.done (some (.ok a, p')), w') →
        (Turn.position turns = (elements items).length ∧ skip = 0 ∧
          r.poll source (.live p skip s) w = (.done (some (.ok a, .live p' 0 (s.deliver w'.now))), w')) ∨
        (Turn.position turns < (elements items).length ∧ ∃ j, skip = j + 1 ∧
          r.poll source (.live p skip s) w = r.poll source (.live p' j s) w')) ∧
    (∀ items st w, Reads (r.poll source) meanwhile (.fresh created) w₀ items (.reading st) w →
      ∃ turns, Traverses r source meanwhile (.fresh created) w₀ turns items st w) ∧
    (∀ st w, ∃ tale, PollTrail r source st w tale (r.poll source st w).1 (r.poll source st w).2) ∧
    ∀ st w turn st' w', Moves r source st w turn st' w' → r.poll source st w = r.poll source st' w' := by
  refine ⟨fun turns items p skip s w h => ?_, fun items st w h => h.traverses rfl, fun st w => ?_,
    fun st w turn st' w' h => h.poll_eq⟩
  · have hpositioned : Positioned turns items skip s := h.positioned rfl
    exact ⟨hpositioned, fun a p' w' call => hpositioned.next call⟩
  · obtain ⟨l, hl⟩ := polled_poll r source st w {}
    exact hl.trail

/-- In the middle of its second poll a stream has subscribed anew, to a producer that does not repeat the first one. It
is at the front with one element to skip, and skips it. -/
theorem RetryLoop.position_failingOnce : ∃ (turns : List (Turn TestError Nat)) (p p' : List (Call TestError Nat))
    (s : Progress TestError) (w w' : World FeedTally),
    Traverses .briefly ((failingOnce 7).source .whole) Eq (.fresh 0) { own := {} } turns [.ok 1] (.live p 1 s) w ∧
    Positioned turns ([.ok 1] : List (Except (RetryError TestError) Nat)) 1 s ∧ Turn.position turns = 0 ∧
    RetryLoop.briefly.poll ((failingOnce 7).source .whole) (.live p 1 s) w =
      RetryLoop.briefly.poll ((failingOnce 7).source .whole) (.live p' 0 s) w' := by
  let source : Source FeedTally (List (Call TestError Nat)) (Except TestError Nat) := (failingOnce 7).source .whole
  let first : World FeedTally := { own := { subscribed := 1, produced := 1 } }
  have hsubscribe : Moves RetryLoop.briefly source (.fresh 0) { own := {} } (.subscribed (.ofMillis 0))
      (.live [{ ending := .value 1 }, { ending := .failure (.transient "a") }] 0 (.start 0))
      { own := { subscribed := 1 } } := .subscribe rfl
  have hdeliver : Halts RetryLoop.briefly source
      (.live [{ ending := .value 1 }, { ending := .failure (.transient "a") }] 0 (.start 0))
      { own := { subscribed := 1 } } ⟨[.handed 1], none⟩
      (.done (some (.ok 1, .live [{ ending := .failure (.transient "a") }] 0 ((Progress.start 0).deliver first.now))))
      first := .deliver rfl
  have hretry : Moves RetryLoop.briefly source
      (.live [{ ending := .failure (.transient "a") }] 0 ((Progress.start 0).deliver first.now)) first _ _ _ :=
    .retry rfl rfl rfl
  have hstart : Traverses RetryLoop.briefly source Eq (.fresh 0) { own := {} } [] [] _ _ := .start
  have hsecond := (((hstart.moves hsubscribe).hands hdeliver).moves hretry).moves (.subscribe rfl)
  obtain ⟨hpositioned, hnext⟩ := (RetryLoop.position_kept RetryLoop.briefly ((failingOnce 7).source .whole) Eq 0
    { own := {} }).1 _ _ _ _ _ _ hsecond
  obtain ⟨-, hskip, -⟩ | ⟨hbefore, j, hj, hpoll⟩ := hnext 7 _ _ rfl
  · cases hskip
  · change 1 = j + 1 at hj
    obtain rfl : j = 0 := by omega
    exact ⟨_, _, _, _, _, _, hsecond, hpositioned, rfl, hpoll⟩

end CallGuard

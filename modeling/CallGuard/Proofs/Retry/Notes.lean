/-
What the bookkeeping of a retried call or stream holds. It is told when an attempt begins, when an element reaches the
consumer and when an attempt fails, in any order and any number of times (`Note`). Until it first gives up, its attempts
are the failures that were noted, numbered from one, and fewer than the policy allows; the last wait is the one of the
last decision to retry; and the elements are counted through all failures (`Progress.Records`).

The invariant is proved for the notes as such and not for the notes that a particular run makes
(`Progress.Noted.records`). What calls and streams give up with comes from such bookkeeping (`GivenUp`), so its history
is that of all attempts and never empty.
-/
import Mathlib.Data.List.Induction
import CallGuard.Proofs.Retry.Scripted
import CallGuard.Proofs.Stream.Tale

namespace CallGuard

variable {σ ρ ε α : Type}

/-! ## Notes -/

/-- What the bookkeeping is told. -/
inductive Note (ε : Type) where
  /-- An attempt begins. -/
  | begun (now : Nat)
  /-- An element reaches the consumer. -/
  | delivered (now : Nat)
  /-- An attempt fails. The dice are for the wait after it. -/
  | failed (dice : Nat → Dice) (now : Nat) (error : ε)

namespace Note

def error? : Note ε → Option ε
  | failed _ _ e => some e
  | _ => none

def errors (notes : List (Note ε)) : List ε := notes.filterMap error?

def isDelivered : Note ε → Bool
  | delivered _ => true
  | _ => false

def deliveries (notes : List (Note ε)) : Nat := notes.countP isDelivered

/-- When the last attempt began. -/
def lastBegun (start : Nat) : List (Note ε) → Nat
  | [] => start
  | begun now :: rest => lastBegun now rest
  | _ :: rest => lastBegun start rest

/-- The attempts that failed, from the `k`-th on, which began at the start. -/
def history (start k : Nat) : List (Note ε) → List (Attempt ε)
  | [] => []
  | begun now :: rest => history now k rest
  | delivered _ :: rest => history start k rest
  | failed _ now e :: rest => ⟨k, e, elapsed start now⟩ :: history start (k + 1) rest

theorem lastBegun_append (start : Nat) (notes more : List (Note ε)) :
    lastBegun start (notes ++ more) = lastBegun (lastBegun start notes) more := by
  induction notes generalizing start with
  | nil => rfl
  | cons note rest ih => cases note <;> exact ih _

theorem history_append (start k : Nat) (notes more : List (Note ε)) : history start k (notes ++ more) =
    history start k notes ++ history (lastBegun start notes) (k + (errors notes).length) more := by
  induction notes generalizing start k with
  | nil => rfl
  | cons note rest ih =>
    cases note with
    | begun now => exact ih now k
    | delivered now => exact ih start k
    | failed dice now e =>
      have hlength : (errors (failed dice now e :: rest)).length = (errors rest).length + 1 := rfl
      rw [List.cons_append, history, ih, history, hlength, List.cons_append, Nat.add_right_comm, Nat.add_assoc]
      rfl

theorem errors_begun (notes : List (Note ε)) (now : Nat) : errors (notes ++ [begun now]) = errors notes :=
  List.filterMap_append.trans (List.append_nil _)

theorem errors_delivered (notes : List (Note ε)) (now : Nat) : errors (notes ++ [delivered now]) = errors notes :=
  List.filterMap_append.trans (List.append_nil _)

theorem errors_failed (notes : List (Note ε)) (dice : Nat → Dice) (now : Nat) (e : ε) :
    errors (notes ++ [failed dice now e]) = errors notes ++ [e] :=
  List.filterMap_append

theorem errors_history (start k : Nat) (notes : List (Note ε)) :
    (history start k notes).map Attempt.error = errors notes := by
  induction notes generalizing start k with
  | nil => rfl
  | cons note rest ih =>
    cases note with
    | begun now => exact ih now k
    | delivered now => exact ih start k
    | failed dice now e => exact congrArg (e :: ·) (ih start (k + 1))

theorem length_history (start k : Nat) (notes : List (Note ε)) :
    (history start k notes).length = (errors notes).length := by
  rw [← errors_history start k, List.length_map]

theorem indexes_history (start k : Nat) (notes : List (Note ε)) :
    (history start k notes).map Attempt.index = List.range' k (history start k notes).length := by
  induction notes generalizing start k with
  | nil => rfl
  | cons note rest ih =>
    cases note with
    | begun now => exact ih now k
    | delivered now => exact ih start k
    | failed dice now e => exact congrArg (k :: ·) (ih start (k + 1))

end Note

/-! ## The bookkeeping -/

variable [Fault ε]

/-- The bookkeeping after some notes, none of which made it give up, and the waits that it asked for. -/
inductive Progress.Noted (p : RetryPolicy) (created : Nat) : List (Note ε) → List Duration → Progress ε → Prop where
  | start : Noted p created [] [] (.start created)
  | begun {notes : List (Note ε)} {waits : List Duration} {s : Progress ε} (h : Noted p created notes waits s)
      (now : Nat) : Noted p created (notes ++ [.begun now]) waits (s.beginAttempt now)
  | delivered {notes : List (Note ε)} {waits : List Duration} {s : Progress ε} (h : Noted p created notes waits s)
      (now : Nat) : Noted p created (notes ++ [.delivered now]) waits (s.deliver now)
  | retried {notes : List (Note ε)} {waits : List Duration} {s next : Progress ε} {dice : Nat → Dice} {now : Nat}
      {e : ε} {d : Duration} (h : Noted p created notes waits s)
      (decision : (s.fail p dice now e).decision = .retry d next) :
      Noted p created (notes ++ [.failed dice now e]) (waits ++ [d]) next

/-- What the bookkeeping holds after notes and waits. -/
structure Progress.Records (p : RetryPolicy) (created : Nat) (notes : List (Note ε)) (waits : List Duration)
    (s : Progress ε) : Prop where
  attempts : s.attempts = Note.history created 1 notes
  accepted : ∀ e ∈ Note.errors notes, p.predicate.test e = true
  /-- There is an attempt left. -/
  room : s.attempts.length < p.maxAttempts.toNat
  previous : s.previousDelay = waits.getLast?
  waited : waits.length = s.attempts.length
  delivered : s.delivered = Note.deliveries notes
  begun : s.attemptStarted = Note.lastBegun created notes

/-- A failure after some notes makes the bookkeeping give up, for the first time. -/
def GivesUp (p : RetryPolicy) (created : Nat) (notes : List (Note ε)) (dice : Nat → Dice) (now : Nat) (e : ε)
    (error : RetryError ε) : Prop :=
  ∃ waits s, Progress.Noted p created notes waits s ∧ (s.fail p dice now e).decision = .giveUp error

variable {p : RetryPolicy} {created : Nat} {notes : List (Note ε)} {waits : List Duration} {s next : Progress ε}

namespace Progress.Records

theorem start (hp : p.Valid) (created : Nat) : (Progress.start created : Progress ε).Records p created [] [] where
  attempts := rfl
  accepted := nofun
  room := hp.attempts_pos
  previous := rfl
  waited := rfl
  delivered := rfl
  begun := rfl

theorem beginAttempt (h : s.Records p created notes waits) (now : Nat) :
    (s.beginAttempt now).Records p created (notes ++ [.begun now]) waits where
  attempts := by
    rw [Note.history_append]
    exact h.attempts.trans (List.append_nil _).symm
  accepted := by
    rw [Note.errors_begun]
    exact h.accepted
  room := h.room
  previous := h.previous
  waited := h.waited
  delivered := by
    rw [Note.deliveries, List.countP_append]
    exact h.delivered
  begun := by
    rw [Note.lastBegun_append]
    rfl

theorem deliver (h : s.Records p created notes waits) (now : Nat) :
    (s.deliver now).Records p created (notes ++ [.delivered now]) waits where
  attempts := by
    rw [Note.history_append]
    exact h.attempts.trans (List.append_nil _).symm
  accepted := by
    rw [Note.errors_delivered]
    exact h.accepted
  room := h.room
  previous := h.previous
  waited := h.waited
  delivered := by
    rw [Note.deliveries, List.countP_append, ← Note.deliveries, ← h.delivered]
    rfl
  begun := by
    rw [Note.lastBegun_append]
    exact h.begun

/-- The attempt that fails has the number after the ones before it, and began when it was last told so. -/
theorem history_concat (h : s.Records p created notes waits) (dice : Nat → Dice) (now : Nat) (e : ε) :
    Note.history created 1 (notes ++ [.failed dice now e]) = s.attempts ++ [s.failure now e] := by
  rw [Note.history_append, ← h.attempts, ← h.begun, ← Note.length_history created 1, ← h.attempts, length_attempts,
    Nat.add_comm]
  rfl

theorem retry (h : s.Records p created notes waits) (hp : p.Valid) {dice : Nat → Dice} {now : Nat} {e : ε}
    {d : Duration} (decision : (s.fail p dice now e).decision = .retry d next) :
    next.Records p created (notes ++ [.failed dice now e]) (waits ++ [d]) := by
  have hroom := lt_maxAttempts_of_fail decision
  obtain ⟨yes, -, rfl⟩ := of_decision_retry hp decision
  have hlength : (s.record now e d).attempts.length = s.failed + 1 := length_attempts _
  constructor
  · rw [attempts_record, h.history_concat]
  · intro e' he'
    rw [Note.errors_failed, List.mem_append, List.mem_singleton] at he'
    rcases he' with he' | rfl
    · exact h.accepted e' he'
    · exact yes
  · rwa [hlength]
  · rw [List.getLast?_concat]
    rfl
  · rw [hlength, List.length_append, h.waited, length_attempts]
    rfl
  · rw [Note.deliveries, List.countP_append]
    exact h.delivered
  · rw [Note.lastBegun_append]
    exact h.begun

/-- The number of the attempt that runs or comes next is in the range of its counter. -/
theorem counter (h : s.Records p created notes waits) :
    (UInt32.ofNat s.attempts.length + 1).toNat = s.attempt ∧ s.attempt ≤ p.maxAttempts.toNat := by
  have hroom := h.room
  have hlt := p.maxAttempts.toNat_lt
  have hattempt : s.attempt = s.attempts.length + 1 := by rw [length_attempts]; rfl
  constructor
  · have hone : (1 : UInt32).toNat = 1 := rfl
    rw [UInt32.toNat_add, UInt32.toNat_ofNat', hone, Nat.mod_add_mod, hattempt]
    exact Nat.mod_eq_of_lt (by omega)
  · omega

end Progress.Records

namespace Progress.Noted

theorem records (hp : p.Valid) (h : s.Noted p created notes waits) : s.Records p created notes waits := by
  induction h with
  | start => exact .start hp created
  | begun h now ih => exact ih.beginAttempt now
  | delivered h now ih => exact ih.deliver now
  | retried h decision ih => exact ih.retry hp decision

/-- Notes go through, or one of them makes the bookkeeping give up. -/
theorem total (hp : p.Valid) (created : Nat) (notes : List (Note ε)) :
    (∃ waits s, Progress.Noted p created notes waits s) ∨
      ∃ before dice now e after error, notes = before ++ .failed dice now e :: after ∧
        GivesUp p created before dice now e error := by
  induction notes using List.reverseRecOn with
  | nil => exact .inl ⟨_, _, .start⟩
  | append_singleton notes note ih =>
    obtain ⟨waits, s, h⟩ | ⟨before, dice, now, e, after, error, rfl, h⟩ := ih
    · cases note with
      | begun now => exact .inl ⟨_, _, h.begun now⟩
      | delivered now => exact .inl ⟨_, _, h.delivered now⟩
      | failed dice now e =>
        cases hdecision : (s.fail p dice now e).decision with
        | retry d next => exact .inl ⟨_, _, h.retried hdecision⟩
        | giveUp error => exact .inr ⟨notes, dice, now, e, [], error, rfl, _, _, h, hdecision⟩
        | impossible fault => exact absurd hdecision (decision_ne_impossible hp s dice now e fault)
    · exact .inr ⟨before, dice, now, e, after ++ [note], error, by simp, h⟩

end Progress.Noted

/-! ## Giving up -/

/-- The history of all attempts that a policy allows, as they were noted. -/
structure Exhausted.Complete (p : RetryPolicy) (created : Nat) (notes : List (Note ε)) (x : Exhausted ε) : Prop where
  attempts : x.attempts = Note.history created 1 notes
  indexes : x.attempts.map Attempt.index = List.range' 1 p.maxAttempts.toNat
  accepted : ∀ a ∈ x.attempts, p.predicate.test a.error = true
  /-- It passes the check for an empty history. -/
  create : Exhausted.create p.name x.attempts x.total = .ok x
  /-- There is a last attempt. -/
  last : ∃ a, x.attempts.getLast? = some a ∧ a.error = x.last

/-- The failure that exhausts a policy is the last attempt that the policy allows. -/
theorem GivesUp.complete (hp : p.Valid) {dice : Nat → Dice} {now : Nat} {e : ε} {x : Exhausted ε}
    (h : GivesUp p created notes dice now e (.exhausted x)) :
    x.Complete p created (notes ++ [.failed dice now e]) ∧ x.last = e := by
  obtain ⟨waits, s, hnoted, decision⟩ := h
  have hrecords := hnoted.records hp
  obtain ⟨-, ⟨⟩⟩ | ⟨yes, hspent, hx⟩ := Progress.of_decision_giveUp hp decision
  cases hx
  have hattempts : (s.exhausted p now e).attempts = Note.history created 1 (notes ++ [.failed dice now e]) :=
    (hrecords.history_concat dice now e).symm
  have hlength : (s.exhausted p now e).attempts.length = p.maxAttempts.toNat := by
    rw [Progress.length_exhausted]
    exact Nat.le_antisymm hrecords.counter.2 hspent
  have hlast := s.last_exhausted p now e
  refine ⟨⟨hattempts, ?_, fun a ha => ?_, dif_neg (s.exhausted p now e).attempts_ne_nil, s.failure now e,
    List.getLast?_concat, hlast.symm⟩, hlast⟩
  · rw [← hlength, hattempts, Note.indexes_history]
  · have herror := List.mem_map_of_mem (f := Attempt.error) ha
    rw [hattempts, Note.errors_history, Note.errors_failed, List.mem_append, List.mem_singleton] at herror
    rcases herror with herror | herror
    · exact hrecords.accepted _ herror
    · rw [herror]
      exact yes

/-! ## Calls and streams -/

/-- A call or stream gives up with an error. -/
def GivenUp (p : RetryPolicy) (created : Nat) (error : RetryError ε) : Prop :=
  ∃ notes dice now e, GivesUp p created notes dice now e error

/-- The bookkeeping was told some notes and has not given up. -/
def Progress.Undecided (p : RetryPolicy) (created : Nat) (s : Progress ε) : Prop :=
  ∃ notes waits, s.Noted p created notes waits

namespace Progress.Undecided

variable {dice : Nat → Dice} {now : Nat} {e : ε}

theorem start (created : Nat) : (Progress.start created : Progress ε).Undecided p created := ⟨[], [], .start⟩

theorem beginAttempt (h : s.Undecided p created) (now : Nat) : (s.beginAttempt now).Undecided p created := by
  obtain ⟨notes, waits, h⟩ := h
  exact ⟨_, _, h.begun now⟩

theorem deliver (h : s.Undecided p created) (now : Nat) : (s.deliver now).Undecided p created := by
  obtain ⟨notes, waits, h⟩ := h
  exact ⟨_, _, h.delivered now⟩

theorem retry (h : s.Undecided p created) {d : Duration} (decision : (s.fail p dice now e).decision = .retry d next) :
    next.Undecided p created := by
  obtain ⟨notes, waits, h⟩ := h
  exact ⟨_, _, h.retried decision⟩

theorem giveUp (h : s.Undecided p created) {error : RetryError ε}
    (decision : (s.fail p dice now e).decision = .giveUp error) : GivenUp p created error := by
  obtain ⟨notes, waits, h⟩ := h
  exact ⟨_, _, _, _, _, _, h, decision⟩

end Progress.Undecided

section Calls

variable {r : RetryLoop} {pace : Pace} {work : Act σ (Except ε α)} {w w' : World σ}

theorem Again.undecided {turn : Turn ε α} (h : Again r pace work s w turn next w') (hs : s.Undecided r.policy created) :
    next.Undecided r.policy created := by
  cases h with
  | retry call decision sleep => exact (hs.beginAttempt w.now).retry decision

theorem Over.givenUp {tale : Tale ε α} {out : Ended (Except (RetryError ε) α)} (h : Over r pace work s w tale out w')
    (hs : s.Undecided r.policy created) (error : RetryError ε) (hout : out = .done (.error error)) :
    GivenUp r.policy created error := by
  cases h with
  | value call => cases hout
  | giveUp call decision =>
    cases hout
    exact (hs.beginAttempt w.now).giveUp decision
  | broken call broke | unslept call decision sleep broke => cases broke <;> cases hout

theorem RetryLoop.givenUp_run {error : RetryError ε} (h : r.run pace work w = (.done (.error error), w')) :
    GivenUp r.policy w.now error := by
  obtain ⟨tale, htale⟩ := (r.attempted pace work (.start w.now) w).trail
  have hgivenUp := Trail.reached (fun s _ => s.Undecided r.policy w.now)
    (fun out _ => ∀ error, out = .done (.error error) → GivenUp r.policy w.now error)
    (fun h hs => h.undecided hs) (fun h hs => h.givenUp hs) htale (.start w.now)
  exact hgivenUp error (congrArg Prod.fst h)

end Calls

section Streams

variable {r : RetryLoop} {source : Source σ ρ (Except ε α)} {meanwhile : World σ → World σ → Prop}
  {st st' : Subscription ρ ε} {w w' w₀ : World σ} {tale : Tale ε α} {item : Except (RetryError ε) α}

/-- The bookkeeping in the state of a stream. -/
def Subscription.Undecided (p : RetryPolicy) (created : Nat) : Subscription ρ ε → Prop
  | .waiting s | .live _ _ s => s.Undecided p created
  | .finished => True

theorem Moves.undecided {turn : Turn ε α} (h : Moves r source st w turn st' w') (hst : st.Undecided r.policy created) :
    st'.Undecided r.policy created := by
  cases h with
  | subscribe call => exact Progress.Undecided.beginAttempt hst w.now
  | skip call => exact hst
  | retry call decision sleep => exact Progress.Undecided.retry hst decision

theorem Halts.undecided {out : Ended (Option (Except (RetryError ε) α × Subscription ρ ε))}
    (h : Halts r source st w tale out w') (hst : st.Undecided r.policy created)
    (hout : out = .done (some (item, st'))) :
    st'.Undecided r.policy created ∧ ∀ error, item = .error error → GivenUp r.policy created error := by
  cases h with
  | finished | ended call => cases hout
  | deliver call =>
    cases hout
    exact ⟨Progress.Undecided.deliver hst w'.now, nofun⟩
  | giveUp call decision =>
    cases hout
    refine ⟨trivial, ?_⟩
    rintro _ ⟨⟩
    exact Progress.Undecided.giveUp hst decision
  | unsubscribed call broke | unanswered call broke | unslept call decision sleep broke =>
    cases broke <;> cases hout

theorem Retells.undecided {items : List (Except (RetryError ε) α)} {phase : Phase (Subscription ρ ε)}
    (h : Retells r source meanwhile (.fresh created) w₀ tale items phase w) :
    (∀ st, phase = .reading st → st.Undecided r.policy created) ∧
      ∀ error, .error error ∈ items → GivenUp r.policy created error := by
  induction h with
  | start =>
    refine ⟨?_, nofun⟩
    rintro _ ⟨⟩
    exact Progress.Undecided.start created
  | idle h passes ih => exact ih
  | @polled tale tale' items k w w' out h poll ih =>
    obtain ⟨hstate, hitems⟩ := ih
    have hpoll := Trail.reached (fun st _ => st.Undecided r.policy created)
      (fun out _ => ∀ item st, out = .done (some (item, st)) → st.Undecided r.policy created ∧
        ∀ error, item = .error error → GivenUp r.policy created error)
      (fun h hst => h.undecided hst) (fun h hst _ _ => h.undecided hst) poll (hstate k rfl)
    refine ⟨fun st hst => ?_, fun error herror => ?_⟩
    · rcases out with (_ | ⟨item, k'⟩) | m | _ <;> cases hst
      exact (hpoll item st rfl).1
    · rcases List.mem_append.1 herror with herror | herror
      · exact hitems error herror
      · rcases out with (_ | ⟨item, k'⟩) | m | _
        · cases herror
        · exact (hpoll item k' rfl).2 error (List.mem_singleton.1 herror).symm
        · cases herror
        · cases herror

end Streams

/-! ## The invariant -/

/-- The bookkeeping of a policy, whatever it is told and until it first gives up. Its attempts are the accepted
failures, numbered from one; there are fewer of them than the policy allows, so the number of the next one fits its
counter; it has the last wait and the count of the elements (`Progress.Records`). A history of attempts is made of all
of them and of the last failure, and calls and streams have their errors from such bookkeeping only. -/
theorem RetryLoop.bookkeeping_kept (r : RetryLoop) (created : Nat) :
    (∀ (notes : List (Note ε)) waits (s : Progress ε), s.Noted r.policy created notes waits →
      s.Records r.policy created notes waits ∧ s.attempts.map Attempt.error = Note.errors notes ∧
      s.attempts.map Attempt.index = List.range' 1 s.attempts.length ∧ s.attempt = s.attempts.length + 1 ∧
      s.attempt ≤ r.policy.maxAttempts.toNat ∧ (UInt32.ofNat s.attempts.length + 1).toNat = s.attempt) ∧
    (∀ notes : List (Note ε), (∃ waits s, Progress.Noted r.policy created notes waits s) ∨
      ∃ before dice now e after error, notes = before ++ .failed dice now e :: after ∧
        GivesUp r.policy created before dice now e error) ∧
    (∀ (notes : List (Note ε)) dice now e x, GivesUp r.policy created notes dice now e (.exhausted x) →
      x.Complete r.policy created (notes ++ [.failed dice now e]) ∧ x.last = e) ∧
    (∀ pace (work : Act σ (Except ε α)) w w' error, w.now = created →
      r.run pace work w = (.done (.error error), w') → GivenUp r.policy created error) ∧
    ∀ (source : Source σ ρ (Except ε α)) meanwhile w₀ items phase w,
      Reads (r.poll source) meanwhile (.fresh created) w₀ items phase w →
      ∀ error, .error error ∈ items → GivenUp r.policy created error := by
  refine ⟨fun notes waits s h => ?_, Progress.Noted.total r.valid created,
    fun notes dice now e x h => h.complete r.valid, fun pace work w w' error hw h => ?_,
    fun source meanwhile w₀ items phase w h => ?_⟩
  · have hrecords := h.records r.valid
    obtain ⟨hcounter, hle⟩ := hrecords.counter
    have hattempt : s.attempt = s.attempts.length + 1 := by rw [Progress.length_attempts]; rfl
    refine ⟨hrecords, ?_, ?_, hattempt, hle, hcounter⟩
    · rw [hrecords.attempts, Note.errors_history]
    · rw [hrecords.attempts, Note.indexes_history]
  · subst hw
    exact givenUp_run h
  · obtain ⟨tale, htale⟩ := h.retells
    exact htale.undecided.2

/-- Two attempts, in each of which an element is handed out. The second failure exhausts the policy, in the notes and in
a call; a stream gives up at once when a failure is rejected. -/
theorem RetryLoop.bookkeeping_briefly :
    (∃ (s : Progress TestError) (x : Exhausted TestError),
      s.Records briefly.policy 0
        [.begun 0, .delivered 3, .failed (fun _ => .middle) 5 (.transient "a"), .begun 10, .delivered 12]
        [.ofMillis 5] ∧
      s.attempts = [⟨1, .transient "a", elapsed 0 5⟩] ∧ s.previousDelay = some (.ofMillis 5) ∧ s.delivered = 2 ∧
      (s.fail briefly.policy (fun _ => .middle) 20 (.transient "b")).decision = .giveUp (.exhausted x) ∧
      x.attempts = [⟨1, .transient "a", elapsed 0 5⟩, ⟨2, .transient "b", elapsed 10 20⟩] ∧
      x.last = .transient "b") ∧
    (∃ error w', briefly.run .suspended (pure (.error (.transient "a")) : Act Unit (Except TestError Nat))
        { own := () } = (.done (.error error), w') ∧ GivenUp briefly.policy 0 error) ∧
    ∃ (source : Source Unit Unit (Except TestError Nat)) (error : RetryError TestError) (w : World Unit),
      Reads (briefly.poll source) Eq (.fresh 0) { own := () } [.error error] (.reading .finished) w ∧
        GivenUp briefly.policy 0 error := by
  obtain ⟨hrecords, -, hcomplete, hrun, hreads⟩ :=
    bookkeeping_kept (σ := Unit) (ρ := Unit) (ε := TestError) (α := Nat) briefly 0
  refine ⟨?_, ?_, ?_⟩
  · let first : Progress TestError := (Progress.start 0).deliver 3
    have hfirst : first.Noted briefly.policy 0 [.begun 0, .delivered 3] [] := (Progress.Noted.start.begun 0).delivered 3
    have hretry : (first.record 5 (.transient "a") (.ofMillis 5)).Noted briefly.policy 0
        [.begun 0, .delivered 3, .failed (fun _ => .middle) 5 (.transient "a")] [.ofMillis 5] := hfirst.retried rfl
    have hsecond := (hretry.begun 10).delivered 12
    obtain ⟨hkept, -⟩ := hrecords _ _ _ hsecond
    have hgivesUp : GivesUp (ε := TestError) briefly.policy 0 _ (fun _ => .middle) 20 (.transient "b") (.exhausted _) :=
      ⟨_, _, hsecond, rfl⟩
    obtain ⟨hx, hlast⟩ := hcomplete _ _ _ _ _ hgivesUp
    exact ⟨_, _, hkept, hkept.attempts, hkept.previous, hkept.delivered, rfl, hx.attempts, hlast⟩
  · let work : Act Unit (Except TestError Nat) := pure (.error (.transient "a"))
    have hagain : Again briefly .suspended work (.start 0) { own := () } (.retried (.transient "a") (.ofMillis 5))
        _ _ := .retry rfl rfl rfl
    have hcall : briefly.run .suspended work { own := () } = (.done (.error _), _) :=
      (Trail.go hagain (.halt (.giveUp rfl rfl))).attemptFrom_eq
    exact ⟨_, _, hcall, hrun _ _ _ _ _ rfl hcall⟩
  · let source : Source Unit Unit (Except TestError Nat) :=
      ⟨pure (), fun _ => pure (some (.error (.permanent "b"), ()))⟩
    have hpolled : Polled briefly source (.fresh 0) { own := () } {} _ _ := .subscribe rfl (.reject rfl rfl)
    have hstart : Reads (briefly.poll source) Eq (.fresh 0) { own := () } [] _ _ := .start
    have hpoll := hstart.polled hpolled.poll_eq
    exact ⟨_, _, _, hpoll, hreads _ _ _ _ _ _ hpoll _ (List.mem_singleton_self _)⟩

end CallGuard

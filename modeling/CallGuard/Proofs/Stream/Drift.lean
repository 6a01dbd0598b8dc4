/-
How the waits of a run drift under decorrelated jitter. The bookkeeping remembers the last wait and how many there were
(`Progress.Remembers`), so every wait is drawn for the base delay of its attempt and after the wait before it
(`RetryPolicy.Drifts`). This holds of calls (`Called.drifts`) and of streams over all of their polls (`Retells.drifts`),
as long as whatever runs in between leaves the dice fair (`Act.Fair`).
-/
import CallGuard.Proofs.Policy.Band
import CallGuard.Proofs.Stream.Tale

namespace CallGuard

variable {σ ρ ε α β : Type}

/-! ## Fair draws -/

/-- All attempts draw from fair dice. -/
def World.Fair (w : World σ) : Prop := ∀ k, (w.dice k).Fair

namespace World

theorem Fair.setClock {w : World σ} (h : w.Fair) (pace : Pace) (c : Clock) : (w.setClock pace c).Fair := fun k => by
  rw [dice_setClock]
  exact h k

theorem Fair.reports {w : World σ} (h : w.Fair) (l : List Event) : (l.foldl World.report w).Fair := by
  induction l generalizing w with
  | nil => exact h
  | cons e l ih => exact ih (w := w.report e) h

end World

namespace Act

/-- An act after which draws are as fair as before. -/
def Fair (x : Act σ α) : Prop := ∀ w, w.Fair → (x w).2.Fair

variable {x : Act σ α} {w w' : World σ}

theorem Fair.of_eq (hx : x.Fair) {ended : Ended α} (h : x w = (ended, w')) (hw : w.Fair) : w'.Fair := by
  have hfair := hx w hw
  rwa [h] at hfair

theorem fair_waitUntil (pace : Pace) (t : Option Nat) : (waitUntil pace t : Act σ Unit).Fair := fun w hw => by
  unfold waitUntil
  split <;> exact hw.setClock pace _

theorem fair_sleep (pace : Pace) (d : Duration) : (sleep pace d : Act σ Unit).Fair := fun w => fair_waitUntil pace _ w

theorem fair_hang (pace : Pace) : (hang pace : Act σ α).Fair := fun w => fair_waitUntil pace none w

theorem Fair.bind {g : α → Act σ β} (hx : x.Fair) (hg : ∀ a, (g a).Fair) : (x >>= g).Fair := fun w hw => by
  have hfair := hx w hw
  rcases hrun : x w with ⟨a | m | _, v⟩ <;> rw [hrun] at hfair
  · rw [bind_of_done hrun]
    exact hg a v hfair
  · rw [bind_of_panicked hrun]
    exact hfair
  · rw [bind_of_abandoned hrun]
    exact hfair

/-- Scripted work never touches the dice. -/
theorem fair_closed (pace : Pace) : Act.Closed pace fun _ (x : Act σ _) => x.Fair where
  done _ _ hw := hw
  panic _ _ hw := hw
  modifyOwn _ _ hw := hw
  sleep := fair_sleep pace
  hang := fair_hang pace
  bind := Fair.bind

end Act

/-! ## Waits -/

namespace Turn

def delay? : Turn ε α → Option Duration
  | retried _ d => some d
  | _ => none

/-- The waits of turns, oldest first: the first one is that after the first attempt. -/
def waits (ts : List (Turn ε α)) : List Duration := ts.filterMap delay?

theorem waits_retried (past : List (Turn ε α)) (e : ε) (d : Duration) :
    waits (past ++ [.retried e d]) = waits past ++ [d] := List.filterMap_append

theorem waits_silent (past : List (Turn ε α)) {turn : Turn ε α} (h : turn.delay? = none) :
    waits (past ++ [turn]) = waits past := by
  simp only [waits, List.filterMap_append, List.filterMap_cons, h, List.filterMap_nil, List.append_nil]

end Turn

/-- A policy with decorrelated jitter and without a longest delay. -/
structure RetryPolicy.Decorrelated (p : RetryPolicy) : Prop where
  jitter : p.jitter = .decorrelated
  uncapped : p.maxDelay = none

/-- Every wait is in the band of the base delay of its attempt and of the wait before it. -/
def RetryPolicy.Drifts (p : RetryPolicy) (waits : List Duration) : Prop :=
  ∀ k d, waits[k]? = some d → ∃ base, p.delayAfter (k + 1) = some base ∧ Jitter.Drifted base (waits.take k).getLast? d

namespace RetryPolicy

variable {p : RetryPolicy}

theorem drifts_nil (p : RetryPolicy) : p.Drifts [] := nofun

theorem Drifts.concat {waits : List Duration} (h : p.Drifts waits) {base d : Duration}
    (hbase : p.delayAfter (waits.length + 1) = some base) (hd : Jitter.Drifted base waits.getLast? d) :
    p.Drifts (waits ++ [d]) := by
  intro k e he
  rcases Nat.lt_trichotomy k waits.length with hlt | rfl | hlt
  · rw [List.getElem?_append_left hlt] at he
    rw [List.take_append_of_le_length (Nat.le_of_lt hlt)]
    exact h k e he
  · rw [List.getElem?_concat_length] at he
    cases he
    rw [List.take_left']
    · exact ⟨base, hbase, hd⟩
    · rfl
  · rw [List.getElem?_eq_none (by rw [List.length_append, List.length_singleton]; omega)] at he
    cases he

/-- A wait that was drawn from fair dice is in its band. -/
theorem Decorrelated.drifted (hp : p.Decorrelated) {dice : Dice} (hd : dice.Fair) {k : Nat} {previous : Option Duration}
    {d : Duration} (h : p.waitAfter dice k previous = .delay d) :
    ∃ base, p.delayAfter k = some base ∧ Jitter.Drifted base previous d := by
  obtain ⟨base, hbase, happly⟩ := waitAfter_eq_delay.1 h
  rw [hp.jitter, hp.uncapped] at happly
  obtain ⟨d', happly', hdrifted⟩ := Jitter.decorrelated_band hd base previous
  cases happly.symm.trans happly'
  exact ⟨base, hbase, hdrifted⟩

end RetryPolicy

/-! ## What the bookkeeping remembers -/

/-- The bookkeeping counts the waits so far and has the last one of them. -/
structure Progress.Remembers (p : RetryPolicy) (s : Progress ε) (past : List (Turn ε α)) : Prop where
  failed : s.failed = (Turn.waits past).length
  previous : s.previousDelay = (Turn.waits past).getLast?
  drifts : p.Drifts (Turn.waits past)

namespace Progress.Remembers

variable {p : RetryPolicy} {s : Progress ε} {past : List (Turn ε α)}

theorem start (now : Nat) : (Progress.start now : Progress ε).Remembers p ([] : List (Turn ε α)) :=
  ⟨rfl, rfl, p.drifts_nil⟩

theorem beginAttempt (h : s.Remembers p past) (now : Nat) : (s.beginAttempt now).Remembers p past :=
  ⟨h.failed, h.previous, h.drifts⟩

theorem deliver (h : s.Remembers p past) (now : Nat) : (s.deliver now).Remembers p past :=
  ⟨h.failed, h.previous, h.drifts⟩

theorem silent (h : s.Remembers p past) {turn : Turn ε α} (hturn : turn.delay? = none) :
    s.Remembers p (past ++ [turn]) := by
  have hwaits := Turn.waits_silent past hturn
  constructor
  · rw [hwaits, h.failed]
  · rw [hwaits, h.previous]
  · rw [hwaits]
    exact h.drifts

/-- A failure that another attempt follows: the wait is drawn for its attempt and after the last one. -/
theorem retry [Fault ε] (h : s.Remembers p past) (hvalid : p.Valid) (hp : p.Decorrelated) {dice : Nat → Dice}
    (hdice : ∀ k, (dice k).Fair) {now : Nat} {e : ε} {d : Duration} {next : Progress ε}
    (decision : (s.fail p dice now e).decision = .retry d next) : next.Remembers p (past ++ [.retried e d]) := by
  obtain ⟨-, hwait, rfl⟩ := Progress.of_decision_retry hvalid decision
  obtain ⟨base, hbase, hdrifted⟩ := hp.drifted (hdice _) hwait
  rw [Progress.attempt, h.failed] at hbase
  rw [h.previous] at hdrifted
  constructor
  · rw [Turn.waits_retried, List.length_append, ← h.failed]
    rfl
  · rw [Turn.waits_retried, List.getLast?_concat]
    rfl
  · rw [Turn.waits_retried]
    exact h.drifts.concat hbase hdrifted

end Progress.Remembers

/-- The state of a stream remembers the waits so far. -/
def Subscription.Remembers (p : RetryPolicy) (past : List (Turn ε α)) : Subscription ρ ε → Prop
  | .waiting s | .live _ _ s => s.Remembers p past
  | .finished => p.Drifts (Turn.waits past)

theorem Subscription.Remembers.drifts {p : RetryPolicy} {past : List (Turn ε α)} {st : Subscription ρ ε}
    (h : st.Remembers p past) : p.Drifts (Turn.waits past) := by
  cases st with
  | waiting s | live _ _ s => exact Progress.Remembers.drifts h
  | finished => exact h

/-- Where a poll leaves a stream after some turns. -/
structure RemembersAfter (p : RetryPolicy) (turns : List (Turn ε α))
    (out : Ended (Option (Except (RetryError ε) α × Subscription ρ ε))) (w : World σ) : Prop where
  drifts : p.Drifts (Turn.waits turns)
  fair : w.Fair
  state : ∀ item st, out = .done (some (item, st)) → st.Remembers p turns

/-! ## Decisions -/

theorem fair_announced (s : Progress ε) {w : World σ} (hw : w.Fair) : (announced s w).Fair := by
  unfold announced
  split <;> exact hw

variable [Fault ε]

theorem RetryLoop.fair_judge (r : RetryLoop) (s : Progress ε) (e : ε) {w : World σ} (hw : w.Fair) :
    (r.judge s e w).2.Fair := hw.reports _

/-! ## Calls -/

section Calls

variable {r : RetryLoop} {pace : Pace} {work : Act σ (Except ε α)} {s : Progress ε} {w w' : World σ}
  {past : List (Turn ε α)}

theorem Again.remembers (hp : r.policy.Decorrelated) (hwork : work.Fair) {next : Progress ε} {turn : Turn ε α}
    (h : Again r pace work s w turn next w') (hs : w.Fair ∧ s.Remembers r.policy past) :
    w'.Fair ∧ next.Remembers r.policy (past ++ [turn]) := by
  obtain ⟨hw, hs⟩ := hs
  cases h with
  | retry call decision sleep =>
    have hfair := hwork.of_eq call hw
    refine ⟨(Act.fair_sleep pace _).of_eq sleep (r.fair_judge _ _ hfair), ?_⟩
    exact (hs.beginAttempt w.now).retry r.valid hp hfair decision

theorem Over.drifts (hp : r.policy.Decorrelated) (hwork : work.Fair) {tale : Tale ε α}
    {out : Ended (Except (RetryError ε) α)} (h : Over r pace work s w tale out w')
    (hs : w.Fair ∧ s.Remembers r.policy past) : r.policy.Drifts (Turn.waits (past ++ tale.turns)) := by
  obtain ⟨hw, hs⟩ := hs
  cases h with
  | value call => exact (hs.silent rfl).drifts
  | giveUp call decision | broken call broke =>
    rw [List.append_nil]
    exact hs.drifts
  | unslept call decision sleep broke =>
    exact ((hs.beginAttempt w.now).retry r.valid hp (hwork.of_eq call hw) decision).drifts

theorem Called.drifts (hp : r.policy.Decorrelated) (hwork : work.Fair) (hw : w.Fair) {tale : Tale ε α}
    {out : Ended (Except (RetryError ε) α) × World σ} (h : Called r pace work w tale out) :
    r.policy.Drifts (Turn.waits tale.turns) := by
  have hstart : w.Fair ∧ (Progress.start w.now).Remembers r.policy ([] : List (Turn ε α)) := ⟨hw, .start w.now⟩
  exact Trail.kept (fun s w past => w.Fair ∧ s.Remembers r.policy past)
    (fun turns _ _ _ => r.policy.Drifts (Turn.waits turns)) (fun h hs => h.remembers hp hwork hs)
    (fun h hs => h.drifts hp hwork hs) h hstart

end Calls

/-! ## Streams -/

section Streams

variable {r : RetryLoop} {source : Source σ ρ (Except ε α)} {past : List (Turn ε α)} {st st' : Subscription ρ ε}
  {w w' : World σ} {tale : Tale ε α} {out : Ended (Option (Except (RetryError ε) α × Subscription ρ ε))}

/-- A source after whose acts draws are as fair as before. -/
structure Source.Fair (source : Source σ ρ (Except ε α)) : Prop where
  subscribe : source.subscribe.Fair
  poll : ∀ p, (source.poll p).Fair

theorem Moves.remembers (hp : r.policy.Decorrelated) (hsource : source.Fair) {turn : Turn ε α}
    (h : Moves r source st w turn st' w') (hst : w.Fair ∧ st.Remembers r.policy past) :
    w'.Fair ∧ st'.Remembers r.policy (past ++ [turn]) := by
  obtain ⟨hw, hst⟩ := hst
  cases h with
  | @subscribe s _ _ p call =>
    exact ⟨hsource.subscribe.of_eq call (fair_announced s hw), (Progress.Remembers.beginAttempt hst w.now).silent rfl⟩
  | @skip p _ _ _ _ _ a call => exact ⟨(hsource.poll p).of_eq call hw, Progress.Remembers.silent hst rfl⟩
  | @retry p _ _ _ _ _ _ _ _ _ call decision sleep =>
    have hfair := (hsource.poll p).of_eq call hw
    refine ⟨(Act.fair_sleep .suspended _).of_eq sleep (r.fair_judge _ _ hfair), ?_⟩
    exact Progress.Remembers.retry hst r.valid hp hfair decision

theorem Halts.remembers (hp : r.policy.Decorrelated) (hsource : source.Fair) (h : Halts r source st w tale out w')
    (hst : w.Fair ∧ st.Remembers r.policy past) : RemembersAfter r.policy (past ++ tale.turns) out w' := by
  obtain ⟨hw, hst⟩ := hst
  have hdrifts := hst.drifts
  rw [← List.append_nil past] at hdrifts
  cases h with
  | finished => exact ⟨hdrifts, hw, nofun⟩
  | @deliver p _ s _ _ a call =>
    have hnext : (s.deliver w'.now).Remembers r.policy (past ++ [.handed a]) :=
      (Progress.Remembers.deliver hst w'.now).silent rfl
    refine ⟨hnext.drifts, (hsource.poll p).of_eq call hw, ?_⟩
    rintro _ _ ⟨⟩
    exact hnext
  | @giveUp p _ _ _ _ _ _ _ call decision =>
    refine ⟨hdrifts, r.fair_judge _ _ ((hsource.poll p).of_eq call hw), ?_⟩
    rintro _ _ ⟨⟩
    exact hdrifts
  | @ended p _ _ _ _ call => exact ⟨hdrifts, (hsource.poll p).of_eq call hw, nofun⟩
  | @unsubscribed s _ _ _ _ call broke =>
    refine ⟨?_, hsource.subscribe.of_eq call (fair_announced s hw), by cases broke <;> nofun⟩
    exact (Progress.Remembers.silent hst rfl).drifts
  | @unanswered p _ _ _ _ _ _ call broke =>
    exact ⟨hdrifts, (hsource.poll p).of_eq call hw, by cases broke <;> nofun⟩
  | @unslept p _ _ _ _ _ _ _ _ _ _ _ call decision sleep broke =>
    have hfair := (hsource.poll p).of_eq call hw
    refine ⟨?_, (Act.fair_sleep .suspended _).of_eq sleep (r.fair_judge _ _ hfair), by cases broke <;> nofun⟩
    exact (Progress.Remembers.retry hst r.valid hp hfair decision).drifts

theorem PollTrail.remembers (hp : r.policy.Decorrelated) (hsource : source.Fair) (h : PollTrail r source st w tale out w')
    (hst : w.Fair ∧ st.Remembers r.policy past) : RemembersAfter r.policy (past ++ tale.turns) out w' :=
  Trail.kept (fun st w past => w.Fair ∧ st.Remembers r.policy past)
    (fun turns _ out w' => RemembersAfter r.policy turns out w') (fun h hst => h.remembers hp hsource hst)
    (fun h hst => h.remembers hp hsource hst) h hst

/-- The waits between the subscriptions of a stream, over all polls of a consumer. -/
theorem Retells.drifts {meanwhile : World σ → World σ → Prop} {created : Nat} {w₀ : World σ}
    {items : List (Except (RetryError ε) α)} {phase : Phase (Subscription ρ ε)} (hp : r.policy.Decorrelated)
    (hsource : source.Fair) (hmeanwhile : ∀ w w', meanwhile w w' → w.Fair → w'.Fair) (hw₀ : w₀.Fair)
    (h : Retells r source meanwhile (.fresh created) w₀ tale items phase w) :
    r.policy.Drifts (Turn.waits tale.turns) ∧ w.Fair ∧
      ∀ st, phase = .reading st → st.Remembers r.policy tale.turns := by
  induction h with
  | start =>
    refine ⟨r.policy.drifts_nil, hw₀, ?_⟩
    rintro _ ⟨⟩
    exact Progress.Remembers.start created
  | idle h passes ih =>
    obtain ⟨hdrifts, hw, hstate⟩ := ih
    exact ⟨hdrifts, hmeanwhile _ _ passes hw, hstate⟩
  | @polled tale tale' items k w w' out h poll ih =>
    obtain ⟨-, hw, hstate⟩ := ih
    obtain ⟨hdrifts, hw', hstate'⟩ := poll.remembers hp hsource ⟨hw, hstate k rfl⟩
    refine ⟨hdrifts, hw', fun st hst => ?_⟩
    rcases out with (_ | ⟨item, k'⟩) | m | _ <;> cases hst
    exact hstate' item st rfl

end Streams

/-! ## Runs -/

/-- Every tale of a call drifts, and every call has one. -/
def RetryLoop.CallsDrift (r : RetryLoop) (pace : Pace) (work : Act σ (Except ε α)) : Prop :=
  ∀ w : World σ, w.Fair → (∃ tale, Called r pace work w tale (r.run pace work w)) ∧
    ∀ tale, Called r pace work w tale (r.run pace work w) → r.policy.Drifts (Turn.waits tale.turns)

/-- Every tale of a consumer's run drifts, and every such run has one. -/
def RetryLoop.StreamsDrift (r : RetryLoop) (source : Source σ ρ (Except ε α)) (meanwhile : World σ → World σ → Prop) :
    Prop :=
  ∀ (created : Nat) (w₀ w : World σ) (items : List (Except (RetryError ε) α)) (phase : Phase (Subscription ρ ε)),
    w₀.Fair → Reads (r.poll source) meanwhile (.fresh created) w₀ items phase w →
    (∃ tale, Retells r source meanwhile (.fresh created) w₀ tale items phase w) ∧
      ∀ tale, Retells r source meanwhile (.fresh created) w₀ tale items phase w → r.policy.Drifts (Turn.waits tale.turns)

/-- The bands of whole milliseconds, and what they come to in the runs of a policy: no wait is longer than its base delay
and three times the wait before it, and none is shorter than the whole milliseconds of its base delay, unless these have
overtaken their counter. -/
theorem whole_jitter_bands (r : RetryLoop) (hp : r.policy.Decorrelated) :
    (∀ dice : Dice, dice.Fair → ∀ (base : Duration) (previous : Option Duration),
      (∃ d, Jitter.full.apply dice base previous none = .ok d ∧ d ≤ base) ∧
      ∃ d, Jitter.decorrelated.apply dice base previous none = .ok d ∧ Jitter.Drifted base previous d) ∧
    (∀ (pace : Pace) (work : Act σ (Except ε α)), work.Fair → r.CallsDrift pace work) ∧
    ∀ (source : Source σ ρ (Except ε α)) (meanwhile : World σ → World σ → Prop), source.Fair →
      (∀ w w', meanwhile w w' → w.Fair → w'.Fair) → r.StreamsDrift source meanwhile := by
  refine ⟨fun dice hd base previous => ?_, fun pace work hwork w hw => ?_, fun source meanwhile hsource hmeanwhile => ?_⟩
  · exact ⟨Jitter.full_band hd base previous, Jitter.decorrelated_band hd base previous⟩
  · exact ⟨(r.attempted pace work (.start w.now) w).trail, fun tale htale => htale.drifts hp hwork hw⟩
  · intro created w₀ w items phase hw₀ h
    exact ⟨h.retells, fun tale htale => (htale.drifts hp hsource hmeanwhile hw₀).1⟩

/-- Three failures, a tenth of a second apart at least. -/
def RetryLoop.drifting : RetryLoop := ⟨.drifting (.ofMillis 100) none, RetryPolicy.drifting_valid _ _⟩

namespace Failing

def work : Act Unit (Except TestError Nat) := pure (.error (.transient "a"))

/-- The bookkeeping after the first failure and after the second one. -/
def first : Progress TestError := (Progress.start 0).record 0 (.transient "a") (.ofMillis 200)

def second : Progress TestError := (first.beginAttempt 200000000).record 200000000 (.transient "a") (.ofMillis 350)

/-- The world at the second attempt and at the last one. -/
def again : World Unit where
  suspended := { now := 200000000 }
  log := [.retrying "drifting" 1 3 (.ofMillis 200) "transient failure: a"]
  own := ()

def last : World Unit where
  suspended := { now := 550000000 }
  log := .retrying "drifting" 2 3 (.ofMillis 350) "transient failure: a" :: again.log
  own := ()

end Failing

theorem whole_jitter_bands_drifting : ∃ tale : Tale TestError Nat,
    Called .drifting .suspended Failing.work { own := () } tale
      (RetryLoop.drifting.run .suspended Failing.work { own := () }) ∧
    Turn.waits tale.turns = [.ofMillis 200, .ofMillis 350] ∧
    RetryLoop.drifting.policy.Drifts [.ofMillis 200, .ofMillis 350] := by
  have hfair : Failing.work.Fair := (Act.fair_closed .suspended).done _
  obtain ⟨-, hdrifts⟩ := (whole_jitter_bands (ρ := Unit) RetryLoop.drifting ⟨rfl, rfl⟩).2.1 .suspended Failing.work hfair
    { own := () } fun _ => Dice.part_fair 0 1
  have hfirst : Again .drifting .suspended Failing.work (.start 0) { own := () }
      (.retried (.transient "a") (.ofMillis 200)) Failing.first Failing.again := .retry rfl rfl rfl
  have hsecond : Again .drifting .suspended Failing.work Failing.first Failing.again
      (.retried (.transient "a") (.ofMillis 350)) Failing.second Failing.last := .retry rfl rfl rfl
  obtain ⟨error, w', hlast⟩ : ∃ error w', Over .drifting .suspended Failing.work Failing.second Failing.last
      ⟨[], some error⟩ (.done (.error error)) w' := ⟨_, _, .giveUp rfl rfl⟩
  have htrail := Trail.go hfirst (.go hsecond (.halt hlast))
  have hrun : RetryLoop.drifting.run .suspended Failing.work { own := () } = (.done (.error error), w') :=
    htrail.attemptFrom_eq
  rw [hrun] at hdrifts ⊢
  exact ⟨_, htrail, rfl, hdrifts _ htrail⟩

end CallGuard

/-
Rescues of one outcome, in every shape. A stream of one outcome with an alternative of one outcome gives what the
rescued call comes to, in the same world, and then ends (`Rescue.poll_once`). Work that comes to the same whether
it is called blocking or suspended is rescued alike (`Rescue.run_sameOutcome`); scripted jobs are such work, however
long their calls take (`Job.run_sameOutcome`). Beside what holds of streams of any length, this is said of all shapes
at once in `Rescue.every_shape`.
-/
import CallGuard.Proofs.Fallback.Relay
import CallGuard.Proofs.Guard.Instant

namespace CallGuard

variable {σ ε α ρ κ : Type}

/-! ## Streams of one outcome -/

theorem Source.poll_once (x : Act σ (Except ε α)) (w : World σ) :
    (once x).poll true w = ((x w).1.map fun r => some (r, false), (x w).2) := Act.bind_pure_eq x _ w

/-- A stream of one outcome with an alternative of one outcome is a rescued call, and then ends. -/
theorem Rescue.poll_once [Fault ε] (f : Rescue) (x y : Act σ (Except ε α)) (w : World σ) :
    ∃ k, (∀ v, f.poll (Source.once x).poll (.once y) k v = (.done none, v)) ∧
      f.poll (Source.once x).poll (.once y) (.primary true) w =
        ((f.run x y w).1.map fun r => some (r, k), (f.run x y w).2) := by
  have hpoll := Source.poll_once x w
  rcases hrun : x w with ⟨(e | a) | m | _, w₁⟩ <;> simp only [hrun, Ended.map] at hpoll
  · cases haccepts : f.accepts e with
    | false =>
      refine ⟨.over, poll_over, ?_⟩
      simp only [poll_refused hpoll haccepts, run, hrun, haccepts, Bool.false_eq_true, if_false, Ended.map]
    | true =>
      refine ⟨.alternative false, fun _ => rfl, ?_⟩
      simp only [poll_accepted hpoll haccepts, run, hrun, haccepts, if_true]
      show relabel id Rescued.alternative ((Source.once y).poll true) (w₁.report (f.event e)) = _
      rw [relabel_eq, Source.poll_once]
      cases (y (w₁.report (f.event e))).1 <;> rfl
  · exact ⟨.primary false, fun _ => rfl, by simp only [poll_ok hpoll, run, hrun, Ended.map]⟩
  · exact ⟨.over, poll_over, by simp only [poll, hpoll, run, hrun, Ended.map]⟩
  · exact ⟨.over, poll_over, by simp only [poll, hpoll, run, hrun, Ended.map]⟩

/-! ## Blocking and suspended callers -/

/-- Work that comes to the same for a blocking caller and for a suspended one. -/
def SameOutcome (blocking suspended : Act σ α) : Prop :=
  ∀ v w, v.Beside w → Paired World.Beside Eq (blocking v) (suspended w)

namespace SameOutcome

variable {α β : Type}

theorem pure (a : α) : SameOutcome (Pure.pure a : Act σ α) (Pure.pure a) := fun _ _ h => .done rfl h

theorem panic (m : String) : SameOutcome (Act.panic m : Act σ α) (Act.panic m) := fun _ _ h => .panicked h

theorem modifyOwn (f : σ → α × σ) : SameOutcome (Act.modifyOwn f) (Act.modifyOwn f) := fun v w h => by
  show Paired _ _ (Ended.done (f v.own).1, { v with own := (f v.own).2 })
    (Ended.done (f w.own).1, { w with own := (f w.own).2 })
  rw [h.own]
  exact .done rfl ⟨rfl, h.dice, h.blocking, h.suspended⟩

theorem sleep (d : Duration) : SameOutcome (Act.sleep .blocking d : Act σ Unit) (Act.sleep .suspended d) := by
  intro v w h
  obtain ⟨v', w', hv, hw, hbeside⟩ := h.sleep d
  rw [hv, hw]
  exact .done rfl hbeside

theorem bind {x y : Act σ α} {f g : α → Act σ β} (h : SameOutcome x y) (hfg : ∀ a, SameOutcome (f a) (g a)) :
    SameOutcome (x >>= f) (y >>= g) := fun v w hbeside =>
  (h v w hbeside).bind fun {a _ v w} hab hbeside => by
    cases hab
    exact hfg a v w hbeside

end SameOutcome

theorem Call.sleepThrough_sameOutcome (cell : Cell σ Tally) (ds : List Duration) :
    SameOutcome (sleepThrough .blocking cell ds) (sleepThrough .suspended cell ds) := by
  induction ds with
  | nil => exact .pure ()
  | cons d rest ih => exact (SameOutcome.sleep d).bind fun _ => (SameOutcome.modifyOwn _).bind fun _ => ih

theorem Call.conclude_sameOutcome (cell : Cell σ Tally) {ending : Ending ε α} (hends : ending ≠ .never) :
    SameOutcome (conclude .blocking cell ending) (conclude .suspended cell ending) := by
  cases ending with
  | value a => exact (SameOutcome.modifyOwn _).bind fun _ => .pure _
  | failure e => exact (SameOutcome.modifyOwn _).bind fun _ => .pure _
  | panic m => exact .panic m
  | never => exact absurd rfl hends

/-- A scripted job whose calls all end, however long they take. -/
theorem Job.run_sameOutcome (script : Nat → Call ε α) (cell : Cell σ Tally) (hends : ∀ k, (script k).ending ≠ .never) :
    SameOutcome (Job.run ⟨⟨.starts, script⟩, cell⟩ .blocking) (Job.run ⟨⟨.starts, script⟩, cell⟩ .suspended) :=
  fun v w h => by
    have hrun : ∀ (pace : Pace) (u : World σ), Job.run ⟨⟨.starts, script⟩, cell⟩ pace u =
        (cell.modify Tally.begun >>= fun _ =>
          Call.sleepThrough pace cell (script ((cell.read u.own).started + 1)).pauses >>= fun _ =>
          Call.conclude pace cell (script ((cell.read u.own).started + 1)).ending) u := fun _ _ => rfl
    rw [hrun, hrun, h.own]
    exact (SameOutcome.modifyOwn _).bind (fun _ => (Call.sleepThrough_sameOutcome cell _).bind fun _ =>
      Call.conclude_sameOutcome cell (hends _)) v w h

/-- A rescue of such work. -/
theorem Rescue.run_sameOutcome [Fault ε] (f : Rescue) {work alternative work' alternative' : Act σ (Except ε α)}
    (h : SameOutcome work work') (h' : SameOutcome alternative alternative') :
    SameOutcome (f.run work alternative) (f.run work' alternative') := fun v w hbeside => by
  have hpaired := h v w hbeside
  unfold run
  rcases hwork : work v with ⟨x, v₁⟩
  rcases hwork' : work' w with ⟨x', w₁⟩
  rw [hwork, hwork'] at hpaired
  cases hpaired with
  | panicked worlds => exact .panicked worlds
  | @done r _ _ _ results worlds =>
    cases results
    cases r with
    | ok a => exact .done rfl worlds
    | error e =>
      dsimp only
      split
      · exact h' _ _ (worlds.reports [f.event e] [f.event e])
      · exact .done rfl worlds

/-! ## Every shape -/

/-- A rescue hands out the elements before the first failure, and then nothing, the failure, or all that the
alternative gives, which is asked for at most once; and on single outcomes its three shapes agree. -/
theorem Rescue.every_shape [Fault ε] (f : Rescue) (primary : Poll σ ρ (Except ε α))
    (alternative : Source σ κ (Except ε α)) :
    -- Every consumer of the stream, at whatever pace.
    (∀ (meanwhile : World σ → World σ → Prop) (p₀ : ρ) (w₀ w : World σ) (items : List (Except ε α))
        (phase : Phase (Rescued ρ κ)), Reads (f.poll primary alternative) meanwhile (.primary p₀) w₀ items phase w →
      ∃ calls ≤ 1, f.Relayed primary alternative meanwhile p₀ w₀ items phase w calls ∧
        ∀ count : σ → Nat, alternative.Counted count → (∀ p, (primary p).Adds count 0) →
          (∀ v v', meanwhile v v' → count v'.own = count v.own) → count w.own = count w₀.own + calls) ∧
    -- Streams of given lists.
    (∀ (P : World σ → Prop) (given answer : List (Except ε α)) (p : ρ), (∀ w (e : ε), P w → P (w.report (f.event e))) →
      Yields P primary given p →
      (∀ w, P w → ∃ k w', alternative.subscribe w = (.done k, w') ∧ P w' ∧ Yields P alternative.poll answer k) →
      Yields P (f.poll primary alternative) (f.relay answer given) (.primary p)) ∧
    -- Streams of one outcome and suspended calls.
    (∀ (work answer : Act σ (Except ε α)) (w : World σ), ∃ k,
      (∀ v, f.poll (Source.once work).poll (.once answer) k v = (.done none, v)) ∧
      f.poll (Source.once work).poll (.once answer) (.primary true) w =
        ((f.run work answer w).1.map fun r => some (r, k), (f.run work answer w).2)) ∧
    -- Suspended and blocking calls.
    ∀ work answer work' answer' : Act σ (Except ε α), SameOutcome work work' → SameOutcome answer answer' →
      SameOutcome (f.run work answer) (f.run work' answer') := by
  refine ⟨fun meanwhile p₀ w₀ w items phase reads => ?_, fun P given answer p hreport hprimary hanswer => ?_,
    f.poll_once, fun _ _ _ _ => f.run_sameOutcome⟩
  · obtain ⟨calls, hrelayed⟩ := reads.relayed
    exact ⟨calls, hrelayed.calls_le, hrelayed, fun _ hcount hprimary hmeanwhile =>
      hrelayed.adds hcount hprimary hmeanwhile⟩
  · exact hprimary.relay f hreport hanswer

/-! ## A feed that is lost -/

section Interrupted

open Tallies

def lost : TestError := .transient "lost"

def refusal : TestError := .permanent "no"

/-- A feed that is lost in the middle. -/
def interrupted : List (Call TestError Nat) := [⟨[.ofMillis 5], .value 1⟩, ⟨[], .failure lost⟩, ⟨[], .value 99⟩]

/-- A feed that goes on after a failure of its own. -/
def standIn : Feed TestError Nat := ⟨fun _ => [⟨[], .value 7⟩, ⟨[], .failure refusal⟩, ⟨[], .value 8⟩]⟩

/-- A job whose calls all take some time and then end alike. -/
def slowly (ending : Ending TestError Nat) : Job Tallies TestError Nat :=
  ⟨⟨.starts, fun _ => ⟨[.ofMillis 3], ending⟩⟩, jobCell⟩

def rescuing : Rescue := ⟨⟨"f", .always⟩, by decide⟩

def untold : World Tallies := { own := {} }

/-- The stand-in is subscribed to once, and its failure is handed out like its elements. -/
theorem Rescue.every_shape_interrupted :
    (∃ w, rescuing.Relayed (Feed.poll feedCell) (standIn.source feedCell) Eq interrupted untold
      [.ok 1, .ok 7, .error refusal, .ok 8] .ended w 1) ∧
    Yields (World.Patient .suspended) (rescuing.poll (Feed.poll feedCell) (standIn.source feedCell))
      [.ok 1, .ok 7, .error refusal, .ok 8] (.primary interrupted) ∧
    SameOutcome (rescuing.run ((slowly (.failure lost)).run .blocking) ((slowly (.value 7)).run .blocking))
      (rescuing.run ((slowly (.failure lost)).run .suspended) ((slowly (.value 7)).run .suspended)) := by
  obtain ⟨hreads, hlists, -, hjobs⟩ := Rescue.every_shape rescuing (Feed.poll feedCell) (standIn.source feedCell)
  refine ⟨?_, ?_, ?_⟩
  · have nothing : Reads (rescuing.poll (Feed.poll feedCell) (standIn.source feedCell)) Eq (.primary interrupted)
        untold [] (.reading (.primary interrupted)) untold := .start
    have four := (((nothing.polled rfl).polled rfl).polled rfl).polled rfl
    obtain ⟨w, all, hone⟩ : ∃ w, Reads (rescuing.poll (Feed.poll feedCell) (standIn.source feedCell)) Eq
        (.primary interrupted) untold [.ok 1, .ok 7, .error refusal, .ok 8] .ended w ∧ w.own.feed.subscribed = 1 :=
      ⟨_, four.polled rfl, rfl⟩
    obtain ⟨calls, -, hrelayed, hcount⟩ := hreads Eq interrupted untold w _ _ all
    have hcalls := hcount _ (standIn.counted feedCell_lawful) (Feed.adds_poll feedCell_lawful) fun _ _ h => by rw [h]
    cases (hone.symm.trans hcalls).trans (Nat.zero_add calls)
    exact ⟨w, hrelayed⟩
  · exact hlists (World.Patient .suspended) [.ok 1, .error lost, .ok 99] [.ok 7, .error refusal, .ok 8] interrupted
      (fun _ _ => World.patient_report) (Feed.yields feedCell rfl) fun w hw =>
        ⟨standIn.subscription 0, _, rfl, hw, Feed.yields feedCell rfl⟩
  · exact hjobs _ _ _ _ (Job.run_sameOutcome _ _ nofun) (Job.run_sameOutcome _ _ nofun)

end Interrupted

end CallGuard

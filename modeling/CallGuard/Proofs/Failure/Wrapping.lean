/-
What classifiers see of an error under any number of wrappers. A wrapper either exposes the error that
it carries or stands in its place, and keeps in both cases everything below that error visible. So the
innermost wrapper decides: if it exposes the error then every wrapping has the whole chain of the
error as its tail and keeps the verdicts, and if it stands in its place then the error's own link, and
nothing else, is lost.
-/
import CallGuard.Failure.Predicate
import CallGuard.Guard.Error
import Mathlib.Logic.Relation

namespace CallGuard

/-- An error together with its type. -/
structure Failure where
  {type : Type}
  [fault : Fault type]
  error : type

namespace Failure

attribute [instance] Failure.fault

def chain (f : Failure) : List Link := Fault.chain f.error

def sources (f : Failure) : List Link := Fault.sources f.error

def link (f : Failure) : Link := Fault.link f.error

/-- What a predicate says of the error. -/
def verdict (p : FailurePredicate) (f : Failure) : Bool := p.test f.error

end Failure

/-! ## Wrappers -/

/-- Wrappers that show the error they carry as their source. -/
inductive Exposes : Failure → Failure → Prop where
  | inner {ε : Type} [Fault ε] (e : ε) : Exposes ⟨e⟩ ⟨TimeoutError.inner e⟩
  | last {ε : Type} [Fault ε] (x : Exhausted ε) : Exposes ⟨x.last⟩ ⟨x⟩
  | guarded {ε : Type} [Fault ε] (x : Exhausted (TimeoutError ε)) : Exposes ⟨x⟩ ⟨GuardError.exhausted x⟩

/-- Wrappers that have the source of the error they carry for their own. -/
inductive StandsInFor : Failure → Failure → Prop where
  | exhausted {ε : Type} [Fault ε] (x : Exhausted ε) : StandsInFor ⟨x⟩ ⟨RetryError.exhausted x⟩
  | nonRetryable {ε : Type} [Fault ε] (e : ε) : StandsInFor ⟨e⟩ ⟨RetryError.nonRetryable e⟩
  | failed {ε : Type} [Fault ε] (e : ε) : StandsInFor ⟨e⟩ ⟨GuardError.failed e⟩

/-- One wrapper around an error. -/
def Wraps (e w : Failure) : Prop := Exposes e w ∨ StandsInFor e w

/-- Any number of wrappers around an error. -/
def Nested : Failure → Failure → Prop := Relation.ReflTransGen Wraps

/-- A link that is no test error, as every wrapper's is. -/
def Link.Plain (l : Link) : Prop := ∃ type message, l = .other type message

theorem Exposes.chain {e w : Failure} (h : Exposes e w) : ∃ l : Link, l.Plain ∧ w.chain = l :: e.chain := by
  cases h with
  | inner => exact ⟨_, ⟨_, _, rfl⟩, rfl⟩
  | last => exact ⟨_, ⟨_, _, rfl⟩, rfl⟩
  | guarded => exact ⟨_, ⟨_, _, rfl⟩, rfl⟩

theorem StandsInFor.chain {e w : Failure} (h : StandsInFor e w) :
    ∃ l : Link, l.Plain ∧ w.chain = l :: e.sources := by
  cases h with
  | exhausted => exact ⟨_, ⟨_, _, rfl⟩, rfl⟩
  | nonRetryable => exact ⟨_, ⟨_, _, rfl⟩, rfl⟩
  | failed => exact ⟨_, ⟨_, _, rfl⟩, rfl⟩

/-! ## Chains of nested errors -/

/-- One more wrapper puts one link on top, and takes off at most the link of what it carries. -/
theorem Wraps.chain {e w : Failure} (h : Wraps e w) :
    ∃ l : Link, l.Plain ∧ (w.chain = l :: e.chain ∨ w.chain = l :: e.chain.tail) := by
  rcases h with h | h
  · obtain ⟨l, hl, hc⟩ := h.chain
    exact ⟨l, hl, .inl hc⟩
  · obtain ⟨l, hl, hc⟩ := h.chain
    exact ⟨l, hl, .inr hc⟩

/-- Further wrappers around a wrapper leave what is below it. -/
theorem Nested.chain {m w : Failure} {below : List Link} (h : Nested m w) :
    (∃ l : Link, l.Plain ∧ m.chain = l :: below) →
      ∃ top : List Link, (∀ l ∈ top, l.Plain) ∧ top ≠ [] ∧ w.chain = top ++ below := by
  rintro ⟨l, hl, hm⟩
  induction h with
  | refl => exact ⟨[l], by simpa using hl, by simp, hm⟩
  | tail _ hw ih =>
    obtain ⟨top, htop, hne, hc⟩ := ih
    obtain ⟨l', hl', hc' | hc'⟩ := hw.chain
    · refine ⟨l' :: top, ?_, by simp, by rw [hc', hc]; rfl⟩
      simpa using ⟨hl', htop⟩
    · refine ⟨l' :: top.tail, ?_, by simp, ?_⟩
      · simpa using ⟨hl', fun l hl => htop l (List.mem_of_mem_tail hl)⟩
      · rw [hc', hc, List.tail_append_of_ne_nil hne]; rfl

/-- An error that no wrapper stands in for right away: it is bare, or its own wrapper exposes it. -/
def Shown (e w : Failure) : Prop := e = w ∨ ∃ m, Exposes e m ∧ Nested m w

/-- An error whose own wrapper stands in its place. -/
def Replaced (e w : Failure) : Prop := ∃ m, StandsInFor e m ∧ Nested m w

theorem Nested.shown_or_replaced {e w : Failure} (h : Nested e w) : Shown e w ∨ Replaced e w := by
  rcases Relation.ReflTransGen.cases_head h with rfl | ⟨m, hm | hm, hw⟩
  · exact .inl (.inl rfl)
  · exact .inl (.inr ⟨m, hm, hw⟩)
  · exact .inr ⟨m, hm, hw⟩

theorem Shown.chain {e w : Failure} (h : Shown e w) :
    ∃ top : List Link, (∀ l ∈ top, l.Plain) ∧ w.chain = top ++ e.chain := by
  rcases h with rfl | ⟨m, hm, hw⟩
  · exact ⟨[], by simp, rfl⟩
  · obtain ⟨top, htop, -, hc⟩ := hw.chain hm.chain
    exact ⟨top, htop, hc⟩

theorem Replaced.chain {e w : Failure} (h : Replaced e w) :
    ∃ top : List Link, (∀ l ∈ top, l.Plain) ∧ w.chain = top ++ e.sources := by
  obtain ⟨m, hm, hw⟩ := h
  obtain ⟨top, htop, -, hc⟩ := hw.chain hm.chain
  exact ⟨top, htop, hc⟩

/-- In every nesting the sources of the error are the end of the chain. -/
theorem Nested.sources {e w : Failure} (h : Nested e w) : ∃ top : List Link, w.chain = top ++ e.sources := by
  rcases h.shown_or_replaced with hs | hr
  · obtain ⟨top, -, hc⟩ := hs.chain
    exact ⟨top ++ [e.link], by rw [hc, List.append_assoc]; rfl⟩
  · obtain ⟨top, -, hc⟩ := hr.chain
    exact ⟨top, hc⟩

/-! ## Verdicts -/

namespace FailurePredicate

theorem withCause_iff (type : ErrorType) (f : Failure) :
    f.verdict (withCause type) = true ↔ ∃ l ∈ f.chain, l.type = type := by
  show (f.chain.any fun l => l.type == type) = true ↔ _
  simp

/-- Plain links on top do not change which test error is met first. -/
theorem firstTestError_append {top : List Link} (below : List Link) (h : ∀ l ∈ top, l.Plain) :
    firstTestError (top ++ below) = firstTestError below := by
  induction top with
  | nil => rfl
  | cons l top ih =>
    obtain ⟨type, message, rfl⟩ := h l (by simp)
    exact ih fun l hl => h l (by simp [hl])

theorem transient_verdict (f : Failure) :
    f.verdict transient = ((firstTestError f.chain).map TestError.isTransient).getD false := rfl

end FailurePredicate

open FailurePredicate

theorem Nested.firstTestError_eq {e w : Failure} (h : Nested e w) (hkept : Shown e w ∨ e.link.Plain) :
    firstTestError w.chain = firstTestError e.chain := by
  by_cases hs : Shown e w
  · obtain ⟨top, htop, hc⟩ := hs.chain
    rw [hc, firstTestError_append _ htop]
  · obtain ⟨top, htop, hc⟩ := (h.shown_or_replaced.resolve_left hs).chain
    have hl : ∀ l ∈ [e.link], l.Plain := List.forall_mem_singleton.2 (hkept.resolve_left hs)
    calc firstTestError w.chain = firstTestError e.sources := by rw [hc, firstTestError_append _ htop]
      _ = firstTestError e.chain := (firstTestError_append e.sources hl).symm

/-- Wrapping an error, in any nesting, keeps everything below it visible, and keeps the error itself
visible unless its own wrapper stands in its place. So every cause that is found below the error or in
a shown one is found again, transience is judged as before if the error is shown or is no test error,
and a replaced error has lost its own link and nothing else. -/
theorem nested_verdicts {e w : Failure} (h : Nested e w) :
    (∀ type, e.verdict (withCause type) = true → Shown e w ∨ (∃ l ∈ e.sources, l.type = type) →
      w.verdict (withCause type) = true) ∧
    (Shown e w ∨ e.link.Plain → w.verdict transient = e.verdict transient) ∧
    (¬ Shown e w → ∃ top : List Link, (∀ l ∈ top, l.Plain) ∧ w.chain = top ++ e.sources) := by
  refine ⟨?_, ?_, fun hs => (h.shown_or_replaced.resolve_left hs).chain⟩
  · rintro type he (hs | ⟨l, hl, ht⟩)
    · obtain ⟨top, -, hc⟩ := hs.chain
      obtain ⟨l, hl, ht⟩ := (withCause_iff type e).1 he
      exact (withCause_iff type w).2 ⟨l, by rw [hc]; exact List.mem_append_right _ hl, ht⟩
    · obtain ⟨top, hc⟩ := h.sources
      exact (withCause_iff type w).2 ⟨l, by rw [hc]; exact List.mem_append_right _ hl, ht⟩
  · intro hkept
    rw [transient_verdict, transient_verdict, h.firstTestError_eq hkept]

/-- A failure that may pass, in the history of a guarded call that was itself not worth another
attempt: shown through four wrappers. -/
theorem nested_verdicts_history :
    let e : Failure := ⟨TestError.transient "busy"⟩
    let w : Failure := ⟨RetryError.nonRetryable (GuardError.exhausted
      ⟨"r", [⟨1, .inner (TestError.transient "busy"), .zero⟩], .zero, by simp⟩)⟩
    Nested e w ∧ w.verdict (withCause .test) = true ∧ w.verdict transient = true := by
  intro e w
  have hlast := Exposes.last ⟨"r", [⟨1, TimeoutError.inner (TestError.transient "busy"), .zero⟩], .zero, by simp⟩
  have hm : Nested ⟨TimeoutError.inner (TestError.transient "busy")⟩ w :=
    .head (.inl hlast) (.head (.inl (.guarded _)) (.single (.inr (.nonRetryable _))))
  have h : Nested e w := .head (.inl (.inner _)) hm
  have hs : Shown e w := .inr ⟨_, .inner _, hm⟩
  have := nested_verdicts h
  exact ⟨h, this.1 .test rfl (.inl hs), (this.2.1 (.inl hs)).trans rfl⟩

/-- A wrapper that stands in the place of an error hides it: the failure may pass and is a test error,
and neither is seen any more. -/
theorem nonRetryable_hides :
    let e : Failure := ⟨TestError.transient "busy"⟩
    let w : Failure := ⟨RetryError.nonRetryable (TestError.transient "busy")⟩
    Nested e w ∧ e.verdict (withCause .test) = true ∧ w.verdict (withCause .test) = false ∧
      e.verdict transient = true ∧ w.verdict transient = false :=
  ⟨.single (.inr (.nonRetryable _)), rfl, rfl, rfl, rfl⟩

end CallGuard

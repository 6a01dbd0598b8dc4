/-
The registry is installed once and for good, whoever the callers are and however their steps are interleaved: the
first built registry that is offered to the slot stays there, its caller alone is told that it was installed, and every
lookup after that offer answers as that registry does (`Slot.installed_once`).

A caller that installs takes three steps, and others may go on between them: it builds, it offers what it has built, and
it tells from what is left of its candidate whether that was taken. The invariant (`Kept`) says what a caller that is
between the last two steps has seen; offers are numbered, and only the offer with number zero leaves nothing. The install
that the program runs takes its steps without others in between (`Interleaved.install`).
-/
import CallGuard.Proofs.Registry.Build
import Mathlib.Logic.Function.Basic

namespace CallGuard

/-! ## What a lookup asks of a registry -/

/-- An executor of some family. -/
inductive Executor where
  | timeLimit (executor : TimeLimit)
  | retryLoop (executor : RetryLoop)
  | rescue (executor : Rescue)

/-- The executor of a family and a name. -/
def Registry.lookup (r : Registry) (kind : PolicyKind) (name : String) : Except ConfigError Executor :=
  match kind with
  | .timeout => (r.timeLimit name).map .timeLimit
  | .retry => (r.retryLoop name).map .retryLoop
  | .fallback => (r.rescue name).map .rescue

namespace Slot

variable {ι : Type}

/-! ## Callers and their histories -/

/-- Where a caller stands. -/
inductive Caller where
  | idle
  /-- It has built a registry that it is about to offer. -/
  | holding (r : Registry)
  /-- It has made the offer of this number, and knows what is installed and what is left of its candidate. -/
  | back (number : Nat) (installed : Registry) (left : Option Registry)

/-- What a caller does, with the answer that it gets. -/
inductive Deed where
  /-- An install ends with the failure of its build. -/
  | refused (error : ConfigError)
  | built (r : Registry)
  | offered (r : Registry)
  /-- The install that made the offer of this number ends. -/
  | answered (number : Nat) (result : Except ConfigError Registry)
  /-- A lookup through the slot; there is no answer while nothing is installed. -/
  | looked (kind : PolicyKind) (name : String) (answer : Option (Except ConfigError Executor))

namespace Deed

/-- The registry of an offer. -/
def offer? : Deed → Option Registry
  | .offered r => some r
  | _ => none

/-- The number of an offer of which the install ends. -/
def answer? : Deed → Option Nat
  | .answered n _ => some n
  | _ => none

end Deed

/-- What callers have done, oldest first. -/
abbrev History (ι : Type) : Type := List (ι × Deed)

namespace History

/-- The registries that were offered, with those who offered them, by their numbers. -/
def offers (hs : History ι) : List (ι × Registry) :=
  hs.filterMap fun (i, d) => d.offer?.map ((i, ·))

/-- The numbers of the offers of which the installs have ended. -/
def ended (hs : History ι) : List Nat := hs.filterMap fun (_, d) => d.answer?

/-- The registry that was offered first. -/
def first (hs : History ι) : Option Registry := (offers hs).head?.map Prod.snd

end History

/-- The histories of callers that take their steps in any order, with where they stand afterwards and the slot. -/
inductive Interleaved [DecidableEq ι] : History ι → (ι → Caller) → Slot → Prop where
  | start : Interleaved [] (fun _ => .idle) {}
  | refuse {hs : History ι} {callers : ι → Caller} {slot : Slot} {i : ι} {e : ConfigError} (ds : List Declaration)
      (h : Interleaved hs callers slot) (idle : callers i = .idle) (fails : (Blueprint.ofList ds).build = .error e) :
      Interleaved (hs ++ [(i, .refused e)]) callers slot
  | build {hs : History ι} {callers : ι → Caller} {slot : Slot} {i : ι} {r : Registry} (ds : List Declaration)
      (h : Interleaved hs callers slot) (idle : callers i = .idle) (succeeds : (Blueprint.ofList ds).build = .ok r) :
      Interleaved (hs ++ [(i, .built r)]) (Function.update callers i (.holding r)) slot
  | offer {hs : History ι} {callers : ι → Caller} {slot slot' : Slot} {i : ι} {r installed : Registry}
      {left : Option Registry} (h : Interleaved hs callers slot) (holding : callers i = .holding r)
      (offer : slot.getOrInit take (some r) = (installed, left, slot')) :
      Interleaved (hs ++ [(i, .offered r)])
        (Function.update callers i (.back hs.offers.length installed left)) slot'
  | answer {hs : History ι} {callers : ι → Caller} {slot : Slot} {i : ι} {n : Nat} {installed : Registry}
      {left : Option Registry} (h : Interleaved hs callers slot) (back : callers i = .back n installed left) :
      Interleaved (hs ++ [(i, .answered n (verdict installed left))]) (Function.update callers i .idle) slot
  | look {hs : History ι} {callers : ι → Caller} {slot : Slot} {i : ι} (kind : PolicyKind) (name : String)
      (h : Interleaved hs callers slot) (idle : callers i = .idle) :
      Interleaved (hs ++ [(i, .looked kind name (slot.installed.map (·.lookup kind name)))]) callers slot

/-! ## What the answers say -/

/-- A deed of a caller agrees with what was done before it. -/
def Justified (earlier : History ι) (i : ι) : Deed → Prop
  | .refused e => ∃ ds, (Blueprint.ofList ds).build = .error e
  | .built r | .offered r => ∃ ds, (Blueprint.ofList ds).build = .ok r
  /- The install that offered first comes to its own registry, and every other one to a refusal; none ends twice. -/
  | .answered n result => n ∉ earlier.ended ∧
    ∃ r, earlier.offers[n]? = some (i, r) ∧ result = if n = 0 then .ok r else .error .alreadyInstalled
  /- Nothing is found before the first offer, and from then on what was offered first. -/
  | .looked kind name answer => answer = earlier.first.map (·.lookup kind name)

/-- Every deed of a history agrees with what was done before it. -/
inductive Truthful : History ι → Prop where
  | nil : Truthful []
  | concat {hs : History ι} {i : ι} {d : Deed} (h : Truthful hs) (justified : Justified hs i d) :
      Truthful (hs ++ [(i, d)])

/-! ## Offers -/

namespace History

variable (hs : History ι) (i : ι)

theorem offers_offered (r : Registry) : offers (hs ++ [(i, .offered r)]) = hs.offers ++ [(i, r)] := by
  rw [offers, List.filterMap_append]
  rfl

theorem ended_answered (n : Nat) (result : Except ConfigError Registry) :
    ended (hs ++ [(i, .answered n result)]) = hs.ended ++ [n] := by
  rw [ended, List.filterMap_append]
  rfl

/-- All deeds but offers leave the offers as they are. -/
theorem offers_concat {d : Deed} (h : d.offer? = none) : offers (hs ++ [(i, d)]) = hs.offers := by
  simp only [offers, List.filterMap_append, List.filterMap_cons, h, Option.map_none, List.filterMap_nil,
    List.append_nil]

/-- All deeds but the ends of installs leave the installs that have ended as they are. -/
theorem ended_concat {d : Deed} (h : d.answer? = none) : ended (hs ++ [(i, d)]) = hs.ended := by
  simp only [ended, List.filterMap_append, List.filterMap_cons, h, List.filterMap_nil, List.append_nil]

theorem first_concat {d : Deed} (h : d.offer? = none) : first (hs ++ [(i, d)]) = hs.first := by
  rw [first, offers_concat hs i h, first]

/-- What was offered first stays the first. -/
theorem first_offered (r : Registry) : first (hs ++ [(i, .offered r)]) = some (hs.first.getD r) := by
  rw [first, offers_offered, first]
  cases hs.offers <;> rfl

theorem first_eq_none : hs.first = none ↔ hs.offers.length = 0 := by
  rw [first, Option.map_eq_none_iff, List.head?_eq_none_iff, List.length_eq_zero_iff]

end History

/-- An offer to the slot: the first one is installed, and what is left of a candidate tells whether it was. -/
theorem getOrInit_take (s : Slot) (r : Registry) : s.getOrInit take (some r) =
    (s.installed.getD r, if s.installed.isSome then some r else none, ⟨some (s.installed.getD r)⟩) := by
  obtain ⟨_ | installed⟩ := s <;> rfl

/-! ## Moving callers -/

section Moves

variable [DecidableEq ι] {callers : ι → Caller} {i j : ι} {c d : Caller}

/-- When one caller moves on, the others stay where they are. -/
theorem update_eq_iff : Function.update callers i c j = d ↔ (j = i ∧ c = d) ∨ (j ≠ i ∧ callers j = d) := by
  by_cases hji : j = i
  · subst hji
    rw [Function.update_self]
    simp
  · rw [Function.update_of_ne hji]
    simp [hji]

/-- Who is not where a caller is known to stand is another one. -/
theorem update_of_apart (hi : callers i ≠ d) (hj : callers j = d) : Function.update callers i c j = d := by
  refine update_eq_iff.2 (.inr ⟨?_, hj⟩)
  rintro rfl
  exact hi hj

end Moves

/-! ## The invariant -/

/-- What the callers and the slot know of the history. -/
structure Kept (hs : History ι) (callers : ι → Caller) (slot : Slot) : Prop where
  installed : slot.installed = hs.first
  holding : ∀ i r, callers i = .holding r → ∃ ds, (Blueprint.ofList ds).build = .ok r
  /-- A caller that is back from the slot has seen the first registry there, and its candidate is left unless it was the
  first. Its install has not ended. -/
  back : ∀ i n installed left, callers i = .back n installed left → n ∉ hs.ended ∧ hs.first = some installed ∧
    ∃ r, hs.offers[n]? = some (i, r) ∧ left = if n = 0 then none else some r
  /-- Installs that have not ended are in the middle. -/
  pending : ∀ n, n < hs.offers.length → n ∈ hs.ended ∨ ∃ i installed left, callers i = .back n installed left
  ended : ∀ n ∈ hs.ended, n < hs.offers.length

theorem kept_start : Kept ([] : History ι) (fun _ => .idle) {} :=
  ⟨rfl, nofun, nofun, fun _ h => absurd h (Nat.not_lt_zero _), nofun⟩

namespace Kept

variable {hs : History ι} {callers : ι → Caller} {slot : Slot} {i : ι}

/-- A caller that is back and the number of its offer belong together. -/
theorem caller_unique (h : Kept hs callers slot) {j : ι} {n : Nat} {a b : Registry} {l m : Option Registry}
    (hi : callers i = .back n a l) (hj : callers j = .back n b m) : i = j := by
  obtain ⟨-, -, r, hr, -⟩ := h.back i n a l hi
  obtain ⟨-, -, r', hr', -⟩ := h.back j n b m hj
  rw [hr] at hr'
  cases hr'
  rfl

/-- Failed builds, builds and lookups are neither offers nor ends of installs. -/
theorem concat (h : Kept hs callers slot) {d : Deed} (hoffer : d.offer? = none) (hanswer : d.answer? = none) :
    Kept (hs ++ [(i, d)]) callers slot := by
  constructor
  · rw [History.first_concat hs i hoffer]
    exact h.installed
  · exact h.holding
  · rw [History.ended_concat hs i hanswer, History.first_concat hs i hoffer, History.offers_concat hs i hoffer]
    exact h.back
  · rw [History.ended_concat hs i hanswer, History.offers_concat hs i hoffer]
    exact h.pending
  · rw [History.ended_concat hs i hanswer, History.offers_concat hs i hoffer]
    exact h.ended

variable [DecidableEq ι]

theorem hold (h : Kept hs callers slot) (idle : callers i = .idle) {r : Registry} {ds : List Declaration}
    (succeeds : (Blueprint.ofList ds).build = .ok r) : Kept hs (Function.update callers i (.holding r)) slot := by
  constructor
  · exact h.installed
  · intro j r' hj
    rcases update_eq_iff.1 hj with ⟨rfl, hr⟩ | ⟨-, hj⟩
    · cases hr
      exact ⟨ds, succeeds⟩
    · exact h.holding j r' hj
  · intro j n installed left hj
    rcases update_eq_iff.1 hj with ⟨-, hr⟩ | ⟨-, hj⟩
    · cases hr
    · exact h.back j n installed left hj
  · intro n hn
    rcases h.pending n hn with hended | ⟨j, installed, left, hj⟩
    · exact .inl hended
    · exact .inr ⟨j, installed, left, update_of_apart (by rw [idle]; exact Caller.noConfusion) hj⟩
  · exact h.ended

/-- The next offer. The slot is empty exactly if there was none before. -/
theorem offer (h : Kept hs callers slot) {r installed : Registry} {left : Option Registry} {slot' : Slot}
    (holding : callers i = .holding r) (hoffer : slot.getOrInit take (some r) = (installed, left, slot')) :
    Kept (hs ++ [(i, .offered r)]) (Function.update callers i (.back hs.offers.length installed left)) slot' := by
  rw [getOrInit_take, h.installed] at hoffer
  cases hoffer
  have hnew : hs.offers.length ∉ hs.ended := fun hmem => absurd (h.ended _ hmem) (Nat.lt_irrefl _)
  have hended : History.ended (hs ++ [(i, .offered r)]) = hs.ended := History.ended_concat hs i rfl
  constructor
  · exact (hs.first_offered i r).symm
  · intro j r' hj
    rcases update_eq_iff.1 hj with ⟨-, hr⟩ | ⟨-, hj⟩
    · cases hr
    · exact h.holding j r' hj
  · rw [hended, History.first_offered, History.offers_offered]
    intro j n installed left hj
    rcases update_eq_iff.1 hj with ⟨rfl, hr⟩ | ⟨-, hj⟩
    · cases hr
      refine ⟨hnew, rfl, r, List.getElem?_concat_length, ?_⟩
      -- Something is left of the candidate exactly if there was an offer before.
      cases hfirst : hs.first with
      | none => rw [if_pos ((History.first_eq_none hs).1 hfirst)]; rfl
      | some first =>
        have hlength : hs.offers.length ≠ 0 := fun hzero => by
          rw [(History.first_eq_none hs).2 hzero] at hfirst
          cases hfirst
        rw [if_neg hlength]
        rfl
    · obtain ⟨hn, hfirst, r', hr', hleft⟩ := h.back j n installed left hj
      have hlt : n < hs.offers.length := (List.getElem?_eq_some_iff.1 hr').1
      refine ⟨hn, by rw [hfirst]; rfl, r', ?_, hleft⟩
      rw [List.getElem?_append_left hlt]
      exact hr'
  · rw [hended, History.offers_offered, List.length_append, List.length_singleton]
    intro n hn
    by_cases hlast : n = hs.offers.length
    · subst hlast
      exact .inr ⟨i, _, _, Function.update_self ..⟩
    · rcases h.pending n (by omega) with hended | ⟨j, installed, left, hj⟩
      · exact .inl hended
      · exact .inr ⟨j, installed, left, update_of_apart (by rw [holding]; exact Caller.noConfusion) hj⟩
  · rw [hended, History.offers_offered, List.length_append]
    intro n hn
    exact Nat.lt_add_right _ (h.ended n hn)

/-- The end of an install. -/
theorem answer (h : Kept hs callers slot) {n : Nat} {installed : Registry} {left : Option Registry}
    {result : Except ConfigError Registry} (back : callers i = .back n installed left) :
    Kept (hs ++ [(i, .answered n result)]) (Function.update callers i .idle) slot := by
  obtain ⟨-, -, r, hr, -⟩ := h.back i n installed left back
  have hoffers : History.offers (hs ++ [(i, .answered n result)]) = hs.offers := History.offers_concat hs i rfl
  have hfirst : History.first (hs ++ [(i, .answered n result)]) = hs.first := History.first_concat hs i rfl
  constructor
  · rw [hfirst]
    exact h.installed
  · intro j r' hj
    rcases update_eq_iff.1 hj with ⟨-, hr⟩ | ⟨-, hj⟩
    · cases hr
    · exact h.holding j r' hj
  · rw [hoffers, hfirst, History.ended_answered]
    intro j m installed' left' hj
    rcases update_eq_iff.1 hj with ⟨-, hr⟩ | ⟨hji, hj⟩
    · cases hr
    · obtain ⟨hm, hrest⟩ := h.back j m installed' left' hj
      refine ⟨fun hmem => ?_, hrest⟩
      rcases List.mem_append.1 hmem with hmem | hmem
      · exact hm hmem
      · -- Another caller has made another offer.
        obtain rfl := List.mem_singleton.1 hmem
        exact hji (h.caller_unique hj back)
  · rw [hoffers, History.ended_answered]
    intro m hm
    rcases h.pending m hm with hended | ⟨j, installed', left', hj⟩
    · exact .inl (List.mem_append_left _ hended)
    · by_cases hji : j = i
      · subst hji
        rw [back] at hj
        cases hj
        exact .inl (List.mem_append_right _ (List.mem_singleton_self _))
      · exact .inr ⟨j, installed', left', update_eq_iff.2 (.inr ⟨hji, hj⟩)⟩
  · rw [hoffers, History.ended_answered]
    intro m hm
    rcases List.mem_append.1 hm with hm | hm
    · exact h.ended m hm
    · obtain rfl := List.mem_singleton.1 hm
      exact (List.getElem?_eq_some_iff.1 hr).1

end Kept

/-! ## All steps -/

variable {hs : History ι} {callers : ι → Caller} {slot : Slot}

/-- What is told at the end of an install follows from what its caller has seen at the slot. -/
theorem Kept.justified (h : Kept hs callers slot) {i : ι} {n : Nat} {installed : Registry} {left : Option Registry}
    (back : callers i = .back n installed left) : Justified hs i (.answered n (verdict installed left)) := by
  obtain ⟨hnew, hfirst, r, hr, hleft⟩ := h.back i n installed left back
  refine ⟨hnew, r, hr, ?_⟩
  by_cases hn : n = 0
  · subst hn
    -- Its own registry is the one at the slot, as that is what was offered first.
    have hown : installed = r := by
      rw [History.first, List.head?_eq_getElem?, hr] at hfirst
      exact (Option.some.inj hfirst).symm
    rw [hleft, if_pos rfl, if_pos rfl, hown]
    rfl
  · rw [hleft, if_neg hn, if_neg hn]
    rfl

variable [DecidableEq ι]

theorem Interleaved.kept (h : Interleaved hs callers slot) : Kept hs callers slot := by
  induction h with
  | start => exact kept_start
  | refuse ds h idle fails ih => exact ih.concat rfl rfl
  | build ds h idle succeeds ih => exact (ih.concat rfl rfl).hold idle succeeds
  | offer h holding offer ih => exact ih.offer holding offer
  | answer h back ih => exact ih.answer back
  | look kind name h idle ih => exact ih.concat rfl rfl

theorem Interleaved.truthful (h : Interleaved hs callers slot) : Truthful hs := by
  induction h with
  | start => exact .nil
  | refuse ds h idle fails ih => exact ih.concat ⟨ds, fails⟩
  | build ds h idle succeeds ih => exact ih.concat ⟨ds, succeeds⟩
  | offer h holding offer ih => exact ih.concat (h.kept.holding _ _ holding)
  | answer h back ih => exact ih.concat (h.kept.justified back)
  | look kind name h idle ih => exact ih.concat (by rw [Justified, h.kept.installed])

/-- An install without interruption is one interleaving of its steps. -/
theorem Interleaved.install (h : Interleaved hs callers slot) {i : ι} {r : Registry} (ds : List Declaration)
    (idle : callers i = .idle) (succeeds : (Blueprint.ofList ds).build = .ok r) :
    Interleaved (hs ++ [(i, .built r)] ++ [(i, .offered r)] ++ [(i, .answered hs.offers.length (slot.install r).1)])
      callers (slot.install r).2 := by
  have hback := ((h.build ds idle succeeds).offer (Function.update_self ..) rfl).answer (Function.update_self ..)
  rw [History.offers_concat hs i rfl, Function.update_idem, Function.update_idem, ← idle,
    Function.update_eq_self] at hback
  exact hback

/-- What an install without interruption answers, and what it leaves at the slot. -/
theorem Interleaved.install_eq (h : Interleaved hs callers slot) (r : Registry) :
    slot.install r = if hs.first = none then (.ok r, ⟨some r⟩) else (.error .alreadyInstalled, slot) := by
  rw [Slot.install, getOrInit_take, ← h.kept.installed]
  obtain ⟨_ | installed⟩ := slot <;> rfl

/-- However the steps of any number of callers are interleaved, what the slot holds is the registry that was offered
first; every answer that anyone gets is the one of `Justified`; and every install that has made its offer has ended,
or its caller is about to end it. An install that nobody interrupts is one of these: the first one installs its registry
and is told so, and any later one is refused and changes nothing. -/
theorem installed_once (h : Interleaved hs callers slot) : slot.installed = hs.first ∧ Truthful hs ∧
    (∀ n < hs.offers.length, n ∈ hs.ended ∨ ∃ i installed left, callers i = .back n installed left) ∧
    (∀ i r ds, callers i = .idle → (Blueprint.ofList ds).build = .ok r →
      Interleaved (hs ++ [(i, .built r)] ++ [(i, .offered r)] ++ [(i, .answered hs.offers.length (slot.install r).1)])
        callers (slot.install r).2) ∧
    ∀ r, slot.install r = if hs.first = none then (.ok r, ⟨some r⟩) else (.error .alreadyInstalled, slot) :=
  ⟨h.kept.installed, h.truthful, h.kept.pending, fun _ _ ds idle succeeds => h.install ds idle succeeds, h.install_eq⟩

/-- Of two callers that both have a registry, the one that offers first is the last to hear of it. In the meantime the
other one is refused, fails to build another registry, and finds an executor. -/
def overtaken (r r' : Registry) : History Bool :=
  [(false, .looked .retry "db" none), (true, .built r), (false, .built r'), (true, .offered r), (false, .offered r'),
    (false, .answered 1 (.error .alreadyInstalled)), (false, .refused (.unknownPredicate "db" "flaky")),
    (false, .looked .retry "db" (some (r.lookup .retry "db"))), (true, .answered 0 (.ok r))]

/-- An install by itself comes first, and one by itself comes too late. -/
theorem installed_once_overtaken : ∃ r callers, (Blueprint.ofList Blueprint.deferred).build = .ok r ∧
    Interleaved [(true, .built r), (true, .offered r), (true, .answered 0 (.ok r))] (fun _ => .idle) ⟨some r⟩ ∧
    Interleaved (overtaken r {}) callers ⟨some r⟩ ∧ (∀ i, callers i = .idle) ∧ (overtaken r {}).first = some r ∧
    Truthful (overtaken r {}) ∧ Slot.install ⟨some r⟩ {} = (.error .alreadyInstalled, ⟨some r⟩) ∧
    Interleaved (overtaken r {} ++ [(false, .built {})] ++ [(false, .offered {})] ++
      [(false, .answered 2 (.error .alreadyInstalled))]) callers ⟨some r⟩ := by
  have hbuild : ∃ r, (Blueprint.ofList Blueprint.deferred).build = .ok r := ⟨_, rfl⟩
  obtain ⟨r, hr⟩ := hbuild
  have empty : (Blueprint.ofList []).build = .ok {} := rfl
  have fails : (Blueprint.ofList (Blueprint.deferred.take 1)).build = .error (.unknownPredicate "db" "flaky") := rfl
  have alone := (installed_once (Interleaved.start (ι := Bool))).2.2.2.1 true r _ rfl hr
  have both := (((Interleaved.start.look (i := false) .retry "db" rfl).build (i := true) _ rfl hr).build (i := false) _
    rfl empty)
  have offered := (both.offer (i := true) (r := r) rfl rfl).offer (i := false) (r := {}) rfl rfl
  have refused := ((offered.answer (i := false) rfl).refuse (i := false) _ rfl fails).look (i := false) .retry "db" rfl
  have h : Interleaved (overtaken r {}) _ ⟨some r⟩ := refused.answer (i := true) rfl
  obtain ⟨hfirst, htruthful, -, hinstall, heq⟩ := installed_once h
  have late : Slot.install ⟨some r⟩ {} = (.error .alreadyInstalled, ⟨some r⟩) := heq {}
  have after := hinstall false {} [] rfl empty
  rw [late] at after
  exact ⟨r, _, hr, alone, h, Bool.forall_bool.2 ⟨rfl, rfl⟩, hfirst.symm, htruthful, late, after⟩

end Slot

end CallGuard

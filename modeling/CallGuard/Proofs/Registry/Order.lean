/-
The order of declarations does not matter, as long as no two predicates are registered under one name: a
list declares the same policies in every order (`DeclaresRetry.perm` and its siblings), so it is in order
whenever one of its orders is (`Sound.perm`), and the registry is told by what is declared (`Built.unique`).
Of two predicates of one name the later one counts, which is the only place where the order is looked at.
-/
import CallGuard.Proofs.Registry.Build

namespace CallGuard

/-! ## Predicates that are registered once -/

/-- The name under which a declaration registers a predicate. -/
def Declaration.predicateName? : Declaration → Option String
  | .predicate name _ => some name
  | .timeout _ | .retry _ | .fallback _ | .config _ => none

/-- No two predicates are registered under the same name. -/
def PredicatesOnce (ds : List Declaration) : Prop := (ds.filterMap Declaration.predicateName?).Nodup

theorem PredicatesOnce.perm {ds ds' : List Declaration} (once : PredicatesOnce ds) (h : ds.Perm ds') :
    PredicatesOnce ds' := (h.filterMap _).nodup_iff.1 once

/-- What is registered once stands for its name wherever it is. -/
theorem PredicatesOnce.registered {ds : List Declaration} (once : PredicatesOnce ds) {name : String}
    {p : FailurePredicate} : Registered ds name p ↔ .predicate name p ∈ ds := by
  refine ⟨Registered.mem, fun h => ?_⟩
  obtain ⟨before, after, rfl⟩ := List.append_of_mem h
  refine ⟨before, after, rfl, fun q hq => ?_⟩
  rw [PredicatesOnce, List.filterMap_append] at once
  have hafter : name ∉ after.filterMap Declaration.predicateName? :=
    (List.nodup_cons.1 (List.nodup_append.1 once).2.1).1
  exact hafter (List.mem_filterMap.2 ⟨_, hq, rfl⟩)

/-! ## The same list in another order -/

section Reordered

variable {ds ds' : List Declaration}

theorem Registered.perm (once : PredicatesOnce ds) (h : ds.Perm ds') {name : String} {p : FailurePredicate}
    (hp : Registered ds name p) : Registered ds' name p :=
  (once.perm h).registered.2 (h.mem_iff.1 hp.mem)

theorem Binds.perm (once : PredicatesOnce ds) (h : ds.Perm ds') {reference : Option String} {p : FailurePredicate}
    (hp : Binds ds reference p) : Binds ds' reference p := by
  cases hp with
  | absent => exact .absent
  | named last => exact .named (last.perm once h)

theorem DeclaresTimeout.perm (h : ds.Perm ds') {p : TimeoutPolicy} (hp : DeclaresTimeout ds p) :
    DeclaresTimeout ds' p := by
  cases hp with
  | code hp => exact .code (h.mem_iff.1 hp)
  | config hc entry duration => exact .config (h.mem_iff.1 hc) entry duration

theorem DeclaresRetry.perm (once : PredicatesOnce ds) (h : ds.Perm ds') {p : RetryPolicy} (hp : DeclaresRetry ds p) :
    DeclaresRetry ds' p := by
  cases hp with
  | code hp => exact .code (h.mem_iff.1 hp)
  | config hc entry binds => exact .config (h.mem_iff.1 hc) entry (binds.perm once h)

theorem DeclaresFallback.perm (once : PredicatesOnce ds) (h : ds.Perm ds') {p : FallbackPolicy}
    (hp : DeclaresFallback ds p) : DeclaresFallback ds' p := by
  cases hp with
  | code hp => exact .code (h.mem_iff.1 hp)
  | config hc entry binds => exact .config (h.mem_iff.1 hc) entry (binds.perm once h)

theorem declaredNames_perm (kind : PolicyKind) (h : ds.Perm ds') : (declaredNames kind ds).Perm (declaredNames kind ds') :=
  h.flatMap_right _

theorem Sound.perm (once : PredicatesOnce ds) (h : ds.Perm ds') (hs : Sound ds) : Sound ds' where
  timeouts c hc := hs.timeouts c (h.mem_iff.2 hc)
  retries p hp := hs.retries p (hp.perm (once.perm h) h.symm)
  fallbacks p hp := hs.fallbacks p (hp.perm (once.perm h) h.symm)
  predicates c hc policy name hr := by
    obtain ⟨p, hp⟩ := hs.predicates c (h.mem_iff.2 hc) policy name hr
    exact ⟨p, h.mem_iff.1 hp⟩
  distinct kind := (declaredNames_perm kind h).nodup_iff.1 (hs.distinct kind)

end Reordered

/-! ## The same registry -/

namespace Blueprint

variable {ds ds' : List Declaration}

/-- Nothing but the policies goes into a registry, and not their order. -/
theorem Built.unique {ps ps' : Policies} {r r' : Registry} (h : Built ps r) (h' : Built ps' r')
    (timeouts : ∀ p, p ∈ ps.timeouts ↔ p ∈ ps'.timeouts) (retries : ∀ p, p ∈ ps.retries ↔ p ∈ ps'.retries)
    (fallbacks : ∀ p, p ∈ ps.fallbacks ↔ p ∈ ps'.fallbacks) : r = r' := by
  cases r
  cases r'
  congr 1
  · exact h.timeouts.unique h'.timeouts timeouts
  · exact h.retries.unique h'.retries retries
  · exact h.fallbacks.unique h'.fallbacks fallbacks

theorem build_of_perm (once : PredicatesOnce ds) (h : ds.Perm ds') {r : Registry} (hr : (ofList ds).build = .ok r) :
    (ofList ds').build = .ok r := by
  have once' := once.perm h
  obtain ⟨ps, hexp, hbuilt⟩ := built_of_build hr
  obtain ⟨r', hr'⟩ := build_of_sound ((hbuilt.sound hexp).perm once h)
  obtain ⟨ps', hexp', hbuilt'⟩ := built_of_build hr'
  have hsame : r = r' := by
    refine hbuilt.unique hbuilt' (fun p => ?_) (fun p => ?_) fun p => ?_
    · rw [hexp.mem_timeouts, hexp'.mem_timeouts]
      exact ⟨.perm h, .perm h.symm⟩
    · rw [hexp.mem_retries, hexp'.mem_retries]
      exact ⟨.perm once h, .perm once' h.symm⟩
    · rw [hexp.mem_fallbacks, hexp'.mem_fallbacks]
      exact ⟨.perm once h, .perm once' h.symm⟩
  rw [hr', hsame]

/-- Declarations may arrive in any order: if one order of a list is accepted, then every order of it is, and gives
the same registry, with the same answer to every look-up and the same names. -/
theorem build_perm (ds ds' : List Declaration) (h : ds.Perm ds') (once : PredicatesOnce ds) (r : Registry) :
    (ofList ds).build = .ok r ↔ (ofList ds').build = .ok r :=
  ⟨build_of_perm once h, build_of_perm (once.perm h) h.symm⟩

/-- A policy of a configuration before the predicate that it refers to. -/
def scattered : List Declaration :=
  [.config { retry := .ofList [("db", { attempts := 3, delayMs := 50, predicate := some "flaky" })] },
    .timeout ⟨"db", .ofMillis 200, by decide, fun h => absurd (congrArg Duration.nanos h) (by decide)⟩,
    .predicate "flaky" .transient]

/-- The other way around it is accepted as well. -/
theorem build_perm_scattered : ∃ r, (ofList scattered).build = .ok r ∧ (ofList scattered.reverse).build = .ok r := by
  have hperm : scattered.Perm scattered.reverse := (List.reverse_perm _).symm
  have once : PredicatesOnce scattered := List.nodup_singleton "flaky"
  have hbuild : ∃ r, (ofList scattered).build = .ok r := ⟨_, rfl⟩
  obtain ⟨r, hr⟩ := hbuild
  exact ⟨r, hr, (build_perm scattered scattered.reverse hperm once r).1 hr⟩

end Blueprint

end CallGuard

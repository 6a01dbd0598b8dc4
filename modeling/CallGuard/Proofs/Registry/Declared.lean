/-
What a list of declarations declares, read off the list alone: the names of each family, the policies
with all their fields, and the predicates that references stand for. A blueprint keeps exactly that
(`Blueprint.names_ofList`, `Blueprint.find?_predicates` and the lemmas beside them), whatever order the
declarations come in.
-/
import CallGuard.Proofs.Naming.Lookup
import CallGuard.Registry.Blueprint
import Mathlib.Data.List.Induction

namespace CallGuard

/-! ## Names -/

/-- The names that a configuration gives to the policies of a family. -/
def Configuration.names (c : Configuration) : PolicyKind → List String
  | .timeout => c.timeout.names
  | .retry => c.retry.names
  | .fallback => c.fallback.names

/-- The names of the policies of a family. -/
def Policies.names (ps : Policies) : PolicyKind → List String
  | .timeout => ps.timeouts.map TimeoutPolicy.name
  | .retry => ps.retries.map RetryPolicy.name
  | .fallback => ps.fallbacks.map FallbackPolicy.name

/-- The names that a declaration gives to the policies of a family. -/
def Declaration.names (kind : PolicyKind) : Declaration → List String
  | .timeout p => if kind = .timeout then [p.name] else []
  | .retry p => if kind = .retry then [p.name] else []
  | .fallback p => if kind = .fallback then [p.name] else []
  | .predicate _ _ => []
  | .config c => c.names kind

/-- All names of a family, of code and of all configurations. -/
def declaredNames (kind : PolicyKind) (ds : List Declaration) : List String := ds.flatMap (Declaration.names kind)

/-! ## Predicates -/

/-- A predicate is the one that was registered last under a name. -/
def Registered (ds : List Declaration) (name : String) (p : FailurePredicate) : Prop :=
  ∃ before after, ds = before ++ .predicate name p :: after ∧ ∀ q, .predicate name q ∉ after

/-- What a reference to a predicate stands for; a policy without one applies to every failure. -/
inductive Binds (ds : List Declaration) : Option String → FailurePredicate → Prop where
  | absent : Binds ds none .always
  | named {name : String} {p : FailurePredicate} (last : Registered ds name p) : Binds ds (some name) p

theorem binds_some {ds : List Declaration} {name : String} {p : FailurePredicate} :
    Binds ds (some name) p ↔ Registered ds name p := by
  constructor
  · rintro ⟨⟩
    assumption
  · exact .named

/-- An entry of a configuration refers to a predicate. -/
def Configuration.Refers (c : Configuration) (policy name : String) : Prop :=
  (∃ r, (policy, r) ∈ c.retry.entries ∧ r.predicate = some name) ∨
    ∃ f, (policy, f) ∈ c.fallback.entries ∧ f.predicate = some name

/-! ## Policies -/

/-- The retry policy that an entry describes, once its predicate is known. -/
def RetryConfig.described (r : RetryConfig) (name : String) (predicate : FailurePredicate) : RetryPolicy :=
  { name, maxAttempts := r.attempts, delay := millisOf r.delayMs, multiplier := r.multiplier,
    maxDelay := r.maxDelayMs.map millisOf, jitter := .none, predicate }

/-- A timeout policy is declared in code, or by an entry in whole milliseconds. -/
inductive DeclaresTimeout (ds : List Declaration) (p : TimeoutPolicy) : Prop where
  | code (h : .timeout p ∈ ds)
  | config {c : Configuration} {t : TimeoutConfig} (h : .config c ∈ ds) (entry : (p.name, t) ∈ c.timeout.entries)
      (duration : p.duration = millisOf t.durationMs)

/-- A retry policy is declared in code, or by an entry. -/
inductive DeclaresRetry (ds : List Declaration) : RetryPolicy → Prop where
  | code {p : RetryPolicy} (h : .retry p ∈ ds) : DeclaresRetry ds p
  | config {c : Configuration} {name : String} {r : RetryConfig} {p : FailurePredicate} (h : .config c ∈ ds)
      (entry : (name, r) ∈ c.retry.entries) (binds : Binds ds r.predicate p) : DeclaresRetry ds (r.described name p)

/-- A fallback policy is declared in code, or by an entry. -/
inductive DeclaresFallback (ds : List Declaration) : FallbackPolicy → Prop where
  | code {p : FallbackPolicy} (h : .fallback p ∈ ds) : DeclaresFallback ds p
  | config {c : Configuration} {name : String} {f : FallbackConfig} {p : FailurePredicate} (h : .config c ∈ ds)
      (entry : (name, f) ∈ c.fallback.entries) (binds : Binds ds f.predicate p) : DeclaresFallback ds ⟨name, p⟩

/-! ## Blueprints -/

theorem registered_concat {ds : List Declaration} {d : Declaration} {name : String} {p : FailurePredicate} :
    Registered (ds ++ [d]) name p ↔
      d = .predicate name p ∨ Registered ds name p ∧ ∀ q, d ≠ .predicate name q := by
  constructor
  · rintro ⟨before, after, heq, hno⟩
    rcases List.eq_nil_or_concat after with rfl | ⟨after', d', rfl⟩
    · obtain ⟨-, hd⟩ := List.append_inj' heq rfl
      exact .inl (List.cons.inj hd).1
    · rw [List.concat_eq_append] at heq hno
      rw [← List.cons_append, ← List.append_assoc] at heq
      obtain ⟨rfl, hd⟩ := List.append_inj' heq rfl
      cases hd
      exact .inr ⟨⟨before, after', rfl, fun q hq => hno q (by simp [hq])⟩, fun q hd => hno q (by simp [hd])⟩
  · rintro (rfl | ⟨⟨before, after, rfl, hno⟩, hd⟩)
    · exact ⟨ds, [], rfl, by simp⟩
    · refine ⟨before, after ++ [d], by simp, fun q hq => ?_⟩
      rcases List.mem_append.1 hq with hq | hq
      · exact hno q hq
      · exact hd q (List.mem_singleton.1 hq).symm

/-- A registered predicate stands in the list. -/
theorem Registered.mem {ds : List Declaration} {name : String} {p : FailurePredicate} (h : Registered ds name p) :
    .predicate name p ∈ ds := by
  obtain ⟨before, after, rfl, -⟩ := h
  simp

namespace Blueprint

/-- All names of a family in a blueprint. -/
def names (b : Blueprint) (kind : PolicyKind) : List String :=
  b.policies.names kind ++ b.configs.flatMap (·.names kind)

theorem ofList_concat (ds : List Declaration) (d : Declaration) : ofList (ds ++ [d]) = (ofList ds).declare d := by
  rw [ofList, List.foldl_append]; rfl

theorem names_declare (b : Blueprint) (d : Declaration) (kind : PolicyKind) :
    ((b.declare d).names kind).Perm (b.names kind ++ d.names kind) := by
  -- What is declared in code goes before the names of the configurations.
  have front : ∀ (l m : List String) (n : String), ((l ++ [n]) ++ m).Perm ((l ++ m) ++ [n]) := fun l m n => by
    rw [List.append_assoc, List.append_assoc]
    exact List.perm_append_comm.append_left l
  cases d with
  | timeout p =>
    cases kind with
    | timeout => simpa [declare, names, Declaration.names, Policies.names] using front _ _ p.name
    | retry | fallback => simp [declare, names, Declaration.names, Policies.names]
  | retry p =>
    cases kind with
    | retry => simpa [declare, names, Declaration.names, Policies.names] using front _ _ p.name
    | timeout | fallback => simp [declare, names, Declaration.names, Policies.names]
  | fallback p =>
    cases kind with
    | fallback => simpa [declare, names, Declaration.names, Policies.names] using front _ _ p.name
    | timeout | retry => simp [declare, names, Declaration.names, Policies.names]
  | predicate n p => simp [declare, names, Declaration.names]
  | config c => simp [declare, names, Declaration.names]

theorem names_ofList (ds : List Declaration) (kind : PolicyKind) :
    ((ofList ds).names kind).Perm (declaredNames kind ds) := by
  induction ds using List.reverseRecOn with
  | nil => cases kind <;> exact .nil
  | append_singleton ds d ih =>
    rw [ofList_concat, declaredNames, List.flatMap_append, List.flatMap_singleton]
    exact (names_declare _ d kind).trans (ih.append_right _)

theorem find?_predicates {ds : List Declaration} {name : String} {p : FailurePredicate} :
    (ofList ds).predicates.find? name = some p ↔ Registered ds name p := by
  induction ds using List.reverseRecOn with
  | nil =>
    constructor
    · intro h
      cases h
    · rintro ⟨before, after, h, -⟩
      simp at h
  | append_singleton ds d ih =>
    rw [ofList_concat, registered_concat, ← ih]
    cases d with
    | predicate n q =>
      rw [declare, NameTable.find?_insert]
      by_cases hn : name = n
      · subst hn
        simp
      · simp [hn, Ne.symm hn]
    | timeout _ | retry _ | fallback _ | config _ => simp [declare]

theorem mem_timeouts {ds : List Declaration} {p : TimeoutPolicy} :
    p ∈ (ofList ds).policies.timeouts ↔ .timeout p ∈ ds := by
  induction ds using List.reverseRecOn with
  | nil => simp [ofList]
  | append_singleton ds d ih => rw [ofList_concat]; cases d <;> simp [declare, ih]

theorem mem_retries {ds : List Declaration} {p : RetryPolicy} : p ∈ (ofList ds).policies.retries ↔ .retry p ∈ ds := by
  induction ds using List.reverseRecOn with
  | nil => simp [ofList]
  | append_singleton ds d ih => rw [ofList_concat]; cases d <;> simp [declare, ih]

theorem mem_fallbacks {ds : List Declaration} {p : FallbackPolicy} :
    p ∈ (ofList ds).policies.fallbacks ↔ .fallback p ∈ ds := by
  induction ds using List.reverseRecOn with
  | nil => simp [ofList]
  | append_singleton ds d ih => rw [ofList_concat]; cases d <;> simp [declare, ih]

theorem mem_configs {ds : List Declaration} {c : Configuration} : c ∈ (ofList ds).configs ↔ .config c ∈ ds := by
  induction ds using List.reverseRecOn with
  | nil => simp [ofList]
  | append_singleton ds d ih => rw [ofList_concat]; cases d <;> simp [declare, ih]

/-- Some predicate of a name is registered exactly if the name stands for one. -/
theorem exists_registered {ds : List Declaration} {name : String} :
    (∃ p, Registered ds name p) ↔ ∃ p, .predicate name p ∈ ds := by
  constructor
  · rintro ⟨p, h⟩
    exact ⟨p, h.mem⟩
  · rintro ⟨p, h⟩
    induction ds using List.reverseRecOn with
    | nil => cases h
    | append_singleton ds d ih =>
      by_cases hd : ∃ q, d = .predicate name q
      · obtain ⟨q, rfl⟩ := hd
        exact ⟨q, registered_concat.2 (.inl rfl)⟩
      · rcases List.mem_append.1 h with h | h
        · obtain ⟨q, hq⟩ := ih h
          exact ⟨q, registered_concat.2 (.inr ⟨hq, fun q' hd' => hd ⟨q', hd'⟩⟩)⟩
        · exact absurd ⟨p, (List.mem_singleton.1 h).symm⟩ hd

/-- Looking up a reference gives what it stands for. -/
theorem resolve?_eq_ok {ds : List Declaration} {policy : String} {reference : Option String} {p : FailurePredicate} :
    resolve? (ofList ds).predicates policy reference = .ok p ↔ Binds ds reference p := by
  cases reference with
  | none =>
    constructor
    · intro h
      cases h
      exact .absent
    · intro h
      cases h
      rfl
  | some name =>
    rw [binds_some, ← find?_predicates, resolve?, resolve]
    cases (ofList ds).predicates.find? name <;> simp

/-- A reference that cannot be looked up is to a name under which nothing is registered. -/
theorem resolve?_eq_error {ds : List Declaration} {policy : String} {reference : Option String} {e : ConfigError}
    (h : resolve? (ofList ds).predicates policy reference = .error e) :
    ∃ name, reference = some name ∧ (∀ p, .predicate name p ∉ ds) ∧ e = .unknownPredicate policy name := by
  cases reference with
  | none => cases h
  | some name =>
    rw [resolve?, resolve] at h
    cases hf : (ofList ds).predicates.find? name with
    | some p => rw [hf] at h; cases h
    | none =>
      rw [hf] at h
      cases h
      refine ⟨name, rfl, fun p hp => ?_, rfl⟩
      obtain ⟨q, hq⟩ := exists_registered.2 ⟨p, hp⟩
      cases (find?_predicates.2 hq).symm.trans hf

end Blueprint

end CallGuard

/-
Building a registry, for every list of declarations. A list is accepted exactly if it is in order
(`Sound`): its policies can be applied, its references lead to predicates, and its names are distinct in
each family. The registry then answers every look-up with the one policy that the list declares, and a
refusal tells of something that is wrong with the list (`Wrong`).
-/
import CallGuard.Proofs.Config.Described

namespace CallGuard

/-! ## What is asked of declarations -/

/-- A list of declarations is in order. -/
structure Sound (ds : List Declaration) : Prop where
  timeouts : ∀ c, .config c ∈ ds → ∀ e ∈ c.timeout.entries, e.1 ≠ "" ∧ e.2.durationMs ≠ 0
  retries : ∀ p, DeclaresRetry ds p → p.Valid
  fallbacks : ∀ p, DeclaresFallback ds p → p.name ≠ ""
  predicates : ∀ c, .config c ∈ ds → ∀ policy name, c.Refers policy name → ∃ p, .predicate name p ∈ ds
  distinct : ∀ kind, (declaredNames kind ds).Nodup

/-- Something is wrong with a list of declarations, and this is how it is told. -/
inductive Wrong (ds : List Declaration) : ConfigError → Prop where
  | timeout {c : Configuration} {name : String} {t : TimeoutConfig} {e : ConfigError} (h : .config c ∈ ds)
      (entry : (name, t) ∈ c.timeout.entries) (refused : t.Refused name e) : Wrong ds e
  | retry {p : RetryPolicy} {e : ConfigError} (declared : DeclaresRetry ds p) (invalid : p.validate = .error e) :
      Wrong ds e
  | fallback {p : FallbackPolicy} (declared : DeclaresFallback ds p) (empty : p.name = "") :
      Wrong ds (.invalidPolicy .fallback p.name .emptyName)
  | predicate {c : Configuration} {policy name : String} (h : .config c ∈ ds) (refers : c.Refers policy name)
      (missing : ∀ p, .predicate name p ∉ ds) : Wrong ds (.unknownPredicate policy name)
  | duplicate {kind : PolicyKind} {name : String} (twice : List.Duplicate name (declaredNames kind ds)) :
      Wrong ds (.duplicatePolicy kind name)

theorem Wrong.not_sound {ds : List Declaration} {e : ConfigError} (h : Wrong ds e) : ¬ Sound ds := by
  intro hs
  cases h with
  | timeout h entry refused =>
    obtain ⟨hname, hduration⟩ := hs.timeouts _ h _ entry
    cases refused with
    | name h => exact hname h
    | duration h => exact hduration h
  | retry declared invalid => cases (hs.retries _ declared).symm.trans invalid
  | fallback declared empty => exact hs.fallbacks _ declared empty
  | predicate h refers missing =>
    obtain ⟨p, hp⟩ := hs.predicates _ h _ _ refers
    exact missing p hp
  | duplicate twice => exact List.nodup_iff_forall_not_duplicate.1 (hs.distinct _) _ twice

/-! ## Executors -/

theorem TimeLimit.ok_eq_ok {p : TimeoutPolicy} {t : TimeLimit} :
    (.ok ⟨p⟩ : Except ConfigError TimeLimit) = .ok t ↔ t.policy = p := by
  cases t
  simp [eq_comm]

theorem RetryLoop.create_eq_ok {p : RetryPolicy} {r : RetryLoop} : create p = .ok r ↔ r.policy = p := by
  unfold create
  split
  · rename_i h
    constructor
    · intro heq
      cases heq
      rfl
    · rintro rfl
      rfl
  · rename_i e h
    constructor
    · intro heq
      cases heq
    · rintro rfl
      cases r.valid.symm.trans h

theorem RetryLoop.create_eq_error {p : RetryPolicy} {e : ConfigError} : create p = .error e ↔ p.validate = .error e := by
  unfold create
  split <;> simp_all

theorem Rescue.create_eq_ok {p : FallbackPolicy} {f : Rescue} : create p = .ok f ↔ f.policy = p := by
  unfold create
  split
  · rename_i h
    constructor
    · intro heq
      cases heq
      rfl
    · rintro rfl
      rfl
  · rename_i e h
    constructor
    · intro heq
      cases heq
    · rintro rfl
      cases (FallbackPolicy.validate_eq_ok.2 f.valid).symm.trans h

theorem Rescue.create_eq_error {p : FallbackPolicy} {e : ConfigError} (h : create p = .error e) :
    p.name = "" ∧ e = .invalidPolicy .fallback p.name .emptyName := by
  unfold create FallbackPolicy.validate at h
  split at h
  · cases h
  · rename_i he
    cases h
    split at he
    · rename_i hn
      cases he
      exact ⟨hn, rfl⟩
    · cases he

/-! ## Answers of a registry -/

/-- Look-ups of one family answer with the declared policies: each of them is found under its own name, with all
its fields, and under any other name nothing is. -/
structure Answers {π α : Type} (kind : PolicyKind) (name : π → String) (policy : α → π) (declared : π → Prop)
    (lookup : String → Except ConfigError α) : Prop where
  found : ∀ p, declared p → ∃ a, lookup (name p) = .ok a ∧ policy a = p
  own : ∀ n a, lookup n = .ok a → declared (policy a) ∧ name (policy a) = n
  unknown : ∀ n, (∀ p, declared p → name p ≠ n) → lookup n = .error (.unknownPolicy kind n)

theorem NameTable.require_eq_ok {α : Type} {t : NameTable α} {kind : PolicyKind} {name : String} {a : α} :
    t.require kind name = .ok a ↔ t.find? name = some a := by
  unfold require
  cases t.find? name <;> simp

theorem Blueprint.Collected.answers {π α : Type} {name : π → String} {create : π → Except ConfigError α}
    {policy : α → π} {declared : π → Prop} {ps : List π} {t : NameTable α} (h : Collected name create ps t)
    (kind : PolicyKind) (hcreate : ∀ p a, create p = .ok a ↔ policy a = p) (hps : ∀ p, p ∈ ps ↔ declared p) :
    Answers kind name policy declared (t.require kind) where
  found p hp := by
    obtain ⟨a, ha⟩ := h.created p ((hps p).2 hp)
    exact ⟨a, NameTable.require_eq_ok.2 ((h.found _ a).2 ⟨p, (hps p).2 hp, rfl, ha⟩), (hcreate p a).1 ha⟩
  own n a ha := by
    obtain ⟨p, hp, hn, hpa⟩ := (h.found n a).1 (NameTable.require_eq_ok.1 ha)
    obtain rfl := (hcreate p a).1 hpa
    exact ⟨(hps _).1 hp, hn⟩
  unknown n hn := by
    unfold NameTable.require
    cases hf : t.find? n with
    | none => rfl
    | some a =>
      obtain ⟨p, hp, hpn, -⟩ := (h.found n a).1 hf
      exact absurd hpn (hn p ((hps p).1 hp))

/-- A registry holds what a list declares. -/
structure Registry.Holds (r : Registry) (ds : List Declaration) : Prop where
  timeouts : Answers .timeout TimeoutPolicy.name TimeLimit.policy (DeclaresTimeout ds) r.timeLimit
  retries : Answers .retry RetryPolicy.name RetryLoop.policy (DeclaresRetry ds) r.retryLoop
  fallbacks : Answers .fallback FallbackPolicy.name Rescue.policy (DeclaresFallback ds) r.rescue
  listed : ∀ kind name, name ∈ r.names kind ↔ name ∈ declaredNames kind ds
  increasing : ∀ kind, (r.names kind).Pairwise (· < ·)

/-! ## Expanded declarations -/

namespace Blueprint

variable {ds : List Declaration} {ps : Policies}

theorem Expanded.mem_timeouts (h : (ofList ds).Expanded ps) (p : TimeoutPolicy) :
    p ∈ ps.timeouts ↔ DeclaresTimeout ds p := by
  rw [h.timeouts, Blueprint.mem_timeouts]
  constructor
  · rintro (hp | ⟨c, hc, q, hq, hp⟩)
    · exact .code hp
    · obtain ⟨⟨name, t⟩, hentry, ht⟩ := (mem_of_mapM hq.timeouts p).1 hp
      obtain ⟨rfl, hd⟩ := TimeoutConfig.policy_eq_ok.1 ht
      exact .config (mem_configs.1 hc) hentry hd
  · rintro (hp | ⟨hc, hentry, hd⟩)
    · exact .inl hp
    · obtain ⟨q, hq⟩ := h.made _ (mem_configs.2 hc)
      exact .inr ⟨_, mem_configs.2 hc, q, hq,
        (mem_of_mapM hq.timeouts p).2 ⟨_, hentry, TimeoutConfig.policy_eq_ok.2 ⟨rfl, hd⟩⟩⟩

theorem Expanded.mem_retries (h : (ofList ds).Expanded ps) (p : RetryPolicy) :
    p ∈ ps.retries ↔ DeclaresRetry ds p := by
  rw [h.retries, Blueprint.mem_retries]
  constructor
  · rintro (hp | ⟨c, hc, q, hq, hp⟩)
    · exact .code hp
    · obtain ⟨⟨name, r⟩, hentry, hr⟩ := (mem_of_mapM hq.retries p).1 hp
      obtain ⟨f, hf, -, rfl⟩ := RetryConfig.policy_eq_ok.1 hr
      exact .config (mem_configs.1 hc) hentry (resolve?_eq_ok.1 hf)
  · rintro (hp | ⟨hc, hentry, hbinds⟩)
    · exact .inl hp
    · -- The entry became a policy, and its reference leaves no choice.
      obtain ⟨q, hq⟩ := h.made _ (mem_configs.2 hc)
      obtain ⟨p', hp', hmade⟩ := forall_of_mapM hq.retries _ hentry
      obtain ⟨f, hf, -, rfl⟩ := RetryConfig.policy_eq_ok.1 hmade
      cases hf.symm.trans (resolve?_eq_ok.2 hbinds)
      exact .inr ⟨_, mem_configs.2 hc, q, hq, hp'⟩

theorem Expanded.mem_fallbacks (h : (ofList ds).Expanded ps) (p : FallbackPolicy) :
    p ∈ ps.fallbacks ↔ DeclaresFallback ds p := by
  rw [h.fallbacks, Blueprint.mem_fallbacks]
  constructor
  · rintro (hp | ⟨c, hc, q, hq, hp⟩)
    · exact .code hp
    · obtain ⟨⟨name, f⟩, hentry, hf⟩ := (mem_of_mapM hq.fallbacks p).1 hp
      obtain ⟨g, hg, rfl⟩ := FallbackConfig.policy_eq_ok.1 hf
      exact .config (mem_configs.1 hc) hentry (resolve?_eq_ok.1 hg)
  · rintro (hp | ⟨hc, hentry, hbinds⟩)
    · exact .inl hp
    · obtain ⟨q, hq⟩ := h.made _ (mem_configs.2 hc)
      obtain ⟨p', hp', hmade⟩ := forall_of_mapM hq.fallbacks _ hentry
      obtain ⟨g, hg, rfl⟩ := FallbackConfig.policy_eq_ok.1 hmade
      cases hg.symm.trans (resolve?_eq_ok.2 hbinds)
      exact .inr ⟨_, mem_configs.2 hc, q, hq, hp'⟩

theorem Expanded.names_perm (h : (ofList ds).Expanded ps) (kind : PolicyKind) :
    (ps.names kind).Perm (declaredNames kind ds) := by
  rw [h.names]
  exact names_ofList ds kind

/-- Every reference of a configuration that was expanded leads to a predicate. -/
theorem Expanded.refers (h : (ofList ds).Expanded ps) {c : Configuration} (hc : .config c ∈ ds) {policy name : String}
    (hr : c.Refers policy name) : ∃ p, .predicate name p ∈ ds := by
  obtain ⟨q, hq⟩ := h.made c (mem_configs.2 hc)
  have key : ∀ {p : FailurePredicate}, resolve? (ofList ds).predicates policy (some name) = .ok p →
      ∃ p, .predicate name p ∈ ds := fun hp => ⟨_, (binds_some.1 (resolve?_eq_ok.1 hp)).mem⟩
  rcases hr with ⟨r, hentry, href⟩ | ⟨f, hentry, href⟩
  · obtain ⟨p, -, hp⟩ := forall_of_mapM hq.retries _ hentry
    obtain ⟨g, hg, -, -⟩ := RetryConfig.policy_eq_ok.1 hp
    exact key (href ▸ hg)
  · obtain ⟨p, -, hp⟩ := forall_of_mapM hq.fallbacks _ hentry
    obtain ⟨g, hg, -⟩ := FallbackConfig.policy_eq_ok.1 hp
    exact key (href ▸ hg)

/-- What cannot be expanded has a wrong entry. -/
theorem wrong_of_expand {e : ConfigError} (h : (ofList ds).expand = .error e) : Wrong ds e := by
  obtain ⟨c, hc, h⟩ := expand_error h
  rw [mem_configs] at hc
  rcases Configuration.policies_error h with ⟨⟨name, t⟩, hentry, he⟩ | ⟨⟨name, r⟩, hentry, he⟩ | ⟨⟨name, f⟩, hentry, he⟩
  · exact .timeout hc hentry (TimeoutConfig.policy_error he)
  · rcases RetryConfig.policy_error he with he | ⟨p, hp, he⟩
    · obtain ⟨n, hn, hmissing, rfl⟩ := resolve?_eq_error he
      exact .predicate hc (.inl ⟨r, hentry, hn⟩) hmissing
    · exact .retry (.config hc hentry (resolve?_eq_ok.1 hp)) he
  · obtain ⟨n, hn, hmissing, rfl⟩ := resolve?_eq_error (FallbackConfig.policy_error he)
    exact .predicate hc (.inr ⟨f, hentry, hn⟩) hmissing

/-! ## Building -/

/-- A registry was built from the policies of a blueprint. -/
structure Built (ps : Policies) (r : Registry) : Prop where
  timeouts : Collected TimeoutPolicy.name (fun p => .ok ⟨p⟩) ps.timeouts r.timeLimits
  retries : Collected RetryPolicy.name RetryLoop.create ps.retries r.retryLoops
  fallbacks : Collected FallbackPolicy.name Rescue.create ps.fallbacks r.rescues

theorem built_of_build {b : Blueprint} {r : Registry} (h : b.build = .ok r) : ∃ ps, b.Expanded ps ∧ Built ps r := by
  unfold build at h
  obtain ⟨ps, hps, h⟩ := bind_eq_ok.1 h
  obtain ⟨ts, hts, h⟩ := bind_eq_ok.1 h
  obtain ⟨rs, hrs, h⟩ := bind_eq_ok.1 h
  obtain ⟨fs, hfs, h⟩ := bind_eq_ok.1 h
  cases h
  exact ⟨ps, expanded_of_expand hps, collected_of_collect hts, collected_of_collect hrs, collected_of_collect hfs⟩

/-- A refusal is true. -/
theorem wrong_of_build {e : ConfigError} (h : (ofList ds).build = .error e) : Wrong ds e := by
  unfold build at h
  rcases bind_eq_error.1 h with h | ⟨ps, hps, h⟩
  · exact wrong_of_expand h
  have hexp := expanded_of_expand hps
  have twice : ∀ kind n, List.Duplicate n (ps.names kind) → Wrong ds (.duplicatePolicy kind n) := fun kind n hn => by
    refine .duplicate (List.duplicate_iff_two_le_count.2 ?_)
    rw [← (hexp.names_perm kind).count_eq]
    exact List.duplicate_iff_two_le_count.1 hn
  rcases bind_eq_error.1 h with h | ⟨ts, -, h⟩
  · rcases collect_error h with ⟨p, -, h⟩ | ⟨n, hn, rfl⟩
    · cases h
    · exact twice .timeout n hn
  rcases bind_eq_error.1 h with h | ⟨rs, -, h⟩
  · rcases collect_error h with ⟨p, hp, h⟩ | ⟨n, hn, rfl⟩
    · exact .retry ((hexp.mem_retries p).1 hp) (RetryLoop.create_eq_error.1 h)
    · exact twice .retry n hn
  rcases bind_eq_error.1 h with h | ⟨fs, -, h⟩
  · rcases collect_error h with ⟨p, hp, h⟩ | ⟨n, hn, rfl⟩
    · obtain ⟨hempty, rfl⟩ := Rescue.create_eq_error h
      exact .fallback ((hexp.mem_fallbacks p).1 hp) hempty
    · exact twice .fallback n hn
  · cases h

theorem Built.mem_names {r : Registry} (h : Built ps r) (kind : PolicyKind) (name : String) :
    name ∈ r.names kind ↔ name ∈ ps.names kind := by
  cases kind with
  | timeout => exact h.timeouts.mem_names
  | retry => exact h.retries.mem_names
  | fallback => exact h.fallbacks.mem_names

theorem Built.distinct {r : Registry} (h : Built ps r) (kind : PolicyKind) : (ps.names kind).Nodup := by
  cases kind with
  | timeout => exact h.timeouts.distinct
  | retry => exact h.retries.distinct
  | fallback => exact h.fallbacks.distinct

theorem Built.sound {r : Registry} (hexp : (ofList ds).Expanded ps) (h : Built ps r) : Sound ds where
  timeouts c hc e he := by
    obtain ⟨q, hq⟩ := hexp.made c (mem_configs.2 hc)
    obtain ⟨p, -, hp⟩ := forall_of_mapM hq.timeouts e he
    obtain ⟨hname, hduration⟩ := TimeoutConfig.policy_eq_ok.1 hp
    refine ⟨hname ▸ p.name_ne_empty, fun h0 => p.duration_ne_zero ?_⟩
    rw [hduration, millisOf_eq_zero.2 h0]
  retries p hp := by
    obtain ⟨a, ha⟩ := h.retries.created p ((hexp.mem_retries p).2 hp)
    obtain rfl := RetryLoop.create_eq_ok.1 ha
    exact a.valid
  fallbacks p hp := by
    obtain ⟨a, ha⟩ := h.fallbacks.created p ((hexp.mem_fallbacks p).2 hp)
    obtain rfl := Rescue.create_eq_ok.1 ha
    exact a.valid
  predicates c hc policy name hr := hexp.refers hc hr
  distinct kind := (hexp.names_perm kind).nodup_iff.1 (h.distinct kind)

theorem Built.holds {r : Registry} (hexp : (ofList ds).Expanded ps) (h : Built ps r) : r.Holds ds where
  timeouts := h.timeouts.answers .timeout (fun p a => TimeLimit.ok_eq_ok) hexp.mem_timeouts
  retries := h.retries.answers .retry (fun p a => RetryLoop.create_eq_ok) hexp.mem_retries
  fallbacks := h.fallbacks.answers .fallback (fun p a => Rescue.create_eq_ok) hexp.mem_fallbacks
  listed kind name := by rw [h.mem_names, (hexp.names_perm kind).mem_iff]
  increasing kind := by cases kind <;> exact NameTable.sorted_names _

/-- A list that is in order is accepted. -/
theorem build_of_sound (h : Sound ds) : ∃ r, (ofList ds).build = .ok r := by
  cases hb : (ofList ds).build with
  | ok r => exact ⟨r, rfl⟩
  | error e => exact absurd h (wrong_of_build hb).not_sound

/-- Building accepts exactly the lists that are in order. The registry answers every look-up with the one policy
that the list declares under the name, or says that there is none, and lists exactly the declared names in
increasing order; a refusal says what is wrong with the list. -/
theorem build_declared (ds : List Declaration) :
    ((∃ r, (ofList ds).build = .ok r) ↔ Sound ds) ∧
    (∀ r, (ofList ds).build = .ok r → r.Holds ds) ∧
    (∀ e, (ofList ds).build = .error e → Wrong ds e) := by
  refine ⟨⟨?_, build_of_sound⟩, ?_, fun e => wrong_of_build⟩
  · rintro ⟨r, hr⟩
    obtain ⟨ps, hexp, h⟩ := built_of_build hr
    exact h.sound hexp
  · intro r hr
    obtain ⟨ps, hexp, h⟩ := built_of_build hr
    exact h.holds hexp

/-- A configuration before the predicate that it refers to, which is registered twice. -/
def deferred : List Declaration :=
  [.config { retry := .ofList [("db", { attempts := 3, delayMs := 50, predicate := some "flaky" })] },
    .predicate "flaky" .never, .predicate "flaky" .transient]

/-- It is accepted, and the reference leads to the later of the two predicates. -/
theorem build_declared_deferred : ∃ r, (ofList deferred).build = .ok r ∧
    (∃ a, r.retryLoop "db" = .ok a ∧ a.policy.predicate = .transient) ∧
    r.retryLoop "cache" = .error (.unknownPolicy .retry "cache") ∧ "db" ∈ r.names .retry := by
  have hbuild : ∃ r, (ofList deferred).build = .ok r := ⟨_, rfl⟩
  obtain ⟨r, hr⟩ := hbuild
  have holds := (build_declared deferred).2.1 r hr
  have hflaky : Registered deferred "flaky" .transient := ⟨deferred.take 2, [], rfl, by simp⟩
  have hdb : DeclaresRetry deferred
      (RetryConfig.described { attempts := 3, delayMs := 50, predicate := some "flaky" } "db" .transient) :=
    .config (List.mem_cons_self ..) (List.mem_cons_self ..) (.named hflaky)
  obtain ⟨a, ha, hpolicy⟩ := holds.retries.found _ hdb
  refine ⟨r, hr, ⟨a, ha, by rw [hpolicy]; rfl⟩, ?_, (holds.listed .retry "db").2 (by decide)⟩
  refine holds.retries.unknown "cache" fun p hp => ?_
  cases hp with
  | code h => simp [deferred] at h
  | config h entry binds =>
    obtain rfl : _ = _ := by simpa [deferred] using h
    cases List.mem_singleton.1 entry
    exact (by decide : "db" ≠ "cache")

end Blueprint

end CallGuard

/-
From the entries of a configuration to policies. An entry becomes a policy exactly if its reference can be
looked up and the policy that it describes can be applied; otherwise the refusal says which of the two it
was. `Blueprint.expand` does this for all configurations (`expanded_of_expand`, `expand_error`).
-/
import CallGuard.Proofs.Registry.Collect
import CallGuard.Proofs.Registry.Declared

namespace CallGuard

/-! ## Entries -/

/-- What is wrong with an entry of a timeout policy. -/
inductive TimeoutConfig.Refused (t : TimeoutConfig) (name : String) : ConfigError → Prop where
  | name (h : name = "") : Refused t name (.invalidPolicy .timeout name .emptyName)
  | duration (h : t.durationMs = 0) : Refused t name (.invalidPolicy .timeout name .zeroDuration)

theorem millisOf_eq_zero {n : UInt64} : millisOf n = .zero ↔ n = 0 := by
  constructor
  · intro h
    have hn : min (n.toNat * 1000000) longestNanos = 0 := congrArg Duration.nanos h
    have hzero := (Nat.min_eq_zero_iff.1 hn).resolve_right (by decide)
    exact UInt64.toNat_inj.1 ((Nat.mul_eq_zero.1 hzero).resolve_right (by decide))
  · rintro rfl
    exact Duration.ext (Nat.zero_min longestNanos)

theorem TimeoutConfig.policy_eq_ok {t : TimeoutConfig} {name : String} {p : TimeoutPolicy} :
    t.policy name = .ok p ↔ p.name = name ∧ p.duration = millisOf t.durationMs :=
  TimeoutPolicy.create_eq_ok

theorem TimeoutConfig.policy_error {t : TimeoutConfig} {name : String} {e : ConfigError} (h : t.policy name = .error e) :
    t.Refused name e := by
  unfold TimeoutConfig.policy TimeoutPolicy.create at h
  split at h
  · rename_i hn
    cases h
    exact .name hn
  · split at h
    · rename_i hd
      cases h
      exact .duration (millisOf_eq_zero.1 hd)
    · cases h

theorem RetryConfig.policy_eq (predicates : NameTable FailurePredicate) (r : RetryConfig) (name : String) :
    r.policy predicates name = resolve? predicates name r.predicate >>= fun p =>
      (r.described name p).validate >>= fun _ => .ok (r.described name p) := rfl

theorem RetryConfig.policy_eq_ok {predicates : NameTable FailurePredicate} {r : RetryConfig} {name : String}
    {p : RetryPolicy} : r.policy predicates name = .ok p ↔
      ∃ q, resolve? predicates name r.predicate = .ok q ∧ (r.described name q).Valid ∧ r.described name q = p := by
  simp only [policy_eq, bind_eq_ok, Except.ok.injEq]
  constructor
  · rintro ⟨q, hq, u, hv, hp⟩
    exact ⟨q, hq, hv, hp⟩
  · rintro ⟨q, hq, hv, hp⟩
    exact ⟨q, hq, (), hv, hp⟩

theorem RetryConfig.policy_error {predicates : NameTable FailurePredicate} {r : RetryConfig} {name : String}
    {e : ConfigError} (h : r.policy predicates name = .error e) :
    resolve? predicates name r.predicate = .error e ∨
      ∃ q, resolve? predicates name r.predicate = .ok q ∧ (r.described name q).validate = .error e := by
  rw [policy_eq, bind_eq_error] at h
  rcases h with h | ⟨q, hq, h⟩
  · exact .inl h
  · rcases bind_eq_error.1 h with h | ⟨u, -, h⟩
    · exact .inr ⟨q, hq, h⟩
    · cases h

theorem FallbackConfig.policy_eq_ok {predicates : NameTable FailurePredicate} {f : FallbackConfig} {name : String}
    {p : FallbackPolicy} : f.policy predicates name = .ok p ↔
      ∃ q, resolve? predicates name f.predicate = .ok q ∧ ⟨name, q⟩ = p := by
  unfold FallbackConfig.policy
  rw [bind_eq_ok]
  constructor
  · rintro ⟨q, hq, h⟩
    cases h
    exact ⟨q, hq, rfl⟩
  · rintro ⟨q, hq, rfl⟩
    exact ⟨q, hq, rfl⟩

theorem FallbackConfig.policy_error {predicates : NameTable FailurePredicate} {f : FallbackConfig} {name : String}
    {e : ConfigError} (h : f.policy predicates name = .error e) : resolve? predicates name f.predicate = .error e := by
  unfold FallbackConfig.policy at h
  rcases bind_eq_error.1 h with h | ⟨q, -, h⟩
  · exact h
  · cases h

/-! ## Configurations -/

/-- The policies that were made of the entries of a configuration. -/
structure Configuration.Made (c : Configuration) (predicates : NameTable FailurePredicate) (ps : Policies) : Prop where
  timeouts : c.timeout.entries.mapM (fun e => e.2.policy e.1) = .ok ps.timeouts
  retries : c.retry.entries.mapM (fun e => e.2.policy predicates e.1) = .ok ps.retries
  fallbacks : c.fallback.entries.mapM (fun e => e.2.policy predicates e.1) = .ok ps.fallbacks

theorem Configuration.policies_eq_ok {c : Configuration} {predicates : NameTable FailurePredicate} {ps : Policies} :
    c.policies predicates = .ok ps ↔ c.Made predicates ps := by
  unfold policies
  constructor
  · intro h
    obtain ⟨ts, hts, h⟩ := bind_eq_ok.1 h
    obtain ⟨rs, hrs, h⟩ := bind_eq_ok.1 h
    obtain ⟨fs, hfs, h⟩ := bind_eq_ok.1 h
    cases h
    exact ⟨hts, hrs, hfs⟩
  · rintro ⟨hts, hrs, hfs⟩
    exact bind_eq_ok.2 ⟨_, hts, bind_eq_ok.2 ⟨_, hrs, bind_eq_ok.2 ⟨_, hfs, rfl⟩⟩⟩

theorem Configuration.policies_error {c : Configuration} {predicates : NameTable FailurePredicate} {e : ConfigError}
    (h : c.policies predicates = .error e) :
    (∃ entry ∈ c.timeout.entries, entry.2.policy entry.1 = .error e) ∨
      (∃ entry ∈ c.retry.entries, entry.2.policy predicates entry.1 = .error e) ∨
      ∃ entry ∈ c.fallback.entries, entry.2.policy predicates entry.1 = .error e := by
  unfold policies at h
  rcases bind_eq_error.1 h with h | ⟨ts, -, h⟩
  · exact .inl (mapM_eq_error h)
  rcases bind_eq_error.1 h with h | ⟨rs, -, h⟩
  · exact .inr (.inl (mapM_eq_error h))
  rcases bind_eq_error.1 h with h | ⟨fs, -, h⟩
  · exact .inr (.inr (mapM_eq_error h))
  · cases h

/-- Every entry keeps its name. -/
theorem Configuration.Made.names {c : Configuration} {predicates : NameTable FailurePredicate} {ps : Policies}
    (h : c.Made predicates ps) (kind : PolicyKind) : ps.names kind = c.names kind := by
  cases kind with
  | timeout => exact map_of_mapM (fun e p hp => (TimeoutConfig.policy_eq_ok.1 hp).1) h.timeouts
  | retry =>
    refine map_of_mapM (fun e p hp => ?_) h.retries
    obtain ⟨q, -, -, rfl⟩ := RetryConfig.policy_eq_ok.1 hp
    rfl
  | fallback =>
    refine map_of_mapM (fun e p hp => ?_) h.fallbacks
    obtain ⟨q, -, rfl⟩ := FallbackConfig.policy_eq_ok.1 hp
    rfl

/-! ## Blueprints -/

/-- Adding up what is made of each element is making all and then adding up. -/
theorem foldlM_return {α β γ δ : Type} (f : α → Except δ β) (g : γ → β → γ) (l : List α) (c : γ) :
    l.foldlM (fun c a => return g c (← f a)) c = l.mapM f >>= fun bs => .ok (bs.foldl g c) := by
  induction l generalizing c with
  | nil => rfl
  | cons a l ih =>
    rw [List.foldlM_cons, List.mapM_cons]
    cases f a with
    | error e => rfl
    | ok b =>
      show l.foldlM _ (g c b) = _
      rw [ih]
      cases l.mapM f <;> rfl

/-- What is read off policies that were appended to others. -/
theorem Policies.foldl_append {α : Type} {f : Policies → List α} (hf : ∀ p q : Policies, f (p.append q) = f p ++ f q)
    (qs : List Policies) (p : Policies) : f (qs.foldl append p) = f p ++ qs.flatMap f := by
  induction qs generalizing p with
  | nil => simp
  | cons q qs ih => rw [List.foldl_cons, ih, hf, List.flatMap_cons, List.append_assoc]

theorem Policies.names_append (kind : PolicyKind) (p q : Policies) :
    (p.append q).names kind = p.names kind ++ q.names kind := by
  cases kind <;> exact List.map_append

namespace Blueprint

/-- The policies of a blueprint together with those that were made of its configurations. -/
structure Expanded (b : Blueprint) (ps : Policies) : Prop where
  made : ∀ c ∈ b.configs, ∃ q, c.Made b.predicates q
  timeouts : ∀ p, p ∈ ps.timeouts ↔ p ∈ b.policies.timeouts ∨ ∃ c ∈ b.configs, ∃ q, c.Made b.predicates q ∧ p ∈ q.timeouts
  retries : ∀ p, p ∈ ps.retries ↔ p ∈ b.policies.retries ∨ ∃ c ∈ b.configs, ∃ q, c.Made b.predicates q ∧ p ∈ q.retries
  fallbacks : ∀ p, p ∈ ps.fallbacks ↔
    p ∈ b.policies.fallbacks ∨ ∃ c ∈ b.configs, ∃ q, c.Made b.predicates q ∧ p ∈ q.fallbacks
  names : ∀ kind, ps.names kind = b.names kind

theorem expand_eq (b : Blueprint) :
    b.expand = b.configs.mapM (·.policies b.predicates) >>= fun qs => .ok (qs.foldl Policies.append b.policies) :=
  foldlM_return ..

theorem expanded_of_expand {b : Blueprint} {ps : Policies} (h : b.expand = .ok ps) : b.Expanded ps := by
  rw [expand_eq] at h
  obtain ⟨qs, hqs, h⟩ := bind_eq_ok.1 h
  cases h
  have hmade : ∀ q, q ∈ qs ↔ ∃ c ∈ b.configs, c.Made b.predicates q := fun q => by
    rw [mem_of_mapM hqs]
    simp only [Configuration.policies_eq_ok]
  -- A policy of the sum is one of code, or was made of an entry.
  have hmem : ∀ {α : Type} (f : Policies → List α) (p : α), p ∈ f b.policies ++ qs.flatMap f ↔
      p ∈ f b.policies ∨ ∃ c ∈ b.configs, ∃ q, c.Made b.predicates q ∧ p ∈ f q := fun f p => by
    rw [List.mem_append, List.mem_flatMap]
    simp only [hmade]
    grind
  refine ⟨?_, fun p => ?_, fun p => ?_, fun p => ?_, fun kind => ?_⟩
  · intro c hc
    obtain ⟨q, -, hq⟩ := forall_of_mapM hqs c hc
    exact ⟨q, Configuration.policies_eq_ok.1 hq⟩
  · rw [Policies.foldl_append (f := Policies.timeouts) fun _ _ => rfl]
    exact hmem _ p
  · rw [Policies.foldl_append (f := Policies.retries) fun _ _ => rfl]
    exact hmem _ p
  · rw [Policies.foldl_append (f := Policies.fallbacks) fun _ _ => rfl]
    exact hmem _ p
  · have hnames := map_of_mapM (fun c q hq => (Configuration.policies_eq_ok.1 hq).names kind) hqs
    rw [Policies.foldl_append (f := (·.names kind)) (Policies.names_append kind), names, List.flatMap_def, hnames,
      List.flatMap_def]

theorem expand_error {b : Blueprint} {e : ConfigError} (h : b.expand = .error e) :
    ∃ c ∈ b.configs, c.policies b.predicates = .error e := by
  rw [expand_eq] at h
  rcases bind_eq_error.1 h with h | ⟨qs, -, h⟩
  · exact mapM_eq_error h
  · cases h

end Blueprint

end CallGuard

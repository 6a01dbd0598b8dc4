/-
Collecting policies into tables by name. A list is collected exactly if every policy can be applied and no
name occurs twice (`collect_eq_ok`); the table then holds what was made of each policy under its own name
(`Collected`), and a refusal tells of a policy or of a name in the list (`collect_error`).
-/
import CallGuard.Proofs.Naming.Lookup
import CallGuard.Registry.Blueprint
import Mathlib.Data.List.Duplicate
import Mathlib.Data.List.Induction

namespace CallGuard

variable {α β γ δ : Type}

/-! ## Programs that may be refused -/

theorem bind_eq_ok {x : Except δ α} {f : α → Except δ β} {b : β} :
    x >>= f = .ok b ↔ ∃ a, x = .ok a ∧ f a = .ok b := by
  cases x with
  | ok a =>
    constructor
    · intro h
      exact ⟨a, rfl, h⟩
    · rintro ⟨_, ha, h⟩
      cases ha
      exact h
  | error e =>
    constructor
    · intro h
      cases h
    · rintro ⟨_, ha, -⟩
      cases ha

theorem bind_eq_error {x : Except δ α} {f : α → Except δ β} {e : δ} :
    x >>= f = .error e ↔ x = .error e ∨ ∃ a, x = .ok a ∧ f a = .error e := by
  cases x with
  | ok a =>
    constructor
    · intro h
      exact .inr ⟨a, rfl, h⟩
    · rintro (h | ⟨_, ha, h⟩)
      · cases h
      · cases ha
        exact h
  | error e' =>
    constructor
    · intro h
      cases h
      exact .inl rfl
    · rintro (h | ⟨_, ha, -⟩)
      · cases h
        rfl
      · cases ha

theorem foldlM_concat (f : β → α → Except δ β) (l : List α) (a : α) (b : β) :
    (l ++ [a]).foldlM f b = l.foldlM f b >>= fun b' => f b' a := by
  rw [List.foldlM_append]
  exact congrArg _ (funext fun b' => bind_pure (f b' a))

theorem mem_of_mapM {f : α → Except δ β} {l : List α} {l' : List β} (h : l.mapM f = .ok l') (b : β) :
    b ∈ l' ↔ ∃ a ∈ l, f a = .ok b := by
  induction l generalizing l' with
  | nil => rw [List.mapM_nil] at h; cases h; simp
  | cons a l ih =>
    rw [List.mapM_cons] at h
    obtain ⟨b', hb', h⟩ := bind_eq_ok.1 h
    obtain ⟨bs, hbs, h⟩ := bind_eq_ok.1 h
    cases h
    simp only [List.mem_cons, ih hbs, exists_eq_or_imp, hb', Except.ok.injEq]
    rw [eq_comm]

theorem forall_of_mapM {f : α → Except δ β} {l : List α} {l' : List β} (h : l.mapM f = .ok l') :
    ∀ a ∈ l, ∃ b ∈ l', f a = .ok b := by
  induction l generalizing l' with
  | nil => simp
  | cons a l ih =>
    rw [List.mapM_cons] at h
    obtain ⟨b, hb, h⟩ := bind_eq_ok.1 h
    obtain ⟨bs, hbs, h⟩ := bind_eq_ok.1 h
    cases h
    intro a' ha'
    rcases List.mem_cons.1 ha' with rfl | ha'
    · exact ⟨b, List.mem_cons_self, hb⟩
    · obtain ⟨b', hb', he⟩ := ih hbs a' ha'
      exact ⟨b', List.mem_cons_of_mem _ hb', he⟩

theorem map_of_mapM {f : α → Except δ β} {g : α → γ} {g' : β → γ} (hg : ∀ a b, f a = .ok b → g' b = g a)
    {l : List α} {l' : List β} (h : l.mapM f = .ok l') : l'.map g' = l.map g := by
  induction l generalizing l' with
  | nil => rw [List.mapM_nil] at h; cases h; rfl
  | cons a l ih =>
    rw [List.mapM_cons] at h
    obtain ⟨b, hb, h⟩ := bind_eq_ok.1 h
    obtain ⟨bs, hbs, h⟩ := bind_eq_ok.1 h
    cases h
    rw [List.map_cons, List.map_cons, hg a b hb, ih hbs]

theorem mapM_eq_error {f : α → Except δ β} {l : List α} {e : δ} (h : l.mapM f = .error e) : ∃ a ∈ l, f a = .error e := by
  induction l with
  | nil => rw [List.mapM_nil] at h; cases h
  | cons a l ih =>
    rw [List.mapM_cons] at h
    rcases bind_eq_error.1 h with h | ⟨b, -, h⟩
    · exact ⟨a, List.mem_cons_self, h⟩
    rcases bind_eq_error.1 h with h | ⟨bs, -, h⟩
    · obtain ⟨a', ha', he⟩ := ih h
      exact ⟨a', List.mem_cons_of_mem _ ha', he⟩
    · cases h

/-! ## Collecting -/

namespace Blueprint

theorem insertUnique_eq_ok {kind : PolicyKind} {t t' : NameTable α} {name : String} {a : α} :
    insertUnique kind t name a = .ok t' ↔ name ∉ t.names ∧ t' = t.insert name a := by
  rw [← NameTable.contains_iff, insertUnique]
  cases t.contains name <;> simp [eq_comm]

theorem insertUnique_eq_error {kind : PolicyKind} {t : NameTable α} {name : String} {a : α} {e : ConfigError} :
    insertUnique kind t name a = .error e ↔ name ∈ t.names ∧ e = .duplicatePolicy kind name := by
  rw [← NameTable.contains_iff, insertUnique]
  cases t.contains name <;> simp [eq_comm]

variable {π : Type} {kind : PolicyKind} {name : π → String} {create : π → Except ConfigError α}

/-- A table holds what was made of the policies of a list, each under its own name. -/
structure Collected (name : π → String) (create : π → Except ConfigError α) (ps : List π) (t : NameTable α) :
    Prop where
  distinct : (ps.map name).Nodup
  created : ∀ p ∈ ps, ∃ a, create p = .ok a
  found : ∀ n a, t.find? n = some a ↔ ∃ p ∈ ps, name p = n ∧ create p = .ok a

theorem Collected.mem_names {ps : List π} {t : NameTable α} (h : Collected name create ps t) {n : String} :
    n ∈ t.names ↔ n ∈ ps.map name := by
  rw [NameTable.mem_names, List.mem_map]
  constructor
  · rintro ⟨a, ha⟩
    obtain ⟨p, hp, hn, -⟩ := (h.found n a).1 ha
    exact ⟨p, hp, hn⟩
  · rintro ⟨p, hp, hn⟩
    obtain ⟨a, ha⟩ := h.created p hp
    exact ⟨a, (h.found n a).2 ⟨p, hp, hn, ha⟩⟩

theorem Collected.unique {ps ps' : List π} {t t' : NameTable α} (h : Collected name create ps t)
    (h' : Collected name create ps' t') (same : ∀ p, p ∈ ps ↔ p ∈ ps') : t = t' := by
  refine NameTable.ext_find? fun n => Option.ext fun a => ?_
  rw [h.found, h'.found]
  simp only [same]

/-- One more policy. -/
theorem Collected.insert {ps : List π} {t : NameTable α} (h : Collected name create ps t) {p : π} {a : α}
    (hp : create p = .ok a) (new : name p ∉ t.names) : Collected name create (ps ++ [p]) (t.insert (name p) a) := by
  rw [h.mem_names] at new
  refine ⟨?_, fun q hq => ?_, fun n b => ?_⟩
  · rw [List.map_append, List.nodup_append]
    refine ⟨h.distinct, List.nodup_singleton _, fun m hm m' hm' heq => new ?_⟩
    rw [List.map_singleton, List.mem_singleton] at hm'
    exact hm' ▸ heq ▸ hm
  · rcases List.mem_append.1 hq with hq | hq
    · exact h.created q hq
    · exact ⟨a, List.mem_singleton.1 hq ▸ hp⟩
  · rw [NameTable.find?_insert]
    split
    · rename_i hn
      subst hn
      constructor
      · intro hb
        cases hb
        exact ⟨p, by simp, rfl, hp⟩
      · rintro ⟨q, hq, hn, hb⟩
        rcases List.mem_append.1 hq with hq | hq
        · exact absurd (hn ▸ List.mem_map_of_mem hq) new
        · cases List.mem_singleton.1 hq
          exact congrArg some (Except.ok.inj (hp.symm.trans hb))
    · rename_i hn
      rw [h.found]
      refine ⟨fun ⟨q, hq, hqn, hb⟩ => ⟨q, List.mem_append_left _ hq, hqn, hb⟩, ?_⟩
      rintro ⟨q, hq, hqn, hb⟩
      rcases List.mem_append.1 hq with hq | hq
      · exact ⟨q, hq, hqn, hb⟩
      · cases List.mem_singleton.1 hq
        exact absurd hqn.symm hn

theorem collect_concat (ps : List π) (p : π) : collect kind name create (ps ++ [p]) =
    collect kind name create ps >>= fun t => create p >>= fun a => insertUnique kind t (name p) a :=
  foldlM_concat ..

theorem collected_of_collect {ps : List π} {t : NameTable α} (h : collect kind name create ps = .ok t) :
    Collected name create ps t := by
  induction ps using List.reverseRecOn generalizing t with
  | nil => cases h; exact ⟨.nil, by simp, by simp⟩
  | append_singleton ps p ih =>
    rw [collect_concat] at h
    obtain ⟨t₀, h₀, h⟩ := bind_eq_ok.1 h
    obtain ⟨a, ha, h⟩ := bind_eq_ok.1 h
    obtain ⟨hnew, rfl⟩ := insertUnique_eq_ok.1 h
    exact (ih h₀).insert ha hnew

/-- A list is refused for one of its policies, or for a name that occurs twice. -/
theorem collect_error {ps : List π} {e : ConfigError} (h : collect kind name create ps = .error e) :
    (∃ p ∈ ps, create p = .error e) ∨ ∃ n, List.Duplicate n (ps.map name) ∧ e = .duplicatePolicy kind n := by
  induction ps using List.reverseRecOn with
  | nil => cases h
  | append_singleton ps p ih =>
    rw [collect_concat] at h
    rcases bind_eq_error.1 h with h | ⟨t, ht, h⟩
    · rcases ih h with ⟨q, hq, he⟩ | ⟨n, hn, he⟩
      · exact .inl ⟨q, List.mem_append_left _ hq, he⟩
      · exact .inr ⟨n, hn.mono_sublist (by rw [List.map_append]; exact List.sublist_append_left ..), he⟩
    · rcases bind_eq_error.1 h with h | ⟨a, -, h⟩
      · exact .inl ⟨p, by simp, h⟩
      · obtain ⟨hmem, he⟩ := insertUnique_eq_error.1 h
        rw [(collected_of_collect ht).mem_names] at hmem
        refine .inr ⟨name p, ?_, he⟩
        rw [List.duplicate_iff_two_le_count, List.map_append, List.count_append]
        have := List.count_pos_iff.2 hmem
        rw [List.map_singleton, List.count_singleton_self]
        omega

theorem collect_eq_ok {ps : List π} {t : NameTable α} :
    collect kind name create ps = .ok t ↔ Collected name create ps t := by
  refine ⟨collected_of_collect, fun h => ?_⟩
  cases hc : collect kind name create ps with
  | ok t' => exact congrArg _ ((collected_of_collect hc).unique h fun _ => Iff.rfl)
  | error e =>
    rcases collect_error hc with ⟨p, hp, he⟩ | ⟨n, hn, -⟩
    · obtain ⟨a, ha⟩ := h.created p hp
      cases ha.symm.trans he
    · exact absurd hn (List.nodup_iff_forall_not_duplicate.1 h.distinct n)

end Blueprint

end CallGuard

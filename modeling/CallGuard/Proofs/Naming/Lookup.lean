/-
Tables told by their look-ups. The entries of a table are what its look-ups find (`find?_eq_some`), so two
tables that answer every look-up alike are the same table (`ext_find?`), and the names come in increasing
order, each once.
-/
import CallGuard.Naming.Table

namespace CallGuard

namespace NameTable

variable {α : Type}

@[simp] theorem find?_empty (name : String) : (empty : NameTable α).find? name = none := rfl

theorem sorted_names (t : NameTable α) : t.names.Pairwise (· < ·) := List.pairwise_map.2 t.sorted

/-- A look-up finds exactly the entries. -/
theorem find?_eq_some {t : NameTable α} {name : String} {a : α} : t.find? name = some a ↔ (name, a) ∈ t.entries := by
  obtain ⟨l, hs⟩ := t
  simp only [find?]
  induction l with
  | nil => simp
  | cons e rest ih =>
    obtain ⟨he, hrest⟩ := List.pairwise_cons.1 hs
    rw [lookup_cons_eq, List.mem_cons]
    by_cases h : name = e.1
    · -- No later entry has the name, since names increase.
      have hno : (name, a) ∉ rest := fun hm => String.lt_irrefl _ (h ▸ he _ hm : e.1 < e.1)
      rw [if_pos h, or_iff_left hno, Option.some.injEq]
      exact ⟨fun ha => Prod.ext h ha.symm, fun ha => (congrArg Prod.snd ha).symm⟩
    · have hne : (name, a) ≠ e := fun heq => h (congrArg Prod.fst heq)
      rw [if_neg h, ih hrest, or_iff_right hne]

theorem mem_names {t : NameTable α} {name : String} : name ∈ t.names ↔ ∃ a, t.find? name = some a := by
  rw [← t.find?_isSome, Option.isSome_iff_exists]

theorem contains_iff {t : NameTable α} {name : String} : t.contains name = true ↔ name ∈ t.names :=
  t.find?_isSome name

theorem nodup_entries (t : NameTable α) : t.entries.Nodup := by
  refine t.sorted.imp ?_
  rintro e _ hlt rfl
  exact String.lt_irrefl _ hlt

/-- Tables with the same look-ups are the same. -/
theorem ext_find? {t t' : NameTable α} (h : ∀ name, t.find? name = t'.find? name) : t = t' := by
  have hmem : ∀ e, e ∈ t.entries ↔ e ∈ t'.entries := fun (name, a) => by
    rw [← find?_eq_some, h, find?_eq_some]
  have hperm := (List.perm_ext_iff_of_nodup t.nodup_entries t'.nodup_entries).2 hmem
  have heq : t.entries = t'.entries := hperm.eq_of_pairwise
    (fun a b _ _ hab hba => absurd (String.lt_trans hab hba) (String.lt_irrefl _)) t.sorted t'.sorted
  cases t; cases t'; cases heq; rfl

end NameTable

end CallGuard

/-
Tables of names: finitely many names, each with one entry, in the order of their characters. Main
statements: looking up what was inserted (`find?_insert`), and a name is in the table exactly if it has
an entry (`find?_isSome`).
-/

namespace CallGuard

/-- Entries by name, in increasing order of the names. -/
structure NameTable (α : Type) where
  entries : List (String × α)
  sorted : entries.Pairwise fun a b => a.1 < b.1

namespace NameTable

variable {α β : Type}

/-! ## Insertion -/

/-- Puts an entry in its place; it takes the place of one of the same name. -/
def insertInto (name : String) (a : α) : List (String × α) → List (String × α)
  | [] => [(name, a)]
  | e :: rest =>
    if name < e.1 then (name, a) :: e :: rest
    else if name = e.1 then (name, a) :: rest
    else e :: insertInto name a rest

theorem mem_insertInto {name : String} {a : α} {l : List (String × α)} {e : String × α}
    (h : e ∈ insertInto name a l) : e = (name, a) ∨ e ∈ l := by
  induction l with
  | nil => simp_all [insertInto]
  | cons x rest ih =>
    unfold insertInto at h
    split at h
    · simpa using h
    · split at h
      · simp only [List.mem_cons] at h ⊢
        exact h.imp_right Or.inr
      · simp only [List.mem_cons] at h ⊢
        rcases h with h | h
        · exact Or.inr (Or.inl h)
        · exact (ih h).imp_right Or.inr

theorem sorted_insertInto {name : String} {a : α} {l : List (String × α)}
    (h : l.Pairwise fun a b => a.1 < b.1) :
    (insertInto name a l).Pairwise fun a b => a.1 < b.1 := by
  induction l with
  | nil => simp [insertInto]
  | cons x rest ih =>
    obtain ⟨hx, hr⟩ := List.pairwise_cons.1 h
    unfold insertInto
    split
    · rename_i hlt
      refine List.pairwise_cons.2 ⟨fun b hb => ?_, h⟩
      rcases List.mem_cons.1 hb with rfl | hb
      · exact hlt
      · exact String.lt_trans hlt (hx b hb)
    · split
      · rename_i heq
        subst heq
        exact List.pairwise_cons.2 ⟨hx, hr⟩
      · rename_i hlt hne
        refine List.pairwise_cons.2 ⟨fun b hb => ?_, ih hr⟩
        rcases mem_insertInto hb with rfl | hb
        · exact Std.lt_of_le_of_ne hlt (Ne.symm hne)
        · exact hx b hb

/-- The table without entries. -/
def empty : NameTable α := ⟨[], .nil⟩

instance : Inhabited (NameTable α) := ⟨empty⟩

/-- The table with one more entry, which takes the place of one of the same name. -/
def insert (t : NameTable α) (name : String) (a : α) : NameTable α :=
  ⟨insertInto name a t.entries, sorted_insertInto t.sorted⟩

/-- The table of a list; of two entries of one name the later one counts. -/
def ofList (l : List (String × α)) : NameTable α := l.foldl (fun t e => t.insert e.1 e.2) empty

/-! ## Looking up -/

/-- The entry of a name. -/
def find? (t : NameTable α) (name : String) : Option α := t.entries.lookup name

def contains (t : NameTable α) (name : String) : Bool := (t.find? name).isSome

/-- The names in increasing order. -/
def names (t : NameTable α) : List String := t.entries.map Prod.fst

def size (t : NameTable α) : Nat := t.entries.length

/-- The first entry decides, if it has the name. -/
theorem lookup_cons_eq (e : String × α) (l : List (String × α)) (name : String) :
    (e :: l).lookup name = if name = e.1 then some e.2 else l.lookup name := by
  rw [List.lookup_cons]
  by_cases h : name = e.1
  · simp [h]
  · have hb : (name == e.1) = false := by simpa using h
    simp [h, hb]

theorem lookup_insertInto (l : List (String × α)) (name other : String) (a : α) :
    (insertInto name a l).lookup other = if other = name then some a else l.lookup other := by
  induction l with
  | nil => simp [insertInto, lookup_cons_eq]
  | cons x rest ih =>
    unfold insertInto
    split
    · simp [lookup_cons_eq]
    · split
      · rename_i heq
        subst heq
        simp only [lookup_cons_eq]
        split <;> rfl
      · rename_i hne
        simp only [lookup_cons_eq, ih]
        by_cases h : other = x.1
        · simp [h, Ne.symm hne]
        · simp [h]

/-- What was inserted is found under its name, and nothing else changes. -/
theorem find?_insert (t : NameTable α) (name other : String) (a : α) :
    (t.insert name a).find? other = if other = name then some a else t.find? other :=
  lookup_insertInto t.entries name other a

theorem find?_isSome (t : NameTable α) (name : String) :
    (t.find? name).isSome ↔ name ∈ t.names := by
  simp only [find?, names]
  generalize t.entries = l
  induction l with
  | nil => simp
  | cons x rest ih =>
    rw [lookup_cons_eq]
    by_cases h : name = x.1
    · simp [h]
    · simp [h, ih]

/-- Changes every entry. -/
def map (f : String → α → β) (t : NameTable α) : NameTable β :=
  ⟨t.entries.map fun e => (e.1, f e.1 e.2), by
    rw [List.pairwise_map]; exact t.sorted⟩

end NameTable

end CallGuard

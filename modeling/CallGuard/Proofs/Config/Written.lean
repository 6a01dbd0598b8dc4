/-
A configuration is read back from the tokens that it is written as (`Configuration.recovers`). Readers recover what was
written one layer at a time, whatever stands behind (`Recovers`): an object by its members, each of which takes the
fields read so far one further (`Collects`), and a table because its names come in increasing order, so that every entry
is inserted behind the others.
-/
import CallGuard.Config.Reader
import CallGuard.Config.Writer
import CallGuard.Proofs.Json.Scanned

namespace CallGuard

variable {α β s : Type}

/-- A reader takes the tokens of a value, and returns what was written. -/
def Recovers (read : Reader α) (v : Json) (a : α) : Prop := ∀ behind, read (v.tokens ++ behind) = .ok (a, behind)

/-! ## Values -/

theorem recovers_uint64 (n : UInt64) : Recovers readUInt64 (.number (.whole n)) n := fun _ => by
  rw [Json.tokens]
  rfl

theorem recovers_uint32 (n : UInt32) : Recovers readUInt32 (.number (.whole n.toUInt64)) n := fun behind => by
  have hlt : n.toUInt64.toNat < 4294967296 := by
    rw [UInt32.toNat_toUInt64]
    exact n.toNat_lt
  rw [Json.tokens]
  show (if n.toUInt64.toNat < 4294967296 then Except.ok (n.toUInt64.toUInt32, behind) else _) = _
  rw [if_pos hlt, UInt32.toUInt32_toUInt64]

theorem recovers_real (x : Binary64) : Recovers readReal (.number (.real x)) x := fun _ => by
  rw [Json.tokens]
  rfl

theorem recovers_string (t : String) : Recovers readString (.string t) t := fun _ => by
  rw [Json.tokens]
  rfl

/-- What is written as something else than null is there. -/
theorem Recovers.option {read : Reader α} {v : Json} {a : α} (h : Recovers read v a)
    (hnull : ∀ behind, (v.tokens ++ behind).head? ≠ some .null) : Recovers (readOption read) v (some a) := fun behind => by
  unfold readOption
  split
  · rename_i heq
    exact absurd (by rw [heq]; rfl) (hnull behind)
  · rw [h behind]
    rfl

theorem number_ne_null (n : JsonNumber) (behind : List Token) : ((Json.number n).tokens ++ behind).head? ≠ some .null := by
  rw [Json.tokens]
  nofun

theorem string_ne_null (t : String) (behind : List Token) : ((Json.string t).tokens ++ behind).head? ≠ some .null := by
  rw [Json.tokens]
  nofun

/-! ## Objects -/

/-- Reading members one after the other takes what was read so far from one state to another. -/
inductive Collects (member : s → String → Reader s) : s → List (String × Json) → s → Prop where
  | nil (a : s) : Collects member a [] a
  | cons {a b c : s} {name : String} {v : Json} {rest : List (String × Json)}
      (h : ∀ behind, member a name (.colon :: (v.tokens ++ behind)) = .ok (b, behind)) (hrest : Collects member b rest c) :
      Collects member a ((name, v) :: rest) c

/-- Members behind the first one. -/
def furtherMembers (members : List (String × Json)) : List Token :=
  members.flatMap fun m => .comma :: .string m.1 :: .colon :: m.2.tokens

theorem separated_cons (part : List Token) (parts : List (List Token)) :
    Json.separated (part :: parts) = part ++ parts.flatMap (.comma :: ·) := by
  induction parts generalizing part with
  | nil => simp [Json.separated]
  | cons next parts ih => simp [Json.separated, ih]

theorem length_le_furtherMembers (members : List (String × Json)) : members.length ≤ (furtherMembers members).length := by
  induction members with
  | nil => exact Nat.zero_le _
  | cons m members ih =>
    rw [furtherMembers] at ih ⊢
    rw [List.flatMap_cons, List.length_append, List.length_cons, List.length_cons]
    omega

theorem readMembers_further {member : s → String → Reader s} {a b : s} {members : List (String × Json)}
    (h : Collects member a members b) : ∀ {fuel : Nat} (behind : List Token), members.length < fuel →
      readMembers member fuel false a (furtherMembers members ++ .closeBrace :: behind) = .ok (b, behind) := by
  induction h with
  | nil a =>
    intro fuel behind hfuel
    obtain ⟨fuel, rfl⟩ : ∃ n, fuel = n + 1 := ⟨fuel - 1, by omega⟩
    rfl
  | @cons a b c name v rest hmember _ ih =>
    intro fuel behind hfuel
    obtain ⟨fuel, rfl⟩ : ∃ n, fuel = n + 1 := ⟨fuel - 1, by omega⟩
    rw [List.length_cons] at hfuel
    have htokens : furtherMembers ((name, v) :: rest) ++ .closeBrace :: behind =
        .comma :: .string name :: .colon :: (v.tokens ++ (furtherMembers rest ++ .closeBrace :: behind)) := by
      simp [furtherMembers]
    rw [htokens]
    show (member a name _ >>= fun p => readMembers member fuel false p.1 p.2) = _
    rw [hmember]
    exact ih behind (by omega)

/-- An object is read to its end. -/
theorem readObject_members {member : s → String → Reader s} {a b : s} {members : List (String × Json)}
    (h : Collects member a members b) (behind : List Token) :
    readObject member a (Json.separated (Json.tokensOfMembers members) ++ .closeBrace :: behind) = .ok (b, behind) := by
  cases h with
  | nil => rfl
  | @cons _ b' _ name v rest hmember hrest =>
    have htokens : Json.separated (Json.tokensOfMembers ((name, v) :: rest)) ++ .closeBrace :: behind =
        .string name :: .colon :: (v.tokens ++ (furtherMembers rest ++ .closeBrace :: behind)) := by
      simp [Json.tokensOfMembers_eq, separated_cons, furtherMembers, List.flatMap_map]
    have hlength := length_le_furtherMembers rest
    rw [htokens]
    show (member a name _ >>= fun p => readMembers member _ false p.1 p.2) = _
    rw [hmember]
    refine readMembers_further hrest behind ?_
    simp only [List.length_cons, List.length_append]
    omega

theorem recovers_object {read : Reader α} {members : List (String × Json)} {a : α}
    (h : ∀ behind, read (.openBrace :: (Json.separated (Json.tokensOfMembers members) ++ .closeBrace :: behind)) =
      .ok (a, behind)) :
    Recovers read (.object members) a := fun behind => by
  rw [Json.tokens, List.append_assoc]
  exact h behind

namespace Collects

variable {member : s → String → Reader s} {a b c : s} {name : String} {rest : List (String × Json)}

/-- A field that did not come before. -/
theorem field {v : Json} {x : α} {read : Reader α} (a : s) (name : String) (store : α → s) (h : Recovers read v x)
    (hrest : Collects member (store x) rest c) (hmember : member a name = readField name none read store) :
    Collects member a ((name, v) :: rest) c := by
  refine .cons (fun behind => ?_) hrest
  rw [hmember]
  show (read (v.tokens ++ behind)).map _ = _
  rw [h behind]
  rfl

/-- A field that is left out if it is absent. -/
theorem optional {f : α → Json} {o : Option α} {read : Reader α} (name : String) (store : Option (Option α) → s)
    (h : ∀ x, Recovers read (f x) x) (hnull : ∀ x behind, ((f x).tokens ++ behind).head? ≠ some .null)
    (hrest : Collects member (store (o.map some)) rest c)
    (hmember : member (store none) name = readField name none (readOption read) fun x => store (some x)) :
    Collects member (store none) (optionalMember name f o ++ rest) c := by
  cases o with
  | none => exact hrest
  | some x => exact field _ name _ ((h x).option (hnull x)) hrest hmember

end Collects

/-! ## Tables -/

namespace NameTable

theorem insertInto_append {name : String} {a : α} {l : List (String × α)} (h : ∀ e ∈ l, e.1 < name) :
    insertInto name a l = l ++ [(name, a)] := by
  induction l with
  | nil => rfl
  | cons e l ih =>
    have hlt := h e List.mem_cons_self
    have hne : name ≠ e.1 := fun heq => String.lt_irrefl _ (heq ▸ hlt)
    rw [insertInto, if_neg fun hgt => String.lt_irrefl _ (String.lt_trans hlt hgt), if_neg hne,
      ih fun x hx => h x (List.mem_cons_of_mem _ hx)]
    rfl

theorem ext_entries {t t' : NameTable α} (h : t.entries = t'.entries) : t = t' := by
  cases t
  cases t'
  cases h
  rfl

variable {read : Reader α} {f : α → Json}

/-- Entries in increasing order of their names are inserted one behind the other. -/
theorem collects_entries (h : ∀ a, Recovers read (f a) a) {l : List (String × α)} :
    ∀ {t t' : NameTable α}, t'.entries = t.entries ++ l →
      Collects (fun t name rest => do
        let (a, rest) ← readMember read rest
        return (t.insert name a, rest)) t (l.map fun e => (e.1, f e.2)) t' := by
  induction l with
  | nil =>
    intro t t' hentries
    rw [List.append_nil] at hentries
    exact ext_entries hentries ▸ .nil t'
  | cons e l ih =>
    intro t t' hentries
    have hsorted := t'.sorted
    rw [hentries] at hsorted
    have hbefore : ∀ x ∈ t.entries, x.1 < e.1 := fun x hx =>
      (List.pairwise_append.1 hsorted).2.2 x hx e List.mem_cons_self
    refine .cons (b := t.insert e.1 e.2) (fun behind => ?_) (ih ?_)
    · show ((read ((f e.2).tokens ++ behind)) >>= fun p => pure (t.insert e.1 p.1, p.2)) = _
      rw [h e.2 behind]
      rfl
    · rw [hentries, show (t.insert e.1 e.2).entries = _ from insertInto_append hbefore, List.append_assoc]
      rfl

theorem recovers (h : ∀ a, Recovers read (f a) a) (t : NameTable α) : Recovers (readTable read) (t.json f) t :=
  recovers_object fun behind => readObject_members (collects_entries h rfl) behind

end NameTable

/-! ## Configurations -/

@[simp] theorem getD_map_some (o : Option α) : (o.map some).getD none = o := by
  cases o <;> rfl

theorem TimeoutConfig.recovers (c : TimeoutConfig) : Recovers TimeoutConfig.read c.json c := by
  have hmembers : Collects readMember {} [("duration_ms", .number (.whole c.durationMs))] ⟨some c.durationMs⟩ :=
    .field _ _ (fun n => (⟨some n⟩ : Partial)) (recovers_uint64 _) (.nil _) rfl
  refine recovers_object fun behind => ?_
  show (readObject readMember {} _ >>= fun p => _) = _
  rw [readObject_members hmembers]
  rfl

theorem FallbackConfig.recovers (c : FallbackConfig) : Recovers FallbackConfig.read c.json c := by
  have hmembers : Collects readMember {} (optionalMember "failure_predicate" .string c.predicate ++ [])
      ⟨c.predicate.map some⟩ :=
    .optional _ (fun o => (⟨o⟩ : Partial)) recovers_string string_ne_null (.nil _) rfl
  rw [List.append_nil] at hmembers
  refine recovers_object fun behind => ?_
  show (readObject readMember {} _ >>= fun p => _) = _
  rw [readObject_members hmembers]
  show Except.ok (FallbackConfig.mk ((c.predicate.map some).getD none), behind) = _
  rw [getD_map_some]

theorem RetryConfig.recovers (c : RetryConfig) : Recovers RetryConfig.read c.json c := by
  -- From the last member to the first, each with the fields that came before it.
  have hpredicate := Collects.optional (o := c.predicate) "failure_predicate"
    (fun o => (⟨some c.attempts, some c.delayMs, c.multiplier.map some, c.maxDelayMs.map some, o⟩ : Partial))
    recovers_string string_ne_null (.nil _) (show readMember _ _ = _ from rfl)
  have hmaxDelay := Collects.optional "max_delay_ms"
    (fun o => (⟨some c.attempts, some c.delayMs, c.multiplier.map some, o, none⟩ : Partial))
    recovers_uint64 (fun n => number_ne_null _) hpredicate rfl
  have hmultiplier := Collects.optional "delay_multiplier"
    (fun o => (⟨some c.attempts, some c.delayMs, o, none, none⟩ : Partial))
    recovers_real (fun x => number_ne_null _) hmaxDelay rfl
  have hdelay := Collects.field ⟨some c.attempts, none, none, none, none⟩ "delay_ms"
    (fun n => (⟨some c.attempts, some n, none, none, none⟩ : Partial)) (recovers_uint64 c.delayMs) hmultiplier rfl
  have hmembers := Collects.field {} "attempts" (fun n => (⟨some n, none, none, none, none⟩ : Partial))
    (recovers_uint32 c.attempts) hdelay rfl
  have hjson : c.json = .object (("attempts", .number (.whole c.attempts.toUInt64)) ::
      ("delay_ms", .number (.whole c.delayMs)) :: (optionalMember "delay_multiplier" (fun m => .number (.real m)) c.multiplier ++
        (optionalMember "max_delay_ms" (fun n => .number (.whole n)) c.maxDelayMs ++
          (optionalMember "failure_predicate" .string c.predicate ++ [])))) := by
    simp [json]
  rw [hjson]
  refine recovers_object fun behind => ?_
  show (readObject readMember {} _ >>= fun p => _) = _
  rw [readObject_members hmembers]
  show Except.ok (RetryConfig.mk c.attempts c.delayMs ((c.multiplier.map some).getD none)
    ((c.maxDelayMs.map some).getD none) ((c.predicate.map some).getD none), behind) = _
  rw [getD_map_some, getD_map_some, getD_map_some]

theorem Configuration.recovers (c : Configuration) : Recovers Configuration.read c.json c := by
  have hfallback := Collects.field ⟨some c.timeout, some c.retry, none⟩ "fallback"
    (fun t => (⟨some c.timeout, some c.retry, some t⟩ : Partial)) (NameTable.recovers FallbackConfig.recovers c.fallback)
    (.nil _) (show readMember _ _ = _ from rfl)
  have hretry := Collects.field ⟨some c.timeout, none, none⟩ "retry" (fun t => (⟨some c.timeout, some t, none⟩ : Partial))
    (NameTable.recovers RetryConfig.recovers c.retry) hfallback rfl
  have hmembers := Collects.field {} "timeout" (fun t => (⟨some t, none, none⟩ : Partial))
    (NameTable.recovers TimeoutConfig.recovers c.timeout) hretry rfl
  refine recovers_object fun behind => ?_
  show (readObject readMember {} _ >>= fun p => _) = _
  rw [readObject_members hmembers]
  rfl

end CallGuard

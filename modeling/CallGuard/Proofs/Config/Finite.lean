/-
The multipliers of a configuration that was read are finite (`Configuration.finite_of_ofText`). Text has no other numbers
(`finite_scan`), and no reader makes one: what each returns is finite if the numbers that it was given are, and it leaves
no others behind (`Gives`), one layer of readers after the other.
-/
import CallGuard.Config.Reader
import CallGuard.Proofs.Policy.Wait
import CallGuard.Proofs.Registry.Collect

namespace CallGuard

variable {α β s : Type}

/-! ## Text -/

/-- A token that is no infinite number. -/
def Token.IsFinite : Token → Prop
  | number (.real x) => x.isFinite = true
  | _ => True

theorem finite_numberOf {negative : Bool} {whole : List Char} {fraction : Option (List Char)} {exponent : Option Int}
    {n : JsonNumber} (h : numberOf negative whole fraction exponent = .ok n) : (Token.number n).IsFinite := by
  unfold numberOf at h
  simp only [] at h
  split_ifs at h with _ _ hfinite
  · cases h
    trivial
  · cases h
    trivial
  · cases h
    exact hfinite

theorem finite_scanNumber {negative : Bool} {cs rest : List Char} {n : JsonNumber}
    (h : scanNumber negative cs = .ok (n, rest)) : (Token.number n).IsFinite := by
  unfold scanNumber at h
  obtain ⟨⟨whole, r₁⟩, -, h⟩ := bind_eq_ok.1 h
  simp only [] at h
  split_ifs at h
  · cases h
  · obtain ⟨⟨fraction, r₂⟩, -, h⟩ := bind_eq_ok.1 h
    obtain ⟨⟨exponent, r₃⟩, -, h⟩ := bind_eq_ok.1 h
    obtain ⟨n', hn, h⟩ := bind_eq_ok.1 h
    cases h
    exact finite_numberOf hn

theorem finite_scanToken (c : Char) (rest : List Char) : (scanToken c rest).1.IsFinite := by
  unfold scanToken
  simp only []
  split
  case h_1 | h_2 | h_3 | h_4 | h_5 | h_6 => trivial
  case h_7 | h_8 | h_9 | h_10 => split <;> trivial
  case h_11 =>
    split
    · rename_i h
      exact finite_scanNumber h
    · trivial
  case h_12 =>
    split_ifs
    · split
      · rename_i h
        exact finite_scanNumber h
      · trivial
    · trivial

theorem finite_scanFuel : ∀ (fuel : Nat) (cs : List Char), ∀ t ∈ scanFuel fuel cs, t.IsFinite
  | 0, _ => fun t ht => by cases ht
  | _ + 1, [] => fun t ht => by cases ht
  | fuel + 1, c :: rest => by
    intro t ht
    rw [scanFuel] at ht
    split_ifs at ht
    · exact finite_scanFuel fuel rest t ht
    · rcases List.mem_cons.1 ht with rfl | ht
      · exact finite_scanToken c rest
      · exact finite_scanFuel fuel _ t ht

theorem finite_scan (s : String) : ∀ t ∈ scan s, t.IsFinite := finite_scanFuel _ _

/-! ## Readers -/

/-- What a reader returns has a property if the numbers it is given are finite, and so are those that it leaves. -/
def Gives (read : Reader α) (P : α → Prop) : Prop :=
  ∀ ts a rest, read ts = .ok (a, rest) → (∀ t ∈ ts, t.IsFinite) → P a ∧ ∀ t ∈ rest, t.IsFinite

namespace Gives

variable {read : Reader α} {P : α → Prop} {Q : β → Prop}

theorem map (h : Gives read P) {f : α → β} (hf : ∀ a, P a → Q (f a)) :
    Gives (fun ts => (read ts).map fun p => (f p.1, p.2)) Q := by
  intro ts b rest hread hts
  cases hr : read ts with
  | error e =>
    simp only [hr] at hread
    cases hread
  | ok p =>
    simp only [hr] at hread
    cases hread
    obtain ⟨ha, hrest⟩ := h ts p.1 p.2 hr hts
    exact ⟨hf _ ha, hrest⟩

theorem weaken {R : α → Prop} (h : Gives read P) (hR : ∀ a, P a → R a) : Gives read R := fun ts a rest hread hts =>
  (h ts a rest hread hts).imp_left (hR a)

theorem present (h : Gives read P) : Gives (fun ts => (read ts).map fun p => (some p.1, p.2)) fun o => ∀ a ∈ o, P a :=
  h.map (f := some) fun a ha b hb => by
    cases hb
    exact ha

theorem error {e : List Token → ReadError} : Gives (fun ts => .error (e ts)) P := nofun

end Gives

theorem gives_uint64 : Gives readUInt64 fun _ => True := by
  intro ts a rest hread hts
  unfold readUInt64 at hread
  split at hread <;> cases hread
  exact ⟨trivial, (List.forall_mem_cons.1 hts).2⟩

theorem gives_uint32 : Gives readUInt32 fun _ => True := by
  intro ts a rest hread hts
  unfold readUInt32 at hread
  split at hread
  · split_ifs at hread
    cases hread
    exact ⟨trivial, (List.forall_mem_cons.1 hts).2⟩
  · cases hread
  · cases hread

theorem gives_string : Gives readString fun _ => True := by
  intro ts a rest hread hts
  unfold readString at hread
  split at hread <;> cases hread
  exact ⟨trivial, (List.forall_mem_cons.1 hts).2⟩

/-- A whole number of 64 bits has a finite nearest number. -/
theorem Binary64.isFinite_ofUInt64 (n : UInt64) : (ofNat n.toNat).isFinite = true := by
  obtain ⟨units, fits, heq, -⟩ := ofNat_of_lt_twoPow (n := n.toNat) (k := 64) (by decide) n.toNat_lt
  rw [heq]
  rfl

theorem gives_real : Gives readReal fun x => x.isFinite = true := by
  intro ts x rest hread hts
  unfold readReal at hread
  -- The equations are taken apart by rewriting, since a number must not be computed here.
  split at hread <;> simp only [Except.ok.injEq, Prod.mk.injEq, reduceCtorEq] at hread <;> obtain ⟨rfl, rfl⟩ := hread
  · exact ⟨Binary64.isFinite_ofUInt64 _, (List.forall_mem_cons.1 hts).2⟩
  · exact ⟨(Binary64.isFinite_neg _).trans (Binary64.isFinite_ofUInt64 _), (List.forall_mem_cons.1 hts).2⟩
  · exact ⟨(List.forall_mem_cons.1 hts).1, (List.forall_mem_cons.1 hts).2⟩

section Layers

variable {read : Reader α} {P : α → Prop}

theorem gives_option (h : Gives read P) : Gives (readOption read) fun o => ∀ a ∈ o, P a := by
  intro ts o rest hread hts
  unfold readOption at hread
  split at hread
  · cases hread
    exact ⟨fun _ ha => (Option.not_mem_none _ ha).elim, (List.forall_mem_cons.1 hts).2⟩
  · exact h.present ts o rest hread hts

theorem gives_element (h : Gives read P) (first : Bool) : Gives (readElement read first) fun o => ∀ a ∈ o, P a := by
  intro ts o rest hread hts
  unfold readElement at hread
  simp only [] at hread
  split at hread
  · cases hread
  · -- The end of the array stays where it is.
    cases hread
    exact ⟨fun _ ha => (Option.not_mem_none _ ha).elim, hts⟩
  · exact h.present ts o rest hread hts
  · cases hread
  · cases hread
  · exact h.present _ o rest hread (List.forall_mem_cons.1 hts).2
  · cases hread

theorem gives_required (h : Gives read P) (position : Nat) (expected : String) :
    Gives (readRequired read position expected) P := by
  intro ts a rest hread hts
  unfold readRequired at hread
  split at hread
  · cases hread
  · rename_i helement
    cases hread
    obtain ⟨ha, hrest⟩ := gives_element h _ ts _ _ helement hts
    exact ⟨ha a rfl, hrest⟩
  · cases hread

theorem gives_defaulted (h : Gives read P) {default : α} (hdefault : P default) (position : Nat) :
    Gives (readDefaulted read default position) P :=
  (gives_element h _).map (f := fun o => o.getD default) fun o ho => by
    cases o with
    | none => exact hdefault
    | some a => exact ho a rfl

theorem gives_member (h : Gives read P) : Gives (readMember read) P := by
  intro ts a rest hread hts
  obtain ⟨behind, hcolon, hread⟩ := bind_eq_ok.1 hread
  unfold readColon at hcolon
  split at hcolon <;> cases hcolon
  exact h behind a rest hread (List.forall_mem_cons.1 hts).2

/-- Reading a name only takes tokens away. -/
theorem finite_of_readName {first : Bool} {ts rest : List Token} {o : Option String}
    (h : readName first ts = .ok (o, rest)) (hts : ∀ t ∈ ts, t.IsFinite) : ∀ t ∈ rest, t.IsFinite := by
  unfold readName at h
  simp only [] at h
  split at h
  · cases h
  · cases h
    exact hts
  · split at h <;> cases h
    exact (List.forall_mem_cons.1 hts).2
  · split at h <;> cases h
    exact (List.forall_mem_cons.1 (List.forall_mem_cons.1 hts).2).2
  · cases h

theorem gives_members {member : s → String → Reader s} {I : s → Prop} (h : ∀ a name, I a → Gives (member a name) I) :
    ∀ (fuel : Nat) (first : Bool) (a : s), I a → Gives (readMembers member fuel first a) I
  | 0, _, _, _ => by
    intro ts b rest hread
    cases hread
  | fuel + 1, first, a, ha => by
    intro ts b rest hread hts
    obtain ⟨⟨name, behind⟩, hname, hread⟩ := bind_eq_ok.1 hread
    have hbehind := finite_of_readName hname hts
    cases name with
    | none =>
      cases hread
      exact ⟨ha, fun t ht => hbehind t (List.mem_of_mem_tail ht)⟩
    | some name =>
      obtain ⟨⟨a', behind'⟩, hmember, hread⟩ := bind_eq_ok.1 hread
      obtain ⟨ha', hbehind'⟩ := h a name ha behind a' behind' hmember hbehind
      exact gives_members h fuel false a' ha' behind' b rest hread hbehind'

theorem gives_object {member : s → String → Reader s} {I : s → Prop} {initial : s} (hinitial : I initial)
    (h : ∀ a name, I a → Gives (member a name) I) : Gives (readObject member initial) I :=
  fun ts => gives_members h _ _ _ hinitial ts

theorem gives_record {expected : String} {fromArray fromObject : Reader α} (harray : Gives fromArray P)
    (hobject : Gives fromObject P) : Gives (readRecord expected fromArray fromObject) P := by
  intro ts a rest hread hts
  unfold readRecord at hread
  split at hread
  · obtain ⟨⟨a', behind⟩, hfrom, hread⟩ := bind_eq_ok.1 hread
    obtain ⟨ha, hbehind⟩ := harray _ a' behind hfrom (List.forall_mem_cons.1 hts).2
    obtain ⟨rest', hend, hread⟩ := bind_eq_ok.1 hread
    cases hread
    unfold endArray at hend
    split at hend <;> cases hend
    exact ⟨ha, (List.forall_mem_cons.1 hbehind).2⟩
  · exact hobject _ a rest hread (List.forall_mem_cons.1 hts).2
  · cases hread

theorem gives_table (h : Gives read P) : Gives (readTable read) fun t => ∀ e ∈ t.entries, P e.2 := by
  intro ts t rest hread hts
  unfold readTable at hread
  split at hread
  · -- Every entry of the table so far has the property, and so has the one that is inserted.
    refine gives_object (I := fun t => ∀ e ∈ t.entries, P e.2) (fun e he => by cases he) (fun t name ht => ?_) _ t rest
      hread (List.forall_mem_cons.1 hts).2
    refine (gives_member h).map (f := fun a => t.insert name a) fun a ha e he => ?_
    rcases NameTable.mem_insertInto he with rfl | he
    · exact ha
    · exact ht e he
  · cases hread

theorem gives_field {name : String} {before : Option α} {store : α → s} {I : s → Prop} (h : Gives read P)
    (hstore : ∀ a, P a → I (store a)) : Gives (readField name before read store) I := by
  intro ts b rest hread hts
  unfold readField at hread
  split at hread
  · cases hread
  · exact (gives_member h).map hstore ts b rest hread hts

end Layers

/-! ## Configurations -/

namespace TimeoutConfig

theorem gives : Gives TimeoutConfig.read fun _ => True := by
  refine gives_record (fun ts c rest hread hts => ?_) fun ts c rest hread hts => ?_
  · obtain ⟨⟨n, behind⟩, hn, hread⟩ := bind_eq_ok.1 hread
    cases hread
    exact ⟨trivial, (gives_required gives_uint64 _ _ ts n _ hn hts).2⟩
  · obtain ⟨⟨p, behind⟩, hp, hread⟩ := bind_eq_ok.1 hread
    obtain ⟨n, -, hread⟩ := bind_eq_ok.1 hread
    cases hread
    refine ⟨trivial, (gives_object (I := fun _ => True) trivial (fun p name _ => ?_) ts p _ hp hts).2⟩
    unfold TimeoutConfig.readMember
    split_ifs
    · exact gives_field gives_uint64 fun _ _ => trivial
    · exact .error

end TimeoutConfig

namespace FallbackConfig

theorem gives : Gives FallbackConfig.read fun _ => True := by
  have hpredicate := (gives_option gives_string).weaken (R := fun _ => True) fun _ _ => trivial
  refine gives_record (fun ts c rest hread hts => ?_) fun ts c rest hread hts => ?_
  · obtain ⟨⟨o, behind⟩, ho, hread⟩ := bind_eq_ok.1 hread
    cases hread
    exact ⟨trivial, (gives_defaulted hpredicate trivial _ ts o _ ho hts).2⟩
  · obtain ⟨⟨p, behind⟩, hp, hread⟩ := bind_eq_ok.1 hread
    cases hread
    refine ⟨trivial, (gives_object (I := fun _ => True) trivial (fun p name _ => ?_) ts p _ hp hts).2⟩
    unfold FallbackConfig.readMember
    split_ifs
    · exact gives_field hpredicate fun _ _ => trivial
    · exact .error

end FallbackConfig

namespace RetryConfig

/-- The multiplier is finite, if there is one. -/
def Finite (c : RetryConfig) : Prop := ∀ m ∈ c.multiplier, m.isFinite = true

theorem gives_member {p : Partial} {name : String} (hp : ∀ o ∈ p.multiplier, ∀ m ∈ o, m.isFinite = true) :
    Gives (readMember p name) fun p => ∀ o ∈ p.multiplier, ∀ m ∈ o, m.isFinite = true := by
  unfold readMember
  split_ifs
  · exact gives_field gives_uint32 fun _ _ => hp
  · exact gives_field gives_uint64 fun _ _ => hp
  · refine gives_field (gives_option gives_real) fun o ho o' ho' => ?_
    cases ho'
    exact ho
  · exact gives_field (gives_option gives_uint64) fun _ _ => hp
  · exact gives_field (gives_option gives_string) fun _ _ => hp
  · exact .error

theorem gives : Gives RetryConfig.read Finite := by
  refine gives_record (fun ts c rest hread hts => ?_) fun ts c rest hread hts => ?_
  · obtain ⟨⟨attempts, ts₁⟩, hattempts, hread⟩ := bind_eq_ok.1 hread
    obtain ⟨⟨delay, ts₂⟩, hdelay, hread⟩ := bind_eq_ok.1 hread
    obtain ⟨⟨multiplier, ts₃⟩, hmultiplier, hread⟩ := bind_eq_ok.1 hread
    obtain ⟨⟨maxDelay, ts₄⟩, hmaxDelay, hread⟩ := bind_eq_ok.1 hread
    obtain ⟨⟨predicate, ts₅⟩, hpredicate, hread⟩ := bind_eq_ok.1 hread
    cases hread
    obtain ⟨-, h₁⟩ := gives_required gives_uint32 _ _ ts _ _ hattempts hts
    obtain ⟨-, h₂⟩ := gives_defaulted gives_uint64 trivial _ ts₁ _ _ hdelay h₁
    obtain ⟨hfinite, h₃⟩ := gives_defaulted (gives_option gives_real) (fun _ h => (Option.not_mem_none _ h).elim) _ ts₂ _ _
      hmultiplier h₂
    obtain ⟨-, h₄⟩ := gives_defaulted (gives_option gives_uint64) (fun _ _ => trivial) _ ts₃ _ _ hmaxDelay h₃
    obtain ⟨-, h₅⟩ := gives_defaulted (gives_option gives_string) (fun _ _ => trivial) _ ts₄ _ _ hpredicate h₄
    exact ⟨hfinite, h₅⟩
  · obtain ⟨⟨p, behind⟩, hp, hread⟩ := bind_eq_ok.1 hread
    obtain ⟨attempts, -, hread⟩ := bind_eq_ok.1 hread
    cases hread
    obtain ⟨hfinite, hbehind⟩ := gives_object (I := fun p : Partial => ∀ o ∈ p.multiplier, ∀ m ∈ o, m.isFinite = true)
      (fun _ h => (Option.not_mem_none _ h).elim) (fun p name hp => gives_member hp) ts p _ hp hts
    refine ⟨fun m hm => ?_, hbehind⟩
    cases hmultiplier : p.multiplier with
    | none =>
      have hm' : m ∈ p.multiplier.getD none := hm
      rw [hmultiplier] at hm'
      cases hm'
    | some o =>
      have hm' : m ∈ p.multiplier.getD none := hm
      rw [hmultiplier] at hm'
      exact hfinite o hmultiplier m hm'

end RetryConfig

namespace Configuration

/-- Every multiplier is finite. -/
def Finite (c : Configuration) : Prop := ∀ e ∈ c.retry.entries, e.2.Finite

theorem gives_member {p : Partial} {name : String} (hp : ∀ t ∈ p.retry, ∀ e ∈ t.entries, e.2.Finite) :
    Gives (readMember p name) fun p => ∀ t ∈ p.retry, ∀ e ∈ t.entries, e.2.Finite := by
  unfold readMember
  split_ifs
  · exact gives_field (gives_table TimeoutConfig.gives) fun _ _ => hp
  · refine gives_field (gives_table RetryConfig.gives) fun t ht t' ht' => ?_
    cases ht'
    exact ht
  · exact gives_field (gives_table FallbackConfig.gives) fun _ _ => hp
  · exact .error

theorem gives : Gives Configuration.read Finite := by
  refine gives_record (fun ts c rest hread hts => ?_) fun ts c rest hread hts => ?_
  · obtain ⟨⟨timeout, ts₁⟩, htimeout, hread⟩ := bind_eq_ok.1 hread
    obtain ⟨⟨retry, ts₂⟩, hretry, hread⟩ := bind_eq_ok.1 hread
    obtain ⟨⟨fallback, ts₃⟩, hfallback, hread⟩ := bind_eq_ok.1 hread
    cases hread
    obtain ⟨-, h₁⟩ := gives_defaulted (gives_table TimeoutConfig.gives) (fun _ _ => trivial) _ ts _ _ htimeout hts
    obtain ⟨hfinite, h₂⟩ := gives_defaulted (gives_table RetryConfig.gives) (fun _ h => by cases h) _ ts₁ _ _ hretry h₁
    obtain ⟨-, h₃⟩ := gives_defaulted (gives_table FallbackConfig.gives) (fun _ _ => trivial) _ ts₂ _ _ hfallback h₂
    exact ⟨hfinite, h₃⟩
  · obtain ⟨⟨p, behind⟩, hp, hread⟩ := bind_eq_ok.1 hread
    cases hread
    obtain ⟨hfinite, hbehind⟩ := gives_object (I := fun p : Partial => ∀ t ∈ p.retry, ∀ e ∈ t.entries, e.2.Finite)
      (fun _ h => (Option.not_mem_none _ h).elim) (fun p name hp => gives_member hp) ts p _ hp hts
    refine ⟨fun e he => ?_, hbehind⟩
    have he' : e ∈ (p.retry.getD .empty).entries := he
    cases hretry : p.retry with
    | none =>
      rw [hretry] at he'
      cases he'
    | some t =>
      rw [hretry] at he'
      exact hfinite t hretry e he'

/-- What text says is finite. -/
theorem finite_of_ofText {text : String} {c : Configuration} (h : ofText text = .ok c) : c.Finite := by
  unfold ofText ofTokens at h
  split at h
  · cases h
  · rename_i hread
    cases h
    exact (gives _ _ _ hread (finite_scan text)).1
  · cases h

end Configuration

end CallGuard

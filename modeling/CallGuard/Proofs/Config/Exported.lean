/-
Timeouts that go out to a configuration and come back. An entry of a timeout in a list that is in order
without it is accepted exactly if it does not ask for zero milliseconds (`wrong_entered`), and the registry
then applies it for exactly as long as it says (`found_entered`). Of a policy the entry keeps the whole
milliseconds, as far as 64 bits go (`TimeoutConfig.ofPolicy_toNat`); one shorter than a millisecond has none
(`TimeoutConfig.ofPolicy_eq_zero`) and does not come back.
-/
import CallGuard.Proofs.Registry.Build

namespace CallGuard

/-! ## Whole milliseconds -/

/-- No count of 64 bits is too long for a duration. -/
theorem millisOf_nanos (n : UInt64) : (millisOf n).nanos = n.toNat * 1000000 := by
  have hn : n.toNat < 2 ^ 64 := n.toNat_lt
  refine Nat.min_eq_left ?_
  unfold longestNanos
  omega

theorem millisOf_millis (n : UInt64) : (millisOf n).millis = n.toNat := by
  rw [Duration.millis, millisOf_nanos, Nat.mul_div_cancel _ (by decide)]

theorem TimeoutConfig.ofPolicy_toNat (p : TimeoutPolicy) :
    (ofPolicy p).durationMs.toNat = min p.duration.millis (wordValues - 1) :=
  UInt64.toNat_ofNat_of_lt' (Nat.lt_of_le_of_lt (Nat.min_le_right ..) (by decide))

/-- Nothing is left of a duration below one millisecond, and something of every other one. -/
theorem TimeoutConfig.ofPolicy_eq_zero (p : TimeoutPolicy) :
    (ofPolicy p).durationMs = 0 ↔ ¬ .ofMillis 1 ≤ p.duration := by
  have hmilli : (.ofMillis 1 ≤ p.duration) ↔ 1000000 ≤ p.duration.nanos := Iff.rfl
  have hzero : min p.duration.millis (wordValues - 1) = 0 ↔ p.duration.nanos < 1000000 := by
    rw [Nat.min_eq_zero_iff, or_iff_left (by decide), Duration.millis, Nat.div_eq_zero_iff_lt (by decide)]
  rw [← UInt64.toNat_inj, ofPolicy_toNat, hmilli, Nat.not_le]
  exact hzero

/-- What was read from whole milliseconds goes out as the same whole milliseconds. -/
theorem TimeoutConfig.ofPolicy_of_millis {p : TimeoutPolicy} {t : TimeoutConfig}
    (h : p.duration = millisOf t.durationMs) : ofPolicy p = t := by
  have hword : t.durationMs.toNat < wordValues := t.durationMs.toNat_lt
  have heq : (ofPolicy p).durationMs = t.durationMs := by
    rw [← UInt64.toNat_inj, ofPolicy_toNat, h, millisOf_millis, Nat.min_eq_left (by omega)]
  cases t
  exact congrArg mk heq

/-! ## One more entry -/

/-- A configuration of one timeout. -/
def timeoutEntry (name : String) (t : TimeoutConfig) : Configuration := { timeout := .ofList [(name, t)] }

/-- A list of declarations in which a configuration of one timeout stands somewhere. -/
def entered (before after : List Declaration) (name : String) (t : TimeoutConfig) : List Declaration :=
  before ++ .config (timeoutEntry name t) :: after

section Entered

variable {before after : List Declaration} {name : String} {t : TimeoutConfig}

theorem mem_entered {d : Declaration} :
    d ∈ entered before after name t ↔ d = .config (timeoutEntry name t) ∨ d ∈ before ++ after := by
  simp only [entered, List.mem_append, List.mem_cons]
  exact or_left_comm

/-- Predicates do not depend on configurations. -/
theorem registered_entered {n : String} {p : FailurePredicate} :
    Registered (entered before after name t) n p ↔ Registered (before ++ after) n p := by
  unfold entered
  induction after using List.reverseRecOn with
  | nil => rw [registered_concat, List.append_nil]; simp
  | append_singleton after d ih =>
    rw [← List.cons_append, ← List.append_assoc, ← List.append_assoc, registered_concat, registered_concat, ih]

theorem Binds.of_entered {reference : Option String} {p : FailurePredicate}
    (h : Binds (entered before after name t) reference p) : Binds (before ++ after) reference p := by
  cases h with
  | absent => exact .absent
  | named last => exact .named (registered_entered.1 last)

theorem DeclaresRetry.of_entered {p : RetryPolicy} (h : DeclaresRetry (entered before after name t) p) :
    DeclaresRetry (before ++ after) p := by
  cases h with
  | code h =>
    obtain h | h := mem_entered.1 h
    · cases h
    · exact .code h
  | config h entry binds =>
    obtain h | h := mem_entered.1 h
    · cases h
      cases entry
    · exact .config h entry binds.of_entered

theorem DeclaresFallback.of_entered {p : FallbackPolicy} (h : DeclaresFallback (entered before after name t) p) :
    DeclaresFallback (before ++ after) p := by
  cases h with
  | code h =>
    obtain h | h := mem_entered.1 h
    · cases h
    · exact .code h
  | config h entry binds =>
    obtain h | h := mem_entered.1 h
    · cases h
      cases entry
    · exact .config h entry binds.of_entered

/-- The one name that comes in is that of a timeout. -/
theorem nodup_entered (h : ∀ kind, (declaredNames kind (before ++ after)).Nodup)
    (new : name ∉ declaredNames .timeout (before ++ after)) (kind : PolicyKind) :
    (declaredNames kind (entered before after name t)).Nodup := by
  have hperm : (entered before after name t).Perm (.config (timeoutEntry name t) :: (before ++ after)) :=
    List.perm_middle
  have hnames : (declaredNames kind (entered before after name t)).Perm
      ((timeoutEntry name t).names kind ++ declaredNames kind (before ++ after)) :=
    hperm.flatMap_right _
  rw [hnames.nodup_iff]
  cases kind with
  | timeout => exact List.nodup_cons.2 ⟨new, h .timeout⟩
  | retry => exact h .retry
  | fallback => exact h .fallback

/-- With an entry of zero milliseconds that is all that can be wrong, and with another one nothing is. -/
theorem wrong_entered (h : Sound (before ++ after)) (hname : name ≠ "")
    (new : name ∉ declaredNames .timeout (before ++ after)) {e : ConfigError}
    (wrong : Wrong (entered before after name t) e) :
    t.durationMs = 0 ∧ e = .invalidPolicy .timeout name .zeroDuration := by
  cases wrong with
  | timeout hc entry refused =>
    obtain hc | hc := mem_entered.1 hc
    · cases hc
      cases List.mem_singleton.1 entry
      cases refused with
      | name h => exact absurd h hname
      | duration h => exact ⟨h, rfl⟩
    · exact absurd h (Wrong.timeout hc entry refused).not_sound
  | retry declared invalid => exact absurd h (Wrong.retry declared.of_entered invalid).not_sound
  | fallback declared empty => exact absurd h (Wrong.fallback declared.of_entered empty).not_sound
  | predicate hc refers missing =>
    obtain hc | hc := mem_entered.1 hc
    · cases hc
      obtain ⟨r, hr, -⟩ | ⟨f, hf, -⟩ := refers
      · cases hr
      · cases hf
    · have hmissing : ∀ p, Declaration.predicate _ p ∉ before ++ after := fun p hp => missing p (mem_entered.2 (.inr hp))
      exact absurd h (Wrong.predicate hc refers hmissing).not_sound
  | duplicate twice =>
    exact absurd twice (List.nodup_iff_forall_not_duplicate.1 (nodup_entered h.distinct new _) _)

end Entered

/-! ## Out and back -/

namespace Blueprint

variable {before after : List Declaration} {name : String} {t : TimeoutConfig}

/-- A registry that was built with an entry applies it under its name. -/
theorem found_entered {r : Registry} (hr : (ofList (entered before after name t)).build = .ok r) :
    ∃ a, r.timeLimit name = .ok a ∧ a.policy.name = name ∧ a.policy.duration = millisOf t.durationMs := by
  obtain ⟨ps, hexp, hbuilt⟩ := built_of_build hr
  have hconfig : .config (timeoutEntry name t) ∈ entered before after name t := mem_entered.2 (.inl rfl)
  have hentry : (name, t) ∈ (timeoutEntry name t).timeout.entries := List.mem_singleton_self _
  -- The registry was built, so there is a policy of the name and the duration.
  obtain ⟨hname, hzero⟩ := (hbuilt.sound hexp).timeouts _ hconfig _ hentry
  have hduration : millisOf t.durationMs ≠ .zero := fun h => hzero (millisOf_eq_zero.1 h)
  obtain ⟨a, ha, hpolicy⟩ := (hbuilt.holds hexp).timeouts.found ⟨name, millisOf t.durationMs, hname, hduration⟩
    (.config hconfig hentry rfl)
  exact ⟨a, ha, by rw [hpolicy], by rw [hpolicy]⟩

theorem build_entered (h : Sound (before ++ after)) (hname : name ≠ "")
    (new : name ∉ declaredNames .timeout (before ++ after)) (ht : t.durationMs ≠ 0) :
    ∃ r, (ofList (entered before after name t)).build = .ok r := by
  cases hb : (ofList (entered before after name t)).build with
  | ok r => exact ⟨r, rfl⟩
  | error e => exact absurd (wrong_entered h hname new (wrong_of_build hb)).1 ht

theorem build_entered_zero (h : Sound (before ++ after)) (hname : name ≠ "")
    (new : name ∉ declaredNames .timeout (before ++ after)) (ht : t.durationMs = 0) :
    (ofList (entered before after name t)).build = .error (.invalidPolicy .timeout name .zeroDuration) := by
  cases hb : (ofList (entered before after name t)).build with
  | error e => rw [(wrong_entered h hname new (wrong_of_build hb)).2]
  | ok r =>
    obtain ⟨a, -, -, hduration⟩ := found_entered hb
    exact absurd (hduration.trans (millisOf_eq_zero.2 ht)) a.policy.duration_ne_zero

/-- A timeout policy of at least a millisecond that goes out to a configuration comes back, among any declarations
that are in order and leave its name free, under the same name and with its whole milliseconds, as far as 64 bits go.
A shorter one goes out as zero milliseconds, which are refused. The other way around, every entry of at least one
millisecond becomes a policy that goes out as the same entry. -/
theorem build_exported (before after : List Declaration) (h : Sound (before ++ after)) :
    (∀ p : TimeoutPolicy, p.name ∉ declaredNames .timeout (before ++ after) →
      (.ofMillis 1 ≤ p.duration → ∃ r a, (ofList (entered before after p.name (.ofPolicy p))).build = .ok r ∧
        r.timeLimit p.name = .ok a ∧ a.policy.name = p.name ∧
        a.policy.duration.nanos = min p.duration.millis (wordValues - 1) * 1000000) ∧
      (¬ .ofMillis 1 ≤ p.duration → (ofList (entered before after p.name (.ofPolicy p))).build =
        .error (.invalidPolicy .timeout p.name .zeroDuration))) ∧
    ∀ (name : String) (n : UInt64), name ≠ "" → name ∉ declaredNames .timeout (before ++ after) → n ≠ 0 →
      ∃ r a, (ofList (entered before after name ⟨n⟩)).build = .ok r ∧
        r.timeLimit name = .ok a ∧ a.policy.name = name ∧ TimeoutConfig.ofPolicy a.policy = ⟨n⟩ := by
  refine ⟨fun p new => ⟨fun hlong => ?_, fun hshort => ?_⟩, fun name n hname new hn => ?_⟩
  · have hsome : (TimeoutConfig.ofPolicy p).durationMs ≠ 0 := fun h0 => (TimeoutConfig.ofPolicy_eq_zero p).1 h0 hlong
    obtain ⟨r, hr⟩ := build_entered h p.name_ne_empty new hsome
    obtain ⟨a, ha, hname, hduration⟩ := found_entered hr
    exact ⟨r, a, hr, ha, hname, by rw [hduration, millisOf_nanos, TimeoutConfig.ofPolicy_toNat]⟩
  · exact build_entered_zero h p.name_ne_empty new ((TimeoutConfig.ofPolicy_eq_zero p).2 hshort)
  · obtain ⟨r, hr⟩ := build_entered (t := ⟨n⟩) h hname new hn
    obtain ⟨a, ha, hown, hduration⟩ := found_entered hr
    exact ⟨r, a, hr, ha, hown, TimeoutConfig.ofPolicy_of_millis hduration⟩

/-- A fallback policy that is declared in code. -/
def spare : List Declaration := [.fallback ⟨"web", .always⟩]

theorem spare_sound : Sound spare := by
  have hbuild : ∃ r, (ofList spare).build = .ok r := ⟨_, rfl⟩
  obtain ⟨r, hr⟩ := hbuild
  obtain ⟨ps, hexp, hbuilt⟩ := built_of_build hr
  exact hbuilt.sound hexp

/-- Beside a fallback policy of the same name, two milliseconds and a half come back as two milliseconds. -/
theorem build_exported_half : ∃ r a, (ofList (entered spare [] "web" ⟨2⟩)).build = .ok r ∧
    r.timeLimit "web" = .ok a ∧ a.policy.duration.nanos = 2000000 := by
  let web : TimeoutPolicy := ⟨"web", .ofNanos 2500000, by decide, by decide⟩
  have hweb : TimeoutConfig.ofPolicy web = ⟨2⟩ := by decide
  have hmillis : min web.duration.millis (wordValues - 1) = 2 := by decide
  obtain ⟨r, a, hr, ha, -, hduration⟩ := ((build_exported spare [] spare_sound).1 web (by decide)).1 (by decide)
  exact ⟨r, a, hweb ▸ hr, ha, by rw [hduration, hmillis]⟩

/-- A policy of half a millisecond. -/
def brief : TimeoutPolicy := ⟨"blink", .ofNanos 500000, by decide, by decide⟩

/-- It goes out as zero milliseconds, and no registry can be built with them. -/
theorem brief_refused : (TimeoutConfig.ofPolicy brief).durationMs = 0 ∧
    ¬ ∃ r, (ofList (entered spare [] brief.name (.ofPolicy brief))).build = .ok r := by
  have hzero : (TimeoutConfig.ofPolicy brief).durationMs = 0 := (TimeoutConfig.ofPolicy_eq_zero brief).2 (by decide)
  have hrefused : (ofList (entered spare [] brief.name (.ofPolicy brief))).build =
      .error (.invalidPolicy .timeout brief.name .zeroDuration) :=
    build_entered_zero spare_sound brief.name_ne_empty (by decide) hzero
  refine ⟨hzero, ?_⟩
  rintro ⟨r, hr⟩
  cases hrefused.symm.trans hr

end Blueprint

end CallGuard

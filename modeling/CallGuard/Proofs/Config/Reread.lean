/-
A configuration survives its text. What is written reads back as the same configuration (`Configuration.ofText_text`):
the text is read as the tokens that were written, and those as the configuration. Every configuration that was read can
be written like this, so writing what was read and reading it again changes nothing (`Configuration.survives_text`).
-/
import CallGuard.Proofs.Config.Finite
import CallGuard.Proofs.Config.Written

namespace CallGuard

/-! ## What is written has a text -/

theorem mem_optionalMember {α : Type} {name : String} {f : α → Json} {o : Option α} {m : String × Json}
    (h : m ∈ optionalMember name f o) : ∃ a ∈ o, m = (name, f a) := by
  cases o with
  | none => cases h
  | some a => exact ⟨a, rfl, List.mem_singleton.1 h⟩

theorem NameTable.plain_json {α : Type} {f : α → Json} {t : NameTable α} (h : ∀ e ∈ t.entries, (f e.2).Plain) :
    (t.json f).Plain := by
  refine Json.plain_object fun m hm => ?_
  obtain ⟨e, he, rfl⟩ := List.mem_map.1 hm
  exact h e he

theorem TimeoutConfig.plain_json (c : TimeoutConfig) : c.json.Plain := by
  refine Json.plain_object fun m hm => ?_
  obtain rfl := List.mem_singleton.1 hm
  exact Json.plain_number trivial

theorem FallbackConfig.plain_json (c : FallbackConfig) : c.json.Plain := by
  refine Json.plain_object fun m hm => ?_
  obtain ⟨p, -, rfl⟩ := mem_optionalMember hm
  exact Json.plain_string p

theorem RetryConfig.plain_json {c : RetryConfig} (h : c.Finite) : c.json.Plain := by
  refine Json.plain_object fun m hm => ?_
  simp only [List.mem_append, List.mem_cons, List.not_mem_nil, or_false] at hm
  rcases hm with (((rfl | rfl) | hm) | hm) | hm
  · exact Json.plain_number trivial
  · exact Json.plain_number trivial
  · obtain ⟨x, hx, rfl⟩ := mem_optionalMember hm
    exact Json.plain_number (h x hx)
  · obtain ⟨n, -, rfl⟩ := mem_optionalMember hm
    exact Json.plain_number trivial
  · obtain ⟨p, -, rfl⟩ := mem_optionalMember hm
    exact Json.plain_string p

namespace Configuration

variable {c : Configuration}

theorem plain_json (h : c.Finite) : c.json.Plain := by
  refine Json.plain_object fun m hm => ?_
  simp only [List.mem_cons, List.not_mem_nil, or_false] at hm
  rcases hm with rfl | rfl | rfl
  · exact NameTable.plain_json fun e _ => e.2.plain_json
  · exact NameTable.plain_json fun e he => RetryConfig.plain_json (h e he)
  · exact NameTable.plain_json fun e _ => e.2.plain_json

/-! ## Reading what was written -/

theorem ofText_text (h : c.Finite) : ofText c.text = .ok c := by
  have hread := c.recovers []
  rw [List.append_nil] at hread
  rw [ofText, text, Json.scan_text (plain_json h), ofTokens, hread]

/-- Configurations that are written alike are the same. -/
theorem text_inj {c c' : Configuration} (h : c.Finite) (h' : c'.Finite) (htext : c.text = c'.text) : c = c' := by
  have hread := ofText_text h
  rw [htext, ofText_text h'] at hread
  exact (Except.ok.inj hread).symm

/-- Writing a configuration and reading it again gives it back, if its multipliers are finite numbers. Every text
that says a configuration says such a one, so what it says can be written and read again any number of times. -/
theorem survives_text : (∀ c : Configuration, c.Finite → ofText c.text = .ok c) ∧
    ∀ (s : String) (c : Configuration), ofText s = .ok c → ofText c.text = .ok c ∧ (ofText c.text).map text = .ok c.text := by
  refine ⟨fun c h => ofText_text h, fun s c h => ?_⟩
  have hread := ofText_text (finite_of_ofText h)
  exact ⟨hread, by rw [hread]; rfl⟩

/-- Names that need escapes, all numbers at their limits, and fields left out. -/
def awkward : Configuration where
  timeout := .ofList [("", ⟨18446744073709551615⟩)]
  retry := .ofList [("\"\\\n\x01é", ⟨4294967295, 0, some (.ofDecimal false 15 (-1)), none, some "\t\x7f"⟩)]
  fallback := .ofList [("a", {}), ("b", ⟨some "/"⟩)]

theorem survives_text_awkward : awkward.Finite ∧ ofText awkward.text = .ok awkward ∧
    (ofText awkward.text).map text = .ok awkward.text := by
  have hfinite : awkward.Finite := by
    intro e he m hm
    rw [List.mem_singleton.1 he] at hm
    rw [← Option.some.inj hm]
    decide +kernel
  obtain ⟨hwritten, hread⟩ := survives_text
  exact ⟨hfinite, hwritten awkward hfinite, (hread awkward.text awkward (hwritten awkward hfinite)).2⟩

end Configuration

end CallGuard

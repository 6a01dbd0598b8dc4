/-
Writing configuration as JSON. All families are written, absent options are left out.
-/
import CallGuard.Config.Basic

namespace CallGuard

/-- A member that is left out if it is absent. -/
def optionalMember {α : Type} (name : String) (f : α → Json) : Option α → List (String × Json)
  | none => []
  | some a => [(name, f a)]

def TimeoutConfig.json (c : TimeoutConfig) : Json :=
  .object [("duration_ms", .number (.whole c.durationMs))]

def RetryConfig.json (c : RetryConfig) : Json :=
  .object ([("attempts", .number (.whole c.attempts.toUInt64)),
      ("delay_ms", .number (.whole c.delayMs))] ++
    optionalMember "delay_multiplier" (fun m => .number (.real m)) c.multiplier ++
    optionalMember "max_delay_ms" (fun n => .number (.whole n)) c.maxDelayMs ++
    optionalMember "failure_predicate" .string c.predicate)

def FallbackConfig.json (c : FallbackConfig) : Json :=
  .object (optionalMember "failure_predicate" .string c.predicate)

/-- A table as an object, in the order of its names. -/
def NameTable.json {α : Type} (f : α → Json) (t : NameTable α) : Json :=
  .object (t.entries.map fun e => (e.1, f e.2))

namespace Configuration

def json (c : Configuration) : Json :=
  .object [("timeout", c.timeout.json TimeoutConfig.json), ("retry", c.retry.json RetryConfig.json),
    ("fallback", c.fallback.json FallbackConfig.json)]

/-- The text of a configuration. -/
def text (c : Configuration) : String := c.json.text

end Configuration

end CallGuard

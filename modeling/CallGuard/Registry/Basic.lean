/-
Registries: the executors of named policies, by family. A registry never changes once it is built.
-/
import CallGuard.Fallback.Rescue
import CallGuard.Naming.Table
import CallGuard.Retry.Loop
import CallGuard.Timeout.Limit

namespace CallGuard

/-- Executors by name. -/
structure Registry where
  timeLimits : NameTable TimeLimit := .empty
  retryLoops : NameTable RetryLoop := .empty
  rescues : NameTable Rescue := .empty
deriving Inhabited

/-- The entry of a name in one family. -/
def NameTable.require {α : Type} (t : NameTable α) (kind : PolicyKind) (name : String) :
    Except ConfigError α :=
  match t.find? name with
  | some a => .ok a
  | none => .error (.unknownPolicy kind name)

namespace Registry

def timeLimit (r : Registry) (name : String) : Except ConfigError TimeLimit :=
  r.timeLimits.require .timeout name

def retryLoop (r : Registry) (name : String) : Except ConfigError RetryLoop :=
  r.retryLoops.require .retry name

def rescue (r : Registry) (name : String) : Except ConfigError Rescue :=
  r.rescues.require .fallback name

/-- The names of a family, in increasing order. -/
def names (r : Registry) : PolicyKind → List String
  | .timeout => r.timeLimits.names
  | .retry => r.retryLoops.names
  | .fallback => r.rescues.names

/-- What is reported when a registry was built. -/
def builtEvent (r : Registry) : Event :=
  .registryBuilt (r.names .timeout) (r.names .retry) (r.names .fallback)

/-- What is reported when a registry was installed. -/
def installedEvent (r : Registry) : Event :=
  .registryInstalled r.timeLimits.size r.retryLoops.size r.rescues.size

end Registry

/-! ## Installation -/

/-- The one place where a registry can be installed, for good. -/
structure Slot where
  installed : Option Registry := none

namespace Slot

/-- What is installed, once an empty slot has run the initialiser; one that is not empty leaves it alone. With it comes
what the initialiser works on, as it is afterwards. -/
def getOrInit {κ : Type} (s : Slot) (init : κ → Registry × κ) (k : κ) : Registry × κ × Slot :=
  match s.installed with
  | some r => (r, k, s)
  | none => ((init k).1, (init k).2, ⟨some (init k).1⟩)

/-- Takes a candidate, of which nothing is left then. -/
def take (candidate : Option Registry) : Registry × Option Registry := (candidate.getD {}, none)

/-- A candidate was installed exactly if nothing is left of it. -/
def verdict (installed : Registry) (left : Option Registry) : Except ConfigError Registry :=
  match left with
  | none => .ok installed
  | some _ => .error .alreadyInstalled

/-- Installs a registry, unless there is one. -/
def install (s : Slot) (r : Registry) : Except ConfigError Registry × Slot :=
  let (installed, left, s) := s.getOrInit take (some r)
  (verdict installed left, s)

end Slot

end CallGuard

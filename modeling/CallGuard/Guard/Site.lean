/-
Guarded calls: one call site with an optional timeout and an optional retry, retry layered over
timeout so that every attempt has a deadline of its own. Starting a blocking call runs it; suspended
calls and streams are handed to the caller to be waited for. Whatever was started can be consumed as a
stream.
-/
import CallGuard.Guard.Error
import CallGuard.Retry.Subscription
import CallGuard.Timeout.Gap

namespace CallGuard

/-! ## Policies around a call site -/

/-- The policies around a call site. -/
structure Guards where
  timeLimit : Option TimeLimit := none
  retryLoop : Option RetryLoop := none

/-- A producer of one attempt, with deadlines or without. -/
inductive Watched (ρ : Type) where
  | bare (producer : ρ)
  | timed (timeLimit : TimeLimit) (gap : Gap ρ)

namespace Watched

variable {σ ρ ε α : Type}

/-- Polls a producer of one attempt. -/
def poll (producer : Poll σ ρ (Except ε α)) : Poll σ (Watched ρ) (Except (TimeoutError ε) α)
  | .bare p => relabel (mapError .inner) .bare (producer p)
  | .timed t g => relabel id (.timed t) (t.poll producer g)

end Watched

namespace Guards

variable {σ ρ ε α : Type}

/-- One suspended attempt: the work under its deadline, if there is one. -/
def attempt (g : Guards) (work : Act σ (Except ε α)) : Act σ (Except (TimeoutError ε) α) :=
  match g.timeLimit with
  | some t => t.run work
  | none => work >>= fun r => pure (mapError .inner r)

/-- One blocking attempt. Under a deadline, the work runs apart from its caller. -/
def attemptBlocking (g : Guards) (job : Job σ ε α) : Act σ (Except (TimeoutError ε) α) :=
  match g.timeLimit with
  | some t => t.runApart .blocking job
  | none => job.run .blocking >>= fun r => pure (mapError .inner r)

/-- Attempts at one result, repeated if there is a retry loop. -/
def run [Fault ε] (g : Guards) (pace : Pace) (attempt : Act σ (Except (TimeoutError ε) α)) :
    Act σ (Except (GuardError ε) α) :=
  match g.retryLoop with
  | some r => r.run pace attempt >>= fun x => pure (mapError GuardError.ofRetry x)
  | none => attempt >>= fun x => pure (mapError GuardError.ofTimeout x)

/-- A producer under its deadlines, if there are any. -/
def watch (g : Guards) (producer : ρ) : Watched ρ :=
  match g.timeLimit with
  | some t => .timed t (t.watch producer)
  | none => .bare producer

/-- The producers of single attempts. -/
def attempts (g : Guards) (source : Source σ ρ (Except ε α)) :
    Source σ (Watched ρ) (Except (TimeoutError ε) α) where
  subscribe := source.subscribe >>= fun p => pure (g.watch p)
  poll := Watched.poll source.poll

end Guards

/-! ## Call sites -/

/-- How the work of a call site is called. -/
inductive CallStyle where
  | blocking
  | suspended
  | stream
deriving DecidableEq

def CallStyle.outline : CallStyle → Outline
  | blocking => .atom "Blocking"
  | suspended => .atom "Async"
  | stream => .atom "Stream"

/-- The work of a call site. -/
inductive Callee (σ ρ ε α : Type) where
  | blocking (job : Job σ ε α)
  | suspended (work : Act σ (Except ε α))
  | stream (source : Source σ ρ (Except ε α))

namespace Callee

variable {σ ρ ε α : Type}

def style : Callee σ ρ ε α → CallStyle
  | blocking _ => .blocking
  | suspended _ => .suspended
  | stream _ => .stream

def outline (i : Callee σ ρ ε α) : Outline := .tuple "Invocation" [i.style.outline]

end Callee

/-- A call site and the policies around it. -/
structure CallSite (σ ρ ε α : Type) where
  callee : Callee σ ρ ε α
  guards : Guards

namespace CallSite

variable {σ ρ ε α : Type}

def style (c : CallSite σ ρ ε α) : CallStyle := c.callee.style

def outline (c : CallSite σ ρ ε α) : Outline :=
  .fields "GuardedCall"
    [("shape", c.style.outline),
     ("timeout", .option (fun t => .text t.policy.name) c.guards.timeLimit),
     ("retry", .option (fun r => .text r.policy.name) c.guards.retryLoop)]

end CallSite

/-! ## What was started -/

/-- The state of a guarded stream. -/
inductive Attempts (ρ ε : Type) where
  /-- There is no other attempt. -/
  | single (producer : Watched ρ)
  | repeated (retryLoop : RetryLoop) (subscription : Subscription (Watched ρ) (TimeoutError ε))

/-- What the consumer of a started call polls. -/
inductive Flow (σ ρ ε α : Type) where
  /-- One result, and then the end. -/
  | once (result : Act σ (Except (GuardError ε) α))
  | stream (producers : Source σ (Watched ρ) (Except (TimeoutError ε) α)) (state : Attempts ρ ε)
  | ended

/-- What starting a call gives. -/
inductive Started (σ ρ ε α : Type) where
  /-- The result of a blocking call. -/
  | ready (result : Except (GuardError ε) α)
  /-- A suspended call that has not begun. -/
  | pending (result : Act σ (Except (GuardError ε) α))
  | stream (producers : Source σ (Watched ρ) (Except (TimeoutError ε) α)) (state : Attempts ρ ε)

namespace Started

variable {σ ρ ε α : Type}

def text : Started σ ρ ε α → String
  | ready _ => "Invoked::Ready"
  | pending _ => "Invoked::Pending"
  | stream .. => "Invoked::Stream"

/-- Consumes what was started as a stream. -/
def toFlow : Started σ ρ ε α → Flow σ ρ ε α
  | ready r => .once (pure r)
  | pending x => .once x
  | stream producers state => .stream producers state

end Started

variable {σ ρ ε α : Type} [Fault ε]

/-- Polls a guarded stream. -/
def Attempts.poll (producers : Source σ (Watched ρ) (Except (TimeoutError ε) α)) :
    Poll σ (Attempts ρ ε) (Except (GuardError ε) α)
  | .single p => relabel (mapError GuardError.ofTimeout) .single (producers.poll p)
  | .repeated r s => relabel (mapError GuardError.ofRetry) (.repeated r) (r.poll producers s)

/-- Polls what was started. -/
def Flow.poll : Poll σ (Flow σ ρ ε α) (Except (GuardError ε) α)
  | .once x => x >>= fun item => pure (some (item, .ended))
  | .stream producers s => relabel id (.stream producers) (Attempts.poll producers s)
  | .ended => pure none

namespace CallSite

/-- Starts a call. A blocking call runs now. A stream without a retry loop subscribes now; nothing else of
a suspended call or a stream happens before somebody waits for it. -/
def start (c : CallSite σ ρ ε α) : Act σ (Started σ ρ ε α) :=
  match c.callee with
  | .blocking job => do
    let result ← c.guards.run .blocking (c.guards.attemptBlocking job)
    pure (.ready result)
  | .suspended work => pure (.pending (c.guards.run .suspended (c.guards.attempt work)))
  | .stream source =>
    let producers := c.guards.attempts source
    match c.guards.retryLoop with
    | some r => do
      let now ← Act.now
      pure (.stream producers (.repeated r (.fresh now)))
    | none => do
      let p ← producers.subscribe
      pure (.stream producers (.single p))

end CallSite

end CallGuard

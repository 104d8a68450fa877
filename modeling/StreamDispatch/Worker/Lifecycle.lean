/-!
# Lifecycles

Workers and registrations go through the same states: they are created, their topics are
checked, they run, they finish what they have begun, and they end as stopped or failed. The
state of a registration follows from those of its workers.

What a worker publishes is a `Phase`; there is a cause exactly in the failed phase.

## Main definitions

* `LifecycleState`, `LifecycleState.aggregate`.
* `Phase`, `Phase.state`, `Phase.failure?`.
-/

namespace StreamDispatch

/-- The states of workers and registrations. -/
inductive LifecycleState
  | created
  | validating
  | running
  | draining
  | stopped
  | failed
  deriving DecidableEq, Repr

namespace LifecycleState

/-- Whether a state is final. -/
def isTerminal : LifecycleState → Bool
  | .stopped => true
  | .failed => true
  | _ => false

/-- The name of a state. -/
def name : LifecycleState → String
  | .created => "created"
  | .validating => "validating"
  | .running => "running"
  | .draining => "draining"
  | .stopped => "stopped"
  | .failed => "failed"

/-- All states, in the order of a life. -/
def all : List LifecycleState :=
  [.created, .validating, .running, .draining, .stopped, .failed]

/-- The state of a registration whose workers are in the given states: it drains while any of
them does, runs while any of them is not at its end, and has failed if any of them has. -/
def aggregate (workers : List LifecycleState) : LifecycleState :=
  if workers.contains .draining then .draining
  else if workers.any fun s => !s.isTerminal then .running
  else if workers.contains .failed then .failed
  else .stopped

end LifecycleState

/-- What a worker publishes about itself. -/
inductive Phase
  | created
  | running
  | draining
  | stopped
  | failed (cause : String)
  deriving DecidableEq, Repr, Inhabited

namespace Phase

/-- The state of a phase. -/
def state : Phase → LifecycleState
  | .created => .created
  | .running => .running
  | .draining => .draining
  | .stopped => .stopped
  | .failed _ => .failed

/-- Why a worker failed. -/
def failure? : Phase → Option String
  | .failed cause => some cause
  | _ => none

/-- Whether a phase is final. -/
def isTerminal (p : Phase) : Bool := p.state.isTerminal

end Phase

end StreamDispatch

import RpcPool.Health.Table
import RpcPool.Registry
import RpcPool.Selection

/-!
# The pool

A pool is a registry together with the health of its connections. The three ways in which the current
pointer moves on its own are decided here, each in one step on one pool:

* `failover` leaves a connection that was lost, unless something else has become current meanwhile;
* `reconnect` picks a connection when the current one is absent or not connected;
* `improve` moves to a better connection by the rules of `Selection`.

None of them changes the list of connections, and none moves to an instance that is not registered.
-/

namespace RpcPool

/-- Why the current pointer moved on its own. -/
inductive SwitchReason
  | lost
  | disconnected
  | better
  deriving DecidableEq, Repr

/-- The wording of a reason. -/
def SwitchReason.message : SwitchReason → String
  | .lost => "current connection lost"
  | .disconnected => "no current connection"
  | .better => "better connection in priority"

/-- One automatic move of the current pointer. -/
structure Switch where
  source : Option Connection
  target : Connection
  reason : SwitchReason
  deriving DecidableEq, Repr

structure Pool where
  registry : Registry
  health : Health.Table
  deriving DecidableEq, Repr

namespace Pool

def empty : Pool := ⟨.empty, .empty⟩

/-- The health of a connection. -/
def healthOf (p : Pool) (c : Connection) : Health := p.health.get c.id

/-- Whether a connection is connected by its last observed state. -/
def isUp (p : Pool) (c : Connection) : Bool := (p.healthOf c).connected

/-- Whether there is a current connection and it is connected. -/
def connected (p : Pool) : Bool := p.registry.current.any p.isUp

/-- All connections in listing order. -/
def listing (p : Pool) : List Connection :=
  Selection.listing p.health.get p.registry.current p.registry.connections

/-- Takes note of the outcome of a probe. -/
def observe (p : Pool) (c : Connection) (outcome : Probe.Outcome) : Pool :=
  { p with health := p.health.set c.id ((p.healthOf c).observe outcome) }

/-- Whether an outcome would change what listeners are told about a connection. -/
def wouldChange (p : Pool) (c : Connection) (outcome : Probe.Outcome) : Bool :=
  (p.healthOf c).status != ((p.healthOf c).observe outcome).status

/-- Moves the current pointer to a registered connection that is not current yet. -/
def switch (p : Pool) (target : Connection) (reason : SwitchReason) : Pool × Option Switch :=
  match p.registry.switchTo target with
  | (r, .changed _) => ({ p with registry := r }, some ⟨p.registry.current, target, reason⟩)
  | (_, .unchanged) => (p, none)

/-- Leaves `watched` for `target`, if `watched` is still the current connection. -/
def failover (p : Pool) (watched target : Connection) : Pool × Option Switch :=
  if p.registry.isCurrent watched then p.switch target .lost else (p, none)

/-- Moves to `target` if no connected connection is current. -/
def reconnect (p : Pool) (target : Connection) : Pool × Option Switch :=
  if p.connected then (p, none) else p.switch target .disconnected

/-- Moves to the connection that should replace the current one, if there is one. -/
def improve (p : Pool) : Pool × Option Switch :=
  match Selection.replacement p.health.get p.registry.connections p.registry.current with
  | some d => p.switch d .better
  | none => (p, none)

end Pool

end RpcPool

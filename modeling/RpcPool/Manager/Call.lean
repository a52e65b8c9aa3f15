import RpcPool.Config
import RpcPool.Network
import RpcPool.Pool
import RpcPool.Text.Printable

/-!
# Calls

What the users of a manager can ask of it. A listener reacts to notifications with calls of its own, and
what it will do is laid down when it is added, so calls name connections instead of holding them: a name
is a label that an earlier call gave to an instance, or else the URI of a registered connection.
-/

namespace RpcPool

/-- An operation that has to wait for probes, on connections given by name. -/
inductive Request
  /-- Probe the current connection and fail over if it is lost. -/
  | checkConnection
  /-- Probe a list of connections, all in listing order if none is given, then re-rank. -/
  | checkConnections (conns : Option (List String)) (excluded : List String)
  /-- Search the groups for a connected connection. -/
  | bestAvailable (excluded : List String)
  deriving Repr

/-- An operation that returns at once. -/
inductive Call
  /-- Makes a connection without registering it. -/
  | make (e : Endpoint) (label : Option String)
  | add (e : Endpoint) (label : Option String)
  | addUri (uri : String) (label : Option String)
  | remove (uri : String)
  /-- Makes a connection current, or none. -/
  | select (name : Option String)
  | selectUri (uri : String)
  | disconnect
  | clear
  | reset
  | setAutoSwitch (on : Bool)
  | setTimeout (ms : UInt32)
  | get (uri : String) (label : Option String)
  | has (uri : String)
  /-- Takes note of a probe made elsewhere. -/
  | observe (name : String) (outcome : Probe.Outcome)
  /-- Re-ranks all connections from their last observed state. -/
  | improve
  /-- Changes the behaviour of an endpoint. -/
  | script (uri : String) (fallback : Option Behaviour) (queue : List Behaviour)
  /-- Adds a listener that answers its first `times` notifications with `reaction`. A listener that is
  known already is added once more as it is. -/
  | addListener (name : String) (reaction : List Call) (times : Nat)
  | removeListener (name : String)
  | removeListeners
  /-- Starts a poll loop; the excluded connections are given by name. -/
  | startPolling (options : PollOptions) (excluded : List String)
  /-- Starts the poll loop of a configuration. -/
  | startConfigured (polling : Config.Polling)
  | stopPolling
  /-- Starts an operation as a task of its own. -/
  | spawn (name : String) (request : Request)
  /-- Gives up the handle through which calls are made. -/
  | drop
  deriving Inhabited

/-- What a listener still has to say: the calls with which it will answer its next notifications, one list
for each. -/
structure Listener where
  script : List (List Call)

/-! How often listeners can still react bounds how deeply notifications can be nested. -/

mutual

/-- The number of reactions that a call can bring about. -/
def Call.reactions : Call → Nat
  | .addListener _ reaction times => times * (1 + Call.reactionsOf reaction)
  | _ => 0

/-- The number of reactions that a list of calls can bring about. -/
def Call.reactionsOf : List Call → Nat
  | [] => 0
  | c :: rest => c.reactions + Call.reactionsOf rest

end

/-- The number of reactions left in a listener, with those that its reactions can bring about. -/
def Listener.reactions (l : Listener) : Nat :=
  l.script.foldr (fun calls n => 1 + Call.reactionsOf calls + n) 0

/-- The batch operations whose probes can break. -/
inductive BatchOperation
  | checkConnection
  | checkConnections
  | bestAvailable
  deriving DecidableEq, Repr

/-- The name of a batch operation in an error. -/
def BatchOperation.name : BatchOperation → String
  | .checkConnection => "check_connection"
  | .checkConnections => "check_connections"
  | .bestAvailable => "get_best_available_connection"

/-- Why a batch could not be joined: the first of its probes that broke, by the number of its task. -/
structure BrokenBatch where
  operation : BatchOperation
  task : Nat
  deriving DecidableEq, Repr

/-- The wording of a broken batch. -/
def BrokenBatch.message (b : BrokenBatch) : String :=
  b.operation.name ++ " failed to join probe tasks: task " ++ toString b.task
    ++ " panicked with message " ++ Text.shown Behaviour.lastWords

/-- The answer to a call or to an operation. -/
inductive Reply
  /-- Nothing to say. -/
  | none
  | done
  | flag (b : Bool)
  /-- A connection, with the label it then goes by. -/
  | connection (c : Option (Connection × Option String))
  /-- A connection with its health at the time. -/
  | view (c : Option (Connection × Health))
  | refused (e : PoolError)
  /-- A probe of the operation's batch broke. -/
  | broken (b : BrokenBatch)
  | unknownTask
  deriving Repr

end RpcPool

import RpcPool.Manager.Event

/-!
# The running system

A manager with everything around it: the pool, its listeners, the network that answers its probes, a
clock, and all that is under way. An operation that waits for probes is a *flight*: it holds the probes of
its current batch and the stage it goes on from when the last of them has ended. A poll loop is a task
that starts a flight in every iteration.

Only one task runs at a time, and a task runs until it has to wait. Tasks that can run are in a queue;
tasks that wait for the clock have a timer.
-/

namespace RpcPool

abbrev FlightId := Nat

abbrev LoopId := Nat

/-- A unit of scheduling: one probe of a flight, a flight itself, or a poll loop. -/
inductive Task
  | probe (flight : FlightId) (index : Nat)
  | flight (id : FlightId)
  | loop (id : LoopId)
  deriving DecidableEq, Repr

/-- An operation on connections at hand. -/
inductive Operation
  | checkConnection
  | checkConnections (conns excluded : List Connection)
  | bestAvailable (excluded : List Connection)
  /-- One iteration of a poll loop. -/
  | poll (options : PollOptions)
  deriving Repr

/-- How an operation goes about its batches. -/
structure CheckOptions where
  autoSwitch : Bool
  /-- Timeout for connections without their own, in place of the pool's. -/
  timeoutMs : Option UInt32
  deriving DecidableEq, Repr

/-- A search through the groups: the connections it leaves out and the groups it has not come to. -/
structure Search where
  excluded : List Connection
  later : List (List Connection)
  deriving DecidableEq, Repr

/-- Where an operation goes on when its batch has been joined. -/
inductive Stage
  /-- The current connection was probed. -/
  | status (watched : Connection)
  /-- `watched` is lost and a group was probed for a replacement. -/
  | failover (watched : Connection) (changed : Bool) (search : Search)
  /-- A group was probed for a connected connection. -/
  | search (search : Search)
  /-- A list of connections was probed; then all are re-ranked. -/
  | ranking
  /-- A group was probed and re-ranked by a prioritized poll. -/
  | sweep (search : Search)
  deriving Repr

/-- How far a probe has come. -/
inductive ProbeState
  | queued
  /-- A timer is set; when it goes off the probe ends with this outcome. -/
  | waiting (outcome : Probe.Outcome)
  /-- The outcome was taken note of; it did or did not change what listeners are told. -/
  | ended (changed : Bool)
  | panicked
  deriving Repr

def ProbeState.isOver : ProbeState → Bool
  | .ended _ => true
  | .panicked => true
  | _ => false

/-- One probe of a batch. -/
structure BatchProbe where
  connection : Connection
  timeoutMs : UInt32
  /-- The number of its task. -/
  task : Nat
  state : ProbeState
  deriving Repr

/-- What a flight is doing: waiting for its turn to start, or for its batch. -/
inductive Work
  | queued (op : Operation)
  | batch (options : CheckOptions) (stage : Stage) (probes : List BatchProbe)
  deriving Repr

/-- Whom a flight answers to. -/
inductive Owner
  /-- The user, who waits for it. -/
  | caller
  /-- A task that may be joined later. -/
  | task
  /-- An iteration of a poll loop. -/
  | loop (id : LoopId)
  deriving DecidableEq, Repr

/-- An operation under way. -/
structure Flight where
  owner : Owner
  work : Work
  deriving Repr

/-- A poll loop. It sees that it was told to stop only between two iterations. -/
structure PollLoop where
  options : PollOptions
  stopped : Bool
  /-- Iterations begun. -/
  iterations : Nat
  /-- When the next iteration is due. -/
  due : Nat
  /-- When the last iteration began. -/
  began : Nat
  deriving Repr

structure Manager where
  pool : Pool
  /-- The listeners that are notified, in the order in which they were added. -/
  subscribers : List String
  /-- Every listener that was ever added. -/
  listeners : List (String × Listener)
  /-- The labels of connections. -/
  labels : List (String × Connection)
  /-- What every instance was made of; instances are numbered in the order in which they were made. -/
  made : List Endpoint
  network : Network
  /-- The loop that is polling for the manager, unless it was told to stop. -/
  poller : Option LoopId
  /-- Whether the user still holds the manager. -/
  held : Bool
  /-- Whether there is a scheduler to run tasks on. -/
  hasRuntime : Bool
  now : Nat
  flights : List (FlightId × Flight)
  loops : List (LoopId × PollLoop)
  /-- Tasks that can run, the next one first. -/
  ready : List Task
  /-- Tasks that wait for the clock, with the time they wait for, in the order in which they began. -/
  timers : List (Nat × Task)
  /-- The next flight or loop. -/
  nextId : Nat
  /-- How many tasks have been started. Each has its number in this count, from 1. -/
  started : Nat
  /-- Operations started as tasks, by name. -/
  tasks : List (String × FlightId)
  /-- What finished operations returned. -/
  answers : List (FlightId × Reply)
  /-- What has happened, the latest first. -/
  trace : List Moment

namespace Manager

/-- A manager that knows no connections, on a network. -/
def idle (network : Network) (hasRuntime : Bool) : Manager where
  pool := .empty
  subscribers := []
  listeners := []
  labels := []
  made := []
  network := network
  poller := none
  held := true
  hasRuntime := hasRuntime
  now := 0
  flights := []
  loops := []
  ready := []
  timers := []
  nextId := 0
  started := 0
  tasks := []
  answers := []
  trace := []

/-- Sets the value of a key in a list of pairs with distinct keys. -/
def upsert {α β : Type} [BEq α] (key : α) (value : β) (entries : List (α × β)) : List (α × β) :=
  (key, value) :: entries.filter fun e => !(e.1 == key)

/-- Takes a key out of a list of pairs. -/
def without {α β : Type} [BEq α] (key : α) (entries : List (α × β)) : List (α × β) :=
  entries.filter fun e => !(e.1 == key)

/-- Notes an event. -/
def record (s : Manager) (e : Event) : Manager :=
  { s with trace := ⟨s.now, s.pool, e⟩ :: s.trace }

def setRegistry (s : Manager) (r : Registry) : Manager :=
  { s with pool := { s.pool with registry := r } }

/-! ## Names -/

/-- Makes a new instance of an endpoint. -/
def instantiate (s : Manager) (e : Endpoint) : Manager × Connection :=
  ({ s with made := s.made ++ [e] }, ⟨s.made.length, e⟩)

/-- Gives a connection a label, if there is one to give. -/
def label (s : Manager) (label : Option String) (c : Connection) : Manager :=
  match label with
  | some l => { s with labels := upsert l c s.labels }
  | none => s

/-- The connection of a name: a label, or else a registered URI. -/
def resolve (s : Manager) (name : String) : Option Connection :=
  (s.labels.lookup name).or (s.pool.registry.get? name)

/-- The connections of the names that stand for one. -/
def resolveAll (s : Manager) (names : List String) : List Connection :=
  names.filterMap s.resolve

/-- The least label of a connection. -/
def labelOf (s : Manager) (c : Connection) : Option String :=
  ((s.labels.filter fun e => e.2.same c).map (·.1)).foldl least none
where
  least (best : Option String) (l : String) : Option String :=
    match best with
    | none => some l
    | some b => if l < b then some l else some b

/-- A connection as it is shown in an answer. -/
def shown (s : Manager) (c : Connection) : Connection × Option String := (c, s.labelOf c)

/-- An operation on the connections that a request names. -/
def operation (s : Manager) : Request → Operation
  | .checkConnection => .checkConnection
  | .checkConnections conns excluded =>
    .checkConnections ((conns.map s.resolveAll).getD s.pool.listing) (s.resolveAll excluded)
  | .bestAvailable excluded => .bestAvailable (s.resolveAll excluded)

/-! ## Tasks -/

/-- Lets a task run again, unless it is about to. -/
def wake (s : Manager) (t : Task) : Manager :=
  if s.ready.contains t then s else { s with ready := s.ready ++ [t] }

/-- Makes a task wait until a time. -/
def sleep (s : Manager) (due : Nat) (t : Task) : Manager :=
  { s with timers := s.timers ++ [(due, t)] }

/-- Whether a task waits for the clock. -/
def sleeping (s : Manager) (t : Task) : Bool := s.timers.any fun e => e.2 == t

/-- Wakes a task that waits for the clock before its time. -/
def rouse (s : Manager) (t : Task) : Manager :=
  if s.sleeping t then { s with timers := s.timers.filter fun e => !(e.2 == t) }.wake t else s

/-- Tells a poll loop to stop. One that waits for its next iteration takes note at once. -/
def stopLoop (s : Manager) (id : LoopId) : Manager :=
  match s.loops.lookup id with
  | none => s
  | some l => { s with loops := upsert id { l with stopped := true } s.loops }.rouse (.loop id)

/-- Tells the poll loop of the manager to stop, if there is one. -/
def stopPolling (s : Manager) : Manager :=
  match s.poller with
  | none => s
  | some id => { s with poller := none }.stopLoop id

/-- Starts a poll loop, and only then stops the one that it replaces. -/
def startPolling (s : Manager) (o : PollOptions) : Except PoolError Manager :=
  if s.hasRuntime then
    let id := s.nextId
    let started := { s.record (.pollingStarted o.periodMs o.pollType) with
      nextId := id + 1
      started := s.started + 1
      loops := upsert id ⟨o, false, 0, s.now, s.now⟩ s.loops
      poller := some id }.wake (.loop id)
    .ok (match s.poller with
      | some old => started.stopLoop old
      | none => started)
  else .error .noRuntime

/-- Whether the manager has a poll loop that was not told to stop. -/
def isPolling (s : Manager) : Bool := s.poller.isSome

/-- When neither the user nor any operation holds the manager any more, its poll loop is stopped. -/
def release (s : Manager) : Manager :=
  if s.held || !s.flights.isEmpty then s else s.stopPolling

end Manager

end RpcPool

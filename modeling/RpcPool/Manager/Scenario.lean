import RpcPool.Manager.Schedule

/-!
# Scenarios

A scenario is a list of steps taken one after the other by the user of a manager. After each step
everything runs that can run without the clock moving.
-/

namespace RpcPool

/-- One step of the user. -/
inductive Step
  | call (c : Call)
  /-- Start an operation and wait for its answer. -/
  | await (r : Request)
  /-- Let so many milliseconds pass. -/
  | advance (ms : Nat)
  /-- Wait for an operation that was started as a task. Each task is joined once. -/
  | join (name : String)

namespace Manager

/-- How many tasks a step may run. No step of a scenario comes near it. -/
def stepLimit : Nat := 1000000000

/-- Takes the answer of a flight out of the system. -/
def takeAnswer (s : Manager) (id : FlightId) : Manager × Reply :=
  ({ s with answers := without id s.answers }, (s.answers.lookup id).getD .none)

/-- Carries out a step up to its reply. -/
def reply (s : Manager) : Step → Manager × Reply
  | .call c => s.perform c
  | .await r =>
    if s.held then
      (runToAnswer stepLimit (s.start (s.operation r)) s.nextId).takeAnswer s.nextId
    else (s, .none)
  | .advance ms => (runUntil stepLimit s (s.now + ms), .none)
  | .join name =>
    match s.tasks.lookup name with
    | none => (s, .unknownTask)
    | some id => (runToAnswer stepLimit { s with tasks := without name s.tasks } id).takeAnswer id

/-- How many empty tasks the user starts, one after the other, to let everything run that is ready. -/
def yields : Nat := 101

/-- Lets everything run that is ready. The first empty task runs only after all that was ready before it,
and nothing is left by the time of the others. -/
def giveWay (s : Manager) : Manager :=
  let s := settle stepLimit { s with started := s.started + 1 }
  { s with started := s.started + (yields - 1) }

/-- Carries out a step and then lets everything run that is ready. -/
def step (s : Manager) (st : Step) : Manager × Reply :=
  let (s, r) := s.reply st
  (s.giveWay, r)

/-- The events since the last time they were taken, in order, and the manager without them. -/
def takeEvents (s : Manager) : List Moment × Manager := (s.trace.reverse, { s with trace := [] })

end Manager

/-- What is seen of one step: its reply, what happened since the step before it, and the manager as it
stands afterwards. -/
structure Turn where
  reply : Reply
  events : List Moment
  after : Manager

namespace Manager

/-- Takes steps one after the other. -/
def take (s : Manager) : List Step → List Turn
  | [] => []
  | st :: rest =>
    let (s, r) := s.step st
    let (events, s) := s.takeEvents
    ⟨r, events, s⟩ :: s.take rest

/-- Runs a scenario. What the manager has begun of its own runs before the first step. -/
def run (s : Manager) (steps : List Step) : List Turn := s.giveWay.take steps

/-- Registers the entries of a configuration in order. -/
def registerAll (s : Manager) : List Config.Entry → Except PoolError Manager
  | [] => .ok s
  | e :: rest =>
    let (s, c) := s.instantiate e.endpoint
    match s.pool.registry.add c with
    | .error err => .error err
    | .ok r => (s.setRegistry r).registerAll rest

/-- A manager built from a configuration, with its poll loop started if it has one. -/
def ofConfig (config : Config) (network : Network) (hasRuntime : Bool) : Except PoolError Manager :=
  if config.timeoutMs = 0 then .error .invalidTimeout
  else
    let s := idle network hasRuntime
    let s := s.setRegistry
      { s.pool.registry with timeoutMs := config.timeoutMs, autoSwitch := config.autoSwitch }
    match s.registerAll config.connections with
    | .error e => .error e
    | .ok s =>
      if config.polling.enabled then
        s.startPolling (config.polling.options s.pool.registry.connections)
      else .ok s

end Manager

end RpcPool

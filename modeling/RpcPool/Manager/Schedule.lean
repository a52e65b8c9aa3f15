import RpcPool.Manager.Operation

/-!
# Scheduling

How tasks take turns. Running a task takes it to the next point at which it has to wait: a probe to its
timer or its end, a flight to its next batch or its answer, a poll loop to its next iteration. The tasks
of one instant run in the order in which they became ready, the user's own operation after all others;
when none is left, the clock jumps to the next timer.

`Manager.runTask` may be given the ready tasks in any order, and every run of the scheduler is one such
order.
-/

namespace RpcPool

namespace Manager

def setFlight (s : Manager) (id : FlightId) (f : Flight) : Manager :=
  { s with flights := upsert id f s.flights }

def setLoop (s : Manager) (id : LoopId) (l : PollLoop) : Manager :=
  { s with loops := upsert id l s.loops }

/-! ## Flights -/

/-- The timeout of a probe: the connection's own, or else the given one. A timeout of zero does not count. -/
def probeTimeout (fallback : UInt32) (c : Connection) : UInt32 :=
  ((c.endpoint.timeoutMs).filter fun ms => 0 < ms).getD fallback

/-- Starts a batch. Its probes become ready in the order of the connections. -/
def launch (s : Manager) (id : FlightId) (owner : Owner) (options : CheckOptions) (stage : Stage)
    (conns : List Connection) : Manager :=
  let fallback := (options.timeoutMs.filter fun ms => 0 < ms).getD s.pool.registry.timeoutMs
  let probes := conns.mapIdx fun i c => ⟨c, probeTimeout fallback c, s.started + i + 1, .queued⟩
  let s := { s with started := s.started + probes.length }.setFlight id
    ⟨owner, .batch options stage probes⟩
  (List.range probes.length).foldl (fun s i => s.wake (.probe id i)) s

/-- Ends a flight with its answer. An iteration of a poll loop is noted, and the loop goes on at once. -/
def land (s : Manager) (id : FlightId) (owner : Owner) (reply : Reply) : Manager :=
  let s := { s with flights := without id s.flights }
  match owner with
  | .caller => { s with answers := upsert id reply s.answers }.release
  | .task => { s with answers := upsert id reply s.answers }.release
  | .loop loop =>
    match s.loops.lookup loop with
    | none => s.release
    | some l =>
      let s := match reply with
        | .broken b => s.record (.pollFailed l.iterations b)
        | _ => s.record (.polled l.iterations (s.now - l.began) s.pool.connected)
      let s := s.release
      { s with ready := .loop loop :: s.ready.filter fun t => !(t == .loop loop) }

/-- Carries a flight on. -/
def proceed (s : Manager) (id : FlightId) (owner : Owner) : Progress → Manager
  | .await options stage conns => s.launch id owner options stage conns
  | .done reply => s.land id owner reply

/-- Whether every probe of a batch is over. -/
def joined (probes : List BatchProbe) : Bool := probes.all fun p => p.state.isOver

/-- What the probes of a batch have changed, or the task of the first that broke. -/
def changes (probes : List BatchProbe) : Except Nat (List (Connection × Bool)) :=
  probes.mapM fun p =>
    match p.state with
    | .ended changed => .ok (p.connection, changed)
    | _ => .error p.task

/-- Runs a flight: starts it, or goes on from its batch if that has been joined. -/
def runFlight (s : Manager) (id : FlightId) : Manager :=
  match s.flights.lookup id with
  | none => s
  | some ⟨owner, .queued op⟩ =>
    let (s, progress) := s.begin op
    s.proceed id owner progress
  | some ⟨owner, .batch options stage probes⟩ =>
    if joined probes then
      match changes probes with
      | .error task => s.land id owner (.broken ⟨Stage.operation stage, task⟩)
      | .ok probed =>
        let (s, progress) := s.resume options stage probed
        s.proceed id owner progress
    else s

/-- Starts an operation for its caller and carries it to its first batch. -/
def start (s : Manager) (op : Operation) : Manager :=
  ({ s with nextId := s.nextId + 1 }.setFlight s.nextId ⟨.caller, .queued op⟩).runFlight s.nextId

/-! ## Probes -/

/-- Gives a probe of a flight a new state. -/
def setProbe (s : Manager) (id : FlightId) (index : Nat) (state : ProbeState) : Manager :=
  match s.flights.lookup id with
  | some ⟨owner, .batch options stage probes⟩ =>
    s.setFlight id ⟨owner, .batch options stage (probes.modify index fun p => { p with state := state })⟩
  | _ => s

/-- Ends a probe: takes note of its outcome and lets its flight see that it is over. -/
def endProbe (s : Manager) (id : FlightId) (index : Nat) (c : Connection) (outcome : Probe.Outcome) :
    Manager :=
  let changed := s.pool.wouldChange c outcome
  let s := { s with pool := s.pool.observe c outcome }.record (.probeEnded c outcome)
  (s.setProbe id index (.ended changed)).wake (.flight id)

/-- Starts a probe. It ends when the endpoint answers, or at its timeout if that comes first; an answer
that comes exactly at the timeout still counts. -/
def startProbe (s : Manager) (id : FlightId) (index : Nat) (c : Connection) (timeoutMs : UInt32) :
    Manager :=
  let s := s.record (.probeStarted c timeoutMs)
  let (behaviour, network) := s.network.take c.uri
  let s := { s with network := network }
  let timeout : Probe.Outcome := .error (.timeout timeoutMs)
  match behaviour with
  | .panic => (s.setProbe id index .panicked).wake (.flight id)
  | .hang => (s.setProbe id index (.waiting timeout)).sleep (s.now + timeoutMs.toNat) (.probe id index)
  | .reply delay outcome =>
    if delay = 0 then s.endProbe id index c outcome
    else if delay ≤ timeoutMs.toNat then
      (s.setProbe id index (.waiting outcome)).sleep (s.now + delay) (.probe id index)
    else (s.setProbe id index (.waiting timeout)).sleep (s.now + timeoutMs.toNat) (.probe id index)

/-- Runs a probe: starts it, or ends it once its timer has gone off. -/
def runProbe (s : Manager) (id : FlightId) (index : Nat) : Manager :=
  match s.flights.lookup id with
  | some ⟨_, .batch _ _ probes⟩ =>
    match probes[index]? with
    | none => s
    | some p =>
      match p.state with
      | .queued => s.startProbe id index p.connection p.timeoutMs
      | .waiting outcome => s.endProbe id index p.connection outcome
      | _ => s
  | _ => s

/-! ## Poll loops -/

/-- Runs a poll loop between two iterations: ends it if it was told to stop, starts the next iteration if
that is due, and else waits for it. -/
def runLoop (s : Manager) (id : LoopId) : Manager :=
  match s.loops.lookup id with
  | none => s
  | some l =>
    if l.stopped then { s with loops := without id s.loops }.record (.pollingStopped l.iterations)
    else if l.due ≤ s.now then
      let next := nextTick l.options.period l.due s.now
      let s := s.setLoop id { l with iterations := l.iterations + 1, due := next, began := s.now }
      let flight := s.nextId
      let s := { s with nextId := flight + 1 }
      let s := s.setFlight flight ⟨.loop id, .queued (.poll l.options)⟩
      s.runFlight flight
    else s.sleep l.due (.loop id)

/-! ## The scheduler -/

/-- Runs one ready task. -/
def runTask (s : Manager) (t : Task) : Manager :=
  if s.ready.contains t then
    let s := { s with ready := s.ready.erase t }
    match t with
    | .probe id index => s.runProbe id index
    | .flight id => s.runFlight id
    | .loop id => s.runLoop id
  else s

/-- Whether a task is the user's own operation. -/
def isCallers (s : Manager) : Task → Bool
  | .flight id => ((s.flights.lookup id).map (·.owner)) == some .caller
  | _ => false

/-- The task that runs next. -/
def nextTask? (s : Manager) : Option Task :=
  (s.ready.find? fun t => !s.isCallers t).or s.ready.head?

/-- The time of the next timer. -/
def nextTimer? (s : Manager) : Option Nat := (s.timers.map (·.1)).min?

/-- Moves the clock and wakes the tasks whose time has come, in the order in which they began to wait. -/
def moveClock (s : Manager) (now : Nat) : Manager :=
  let due := s.timers.filter fun e => e.1 ≤ now
  let s := { s with now := now, timers := s.timers.filter fun e => !(e.1 ≤ now) }
  due.foldl (fun s e => s.wake e.2) s

/-- Runs ready tasks until none is left, at most so many. -/
def settle : Nat → Manager → Manager
  | 0, s => s
  | fuel + 1, s =>
    match s.nextTask? with
    | none => s
    | some t => settle fuel (s.runTask t)

/-- Lets the clock run up to a time and everything happen that is due by then, in at most so many steps. -/
def runUntil : Nat → Manager → Nat → Manager
  | 0, s, _ => s
  | fuel + 1, s, time =>
    match s.nextTask?, s.nextTimer? with
    | some t, _ => runUntil fuel (s.runTask t) time
    | none, none => s.moveClock time
    | none, some due =>
      if due ≤ time then runUntil fuel (s.moveClock due) time else s.moveClock time

/-- Runs everything until a flight has its answer, in at most so many steps. -/
def runToAnswer : Nat → Manager → FlightId → Manager
  | 0, s, _ => s
  | fuel + 1, s, id =>
    if (s.answers.lookup id).isSome then s
    else
      match s.nextTask?, s.nextTimer? with
      | some t, _ => runToAnswer fuel (s.runTask t) id
      | none, some due => runToAnswer fuel (s.moveClock due) id
      | none, none => s

end Manager

end RpcPool

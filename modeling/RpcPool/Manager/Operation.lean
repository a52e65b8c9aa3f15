import RpcPool.Manager.Notify

/-!
# Operations

Each operation alternates between batches of probes, for which it waits, and stretches in between, which
run without interruption: `begin` up to the first batch, `resume` from the end of one batch to the start
of the next. Both say how the operation goes on: with another batch, or with its answer.
-/

namespace RpcPool

/-- How an operation goes on. -/
inductive Progress
  /-- Probe these connections and go on from this stage. -/
  | await (options : CheckOptions) (stage : Stage) (conns : List Connection)
  | done (reply : Reply)
  deriving Repr

/-- The next group of a search that has members not left out. -/
def Search.next (excluded : List Connection) :
    List (List Connection) → Option (List Connection × Search)
  | [] => none
  | g :: later =>
    let conns := g.filter fun c => !Selection.excludes excluded c
    if conns.isEmpty then Search.next excluded later else some (conns, ⟨excluded, later⟩)

namespace Manager

/-! ## The end of a batch -/

/-- Notifies the listeners if a probe of the batch changed the state of the connection that is now
current. -/
def publishStatus (s : Manager) (probed : List (Connection × Bool)) : Manager :=
  match s.pool.registry.current with
  | none => s
  | some current =>
    if probed.any fun p => p.2 && p.1.same current then s.announce (some current) else s

/-- Ends a check of a list of connections after its probes: picks the first connected one if the manager
is disconnected, then re-ranks. Says whether any of them is connected. -/
def rank (s : Manager) (options : CheckOptions) (probed : List (Connection × Bool)) : Manager × Bool :=
  let s := s.publishStatus probed
  let first := Selection.firstConnected s.pool.health.get (probed.map (·.1))
  if options.autoSwitch then
    let s := match first with
      | some c => s.follow (s.pool.reconnect c)
      | none => s
    (s.follow s.pool.improve, first.isSome)
  else (s, first.isSome)

/-- Goes through the groups of a prioritized poll up to one that has to be probed. A group whose members
are all left out is checked without a probe. -/
def sweep (s : Manager) (options : CheckOptions) (excluded : List Connection) :
    List (List Connection) → Manager × Progress
  | [] => (s, .done (.flag false))
  | g :: later =>
    let conns := g.filter fun c => !Selection.excludes excluded c
    if conns.isEmpty then
      let (s, found) := s.rank options []
      if found then (s, .done (.flag true)) else s.sweep options excluded later
    else (s, .await options (.sweep ⟨excluded, later⟩) conns)

/-! ## Beginnings -/

/-- The options of a check that a user asks for. -/
def defaultOptions (s : Manager) : CheckOptions := ⟨s.pool.registry.autoSwitch, none⟩

/-- The options of a check in an iteration of a poll loop. -/
def pollOptions (s : Manager) (o : PollOptions) : CheckOptions :=
  ⟨o.autoSwitch.getD s.pool.registry.autoSwitch, o.timeoutMs⟩

def beginStatus (s : Manager) (options : CheckOptions) : Progress :=
  match s.pool.registry.current with
  | none => .done (.flag false)
  | some c => .await options (.status c) [c]

def beginRanking (s : Manager) (options : CheckOptions) (conns excluded : List Connection) :
    Manager × Progress :=
  let conns := conns.filter fun c => !Selection.excludes excluded c
  if conns.isEmpty then
    let (s, found) := s.rank options []
    (s, .done (.flag found))
  else (s, .await options .ranking conns)

/-- The groups of the connections registered by now. -/
def groups (s : Manager) : List (List Connection) := Selection.groups s.pool.registry.connections

/-- The answer that shows a connection, or that there is none. -/
def found (s : Manager) (c : Option Connection) : Reply := .connection (c.map s.shown)

/-- Starts an operation and carries it to its first batch. -/
def begin (s : Manager) : Operation → Manager × Progress
  | .checkConnection => (s, s.beginStatus s.defaultOptions)
  | .checkConnections conns excluded => s.beginRanking s.defaultOptions conns excluded
  | .bestAvailable excluded =>
    match Search.next excluded s.groups with
    | none => (s, .done (s.found none))
    | some (conns, search) => (s, .await s.defaultOptions (.search search) conns)
  | .poll o =>
    let options := s.pollOptions o
    match o.pollType with
    | .current => (s, s.beginStatus options)
    | .all => s.beginRanking options s.pool.registry.connections o.excluded
    | .prioritized => s.sweep options o.excluded s.groups

/-! ## Continuations -/

/-- The operation in whose name a batch fails. -/
def Stage.operation : Stage → BatchOperation
  | .status _ => .checkConnection
  | .failover .. => .bestAvailable
  | .search _ => .bestAvailable
  | .ranking => .checkConnections
  | .sweep _ => .checkConnections

/-- Goes on from a joined batch, each of whose probes either did or did not change what listeners are
told about its connection. -/
def resume (s : Manager) (options : CheckOptions) (stage : Stage) (probed : List (Connection × Bool)) :
    Manager × Progress :=
  match stage with
  | .status watched =>
    let s := s.publishStatus probed
    let changed := probed.any (·.2)
    if options.autoSwitch && !s.pool.isUp watched then
      match Search.next [watched] s.groups with
      | none => (s, .done (.flag changed))
      | some (conns, search) => (s, .await options (.failover watched changed search) conns)
    else (s, .done (.flag changed))
  | .failover watched changed search =>
    let s := s.publishStatus probed
    match Selection.firstConnected s.pool.health.get (probed.map (·.1)) with
    | some best => (s.follow (s.pool.failover watched best), .done (.flag changed))
    | none =>
      match Search.next search.excluded search.later with
      | none => (s, .done (.flag changed))
      | some (conns, search) => (s, .await options (.failover watched changed search) conns)
  | .search search =>
    let s := s.publishStatus probed
    match Selection.firstConnected s.pool.health.get (probed.map (·.1)) with
    | some best => (s, .done (s.found (some best)))
    | none =>
      match Search.next search.excluded search.later with
      | none => (s, .done (s.found none))
      | some (conns, search) => (s, .await options (.search search) conns)
  | .ranking =>
    let (s, found) := s.rank options probed
    (s, .done (.flag found))
  | .sweep search =>
    let (s, found) := s.rank options probed
    if found then (s, .done (.flag true)) else s.sweep options search.excluded search.later

end Manager

end RpcPool

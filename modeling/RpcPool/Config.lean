import RpcPool.Polling
import RpcPool.Registry

/-!
# Configuration

The contents of a configuration file: settings of the pool, of its poll loop, and the endpoints it starts
with.
-/

namespace RpcPool

namespace Config

/-- One endpoint of a configuration. It may be incomplete, which `Config.check` finds out. -/
structure Entry where
  uri : String
  username : Option String := none
  password : Option String := none
  priority : UInt32 := 0
  timeoutMs : Option UInt32 := none
  attributes : Attributes := []
  deriving DecidableEq, Repr

/-- The endpoint of an entry. It has credentials only if the entry has both parts of them. -/
def Entry.endpoint (e : Entry) : Endpoint where
  uri := e.uri
  credentials :=
    match e.username, e.password with
    | some username, some password => some ⟨username, password⟩
    | _, _ => none
  priority := e.priority
  timeoutMs := e.timeoutMs
  attributes := e.attributes

/-- The poll loop of a configuration. -/
structure Polling where
  enabled : Bool := false
  periodMs : UInt64 := defaultPollPeriodMs
  pollType : PollType := .prioritized
  /-- URIs that the loop leaves out. -/
  excluded : List String := []
  deriving DecidableEq, Repr

/-- The options of a configured loop over the connections registered by now. URIs that are not
registered are ignored. -/
def Polling.options (p : Polling) (registered : List Connection) : PollOptions where
  periodMs := p.periodMs
  pollType := p.pollType
  excluded := registered.filter fun c => p.excluded.contains c.uri

end Config

structure Config where
  timeoutMs : UInt32 := Registry.defaultTimeoutMs
  autoSwitch : Bool := Registry.defaultAutoSwitch
  polling : Config.Polling := {}
  connections : List Config.Entry := []
  deriving DecidableEq, Repr

namespace Config

/-- The configuration of a user who has none: one node on this machine. -/
def standard : Config where
  connections := [{ uri := "http://127.0.0.1:18081", priority := 1 }]

end Config

end RpcPool

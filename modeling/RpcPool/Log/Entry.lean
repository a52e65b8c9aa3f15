import RpcPool.Json
import RpcPool.Log.Redaction

/-!
# Log entries

What is logged about a run: one entry per note, with secrets taken out of its message and of every field
that may hold a URI or an error.
-/

namespace RpcPool

namespace Log

/-- Something to be logged. -/
inductive Note
  | error (component name message : String)
  | probeStart (uri : String) (timeoutMs : UInt32)
  | probeEnd (uri : String) (connected : Bool) (responseMs : Option UInt64) (error : Option String)
  | connectionChanged (uri : Option String) (listeners : UInt64)
  | autoSwitch (source : Option String) (target reason : String)
  | pollerStarted (periodMs : UInt64) (pollType : String)
  | pollerStopped (iterations : UInt64)
  | pollIteration (iteration tookMs : UInt64) (connected : Bool)
  | pollError (iteration : UInt64) (error : String)
  deriving Repr

/-- One entry of the log, without its time and session. -/
structure Entry where
  level : String
  component : String
  event : String
  message : String
  fields : List (String × Json)
  deriving Repr

/-- A text field without secrets. -/
def redacted (s : String) : Json := .string (redact s)

/-- A field that may be absent. -/
def redacted? : Option String → Json
  | none => .null
  | some s => redacted s

def decimal (n : Nat) : String := toString n

/-- The entry of a note before secrets are taken out of its message. -/
def Note.rawEntry : Note → Entry
  | .error component name message => ⟨"ERROR", component, name, message, []⟩
  | .probeStart uri ms =>
    ⟨"NETWORK", "Transport", "probe_start",
      "Probing " ++ uri ++ " (" ++ decimal ms.toNat ++ "ms timeout)",
      [("uri", redacted uri), ("timeout_ms", .natural ms.toUInt64)]⟩
  | .probeEnd uri connected responseMs failure =>
    ⟨"NETWORK", "Transport", "probe_end",
      "Probe of " ++ uri ++ " completed: " ++ (if connected then "connected" else "disconnected"),
      [("uri", redacted uri), ("connected", .bool connected)]
        ++ (responseMs.map fun ms => ("response_time_ms", Json.natural ms)).toList
        ++ (failure.map fun e => ("error", redacted e)).toList⟩
  | .connectionChanged uri listeners =>
    ⟨"INFO", "ConnectionManager", "connection_changed",
      "Current connection: " ++ uri.getD "none",
      [("uri", redacted? uri), ("listeners", .natural listeners)]⟩
  | .autoSwitch source target reason =>
    ⟨"INFO", "Selector", "auto_switch",
      "Switching to " ++ target ++ " (" ++ reason ++ ")",
      [("from", redacted? source), ("to", redacted target), ("reason", .string reason)]⟩
  | .pollerStarted periodMs pollType =>
    ⟨"INFO", "Poller", "poller_started",
      "Polling every " ++ decimal periodMs.toNat ++ "ms (" ++ pollType ++ ")",
      [("period_ms", .natural periodMs), ("poll_type", .string pollType)]⟩
  | .pollerStopped iterations =>
    ⟨"INFO", "Poller", "poller_stopped", "Polling stopped", [("iterations", .natural iterations)]⟩
  | .pollIteration iteration tookMs connected =>
    ⟨"PERF", "Poller", "poll_iteration",
      "Poll #" ++ decimal iteration.toNat ++ " took " ++ decimal tookMs.toNat ++ "ms",
      [("iteration", .natural iteration), ("duration_ms", .natural tookMs), ("connected", .bool connected)]⟩
  | .pollError iteration failure =>
    ⟨"ERROR", "Poller", "poll_error",
      "Poll #" ++ decimal iteration.toNat ++ " failed: " ++ failure, [("iteration", .natural iteration)]⟩

/-- The entry of a note. -/
def Note.entry (n : Note) : Entry :=
  let e := n.rawEntry
  { e with message := redact e.message }

end Log

end RpcPool

import RpcPool.Manager.Call

/-!
# Events

What happens in a run, in the order in which it happens. Each event is kept together with the time and
with the pool as it stood then, so that a run can be questioned about the moment of an event: whether a
connection was registered when it became current, say, or what a listener saw.
-/

namespace RpcPool

inductive Event
  | probeStarted (c : Connection) (timeoutMs : UInt32)
  /-- A probe has ended and its outcome was taken note of. -/
  | probeEnded (c : Connection) (outcome : Probe.Outcome)
  /-- A probe made elsewhere was taken note of. -/
  | observed (c : Connection) (outcome : Probe.Outcome)
  /-- The current pointer moved on its own. -/
  | switched (s : Switch)
  /-- A change of the current connection or of its state is made known to so many listeners. -/
  | announced (c : Option Connection) (listeners : Nat)
  /-- A listener was called. -/
  | notified (listener : String) (c : Option Connection)
  /-- A listener's own call returned. -/
  | answered (call : Call) (reply : Reply)
  | pollingStarted (periodMs : UInt64) (pollType : PollType)
  | pollingStopped (iterations : Nat)
  | polled (iteration : Nat) (tookMs : Nat) (connected : Bool)
  | pollFailed (iteration : Nat) (broken : BrokenBatch)

/-- An event, when it happened, and the pool at that moment. -/
structure Moment where
  time : Nat
  pool : Pool
  event : Event

end RpcPool

import RpcPool.Log.Entry
import RpcPool.Manager.Event

/-!
# The journal of a run

What of a run goes to the log, in the words of the log.
-/

namespace RpcPool

/-- The note of an event, if it is logged. -/
def Moment.note? (m : Moment) : Option Log.Note :=
  match m.event with
  | .probeStarted c timeoutMs => some (.probeStart c.uri timeoutMs)
  | .probeEnded c outcome =>
    let h := m.pool.healthOf c
    let error := match outcome with
      | .ok _ => none
      | .error f => some f.message
    some (.probeEnd c.uri h.connected h.lastResponse error)
  | .switched s => some (.autoSwitch (s.source.map (·.uri)) s.target.uri s.reason.message)
  | .announced c listeners => some (.connectionChanged (c.map (·.uri)) (UInt64.ofNat listeners))
  | .pollingStarted periodMs pollType => some (.pollerStarted periodMs pollType.name)
  | .pollingStopped iterations => some (.pollerStopped (UInt64.ofNat iterations))
  | .polled iteration tookMs connected =>
    some (.pollIteration (UInt64.ofNat iteration) (UInt64.ofNat tookMs) connected)
  | .pollFailed iteration broken => some (.pollError (UInt64.ofNat iteration) broken.message)
  | .observed .. => none
  | .notified .. => none
  | .answered .. => none

/-- The log entries of a run. -/
def journal (trace : List Moment) : List Log.Entry := trace.filterMap fun m => m.note?.map (·.entry)

end RpcPool

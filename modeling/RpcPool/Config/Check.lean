import RpcPool.Config
import RpcPool.Text.Blank

/-!
# Checking configurations

What a configuration has to satisfy beyond being readable. The first violation is reported, settings
before endpoints and endpoints in order.
-/

namespace RpcPool

namespace Config

/-- What is wrong with a configuration. -/
inductive Violation
  | zeroTimeout
  | zeroPeriod
  | emptyUri
  | duplicateUri (uri : String)
  | halfCredentials (uri : String)
  | zeroEntryTimeout (uri : String)
  deriving DecidableEq, Repr

/-- The wording of a violation. -/
def Violation.message : Violation → String
  | .zeroTimeout => "timeout_ms must be greater than 0"
  | .zeroPeriod => "polling.period_ms must be greater than 0"
  | .emptyUri => "connection uri must not be empty"
  | .duplicateUri uri => "duplicate connection uri: " ++ uri
  | .halfCredentials uri => "connection " ++ uri ++ " must set both username and password"
  | .zeroEntryTimeout uri => "connection " ++ uri ++ " timeout_ms must be greater than 0"

/-- Checks the endpoints that come after those with the URIs `seen`. -/
def checkEntries (seen : List String) : List Entry → Except Violation Unit
  | [] => .ok ()
  | e :: rest =>
    if e.uri.toList.all Text.isBlank then .error .emptyUri
    else if seen.contains e.uri then .error (.duplicateUri e.uri)
    else if e.username.isSome != e.password.isSome then .error (.halfCredentials e.uri)
    else if e.timeoutMs = some 0 then .error (.zeroEntryTimeout e.uri)
    else checkEntries (e.uri :: seen) rest

/-- Checks a configuration. -/
def check (c : Config) : Except Violation Unit :=
  if c.timeoutMs = 0 then .error .zeroTimeout
  else if c.polling.periodMs = 0 then .error .zeroPeriod
  else checkEntries [] c.connections

end Config

end RpcPool

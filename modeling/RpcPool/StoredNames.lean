import RpcPool.Health
import RpcPool.Json.Typed
import RpcPool.Polling

/-!
# Stored choices

Observations and poll types are stored in JSON by their names.
-/

namespace RpcPool

/-- The observation that a text stores. -/
def Observation.decode (text : String) : Except Json.TypedError Observation :=
  Json.readText (Json.typedChoice (Observation.all.map fun o => (o.name, o))) text

/-- The poll type that a text stores. -/
def PollType.decode (text : String) : Except Json.TypedError PollType :=
  Json.readText (Json.typedChoice (PollType.choices.map fun t => (t.name, t))) text

end RpcPool

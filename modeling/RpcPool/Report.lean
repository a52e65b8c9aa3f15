import RpcPool.Manager.Scenario
import RpcPool.Snapshot

/-!
# Reports

What a user is shown about a pool: which connection is the best, or how the current connection changes
while the pool is watched, and after that a snapshot of every connection.
-/

namespace RpcPool

namespace Report

/-- A connection as a line, with its last response time if there is one. -/
def line (label : String) (pool : Pool) : Option Connection → String
  | none => label ++ ": none"
  | some c =>
    match (pool.healthOf c).lastResponse with
    | none => label ++ ": " ++ c.uri
    | some ms => label ++ ": " ++ c.uri ++ " (" ++ toString ms.toNat ++ "ms)"

/-- A line for every connection in listing order. -/
def snapshots (pool : Pool) : List String :=
  pool.listing.map fun c => (Snapshot.of c.endpoint (pool.healthOf c)).encode

/-- The listener that reports changes. -/
def printer : String := "printer"

/-- The line of a notification. -/
def changeLine? (m : Moment) : Option String :=
  match m.event with
  | .notified _ c => some (line "changed" m.pool c)
  | _ => none

/-- The line of the answer to a search. -/
def bestLine? (pool : Pool) : Reply → Option String
  | .connection c => some (line "best" pool (c.map (·.1)))
  | _ => none

/-- The steps of a user who watches the pool for some seconds. -/
def watching (config : Config) (seconds : UInt64) : List Step :=
  [.call (.addListener printer [] 0), .call (.startConfigured config.polling),
   .advance (seconds.toNat * 1000), .call .stopPolling]

/-- The steps of a user who wants to know the best connection. -/
def searching : List Step := [.await (.bestAvailable [])]

/-- The lines of a report on the pool of a configuration. -/
def lines (config : Config) (network : Network) (watch : Option UInt64) :
    Except PoolError (List String) :=
  match Manager.ofConfig config network true with
  | .error e => .error e
  | .ok s =>
    let steps := match watch with
      | some seconds => watching config seconds
      | none => searching
    let turns := s.run steps
    let seen := turns.flatMap fun t =>
      t.events.filterMap changeLine? ++ (bestLine? t.after.pool t.reply).toList
    .ok (seen ++ snapshots ((turns.getLast?.map fun t => t.after.pool).getD s.pool))

end Report

end RpcPool

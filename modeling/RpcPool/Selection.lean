import RpcPool.Endpoint
import RpcPool.Health

/-!
# Selection

The rules that rank connections. They only read observed health, given as a function on instances;
probing and switching happen elsewhere.

A larger priority has precedence over a smaller one, and every priority over `0`, which is unranked.
Connections of one priority form a group, and groups are visited from the most important down.
-/

namespace RpcPool

namespace Selection

/-- Whether a connection shares its URI with one that is left out. -/
def excludes (excluded : List Connection) (c : Connection) : Bool :=
  excluded.any fun e => e.uri == c.uri

/-! ## Precedence -/

/-- Compares two priorities by precedence, in which `0`, unranked, comes below every other. -/
def comparePriority (p q : UInt32) : Ordering :=
  if p = q then .eq
  else if p = 0 then .lt
  else if q = 0 then .gt
  else compare p q

/-! ## Groups -/

/-- Adds a priority to a strictly descending list of priorities. -/
def insertPriority (p : UInt32) : List UInt32 → List UInt32
  | [] => [p]
  | q :: rest =>
    match comparePriority p q with
    | .gt => p :: q :: rest
    | .eq => q :: rest
    | .lt => q :: insertPriority p rest

/-- The priorities that occur in a list, each once, most important first. -/
def priorities (cs : List Connection) : List UInt32 :=
  cs.foldr (fun c ps => insertPriority c.priority ps) []

/-- Splits a list into its groups, most important first. A group keeps the order of the list. -/
def groups (cs : List Connection) : List (List Connection) :=
  (priorities cs).map fun p => cs.filter fun c => c.priority == p

/-! ## The best of a list -/

/-- The first connected connection of a list. -/
def firstConnected (health : InstanceId → Health) (cs : List Connection) : Option Connection :=
  cs.find? fun c => (health c.id).connected

/-- The latency by which a connection competes: none unless it is connected. -/
def latency (health : InstanceId → Health) (c : Connection) : Option UInt64 :=
  if (health c.id).connected then (health c.id).lastResponse else none

/-- The better of the best so far and the next connection; only a smaller latency displaces. -/
def faster (health : InstanceId → Health) (best : Option (Connection × UInt64)) (c : Connection) :
    Option (Connection × UInt64) :=
  match latency health c, best with
  | none, _ => best
  | some ms, none => some (c, ms)
  | some ms, some (b, least) => if least ≤ ms then some (b, least) else some (c, ms)

/-- The connected connection with the least last response time, the earliest of several. -/
def fastestConnected (health : InstanceId → Health) (cs : List Connection) : Option Connection :=
  (cs.foldl (faster health) none).map (·.1)

/-- The candidate of a list: the fastest connection of its first group that has one. -/
def candidate (health : InstanceId → Health) (cs : List Connection) : Option Connection :=
  (groups cs).findSome? (fastestConnected health)

/-- Whether a candidate may take the place of a connected current connection: at once if their
priorities differ, else only if it was faster over a whole window. -/
def displaces (health : InstanceId → Health) (d current : Connection) : Bool :=
  d.priority != current.priority ||
    (health d.id).window.consistentlyBetter (health current.id).window

/-- Which connection, if any, should replace `current`. -/
def replacement (health : InstanceId → Health) (cs : List Connection) (current : Option Connection) :
    Option Connection :=
  match candidate health cs, current with
  | none, _ => none
  | some d, none => some d
  | some d, some c =>
    if !(health c.id).connected then some d
    else if d.same c then none
    else if displaces health d c then some d
    else none

/-! ## Listing -/

/-- Whether a connection is the current one. -/
def isCurrent (current : Option Connection) (c : Connection) : Bool :=
  current.any fun k => k.same c

/-- True before false. -/
def flagOrder (a b : Bool) : Ordering := compare b a

/-- The order in which connections are listed: the current one, then those online, then by precedence,
then by URI. -/
def listingOrder (health : InstanceId → Health) (current : Option Connection) (a b : Connection) :
    Ordering :=
  (flagOrder (isCurrent current a) (isCurrent current b)).then <|
  (flagOrder (health a.id).online.isYes (health b.id).online.isYes).then <|
  (comparePriority b.priority a.priority).then <|
  compare a.uri b.uri

/-- A list in listing order; connections that compare equal keep their order. -/
def listing (health : InstanceId → Health) (current : Option Connection) (cs : List Connection) :
    List Connection :=
  cs.mergeSort fun a b => (listingOrder health current a b).isLE

end Selection

end RpcPool

import RpcPool.Endpoint

/-!
# The registry

The connections a pool knows, in the order in which they were registered, and the current one. It acts as
a map from URI to connection that remembers insertion order. Every operation that may move the current
pointer says whether it did, because that is what listeners are told.
-/

namespace RpcPool

/-- Why a pool refuses an operation. -/
inductive PoolError
  | duplicateEndpoint (uri : String)
  | notFound (uri : String)
  | missingUri
  | invalidTimeout
  /-- Polling needs a running scheduler. -/
  | noRuntime
  deriving DecidableEq, Repr

/-- The wording of a refusal. -/
def PoolError.message : PoolError → String
  | .duplicateEndpoint uri => "connection already registered: " ++ uri
  | .notFound uri => "connection not registered: " ++ uri
  | .missingUri => "connection URI is required"
  | .invalidTimeout => "timeout must be greater than 0ms"
  | .noRuntime => "no tokio runtime available to start polling"

/-- Whether the current pointer moved, and where to. -/
inductive Change
  | unchanged
  | changed (current : Option Connection)
  deriving DecidableEq, Repr

structure Registry where
  /-- Registration order, which breaks ties in selection. -/
  connections : List Connection
  current : Option Connection
  autoSwitch : Bool
  /-- Probe timeout of connections without one of their own. -/
  timeoutMs : UInt32
  deriving DecidableEq, Repr

namespace Registry

def defaultTimeoutMs : UInt32 := 5000

def defaultAutoSwitch : Bool := true

/-- No connections, default settings. -/
def empty : Registry := ⟨[], none, defaultAutoSwitch, defaultTimeoutMs⟩

/-! ## Lookups -/

/-- The connection registered under a URI. -/
def get? (r : Registry) (uri : String) : Option Connection :=
  r.connections.find? fun c => c.uri == uri

def has (r : Registry) (uri : String) : Bool :=
  r.connections.any fun c => c.uri == uri

/-- Whether this very instance is registered. -/
def contains (r : Registry) (c : Connection) : Bool :=
  r.connections.any fun k => k.same c

/-- Whether this very instance is the current one. -/
def isCurrent (r : Registry) (c : Connection) : Bool :=
  r.current.any fun k => k.same c

/-! ## Explicit changes -/

/-- Registers a connection at the end of the list. -/
def add (r : Registry) (c : Connection) : Except PoolError Registry :=
  if c.uri = "" then .error .missingUri
  else if r.has c.uri then .error (.duplicateEndpoint c.uri)
  else .ok { r with connections := r.connections ++ [c] }

/-- Takes the current connection away. -/
def disconnect (r : Registry) : Registry × Change :=
  ({ r with current := none }, if r.current.isSome then .changed none else .unchanged)

/-- Removes the connection of a URI; if it was current, nothing is current any more. -/
def remove (r : Registry) (uri : String) : Except PoolError (Registry × Change) :=
  match r.get? uri with
  | none => .error (.notFound uri)
  | some c =>
    let rest := { r with connections := r.connections.eraseP fun k => k.uri == uri }
    .ok (if r.isCurrent c then rest.disconnect else (rest, .unchanged))

/-- Puts a connection in the place of the one with its URI, or at the end if there is none. -/
def place (c : Connection) : List Connection → List Connection
  | [] => [c]
  | k :: rest => if k.uri = c.uri then c :: rest else k :: place c rest

/-- Makes a connection current. An instance that is not registered is registered first, in the place of
the one with its URI. -/
def select (r : Registry) (c : Connection) : Except PoolError (Registry × Change) :=
  if r.isCurrent c then .ok (r, .unchanged)
  else if c.uri = "" then .error .missingUri
  else .ok ({ r with connections := place c r.connections, current := some c }, .changed (some c))

/-- Makes the connection of a URI current. An unknown URI is registered with default settings, as the
instance `fresh`. -/
def selectUri (r : Registry) (uri : String) (fresh : InstanceId) :
    Except PoolError (Registry × Change) :=
  if uri = "" then .error .missingUri
  else r.select ((r.get? uri).getD ⟨fresh, { uri }⟩)

/-- Forgets all connections and keeps the settings. -/
def clear (r : Registry) : Registry × Change :=
  { r with connections := [] }.disconnect

/-- Forgets all connections and restores the default settings. -/
def reset (r : Registry) : Registry × Change :=
  { r with autoSwitch := defaultAutoSwitch, timeoutMs := defaultTimeoutMs }.clear

/-! ## Automatic changes -/

/-- Moves the current pointer to a connection, but only if this very instance is still registered: one
that was removed while its probe was under way does not come back. -/
def switchTo (r : Registry) (c : Connection) : Registry × Change :=
  if r.isCurrent c || !r.contains c then (r, .unchanged)
  else ({ r with current := some c }, .changed (some c))

end Registry

end RpcPool

import RpcPool.Endpoint
import RpcPool.Health
import RpcPool.Json.Typed

/-!
# Snapshots

A snapshot is what may be shown of a connection at one moment: its configuration without the password,
and its health. It is stored as JSON; fields that are absent may be left out or null.
-/

namespace RpcPool

structure Snapshot where
  uri : String
  username : Option String
  priority : UInt32
  timeoutMs : Option UInt32
  isOnline : Option Bool
  isAuthenticated : Option Bool
  isConnected : Bool
  lastResponseTime : Option UInt64
  attributes : Attributes
  deriving DecidableEq, Repr

namespace Snapshot

/-- The snapshot of an endpoint with some health. -/
def of (e : Endpoint) (h : Health) : Snapshot where
  uri := e.uri
  username := e.credentials.map (·.username)
  priority := e.priority
  timeoutMs := e.timeoutMs
  isOnline := h.online.toOption
  isAuthenticated := h.authenticated.toOption
  isConnected := h.connected
  lastResponseTime := h.lastResponse
  attributes := e.attributes

/-! ## Writing -/

/-- A member that is null when the value is absent. -/
def nullable {α : Type} (f : α → Json) : Option α → Json
  | none => .null
  | some a => f a

/-- A member that is left out when the value is absent. -/
def optionalMember {α : Type} (name : String) (f : α → Json) : Option α → List (String × Json)
  | none => []
  | some a => [(name, f a)]

def toJson (s : Snapshot) : Json :=
  .object <|
    [("uri", .string s.uri)]
    ++ optionalMember "username" .string s.username
    ++ [("priority", .natural s.priority.toUInt64)]
    ++ optionalMember "timeout_ms" (fun ms => .natural ms.toUInt64) s.timeoutMs
    ++ [("is_online", nullable .bool s.isOnline),
        ("is_authenticated", nullable .bool s.isAuthenticated),
        ("is_connected", .bool s.isConnected),
        ("last_response_time", nullable .natural s.lastResponseTime)]
    ++ (if s.attributes.isEmpty then []
        else [("attributes", .object (s.attributes.map fun a => (a.1, .string a.2)))])

/-- The stored form of a snapshot. -/
def encode (s : Snapshot) : String := s.toJson.render

/-! ## Reading -/

def blank : Snapshot := ⟨"", none, 0, none, none, none, false, none, []⟩

/-- The fields of a snapshot. The URI, the priority and whether it is connected have to be there. -/
def reader : Json.RecordReader Snapshot Snapshot where
  name := "ConnectionSnapshot"
  fields :=
    [("uri", false), ("username", true), ("priority", false), ("timeout_ms", true), ("is_online", false),
     ("is_authenticated", false), ("is_connected", false), ("last_response_time", false),
     ("attributes", true)]
  set name s c :=
    match name with
    | "uri" => (Json.typedString c).map fun r => ({ s with uri := r.1 }, r.2)
    | "username" => (Json.typedOption Json.typedString c).map fun r => ({ s with username := r.1 }, r.2)
    | "priority" => (Json.typedUInt32 c).map fun r => ({ s with priority := r.1 }, r.2)
    | "timeout_ms" =>
      (Json.typedOption Json.typedUInt32 c).map fun r => ({ s with timeoutMs := r.1 }, r.2)
    | "is_online" => (Json.typedOption Json.typedBool c).map fun r => ({ s with isOnline := r.1 }, r.2)
    | "is_authenticated" =>
      (Json.typedOption Json.typedBool c).map fun r => ({ s with isAuthenticated := r.1 }, r.2)
    | "is_connected" => (Json.typedBool c).map fun r => ({ s with isConnected := r.1 }, r.2)
    | "last_response_time" =>
      (Json.typedOption Json.typedUInt64 c).map fun r => ({ s with lastResponseTime := r.1 }, r.2)
    | "attributes" =>
      (Json.typedMap c).map fun r => ({ s with attributes := Attributes.ofPairs r.1 }, r.2)
    | _ => .ok (s, c)
  finish seen s :=
    match ["uri", "priority", "is_connected"].find? fun name => !seen.contains name with
    | some name => .error (.missingField name)
    | none => .ok s

/-- The snapshot that a text stores. -/
def decode (text : String) : Except Json.TypedError Snapshot :=
  Json.readText (Json.typedRecord reader blank) text

end Snapshot

end RpcPool

import RpcPool.Config
import RpcPool.Data

/-!
# Writing configurations

A configuration as structured data, in the order in which its fields are written. Optional fields that
are absent, and an empty map of attributes, are left out.
-/

namespace RpcPool

namespace Config

def optionalField {α : Type} (name : String) (f : α → Data) : Option α → List (String × Data)
  | none => []
  | some a => [(name, f a)]

def Entry.toData (e : Entry) : Data :=
  .table <|
    [("uri", .text e.uri)]
    ++ optionalField "username" .text e.username
    ++ optionalField "password" .text e.password
    ++ [("priority", .integer e.priority.toNat)]
    ++ optionalField "timeout_ms" (fun ms => .integer ms.toNat) e.timeoutMs
    ++ (if e.attributes.isEmpty then []
        else [("attributes", .table (e.attributes.map fun a => (a.1, .text a.2)))])

def Polling.toData (p : Polling) : Data :=
  .table
    [("enabled", .bool p.enabled), ("period_ms", .integer p.periodMs.toNat),
     ("poll_type", .text p.pollType.name), ("excluded", .list (p.excluded.map .text))]

def toData (c : Config) : Data :=
  .table
    [("timeout_ms", .integer c.timeoutMs.toNat), ("auto_switch", .bool c.autoSwitch),
     ("polling", c.polling.toData), ("connections", .list (c.connections.map Entry.toData))]

end Config

end RpcPool

import RpcPool.Config
import RpcPool.Data

/-!
# Reading configurations

A configuration is read from structured data in any dialect. Every field has a default but the URI of an
endpoint; fields that are not known are passed over.
-/

namespace RpcPool

namespace Config

open Data (Dialect Mismatch RecordShape)

/-- Reads a poll type by its name. -/
def readPollType (d : Dialect) (data : Data) : Except Mismatch PollType :=
  Data.choice d (PollType.choices.map fun t => (t.name, t)) data

/-- The fields of an endpoint. Its URI is kept aside until it is known to be there. -/
def entryShape : RecordShape (Option String × Entry) where
  name := "ConnectionEntry"
  fields := ["uri", "username", "password", "priority", "timeout_ms", "attributes"]
  required := 1
  set name data acc :=
    let (uri, e) := acc
    match name with
    | "uri" => data.string.map fun s => (some s, e)
    | "username" => (Data.optional Data.string data).map fun s => (uri, { e with username := s })
    | "password" => (Data.optional Data.string data).map fun s => (uri, { e with password := s })
    | "priority" => data.uint32.map fun n => (uri, { e with priority := n })
    | "timeout_ms" => (Data.optional Data.uint32 data).map fun n => (uri, { e with timeoutMs := n })
    | "attributes" => (Data.tableOf Data.string data).map fun m =>
        (uri, { e with attributes := Attributes.ofPairs m })
    | _ => .ok acc

def readEntry (d : Dialect) (data : Data) : Except Mismatch Entry :=
  match Data.record d entryShape (none, { uri := "" }) data with
  | .error e => .error e
  | .ok (none, _) => .error (.missingField "uri")
  | .ok (some uri, e) => .ok { e with uri := uri }

def pollingShape (d : Dialect) : RecordShape Polling where
  name := "PollingConfig"
  fields := ["enabled", "period_ms", "poll_type", "excluded"]
  required := 0
  set name data p :=
    match name with
    | "enabled" => data.boolean.map fun b => { p with enabled := b }
    | "period_ms" => data.uint64.map fun n => { p with periodMs := n }
    | "poll_type" => (readPollType d data).map fun t => { p with pollType := t }
    | "excluded" => (Data.listOf Data.string data).map fun l => { p with excluded := l }
    | _ => .ok p

def shape (d : Dialect) : RecordShape Config where
  name := "Config"
  fields := ["timeout_ms", "auto_switch", "polling", "connections"]
  required := 0
  set name data c :=
    match name with
    | "timeout_ms" => data.uint32.map fun n => { c with timeoutMs := n }
    | "auto_switch" => data.boolean.map fun b => { c with autoSwitch := b }
    | "polling" => (Data.record d (pollingShape d) {} data).map fun p => { c with polling := p }
    | "connections" => (Data.listOf (readEntry d) data).map fun l => { c with connections := l }
    | _ => .ok c

/-- Reads a configuration. Of several mismatches the first in the order of keys is found. -/
def read (d : Dialect) (data : Data) : Except Mismatch Config := Data.record d (shape d) {} data.sorted

end Config

end RpcPool

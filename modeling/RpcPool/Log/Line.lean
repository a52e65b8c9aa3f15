import RpcPool.Files.Tree
import RpcPool.Json.Parser
import RpcPool.Log.Entry

/-!
# Lines of the log

An entry is written as one line of JSON with the time and the session in which it was made. As line breaks
inside of texts are escaped, a log file can be read back line by line.
-/

namespace RpcPool

namespace Log

structure Line where
  time : String
  session : String
  entry : Entry
  deriving Repr

namespace Line

def toJson (l : Line) : Json :=
  .object
    [("timestamp", .string l.time), ("level", .string l.entry.level),
     ("component", .string l.entry.component), ("event", .string l.entry.event),
     ("message", .string l.entry.message), ("correlation_id", .string l.session),
     ("fields", .object l.entry.fields)]

/-- A line as it is added to a log file, with its break. -/
def bytes (l : Line) : ByteArray := (l.toJson.render ++ "\n").toUTF8

def ofJson? (v : Json) : Option Line := do
  let text (name : String) : Option String :=
    match v.get? name with
    | some (.string s) => some s
    | _ => none
  let fields ← match v.get? "fields" with
    | some (.object members) => some members
    | _ => none
  return ⟨← text "timestamp", ← text "correlation_id",
    ⟨← text "level", ← text "component", ← text "event", ← text "message", fields⟩⟩

/-- Reads a line without its break. -/
def ofBytes? (bytes : ByteArray) : Option Line :=
  match Json.parse bytes.toList with
  | .error _ => none
  | .ok v => ofJson? v

end Line

/-! ## Log files -/

/-- How many zero bytes there are from an index on before the first other byte. -/
def zerosFrom (b : ByteArray) (i : Nat) : Nat :=
  if h : i < b.size then
    if b[i] = 0 then zerosFrom b (i + 1) else i
  else i
termination_by b.size - i

/-- The pieces between line breaks from an index on, given where the current one starts and the ones
before it, the latest first. -/
def linesFrom (b : ByteArray) (start i : Nat) (before : List ByteArray) : List ByteArray :=
  if h : i < b.size then
    if b[i] = 10 then linesFrom b (i + 1) (i + 1) (b.extract start i :: before)
    else linesFrom b start (i + 1) before
  else if start < b.size then (b.extract start b.size :: before).reverse
  else before.reverse
termination_by b.size - i

/-- What a log file holds: so many zero bytes, and then lines. -/
structure Reading where
  zeros : Nat
  lines : List ByteArray

def Reading.ofContent (c : Content) : Reading :=
  let b := c.bytes
  let zeros := zerosFrom b 0
  ⟨zeros, linesFrom b zeros zeros []⟩

end Log

end RpcPool

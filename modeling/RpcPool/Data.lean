import RpcPool.Text.Printable

/-!
# Structured data

What a document says once its syntax is out of the way: the common ground of the formats in which a
configuration may be written. A table keeps the order of the document; `Data.sorted` brings it into the
order of its keys, in which records are read.

Reading a value of some type out of data either succeeds or finds the first mismatch.
-/

namespace RpcPool

inductive Data
  | null
  | bool (b : Bool)
  | integer (n : Int)
  /-- A number that is not whole, as it is shown in messages. -/
  | float (shown : String)
  | text (s : String)
  | list (elements : List Data)
  | table (entries : List (String × Data))
  /-- A number beyond what the format can represent. -/
  | outOfRange
  deriving Repr, Inhabited

namespace Data

/-- How data differ from what is expected of them. -/
inductive Mismatch
  | wrongType (found expected : String)
  | wrongValue (found expected : String)
  | missingField (name : String)
  | duplicateField (name : String)
  | unknownVariant (name : String) (known : List String)
  | wrongLength (length : Nat) (expected : String)
  /-- A mismatch for which only the format has words. -/
  | malformed
  deriving DecidableEq, Repr

/-- A name in the quotes of a message. -/
def quoted (s : String) : String := "`" ++ s ++ "`"

/-- The wording of a mismatch. -/
def Mismatch.message : Mismatch → String
  | .wrongType found expected => "invalid type: " ++ found ++ ", expected " ++ expected
  | .wrongValue found expected => "invalid value: " ++ found ++ ", expected " ++ expected
  | .missingField name => "missing field " ++ quoted name
  | .duplicateField name => "duplicate field " ++ quoted name
  | .unknownVariant name known =>
    "unknown variant " ++ quoted name ++ ", expected one of " ++ String.intercalate ", " (known.map quoted)
  | .wrongLength length expected =>
    "invalid length " ++ toString length ++ ", expected " ++ expected
  | .malformed => ""

/-- Whether an integer fits a signed or an unsigned type of so many bits. -/
def fits (bits : Nat) (n : Int) : Bool := -Nat.pow 2 (bits - 1) ≤ n && n < Nat.pow 2 bits

/-- An integer as a message shows it. One that fits no 64-bit type is shown with the type that it fits. -/
def integerShown (n : Int) : String :=
  let text := "integer " ++ quoted (toString n)
  if fits 64 n then text
  else if n < Nat.pow 2 127 then text ++ " as i128"
  else text ++ " as u128"

/-- Data as a message shows them. -/
def shown : Data → String
  | null => "null"
  | bool b => "boolean " ++ quoted (toString b)
  | integer n => integerShown n
  | float s => "floating point " ++ quoted s
  | text s => "string " ++ Text.shown s
  | list _ => "sequence"
  | table _ => "map"
  | outOfRange => ""

abbrev Read (α : Type) := Data → Except Mismatch α

/-- The mismatch of data that are of the wrong type. -/
def wrongType {α : Type} (expected : String) : Read α
  | outOfRange => .error .malformed
  | d => .error (.wrongType d.shown expected)

/-- Reads a whole number below a bound. A number too large for any 64-bit type is of the wrong type. -/
def natural (bound : Nat) (expected : String) : Read Nat
  | integer n =>
    if 0 ≤ n && n < bound then .ok n.toNat
    else if fits 64 n then .error (.wrongValue (integerShown n) expected)
    else if fits 128 n then .error (.wrongType (integerShown n) expected)
    else .error .malformed
  | d => wrongType expected d

def uint32 (d : Data) : Except Mismatch UInt32 := (natural (Nat.pow 2 32) "u32" d).map UInt32.ofNat

def uint64 (d : Data) : Except Mismatch UInt64 := (natural (Nat.pow 2 64) "u64" d).map UInt64.ofNat

def boolean : Read Bool
  | bool b => .ok b
  | d => wrongType "a boolean" d

def string : Read String
  | text s => .ok s
  | d => wrongType "a string" d

/-- Reads a value that may be absent. -/
def optional {α : Type} (read : Read α) : Read (Option α)
  | null => .ok none
  | d => (read d).map some

/-- Reads a list of values. -/
def listOf {α : Type} (read : Read α) : Read (List α)
  | list elements => elements.mapM read
  | d => wrongType "a sequence" d

/-- Reads a table of values. -/
def tableOf {α : Type} (read : Read α) : Read (List (String × α))
  | table entries => entries.mapM fun e => (read e.2).map fun a => (e.1, a)
  | d => wrongType "a map" d

mutual

/-- Passes over data that nobody asked for. Only a number out of range is noticed. -/
def skip : Data → Except Mismatch Unit
  | outOfRange => .error .malformed
  | integer n => if fits 128 n then .ok () else .error .malformed
  | list elements => skipAll elements
  | table entries => skipEntries entries
  | _ => .ok ()

def skipAll : List Data → Except Mismatch Unit
  | [] => .ok ()
  | d :: rest => skip d >>= fun _ => skipAll rest

def skipEntries : List (String × Data) → Except Mismatch Unit
  | [] => .ok ()
  | (_, d) :: rest => skip d >>= fun _ => skipEntries rest

end

/-! ## Order -/

/-- Adds an entry to a table that is sorted by key, in place of one with the same key. -/
def insertSorted {α : Type} (key : String) (value : α) : List (String × α) → List (String × α)
  | [] => [(key, value)]
  | (k, v) :: rest =>
    if key < k then (key, value) :: (k, v) :: rest
    else if key = k then (key, value) :: rest
    else (k, v) :: insertSorted key value rest

mutual

/-- The same data with every table sorted by key. Of several entries of one key the last counts. -/
def sorted : Data → Data
  | list elements => .list (sortedList elements)
  | table entries => .table (sortedTable [] entries)
  | d => d

def sortedList : List Data → List Data
  | [] => []
  | d :: rest => sorted d :: sortedList rest

def sortedTable (done : List (String × Data)) : List (String × Data) → List (String × Data)
  | [] => done
  | (key, d) :: rest => sortedTable (insertSorted key (sorted d) done) rest

end

/-! ## Records and choices -/

/-- What formats do not agree on. -/
structure Dialect where
  /-- Reads the name of a choice and what is written with it. -/
  variant : Read (String × Option Data)
  /-- Reads what is written with the name of a choice that has nothing to it. -/
  nothing : Read Unit
  /-- Whether a record that is written as a list may not have more elements than fields. -/
  strictLength : Bool

/-- Reads one of some choices by name. -/
def choice {α : Type} (d : Dialect) (known : List (String × α)) (data : Data) : Except Mismatch α :=
  match d.variant data with
  | .error e => .error e
  | .ok (name, rest) =>
    match known.lookup name with
    | none => .error (.unknownVariant name (known.map (·.1)))
    | some a =>
      match rest with
      | none => .ok a
      | some r => (d.nothing r).map fun _ => a

/-- How a record is read: its name, the names of its fields in order, how many of them a list of fields
has to have, and how the value of a field is taken over into what has been read so far. -/
structure RecordShape (σ : Type) where
  name : String
  fields : List String
  required : Nat
  set : String → Data → σ → Except Mismatch σ

/-- Takes over fields one after the other. -/
def setFields {σ : Type} (r : RecordShape σ) : List (String × Data) → σ → Except Mismatch σ
  | [], acc => .ok acc
  | (name, d) :: rest, acc =>
    if r.fields.contains name then
      match r.set name d acc with
      | .error e => .error e
      | .ok acc => setFields r rest acc
    else
      match skip d with
      | .error e => .error e
      | .ok () => setFields r rest acc

/-- Reads a record, written as a table or as the list of its fields. -/
def record {σ : Type} (d : Dialect) (r : RecordShape σ) (start : σ) : Read σ
  | table entries => setFields r entries start
  | list elements =>
    match setFields r (r.fields.zip elements) start with
    | .error e => .error e
    | .ok acc =>
      if elements.length < r.required then
        .error (.wrongLength elements.length
          ("struct " ++ r.name ++ " with " ++ toString r.fields.length ++ " elements"))
      else if d.strictLength && r.fields.length < elements.length then
        .error (.wrongLength elements.length "fewer elements in array")
      else .ok acc
  | data => wrongType ("struct " ++ r.name) data

end Data

end RpcPool

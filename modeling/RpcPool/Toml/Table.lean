import RpcPool.Data

/-!
# Building tables

How the lines of a document add up to tables. A table may be filled in several places of a document, but
not in every way: what a header has opened is not reopened by another, what dotted keys have made is
closed to headers, and what stands in braces is closed for good. Tables under construction remember how
they came about.
-/

namespace RpcPool

namespace Toml

/-- How a table came about. -/
inductive Origin
  /-- By a header of its own, or as the document. -/
  | header
  /-- As a parent in the header of another table. -/
  | parent
  /-- As a part of a dotted key. -/
  | dotted
  /-- In braces. -/
  | inline
  deriving DecidableEq, Repr

/-- A value under construction. -/
inductive Node
  | scalar (d : Data)
  | array (elements : List Node)
  /-- An array of tables that headers add to, the latest first. -/
  | tables (elements : List Node)
  | table (origin : Origin) (entries : List (String × Node))
  deriving Repr, Inhabited

namespace Node

mutual

/-- What a value says. -/
def toData : Node → Data
  | scalar d => d
  | array elements => .list (toDataList elements)
  | tables elements => .list (toDataList elements).reverse
  | table _ entries => .table (toDataTable entries)

def toDataList : List Node → List Data
  | [] => []
  | n :: rest => toData n :: toDataList rest

def toDataTable : List (String × Node) → List (String × Data)
  | [] => []
  | (key, n) :: rest => (key, toData n) :: toDataTable rest

end

end Node

/-- A table under construction. -/
structure Table where
  origin : Origin
  entries : List (String × Node)
  deriving Repr

namespace Table

def empty (origin : Origin) : Table := ⟨origin, []⟩

def node (t : Table) : Node := .table t.origin t.entries

/-- Adds an entry, or replaces the one with its key. -/
def put (t : Table) (key : String) (n : Node) : Table :=
  if (t.entries.lookup key).isSome then
    { t with entries := t.entries.map fun e => if e.1 = key then (key, n) else e }
  else { t with entries := t.entries ++ [(key, n)] }

/-- Changes the table at the end of a path. Tables that are missing on the way are made. With `dotted`
the path is that of a dotted key, which does not enter tables opened by a header. -/
def modifyAt (dotted : Bool) (f : Table → Option Table) : List String → Table → Option Table
  | [], t => f t
  | key :: path, t =>
    match t.entries.lookup key with
    | none =>
      (modifyAt dotted f path (empty (if dotted then .dotted else .parent))).map fun u => t.put key u.node
    | some (.tables (.table origin entries :: older)) =>
      (modifyAt dotted f path ⟨origin, entries⟩).map fun u => t.put key (.tables (u.node :: older))
    | some (.table origin entries) =>
      if origin = .inline || (dotted && origin = .header) then none
      else (modifyAt dotted f path ⟨origin, entries⟩).map fun u => t.put key (.table u.origin u.entries)
    | some _ => none

/-- Sets the value of a dotted key. Its parts but the last name tables made by dotted keys, and the last
names nothing yet. -/
def set (t : Table) (path : List String) (key : String) (n : Node) : Option Table :=
  let dotted := !path.isEmpty
  modifyAt dotted (fun u =>
    if (u.origin = .dotted) ≠ dotted || (u.entries.lookup key).isSome then none else some (u.put key n))
    path t

end Table

/-! ## Sections -/

/-- A header: the path to a table, and whether the table is one more of an array. -/
structure Header where
  path : List String
  key : String
  isArray : Bool
  deriving Repr

/-- A document under construction: the finished part, and the section that lines are added to. -/
structure Draft where
  root : Table
  header : Option Header
  current : Table
  deriving Repr

namespace Draft

def empty : Draft := ⟨.empty .header, none, .empty .header⟩

/-- Puts the current section in its place. -/
def finish (d : Draft) : Option Table :=
  match d.header with
  | none => some d.current
  | some h =>
    d.root.modifyAt false (fun parent =>
      match parent.entries.lookup h.key with
      | none =>
        some (parent.put h.key (if h.isArray then .tables [d.current.node] else d.current.node))
      | some (.tables older) =>
        if h.isArray then some (parent.put h.key (.tables (d.current.node :: older))) else none
      | some _ => none) h.path

/-- The table that a header without an array opens, and the document without it. A table that only came
about as a parent is taken over. -/
def takeOver (h : Header) (root : Table) : Option (Table × Table) :=
  let without (t : Table) : Table := { t with entries := t.entries.filter fun e => !(e.1 == h.key) }
  match lookupAt h.path root with
  | none => some (.empty .header, root)
  | some parent =>
    match parent.entries.lookup h.key with
    | none => some (.empty .header, root)
    | some (.table .parent entries) =>
      (root.modifyAt false (fun u => some (without u)) h.path).map fun r => (⟨.header, entries⟩, r)
    | some _ => none
where
  /-- The table at the end of a path, if it is there. -/
  lookupAt : List String → Table → Option Table
    | [], t => some t
    | key :: path, t =>
      match t.entries.lookup key with
      | some (.tables (.table origin entries :: _)) => lookupAt path ⟨origin, entries⟩
      | some (.table origin entries) => lookupAt path ⟨origin, entries⟩
      | _ => none

/-- Ends the current section and starts the one of a header. -/
def start (d : Draft) (h : Header) : Option Draft := do
  let root ← d.finish
  let reached ← root.modifyAt false some h.path
  if h.isArray then some ⟨root, some h, .empty .header⟩
  else
    let (current, root) ← takeOver h reached
    some ⟨root, some h, current⟩

/-- Adds a line to the current section. -/
def set (d : Draft) (path : List String) (key : String) (n : Node) : Option Draft :=
  (d.current.set path key n).map fun t => { d with current := t }

end Draft

end Toml

end RpcPool

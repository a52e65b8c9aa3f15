import RpcPool.Files.Path

/-!
# File trees

The files and directories below one root, which is also the working directory. Each is kept under its
location, the names on the way to it from the root; the root itself is always there. A directory can be
entered only if it exists, so a path leads to a location only if all directories on the way do.
-/

namespace RpcPool

/-- The content of a file, as the pieces that were written, the latest first. -/
structure Content where
  pieces : List ByteArray

namespace Content

def empty : Content := ⟨[]⟩

def ofBytes (bytes : ByteArray) : Content := ⟨[bytes]⟩

def ofText (text : String) : Content := ofBytes text.toUTF8

def append (c : Content) (bytes : ByteArray) : Content := ⟨bytes :: c.pieces⟩

def size (c : Content) : Nat := c.pieces.foldr (fun piece n => piece.size + n) 0

def bytes (c : Content) : ByteArray := c.pieces.foldr (fun piece all => all ++ piece) ByteArray.empty

/-- The content as text, if it is valid UTF-8. -/
def text? (c : Content) : Option String := String.fromUTF8? c.bytes

end Content

inductive Entry
  | directory (modified : Nat)
  | file (content : Content) (modified : Nat)

namespace Entry

def isDirectory : Entry → Bool
  | directory _ => true
  | file .. => false

def modified : Entry → Nat
  | directory m => m
  | file _ m => m

end Entry

/-- Where a file is: the names from the root. -/
abbrev Location := List String

structure FileTree where
  entries : List (Location × Entry)
  /-- Files whose lock somebody else holds. -/
  locked : List Location
  /-- The time of the next change. -/
  now : Nat

/-- Why a file operation fails. -/
inductive FileError
  | notFound
  | alreadyExists
  | notDirectory
  | isDirectory
  | nameTooLong
  | nulByte
  | notText
  deriving DecidableEq, Repr

/-- The wording of a failure. -/
def FileError.message : FileError → String
  | .notFound => "No such file or directory (os error 2)"
  | .alreadyExists => "File exists (os error 17)"
  | .notDirectory => "Not a directory (os error 20)"
  | .isDirectory => "Is a directory (os error 21)"
  | .nameTooLong => "File name too long (os error 36)"
  | .nulByte => "file name contained an unexpected NUL byte"
  | .notText => "stream did not contain valid UTF-8"

namespace FileTree

def empty (now : Nat) : FileTree := ⟨[], [], now⟩

/-! ## Locations -/

/-- What is at a location. -/
def get? (t : FileTree) (l : Location) : Option Entry :=
  if l.isEmpty then some (.directory 0) else t.entries.lookup l

/-- Puts an entry at a location, in place of what is there. -/
def set (t : FileTree) (l : Location) (e : Entry) : FileTree :=
  { t with entries := (l, e) :: t.entries.filter fun x => x.1 != l, now := t.now + 1 }

/-- Takes an entry away. -/
def erase (t : FileTree) (l : Location) : FileTree :=
  { t with entries := t.entries.filter fun x => x.1 != l }

/-- Takes an entry away with everything below it. -/
def eraseAll (t : FileTree) (l : Location) : FileTree :=
  { t with entries := t.entries.filter fun x => !l.isPrefixOf x.1 }

/-- The entries of a directory with their names. -/
def children (t : FileTree) (l : Location) : List (String × Entry) :=
  t.entries.filterMap fun (k, e) =>
    match k.getLast? with
    | some name => if k.dropLast = l then some (name, e) else none
    | none => none

/-- Everything in the tree, a directory with a slash at its end, in the order of the names. -/
def listing (t : FileTree) : List String :=
  (t.entries.map fun (k, e) =>
    String.intercalate "/" k ++ (if e.isDirectory then "/" else "")).mergeSort

/-! ## Paths -/

/-- The most bytes that a name may have. -/
def nameLimit : Nat := 255

/-- Follows the names of a path from a directory. Only the last name need not exist. -/
def walk (t : FileTree) (here : Location) : List String → Except FileError Location
  | [] => .ok here
  | ".." :: rest => t.walk here.dropLast rest
  | name :: rest =>
    if nameLimit < name.utf8ByteSize then .error .nameTooLong
    else
      let next := here ++ [name]
      if rest.isEmpty then .ok next
      else
        match t.get? next with
        | none => .error .notFound
        | some (.file ..) => .error .notDirectory
        | some (.directory _) => t.walk next rest

/-- The location that a path leads to. A path without text leads nowhere. -/
def locate (t : FileTree) (p : Path) : Except FileError Location :=
  if p.text.toList.isEmpty then .error .notFound
  else if p.text.toList.contains (Char.ofNat 0) then .error .nulByte
  else t.walk [] p.parts

/-- What a path leads to. A path with a slash at its end leads to directories only. -/
def find (t : FileTree) (p : Path) : Except FileError (Location × Entry) :=
  match t.locate p with
  | .error e => .error e
  | .ok l =>
    match t.get? l with
    | none => .error .notFound
    | some (.file c m) => if p.slash then .error .notDirectory else .ok (l, .file c m)
    | some (.directory m) => .ok (l, .directory m)

def exists? (t : FileTree) (p : Path) : Bool := (t.find p).toBool

def isDirectory (t : FileTree) (p : Path) : Bool :=
  match t.find p with
  | .ok (_, e) => e.isDirectory
  | .error _ => false

end FileTree

end RpcPool

import RpcPool.Text.Pieces

/-!
# Paths

A path is read from its text: names between slashes, `..` among them, with a root at its start. What
another program is told about a path is its text, so that is kept.
-/

namespace RpcPool

structure Path where
  text : String
  /-- The names on the way from the root, `..` among them, without empty names and `.`. -/
  parts : List String
  /-- Whether the text ends in a way that only fits a directory. -/
  slash : Bool
  deriving DecidableEq, Repr

namespace Path

def isSilent (piece : List Char) : Bool := piece == [] || piece == ['.']

def ofText (text : String) : Path :=
  let pieces := Text.pieces (· == '/') text.toList
  { text := text
    parts := (pieces.filter fun p => !isSilent p).map String.ofList
    slash := (pieces.getLast?).any isSilent }

/-- The path of names from the root. -/
def ofParts (parts : List String) : Path :=
  ⟨"/" ++ String.intercalate "/" parts, parts, parts.isEmpty⟩

/-- The path of a name in a directory. If the directory has no text, that is the name alone. -/
def join (p : Path) (name : String) : Path :=
  ofText ((if p.text.toList.getLast?.any (· != '/') then p.text ++ "/" else p.text) ++ name)

/-! ## The directory of a path -/

/-- The path without any text, which leads nowhere. -/
def nowhere : Path := ofText ""

/-- Whether a text says where its names begin: at the root, or in the working directory. -/
def isAnchored (text : String) : Bool :=
  ['/'].isPrefixOf text.toList || ['.', '/'].isPrefixOf text.toList

/-- Whether a path is a name alone, which says nothing of the directory that it is in. -/
def isBare (p : Path) : Bool := p.parts.length == 1 && !isAnchored p.text

/-- The directory of a path. For a name alone it is not the working directory but the path without
text, as for the working directory itself. The root and the path without text have none. -/
def parent? (p : Path) : Option Path :=
  if p.parts.isEmpty then if p.text.toList.head? = some '.' then some nowhere else none
  else if p.isBare then some nowhere
  else some (ofParts p.parts.dropLast)

/-! ## File names -/

/-- The last name of a path, unless it leads upwards. -/
def fileName? (p : Path) : Option String :=
  match p.parts.getLast? with
  | some ".." => none
  | n => n

/-- A name without its extension. A dot at its start does not begin one. -/
def stemOf (name : List Char) : List Char :=
  match name.reverse.dropWhile (· != '.') with
  | _ :: c :: rest => (c :: rest).reverse
  | _ => name

/-- The last name of a path without its extension. -/
def stem? (p : Path) : Option String := p.fileName?.map fun n => String.ofList (stemOf n.toList)

/-- The path with another extension. A path without a file name stays as it is. -/
def withExtension (p : Path) (extension : String) : Path :=
  match p.stem? with
  | none => p
  | some stem => ofParts (p.parts.dropLast ++ [stem ++ "." ++ extension])

end Path

end RpcPool

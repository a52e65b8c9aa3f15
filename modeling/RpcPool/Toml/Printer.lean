import RpcPool.Data
import RpcPool.Text.Numeral

/-!
# Printing TOML

The written form of a document: plain values first, then a section for every table and for every element
of a list of tables. A text is written in the plainest of the four kinds of strings that can hold it
without escapes, and with escapes if none can.
-/

namespace RpcPool

namespace Toml

/-! ## Strings -/

/-- What of a text decides how it is written. -/
structure Traits where
  /-- The longest run of single quotes. -/
  singles : Nat
  /-- The longest run of double quotes. -/
  doubles : Nat
  /-- Whether there are characters that can only be escaped. -/
  controls : Bool
  backslash : Bool
  newline : Bool
  deriving DecidableEq, Repr

/-- The longest run of a character. -/
def longestRun (c : Char) (cs : List Char) : Nat := go cs 0 0
where
  go : List Char → Nat → Nat → Nat
    | [], _, best => best
    | x :: rest, run, best => if x = c then go rest (run + 1) (max best (run + 1)) else go rest 0 best

def isControl (c : Char) : Bool := (c.toNat < 32 && c != '\t' && c != '\n') || c == '\x7f'

def Traits.of (cs : List Char) : Traits where
  singles := longestRun '\'' cs
  doubles := longestRun '"' cs
  controls := cs.any isControl
  backslash := cs.contains '\\'
  newline := cs.contains '\n'

/-- The four kinds of strings. -/
inductive Style
  | basic
  | literal
  | multilineBasic
  | multilineLiteral
  deriving DecidableEq, Repr

/-- The style in which a text is written. -/
def Traits.style (t : Traits) : Style :=
  if !t.controls && !t.backslash && t.doubles = 0 && !t.newline then .basic
  else if !t.controls && t.singles = 0 && !t.newline then .literal
  else if !t.controls && !t.backslash && t.doubles ≤ 2 then .multilineBasic
  else if !t.controls && t.singles ≤ 2 then .multilineLiteral
  else if t.newline then .multilineBasic
  else .basic

/-- The escape of a character by its number. -/
def numberEscape (c : Char) : List Char :=
  '\\' :: 'u' :: [c.toNat / 4096 % 16, c.toNat / 256 % 16, c.toNat / 16 % 16, c.toNat % 16].map Text.upperHex

/-- Writes text with escapes. So many double quotes in a row may stand as they are; `run` of them have
just been written. -/
def escaped (multiline : Bool) (run : Nat) : List Char → List Char
  | [] => []
  | c :: rest =>
    if c = '"' then
      if run < (if multiline then 2 else 0) then '"' :: escaped multiline (run + 1) rest
      else '\\' :: '"' :: escaped multiline 0 rest
    else if c = '\x08' then '\\' :: 'b' :: escaped multiline 0 rest
    else if c = '\t' then '\\' :: 't' :: escaped multiline 0 rest
    else if c = '\n' then
      if multiline then '\n' :: escaped multiline 0 rest else '\\' :: 'n' :: escaped multiline 0 rest
    else if c = '\x0c' then '\\' :: 'f' :: escaped multiline 0 rest
    else if c = '\r' then '\\' :: 'r' :: escaped multiline 0 rest
    else if c = '\\' then '\\' :: '\\' :: escaped multiline 0 rest
    else if isControl c then numberEscape c ++ escaped multiline 0 rest
    else c :: escaped multiline 0 rest

/-- Writes a text in a style. A text of several lines starts on a line of its own. -/
def writeString (style : Style) (cs : List Char) : List Char :=
  let lead := if cs.contains '\n' then ['\n'] else []
  match style with
  | .basic => '"' :: escaped false 0 cs ++ ['"']
  | .literal => '\'' :: cs ++ ['\'']
  | .multilineBasic => ['"', '"', '"'] ++ lead ++ escaped true 0 cs ++ ['"', '"', '"']
  | .multilineLiteral => ['\'', '\'', '\''] ++ lead ++ cs ++ ['\'', '\'', '\'']

def string (s : String) : List Char := writeString (Traits.of s.toList).style s.toList

/-- Whether a key can do without quotes. -/
def isBareKey (cs : List Char) : Bool :=
  !cs.isEmpty && cs.all fun c => c.isAlphanum || c == '-' || c == '_'

/-- Writes a key, on one line. -/
def key (s : String) : List Char :=
  let cs := s.toList
  let t := Traits.of cs
  if isBareKey cs then cs
  else if !t.controls && !t.newline && t.singles = 0 && (t.backslash || 0 < t.doubles) then
    writeString .literal cs
  else writeString .basic cs

/-! ## Values -/

mutual

/-- Writes a value on the right of a key. Lists of more than one element have a line for each. -/
def value : Data → List Char
  | .null => []
  | .bool b => (toString b).toList
  | .integer n => (toString n).toList
  | .float s => s.toList
  | .text s => string s
  | .list elements =>
    if 2 ≤ elements.length then '[' :: '\n' :: elementLines elements ++ [']']
    else '[' :: elementsInline elements ++ [']']
  | .table entries => '\x7b' :: ' ' :: entriesInline entries ++ [' ', '\x7d']
  | .outOfRange => []

def elementLines : List Data → List Char
  | [] => []
  | d :: rest => ' ' :: ' ' :: ' ' :: ' ' :: value d ++ ',' :: '\n' :: elementLines rest

def elementsInline : List Data → List Char
  | [] => []
  | d :: rest => value d ++ elementsInline rest

def entriesInline : List (String × Data) → List Char
  | [] => []
  | (k, d) :: rest => key k ++ " = ".toList ++ value d ++ ',' :: ' ' :: entriesInline rest

end

/-- Whether data are a table. -/
def isTable : Data → Bool
  | .table _ => true
  | _ => false

/-- Whether data get sections of their own. -/
def isSection : Data → Bool
  | .table _ => true
  | .list (d :: rest) => (d :: rest).all isTable
  | _ => false

/-- The lines of the plain values of a table. -/
def plainLines (entries : List (String × Data)) : List Char :=
  (entries.filter fun e => !isSection e.2).flatMap fun e =>
    key e.1 ++ " = ".toList ++ value e.2 ++ ['\n']

/-- A path in a header. -/
def pathText (path : List String) : List Char := List.intercalate ['.'] (path.map key)

mutual

/-- The sections of a table that are below it. `fuel` bounds the depth of the document. -/
def sections (fuel : Nat) (path : List String) : List (String × Data) → List Char
  | [] => []
  | (k, .table entries) :: rest =>
    tableSection fuel "[".toList "]".toList (path ++ [k]) entries ++ sections fuel path rest
  | (k, .list elements) :: rest =>
    (if isSection (.list elements) then elementSections fuel (path ++ [k]) elements else [])
      ++ sections fuel path rest
  | _ :: rest => sections fuel path rest

/-- The sections of the elements of a list of tables. -/
def elementSections (fuel : Nat) (path : List String) : List Data → List Char
  | [] => []
  | .table entries :: rest =>
    tableSection fuel "[[".toList "]]".toList path entries ++ elementSections fuel path rest
  | _ :: rest => elementSections fuel path rest

/-- The section of a table, with those below it. -/
def tableSection (fuel : Nat) (opening closing : List Char) (path : List String)
    (entries : List (String × Data)) : List Char :=
  match fuel with
  | 0 => []
  | fuel + 1 =>
    '\n' :: opening ++ pathText path ++ closing ++ '\n' :: plainLines entries
      ++ sections fuel path entries

end

/-- How deeply the sections of a document may be nested. -/
def sectionDepth : Nat := 64

/-- A document has no blank line at its start. -/
def dropLeadingNewline : List Char → List Char
  | '\n' :: rest => rest
  | cs => cs

/-- Writes a document. -/
def print : Data → String
  | .table entries =>
    String.ofList (dropLeadingNewline (plainLines entries ++ sections sectionDepth [] entries))
  | _ => ""

end Toml

end RpcPool

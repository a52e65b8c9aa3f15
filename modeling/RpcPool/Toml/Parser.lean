import RpcPool.Toml.Scalar
import RpcPool.Toml.Table
import RpcPool.Toml.Text

/-!
# Parsing TOML

A document is a list of lines: blank ones, key and value, or a header. A document that is not well formed
has no value; nothing is said about where it goes wrong.
-/

namespace RpcPool

namespace Toml

/-! ## Blanks -/

def isSpace (c : Char) : Bool := c == ' ' || c == '\t'

def skipSpaces (cs : List Char) : List Char := cs.dropWhile isSpace

/-- Skips a comment, if there is one, up to the end of its line. -/
def skipComment : List Char → List Char
  | '#' :: rest => rest.dropWhile isPlain
  | cs => cs

/-- The end of a line or of the document, after spaces and a comment. -/
def endLine? (cs : List Char) : Option (List Char) :=
  match skipComment (skipSpaces cs) with
  | [] => some []
  | '\n' :: rest => some rest
  | '\r' :: '\n' :: rest => some rest
  | _ => none

/-- Skips spaces, comments and line ends inside brackets. -/
def skipBlank (fuel : Nat) (cs : List Char) : List Char :=
  match fuel with
  | 0 => cs
  | fuel + 1 =>
    match skipComment (skipSpaces cs) with
    | '\n' :: rest => skipBlank fuel rest
    | '\r' :: '\n' :: rest => skipBlank fuel rest
    | rest => rest

/-- Skips all that means nothing inside brackets. -/
def skip (cs : List Char) : List Char := skipBlank (cs.length + 1) cs

/-! ## Keys -/

def isKeyChar (c : Char) : Bool := c.isAlphanum || c == '-' || c == '_'

/-- Reads one part of a key. -/
def keyPart? (cs : List Char) : Option (String × List Char) :=
  match cs with
  | '"' :: rest => (basic? (rest.length + 1) rest []).map fun r => (String.ofList r.1, r.2)
  | '\'' :: rest => (literal? rest).map fun r => (String.ofList r.1, r.2)
  | cs =>
    let part := cs.takeWhile isKeyChar
    if part.isEmpty then none else some (String.ofList part, cs.dropWhile isKeyChar)

/-- Reads a key: the parts before its last one, the last one, and the text after the spaces behind it. -/
def key? (fuel : Nat) (cs : List Char) : Option ((List String × String) × List Char) :=
  match fuel with
  | 0 => none
  | fuel + 1 =>
    match keyPart? (skipSpaces cs) with
    | none => none
    | some (part, rest) =>
      match skipSpaces rest with
      | '.' :: rest => (key? fuel rest).map fun r => ((part :: r.1.1, r.1.2), r.2)
      | rest => some (([], part), rest)

/-! ## Values -/

/-- What ends an unquoted word. -/
def isWordEnd (c : Char) : Bool :=
  isSpace c || c == '\n' || c == '\r' || c == ',' || c == ']' || c == '\x7d' || c == '#'

/-- Splits an unquoted word off. A date may be followed by a time after one space. -/
def splitWord (cs : List Char) : List Char × List Char :=
  let word := cs.takeWhile fun c => !isWordEnd c
  match cs.dropWhile fun c => !isWordEnd c with
  | ' ' :: rest =>
    let time := rest.takeWhile fun c => !isWordEnd c
    if (date? word).any (fun r => r.2.isEmpty) && (fixedDigits? 2 time).isSome then
      (word ++ ' ' :: time, rest.dropWhile fun c => !isWordEnd c)
    else (word, ' ' :: rest)
  | rest => (word, rest)

/-- How many brackets and braces may enclose a value. -/
def depthLimit : Nat := 80

mutual

/-- Reads a value. -/
def value? (fuel depth : Nat) (cs : List Char) : Option (Node × List Char) :=
  match fuel with
  | 0 => none
  | fuel + 1 =>
    match cs with
    | '"' :: _ => (string? cs).map fun r => (.scalar (.text (String.ofList r.1)), r.2)
    | '\'' :: _ => (string? cs).map fun r => (.scalar (.text (String.ofList r.1)), r.2)
    | '[' :: rest =>
      match depth with
      | 0 => none
      | depth + 1 => elements? fuel depth (skip rest) []
    | '\x7b' :: rest =>
      match depth with
      | 0 => none
      | depth + 1 => entries? fuel depth (skip rest) (.empty .inline)
    | cs =>
      let (word, rest) := splitWord cs
      (scalar? word).map fun d => (.scalar d, rest)

/-- Reads the elements of an array that are still to come. -/
def elements? (fuel depth : Nat) (cs : List Char) (seen : List Node) : Option (Node × List Char) :=
  match fuel with
  | 0 => none
  | fuel + 1 =>
    match cs with
    | ']' :: rest => some (.array seen.reverse, rest)
    | cs =>
      match value? fuel depth cs with
      | none => none
      | some (n, rest) =>
        match skip rest with
        | ',' :: rest => elements? fuel depth (skip rest) (n :: seen)
        | ']' :: rest => some (.array (n :: seen).reverse, rest)
        | _ => none

/-- Reads the entries of a table in braces that are still to come. -/
def entries? (fuel depth : Nat) (cs : List Char) (t : Table) : Option (Node × List Char) :=
  match fuel with
  | 0 => none
  | fuel + 1 =>
    match cs with
    | '\x7d' :: rest => some (t.node, rest)
    | cs =>
      match key? (cs.length + 1) cs with
      | some ((path, key), '=' :: rest) =>
        match value? fuel depth (skipSpaces rest) with
        | none => none
        | some (n, rest) =>
          match t.set path key n with
          | none => none
          | some t =>
            match skip rest with
            | ',' :: rest => entries? fuel depth (skip rest) t
            | '\x7d' :: rest => some (t.node, rest)
            | _ => none
      | _ => none

end

/-! ## Lines -/

/-- Reads a header after its first bracket. -/
def header? (cs : List Char) : Option (Header × List Char) :=
  match cs with
  | '[' :: rest =>
    match key? (rest.length + 1) rest with
    | some ((path, key), ']' :: ']' :: rest) => some (⟨path, key, true⟩, rest)
    | _ => none
  | cs =>
    match key? (cs.length + 1) cs with
    | some ((path, key), ']' :: rest) => some (⟨path, key, false⟩, rest)
    | _ => none

/-- Reads the line of a key and its value. -/
def line? (cs : List Char) (d : Draft) : Option (Draft × List Char) :=
  match key? (cs.length + 1) cs with
  | some ((path, key), '=' :: rest) =>
    match value? (2 * rest.length + 2) depthLimit (skipSpaces rest) with
    | none => none
    | some (n, rest) => (d.set path key n).map fun d => (d, rest)
  | _ => none

/-- Reads the lines that are still to come. -/
def lines? (fuel : Nat) (cs : List Char) (d : Draft) : Option Draft :=
  match fuel with
  | 0 => none
  | fuel + 1 =>
    match skipSpaces cs with
    | [] => some d
    | '[' :: rest =>
      match header? rest with
      | none => none
      | some (h, rest) =>
        match d.start h, endLine? rest with
        | some d, some rest => lines? fuel rest d
        | _, _ => none
    | c :: rest =>
      if c == '#' || c == '\n' || c == '\r' then
        match endLine? (c :: rest) with
        | none => none
        | some rest => lines? fuel rest d
      else
        match line? (c :: rest) d with
        | none => none
        | some (d, rest) =>
          match endLine? rest with
          | none => none
          | some rest => lines? fuel rest d

/-- Takes a byte order mark off the front of a text. -/
def skipMark : List Char → List Char
  | '\ufeff' :: rest => rest
  | cs => cs

/-- What a document says, in the order of the document. -/
def parse? (s : String) : Option Data :=
  let cs := skipMark s.toList
  match lines? (cs.length + 1) cs .empty with
  | none => none
  | some d => d.finish.map fun t => t.node.toData

/-- TOML writes a choice as its name, or as a table with the name and an empty table or array. -/
def dialect : Data.Dialect where
  variant
    | .text s => .ok (s, none)
    | .table [(name, value)] => .ok (name, some value)
    | _ => .error .malformed
  nothing
    | .table [] => .ok ()
    | .list [] => .ok ()
    | _ => .error .malformed
  strictLength := false

end Toml

end RpcPool

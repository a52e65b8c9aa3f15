/-!
# Reading JSON text

JSON is read from bytes, from left to right and with one byte of lookahead. A cursor knows the line and
the column it has come to, for error messages: the column is the number of bytes read on the line.
-/

namespace RpcPool

namespace Json

/-- Why a text is not JSON. -/
inductive Fault
  | eofInValue
  | eofInList
  | eofInObject
  | eofInString
  | expectedColon
  | expectedListEnd
  | expectedObjectEnd
  | expectedIdent
  | expectedValue
  | invalidEscape
  | invalidNumber
  | numberOutOfRange
  | invalidCodePoint
  | controlCharacter
  | keyNotString
  | loneSurrogate
  | endOfHexEscape
  | trailingComma
  | trailingCharacters
  | recursionLimit
  deriving DecidableEq, Repr

/-- The wording of a fault. -/
def Fault.message : Fault → String
  | .eofInValue => "EOF while parsing a value"
  | .eofInList => "EOF while parsing a list"
  | .eofInObject => "EOF while parsing an object"
  | .eofInString => "EOF while parsing a string"
  | .expectedColon => "expected `:`"
  | .expectedListEnd => "expected `,` or `]`"
  | .expectedObjectEnd => "expected `,` or `\x7d`"
  | .expectedIdent => "expected ident"
  | .expectedValue => "expected value"
  | .invalidEscape => "invalid escape"
  | .invalidNumber => "invalid number"
  | .numberOutOfRange => "number out of range"
  | .invalidCodePoint => "invalid unicode code point"
  | .controlCharacter => "control character (\\u0000-\\u001F) found while parsing a string"
  | .keyNotString => "key must be a string"
  | .loneSurrogate => "lone leading surrogate in hex escape"
  | .endOfHexEscape => "unexpected end of hex escape"
  | .trailingComma => "trailing comma"
  | .trailingCharacters => "trailing characters"
  | .recursionLimit => "recursion limit exceeded"

/-- A place in a text. -/
structure Position where
  line : Nat
  column : Nat
  deriving DecidableEq, Repr

/-- What is left of a text, and the place it starts at. -/
structure Cursor where
  rest : List UInt8
  position : Position
  deriving DecidableEq, Repr

/-- A fault at a place. -/
structure ParseError where
  fault : Fault
  position : Position
  deriving DecidableEq, Repr

/-- The wording of a place. -/
def Position.message (p : Position) : String :=
  " at line " ++ toString p.line ++ " column " ++ toString p.column

def ParseError.message (e : ParseError) : String := e.fault.message ++ e.position.message

/-- A step of reading: what was read and where reading goes on, or a fault. -/
abbrev Reading (α : Type) := Except ParseError (α × Cursor)

namespace Cursor

/-- The start of a text. -/
def start (bytes : List UInt8) : Cursor := ⟨bytes, ⟨1, 0⟩⟩

/-- The place after a byte. -/
def advance (p : Position) (b : UInt8) : Position :=
  if b = 10 then ⟨p.line + 1, 0⟩ else ⟨p.line, p.column + 1⟩

/-- The next byte and what follows it. -/
def next? (c : Cursor) : Option (UInt8 × Cursor) :=
  match c.rest with
  | [] => none
  | b :: rest => some (b, ⟨rest, advance c.position b⟩)

def peek? (c : Cursor) : Option UInt8 := c.rest.head?

/-- The cursor after the next byte, if there is one. -/
def skip (c : Cursor) : Cursor :=
  match c.rest with
  | [] => c
  | b :: rest => ⟨rest, advance c.position b⟩

/-- The cursor after so many bytes. -/
def skipMany (c : Cursor) : Nat → Cursor
  | 0 => c
  | n + 1 => c.skip.skipMany n

/-- A fault that was noticed after the last byte read. -/
def fail {α : Type} (c : Cursor) (f : Fault) : Except ParseError α := .error ⟨f, c.position⟩

/-- A fault that lies in the next byte. -/
def failNext {α : Type} (c : Cursor) (f : Fault) : Except ParseError α := .error ⟨f, c.skip.position⟩

/-- Whether a byte is a blank between tokens: a space, a tab or the end of a line. -/
def isBlank (b : UInt8) : Bool := b = 32 || b = 10 || b = 9 || b = 13

/-- The cursor after blanks. -/
def skipBlanks (c : Cursor) : Cursor := go c.rest c.position
where
  go : List UInt8 → Position → Cursor
    | [], p => ⟨[], p⟩
    | b :: rest, p => if isBlank b then go rest (advance p b) else ⟨b :: rest, p⟩

end Cursor

end Json

end RpcPool

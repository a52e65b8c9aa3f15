import RpcPool.Decimal.Binary64

/-!
# JSON values

Values as they are read from and written to JSON text. Whole numbers are exact as long as they fit 64
bits; every other number is a double. The members of an object are kept in the order of the text, and the
last one of a name counts.
-/

namespace RpcPool

inductive Json
  | null
  | bool (b : Bool)
  | natural (n : UInt64)
  /-- The number `-(n + 1)`. -/
  | negative (n : Nat)
  | float (x : Binary64)
  | string (s : String)
  | array (elements : List Json)
  | object (members : List (String × Json))
  deriving Repr, Inhabited

namespace Json

/-- The value of the last member of a name. -/
def get? (name : String) : Json → Option Json
  | .object members => members.reverse.lookup name
  | _ => none

/-! ## Printing -/

/-- A digit of base sixteen, in lower case. -/
def hexDigit (n : Nat) : Char := Nat.digitChar n

/-- A character as it is written inside a string. -/
def escapeChar (c : Char) : List Char :=
  if c = '"' then ['\\', '"']
  else if c = '\\' then ['\\', '\\']
  else if c = '\x08' then ['\\', 'b']
  else if c = '\x0c' then ['\\', 'f']
  else if c = '\n' then ['\\', 'n']
  else if c = '\r' then ['\\', 'r']
  else if c = '\t' then ['\\', 't']
  else if c.toNat < 32 then ['\\', 'u', '0', '0', hexDigit (c.toNat / 16), hexDigit (c.toNat % 16)]
  else [c]

/-- A string in quotes. -/
def quote (s : String) : List Char := '"' :: s.toList.flatMap escapeChar ++ ['"']

/-- A decimal numeral. -/
def numeral (n : Nat) : List Char := Nat.toDigits 10 n

mutual

/-- The text of a value without any blanks. -/
def print : Json → List Char
  | .null => "null".toList
  | .bool true => "true".toList
  | .bool false => "false".toList
  | .natural n => numeral n.toNat
  | .negative n => '-' :: numeral (n + 1)
  | .float x => x.compactText.toList
  | .string s => quote s
  | .array elements => '[' :: printElements elements ++ [']']
  | .object members => '\x7b' :: printMembers members ++ ['\x7d']

def printElements : List Json → List Char
  | [] => []
  | [v] => print v
  | v :: rest => print v ++ ',' :: printElements rest

def printMembers : List (String × Json) → List Char
  | [] => []
  | [(name, v)] => quote name ++ ':' :: print v
  | (name, v) :: rest => quote name ++ ':' :: (print v ++ ',' :: printMembers rest)

end

/-- The text of a value without any blanks. -/
def render (v : Json) : String := String.ofList v.print

end Json

end RpcPool

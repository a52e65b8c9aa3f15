import RpcPool.Json.Scalar

/-!
# Parsing JSON

A text is one value with blanks around it. Arrays and objects may be nested up to a depth. The parser
stops at the first fault, in reading order.
-/

namespace RpcPool

namespace Json

/-- How many arrays and objects may enclose a value. -/
def depthLimit : Nat := 127

/-- Goes to the next element of a list, or to the bracket at its end. The first element has no comma
before it. -/
def nextElement (c : Cursor) (first : Bool) : Except ParseError (Bool × Cursor) :=
  let c := c.skipBlanks
  match c.peek? with
  | none => c.failNext .eofInList
  | some 93 => .ok (false, c)
  | some b =>
    if first then .ok (true, c)
    else if b = 44 then
      let c := c.skip.skipBlanks
      match c.peek? with
      | none => c.failNext .eofInValue
      | some 93 => c.failNext .trailingComma
      | some _ => .ok (true, c)
    else c.failNext .expectedListEnd

/-- Goes to the opening quote of the next member of an object, or to the brace at its end. -/
def nextMember (c : Cursor) (first : Bool) : Except ParseError (Bool × Cursor) :=
  let c := c.skipBlanks
  match c.peek? with
  | none => c.failNext .eofInObject
  | some 125 => .ok (false, c)
  | some b =>
    if first then
      if b = 34 then .ok (true, c) else c.failNext .keyNotString
    else if b = 44 then
      let c := c.skip.skipBlanks
      match c.peek? with
      | none => c.failNext .eofInValue
      | some 34 => .ok (true, c)
      | some 125 => c.failNext .trailingComma
      | some _ => c.failNext .keyNotString
    else c.failNext .expectedObjectEnd

/-- Reads the colon between a name and its value. -/
def readColon (c : Cursor) : Except ParseError Cursor :=
  let c := c.skipBlanks
  match c.peek? with
  | none => c.failNext .eofInObject
  | some 58 => .ok c.skip
  | some _ => c.failNext .expectedColon

mutual

/-- Reads a value, with blanks before it. -/
def readValue (fuel depth : Nat) (c : Cursor) : Reading Json :=
  match fuel with
  | 0 => c.fail .eofInValue
  | fuel + 1 =>
    let c := c.skipBlanks
    match c.peek? with
    | none => c.failNext .eofInValue
    | some b =>
      if b = 110 then (word c.skip "ull".toList).map fun r => (.null, r.2)
      else if b = 116 then (word c.skip "rue".toList).map fun r => (.bool true, r.2)
      else if b = 102 then (word c.skip "alse".toList).map fun r => (.bool false, r.2)
      else if b = 45 then readNumber c.skip true
      else if (digit? b).isSome then readNumber c false
      else if b = 34 then (readString c.skip).map fun r => (.string r.1, r.2)
      else if b = 91 || b = 123 then
        match depth with
        | 0 => c.failNext .recursionLimit
        | depth + 1 =>
          if b = 91 then readElements fuel depth c.skip []
          else readMembers fuel depth c.skip []
      else c.failNext .expectedValue

/-- Reads the elements of an array that are still to come. -/
def readElements (fuel depth : Nat) (c : Cursor) (seen : List Json) : Reading Json :=
  match fuel with
  | 0 => c.fail .eofInList
  | fuel + 1 =>
    match nextElement c seen.isEmpty with
    | .error e => .error e
    | .ok (false, c) => .ok (.array seen.reverse, c.skip)
    | .ok (true, c) =>
      match readValue fuel depth c with
      | .error e => .error e
      | .ok (v, c) => readElements fuel depth c (v :: seen)

/-- Reads the members of an object that are still to come. -/
def readMembers (fuel depth : Nat) (c : Cursor) (seen : List (String × Json)) : Reading Json :=
  match fuel with
  | 0 => c.fail .eofInObject
  | fuel + 1 =>
    match nextMember c seen.isEmpty with
    | .error e => .error e
    | .ok (false, c) => .ok (.object seen.reverse, c.skip)
    | .ok (true, c) =>
      match readString c.skip with
      | .error e => .error e
      | .ok (name, c) =>
        match readColon c with
        | .error e => .error e
        | .ok c =>
          match readValue fuel depth c with
          | .error e => .error e
          | .ok (v, c) => readMembers fuel depth c ((name, v) :: seen)

end

/-- Makes sure that only blanks are left. -/
def finish (c : Cursor) : Except ParseError Unit :=
  let c := c.skipBlanks
  if c.rest.isEmpty then .ok () else c.failNext .trailingCharacters

/-- Parses a text. -/
def parse (bytes : List UInt8) : Except ParseError Json :=
  match readValue (2 * bytes.length + 2) depthLimit (Cursor.start bytes) with
  | .error e => .error e
  | .ok (v, c) => (finish c).map fun _ => v

end Json

end RpcPool

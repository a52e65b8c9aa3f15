import RpcPool.Json.Data
import RpcPool.Json.Parser

/-!
# Reading values of a known type

Values of a known type are read straight from the text, so that the first thing wrong with it is what is
reported, be it the syntax or a value of another type. A value of another type is reported at its end if
it is a scalar, and in front of its bracket if it is not.
-/

namespace RpcPool

namespace Json

open Data (Mismatch)

/-- What is wrong with a text. -/
inductive Problem
  | fault (f : Fault)
  | mismatch (m : Mismatch)
  deriving DecidableEq, Repr

structure TypedError where
  problem : Problem
  position : Position
  deriving DecidableEq, Repr

def TypedError.message (e : TypedError) : String :=
  (match e.problem with
    | .fault f => f.message
    | .mismatch m => m.message) ++ e.position.message

/-- A step of reading a value of a known type. -/
abbrev Typed (α : Type) := Cursor → Except TypedError (α × Cursor)

/-- Takes over a fault of the syntax. -/
def lift {α : Type} (r : Except ParseError α) : Except TypedError α :=
  r.mapError fun e => ⟨.fault e.fault, e.position⟩

/-- Reports a mismatch at a cursor. -/
def mismatch {α : Type} (m : Mismatch) (c : Cursor) : Except TypedError α :=
  .error ⟨.mismatch m, c.position⟩

/-! ## Values of another type -/

/-- Reports a value that is not of the expected type. The cursor stands at its first byte. -/
def wrongValue {α : Type} (expected : String) (c : Cursor) : Except TypedError α :=
  match c.peek? with
  | some 91 => mismatch (.wrongType "sequence" expected) c
  | some 123 => mismatch (.wrongType "map" expected) c
  | _ =>
    match readValue 1 0 c with
    | .error e => lift (.error e)
    | .ok (v, c) => mismatch (.wrongType v.toData.shown expected) c

/-- The cursor at the first byte of a value, and that byte. -/
def valueStart (c : Cursor) : Except TypedError (UInt8 × Cursor) :=
  let c := c.skipBlanks
  match c.peek? with
  | none => lift (c.failNext .eofInValue)
  | some b => .ok (b, c)

/-! ## Scalars -/

def typedString : Typed String := fun c =>
  match valueStart c with
  | .error e => .error e
  | .ok (b, c) => if b = 34 then lift (readString c.skip) else wrongValue "a string" c

def typedBool : Typed Bool := fun c =>
  match valueStart c with
  | .error e => .error e
  | .ok (b, c) =>
    if b = 116 then lift ((word c.skip "rue".toList).map fun r => (true, r.2))
    else if b = 102 then lift ((word c.skip "alse".toList).map fun r => (false, r.2))
    else wrongValue "a boolean" c

/-- Reads a whole number below a bound. -/
def typedNatural (bound : Nat) (expected : String) : Typed Nat := fun c =>
  match valueStart c with
  | .error e => .error e
  | .ok (b, c) =>
    if b = 45 || (digit? b).isSome then
      match (if b = 45 then readNumber c.skip true else readNumber c false) with
      | .error e => lift (.error e)
      | .ok (v, c) =>
        match Data.natural bound expected v.toData with
        | .ok n => .ok (n, c)
        | .error m => mismatch m c
    else wrongValue expected c

def typedUInt32 : Typed UInt32 := fun c =>
  (typedNatural (Nat.pow 2 32) "u32" c).map fun r => (UInt32.ofNat r.1, r.2)

def typedUInt64 : Typed UInt64 := fun c =>
  (typedNatural (Nat.pow 2 64) "u64" c).map fun r => (UInt64.ofNat r.1, r.2)

/-- Reads a value that may be null. -/
def typedOption {α : Type} (read : Typed α) : Typed (Option α) := fun c =>
  let c := c.skipBlanks
  match c.peek? with
  | some 110 => lift ((word c.skip "ull".toList).map fun r => (none, r.2))
  | _ => (read c).map fun r => (some r.1, r.2)

/-- Reads the null that stands for a value without content. -/
def typedUnit : Typed Unit := fun c =>
  match valueStart c with
  | .error e => .error e
  | .ok (b, c) =>
    if b = 110 then lift (word c.skip "ull".toList) else wrongValue "unit" c

/-! ## Values nobody asked for -/

/-- Passes over a number after its sign. -/
def skipNumber (c : Cursor) : Except ParseError Cursor := do
  let c ← match c.next? with
    | none => c.fail .invalidNumber
    | some (b, c) =>
      match digit? b with
      | none => c.fail .invalidNumber
      | some 0 => if (digitNext? c).isSome then c.failNext .invalidNumber else .ok c
      | some _ => .ok (skipDigits c.rest.length c 0).2
  let c ← if c.peek? = some 46 then
      let (count, c) := skipDigits c.skip.rest.length c.skip 0
      if count = 0 then c.failNext .invalidNumber else .ok c
    else .ok c
  if c.peek? = some 101 || c.peek? = some 69 then
    let c := c.skip
    let c := if c.peek? = some 43 || c.peek? = some 45 then c.skip else c
    match c.next? with
    | none => c.fail .invalidNumber
    | some (b, c) =>
      if (digit? b).isSome then .ok (skipDigits c.rest.length c 0).2 else c.fail .invalidNumber
  else .ok c

/-- Passes over a string after its opening quote. Escapes have to be well formed one by one. -/
def skipString (fuel : Nat) (c : Cursor) : Except ParseError Cursor :=
  match fuel with
  | 0 => c.fail .eofInString
  | fuel + 1 =>
    match c.next? with
    | none => c.fail .eofInString
    | some (b, after) =>
      if b = 34 then .ok after
      else if b = 92 then
        match after.next? with
        | none => after.fail .eofInString
        | some (e, after) =>
          if e = 117 then
            match readHex after with
            | .error e => .error e
            | .ok (_, after) => skipString fuel after
          else if (escapeByte? e).isSome then skipString fuel after
          else after.fail .invalidEscape
      else if b < 32 then c.fail .controlCharacter
      else skipString fuel after

mutual

/-- Passes over a value. -/
def skipValue (fuel : Nat) (c : Cursor) : Except ParseError Cursor :=
  match fuel with
  | 0 => c.fail .eofInValue
  | fuel + 1 =>
    let c := c.skipBlanks
    match c.peek? with
    | none => c.failNext .eofInValue
    | some b =>
      if b = 110 then (word c.skip "ull".toList).map (·.2)
      else if b = 116 then (word c.skip "rue".toList).map (·.2)
      else if b = 102 then (word c.skip "alse".toList).map (·.2)
      else if b = 45 then skipNumber c.skip
      else if (digit? b).isSome then skipNumber c
      else if b = 34 then skipString (c.rest.length + 1) c.skip
      else if b = 91 then skipElements fuel c.skip true
      else if b = 123 then skipMembers fuel c.skip true
      else c.failNext .expectedValue

/-- Passes over the elements of an array that are still to come. -/
def skipElements (fuel : Nat) (c : Cursor) (first : Bool) : Except ParseError Cursor :=
  match fuel with
  | 0 => c.fail .eofInList
  | fuel + 1 =>
    let c := c.skipBlanks
    match c.peek? with
    | none => c.failNext .eofInList
    | some 93 => .ok c.skip
    | some b =>
      if first || b = 44 then
        match skipValue fuel (if first then c else c.skip) with
        | .error e => .error e
        | .ok c => skipElements fuel c false
      else c.failNext .expectedListEnd

/-- Passes over the members of an object that are still to come. -/
def skipMembers (fuel : Nat) (c : Cursor) (first : Bool) : Except ParseError Cursor :=
  match fuel with
  | 0 => c.fail .eofInObject
  | fuel + 1 =>
    let c := c.skipBlanks
    match c.peek? with
    | none => c.failNext .eofInObject
    | some 125 => .ok c.skip
    | some b =>
      if first || b = 44 then
        let c := if first then c else c.skip.skipBlanks
        match c.peek? with
        | none => c.failNext .eofInObject
        | some 34 =>
          match skipString (c.rest.length + 1) c.skip with
          | .error e => .error e
          | .ok c =>
            match readColon c with
            | .error e => .error e
            | .ok c =>
              match skipValue fuel c with
              | .error e => .error e
              | .ok c => skipMembers fuel c false
        | some _ => c.failNext .keyNotString
      else c.failNext .expectedObjectEnd

end

/-- Passes over a value that belongs to no field. -/
def typedSkip : Typed Unit := fun c =>
  lift ((skipValue (2 * c.rest.length + 2) c).map fun c => ((), c))

/-! ## Maps, records and choices -/

/-- The cursor after the bracket that ends a list. -/
def endList (c : Cursor) : Except ParseError Cursor :=
  let c := c.skipBlanks
  match c.peek? with
  | none => c.failNext .eofInList
  | some 93 => .ok c.skip
  | some 44 =>
    let c := c.skip.skipBlanks
    c.failNext (if c.peek? = some 93 then .trailingComma else .trailingCharacters)
  | some _ => c.failNext .trailingCharacters

/-- Where a mismatch of a whole list or object is reported: after its end, or where that should be. -/
def closing (close : UInt8) (c : Cursor) : Cursor :=
  let c := c.skipBlanks
  if c.peek? = some close then c.skip else c

/-- Reads the members of an object of strings that are still to come. -/
def stringMembers (fuel : Nat) (c : Cursor) (first : Bool) (seen : List (String × String)) :
    Except TypedError (List (String × String) × Cursor) :=
  match fuel with
  | 0 => lift (c.fail .eofInObject)
  | fuel + 1 =>
    match nextMember c first with
    | .error e => lift (.error e)
    | .ok (false, c) => .ok (seen.reverse, c.skip)
    | .ok (true, c) =>
      match readString c.skip with
      | .error e => lift (.error e)
      | .ok (name, c) =>
        match readColon c with
        | .error e => lift (.error e)
        | .ok c =>
          match typedString c with
          | .error e => .error e
          | .ok (s, c) => stringMembers fuel c false ((name, s) :: seen)

/-- Reads an object of strings. -/
def typedMap : Typed (List (String × String)) := fun c =>
  match valueStart c with
  | .error e => .error e
  | .ok (b, c) =>
    if b = 123 then stringMembers (c.rest.length + 1) c.skip true [] else wrongValue "a map" c

/-- How a record is read: its name, its fields in order, each with whether it may be missing in a list of
fields, how the value of a field is taken over, and what is made of the fields in the end. -/
structure RecordReader (σ α : Type) where
  name : String
  fields : List (String × Bool)
  set : String → σ → Typed σ
  finish : List String → σ → Except Mismatch α

/-- Reads the members of a record that are still to come. -/
def recordMembers {σ α : Type} (r : RecordReader σ α) (fuel : Nat) (c : Cursor) (seen : List String)
    (first : Bool) (acc : σ) : Except TypedError (α × Cursor) :=
  match fuel with
  | 0 => lift (c.fail .eofInObject)
  | fuel + 1 =>
    match nextMember c first with
    | .error e => lift (.error e)
    | .ok (false, c) =>
      match r.finish seen acc with
      | .error m => mismatch m (closing 125 c)
      | .ok a => .ok (a, c.skip)
    | .ok (true, c) =>
      match readString c.skip with
      | .error e => lift (.error e)
      | .ok (name, c) =>
        let isField := (r.fields.lookup name).isSome
        if isField && seen.contains name then mismatch (.duplicateField name) (closing 125 c)
        else
          match readColon c with
          | .error e => lift (.error e)
          | .ok c =>
            if isField then
              match r.set name acc c with
              | .error e => .error e
              | .ok (acc, c) => recordMembers r fuel c (name :: seen) false acc
            else
              match typedSkip c with
              | .error e => .error e
              | .ok (_, c) => recordMembers r fuel c seen false acc

/-- Reads the fields of a record that is written as a list. -/
def recordElements {σ α : Type} (r : RecordReader σ α) (c : Cursor) (index : Nat) (seen : List String)
    (acc : σ) : List (String × Bool) → Except TypedError (α × Cursor)
  | [] =>
    match r.finish seen acc with
    | .error m => mismatch m (closing 93 c)
    | .ok a => lift ((endList c).map fun c => (a, c))
  | (name, optional) :: rest =>
    match nextElement c (index == 0) with
    | .error e => lift (.error e)
    | .ok (false, c) =>
      if optional then recordElements r c (index + 1) (name :: seen) acc rest
      else
        let expected :=
          "struct " ++ r.name ++ " with " ++ toString r.fields.length ++ " elements"
        mismatch (.wrongLength index expected) (closing 93 c)
    | .ok (true, c) =>
      match r.set name acc c with
      | .error e => .error e
      | .ok (acc, c) => recordElements r c (index + 1) (name :: seen) acc rest

/-- Reads a record, written as an object or as the list of its fields. -/
def typedRecord {σ α : Type} (r : RecordReader σ α) (start : σ) : Typed α := fun c =>
  match valueStart c with
  | .error e => .error e
  | .ok (b, c) =>
    if b = 91 then recordElements r c.skip 0 [] start r.fields
    else if b = 123 then recordMembers r (c.rest.length + 1) c.skip [] true start
    else wrongValue ("struct " ++ r.name) c

/-- Looks a choice up by its name, which ends at the cursor. -/
def known {α : Type} (choices : List (String × α)) (name : String) (c : Cursor) :
    Except TypedError α :=
  match choices.lookup name with
  | some a => .ok a
  | none => mismatch (.unknownVariant name (choices.map (·.1))) c

/-- Reads the name of a choice, which is an identifier inside an object. -/
def typedVariant {α : Type} (choices : List (String × α)) : Typed α := fun c =>
  match valueStart c with
  | .error e => .error e
  | .ok (b, c) =>
    if b = 34 then
      match readString c.skip with
      | .error e => lift (.error e)
      | .ok (name, c) => (known choices name c).map fun a => (a, c)
    else wrongValue "variant identifier" c

/-- Reads a choice: its name, or an object with its name and null. -/
def typedChoice {α : Type} (choices : List (String × α)) : Typed α := fun c =>
  let c := c.skipBlanks
  match c.peek? with
  | none => lift (c.failNext .eofInValue)
  | some b =>
    if b = 34 then typedVariant choices c
    else if b = 123 then do
      let (a, c) ← typedVariant choices c.skip
      let c ← lift (readColon c)
      let (_, c) ← typedUnit c
      let c := c.skipBlanks
      match c.peek? with
      | none => lift (c.fail .eofInObject)
      | some 125 => return (a, c.skip)
      | some _ => lift (c.fail .expectedValue)
    else lift (c.failNext .expectedValue)

/-- Reads a whole text as one value. -/
def readText {α : Type} (read : Typed α) (text : String) : Except TypedError α :=
  match read (Cursor.start text.toUTF8.toList) with
  | .error e => .error e
  | .ok (a, c) => lift ((finish c).map fun _ => a)

end Json

end RpcPool

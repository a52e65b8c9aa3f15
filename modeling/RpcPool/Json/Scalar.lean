import RpcPool.Json
import RpcPool.Json.Cursor

/-!
# The tokens of JSON

Words, numbers and strings, read from a cursor that stands at their first byte or just after it.
-/

namespace RpcPool

namespace Json

/-! ## Words -/

/-- Reads the rest of a word such as `null`. -/
def word (c : Cursor) : List Char → Reading Unit
  | [] => .ok ((), c)
  | w :: more =>
    match c.next? with
    | none => c.fail .eofInValue
    | some (b, c) => if b.toNat = w.toNat then word c more else c.fail .expectedIdent

/-! ## Numbers -/

/-- The value of a digit. -/
def digit? (b : UInt8) : Option Nat :=
  if 48 ≤ b && b ≤ 57 then some (b.toNat - 48) else none

/-- Whether the next byte is a digit. -/
def digitNext? (c : Cursor) : Option Nat := c.peek?.bind digit?

/-- The cursor after digits, and how many they were. -/
def skipDigits (fuel : Nat) (c : Cursor) (count : Nat) : Nat × Cursor :=
  match fuel with
  | 0 => (count, c)
  | fuel + 1 => if (digitNext? c).isSome then skipDigits fuel c.skip (count + 1) else (count, c)

/-- Significands grow by a digit as long as they fit 64 bits; `none` once they do not. -/
def growSignificand? (significand digit : Nat) : Option Nat :=
  let n := significand * 10 + digit
  if n < Nat.pow 2 64 then some n else none

/-- Reads digits into a significand until the first that does not fit. Gives the significand, the number
of digits taken, and whether one did not fit. -/
def takeDigits (fuel : Nat) (c : Cursor) (significand count : Nat) : (Nat × Nat × Bool) × Cursor :=
  match fuel with
  | 0 => ((significand, count, false), c)
  | fuel + 1 =>
    match digitNext? c with
    | none => ((significand, count, false), c)
    | some d =>
      match growSignificand? significand d with
      | none => ((significand, count, true), c)
      | some n => takeDigits fuel c.skip n (count + 1)

/-- Scales a significand by a power of ten: the significand is rounded, the power is rounded, and then
their product or quotient, the division going in two steps for powers beyond the range. -/
def scaled? (negative : Bool) (significand : Nat) (exponent : Int) : Option Binary64 := do
  let x ← Binary64.ofQuotient? negative significand 1
  if 0 ≤ exponent then
    if significand = 0 then some x
    else if exponent ≤ 308 then x.mul? (← Binary64.ofDecimal? false 1 exponent)
    else none
  else if -308 ≤ exponent then x.div? (← Binary64.ofDecimal? false 1 (-exponent))
  else if significand = 0 then some x
  else
    let x ← x.div? (← Binary64.ofDecimal? false 1 308)
    if -616 ≤ exponent then x.div? (← Binary64.ofDecimal? false 1 (-exponent - 308))
    else some { x with significand := 0, exponent := Binary64.minExponent }

/-- Makes the double that a number has come to. -/
def finishFloat (c : Cursor) (negative : Bool) (significand : Nat) (exponent : Int) : Reading Json :=
  match scaled? negative significand exponent with
  | some x => .ok (.float x, c)
  | none => c.fail .numberOutOfRange

/-- The largest exponent that is read digit by digit. -/
def exponentLimit : Nat := Nat.pow 2 31

/-- Reads the further digits of an exponent. `none` if it grows beyond the limit. -/
def takeExponent (fuel : Nat) (c : Cursor) (exponent : Nat) : Option Nat × Cursor :=
  match fuel with
  | 0 => (some exponent, c)
  | fuel + 1 =>
    match digitNext? c with
    | none => (some exponent, c)
    | some d =>
      let n := exponent * 10 + d
      if n < exponentLimit then takeExponent fuel c.skip n else (none, c.skip)

/-- Reads an exponent, from its letter on. -/
def readExponent (c : Cursor) (negative : Bool) (significand : Nat) (scale : Int) : Reading Json :=
  let c := c.skip
  let (down, c) := match c.peek? with
    | some 43 => (false, c.skip)
    | some 45 => (true, c.skip)
    | _ => (false, c)
  match c.next? with
  | none => c.fail .eofInValue
  | some (b, c) =>
    match digit? b with
    | none => c.fail .invalidNumber
    | some d =>
      match takeExponent c.rest.length c d with
      | (some e, c) => finishFloat c negative significand (if down then scale - e else scale + e)
      | (none, c) =>
        if significand ≠ 0 && !down then c.fail .numberOutOfRange
        else
          let (_, c) := skipDigits c.rest.length c 0
          .ok (.float ⟨negative, 0, Binary64.minExponent⟩, c)

/-- Goes on after the digits of a number: with an exponent, or with its end. -/
def exponentOrEnd (c : Cursor) (negative : Bool) (significand : Nat) (scale : Int) : Reading Json :=
  match c.peek? with
  | some 101 => readExponent c negative significand scale
  | some 69 => readExponent c negative significand scale
  | _ => finishFloat c negative significand scale

/-- Reads a fraction, from its point on. Digits beyond the first that does not fit are dropped. -/
def readFraction (c : Cursor) (negative : Bool) (significand : Nat) (scale : Int) : Reading Json :=
  let c := c.skip
  let ((n, count, full), c) := takeDigits c.rest.length c significand 0
  if full then
    let (_, c) := skipDigits c.rest.length c 0
    exponentOrEnd c negative n (scale - count)
  else if count = 0 then
    c.failNext (if c.rest.isEmpty then .eofInValue else .invalidNumber)
  else exponentOrEnd c negative n (scale - count)

/-- Goes on after the whole part of a number. -/
def fractionOrEnd (c : Cursor) (negative : Bool) (significand : Nat) (dropped : Nat) : Reading Json :=
  match c.peek? with
  | some 46 => readFraction c negative significand dropped
  | _ => exponentOrEnd c negative significand dropped

/-- A whole number that fits 64 bits. Minus zero, and what is below the range of signed numbers, are
doubles. -/
def wholeNumber (negative : Bool) (n : Nat) : Json :=
  if negative then
    if n = 0 || Nat.pow 2 63 < n then
      .float ((Binary64.ofQuotient? true n 1).getD ⟨true, 0, Binary64.minExponent⟩)
    else .negative (n - 1)
  else .natural (UInt64.ofNat n)

/-- Goes on after a whole part that fits 64 bits. -/
def numberEnd (c : Cursor) (negative : Bool) (n : Nat) : Reading Json :=
  match c.peek? with
  | some 46 => readFraction c negative n 0
  | some 101 => readExponent c negative n 0
  | some 69 => readExponent c negative n 0
  | _ => .ok (wholeNumber negative n, c)

/-- Reads a number without its sign. -/
def readNumber (c : Cursor) (negative : Bool) : Reading Json :=
  match c.next? with
  | none => c.fail .eofInValue
  | some (b, c) =>
    match digit? b with
    | none => c.fail .invalidNumber
    | some 0 => if (digitNext? c).isSome then c.failNext .invalidNumber else numberEnd c negative 0
    | some d =>
      let ((n, _, full), c) := takeDigits c.rest.length c d 0
      if full then
        let (dropped, c) := skipDigits c.rest.length c 0
        fractionOrEnd c negative n dropped
      else numberEnd c negative n

/-! ## Strings -/

/-- The value of a digit of base sixteen. -/
def hexValue? (b : UInt8) : Option Nat :=
  if 48 ≤ b && b ≤ 57 then some (b.toNat - 48)
  else if 97 ≤ b && b ≤ 102 then some (b.toNat - 87)
  else if 65 ≤ b && b ≤ 70 then some (b.toNat - 55)
  else none

/-- Reads four digits of base sixteen. -/
def readHex (c : Cursor) : Reading Nat :=
  match c.rest with
  | b1 :: b2 :: b3 :: b4 :: _ =>
    let c := c.skipMany 4
    match hexValue? b1, hexValue? b2, hexValue? b3, hexValue? b4 with
    | some h1, some h2, some h3, some h4 => .ok (((h1 * 16 + h2) * 16 + h3) * 16 + h4, c)
    | _, _, _, _ => c.fail .invalidEscape
  | short => (c.skipMany short.length).fail .eofInString

/-- The bytes of a character. -/
def charBytes (n : Nat) : List UInt8 := (String.singleton (Char.ofNat n)).toUTF8.toList

/-- Reads an escape by code unit, after its letter. Units of a pair have to come together. -/
def readUnicodeEscape (c : Cursor) : Except ParseError (List UInt8 × Cursor) := do
  let (high, c) ← readHex c
  if 0xDC00 ≤ high && high ≤ 0xDFFF then c.fail .loneSurrogate
  else if high < 0xD800 || 0xDBFF < high then return (charBytes high, c)
  else
    match c.next? with
    | none => c.fail .eofInString
    | some (b, c) =>
      if b ≠ 92 then c.fail .endOfHexEscape
      else
        match c.next? with
        | none => c.fail .eofInString
        | some (b, c) =>
          if b ≠ 117 then c.fail .endOfHexEscape
          else
            let (low, c) ← readHex c
            if low < 0xDC00 || 0xDFFF < low then c.fail .loneSurrogate
            else return (charBytes ((high - 0xD800) * 1024 + (low - 0xDC00) + 0x10000), c)

/-- The byte that a one-letter escape stands for. -/
def escapeByte? (b : UInt8) : Option UInt8 :=
  if b = 34 || b = 92 || b = 47 then some b
  else if b = 98 then some 8
  else if b = 102 then some 12
  else if b = 110 then some 10
  else if b = 114 then some 13
  else if b = 116 then some 9
  else none

/-- Reads an escape, after its backslash. -/
def readEscape (c : Cursor) : Reading (List UInt8) :=
  match c.next? with
  | none => c.fail .eofInString
  | some (b, c) =>
    if b = 117 then readUnicodeEscape c
    else
      match escapeByte? b with
      | some e => .ok ([e], c)
      | none => c.fail .invalidEscape

/-- Reads the bytes of a string up to its closing quote. -/
def readStringBytes (fuel : Nat) (c : Cursor) (seen : List UInt8) : Reading (List UInt8) :=
  match fuel with
  | 0 => c.fail .eofInString
  | fuel + 1 =>
    match c.next? with
    | none => c.fail .eofInString
    | some (b, c) =>
      if b = 34 then .ok (seen.reverse, c)
      else if b = 92 then
        match readEscape c with
        | .error e => .error e
        | .ok (bytes, c) => readStringBytes fuel c (bytes.reverse ++ seen)
      else if b < 32 then c.fail .controlCharacter
      else readStringBytes fuel c (b :: seen)

/-- The length of the well-formed character that bytes begin with. -/
def charLength? : List UInt8 → Option Nat
  | [] => none
  | b :: rest =>
    let continues (n : Nat) : Bool := (rest.take n).length = n && (rest.take n).all fun x => x &&& 0xC0 == 0x80
    let second := rest.head?.getD 0
    if b < 0x80 then some 1
    else if 0xC2 ≤ b && b ≤ 0xDF then if continues 1 then some 2 else none
    else if 0xE0 ≤ b && b ≤ 0xEF then
      if continues 2 && !(b = 0xE0 && second < 0xA0) && !(b = 0xED && 0x9F < second) then some 3 else none
    else if 0xF0 ≤ b && b ≤ 0xF4 then
      if continues 3 && !(b = 0xF0 && second < 0x90) && !(b = 0xF4 && 0x8F < second) then some 4 else none
    else none

/-- The cursor at the first byte that does not belong to a well-formed character. -/
def findBadByte (fuel : Nat) (c : Cursor) : Cursor :=
  match fuel with
  | 0 => c
  | fuel + 1 =>
    match charLength? c.rest with
    | some n => findBadByte fuel (c.skipMany n)
    | none => c

/-- Reads a string after its opening quote. -/
def readString (c : Cursor) : Except ParseError (String × Cursor) := do
  let (bytes, after) ← readStringBytes (c.rest.length + 1) c []
  match String.fromUTF8? ⟨bytes.toArray⟩ with
  | some s => return (s, after)
  | none => (findBadByte c.rest.length c).failNext .invalidCodePoint

end Json

end RpcPool

/-!
# Numerals

Whole numbers written with the digits of a base up to sixteen. Only the digits of ASCII count.
-/

namespace RpcPool

namespace Text

/-- The value of a digit, letters in either case. -/
def digit? (base : Nat) (c : Char) : Option Nat :=
  let d? : Option Nat :=
    if '0' ≤ c && c ≤ '9' then some (c.toNat - '0'.toNat)
    else if 'a' ≤ c && c ≤ 'f' then some (c.toNat - 'a'.toNat + 10)
    else if 'A' ≤ c && c ≤ 'F' then some (c.toNat - 'A'.toNat + 10)
    else none
  d?.filter fun d => d < base

def isDigit (base : Nat) (c : Char) : Bool := (digit? base c).isSome

/-- The number that digits stand for. Without digits it is zero. -/
def numberOf (base : Nat) (digits : List Char) : Nat :=
  digits.foldl (fun n c => n * base + (digit? base c).getD 0) 0

/-- The number of a text that consists of digits alone. -/
def number? (base : Nat) (cs : List Char) : Option Nat :=
  if cs.all (isDigit base) then some (numberOf base cs) else none

/-- A number in decimal. -/
def decimal (n : Nat) : List Char := Nat.toDigits 10 n

/-- A digit of base sixteen, in upper case. -/
def upperHex (n : Nat) : Char := (Nat.digitChar n).toUpper

end Text

end RpcPool

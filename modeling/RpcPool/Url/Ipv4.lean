import RpcPool.Text.Numeral
import RpcPool.Text.Pieces

/-!
# IPv4 addresses

An address of 32 bits. It is written as four decimal numbers, but read in more ways: with fewer numbers,
the last of which then fills the rest, and with numbers in base eight or sixteen.
-/

namespace RpcPool

structure Ipv4 where
  bits : UInt32
  deriving DecidableEq, Repr

namespace Ipv4

/-! ## Reading -/

/-- A number of an address. A zero in front marks base eight, `0x` base sixteen; behind these there may be
no digits at all. -/
def part? : List Char → Option Nat
  | [] => none
  | '0' :: 'x' :: cs => Text.number? 16 cs
  | '0' :: 'X' :: cs => Text.number? 16 cs
  | '0' :: c :: cs => Text.number? 8 (c :: cs)
  | cs => Text.number? 10 cs

/-- The parts of a name, without the empty one after a dot at its end. -/
def parts (name : List Char) : List (List Char) :=
  let parts := Text.pieces (· == '.') name
  if parts.getLast? = some [] then parts.dropLast else parts

/-- Whether a name has to be an address: whether its last part is a number. -/
def isNumeric (name : List Char) : Bool :=
  match (parts name).getLast? with
  | none => false
  | some part => (!part.isEmpty && part.all (Text.isDigit 10)) || (part? part).isSome

/-- The address of some numbers, each of one byte but the last. -/
def ofNumbers? (numbers : List Nat) : Option Ipv4 :=
  match numbers.reverse with
  | [] => none
  | last :: before =>
    let bound := Nat.pow 2 (8 * (4 - before.length))
    if 4 < numbers.length || before.any (255 < ·) || bound ≤ last then none
    else
      let high := before.reverse.foldl (fun n b => n * 256 + b) 0
      some ⟨UInt32.ofNat (high * bound + last)⟩

def ofName? (name : List Char) : Option Ipv4 := ((parts name).mapM part?).bind ofNumbers?

/-! ## Writing -/

/-- The four bytes of an address. -/
def bytes (a : Ipv4) : List Nat :=
  let n := a.bits.toNat
  [n / 0x1000000, n / 0x10000 % 256, n / 0x100 % 256, n % 256]

def text (a : Ipv4) : List Char := ['.'].intercalate (a.bytes.map Text.decimal)

end Ipv4

end RpcPool

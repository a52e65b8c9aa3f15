import RpcPool.Text.Numeral

/-!
# IPv6 addresses

An address of eight groups of 16 bits, written in base sixteen with colons between them. Two colons stand
for as many groups of zeros as are missing; the last two groups may be written like an IPv4 address.
-/

namespace RpcPool

structure Ipv6 where
  groups : List UInt16
  deriving DecidableEq, Repr

namespace Ipv6

/-! ## Reading -/

/-- Reads up to so many digits of base sixteen. Returns how many there were, their value and the rest. -/
def readHex : Nat → Nat → Nat → List Char → Nat × Nat × List Char
  | limit + 1, count, n, c :: rest =>
    match Text.digit? 16 c with
    | some d => readHex limit (count + 1) (n * 16 + d) rest
    | none => (count, n, c :: rest)
  | _, count, n, cs => (count, n, cs)

/-- Reads a decimal number below 256 without zeros in front. -/
def byte? (cs : List Char) : Option (Nat × List Char) :=
  let digits := cs.takeWhile (Text.isDigit 10)
  let n := Text.numberOf 10 digits
  if digits.isEmpty || (digits.head? = some '0' && digits != ['0']) || 255 < n then none
  else some (n, cs.dropWhile (Text.isDigit 10))

/-- Reads bytes with dots between them up to the end. -/
def bytes? : Nat → List Char → Option (List Nat)
  | 0, _ => none
  | limit + 1, cs =>
    match byte? cs with
    | none => none
    | some (n, []) => some [n]
    | some (n, '.' :: rest) => (bytes? limit rest).map (n :: ·)
    | some _ => none

/-- The groups of an address as far as they have been read: those before two colons, and if there were
any, those after them. Both are kept in reverse. -/
structure Partial where
  front : List Nat
  back : Option (List Nat)

namespace Partial

/-- How many groups there are at least. -/
def count (p : Partial) : Nat :=
  match p.back with
  | none => p.front.length
  | some b => p.front.length + 1 + b.length

def push (p : Partial) (n : Nat) : Partial :=
  match p.back with
  | none => { p with front := n :: p.front }
  | some b => { p with back := some (n :: b) }

/-- The address, if it has the right number of groups. -/
def address? (p : Partial) : Option Ipv6 :=
  match p.back with
  | none => if p.front.length = 8 then some ⟨p.front.reverse.map UInt16.ofNat⟩ else none
  | some b =>
    let missing := 8 - p.front.length - b.length
    some ⟨(p.front.reverse ++ List.replicate missing 0 ++ b.reverse).map UInt16.ofNat⟩

end Partial

/-- Reads groups up to the end, each with the colon after it, in at most so many steps. -/
def readGroups : Nat → Partial → List Char → Option Ipv6
  | 0, _, _ => none
  | _, p, [] => p.address?
  | fuel + 1, p, c :: cs =>
    if p.count = 8 then none
    else if c = ':' then
      match p.back with
      | some _ => none
      | none => readGroups fuel { p with back := some [] } cs
    else
      match readHex 4 0 0 (c :: cs) with
      | (_, n, []) => (p.push n).address?
      | (_, n, ':' :: d :: rest) => readGroups fuel (p.push n) (d :: rest)
      | (count, _, '.' :: _) =>
        if count = 0 || 6 < p.count then none
        else
          match bytes? 4 (c :: cs) with
          | some [a, b, c, d] => ((p.push (a * 256 + b)).push (c * 256 + d)).address?
          | _ => none
      | _ => none

/-- Reads the text of an address. -/
def ofText? (cs : List Char) : Option Ipv6 :=
  match cs with
  | ':' :: ':' :: rest => readGroups (cs.length + 1) ⟨[], some []⟩ rest
  | ':' :: _ => none
  | [] => none
  | [_] => none
  | _ => readGroups (cs.length + 1) ⟨[], none⟩ cs

/-! ## Writing -/

/-- The lengths of the runs of zeros that begin at each group. -/
def zeroRuns : List UInt16 → List Nat
  | [] => []
  | g :: rest => ((g :: rest).takeWhile (· == 0)).length :: zeroRuns rest

def groupText (g : UInt16) : List Char := Nat.toDigits 16 g.toNat

def joined (gs : List UInt16) : List Char := [':'].intercalate (gs.map groupText)

/-- The text of an address. The first of the longest runs of at least two zeros is left out. -/
def text (a : Ipv6) : List Char :=
  let runs := zeroRuns a.groups
  let longest := runs.max?.getD 0
  if longest < 2 then joined a.groups
  else
    let start := runs.findIdx (· == longest)
    joined (a.groups.take start) ++ [':', ':'] ++ joined (a.groups.drop (start + longest))

end Ipv6

end RpcPool

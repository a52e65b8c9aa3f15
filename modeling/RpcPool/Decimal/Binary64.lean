/-!
# Double precision numbers

Finite numbers of the 64-bit binary format, in exact integer arithmetic: rounding a quotient to the
nearest of them, and the shortest decimal that rounds to a given one.
-/

namespace RpcPool

/-- The number `± significand * 2 ^ exponent`. In a normal form either the significand has 53 bits or the
exponent is the least one, `-1074`. -/
structure Binary64 where
  negative : Bool
  significand : Nat
  exponent : Int
  deriving DecidableEq, Repr

namespace Binary64

/-- The largest exponent of a finite number in normal form. -/
def maxExponent : Int := 971

/-- The least exponent. -/
def minExponent : Int := -1074

/-- Multiplies the side of the quotient `num / den` that turns it into `num / (den * base ^ e)`. -/
def scale (base : Nat) (num den : Nat) (e : Int) : Nat × Nat :=
  match e with
  | .ofNat k => (num, den * Nat.pow base k)
  | .negSucc k => (num * Nat.pow base (k + 1), den)

/-- The whole number nearest to a quotient; a tie goes to the even one. -/
def roundHalfEven (num den : Nat) : Nat :=
  let q := num / den
  let r := 2 * (num % den)
  if r < den then q else if den < r then q + 1 else if q % 2 = 0 then q else q + 1

/-- The largest `k` with `2 ^ k ≤ num / den`, for positive numbers. -/
def floorLog2 (num den : Nat) : Int :=
  let k : Int := (num.log2 : Int) - den.log2
  let (a, b) := scale 2 num den k
  if b ≤ a then k else k - 1

/-- The number nearest to a quotient; none if that would be infinite. -/
def ofQuotient? (negative : Bool) (num den : Nat) : Option Binary64 :=
  if num = 0 then some ⟨negative, 0, minExponent⟩
  else
    let e := max (floorLog2 num den - 52) minExponent
    let (a, b) := scale 2 num den e
    let m := roundHalfEven a b
    let n : Binary64 := if m = Nat.pow 2 53 then ⟨negative, Nat.pow 2 52, e + 1⟩ else ⟨negative, m, e⟩
    if maxExponent < n.exponent then none else some n

/-- The number nearest to `digits * 10 ^ exponent`; none if that would be infinite. -/
def ofDecimal? (negative : Bool) (digits : Nat) (exponent : Int) : Option Binary64 :=
  match exponent with
  | .ofNat k => ofQuotient? negative (digits * Nat.pow 10 k) 1
  | .negSucc k => ofQuotient? negative digits (Nat.pow 10 (k + 1))

/-- The absolute value as a quotient. -/
def quotient (x : Binary64) : Nat × Nat :=
  match x.exponent with
  | .ofNat k => (x.significand * Nat.pow 2 k, 1)
  | .negSucc k => (x.significand, Nat.pow 2 (k + 1))

/-- The number nearest to a product of two absolute values, with the sign of the first. -/
def mul? (x y : Binary64) : Option Binary64 :=
  let (a, b) := x.quotient
  let (c, d) := y.quotient
  ofQuotient? x.negative (a * c) (b * d)

/-- The number nearest to a quotient of two absolute values, with the sign of the first. -/
def div? (x y : Binary64) : Option Binary64 :=
  let (a, b) := x.quotient
  let (c, d) := y.quotient
  ofQuotient? x.negative (a * d) (b * c)

/-! ## Shortest decimals -/

/-- Whether `num / den` rounds to `x`: it lies between the midpoints to the neighbours of `x`, which
themselves round to `x` if its significand is even. -/
def rounds (x : Binary64) (num den : Nat) : Bool :=
  let m := 4 * x.significand
  let low := if x.significand = Nat.pow 2 52 && minExponent < x.exponent then m - 1 else m - 2
  let (a, b) := scale 2 num den (x.exponent - 2)
  if x.significand % 2 = 0 then low * b ≤ a && a ≤ (m + 2) * b
  else low * b < a && a < (m + 2) * b

/-- The largest `k` with `10 ^ k ≤ num / den`, for positive numbers; `fuel` bounds the search for small
ones. -/
def floorLog10 (fuel : Nat) (num den : Nat) : Int :=
  if den ≤ num then ((Nat.toDigits 10 (num / den)).length : Int) - 1
  else
    match fuel with
    | 0 => 0
    | fuel + 1 => floorLog10 fuel (num * 10) den - 1

/-- Looks for a decimal of exactly so many digits that rounds to `x`, and then for longer ones. -/
def search (x : Binary64) (num den : Nat) (magnitude : Int) : Nat → Nat → Nat × Int
  | 0, n => (num / den, (n : Int))
  | fuel + 1, n =>
    let p := magnitude - n + 1
    let (a, b) := scale 10 num den p
    let below := a / b
    let fits (d : Nat) : Bool :=
      match p with
      | .ofNat k => x.rounds (d * Nat.pow 10 k) 1
      | .negSucc k => x.rounds d (Nat.pow 10 (k + 1))
    let nearer := if roundHalfEven a b = below then below else below + 1
    let other := if nearer = below then below + 1 else below
    if fits nearer then (nearer, p)
    else if fits other then (other, p)
    else search x num den magnitude fuel (n + 1)

/-- Takes zeros off the end of a decimal. -/
def trimZeros (fuel : Nat) (d : Nat) (p : Int) : Nat × Int :=
  match fuel with
  | 0 => (d, p)
  | fuel + 1 => if d % 10 = 0 then trimZeros fuel (d / 10) (p + 1) else (d, p)

/-- The shortest decimal `digits * 10 ^ exponent` that rounds to a number other than zero. -/
def shortest (x : Binary64) : Nat × Int :=
  let (num, den) := x.quotient
  let (d, p) := search x num den (floorLog10 400 num den) 17 1
  trimZeros 20 d p

/-! ## Text -/

/-- Zeros, so many as a number tells; none if it is negative. -/
def zeros (n : Int) : List Char := List.replicate n.toNat '0'

/-- Digits written positionally, with a point in them and at least one digit on both sides. -/
def positional (digits : List Char) (p : Int) : List Char :=
  let point : Int := digits.length + p
  if 0 ≤ p then digits ++ zeros p ++ ['.', '0']
  else if 0 < point then digits.take point.toNat ++ '.' :: digits.drop point.toNat
  else '0' :: '.' :: zeros (-point) ++ digits

/-- Digits written with an exponent. -/
def scientific (digits : List Char) (p : Int) : List Char :=
  let exponent : Int := digits.length + p - 1
  let mantissa := match digits with
    | [] => []
    | [d] => [d]
    | d :: rest => d :: '.' :: rest
  mantissa ++ 'e' :: (toString exponent).toList

/-- The text of a number as it is written positionally, always with a point. -/
def positionalText (x : Binary64) : String :=
  let body := if x.significand = 0 then ['0', '.', '0'] else
    let (d, p) := x.shortest
    positional (Nat.toDigits 10 d) p
  String.ofList (if x.negative then '-' :: body else body)

/-- The text of a number that is written positionally if the point falls within the first sixteen digits
or at most five places before them, and else with an exponent. -/
def compactText (x : Binary64) : String :=
  let body := if x.significand = 0 then ['0', '.', '0'] else
    let (d, p) := x.shortest
    let digits := Nat.toDigits 10 d
    let point : Int := digits.length + p
    if -5 < point && point ≤ 16 then positional digits p else scientific digits p
  String.ofList (if x.negative then '-' :: body else body)

end Binary64

end RpcPool

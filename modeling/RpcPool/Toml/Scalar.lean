import RpcPool.Data
import RpcPool.Decimal.Binary64
import RpcPool.Text.Numeral

/-!
# The scalars of TOML

Numbers, truth values and points in time, each given by one unquoted word. A word that is none of them
has no value.
-/

namespace RpcPool

namespace Toml

open Text (numberOf)

/-! ## Digits -/

/-- Digits without the underscores between them; an underscore stands between two digits. -/
def plainDigits? (base : Nat) : List Char → Option (List Char)
  | [] => none
  | c :: rest => if Text.isDigit base c then go c rest else none
where
  go (last : Char) : List Char → Option (List Char)
    | [] => some [last]
    | '_' :: d :: rest => if Text.isDigit base d then (go d rest).map (last :: ·) else none
    | d :: rest => if Text.isDigit base d then (go d rest).map (last :: ·) else none

/-- Splits a sign off. -/
def splitSign : List Char → Bool × List Char
  | '-' :: rest => (true, rest)
  | '+' :: rest => (false, rest)
  | cs => (false, cs)

/-- A whole decimal number without needless zeros in front. -/
def decimalDigits? (cs : List Char) : Option (List Char) :=
  match cs with
  | ['0'] => some ['0']
  | '0' :: _ => none
  | cs => plainDigits? 10 cs

/-! ## Numbers -/

def signed (negative : Bool) (n : Nat) : Int := if negative then -(n : Int) else n

def integer? (cs : List Char) : Option Data :=
  match cs with
  | '0' :: 'x' :: digits => (plainDigits? 16 digits).map fun ds => .integer (numberOf 16 ds)
  | '0' :: 'o' :: digits => (plainDigits? 8 digits).map fun ds => .integer (numberOf 8 ds)
  | '0' :: 'b' :: digits => (plainDigits? 2 digits).map fun ds => .integer (numberOf 2 ds)
  | cs =>
    let (negative, digits) := splitSign cs
    (decimalDigits? digits).map fun ds => .integer (signed negative (numberOf 10 ds))

/-- The number `± digits * 10 ^ exponent`, as it is shown. -/
def float (negative : Bool) (digits : List Char) (exponent : Int) : Data :=
  match Binary64.ofDecimal? negative (numberOf 10 digits) exponent with
  | some x => .float x.positionalText
  | none => .outOfRange

/-- Reads an exponent with its letter, or nothing. Exponents far beyond the range all count the same. -/
def exponent? : List Char → Option Int
  | [] => some 0
  | e :: rest =>
    if e = 'e' || e = 'E' then
      let (negative, digits) := splitSign rest
      (plainDigits? 10 digits).map fun ds => signed negative (min (numberOf 10 ds) 100000)
    else none

def float? (cs : List Char) : Option Data :=
  let (negative, body) := splitSign cs
  if body = "inf".toList then some (.float (if negative then "-inf" else "inf"))
  else if body = "nan".toList then some (.float "NaN")
  else
    let isPart (c : Char) : Bool := Text.isDigit 10 c || c == '_'
    let whole := body.takeWhile isPart
    let (fraction?, rest) : Option (List Char) × List Char :=
      match body.dropWhile isPart with
      | '.' :: rest => (plainDigits? 10 (rest.takeWhile isPart), rest.dropWhile isPart)
      | rest => (if rest.isEmpty then none else some [], rest)
    match decimalDigits? whole, fraction?, exponent? rest with
    | some ds, some fraction, some e => some (float negative (ds ++ fraction) (e - fraction.length))
    | _, _, _ => none

/-! ## Points in time -/

/-- Reads exactly so many digits. -/
def fixedDigits? (n : Nat) (cs : List Char) : Option (Nat × List Char) :=
  let ds := cs.take n
  if ds.length = n && ds.all (Text.isDigit 10) then some (numberOf 10 ds, cs.drop n) else none

def isLeap (year : Nat) : Bool := year % 4 = 0 && (year % 100 ≠ 0 || year % 400 = 0)

def daysIn (year month : Nat) : Nat :=
  if month = 2 then (if isLeap year then 29 else 28)
  else if [4, 6, 9, 11].contains month then 30 else 31

/-- Checks a date at the start of a text; gives the date and what follows it. -/
def date? (cs : List Char) : Option (List Char × List Char) := do
  let (year, rest) ← fixedDigits? 4 cs
  let rest ← (if rest.head? = some '-' then some rest.tail else none)
  let (month, rest) ← fixedDigits? 2 rest
  let rest ← (if rest.head? = some '-' then some rest.tail else none)
  let (day, rest) ← fixedDigits? 2 rest
  if 1 ≤ month && month ≤ 12 && 1 ≤ day && day ≤ daysIn year month then some (cs.take 10, rest) else none

/-- The fraction of a second to nine places, without zeros at the end. -/
def fractionText (digits : List Char) : List Char :=
  let ds := ((digits.take 9).reverse.dropWhile fun c => c == '0').reverse
  if ds.isEmpty then [] else '.' :: ds

/-- Checks the seconds of a time of day, if it has any. -/
def seconds? (cs : List Char) : Option (List Char × List Char) :=
  match cs with
  | ':' :: rest => do
    let (second, after) ← fixedDigits? 2 rest
    if 60 < second then none
    else
      match after with
      | '.' :: more =>
        let digits := more.takeWhile (Text.isDigit 10)
        if digits.isEmpty then none
        else some (':' :: rest.take 2 ++ fractionText digits, more.dropWhile (Text.isDigit 10))
      | _ => some (':' :: rest.take 2, after)
  | cs => some ([], cs)

/-- Checks a time of day at the start of a text. -/
def time? (cs : List Char) : Option (List Char × List Char) := do
  let (hour, rest) ← fixedDigits? 2 cs
  let rest ← (if rest.head? = some ':' then some rest.tail else none)
  let (minute, rest) ← fixedDigits? 2 rest
  let (seconds, rest) ← seconds? rest
  if hour ≤ 23 && minute ≤ 59 then some (cs.take 5 ++ seconds, rest) else none

/-- Checks an offset that ends a text, if there is one. -/
def offset? (cs : List Char) : Option (List Char) :=
  match cs with
  | [] => some []
  | ['Z'] => some ['Z']
  | ['z'] => some ['Z']
  | sign :: rest => do
    let (hour, after) ← fixedDigits? 2 rest
    let after ← (if after.head? = some ':' then some after.tail else none)
    let (minute, after) ← fixedDigits? 2 after
    if (sign = '+' || sign = '-') && after.isEmpty && hour ≤ 23 && minute ≤ 59 then some cs else none

/-- The key under which a point in time is found when a table is asked for. -/
def datetimeKey : String := "$__toml_private_datetime"

def datetime? (cs : List Char) : Option Data :=
  let wrap (s : List Char) : Data := .table [(datetimeKey, .text (String.ofList s))]
  match date? cs with
  | some (date, []) => some (wrap date)
  | some (date, sep :: rest) =>
    if sep = 'T' || sep = 't' || sep = ' ' then do
      let (time, rest) ← time? rest
      let offset ← offset? rest
      some (wrap (date ++ 'T' :: time ++ offset))
    else none
  | none =>
    match time? cs with
    | some (time, []) => some (wrap time)
    | _ => none

/-- The value of an unquoted word. -/
def scalar? (cs : List Char) : Option Data :=
  if cs = "true".toList then some (.bool true)
  else if cs = "false".toList then some (.bool false)
  else ((integer? cs).or (float? cs)).or (datetime? cs)

end Toml

end RpcPool

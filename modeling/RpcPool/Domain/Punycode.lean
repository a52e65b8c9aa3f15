/-!
# Labels in ASCII

A label of a domain name as ASCII text: first its ASCII characters, then, behind a hyphen, the others. They
are added in the order of their code, each as the number of steps from the last one, where a step goes on
to the next place in the label and, after the last place, to the next code. The numbers are written in a
system of base 36 whose digits have thresholds; a digit below its threshold is the last one. The
thresholds depend on a bias that adapts to the numbers seen so far.
-/

namespace RpcPool

namespace Domain

namespace Punycode

def base : Nat := 36

/-- The first code that is not in ASCII. -/
def firstCode : Nat := 128

def firstBias : Nat := 72

/-! ## Digits -/

def digitChar (d : Nat) : Char :=
  if d < 26 then Char.ofNat ('a'.toNat + d) else Char.ofNat ('0'.toNat + (d - 26))

def digit? (c : Char) : Option Nat :=
  if c.isLower then some (c.toNat - 'a'.toNat)
  else if c.isUpper then some (c.toNat - 'A'.toNat)
  else if c.isDigit then some (c.toNat - '0'.toNat + 26)
  else none

/-- The threshold of the digit at a position, counted from `base` in steps of `base`. -/
def threshold (position bias : Nat) : Nat := max 1 (min 26 (position - bias))

/-- There is a digit below every threshold, and one that is not. -/
theorem threshold_bounds (position bias : Nat) :
    0 < threshold position bias ∧ threshold position bias < base := by
  unfold threshold base
  omega

/-! ## Bias -/

/-- Divides a number until it is small, and counts how often in steps of `base`. -/
def shrink (delta count : Nat) : Nat × Nat :=
  if 455 < delta then shrink (delta / 35) (count + base) else (delta, count)
termination_by delta
decreasing_by exact Nat.div_lt_self (by omega) (by omega)

/-- The bias after a number, the first one or a later one, in a label that then has so many characters. -/
def adapt (delta length : Nat) (first : Bool) : Nat :=
  let halved := if first then delta / 700 else delta / 2
  let (rest, count) := shrink (halved + halved / length) 0
  count + 36 * rest / (rest + 38)

/-! ## Writing -/

/-- The digits of a number from a position on. -/
def writeNumber (bias position n : Nat) : List Char :=
  let t := threshold position bias
  if n < t then [digitChar n]
  else
    digitChar (t + (n - t) % (base - t)) :: writeNumber bias (position + base) ((n - t) / (base - t))
termination_by n
decreasing_by
  refine Nat.lt_of_le_of_lt (Nat.div_le_self _ _) ?_
  have := (threshold_bounds position bias).1
  omega

/-- How far a label has been written. -/
structure Writing where
  /-- What was written, piece by piece in reverse. -/
  written : List (List Char)
  /-- The steps since the last character that was added. -/
  steps : Nat
  bias : Nat
  /-- How many characters have been added, those of ASCII among them. -/
  count : Nat

/-- Passes a place of the label while characters of a code are added. -/
def pass (code ascii : Nat) (s : Writing) (c : Char) : Writing :=
  if c.toNat < code then { s with steps := s.steps + 1 }
  else if c.toNat = code then
    ⟨writeNumber s.bias base s.steps :: s.written, 0, adapt s.steps (s.count + 1) (s.count == ascii),
      s.count + 1⟩
  else s

/-- Adds all characters of some codes, which are given in ascending order; `next` is the code at which the
last pass ended. -/
def writeCodes (label : List Char) (ascii : Nat) : List Nat → Nat → Writing → Writing
  | [], _, s => s
  | code :: codes, next, s =>
    let s := { s with steps := s.steps + (code - next) * (s.count + 1) }
    let s := label.foldl (pass code ascii) s
    writeCodes label ascii codes (code + 1) { s with steps := s.steps + 1 }

def isAscii (c : Char) : Bool := c.toNat < firstCode

/-- The codes outside of ASCII in a label, ascending and each once. -/
def codes (label : List Char) : List Nat :=
  (((label.filter fun c => !isAscii c).map Char.toNat).mergeSort).eraseDups

/-- The ASCII text of a label. -/
def write (label : List Char) : List Char :=
  let ascii := label.filter isAscii
  let s := writeCodes label ascii.length (codes label) firstCode ⟨[], 0, firstBias, ascii.length⟩
  ascii ++ (if ascii.isEmpty then [] else ['-']) ++ s.written.reverse.flatten

/-! ## Reading -/

/-- Reads the digits of a number from a position on, each of them with its weight. Returns the number and
what follows it. -/
def readNumber (bias : Nat) : Nat → Nat → Nat → List Char → Option (Nat × List Char)
  | _, _, _, [] => none
  | position, weight, n, c :: rest =>
    match digit? c with
    | none => none
    | some d =>
      let t := threshold position bias
      if d < t then some (n + d * weight, rest)
      else readNumber bias (position + base) (weight * (base - t)) (n + d * weight) rest

theorem length_lt_of_readNumber {bias position weight n m : Nat} {cs rest : List Char}
    (h : readNumber bias position weight n cs = some (m, rest)) : rest.length < cs.length := by
  induction cs generalizing position weight n with
  | nil => simp [readNumber] at h
  | cons c cs ih =>
    simp only [readNumber] at h
    split at h
    · simp at h
    · split at h
      · simp only [Option.some.injEq, Prod.mk.injEq] at h
        simp [h.2]
      · exact Nat.lt_succ_of_lt (ih h)

/-- The largest number that may come up. -/
def numberLimit : Nat := Nat.pow 2 32

/-- Adds characters to a label, given the last code and the place behind the last character that was
added. -/
def readCodes (bias code place : Nat) (label : List Char) (cs : List Char) : Option (List Char) :=
  if cs.isEmpty then some label
  else
    match _h : readNumber bias base 1 0 cs with
    | none => none
    | some (steps, rest) =>
      let index := place + steps
      let length := label.length + 1
      let code := code + index / length
      if numberLimit ≤ index || !code.isValidChar then none
      else
        readCodes (adapt steps length (place == 0)) code (index % length + 1)
          (label.insertIdx (index % length) (Char.ofNat code)) rest
termination_by cs.length
decreasing_by exact length_lt_of_readNumber (by assumption)

/-- The ASCII characters of a label and the numbers behind them. A hyphen at the start separates nothing. -/
def split (cs : List Char) : List Char × List Char :=
  match cs.reverse.dropWhile (· != '-') with
  | _ :: c :: before => ((c :: before).reverse, (cs.reverse.takeWhile (· != '-')).reverse)
  | _ => ([], cs)

/-- The label of an ASCII text. -/
def read? (cs : List Char) : Option (List Char) :=
  let (ascii, numbers) := split cs
  if cs.all isAscii then readCodes firstBias firstCode 0 ascii numbers else none

end Punycode

end Domain

end RpcPool

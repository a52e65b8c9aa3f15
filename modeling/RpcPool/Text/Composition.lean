import RpcPool.Text.CombiningClass
import RpcPool.Text.Decomposition

/-!
# Composed text

One way of writing each text: every character is taken apart, the marks on a base character are put in
the order of their classes, and then what can be put together is put together.
-/

namespace RpcPool

namespace Text

/-! ## Taking apart -/

/-- Takes a character apart as far as possible. No character has parts of parts beyond the given depth. -/
def takeApart : Nat → Char → List Char
  | 0, c => [c]
  | depth + 1, c =>
    match parts? c with
    | none => [c]
    | some parts => parts.flatMap (takeApart depth)

/-- How often a part may have parts itself. -/
def partDepth : Nat := 4

def decompose (cs : List Char) : List Char := cs.flatMap (takeApart partDepth)

/-! ## Order of marks -/

/-- Adds a character to a text in reverse, in front of the marks of higher classes. -/
def insertMark (c : Char) : List Char → List Char
  | [] => [c]
  | d :: rest =>
    if combiningClass c ≠ 0 && combiningClass c < combiningClass d then d :: insertMark c rest
    else c :: d :: rest

def orderMarks (cs : List Char) : List Char :=
  (cs.foldl (fun done c => insertMark c done) []).reverse

/-! ## Putting together -/

/-- Text that is being put together. -/
structure Composing where
  /-- What is finished, in reverse. -/
  done : List Char
  /-- The character that those after it may be put together with. -/
  base : Option Char
  /-- The marks after the base that could not be put together with it, in reverse. -/
  marks : List Char

namespace Composing

/-- What there is so far, in reverse. -/
def flat (s : Composing) : List Char := s.marks ++ s.base.toList ++ s.done

/-- Adds a character behind which nothing before it can change any more. -/
def begin (s : Composing) (c : Char) : Composing := ⟨s.flat, some c, []⟩

/-- Adds a character that was not put together with the base. -/
def keep (s : Composing) (c : Char) : Composing :=
  if combiningClass c = 0 then s.begin c
  else
    match s.base with
    | none => { s with done := c :: s.done }
    | some _ => { s with marks := c :: s.marks }

/-- Whether the marks in between keep a character from the base. -/
def blocked (s : Composing) (c : Char) : Bool :=
  match s.marks with
  | [] => false
  | m :: _ => combiningClass c ≤ combiningClass m

def push (s : Composing) (c : Char) : Composing :=
  match s.base with
  | none => s.keep c
  | some b =>
    if s.blocked c then s.keep c
    else
      match composite? b c with
      | some p => { s with base := some p }
      | none => s.keep c

end Composing

/-- The one way of writing a text. -/
def compose (cs : List Char) : List Char :=
  ((orderMarks (decompose cs)).foldl Composing.push ⟨[], none, []⟩).flat.reverse

end Text

end RpcPool

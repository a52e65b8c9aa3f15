import RpcPool.Json.Scalar

/-!
# The strings of TOML

Basic strings have escapes, literal strings have none; either may span several lines. Strings are read
from after their opening quotes.
-/

namespace RpcPool

namespace Toml

/-- Whether a character may stand in a string or a comment as it is. -/
def isPlain (c : Char) : Bool := c == '\t' || (' ' ≤ c && c != '\x7f')

/-- Reads exactly so many digits of base sixteen. -/
def hexDigits? (count : Nat) (cs : List Char) : Option (Nat × List Char) :=
  let ds := cs.take count
  let digits := ds.filterMap fun c => if c.toNat < 128 then Json.hexValue? c.toUInt8 else none
  if digits.length = count then some (digits.foldl (fun n d => n * 16 + d) 0, cs.drop count) else none

/-- The character of a number, if there is one. -/
def char? (n : Nat) : Option Char := if h : n.isValidChar then some (Char.ofNatAux n h) else none

/-- The character of a number that is written with so many digits. -/
def numbered? (count : Nat) (cs : List Char) : Option (Char × List Char) := do
  let (n, rest) ← hexDigits? count cs
  let c ← char? n
  some (c, rest)

/-- Reads an escape after its backslash. -/
def escape? : List Char → Option (Char × List Char)
  | [] => none
  | c :: rest =>
    match c with
    | 'b' => some ('\x08', rest)
    | 't' => some ('\t', rest)
    | 'n' => some ('\n', rest)
    | 'f' => some ('\x0c', rest)
    | 'r' => some ('\r', rest)
    | 'e' => some ('\x1b', rest)
    | '"' => some ('"', rest)
    | '\\' => some ('\\', rest)
    | 'x' => numbered? 2 rest
    | 'u' => numbered? 4 rest
    | 'U' => numbered? 8 rest
    | _ => none

/-- Reads a basic string on one line. -/
def basic? (fuel : Nat) (cs : List Char) (seen : List Char) : Option (List Char × List Char) :=
  match fuel with
  | 0 => none
  | fuel + 1 =>
    match cs with
    | [] => none
    | '"' :: rest => some (seen.reverse, rest)
    | '\\' :: rest =>
      match escape? rest with
      | some (c, rest) => basic? fuel rest (c :: seen)
      | none => none
    | c :: rest => if isPlain c then basic? fuel rest (c :: seen) else none

/-- Reads a literal string on one line. -/
def literal? (cs : List Char) : Option (List Char × List Char) :=
  let body := cs.takeWhile fun c => c != '\'' && isPlain c
  match cs.dropWhile fun c => c != '\'' && isPlain c with
  | '\'' :: rest => some (body, rest)
  | _ => none

/-- Skips the end of a line right after the opening quotes. -/
def skipNewline : List Char → List Char
  | '\n' :: rest => rest
  | '\r' :: '\n' :: rest => rest
  | cs => cs

/-- The quotes at the start of a text, up to five, and what follows them. -/
def quotes (quote : Char) (cs : List Char) : Nat × List Char :=
  let n := min ((cs.takeWhile fun c => c == quote).length) 5
  (n, cs.drop n)

/-- Goes over a line end that was escaped: blanks, the line end, and all blanks and line ends after it.
Nothing if what follows the backslash is not a line end. -/
def escapedNewline? (cs : List Char) : Option (List Char) :=
  let isSpace (c : Char) : Bool := c == ' ' || c == '\t'
  match cs.dropWhile isSpace with
  | '\n' :: rest => some (skipSpace rest)
  | '\r' :: '\n' :: rest => some (skipSpace rest)
  | _ => none
where
  skipSpace : List Char → List Char
    | ' ' :: rest => skipSpace rest
    | '\t' :: rest => skipSpace rest
    | '\n' :: rest => skipSpace rest
    | '\r' :: '\n' :: rest => skipSpace rest
    | cs => cs

/-- Reads a string of several lines in the given quotes, with escapes or without. Up to two quotes may
stand at its very end, before the three that close it. -/
def multiline? (quote : Char) (escapes : Bool) (fuel : Nat) (cs seen : List Char) :
    Option (List Char × List Char) :=
  match fuel with
  | 0 => none
  | fuel + 1 =>
    match cs with
    | [] => none
    | '\n' :: rest => multiline? quote escapes fuel rest ('\n' :: seen)
    | '\r' :: '\n' :: rest => multiline? quote escapes fuel rest ('\n' :: '\r' :: seen)
    | c :: rest =>
      if c = quote then
        let (n, after) := quotes quote (c :: rest)
        if 3 ≤ n then some ((List.replicate (n - 3) quote ++ seen).reverse, after)
        else multiline? quote escapes fuel after (List.replicate n quote ++ seen)
      else if escapes && c = '\\' then
        match escapedNewline? rest with
        | some rest => multiline? quote escapes fuel rest seen
        | none =>
          match escape? rest with
          | some (c, rest) => multiline? quote escapes fuel rest (c :: seen)
          | none => none
      else if isPlain c then multiline? quote escapes fuel rest (c :: seen)
      else none

/-- Reads any string, from its opening quote on. -/
def string? (cs : List Char) : Option (List Char × List Char) :=
  let fuel := cs.length + 1
  match cs with
  | '"' :: '"' :: '"' :: rest => multiline? '"' true fuel (skipNewline rest) []
  | '\'' :: '\'' :: '\'' :: rest => multiline? '\'' false fuel (skipNewline rest) []
  | '"' :: rest => basic? fuel rest []
  | '\'' :: rest => literal? rest
  | _ => none

end Toml

end RpcPool

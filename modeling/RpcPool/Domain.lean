import RpcPool.Domain.Mapping
import RpcPool.Domain.Punycode
import RpcPool.Text.Composition
import RpcPool.Text.Direction
import RpcPool.Text.Joining
import RpcPool.Text.Mark

/-!
# Domain names

A domain name consists of labels between dots. It may be written in any script; what is sent over a network
is its ASCII form, in which a label with other characters is written as `xn--` and its text by
`Punycode`. Names that are taken for each other have the same ASCII form.
-/

namespace RpcPool

namespace Domain

/-- What a label in ASCII form begins with if it stands for one with other characters. -/
def mark : List Char := "xn--".toList

/-- ASCII characters that may not stand in the name of a host: controls, the space, and those that have a
meaning in a URL. -/
def isForbidden (c : Char) : Bool :=
  c.toNat ≤ 0x20 || c.toNat == 0x7F || "%#/:<>?@[\\]^|".toList.contains c

/-! ## Labels -/

/-- The next character of a label that joins at all, given those that come next. -/
def nextJoining (cs : List Char) : Option Text.Joining :=
  (cs.map Text.joining).find? fun j => j != .transparent

/-- Whether a joiner may stand between the characters before it, in reverse, and those after it. Both may
follow a virama; the one that keeps letters apart may also stand between letters that would join. -/
def fitsJoiner (joiner : Char) (before after : List Char) : Bool :=
  match before with
  | [] => false
  | c :: _ =>
    if Text.combiningClass c = Text.viramaClass then true
    else
      joiner == '\u200C'
        && [some .left, some .both].contains (nextJoining before)
        && [some .right, some .both].contains (nextJoining after)

/-- Whether all joiners in the rest of a label are in place, given what is before it in reverse. -/
def joinersFit (before : List Char) : List Char → Bool
  | [] => true
  | c :: rest =>
    (if c == '\u200C' || c == '\u200D' then fitsJoiner c before rest else true)
      && joinersFit (c :: before) rest

/-- Whether a label with characters outside of ASCII is well formed: composed, made of characters that are
taken for themselves, not beginning with a mark, and with joiners only where they have a use. -/
def isLabel (label : List Char) : Bool :=
  label.all isPlain && Text.compose label == label && !(label.head?.any Text.isMark) && joinersFit [] label

/-! ## Direction -/

/-- Whether a character makes the direction of a name matter. -/
def isDirected (c : Char) : Bool := [.right, .arabicNumber].contains (Text.direction c)

/-- Whether a label reads the same in a name in which the direction matters: it runs in one direction from
its first character on, and ends in a letter of this direction or in a number. -/
def isOrdered (label : List Char) : Bool :=
  match label.map Text.direction with
  | [] => true
  | first :: rest =>
    let ending := ((first :: rest).reverse.dropWhile (· == .mark)).head?
    match first with
    | .left =>
      rest.all (fun d => [.left, .europeanNumber, .neutral, .mark].contains d)
        && [some .left, some .europeanNumber].contains ending
    | .right =>
      rest.all (· != .left)
        && [some .right, some .europeanNumber, some .arabicNumber].contains ending
        && !(rest.contains .europeanNumber && rest.contains .arabicNumber)
    | _ => false

/-! ## Names -/

/-- The labels of a name after its characters were taken for others. -/
def labels? (name : List Char) : Option (List (List Char)) :=
  (name.mapM image?).map fun images => Text.pieces (· == '.') (Text.compose images.flatten)

/-- The longest ASCII text, and the longest label, that are looked at. -/
def readLimit : Nat := 2000

def writeLimit : Nat := 1000

/-- The label that a label may stand for, in any script. -/
def meaning? (label : List Char) : Option (List Char) :=
  if mark.isPrefixOf label then
    let text := label.drop mark.length
    if text.getLast? = none || text.getLast? = some '-' || readLimit < text.length then none
    else (Punycode.read? text).filter isLabel
  else if label.all Punycode.isAscii then some label
  else if isLabel label then some label
  else none

/-- The ASCII form of a label. -/
def written? (label : List Char) : Option (List Char) :=
  if label.all Punycode.isAscii then some label
  else if writeLimit < label.length then none
  else some (mark ++ Punycode.write label)

/-- The ASCII form of a domain name, if it has one. -/
def ascii? (name : List Char) : Option (List Char) := do
  let labels ← labels? name
  let meanings ← labels.mapM meaning?
  if meanings.any (fun l => l.any isForbidden) then none
  else if meanings.any (fun l => l.any isDirected) && !meanings.all isOrdered then none
  else
    let written ← meanings.mapM written?
    return ['.'].intercalate written

end Domain

end RpcPool

import RpcPool.Text.Numeral

/-!
# Percent encoding

A byte written as a percent sign and two digits of base sixteen. Which characters have to be written so
depends on the part of a URL in which they stand; those outside of ASCII and controls have to in all
parts.
-/

namespace RpcPool

namespace Percent

/-- A set of ASCII characters that are written encoded, besides controls. -/
abbrev Escapes := List Char

def fragment : Escapes := " \"<>\x60".toList

def query : Escapes := " \"#<>".toList

/-- The query of a URL of a special scheme. -/
def specialQuery : Escapes := query ++ ['\'']

def path : Escapes := fragment ++ "#?\x7b\x7d".toList

/-- User names and passwords. -/
def userInfo : Escapes := path ++ "/:;=@[\\]^|".toList

/-- Only controls. -/
def none : Escapes := []

def isEscaped (e : Escapes) (c : Char) : Bool := c.toNat < 0x20 || 0x7E < c.toNat || e.contains c

/-! ## Writing -/

def encodeByte (b : UInt8) : List Char :=
  ['%', Text.upperHex (b.toNat / 16), Text.upperHex (b.toNat % 16)]

def encodeChar (e : Escapes) (c : Char) : List Char :=
  if isEscaped e c then (String.ofList [c]).toUTF8.toList.flatMap encodeByte else [c]

def encode (e : Escapes) (cs : List Char) : List Char := cs.flatMap (encodeChar e)

/-! ## Reading -/

/-- The bytes of a text in which encoded bytes are decoded. A percent sign that begins no encoded byte
stands for itself. -/
def decode : List Char → List UInt8
  | '%' :: a :: b :: rest =>
    match Text.digit? 16 a, Text.digit? 16 b with
    | some m, some n => UInt8.ofNat (m * 16 + n) :: decode rest
    | _, _ => '%'.toUInt8 :: decode (a :: b :: rest)
  | c :: rest => (String.ofList [c]).toUTF8.toList ++ decode rest
  | [] => []

/-- A text in which encoded bytes are decoded, if it is valid UTF-8. -/
def decodeText? (cs : List Char) : Option (List Char) :=
  (String.fromUTF8? ⟨(decode cs).toArray⟩).map String.toList

end Percent

end RpcPool

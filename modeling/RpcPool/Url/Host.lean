import RpcPool.Domain
import RpcPool.Url.Ipv4
import RpcPool.Url.Ipv6
import RpcPool.Url.Percent

/-!
# Hosts

What a URL leads to: a domain name or an address. In a URL of a scheme that this library does not know
anything else is kept as it is written.
-/

namespace RpcPool

/-- Why a text is not a URL. -/
inductive UrlError
  | emptyHost
  | invalidDomain
  | invalidPort
  | invalidIpv4
  | invalidIpv6
  | invalidHostCharacter
  | noScheme
  deriving DecidableEq, Repr

/-- The wording of an error. -/
def UrlError.message : UrlError → String
  | .emptyHost => "empty host"
  | .invalidDomain => "invalid international domain name"
  | .invalidPort => "invalid port number"
  | .invalidIpv4 => "invalid IPv4 address"
  | .invalidIpv6 => "invalid IPv6 address"
  | .invalidHostCharacter => "invalid domain character"
  | .noScheme => "relative URL without a base"

inductive Host
  | name (n : List Char)
  | ipv4 (a : Ipv4)
  | ipv6 (a : Ipv6)
  deriving DecidableEq, Repr

namespace Host

def text : Host → List Char
  | name n => n
  | ipv4 a => a.text
  | ipv6 a => '[' :: a.text ++ [']']

/-- Reads what stands in brackets, given what follows the first one. -/
def ofBrackets (cs : List Char) : Except UrlError Host :=
  if cs.getLast? = some ']' then
    match Ipv6.ofText? cs.dropLast with
    | some a => .ok (.ipv6 a)
    | none => .error .invalidIpv6
  else .error .invalidIpv6

/-- Reads a name that is known to be in ASCII. One that ends in a number has to be an address. -/
def ofAscii (n : List Char) : Except UrlError Host :=
  if n.isEmpty then .error .emptyHost
  else if Ipv4.isNumeric n then
    match Ipv4.ofName? n with
    | some a => .ok (.ipv4 a)
    | none => .error .invalidIpv4
  else .ok (.name n)

/-- Reads the host of a known scheme. -/
def ofText : List Char → Except UrlError Host
  | '[' :: cs => ofBrackets cs
  | cs =>
    match (Percent.decodeText? cs).bind Domain.ascii? with
    | none => .error .invalidDomain
    | some n => ofAscii n

/-- Characters that cannot stand in a host of any scheme. -/
def isForbidden (c : Char) : Bool := "\x00\t\n\r #/:<>?@[\\]^|".toList.contains c

/-- Reads the host of another scheme, which is none if nothing is written. -/
def ofOpaque : List Char → Except UrlError (Option Host)
  | [] => .ok none
  | '[' :: cs => (ofBrackets cs).map some
  | cs =>
    if cs.any isForbidden then .error .invalidHostCharacter
    else .ok (some (.name (Percent.encode Percent.none cs)))

end Host

end RpcPool

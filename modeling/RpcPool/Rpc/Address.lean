import RpcPool.Probe
import RpcPool.Text.Blank
import RpcPool.Url.Parser

/-!
# Where probes are sent

The URI of an endpoint may be written without a scheme. Its probes go to the path `/json_rpc` below it.
-/

namespace RpcPool

namespace Rpc

/-- What stands between a scheme and a host. -/
def schemeMark : List Char := "://".toList

/-- Whether a text occurs in another one. -/
def occurs (part : List Char) : List Char → Bool
  | [] => part.isEmpty
  | c :: cs => part.isPrefixOf (c :: cs) || occurs part cs

/-- A URI with a scheme and without blanks around it. -/
def normalize (uri : String) : String :=
  let trimmed := Text.trimmed uri
  if occurs schemeMark trimmed.toList then trimmed else "http://" ++ trimmed

/-- The path of the interface that probes use. -/
def interface : List Char := "/json_rpc".toList

/-- A text without the slashes at its end. -/
def withoutSlashes (cs : List Char) : List Char := (cs.reverse.dropWhile (· == '/')).reverse

/-- The URL to which the probes of an endpoint are sent. -/
def address (uri : String) : Except Probe.Failure String :=
  match Url.parse (normalize uri) with
  | .error e => .error (.invalidUri (uri ++ ": " ++ e.message))
  | .ok u =>
    if u.host.isNone then .error (.invalidUri uri)
    else .ok (String.ofList (withoutSlashes u.chars ++ interface))

end Rpc

end RpcPool

import RpcPool.Json.Parser
import RpcPool.Probe

/-!
# The exchange of a probe

What a probe sends to an endpoint, and what it makes of the HTTP response.
-/

namespace RpcPool

namespace Rpc

/-- The body of the request: the cheapest call without side effects. -/
def requestBody : Json :=
  .object [("jsonrpc", .string "2.0"), ("id", .string "0"), ("method", .string "get_version")]

/-- The message of the error that a response reports, if it reports one in the usual form. -/
def errorMessage? (response : Json) : Option String :=
  match (response.get? "error").bind fun e => e.get? "message" with
  | some (.string s) => some s
  | _ => none

/-- Whether a response shows that the credentials were accepted. Status 401 says that they were not,
status 200 with a result that they were; anything else is a failure. -/
def classify (status : Nat) (body : List UInt8) : Except Probe.Failure Bool :=
  if status = 401 then .ok false
  else if status = 200 then
    match Json.parse body with
    | .error e => .error (.invalidResponse ("JSON parse error: " ++ e.message))
    | .ok response =>
      if (response.get? "result").isSome then .ok true
      else .error (.invalidResponse ((errorMessage? response).getD "missing result"))
  else .error (.request ("HTTP " ++ toString status))

end Rpc

end RpcPool

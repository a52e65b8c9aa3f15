/-!
# Probes

A probe is one bounded exchange with an endpoint. It either answers, with the time the exchange took
and whether the credentials were accepted, or it fails. Only the elapsed time in whole milliseconds is
ever used, as a 64-bit count.
-/

namespace RpcPool

/-- A span of time: whole seconds and a fraction in nanoseconds. -/
structure Duration where
  secs : UInt64
  nanos : UInt32
  deriving DecidableEq, Repr, Inhabited

namespace Duration

/-- The span of `ms` milliseconds. -/
def ofMillis (ms : UInt64) : Duration :=
  ⟨ms / 1000, (ms % 1000).toUInt32 * 1000000⟩

/-- The whole milliseconds in a span, kept to 64 bits: a span too long for them wraps around. -/
def toMillis (d : Duration) : UInt64 :=
  UInt64.ofNat (d.secs.toNat * 1000 + d.nanos.toNat / 1000000)

end Duration

namespace Probe

/-- What an endpoint that answered has shown. -/
structure Response where
  /-- `false` when the endpoint answered but rejected the credentials. -/
  authenticated : Bool
  elapsed : Duration
  deriving DecidableEq, Repr

/-- Why a probe failed. -/
inductive Failure
  | invalidUri (detail : String)
  | timeout (ms : UInt32)
  | request (detail : String)
  | invalidResponse (detail : String)
  deriving DecidableEq, Repr

/-- The wording of a failure. -/
def Failure.message : Failure → String
  | .invalidUri detail => "invalid connection URI: " ++ detail
  | .timeout ms => "probe timed out after " ++ toString ms.toNat ++ "ms"
  | .request detail => "request failed: " ++ detail
  | .invalidResponse detail => "invalid RPC response: " ++ detail

/-- The result of one probe. -/
abbrev Outcome := Except Failure Response

end Probe

end RpcPool

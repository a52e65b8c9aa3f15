import RpcPool.Attributes

/-!
# Endpoints and connections

An endpoint is the fixed configuration of one RPC target. A connection is one instance of an endpoint in
a running pool: two connections made from equal endpoints are still different, which is what lets a pool
tell a connection that was removed from another one registered later under the same URI.
-/

namespace RpcPool

structure Credentials where
  username : String
  password : String
  deriving DecidableEq, Repr

/-- The fixed configuration of one RPC target. -/
structure Endpoint where
  uri : String
  credentials : Option Credentials := none
  /-- Larger is more important; `0` is unranked and comes after every other. -/
  priority : UInt32 := 0
  /-- Probe timeout of this endpoint alone, used in place of the pool's. -/
  timeoutMs : Option UInt32 := none
  attributes : Attributes := []
  deriving DecidableEq, Repr

/-- Identifies an instance. -/
abbrev InstanceId := Nat

/-- One instance of an endpoint. -/
structure Connection where
  id : InstanceId
  endpoint : Endpoint
  deriving DecidableEq, Repr

namespace Connection

abbrev uri (c : Connection) : String := c.endpoint.uri

abbrev priority (c : Connection) : UInt32 := c.endpoint.priority

/-- Whether two names stand for one instance. -/
def same (a b : Connection) : Bool := a.id == b.id

end Connection

end RpcPool

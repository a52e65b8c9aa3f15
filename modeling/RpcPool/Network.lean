import RpcPool.Probe

/-!
# Scripted networks

How the endpoints of a run behave. Each URI has a queue of behaviours, used up one per probe, and a
default for when the queue is empty; an endpoint that nothing is known about refuses connections.
-/

namespace RpcPool

/-- What becomes of one probe. -/
inductive Behaviour
  /-- The endpoint answers, or fails, after a delay in milliseconds. -/
  | reply (delayMs : Nat) (outcome : Probe.Outcome)
  /-- The endpoint never answers. -/
  | hang
  /-- The probe itself breaks and leaves no outcome. -/
  | panic
  deriving Repr

namespace Behaviour

/-- What a probe says when it breaks. -/
def lastWords : String := "scripted"

/-- Nobody listens at the endpoint. -/
def offline : Behaviour := .reply 0 (.error (.request "Connection refused"))

end Behaviour

/-- The behaviours of one URI. -/
structure Route where
  queue : List Behaviour := []
  fallback : Option Behaviour := none
  deriving Repr

/-- The routes of a run, one per URI. -/
structure Network where
  routes : List (String × Route)
  deriving Repr

namespace Network

/-- The route of a URI. -/
def route (n : Network) (uri : String) : Route := (n.routes.lookup uri).getD {}

/-- Gives a URI a new route. -/
def setRoute (n : Network) (uri : String) (r : Route) : Network :=
  ⟨(uri, r) :: n.routes.filter fun e => e.1 != uri⟩

/-- The behaviour of the next probe of a URI, and the network after it. -/
def take (n : Network) (uri : String) : Behaviour × Network :=
  let r := n.route uri
  match r.queue with
  | b :: rest => (b, n.setRoute uri { r with queue := rest })
  | [] => (r.fallback.getD .offline, n)

/-- Replaces the default of a URI and adds to its queue. -/
def extend (n : Network) (uri : String) (fallback : Option Behaviour) (queue : List Behaviour) :
    Network :=
  n.setRoute uri ⟨(n.route uri).queue ++ queue, fallback⟩

end Network

end RpcPool

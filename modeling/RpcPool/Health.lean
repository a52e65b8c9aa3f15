import RpcPool.Health.Window
import RpcPool.Probe

/-!
# Observed health

What probes have shown about a connection. Health starts unprobed and changes only by `Health.observe`,
so it is always the fold of the outcomes seen so far.
-/

namespace RpcPool

/-- A yes-or-no observation that may not have been made yet. -/
inductive Observation
  | unknown
  | yes
  | no
  deriving DecidableEq, Repr, Inhabited

namespace Observation

def ofOption : Option Bool → Observation
  | none => unknown
  | some true => yes
  | some false => no

def toOption : Observation → Option Bool
  | unknown => none
  | yes => some true
  | no => some false

def isYes (o : Observation) : Bool := o == yes

/-- The name under which an observation is stored. -/
def name : Observation → String
  | unknown => "Unknown"
  | yes => "Yes"
  | no => "No"

/-- The observations, in the order in which their names are listed to a reader. -/
def all : List Observation := [unknown, yes, no]

@[simp] theorem ofOption_toOption (o : Observation) : ofOption o.toOption = o := by
  cases o <;> rfl

@[simp] theorem toOption_ofOption (o : Option Bool) : (ofOption o).toOption = o := by
  rcases o with _ | _ | _ <;> rfl

end Observation

/-- The observed health of one connection. -/
structure Health where
  online : Observation
  authenticated : Observation
  /-- The time of the last answer in milliseconds, absent once a probe has failed. -/
  lastResponse : Option UInt64
  window : Window
  deriving DecidableEq, Repr, Inhabited

namespace Health

/-- The health of a connection that was never probed. -/
def unprobed : Health := ⟨.unknown, .unknown, none, .empty⟩

/-- Connected means online and not known to have rejected the credentials. -/
def connected (h : Health) : Bool := h.online == .yes && h.authenticated != .no

/-- What one probe outcome does to a health. An answer counts as online even if the credentials were
rejected, but only an authenticated answer leaves a latency in the window. -/
def observe (h : Health) : Probe.Outcome → Health
  | .ok r =>
    let ms := r.elapsed.toMillis
    if r.authenticated then ⟨.yes, .yes, some ms, h.window.record (some ms)⟩
    else ⟨.yes, .no, some ms, h.window.record none⟩
  | .error _ => ⟨.no, .unknown, none, h.window.record none⟩

/-- The two observations whose change listeners hear about. -/
def status (h : Health) : Observation × Observation := (h.online, h.authenticated)

end Health

end RpcPool

import RpcPool.Endpoint

/-!
# Polling

What a poll loop does in each iteration, and when its iterations start.
-/

namespace RpcPool

/-- Which connections a poll iteration checks. -/
inductive PollType
  /-- Groups in order, up to the first with a connected member. -/
  | prioritized
  /-- Only the current connection, failing over when it drops. -/
  | current
  /-- Every registered connection. -/
  | all
  deriving DecidableEq, Repr, Inhabited

namespace PollType

/-- The name under which a poll type is written. -/
def name : PollType → String
  | prioritized => "prioritized"
  | current => "current"
  | all => "all"

/-- The poll types in the order in which their names are listed to a reader. -/
def choices : List PollType := [prioritized, current, all]

/-- The poll type of a name. -/
def ofName? (s : String) : Option PollType := choices.find? fun t => t.name == s

end PollType

def defaultPollPeriodMs : UInt64 := 20000

/-- The settings of one poll loop. -/
structure PollOptions where
  periodMs : UInt64 := defaultPollPeriodMs
  /-- Overrides the pool's auto-switch in the iterations of this loop. -/
  autoSwitch : Option Bool := none
  /-- Overrides the pool's default timeout in the iterations of this loop. -/
  timeoutMs : Option UInt32 := none
  pollType : PollType := .prioritized
  /-- Connections that batch checks leave out. -/
  excluded : List Connection := []
  deriving DecidableEq, Repr

/-! ## The times of iterations -/

/-- The time between two iterations, in milliseconds; a period of zero counts as one. -/
def PollOptions.period (o : PollOptions) : Nat := max o.periodMs.toNat 1

/-- How late an iteration may start and still count as on time. -/
def tickTolerance : Nat := 5

/-- When the next iteration is due, given that the one due at `due` starts at `now`. An iteration on time
keeps the rhythm; a late one moves it, so that missed iterations are not caught up on. -/
def nextTick (period due now : Nat) : Nat :=
  if due + tickTolerance < now then now + period else due + period

end RpcPool

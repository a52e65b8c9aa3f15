/-!
# Latency windows

A connection keeps the samples of its last few probes, newest first: the latency of a probe that was
answered and authenticated, or a gap for any other. The window is what keeps the pool from flapping: one
connection is preferred to another of equal priority only if it was faster in every slot of a full window.
-/

namespace RpcPool

/-- The samples of the most recent probes, newest first. A gap is a probe that gave no latency. -/
structure Window where
  samples : List (Option UInt64)
  deriving DecidableEq, Repr, Inhabited

namespace Window

/-- How many samples a window holds, and how many in a row must be better before a switch. -/
def capacity : Nat := 3

/-- The window of a connection that was never probed. -/
def empty : Window := ⟨[]⟩

/-- Puts the newest sample in front and drops what no longer fits. -/
def record (w : Window) (sample : Option UInt64) : Window :=
  ⟨(sample :: w.samples).take capacity⟩

/-- The number of samples held. -/
def size (w : Window) : Nat := w.samples.length

def isEmpty (w : Window) : Bool := w.samples.isEmpty

/-- One slot is better than the other if both hold a latency and the first is the smaller. -/
def slotBetter : Option UInt64 → Option UInt64 → Bool
  | some mine, some theirs => mine < theirs
  | _, _ => false

/-- Both windows are full, and in every slot the first holds the smaller latency. -/
def consistentlyBetter (mine theirs : Window) : Bool :=
  capacity ≤ mine.size && capacity ≤ theirs.size &&
    ((mine.samples.zip theirs.samples).take capacity).all fun slot => slotBetter slot.1 slot.2

theorem size_record_le (w : Window) (s : Option UInt64) : (w.record s).size ≤ capacity := by
  simp only [record, size, List.length_take]
  omega

end Window

end RpcPool

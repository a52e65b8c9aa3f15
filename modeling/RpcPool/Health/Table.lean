import RpcPool.Endpoint
import RpcPool.Health

/-!
# Health by instance

The health of every connection instance, registered or not. An instance that no probe has reported on is
unprobed, so every instance has a health.
-/

namespace RpcPool

structure Health.Table where
  entries : List (InstanceId × Health)
  deriving DecidableEq, Repr

namespace Health.Table

def empty : Health.Table := ⟨[]⟩

/-- The health of an instance. -/
def get (t : Health.Table) (id : InstanceId) : Health :=
  (t.entries.lookup id).getD .unprobed

/-- Gives an instance a new health. -/
def set (t : Health.Table) (id : InstanceId) (h : Health) : Health.Table :=
  ⟨(id, h) :: t.entries.filter fun e => e.1 != id⟩

@[simp] theorem get_empty (id : InstanceId) : empty.get id = .unprobed := rfl

@[simp] theorem get_set_self (t : Health.Table) (id : InstanceId) (h : Health) :
    (t.set id h).get id = h := by
  simp [get, set]

theorem lookup_filter_ne (entries : List (InstanceId × Health)) {id j : InstanceId} (hj : j ≠ id) :
    (entries.filter fun e => e.1 != id).lookup j = entries.lookup j := by
  induction entries with
  | nil => rfl
  | cons e rest ih =>
    obtain ⟨k, h⟩ := e
    by_cases hk : k = id
    · subst hk
      have : (j == k) = false := by simpa using hj
      simp [List.lookup_cons, ih, this]
    · have hf : ((k != id) = true) := by simpa using hk
      simp only [List.filter_cons, hf, if_true, List.lookup_cons, ih]

theorem get_set_ne (t : Health.Table) (h : Health) {id j : InstanceId} (hj : j ≠ id) :
    (t.set id h).get j = t.get j := by
  have hb : (j == id) = false := by simpa using hj
  simp [get, set, List.lookup_cons, hb, lookup_filter_ne _ hj]

end Health.Table

end RpcPool

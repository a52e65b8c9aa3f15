import Mathlib.Data.List.Induction
import RpcPool.Health.Table

/-!
# Observed health

Health changes only by the outcomes of probes. What holds of every health that such outcomes have
led to is stated here; a connection's health in a run is always of this kind.

Results:
1. `Observed.online_iff`: there is a last response time exactly when the connection is online.
2. `Observed.lastResponse_of_connected`: a connected connection always has one, so ranking by
   latency passes over no connected connection.
3. `Window.samples_ofSamples`, `Window.consistentlyBetter_iff`: what a window holds after any samples,
   and how two windows compare, slot by slot.
4. `better_last_three`: of two connections that were probed equally often, one is consistently
   better only if it was faster in each of the last three probes.
-/

namespace RpcPool

/-! ## Windows -/

namespace Window

/-- The window that some samples, oldest first, have led to. -/
def ofSamples (samples : List (Option UInt64)) : Window := samples.foldl record empty

/-- It holds the newest of them, as many as it has room for. -/
theorem samples_ofSamples (samples : List (Option UInt64)) :
    (ofSamples samples).samples = samples.reverse.take capacity := by
  induction samples using List.reverseRecOn with
  | nil => rfl
  | append_singleton init sample ih =>
    have hrecord : ofSamples (init ++ [sample]) = (ofSamples init).record sample := by
      rw [ofSamples, List.foldl_append]
      rfl
    rw [hrecord, record, ih, List.reverse_append]
    simp [capacity, List.take_take]

theorem slotBetter_iff {p q : Option UInt64} :
    slotBetter p q = true ↔ ∃ a x, p = some a ∧ q = some x ∧ a < x := by
  cases p with
  | none => simp [slotBetter]
  | some a =>
    cases q with
    | none => simp [slotBetter]
    | some x => simp [slotBetter]

/-- A window is consistently better than another if in each of the first three slots both hold a
latency and the first one holds the smaller. -/
theorem consistentlyBetter_iff {mine theirs : Window} :
    mine.consistentlyBetter theirs = true ↔ ∀ i < capacity, ∃ x y : UInt64,
      mine.samples[i]? = some (some x) ∧ theirs.samples[i]? = some (some y) ∧ x < y := by
  unfold consistentlyBetter size
  simp only [Bool.and_eq_true, decide_eq_true_eq]
  constructor
  · rintro ⟨⟨hmine, htheirs⟩, hslots⟩ i hi
    have hm : i < mine.samples.length := Nat.lt_of_lt_of_le hi hmine
    have ht : i < theirs.samples.length := Nat.lt_of_lt_of_le hi htheirs
    have hslot : (mine.samples[i], theirs.samples[i]) ∈
        (mine.samples.zip theirs.samples).take capacity := by
      refine List.mem_iff_getElem?.mpr ⟨i, ?_⟩
      rw [List.getElem?_take_of_lt hi, List.getElem?_zip_eq_some]
      exact ⟨List.getElem?_eq_getElem hm, List.getElem?_eq_getElem ht⟩
    obtain ⟨x, y, hx, hy, hlt⟩ := slotBetter_iff.mp (List.all_eq_true.mp hslots _ hslot)
    exact ⟨x, y, (List.getElem?_eq_getElem hm).trans (congrArg some hx),
      (List.getElem?_eq_getElem ht).trans (congrArg some hy), hlt⟩
  · intro h
    -- the last of the three slots is filled, so both windows are full
    obtain ⟨_, _, hmine, htheirs, _⟩ := h 2 (by decide)
    refine ⟨⟨(List.getElem?_eq_some_iff.mp hmine).1, (List.getElem?_eq_some_iff.mp htheirs).1⟩,
      List.all_eq_true.mpr fun slot hslot => ?_⟩
    obtain ⟨i, hi⟩ := List.mem_iff_getElem?.mp hslot
    rw [List.getElem?_take] at hi
    split at hi
    · next hcapacity =>
      obtain ⟨hm, ht⟩ := List.getElem?_zip_eq_some.mp hi
      obtain ⟨x, y, hx, hy, hlt⟩ := h i hcapacity
      exact slotBetter_iff.mpr ⟨x, y, Option.some.inj (hm.symm.trans hx),
        Option.some.inj (ht.symm.trans hy), hlt⟩
    · exact absurd hi (by simp)

end Window

namespace Health

/-- Some outcomes of probes have led to this health. -/
def Observed (h : Health) : Prop :=
  ∃ outcomes : List Probe.Outcome, h = outcomes.foldl observe unprobed

theorem Observed.unprobed : Observed .unprobed := ⟨[], rfl⟩

theorem Observed.observe {h : Health} (ho : h.Observed) (outcome : Probe.Outcome) :
    (h.observe outcome).Observed := by
  obtain ⟨outcomes, rfl⟩ := ho
  exact ⟨outcomes ++ [outcome], by rw [List.foldl_append]; rfl⟩

/-- Either nothing was ever probed, or there is a last outcome. -/
theorem Observed.last {h : Health} (ho : h.Observed) :
    h = .unprobed ∨ ∃ before outcome, h = Health.observe before outcome := by
  obtain ⟨outcomes, rfl⟩ := ho
  rcases List.eq_nil_or_concat outcomes with rfl | ⟨init, outcome, rfl⟩
  · exact Or.inl rfl
  · exact Or.inr ⟨init.foldl Health.observe .unprobed, outcome, by
      rw [List.concat_eq_append, List.foldl_append]; rfl⟩

theorem Observed.online_iff {h : Health} (ho : h.Observed) :
    h.online = .yes ↔ h.lastResponse.isSome = true := by
  rcases ho.last with rfl | ⟨before, outcome, rfl⟩
  · decide
  · cases outcome with
    | error f => simp [Health.observe]
    | ok r => cases ha : r.authenticated <;> simp [Health.observe, ha]

theorem Observed.lastResponse_of_connected {h : Health} (ho : h.Observed)
    (hc : h.connected = true) : h.lastResponse.isSome = true := by
  have online : h.online = .yes := by
    simp only [Health.connected, Bool.and_eq_true, beq_iff_eq] at hc
    exact hc.1
  exact ho.online_iff.mp online

/-! ## The last probes -/

/-- What an outcome leaves in the window. -/
def sample : Probe.Outcome → Option UInt64
  | .ok r => if r.authenticated then some r.elapsed.toMillis else none
  | .error _ => none

theorem window_observe (h : Health) (outcome : Probe.Outcome) :
    (h.observe outcome).window = h.window.record (sample outcome) := by
  cases outcome with
  | error f => rfl
  | ok r => cases ha : r.authenticated <;> simp [Health.observe, sample, ha]

/-- The window holds the samples of the last probes. -/
theorem window_foldl (outcomes : List Probe.Outcome) :
    (outcomes.foldl Health.observe .unprobed).window = .ofSamples (outcomes.map sample) := by
  induction outcomes using List.reverseRecOn with
  | nil => rfl
  | append_singleton init outcome ih =>
    rw [List.foldl_append, List.map_append, Window.ofSamples, List.foldl_append]
    show (Health.observe _ outcome).window = _
    rw [window_observe, ih]
    rfl

theorem samples_foldl (outcomes : List Probe.Outcome) :
    (outcomes.foldl Health.observe .unprobed).window.samples =
      (outcomes.map sample).reverse.take Window.capacity := by
  rw [window_foldl, Window.samples_ofSamples]

theorem sample_eq_some {outcome : Probe.Outcome} {ms : UInt64} (h : sample outcome = some ms) :
    ∃ r, outcome = .ok r ∧ r.authenticated = true ∧ r.elapsed.toMillis = ms := by
  cases outcome with
  | error f => exact absurd h (by simp [sample])
  | ok r =>
    rw [sample] at h
    split at h
    · next hr => exact ⟨r, rfl, hr, Option.some.inj h⟩
    · exact absurd h (by simp)

/-- Of the last elements the newest stands first. -/
theorem getElem?_last {α : Type} {l : List α} {k n : Nat} (hk : k < l.length)
    (hlate : l.length ≤ k + n) : (l.reverse.take n)[l.length - 1 - k]? = l[k]? := by
  have hlast : l.length - 1 - k < n := by omega
  have hrev : l.length - 1 - (l.length - 1 - k) = k := by omega
  rw [List.getElem?_take_of_lt hlast, List.getElem?_reverse (by omega), hrev]

/-- Of two connections that were probed equally often, one is consistently better only if there were
three probes, and it was faster in each of the last three. -/
theorem better_last_three {xs ys : List Probe.Outcome} (hlength : xs.length = ys.length)
    (h : (xs.foldl Health.observe .unprobed).window.consistentlyBetter
      (ys.foldl Health.observe .unprobed).window = true) :
    3 ≤ xs.length ∧ ∀ k, k < xs.length → xs.length ≤ k + 3 → ∃ x y, xs[k]? = some (.ok x) ∧
      ys[k]? = some (.ok y) ∧ x.authenticated = true ∧ y.authenticated = true ∧
        x.elapsed.toMillis < y.elapsed.toMillis := by
  have hslots := Window.consistentlyBetter_iff.mp h
  simp only [samples_foldl] at hslots
  have hthree : 3 ≤ xs.length := by
    obtain ⟨_, _, hlast, _⟩ := hslots 2 (by decide)
    have hlast := (List.getElem?_eq_some_iff.mp hlast).1
    simp only [List.length_take, List.length_reverse, List.length_map] at hlast
    omega
  refine ⟨hthree, fun k hk hlate => ?_⟩
  have hslot : xs.length - 1 - k < Window.capacity := by
    unfold Window.capacity
    omega
  obtain ⟨a, b, hmine, htheirs, hlt⟩ := hslots (xs.length - 1 - k) hslot
  -- the newest sample stands first
  have hlast := getElem?_last (l := xs.map sample) (n := Window.capacity) (by simpa using hk)
    (by simpa [Window.capacity] using hlate)
  have hlast' := getElem?_last (l := ys.map sample) (n := Window.capacity)
    (by simpa [← hlength] using hk) (by simpa [Window.capacity, ← hlength] using hlate)
  rw [List.length_map, hmine] at hlast
  rw [List.length_map, ← hlength, htheirs] at hlast'
  rw [List.getElem?_map] at hlast hlast'
  obtain ⟨mine, hx, hmine⟩ := Option.map_eq_some_iff.mp hlast.symm
  obtain ⟨theirs, hy, htheirs⟩ := Option.map_eq_some_iff.mp hlast'.symm
  obtain ⟨x, rfl, hauth, rfl⟩ := sample_eq_some hmine
  obtain ⟨y, rfl, hauth', rfl⟩ := sample_eq_some htheirs
  exact ⟨x, y, hx, hy, hauth, hauth', hlt⟩

namespace Table

/-- Every health of the table comes from probes. -/
def Observed (t : Table) : Prop := ∀ id, (t.get id).Observed

theorem Observed.empty : Observed .empty := fun _ => Health.Observed.unprobed

theorem Observed.set {t : Table} (ht : t.Observed) {id : InstanceId} {h : Health}
    (ho : h.Observed) : (t.set id h).Observed := by
  intro j
  by_cases hj : j = id
  · rw [hj, get_set_self]
    exact ho
  · rw [get_set_ne t h hj]
    exact ht j

end Table

end Health

end RpcPool

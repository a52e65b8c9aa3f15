import RpcPool.Pool
import RpcPool.Proofs.Health
import RpcPool.Proofs.Registry
import RpcPool.Proofs.Selection

/-!
# Automatic moves of the current pointer

A pool moves its current pointer on its own in three ways: it leaves a lost connection, it picks one
when none is connected, and it improves on the current one. What the three have in common is stated
once.

Results:
1. `Automatic.moved`: whatever the way, the list of connections stays as it is, and the new current
   connection is registered and connected at that moment.
2. `Automatic.better`: unless a lost connection is left, a connected current connection gives way
   only to a better one.
3. `settle_leads`, `settle_idle`: the two moves at the end of a check make a connection of the best
   group current if any registered connection is connected, and do nothing if none is.
-/

namespace RpcPool

namespace Pool

variable {p q : Pool} {w : Switch} {c d watched target : Connection} {K : Connection → Prop}

/-- A pool whose registry is well formed, whose instances are told apart by their numbers, and whose
health comes from probes. -/
structure WellFormed (p : Pool) : Prop where
  registry : p.registry.WellFormed
  apart : ∀ c ∈ p.registry.connections, ∀ d ∈ p.registry.connections, c.id = d.id → c = d
  health : p.health.Observed

theorem WellFormed.timed (h : p.WellFormed) (cs : List Connection) :
    Selection.Timed p.health.get cs :=
  fun c _ up => (h.health c.id).lastResponse_of_connected up

theorem isUp_congr (p : Pool) (h : c.id = d.id) : p.isUp c = p.isUp d := by
  unfold isUp healthOf
  rw [h]

/-! ## One move -/

/-- The three ways in which a pool moves its current pointer on its own. The connections at hand are
those that a check has just probed. -/
inductive Automatic (K : Connection → Prop) (p : Pool) : Pool → Switch → Prop
  | failover {watched target : Connection} {q : Pool} {w : Switch} :
      K target → p.isUp target = true → p.failover watched target = (q, some w) → Automatic K p q w
  | reconnect {target : Connection} {q : Pool} {w : Switch} :
      K target → p.isUp target = true → p.reconnect target = (q, some w) → Automatic K p q w
  | improve {q : Pool} {w : Switch} : p.improve = (q, some w) → Automatic K p q w

/-- A move of the current pointer to a connection that is registered and connected, and to nothing
else in the pool. -/
structure Moved (p q : Pool) (w : Switch) : Prop where
  source : w.source = p.registry.current
  target_new : p.registry.isCurrent w.target = false
  target_registered : p.registry.contains w.target = true
  target_up : p.isUp w.target = true
  pool : q = { p with registry := { p.registry with current := some w.target } }

theorem healthOf_observe_self (p : Pool) (outcome : Probe.Outcome) {c d : Connection}
    (h : c.id = d.id) : (p.observe d outcome).healthOf c = (p.healthOf c).observe outcome := by
  unfold healthOf observe
  rw [h]
  exact Health.Table.get_set_self _ _ _

theorem healthOf_observe_ne (p : Pool) (outcome : Probe.Outcome) {c d : Connection}
    (h : c.id ≠ d.id) : (p.observe d outcome).healthOf c = p.healthOf c :=
  Health.Table.get_set_ne _ _ h

/-- An outcome that would change nothing for listeners leaves every observed state as it is. -/
theorem status_observe_unchanged {p : Pool} {d : Connection} {outcome : Probe.Outcome}
    (h : p.wouldChange d outcome = false) (c : Connection) :
    ((p.observe d outcome).healthOf c).status = (p.healthOf c).status := by
  by_cases hid : c.id = d.id
  · have hsame : (p.healthOf d).status = ((p.healthOf d).observe outcome).status := by
      simpa [wouldChange] using h
    have hget : p.healthOf c = p.healthOf d := by
      unfold healthOf
      rw [hid]
    rw [healthOf_observe_self p outcome hid, hget, hsame]
  · rw [healthOf_observe_ne p outcome hid]

theorem switch_eq (p : Pool) (target : Connection) (reason : SwitchReason) :
    (p.registry.isCurrent target = false ∧ p.registry.contains target = true ∧
        p.switch target reason = ({ p with registry := { p.registry with current := some target } },
          some ⟨p.registry.current, target, reason⟩)) ∨
      ((p.registry.isCurrent target = true ∨ p.registry.contains target = false) ∧
        p.switch target reason = (p, none)) := by
  unfold switch
  rcases p.registry.switchTo_eq target with ⟨hcur, hin, heq⟩ | ⟨hno, heq⟩
  · exact Or.inl ⟨hcur, hin, by rw [heq]⟩
  · exact Or.inr ⟨hno, by rw [heq]⟩

theorem moved_of_switch {reason : SwitchReason} (up : p.isUp target = true)
    (h : p.switch target reason = (q, some w)) :
    Moved p q w ∧ w.target = target ∧ w.reason = reason := by
  rcases p.switch_eq target reason with ⟨hcur, hin, heq⟩ | ⟨_, heq⟩
  · rw [heq] at h
    simp only [Prod.mk.injEq, Option.some.injEq] at h
    obtain ⟨rfl, rfl⟩ := h
    exact ⟨⟨rfl, hcur, hin, up, rfl⟩, rfl, rfl⟩
  · rw [heq] at h
    simp at h

theorem switch_none {reason : SwitchReason} (h : (p.switch target reason).2 = none) :
    (p.switch target reason).1 = p := by
  rcases p.switch_eq target reason with ⟨_, _, heq⟩ | ⟨_, heq⟩
  · rw [heq] at h
    exact absurd h (by simp)
  · rw [heq]

theorem failover_some (h : p.failover watched target = (q, some w)) :
    p.registry.isCurrent watched = true ∧ p.switch target .lost = (q, some w) := by
  unfold failover at h
  split at h
  · next hcur => exact ⟨hcur, h⟩
  · simp at h

/-- A lost connection that is still current gives way to another registered one. -/
theorem failover_eq (hcurrent : p.registry.current = some watched)
    (hmem : target ∈ p.registry.connections) (hne : target.id ≠ watched.id) :
    p.failover watched target =
      ({ p with registry := { p.registry with current := some target } },
        some ⟨some watched, target, .lost⟩) := by
  have hwatched : p.registry.isCurrent watched = true :=
    Registry.isCurrent_iff.mpr ⟨watched, hcurrent, rfl⟩
  unfold failover
  rw [if_pos hwatched]
  rcases p.switch_eq target .lost with ⟨_, _, heq⟩ | ⟨hno | hno, _⟩
  · rw [heq, hcurrent]
  · obtain ⟨c, hc, hid⟩ := Registry.isCurrent_iff.mp hno
    cases hcurrent.symm.trans hc
    exact absurd hid.symm hne
  · rw [Registry.contains_iff.mpr ⟨target, hmem, rfl⟩] at hno
    exact absurd hno (by simp)

theorem reconnect_some (h : p.reconnect target = (q, some w)) :
    p.connected = false ∧ p.switch target .disconnected = (q, some w) := by
  unfold reconnect at h
  split at h
  · simp at h
  · next hdown => exact ⟨by simpa using hdown, h⟩

theorem reconnect_none (h : (p.reconnect target).2 = none) : (p.reconnect target).1 = p := by
  unfold reconnect at h ⊢
  split
  · rfl
  · next hdown =>
    rw [if_neg hdown] at h
    exact switch_none h

theorem improve_none (h : p.improve.2 = none) : p.improve.1 = p := by
  unfold improve at h ⊢
  split
  · next d hd =>
    simp only [hd] at h
    exact switch_none h
  · rfl

theorem improve_some (h : p.improve = (q, some w)) :
    ∃ d, Selection.replacement p.health.get p.registry.connections p.registry.current = some d ∧
      p.switch d .better = (q, some w) := by
  unfold improve at h
  split at h
  · next d hd => exact ⟨d, hd, h⟩
  · simp at h

theorem switch_reason {reason : SwitchReason} (h : p.switch target reason = (q, some w)) :
    w.reason = reason := by
  rcases p.switch_eq target reason with ⟨_, _, heq⟩ | ⟨_, heq⟩
  · cases heq.symm.trans h
    rfl
  · cases heq.symm.trans h

theorem improve_reason (h : p.improve = (q, some w)) : w.reason = .better := by
  obtain ⟨d, _, hswitch⟩ := improve_some h
  exact switch_reason hswitch

theorem Automatic.moved (h : Automatic K p q w) : Moved p q w := by
  cases h with
  | failover _ up h => exact (moved_of_switch up (failover_some h).2).1
  | reconnect _ up h => exact (moved_of_switch up (reconnect_some h).2).1
  | improve h =>
    obtain ⟨d, hd, hswitch⟩ := improve_some h
    have hup := (Selection.candidate_mem (Selection.replacement_candidate hd)).2
    exact (moved_of_switch hup hswitch).1

/-- An automatic move goes to a connection at hand or to a registered one. -/
theorem Automatic.target_known (h : Automatic K p q w) :
    K w.target ∨ w.target ∈ p.registry.connections := by
  cases h with
  | failover hk up h => exact Or.inl ((moved_of_switch up (failover_some h).2).2.1 ▸ hk)
  | reconnect hk up h => exact Or.inl ((moved_of_switch up (reconnect_some h).2).2.1 ▸ hk)
  | improve h =>
    obtain ⟨d, hd, hswitch⟩ := improve_some h
    obtain ⟨hmem, up⟩ := Selection.candidate_mem (Selection.replacement_candidate hd)
    exact Or.inr ((moved_of_switch up hswitch).2.1 ▸ hmem)

/-- Unless it leaves a lost connection, an automatic move leaves a connected one only for its
replacement. -/
theorem Automatic.replaces (h : Automatic K p q w) (reason : w.reason ≠ .lost)
    (hc : w.source = some c) (up : p.isUp c = true) :
    p.registry.current = some c ∧
      Selection.replacement p.health.get p.registry.connections (some c) = some w.target := by
  rw [h.moved.source] at hc
  refine ⟨hc, ?_⟩
  cases h with
  | failover _ hup h => exact absurd (moved_of_switch hup (failover_some h).2).2.2 reason
  | reconnect _ _ h =>
    obtain ⟨hdown, _⟩ := reconnect_some h
    simp [connected, hc, up] at hdown
  | improve h =>
    obtain ⟨d, hd, hswitch⟩ := improve_some h
    have hup := (Selection.candidate_mem (Selection.replacement_candidate hd)).2
    rw [(moved_of_switch hup hswitch).2.1, ← hc]
    exact hd

/-- It leaves it only for a better one. -/
theorem Automatic.better (wf : p.WellFormed) (h : Automatic K p q w) (reason : w.reason ≠ .lost)
    (hc : w.source = some c) (up : p.isUp c = true) : Selection.Better p.health.get w.target c := by
  obtain ⟨hcurrent, hreplaces⟩ := h.replaces reason hc up
  exact Selection.replacement_better (wf.timed _) (wf.registry.current_mem c hcurrent) up hreplaces

theorem WellFormed.moved (wf : p.WellFormed) (h : Moved p q w)
    (apart : ∀ k ∈ p.registry.connections, k.id = w.target.id → k = w.target) : q.WellFormed := by
  obtain ⟨k, hk, hid⟩ := Registry.contains_iff.mp h.target_registered
  have hmem : w.target ∈ p.registry.connections := apart k hk hid ▸ hk
  rw [h.pool]
  exact ⟨⟨wf.registry.distinct, wf.registry.named, fun c hc => by cases hc; exact hmem,
    wf.registry.timeout_ne⟩, wf.apart, wf.health⟩

theorem WellFormed.observe (wf : p.WellFormed) (c : Connection) (outcome : Probe.Outcome) :
    (p.observe c outcome).WellFormed :=
  ⟨wf.registry, wf.apart, wf.health.set ((wf.health c.id).observe outcome)⟩

/-! ## The moves at the end of a check -/

/-- The first connected connection of a batch is picked if none is connected, then the current
connection is improved on. -/
def settle (p : Pool) (first : Option Connection) : Pool :=
  (match first with
    | some c => (p.reconnect c).1
    | none => p).improve.1

/-- The current connection is registered and connected, and no connected registered connection has a
larger priority. -/
def Leads (p : Pool) : Prop :=
  ∃ k ∈ p.registry.connections, p.registry.current = some k ∧ p.isUp k = true ∧
    ∀ c ∈ p.registry.connections, p.isUp c = true → c.priority ≤ k.priority

theorem reconnect_eq (p : Pool) (target : Connection) :
    p.reconnect target = (p, none) ∨
      (p.registry.contains target = true ∧ (p.reconnect target).1 =
        { p with registry := { p.registry with current := some target } }) := by
  unfold reconnect
  split
  · exact Or.inl rfl
  · rcases p.switch_eq target .disconnected with ⟨_, hin, heq⟩ | ⟨_, heq⟩
    · exact Or.inr ⟨hin, by rw [heq]⟩
    · exact Or.inl heq

theorem improve_eq (p : Pool) :
    ∃ current, p.improve.1 = { p with registry := { p.registry with current := current } } := by
  unfold improve
  split
  · next d _ =>
    rcases p.switch_eq d .better with ⟨_, _, heq⟩ | ⟨_, heq⟩
    · exact ⟨some d, by rw [heq]⟩
    · exact ⟨p.registry.current, by rw [heq]⟩
  · exact ⟨p.registry.current, rfl⟩

/-- The moves at the end of a check concern the current connection alone. -/
theorem settle_eq (p : Pool) (first : Option Connection) :
    ∃ current, p.settle first = { p with registry := { p.registry with current := current } } := by
  unfold settle
  cases first with
  | none => exact p.improve_eq
  | some c =>
    rcases p.reconnect_eq c with heq | ⟨_, heq⟩
    · simp only [heq]
      exact p.improve_eq
    · simp only [heq]
      exact improve_eq { p with registry := { p.registry with current := some c } }

theorem improve_leads (wf : p.WellFormed) (hc : c ∈ p.registry.connections) (up : p.isUp c = true) :
    p.improve.1.Leads := by
  have timed := wf.timed p.registry.connections
  unfold improve
  split
  · next d hd =>
    have hcand := Selection.replacement_candidate hd
    obtain ⟨hmem, hup⟩ := Selection.candidate_mem hcand
    have hmax := fun k hk hkup => Selection.candidate_max (c := k) timed hcand hk hkup
    rcases p.switch_eq d .better with ⟨_, _, heq⟩ | ⟨hno, heq⟩
    · rw [heq]
      exact ⟨d, hmem, rfl, hup, hmax⟩
    · -- the replacement is registered, so it is already current
      have hcur : p.registry.isCurrent d = true := by
        rcases hno with hcur | hout
        · exact hcur
        · rw [Registry.contains_iff.mpr ⟨d, hmem, rfl⟩] at hout
          exact absurd hout (by simp)
      obtain ⟨k, hk, hid⟩ := Registry.isCurrent_iff.mp hcur
      have hkd : k = d := wf.apart k (wf.registry.current_mem k hk) d hmem hid
      rw [heq]
      exact ⟨d, hmem, hkd ▸ hk, hup, hmax⟩
  · next hnone =>
    rcases Selection.replacement_eq_none hnone with hcand | ⟨d, k, hcand, hk, hkup, hstay⟩
    · have hdown := (Selection.candidate_eq_none timed).mp hcand c hc
      rw [show (p.health.get c.id).connected = true from up] at hdown
      exact absurd hdown (by simp)
    · have hmem := wf.registry.current_mem k hk
      refine ⟨k, hmem, hk, hkup, fun k' hk' hup' => ?_⟩
      have hmax := Selection.candidate_max timed hcand hk' hup'
      rcases hstay with hid | hdisp
      · rw [← wf.apart d (Selection.candidate_mem hcand).1 k hmem hid]
        exact hmax
      · simp only [Selection.displaces, Bool.or_eq_false_iff, bne_eq_false_iff_eq] at hdisp
        exact hdisp.1 ▸ hmax

/-- At the end of a check the current connection leads, if any registered connection is connected.
-/
theorem settle_leads (wf : p.WellFormed) {first : Option Connection}
    (apart : ∀ t, first = some t → ∀ k ∈ p.registry.connections, k.id = t.id → k = t)
    (hc : c ∈ p.registry.connections) (up : p.isUp c = true) : (p.settle first).Leads := by
  unfold settle
  cases first with
  | none => exact improve_leads wf hc up
  | some t =>
    rcases p.reconnect_eq t with heq | ⟨hin, heq⟩
    · simp only [heq]
      exact improve_leads wf hc up
    · obtain ⟨k, hk, hid⟩ := Registry.contains_iff.mp hin
      have hmem : t ∈ p.registry.connections := apart t rfl k hk hid ▸ hk
      simp only [heq]
      refine improve_leads ⟨⟨wf.registry.distinct, wf.registry.named, ?_, wf.registry.timeout_ne⟩,
        wf.apart, wf.health⟩ hc up
      intro d hd
      cases hd
      exact hmem

/-- At the end of a check nothing happens if no registered connection is connected. -/
theorem settle_idle (wf : p.WellFormed) {first : Option Connection}
    (hfirst : ∀ t, first = some t → p.isUp t = true)
    (down : ∀ c ∈ p.registry.connections, p.isUp c = false) : p.settle first = p := by
  have himprove : p.improve.1 = p := by
    have hcand := (Selection.candidate_eq_none (wf.timed p.registry.connections)).mpr down
    unfold improve Selection.replacement
    rw [hcand]
  unfold settle
  cases first with
  | none => exact himprove
  | some t =>
    rcases p.reconnect_eq t with heq | ⟨hin, _⟩
    · simp only [heq]
      exact himprove
    · obtain ⟨k, hk, hid⟩ := Registry.contains_iff.mp hin
      have hup := hfirst t rfl
      rw [← p.isUp_congr hid, down k hk] at hup
      exact absurd hup (by simp)

end Pool

end RpcPool

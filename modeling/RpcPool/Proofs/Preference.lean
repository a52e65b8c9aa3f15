import Mathlib.Logic.Relation
import RpcPool.Proofs.Foremost
import RpcPool.Proofs.Pool

/-!
# Preference among equals

Among connections of one priority the windows decide. Being consistently better is a strict partial
order on windows, whatever was recorded in them and however much of it is gaps, so the samples that
moved the current pointer once cannot move it back by way of others.

Results:
1. `Window.ofSamples_better_iff`: which samples make one window consistently better than another.
2. `Window.consistentlyBetter_irrefl`, `consistentlyBetter_asymm`, `consistentlyBetter_trans`: the order.
3. `HandsOver.better`: a move among equals goes to a consistently better window.
4. `preference_strict`: the order, and that no moves among equals form a cycle.
-/

namespace RpcPool

namespace Window

variable {u v w : Window}

/-! ## The samples that decide -/

/-- A window is full of latencies if these are the newest samples recorded. -/
theorem samples_eq_iff {samples : List (Option UInt64)} {a b c : UInt64} :
    (ofSamples samples).samples = [some a, some b, some c] ↔
      [c, b, a].map some <:+ samples := by
  rw [samples_ofSamples, ← List.reverse_prefix, List.prefix_iff_eq_take]
  exact eq_comm

theorem size_ofSamples_le (samples : List (Option UInt64)) : (ofSamples samples).size ≤ capacity := by
  rw [size, samples_ofSamples, List.length_take]
  exact Nat.min_le_left _ _

/-- Of two windows the first one is consistently better exactly if the newest samples of both, as many
as a window holds, are all latencies and each of the first is less than its counterpart. What was
recorded before, and how much, makes no difference. -/
theorem ofSamples_better_iff {xs ys : List (Option UInt64)} :
    (ofSamples xs).consistentlyBetter (ofSamples ys) = true ↔
      ∃ mine theirs : List UInt64, mine.length = capacity ∧ mine.map some <:+ xs ∧
        theirs.map some <:+ ys ∧ List.Forall₂ (· < ·) mine theirs := by
  rw [outruns_iff (size_ofSamples_le xs) (size_ofSamples_le ys)]
  constructor
  · rintro ⟨a, b, c, x, y, z, hmine, htheirs, hax, hby, hcz⟩
    exact ⟨[c, b, a], [z, y, x], rfl, samples_eq_iff.mp hmine, samples_eq_iff.mp htheirs,
      .cons hcz (.cons hby (.cons hax .nil))⟩
  · rintro ⟨mine, theirs, hlength, hmine, htheirs, hless⟩
    obtain ⟨c, b, a, rfl⟩ := List.length_eq_three.mp hlength
    obtain ⟨z, y, x, rfl⟩ := List.length_eq_three.mp (hless.length_eq ▸ hlength)
    obtain ⟨hcz, hby, hax, _⟩ : c < z ∧ b < y ∧ a < x ∧ True := by simpa using hless
    exact ⟨a, b, c, x, y, z, samples_eq_iff.mpr hmine, samples_eq_iff.mpr htheirs, hax, hby, hcz⟩

/-! ## The order -/

theorem consistentlyBetter_irrefl (w : Window) : w.consistentlyBetter w = false := by
  rw [Bool.eq_false_iff]
  intro h
  obtain ⟨x, y, hx, hy, hlt⟩ := consistentlyBetter_iff.mp h 0 (by decide)
  cases hx.symm.trans hy
  exact UInt64.lt_irrefl x hlt

theorem consistentlyBetter_asymm (h : v.consistentlyBetter w = true) :
    w.consistentlyBetter v = false := by
  rw [Bool.eq_false_iff]
  intro h'
  obtain ⟨x, y, hx, hy, hlt⟩ := consistentlyBetter_iff.mp h 0 (by decide)
  obtain ⟨y', x', hy', hx', hlt'⟩ := consistentlyBetter_iff.mp h' 0 (by decide)
  cases hx.symm.trans hx'
  cases hy.symm.trans hy'
  exact UInt64.lt_asymm hlt hlt'

theorem consistentlyBetter_trans (huv : u.consistentlyBetter v = true)
    (hvw : v.consistentlyBetter w = true) : u.consistentlyBetter w = true := by
  rw [consistentlyBetter_iff] at huv hvw ⊢
  intro i hi
  obtain ⟨x, y, hx, hy, hxy⟩ := huv i hi
  obtain ⟨y', z, hy', hz, hyz⟩ := hvw i hi
  -- in the slot of the middle window stands one sample
  cases hy.symm.trans hy'
  exact ⟨x, z, hx, hz, UInt64.lt_trans hxy hyz⟩

end Window

namespace Pool

variable {health : Health.Table} {c d : Connection}

/-! ## Moves among equals -/

/-- By these samples the current pointer can move on its own from one connection to another of the
same priority. The connections registered, and all else that the pool holds, may be different at each
move; only a connection that is left as lost has to be down. -/
def HandsOver (health : Health.Table) (c d : Connection) : Prop :=
  c.priority = d.priority ∧ ∃ p q w, Automatic (fun _ => True) p q w ∧ p.health = health ∧
    w.source = some c ∧ w.target = d ∧ (w.reason = .lost → p.isUp c = false)

theorem HandsOver.up (h : HandsOver health c d) : (health.get d.id).connected = true := by
  obtain ⟨_, p, q, w, hmove, rfl, _, rfl, _⟩ := h
  exact hmove.moved.target_up

/-- A connected connection gives way to an equal one only if that one was faster. -/
theorem HandsOver.better (h : HandsOver health c d) (up : (health.get c.id).connected = true) :
    (health.get d.id).window.consistentlyBetter (health.get c.id).window = true := by
  obtain ⟨heq, p, q, w, hmove, rfl, hsource, rfl, hlost⟩ := h
  have hreason : w.reason ≠ .lost := fun hw => absurd (up.symm.trans (hlost hw)) (by simp)
  obtain ⟨_, hreplaces⟩ := hmove.replaces hreason hsource up
  simpa [Selection.displaces, heq] using Selection.replacement_displaces up hreplaces

theorem up_of_handsOver (h : Relation.TransGen (HandsOver health) c d) :
    (health.get d.id).connected = true := by
  cases h with
  | single hlast => exact hlast.up
  | tail _ hlast => exact hlast.up

/-- Any number of such moves leads from a connected connection to one that was faster. -/
theorem handsOver_better (h : Relation.TransGen (HandsOver health) c d)
    (up : (health.get c.id).connected = true) :
    (health.get d.id).window.consistentlyBetter (health.get c.id).window = true := by
  induction h with
  | single hmove => exact hmove.better up
  | tail hbefore hmove ih =>
    exact Window.consistentlyBetter_trans (hmove.better (up_of_handsOver hbefore)) ih

/-- Being consistently better is a strict partial order: no window is better than itself, of two
windows one at most is better than the other, and what is better than a better one is better. So
without a new sample no connections of one priority can be gone through in a circle. -/
theorem preference_strict :
    (∀ xs ys, (Window.ofSamples xs).consistentlyBetter (.ofSamples ys) = true ↔
      ∃ mine theirs : List UInt64, mine.length = Window.capacity ∧ mine.map some <:+ xs ∧
        theirs.map some <:+ ys ∧ List.Forall₂ (· < ·) mine theirs) ∧
    (∀ w : Window, w.consistentlyBetter w = false) ∧
    (∀ v w : Window, v.consistentlyBetter w = true → w.consistentlyBetter v = false) ∧
    (∀ u v w : Window, u.consistentlyBetter v = true → v.consistentlyBetter w = true →
      u.consistentlyBetter w = true) ∧
    (∀ health c, ¬ Relation.TransGen (HandsOver health) c c) := by
  refine ⟨fun _ _ => Window.ofSamples_better_iff, Window.consistentlyBetter_irrefl,
    fun _ _ => Window.consistentlyBetter_asymm, fun _ _ _ => Window.consistentlyBetter_trans, ?_⟩
  intro health c h
  -- the circle closes with a move to `c`, which is therefore connected
  have hself := handsOver_better h (up_of_handsOver h)
  exact absurd (hself.symm.trans (Window.consistentlyBetter_irrefl _)) (by simp)

/-- A pool in which a slow connection is current and two quick ones of its priority are registered. -/
def contested : Pool where
  registry := { Registry.empty with
    connections := Selection.contenders, current := some Selection.contenders[0] }
  health := ⟨Selection.contenders.map fun c => (c.id, Selection.contending c.id)⟩

/-- The slow connection gives way to a quick one, which does not give way to it by the same samples;
and a window that started with a gap is the best of three. -/
theorem contested_not_returned :
    HandsOver contested.health Selection.contenders[0] Selection.contenders[1] ∧
      ¬ HandsOver contested.health Selection.contenders[1] Selection.contenders[0] ∧
      (Window.ofSamples [none, some 3, some 3, some 3]).consistentlyBetter
        (.ofSamples [some 9, some 9, some 9]) = true ∧
      (Window.ofSamples [some 9, some 9, some 9]).consistentlyBetter
        (.ofSamples [none, some 3, some 3, some 3]) = false := by
  obtain ⟨_, _, hasymm, htrans, hacyclic⟩ := preference_strict
  have hmove : contested.improve = (contested.improve.1,
      some ⟨some Selection.contenders[0], Selection.contenders[1], .better⟩) := by decide +kernel
  have hover : HandsOver contested.health Selection.contenders[0] Selection.contenders[1] :=
    ⟨rfl, contested, _, _, .improve hmove, rfl, rfl, rfl, fun h => absurd h (by decide)⟩
  have hbetter := htrans (.ofSamples [none, some 3, some 3, some 3])
    (.ofSamples [some 8, some 4, some 4, some 4]) (.ofSamples [some 9, some 9, some 9])
    (by decide) (by decide)
  exact ⟨hover, fun hback => hacyclic _ _ (.tail (.single hover) hback), hbetter,
    hasymm _ _ hbetter⟩

end Pool

end RpcPool

import Mathlib.Data.List.Nodup
import RpcPool.Selection

/-!
# The rules of selection

What the ranking of connections comes to, said without groups and loops.

Results:
1. `firstConnected_eq_some`, `firstConnected_eq_none`: the first connected connection of a list.
2. `candidate_mem`, `candidate_max`: the candidate of a list is a connected member, and no connected
   member has a larger priority; `candidate_eq_none`: there is none only if no member is connected.
3. `replacement_better`: a connected current connection gives way only to a better one.
-/

namespace RpcPool

namespace Selection

variable {health : InstanceId → Health} {cs : List Connection} {c d : Connection}

/-- Every connected member of a list has a latency to compete by. -/
def Timed (health : InstanceId → Health) (cs : List Connection) : Prop :=
  ∀ c ∈ cs, (health c.id).connected = true → (health c.id).lastResponse.isSome = true

/-- A connection improves on another: it has strictly higher precedence, or the same priority and a
window that is consistently better. -/
def Better (health : InstanceId → Health) (d c : Connection) : Prop :=
  c.priority < d.priority ∨
    (d.priority = c.priority ∧ (health d.id).window.consistentlyBetter (health c.id).window = true)

instance : Decidable (Better health d c) := by unfold Better; infer_instance

theorem not_better_iff :
    ¬ Better health d c ↔ d.priority < c.priority ∨
      (d.priority = c.priority ∧
        (health d.id).window.consistentlyBetter (health c.id).window = false) := by
  unfold Better
  rw [not_or, UInt32.not_lt, UInt32.le_iff_lt_or_eq]
  constructor
  · rintro ⟨hlt | heq, hslow⟩
    · exact Or.inl hlt
    · exact Or.inr ⟨heq, Bool.not_eq_true _ ▸ fun hfast => hslow ⟨heq, hfast⟩⟩
  · rintro (hlt | ⟨heq, hslow⟩)
    · exact ⟨Or.inl hlt, fun ⟨heq, _⟩ => UInt32.ne_of_lt hlt heq⟩
    · exact ⟨Or.inr heq, fun ⟨_, hfast⟩ => absurd hfast (by simp [hslow])⟩

/-! ## The first connected connection -/

theorem firstConnected_eq_some (h : firstConnected health cs = some c) :
    c ∈ cs ∧ (health c.id).connected = true :=
  ⟨List.mem_of_find?_eq_some h,
    List.find?_some (p := fun k : Connection => (health k.id).connected) h⟩

theorem firstConnected_eq_none :
    firstConnected health cs = none ↔ ∀ c ∈ cs, (health c.id).connected = false := by
  simp [firstConnected]

theorem firstConnected_isSome :
    (firstConnected health cs).isSome = cs.any fun c => (health c.id).connected := by
  rw [firstConnected, List.isSome_find?]

/-! ## Precedence -/

/-- Since `0` is the least of the numbers, precedence is their order. -/
theorem comparePriority_eq (p q : UInt32) : comparePriority p q = compare p q := by
  unfold comparePriority
  by_cases heq : p = q
  · rw [if_pos heq, heq]
    exact Std.ReflCmp.compare_self.symm
  · rw [if_neg heq]
    by_cases hp : p = 0
    · have hlt : p < q := hp ▸ UInt32.pos_iff_ne_zero.mpr fun hq => heq (hp.trans hq.symm)
      rw [if_pos hp, Std.compare_eq_lt.mpr hlt]
    · rw [if_neg hp]
      by_cases hq : q = 0
      · have hlt : q < p := hq ▸ UInt32.pos_iff_ne_zero.mpr hp
        rw [if_pos hq, Std.compare_eq_gt.mpr hlt]
      · rw [if_neg hq]

theorem comparePriority_lt {p q : UInt32} : comparePriority p q = .lt ↔ p < q := by
  rw [comparePriority_eq, Std.compare_eq_lt]

theorem comparePriority_gt {p q : UInt32} : comparePriority p q = .gt ↔ q < p := by
  rw [comparePriority_eq, Std.compare_eq_gt]

theorem comparePriority_eq_eq {p q : UInt32} : comparePriority p q = .eq ↔ p = q := by
  rw [comparePriority_eq, Std.LawfulEqCmp.compare_eq_iff_eq]

/-! ## Groups -/

theorem mem_insertPriority {p q : UInt32} {ps : List UInt32} :
    q ∈ insertPriority p ps ↔ q = p ∨ q ∈ ps := by
  induction ps with
  | nil => simp [insertPriority]
  | cons r rest ih =>
    rw [insertPriority]
    split
    · simp
    · next h => simp [comparePriority_eq_eq.mp h]
    · simp only [List.mem_cons, ih]
      exact or_left_comm

theorem pairwise_insertPriority {p : UInt32} {ps : List UInt32} (h : ps.Pairwise (· > ·)) :
    (insertPriority p ps).Pairwise (· > ·) := by
  induction ps with
  | nil => exact List.pairwise_singleton _ _
  | cons r rest ih =>
    have hr := List.pairwise_cons.mp h
    rw [insertPriority]
    split
    · next hgt =>
      have hlt : r < p := comparePriority_gt.mp hgt
      refine List.pairwise_cons.mpr ⟨fun q hq => ?_, h⟩
      rcases List.mem_cons.mp hq with rfl | hq
      · exact hlt
      · exact UInt32.lt_trans (hr.1 q hq) hlt
    · exact h
    · next hlt =>
      refine List.pairwise_cons.mpr ⟨fun q hq => ?_, ih hr.2⟩
      rcases mem_insertPriority.mp hq with rfl | hq
      · exact comparePriority_lt.mp hlt
      · exact hr.1 q hq

theorem pairwise_priorities (cs : List Connection) : (priorities cs).Pairwise (· > ·) := by
  induction cs with
  | nil => exact List.Pairwise.nil
  | cons c rest ih => exact pairwise_insertPriority ih

theorem mem_priorities {p : UInt32} : p ∈ priorities cs ↔ ∃ c ∈ cs, c.priority = p := by
  induction cs with
  | nil => simp [priorities]
  | cons c rest ih =>
    have hcons : priorities (c :: rest) = insertPriority c.priority (priorities rest) := rfl
    rw [hcons, mem_insertPriority, ih]
    simp only [List.mem_cons, exists_eq_or_imp, eq_comm (a := p)]

/-- The members of a group are members of the list. -/
theorem mem_of_mem_groups {g : List Connection} (hg : g ∈ groups cs) (hc : c ∈ g) : c ∈ cs := by
  obtain ⟨p, _, rfl⟩ := List.mem_map.mp hg
  exact (List.mem_filter.mp hc).1

/-! ## The fastest connected connection -/

theorem latency_eq_some {ms : UInt64} (h : latency health c = some ms) :
    (health c.id).connected = true := by
  unfold latency at h
  split at h
  · next hc => exact hc
  · exact absurd h (by simp)

/-- The running best is the one it started from or a connected connection of the list. -/
theorem foldl_faster_mem {best : Option (Connection × UInt64)} {ms : UInt64}
    (h : cs.foldl (faster health) best = some (d, ms)) :
    best = some (d, ms) ∨ (d ∈ cs ∧ (health d.id).connected = true) := by
  induction cs generalizing best with
  | nil => exact Or.inl h
  | cons c rest ih =>
    rcases ih h with hstep | ⟨hmem, hup⟩
    · unfold faster at hstep
      split at hstep
      · exact Or.inl hstep
      · next hms =>
        cases hstep
        exact Or.inr ⟨List.mem_cons_self, latency_eq_some hms⟩
      · next hms =>
        split at hstep
        · exact Or.inl hstep
        · cases hstep
          exact Or.inr ⟨List.mem_cons_self, latency_eq_some hms⟩
    · exact Or.inr ⟨List.mem_cons_of_mem _ hmem, hup⟩

/-- A running best is never lost, and there is one as soon as a connection has a latency. -/
theorem foldl_faster_isSome {best : Option (Connection × UInt64)}
    (h : best.isSome = true ∨ ∃ c ∈ cs, (latency health c).isSome = true) :
    (cs.foldl (faster health) best).isSome = true := by
  induction cs generalizing best with
  | nil =>
    rcases h with h | ⟨c, hc, _⟩
    · exact h
    · exact absurd hc List.not_mem_nil
  | cons c rest ih =>
    refine ih ?_
    rcases h with h | ⟨d, hd, hms⟩
    · left
      unfold faster
      split
      · exact h
      · rfl
      · split <;> rfl
    · rcases List.mem_cons.mp hd with rfl | hd
      · left
        obtain ⟨ms, hms⟩ := Option.isSome_iff_exists.mp hms
        unfold faster
        rw [hms]
        cases best with
        | none => rfl
        | some b => dsimp only; split <;> rfl
      · exact Or.inr ⟨d, hd, hms⟩

theorem fastestConnected_eq_some (h : fastestConnected health cs = some d) :
    d ∈ cs ∧ (health d.id).connected = true := by
  obtain ⟨⟨b, ms⟩, hb, rfl⟩ := Option.map_eq_some_iff.mp h
  rcases foldl_faster_mem hb with hnone | hmem
  · exact absurd hnone (by simp)
  · exact hmem

theorem fastestConnected_isSome (timed : Timed health cs) (hc : c ∈ cs)
    (up : (health c.id).connected = true) : (fastestConnected health cs).isSome = true := by
  have hms : (latency health c).isSome = true := by
    rw [latency, if_pos up]
    exact timed c hc up
  rw [fastestConnected, Option.isSome_map]
  exact foldl_faster_isSome (Or.inr ⟨c, hc, hms⟩)

/-! ## The candidate -/

theorem candidate_mem (h : candidate health cs = some d) :
    d ∈ cs ∧ (health d.id).connected = true := by
  unfold candidate at h
  obtain ⟨g, hg, hd⟩ := List.exists_of_findSome?_eq_some h
  obtain ⟨hmem, up⟩ := fastestConnected_eq_some hd
  exact ⟨mem_of_mem_groups hg hmem, up⟩

/-- The group of a connected connection has a fastest member. -/
theorem fastestConnected_group (timed : Timed health cs) (hc : c ∈ cs)
    (up : (health c.id).connected = true) :
    (fastestConnected health (cs.filter fun k => k.priority == c.priority)).isSome = true :=
  fastestConnected_isSome (fun k hk => timed k (List.mem_filter.mp hk).1)
    (List.mem_filter.mpr ⟨hc, beq_self_eq_true c.priority⟩) up

/-- No connected connection has a larger priority than the candidate. -/
theorem candidate_max (timed : Timed health cs) (h : candidate health cs = some d) (hc : c ∈ cs)
    (up : (health c.id).connected = true) : c.priority ≤ d.priority := by
  unfold candidate groups at h
  rw [List.findSome?_map, List.findSome?_eq_some_iff] at h
  obtain ⟨above, p, below, hps, hd, hnone⟩ := h
  have hp : d.priority = p := eq_of_beq (List.mem_filter.mp (fastestConnected_eq_some hd).1).2
  have hin : c.priority ∈ above ++ p :: below := hps ▸ mem_priorities.mpr ⟨c, hc, rfl⟩
  rcases List.mem_append.mp hin with habove | hrest
  · -- the group of `c` would have been the first with a connected member
    have hno := hnone c.priority habove
    have hsome := fastestConnected_group timed hc up
    simp only [Function.comp_apply] at hno
    rw [hno] at hsome
    exact absurd hsome (by simp)
  · rcases List.mem_cons.mp hrest with heq | hbelow
    · rw [hp, heq]
      exact UInt32.le_refl p
    · have sorted : (above ++ p :: below).Pairwise (· > ·) := hps ▸ pairwise_priorities cs
      have hlt := (List.pairwise_cons.mp (List.pairwise_append.mp sorted).2.1).1 _ hbelow
      rw [hp]
      exact UInt32.le_of_lt hlt

theorem candidate_eq_none (timed : Timed health cs) :
    candidate health cs = none ↔ ∀ c ∈ cs, (health c.id).connected = false := by
  constructor
  · intro h c hc
    by_contra hup
    have hsome := fastestConnected_group timed hc (by simpa using hup)
    unfold candidate groups at h
    rw [List.findSome?_map, List.findSome?_eq_none_iff] at h
    have hno := h c.priority (mem_priorities.mpr ⟨c, hc, rfl⟩)
    simp only [Function.comp_apply] at hno
    rw [hno] at hsome
    exact absurd hsome (by simp)
  · intro h
    cases hd : candidate health cs with
    | none => rfl
    | some d =>
      obtain ⟨hmem, up⟩ := candidate_mem hd
      rw [h d hmem] at up
      exact absurd up (by simp)

/-! ## The replacement of the current connection -/

theorem replacement_candidate {current : Option Connection}
    (h : replacement health cs current = some d) : candidate health cs = some d := by
  unfold replacement at h
  split at h
  · exact absurd h (by simp)
  · next hd => exact hd.trans h
  · next hd =>
    split at h
    · exact hd.trans h
    · split at h
      · exact absurd h (by simp)
      · split at h
        · exact hd.trans h
        · exact absurd h (by simp)

/-- Nothing replaces the current connection only if there is no candidate, or if the current
connection is connected and is the candidate itself or holds its ground against it. -/
theorem replacement_eq_none {current : Option Connection}
    (h : replacement health cs current = none) :
    candidate health cs = none ∨
      ∃ d c, candidate health cs = some d ∧ current = some c ∧ (health c.id).connected = true ∧
        (d.id = c.id ∨ displaces health d c = false) := by
  unfold replacement at h
  split at h
  · next hd => exact Or.inl hd
  · exact absurd h (by simp)
  · next d c hd =>
    right
    refine ⟨d, c, hd, rfl, ?_⟩
    split at h
    · exact absurd h (by simp)
    · next up =>
      refine ⟨by simpa using up, ?_⟩
      split at h
      · next hsame => exact Or.inl (by simpa [Connection.same] using hsame)
      · split at h
        · exact absurd h (by simp)
        · next hdisp => exact Or.inr (by simpa using hdisp)

theorem replacement_displaces (up : (health c.id).connected = true)
    (h : replacement health cs (some c) = some d) : displaces health d c = true := by
  have hd := replacement_candidate h
  unfold replacement at h
  rw [hd] at h
  simp only [up, Bool.not_true, Bool.false_eq_true, if_false] at h
  split at h
  · exact absurd h (by simp)
  · split at h
    · next hdisp => exact hdisp
    · exact absurd h (by simp)

/-- A connected current connection gives way only to a better one. -/
theorem replacement_better (timed : Timed health cs) (hc : c ∈ cs)
    (up : (health c.id).connected = true) (h : replacement health cs (some c) = some d) :
    Better health d c := by
  have hle : c.priority ≤ d.priority := candidate_max timed (replacement_candidate h) hc up
  have hdisp := replacement_displaces up h
  unfold displaces at hdisp
  rcases Bool.or_eq_true_iff.mp hdisp with hne | hwindow
  · left
    exact UInt32.lt_of_le_of_ne hle (fun heq => by simp [heq] at hne)
  · by_cases heq : d.priority = c.priority
    · exact Or.inr ⟨heq, hwindow⟩
    · exact Or.inl (UInt32.lt_of_le_of_ne hle (Ne.symm heq))

end Selection

end RpcPool

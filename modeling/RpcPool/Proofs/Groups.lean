import Mathlib.Data.List.Destutter
import RpcPool.Proofs.Selection

/-!
# Groups of one precedence

An unranked connection comes after every other, and of two ranked ones that of the larger priority
comes first. Since unranked is written `0`, this is the order of the numbers after all. The groups of
a list are its stable sort by precedence, cut wherever the priority changes.

Results:
1. `outranks_iff`: precedence, with its exception for `0`, is the order of the numbers.
2. `priorities_eq`: the priorities of a list are those of its members in order of precedence, with
   equal neighbours made one. Being sorted, they have no other repetitions.
3. `Sorts.unique`: a list has one stable sort only.
4. `groups_stable`: the groups in a row are the stable sort of the list, and every group is the part
   of the list that has one priority, in the order of the list.
-/

namespace RpcPool

namespace Selection

variable {cs ds es : List Connection} {p q : UInt32}

/-! ## Precedence -/

/-- A ranked priority comes before `0`, and before every smaller one. -/
def Outranks (p q : UInt32) : Prop := p ≠ 0 ∧ (q = 0 ∨ q < p)

instance : Decidable (Outranks p q) := inferInstanceAs (Decidable (p ≠ 0 ∧ (q = 0 ∨ q < p)))

theorem outranks_iff : Outranks p q ↔ q < p := by
  constructor
  · rintro ⟨hp, hq | hlt⟩
    · rw [hq]
      exact UInt32.pos_iff_ne_zero.mpr hp
    · exact hlt
  · intro hlt
    have hp : p ≠ 0 := by
      intro hzero
      rw [hzero] at hlt
      exact UInt32.not_lt_zero hlt
    exact ⟨hp, Or.inr hlt⟩

theorem not_outranks_iff : ¬ Outranks p q ↔ p ≤ q := by
  rw [outranks_iff, UInt32.not_lt]

/-- Whether one priority may stand in front of another. -/
def inOrder (p q : UInt32) : Bool := !decide (Outranks q p)

theorem inOrder_iff : inOrder p q = true ↔ q ≤ p := by
  rw [inOrder, Bool.not_eq_true', decide_eq_false_iff_not, not_outranks_iff]

theorem inOrder_trans (p q r : UInt32) (hpq : inOrder p q = true) (hqr : inOrder q r = true) :
    inOrder p r = true := by
  rw [inOrder_iff] at hpq hqr ⊢
  exact UInt32.le_trans hqr hpq

theorem inOrder_total (p q : UInt32) : (inOrder p q || inOrder q p) = true := by
  rw [Bool.or_eq_true, inOrder_iff, inOrder_iff]
  exact UInt32.le_total q p

/-! ## The priorities of a list -/

/-- Making equal neighbours one takes no element away. -/
theorem mem_destutter' {r : UInt32} {ps : List UInt32} :
    p ∈ ps.destutter' (· ≠ ·) r ↔ p = r ∨ p ∈ ps := by
  induction ps generalizing r with
  | nil => simp
  | cons s rest ih =>
    by_cases hs : r = s
    · rw [List.destutter'_cons_neg _ (not_not.mpr hs), ih, hs, List.mem_cons, ← or_assoc, or_self]
    · rw [List.destutter'_cons_pos _ hs, List.mem_cons, ih, List.mem_cons]

theorem mem_destutter {ps : List UInt32} : p ∈ ps.destutter (· ≠ ·) ↔ p ∈ ps := by
  cases ps with
  | nil => rfl
  | cons r rest => rw [List.destutter_cons', mem_destutter', List.mem_cons]

/-- In a list that does not rise, equal elements are neighbours, so that making these one leaves no
repetition. -/
theorem falling_destutter' {r : UInt32} {ps : List UInt32}
    (ordered : (r :: ps).Pairwise fun p q => q ≤ p) :
    (ps.destutter' (· ≠ ·) r).Pairwise (· > ·) := by
  induction ps generalizing r with
  | nil => exact List.pairwise_singleton _ _
  | cons s rest ih =>
    obtain ⟨hr, hrest⟩ := List.pairwise_cons.mp ordered
    by_cases hs : r = s
    · rw [List.destutter'_cons_neg _ (not_not.mpr hs), hs]
      exact ih hrest
    · rw [List.destutter'_cons_pos _ hs]
      refine List.pairwise_cons.mpr ⟨fun q hq => ?_, ih hrest⟩
      have below : s < r := UInt32.lt_of_le_of_ne (hr s List.mem_cons_self) (Ne.symm hs)
      rcases mem_destutter'.mp hq with rfl | hq
      · exact below
      · exact UInt32.lt_of_le_of_lt ((List.pairwise_cons.mp hrest).1 q hq) below

theorem falling_destutter {ps : List UInt32} (ordered : ps.Pairwise fun p q => q ≤ p) :
    (ps.destutter (· ≠ ·)).Pairwise (· > ·) := by
  cases ps with
  | nil => exact List.Pairwise.nil
  | cons r rest =>
    rw [List.destutter_cons']
    exact falling_destutter' ordered

theorem nodup_of_falling {ps : List UInt32} (falling : ps.Pairwise (· > ·)) : ps.Nodup :=
  falling.imp fun hlt => (UInt32.ne_of_lt hlt).symm

/-- Two strictly falling lists with the same elements are equal. -/
theorem eq_of_falling {ps qs : List UInt32} (hps : ps.Pairwise (· > ·)) (hqs : qs.Pairwise (· > ·))
    (same : ∀ p, p ∈ ps ↔ p ∈ qs) : ps = qs := by
  have perm : ps.Perm qs :=
    (List.perm_ext_iff_of_nodup (nodup_of_falling hps) (nodup_of_falling hqs)).mpr same
  refine List.Perm.eq_of_pairwise ?_ hps hqs perm
  intro p q _ _ hpq hqp
  exact absurd hqp (UInt32.lt_asymm hpq)

/-- The priorities of a list, by sorting. -/
theorem priorities_eq (cs : List Connection) :
    priorities cs = ((cs.map (·.priority)).mergeSort inOrder).destutter (· ≠ ·) := by
  have ordered : ((cs.map (·.priority)).mergeSort inOrder).Pairwise fun p q => q ≤ p :=
    (List.pairwise_mergeSort inOrder_trans inOrder_total _).imp inOrder_iff.mp
  refine eq_of_falling (pairwise_priorities cs) (falling_destutter ordered) fun p => ?_
  rw [mem_priorities, mem_destutter, List.mem_mergeSort, List.mem_map]

/-! ## The part of one priority -/

theorem priority_of_mem_part {c : Connection} (hc : c ∈ cs.filter fun c => c.priority == p) :
    c.priority = p :=
  eq_of_beq (List.mem_filter.mp hc).2

/-- Connections of one priority are in order of precedence, whatever their order. -/
theorem ordered_part (cs : List Connection) (p : UInt32) :
    (cs.filter fun c => c.priority == p).Pairwise fun c d => d.priority ≤ c.priority := by
  refine List.pairwise_of_forall_mem_list fun c hc d hd => ?_
  rw [priority_of_mem_part hc, priority_of_mem_part hd]
  exact UInt32.le_refl p

/-! ## Stable sorts -/

/-- A list sorts another if it is in order of precedence and the members of each priority are those
of the other list, in the same order and as often. -/
structure Sorts (cs ds : List Connection) : Prop where
  ordered : ds.Pairwise fun c d => d.priority ≤ c.priority
  stable : ∀ p, (ds.filter fun c => c.priority == p) = cs.filter fun c => c.priority == p

/-- A list is known as a collection from its parts of one priority. -/
theorem Sorts.perm (h : Sorts cs ds) : ds.Perm cs := by
  rw [List.perm_iff_count]
  intro c
  have counted : ∀ es : List Connection,
      (es.filter fun d => d.priority == c.priority).count c = es.count c :=
    fun es => List.count_filter (beq_self_eq_true c.priority)
  rw [← counted ds, h.stable, counted cs]

/-- In order of precedence nothing outranks the first member. -/
theorem priority_le_head {c d : Connection}
    (ordered : (c :: ds).Pairwise fun c d => d.priority ≤ c.priority) (hd : d ∈ c :: ds) :
    d.priority ≤ c.priority := by
  rcases List.mem_cons.mp hd with rfl | hd
  · exact UInt32.le_refl _
  · exact (List.pairwise_cons.mp ordered).1 d hd

/-- A list has one stable sort at most. -/
theorem Sorts.unique (hd : Sorts cs ds) (he : Sorts cs es) : ds = es := by
  -- on the first sort: both begin with the same member, and the rest sorts what is left of the list
  induction ds generalizing cs es with
  | nil =>
    have empty : es.Perm [] := he.perm.trans hd.perm.symm
    exact empty.eq_nil.symm
  | cons d ds ih =>
    have perm : es.Perm (d :: ds) := he.perm.trans hd.perm.symm
    cases es with
    | nil => exact absurd perm.symm.eq_nil (List.cons_ne_nil d ds)
    | cons e es =>
      have priorities : d.priority = e.priority :=
        UInt32.le_antisymm (priority_le_head he.ordered (perm.mem_iff.mpr List.mem_cons_self))
          (priority_le_head hd.ordered (perm.mem_iff.mp List.mem_cons_self))
      have parts : ∀ p, ((d :: ds).filter fun c => c.priority == p) =
          (e :: es).filter fun c => c.priority == p :=
        fun p => (hd.stable p).trans (he.stable p).symm
      have same : d = e := by
        have own := parts d.priority
        rw [List.filter_cons_of_pos (by simp), List.filter_cons_of_pos (by simp [priorities])] at own
        exact (List.cons.inj own).1
      subst same
      have rest : ds = es := by
        have left : Sorts ds ds := ⟨(List.pairwise_cons.mp hd.ordered).2, fun _ => rfl⟩
        refine ih left ⟨(List.pairwise_cons.mp he.ordered).2, fun p => ?_⟩
        have part := parts p
        simp only [List.filter_cons] at part
        split at part
        · exact (List.cons.inj part).2.symm
        · exact part.symm
      rw [rest]

/-- Sorting by merging is stable. -/
theorem sorts_mergeSort (cs : List Connection) :
    Sorts cs (cs.mergeSort fun c d => inOrder c.priority d.priority) := by
  have trans : ∀ c d e : Connection, inOrder c.priority d.priority = true →
      inOrder d.priority e.priority = true → inOrder c.priority e.priority = true :=
    fun c d e => inOrder_trans c.priority d.priority e.priority
  have total : ∀ c d : Connection,
      (inOrder c.priority d.priority || inOrder d.priority c.priority) = true :=
    fun c d => inOrder_total c.priority d.priority
  refine ⟨(List.pairwise_mergeSort trans total cs).imp inOrder_iff.mp, fun p => ?_⟩
  -- the part of one priority is in order already, so that it is kept as it is
  have part : (cs.filter fun c => c.priority == p).Pairwise
      fun c d => inOrder c.priority d.priority = true :=
    (ordered_part cs p).imp inOrder_iff.mpr
  have kept := (List.sublist_mergeSort trans total part List.filter_sublist).filter
    fun c => c.priority == p
  rw [List.filter_filter] at kept
  simp only [Bool.and_self] at kept
  exact (kept.eq_of_length ((List.mergeSort_perm cs _).filter _).length_eq.symm).symm

/-! ## The groups -/

/-- Of the groups of some priorities one has members of a given priority: that of this priority. -/
theorem filter_flatten_groups (cs : List Connection) {ps : List UInt32} (nodup : ps.Nodup) :
    ((ps.map fun q => cs.filter fun c => c.priority == q).flatten.filter fun c => c.priority == p) =
      if p ∈ ps then cs.filter fun c => c.priority == p else [] := by
  induction ps with
  | nil => rfl
  | cons q rest ih =>
    obtain ⟨hq, hrest⟩ := List.nodup_cons.mp nodup
    rw [List.map_cons, List.flatten_cons, List.filter_append, ih hrest, List.filter_filter]
    by_cases hpq : p = q
    · subst hpq
      rw [if_neg hq, if_pos List.mem_cons_self, List.append_nil]
      simp only [Bool.and_self]
    · have none : (cs.filter fun c => c.priority == p && c.priority == q) = [] := by
        rw [List.filter_eq_nil_iff]
        intro c _ both
        rw [Bool.and_eq_true] at both
        exact hpq ((eq_of_beq both.1).symm.trans (eq_of_beq both.2))
      rw [none, List.nil_append]
      simp only [List.mem_cons, hpq, false_or]

/-- The groups of a list come in strictly falling order of priority. -/
theorem groups_falling (cs : List Connection) :
    (groups cs).Pairwise fun g h => ∀ c ∈ g, ∀ d ∈ h, d.priority < c.priority := by
  refine List.pairwise_map.mpr ((pairwise_priorities cs).imp ?_)
  intro p q hlt c hc d hd
  rw [priority_of_mem_part hc, priority_of_mem_part hd]
  exact hlt

theorem sorts_groups (cs : List Connection) : Sorts cs (groups cs).flatten := by
  constructor
  · refine List.pairwise_flatten.mpr ⟨fun g hg => ?_, (groups_falling cs).imp ?_⟩
    · obtain ⟨p, _, rfl⟩ := List.mem_map.mp hg
      exact ordered_part cs p
    · intro g h hlt c hc d hd
      exact UInt32.le_of_lt (hlt c hc d hd)
  · intro p
    rw [groups, filter_flatten_groups cs (nodup_of_falling (pairwise_priorities cs))]
    split
    · rfl
    · next absent =>
      refine (List.filter_eq_nil_iff.mpr fun c hc own => ?_).symm
      exact absent (mem_priorities.mpr ⟨c, hc, eq_of_beq own⟩)

theorem mem_groups_iff {g : List Connection} :
    g ∈ groups cs ↔ g ≠ [] ∧ ∃ p, g = cs.filter fun c => c.priority == p := by
  rw [groups, List.mem_map]
  constructor
  · rintro ⟨p, hp, rfl⟩
    obtain ⟨c, hc, hcp⟩ := mem_priorities.mp hp
    exact ⟨List.ne_nil_of_mem (List.mem_filter.mpr ⟨hc, beq_iff_eq.mpr hcp⟩), p, rfl⟩
  · rintro ⟨nonempty, p, rfl⟩
    obtain ⟨c, hc⟩ := List.exists_mem_of_ne_nil _ nonempty
    obtain ⟨hmem, own⟩ := List.mem_filter.mp hc
    exact ⟨p, mem_priorities.mpr ⟨c, hmem, eq_of_beq own⟩, rfl⟩

/-- A group of unranked connections outranks nobody, so that no group comes after it. -/
theorem groups_last {g : List Connection} (hg : g ∈ groups cs) {c : Connection} (hc : c ∈ g)
    (unranked : c.priority = 0) : (groups cs).getLast? = some g := by
  obtain ⟨before, after, split⟩ := List.append_of_mem hg
  have falling := groups_falling cs
  rw [split] at falling ⊢
  cases after with
  | nil => exact List.getLast?_concat
  | cons h after =>
    have hh : h ∈ groups cs := by
      rw [split]
      simp
    obtain ⟨d, hd⟩ := List.exists_mem_of_ne_nil h (mem_groups_iff.mp hh).1
    have later := (List.pairwise_cons.mp (List.pairwise_append.mp falling).2.1).1
    have below : d.priority < c.priority := later h List.mem_cons_self c hc d hd
    rw [unranked] at below
    exact absurd below UInt32.not_lt_zero

/-- The groups of a list in a row are its stable sort by precedence: nobody is lost and nobody is
there twice. A group is what the list holds of one priority, in the order of the list, and there is
one for every priority that occurs, which sorting the priorities and making equal neighbours one
finds. Of two groups the first outranks the second, and the unranked one, if there is one, is the
last. -/
theorem groups_stable (cs : List Connection) :
    (groups cs).flatten = cs.mergeSort (fun c d => inOrder c.priority d.priority) ∧
    (groups cs).flatten.Perm cs ∧
    (∀ g, g ∈ groups cs ↔ g ≠ [] ∧ ∃ p, g = cs.filter fun c => c.priority == p) ∧
    (groups cs).Pairwise (fun g h => ∀ c ∈ g, ∀ d ∈ h, Outranks c.priority d.priority) ∧
    (∀ g ∈ groups cs, ∀ c ∈ g, c.priority = 0 → (groups cs).getLast? = some g) ∧
    groups cs = (((cs.map (·.priority)).mergeSort inOrder).destutter (· ≠ ·)).map
      fun p => cs.filter fun c => c.priority == p := by
  refine ⟨(sorts_groups cs).unique (sorts_mergeSort cs), (sorts_groups cs).perm,
    fun g => mem_groups_iff, ?_, ?_, ?_⟩
  · refine (groups_falling cs).imp ?_
    intro g h hlt c hc d hd
    exact outranks_iff.mpr (hlt c hc d hd)
  · intro g hg c hc unranked
    exact groups_last hg hc unranked
  · rw [groups, priorities_eq]

/-- The unranked connection in front goes to the end, and the ones between keep their order. -/
example : groups [⟨0, { uri := "A" }⟩, ⟨1, { uri := "B", priority := 2 }⟩,
      ⟨2, { uri := "C", priority := 7 }⟩, ⟨3, { uri := "D", priority := 2 }⟩] =
    [[⟨2, { uri := "C", priority := 7 }⟩],
      [⟨1, { uri := "B", priority := 2 }⟩, ⟨3, { uri := "D", priority := 2 }⟩],
      [⟨0, { uri := "A" }⟩]] := by
  decide

end Selection

end RpcPool

import RpcPool.Proofs.Alone

/-!
# From the most important group down

A prioritized poll and the search for a replacement go through the groups of the registered
connections, the most important one first, up to the first group that has a connected member. What
they have in common is stated here: which connections have been probed when they stop.

Results:
1. `Selection.groups_pairwise`, `Selection.mem_groups_flatten`: the groups of a list.
2. `Selection.leading_stops`, `Selection.leading_exhausts`: the groups up to the first one with a
   connected member, said without groups.
3. `Descent.gathered`, `Descent.down`: a group more has been probed, and those above it are still
   down.
4. `Descent.stops`, `Descent.exhausts`: the probes of a descent that stops or comes to its end.
5. `Passed.reached`, `Reached.passed`, `Passed.goes_on`: a search that changes nothing in the registry
   goes from group to group.
6. `Reached.stops`, `Passed.exhausts`: what such a search has probed, and what it finds.
-/

namespace RpcPool

variable {cs excluded : List Connection} {c d : Connection} {g : List Connection}
  {before later : List (List Connection)} {up : Connection → Bool}

theorem mem_eligible :
    c ∈ eligible excluded cs ↔ c ∈ cs ∧ Selection.excludes excluded c = false := by
  simp [eligible]

theorem eligible_append (excluded cs ds : List Connection) :
    eligible excluded (cs ++ ds) = eligible excluded cs ++ eligible excluded ds :=
  List.filter_append ..

/-- With a group more, its members come last. -/
theorem eligible_flatten (excluded : List Connection) (before : List (List Connection))
    (g : List Connection) : eligible excluded (before ++ [g]).flatten =
      eligible excluded before.flatten ++ eligible excluded g := by
  rw [List.flatten_append, List.flatten_singleton, eligible_append]

theorem nodup_eligible (h : cs.Nodup) (excluded : List Connection) :
    (eligible excluded cs).Nodup :=
  h.filter _

namespace Selection

/-! ## Groups -/

theorem mem_groups_flatten : c ∈ (groups cs).flatten ↔ c ∈ cs := by
  constructor
  · intro h
    obtain ⟨g, hg, hc⟩ := List.mem_flatten.mp h
    exact mem_of_mem_groups hg hc
  · intro h
    refine List.mem_flatten.mpr ⟨cs.filter fun k => k.priority == c.priority, ?_, ?_⟩
    · exact List.mem_map.mpr ⟨c.priority, mem_priorities.mpr ⟨c, h, rfl⟩, rfl⟩
    · exact List.mem_filter.mpr ⟨h, beq_self_eq_true c.priority⟩

/-- A group lies above all that come after it. -/
theorem groups_pairwise (cs : List Connection) :
    (groups cs).Pairwise fun g g' => ∀ c ∈ g, ∀ d ∈ g', d.priority < c.priority := by
  unfold groups
  rw [List.pairwise_map]
  refine (pairwise_priorities cs).imp fun hlt c hc d hd => ?_
  rw [eq_of_beq (List.mem_filter.mp hc).2, eq_of_beq (List.mem_filter.mp hd).2]
  exact hlt

/-- Wherever the groups are cut in two, those on the left lie above those on the right. -/
theorem groups_above (hgroups : groups cs = before ++ later) (hc : c ∈ before.flatten)
    (hd : d ∈ later.flatten) : d.priority < c.priority := by
  have hsplit : (before ++ later).Pairwise _ := hgroups ▸ groups_pairwise cs
  obtain ⟨g, hg, hc⟩ := List.mem_flatten.mp hc
  obtain ⟨g', hg', hd⟩ := List.mem_flatten.mp hd
  exact (List.pairwise_append.mp hsplit).2.2 g hg g' hg' c hc d hd

theorem groups_equal (hg : g ∈ groups cs) (hc : c ∈ g) (hd : d ∈ g) : c.priority = d.priority := by
  obtain ⟨p, _, rfl⟩ := List.mem_map.mp hg
  rw [eq_of_beq (List.mem_filter.mp hc).2, eq_of_beq (List.mem_filter.mp hd).2]

theorem groups_nodup (h : cs.Nodup) : (groups cs).flatten.Nodup := by
  refine List.nodup_flatten.mpr ⟨fun g hg => ?_, (groups_pairwise cs).imp fun hlt c hc hd => ?_⟩
  · obtain ⟨p, _, rfl⟩ := List.mem_map.mp hg
    exact h.filter _
  · exact UInt32.lt_irrefl _ (hlt c hc c hd)

/-! ## The leading groups -/

/-- The members of the groups from the most important one down to the first that has a connected
member. No connected member has a larger priority than they have. -/
def leading (up : Connection → Bool) (cs : List Connection) : List Connection :=
  cs.filter fun c => cs.all fun d => !up d || decide (d.priority ≤ c.priority)

theorem mem_leading : c ∈ leading up cs ↔
    c ∈ cs ∧ ∀ d ∈ cs, up d = true → d.priority ≤ c.priority := by
  simp only [leading, List.mem_filter, List.all_eq_true, Bool.or_eq_true, Bool.not_eq_true',
    decide_eq_true_eq, ← Bool.not_eq_true, ← imp_iff_not_or]

theorem nodup_leading (h : cs.Nodup) (up : Connection → Bool) : (leading up cs).Nodup := h.filter _

/-- A descent that stops at the first group with a connected member has been through the leading
groups. -/
theorem leading_stops (hcs : cs.Nodup) (hgroups : groups cs = before ++ g :: later)
    (down : ∀ c ∈ eligible excluded before.flatten, up c = false)
    (hup : ∃ c ∈ eligible excluded g, up c = true) :
    (eligible excluded (before ++ [g]).flatten).Perm (leading up (eligible excluded cs)) := by
  have hgroup : g ∈ groups cs := hgroups ▸ List.mem_append_right _ List.mem_cons_self
  have hcut : groups cs = (before ++ [g]) ++ later := by
    rw [hgroups, List.append_assoc]
    rfl
  have hall : (groups cs).flatten = (before ++ [g]).flatten ++ later.flatten := by
    rw [hcut, List.flatten_append]
  have hnodup := groups_nodup hcs
  rw [hall] at hnodup
  refine (List.perm_ext_iff_of_nodup (nodup_eligible (List.nodup_append.mp hnodup).1 _)
    (nodup_leading (nodup_eligible hcs _) up)).mpr fun c => ?_
  rw [mem_eligible, mem_leading, mem_eligible,
    ← show c ∈ (groups cs).flatten ↔ c ∈ cs from mem_groups_flatten, hall, List.mem_append]
  constructor
  · rintro ⟨hc, hin⟩
    refine ⟨⟨Or.inl hc, hin⟩, fun d hd hdup => ?_⟩
    obtain ⟨hd, hdin⟩ := mem_eligible.mp hd
    rw [← mem_groups_flatten, hall, List.mem_append] at hd
    rcases hd with hd | hd
    · rw [List.flatten_append, List.flatten_singleton, List.mem_append] at hc hd
      rcases hd with hd | hd
      · rw [down d (mem_eligible.mpr ⟨hd, hdin⟩)] at hdup
        exact absurd hdup (by simp)
      · rcases hc with hc | hc
        · exact UInt32.le_of_lt
            (groups_above hgroups hc (List.mem_flatten_of_mem List.mem_cons_self hd))
        · exact UInt32.le_of_eq (groups_equal hgroup hd hc)
    · exact UInt32.le_of_lt (groups_above hcut hc hd)
  · rintro ⟨⟨hc, hin⟩, hmax⟩
    refine ⟨hc.resolve_right fun hc => ?_, hin⟩
    -- the connected member of the last group is more important
    obtain ⟨k, hk, hkup⟩ := hup
    obtain ⟨hk, hkin⟩ := mem_eligible.mp hk
    have hkcs : k ∈ eligible excluded cs := mem_eligible.mpr ⟨mem_of_mem_groups hgroup hk, hkin⟩
    have hkmem : k ∈ (before ++ [g]).flatten :=
      List.mem_flatten_of_mem (List.mem_append_right _ (List.mem_singleton_self g)) hk
    exact absurd (groups_above hcut hkmem hc) (UInt32.not_lt.mpr (hmax k hkcs hkup))

/-- A descent that finds no connected member has been through all groups. -/
theorem leading_exhausts (hcs : cs.Nodup) (hgroups : groups cs = before ++ later)
    (hlater : ∀ g ∈ later, eligible excluded g = [])
    (down : ∀ c ∈ eligible excluded before.flatten, up c = false) :
    (eligible excluded before.flatten).Perm (leading up (eligible excluded cs)) := by
  have hall : (groups cs).flatten = before.flatten ++ later.flatten := by
    rw [hgroups, List.flatten_append]
  have hnodup := groups_nodup hcs
  rw [hall] at hnodup
  have hbefore (c : Connection) (hc : c ∈ eligible excluded cs) :
      c ∈ eligible excluded before.flatten := by
    obtain ⟨hc, hin⟩ := mem_eligible.mp hc
    rw [← mem_groups_flatten, hall] at hc
    refine mem_eligible.mpr ⟨(List.mem_append.mp hc).resolve_right fun hc => ?_, hin⟩
    obtain ⟨g, hg, hc⟩ := List.mem_flatten.mp hc
    have hmem : c ∈ eligible excluded g := mem_eligible.mpr ⟨hc, hin⟩
    rw [hlater g hg] at hmem
    exact absurd hmem List.not_mem_nil
  refine (List.perm_ext_iff_of_nodup (nodup_eligible (List.nodup_append.mp hnodup).1 _)
    (nodup_leading (nodup_eligible hcs _) up)).mpr fun c => ?_
  rw [mem_leading]
  constructor
  · intro hc
    obtain ⟨hmem, hin⟩ := mem_eligible.mp hc
    refine ⟨mem_eligible.mpr ⟨?_, hin⟩, fun d hd hdup => ?_⟩
    · exact mem_groups_flatten.mp (hall ▸ List.mem_append_left _ hmem)
    · rw [down d (hbefore d hd)] at hdup
      exact absurd hdup (by simp)
  · rintro ⟨hc, _⟩
    exact hbefore c hc

/-- The first connected member of the leading groups is that of the group at which a descent stops.
-/
theorem leading_find (hcs : cs.Nodup) (hgroups : groups cs = before ++ g :: later)
    (down : ∀ c ∈ eligible excluded before.flatten, up c = false)
    (hup : ∃ c ∈ eligible excluded g, up c = true) :
    (leading up (eligible excluded cs)).find? up = (eligible excluded g).find? up := by
  have hperm := leading_stops hcs hgroups down hup
  obtain ⟨p, _, hg⟩ :=
    List.mem_map.mp (show g ∈ groups cs from hgroups ▸ List.mem_append_right _ List.mem_cons_self)
  -- both are the first of `cs` that meet a condition, and the two conditions agree
  have hsame : (leading up (eligible excluded cs)).filter up = (eligible excluded g).filter up := by
    have hmem (c : Connection) (hc : c ∈ cs) (hin : excludes excluded c = false)
        (hcup : up c = true) :
        c ∈ leading up (eligible excluded cs) ↔ c ∈ eligible excluded g := by
      rw [← hperm.mem_iff, eligible_flatten, List.mem_append]
      refine or_iff_right fun hbefore => ?_
      rw [down c hbefore] at hcup
      exact absurd hcup (by simp)
    subst hg
    unfold leading eligible at hmem ⊢
    simp only [List.mem_filter, List.filter_filter] at hmem ⊢
    refine List.filter_congr fun c hc => ?_
    rw [Bool.eq_iff_iff]
    have hiff := hmem c hc
    simp only [Bool.and_eq_true, Bool.not_eq_true'] at hiff ⊢
    constructor
    · rintro ⟨hcup, hleads, hin⟩
      exact ⟨hcup, ((hiff hin hcup).mp ⟨hc, hleads, hin⟩).2⟩
    · rintro ⟨hcup, hin, hp⟩
      exact ⟨hcup, ((hiff hin hcup).mpr ⟨hc, hin, hp⟩).2⟩
  rw [← List.head?_filter, ← List.head?_filter, hsame]

end Selection

/-- What a history tells of a descent through the groups of a list: exactly the members of the
leading groups are probed, each once, and no probe of a group starts before those of the groups
above it have ended. -/
structure Descends (up : Connection → Bool) (cs : List Connection) (ms : List Moment) : Prop where
  starts : (starts ms).Perm (Selection.leading up cs)
  ends : (ends ms).Perm (Selection.leading up cs)
  once : (RpcPool.starts ms).Nodup
  downward : (touched ms).Pairwise fun c d => d.priority ≤ c.priority

namespace Manager

variable {s a j t u : Manager} {f : FlightId} {owner : Owner} {options : CheckOptions}
  {stage : Stage} {P : SwitchReason → Prop}

/-- A descent through the groups of a list that began in `s` has been through some of them. -/
structure Descent (excluded cs : List Connection) (s t : Manager)
    (before later : List (List Connection)) : Prop where
  groups : Selection.groups cs = before ++ later
  later : s.trace <:+ t.trace
  starts : (starts (since s t)).Perm (eligible excluded before.flatten)
  ends : (ends (since s t)).Perm (eligible excluded before.flatten)
  downward : (touched (since s t)).Pairwise fun c d => d.priority ≤ c.priority

theorem Descent.start (h : Probeless P s t) :
    Descent excluded cs s t [] (Selection.groups cs) where
  groups := rfl
  later := h.later
  starts := by
    rw [h.starts]
    exact .refl _
  ends := by
    rw [h.ends]
    exact .refl _
  downward := by
    rw [h.touched]
    exact .nil

theorem Descent.probeless (h : Descent excluded cs s t before later) (hp : Probeless P t u) :
    Descent excluded cs s u before later where
  groups := h.groups
  later := h.later.trans hp.later
  starts := by
    rw [since_append h.later hp.later, starts_append, hp.starts, List.append_nil]
    exact h.starts
  ends := by
    rw [since_append h.later hp.later, ends_append, hp.ends, List.append_nil]
    exact h.ends
  downward := by
    rw [since_append h.later hp.later, touched_append, hp.touched, List.append_nil]
    exact h.downward

/-- Groups of which nobody is to be probed are passed over. -/
theorem Descent.skip {skipped : List (List Connection)}
    (h : Descent excluded cs s t before (skipped ++ later))
    (hskipped : ∀ g ∈ skipped, eligible excluded g = []) :
    Descent excluded cs s t (before ++ skipped) later ∧
      eligible excluded (before ++ skipped).flatten = eligible excluded before.flatten := by
  have hnone : eligible excluded skipped.flatten = [] := by
    refine List.eq_nil_iff_forall_not_mem.mpr fun c hc => ?_
    obtain ⟨hc, hin⟩ := mem_eligible.mp hc
    obtain ⟨g, hg, hc⟩ := List.mem_flatten.mp hc
    have hmem : c ∈ eligible excluded g := mem_eligible.mpr ⟨hc, hin⟩
    rw [hskipped g hg] at hmem
    exact absurd hmem List.not_mem_nil
  have hsame :
      eligible excluded (before ++ skipped).flatten = eligible excluded before.flatten := by
    rw [List.flatten_append, eligible_append, hnone, List.append_nil]
  exact ⟨⟨h.groups.trans (List.append_assoc ..).symm, h.later, hsame ▸ h.starts, hsame ▸ h.ends,
    h.downward⟩, hsame⟩

/-- A descent goes on to the next group of which somebody is to be probed. -/
theorem Descent.goes_on {q : Search} {conns : List Connection}
    (h : Descent excluded cs s t before later)
    (hnext : Search.next excluded later = some (conns, q)) :
    ∃ passed g groups, q = ⟨excluded, groups⟩ ∧ conns = eligible excluded g ∧ conns ≠ [] ∧
      Descent excluded cs s t passed (g :: groups) ∧
      eligible excluded passed.flatten = eligible excluded before.flatten := by
  obtain ⟨skipped, g, rfl, hskipped, hconns, hne, hexcluded⟩ := Search.next_some hnext
  obtain ⟨_, groups⟩ := q
  subst hexcluded
  obtain ⟨hskip, hsame⟩ := h.skip hskipped
  exact ⟨before ++ skipped, g, groups, rfl, hconns, hne, hskip, hsame⟩

theorem Descent.group_mem (h : Descent excluded cs s t before (g :: later)) :
    g ∈ Selection.groups cs :=
  h.groups ▸ List.mem_append_right _ List.mem_cons_self

theorem Descent.group_subset (h : Descent excluded cs s t before (g :: later)) : g ⊆ cs :=
  fun _ hc => Selection.mem_of_mem_groups h.group_mem hc

/-- The next group lies below all those that have been probed. -/
theorem Descent.below (h : Descent excluded cs s t before (g :: later)) (hc : c ∈ before.flatten)
    (hd : d ∈ g) : d.priority < c.priority :=
  Selection.groups_above h.groups hc (List.mem_flatten_of_mem List.mem_cons_self hd)

/-- A group more has been probed. -/
theorem Descent.gathered (h : Descent excluded cs s a before (g :: later))
    (hg : Gathered f owner options stage (eligible excluded g) a j u) :
    Descent excluded cs s j (before ++ [g]) later := by
  have hsince := since_append h.later hg.still.later
  -- every probe that is heard of is one of those that have started or ended
  have hnew (c : Connection) (hc : c ∈ touched (since a j)) : c ∈ g := by
    have hin : c ∈ eligible excluded g :=
      (mem_touched hc).elim (fun hc => hg.starts.mem_iff.mp hc) fun hc => hg.ends.mem_iff.mp hc
    exact (mem_eligible.mp hin).1
  have hold (c : Connection) (hc : c ∈ touched (since s a)) : c ∈ before.flatten := by
    have hin : c ∈ eligible excluded before.flatten :=
      (mem_touched hc).elim (fun hc => h.starts.mem_iff.mp hc) fun hc => h.ends.mem_iff.mp hc
    exact (mem_eligible.mp hin).1
  refine ⟨?_, h.later.trans hg.still.later, ?_, ?_, ?_⟩
  · rw [h.groups, List.append_assoc]
    rfl
  · rw [hsince, starts_append, eligible_flatten]
    exact h.starts.append hg.starts
  · rw [hsince, ends_append, eligible_flatten]
    exact h.ends.append hg.ends
  · rw [hsince, touched_append]
    refine List.pairwise_append.mpr ⟨h.downward, ?_, fun c hc d hd => ?_⟩
    · exact List.pairwise_iff_forall_sublist.mpr fun hcd =>
        UInt32.le_of_eq (Selection.groups_equal h.group_mem
          (hnew _ (hcd.subset (List.mem_cons_of_mem _ (List.mem_singleton_self _))))
          (hnew _ (hcd.subset List.mem_cons_self)))
    · exact UInt32.le_of_lt (h.below (hold c hc) (hnew d hd))

/-- Members of different groups are different instances, so a probe of the one does not change what
is known of the other. -/
theorem Descent.apart (h : Descent excluded cs s a before (g :: later))
    (apart : ∀ c ∈ cs, ∀ d ∈ cs, c.id = d.id → c = d) (hc : c ∈ before.flatten)
    (hd : d ∈ eligible excluded g) : d.id ≠ c.id := by
  intro hid
  have hd := (mem_eligible.mp hd).1
  obtain ⟨g', hg', hcg'⟩ := List.mem_flatten.mp hc
  have hccs : c ∈ cs :=
    Selection.mem_of_mem_groups (h.groups ▸ List.mem_append_left _ hg') hcg'
  have hlt := h.below hc hd
  rw [apart d (h.group_subset hd) c hccs hid] at hlt
  exact UInt32.lt_irrefl _ hlt

/-- The groups above the one that was probed last are still down. -/
theorem Descent.down (h : Descent excluded cs s a before (g :: later))
    (hg : Gathered f owner options stage (eligible excluded g) a j u)
    (apart : ∀ c ∈ cs, ∀ d ∈ cs, c.id = d.id → c = d)
    (down : ∀ c ∈ eligible excluded before.flatten, a.pool.isUp c = false) :
    ∀ c ∈ eligible excluded before.flatten, j.pool.isUp c = false := by
  intro c hc
  have hothers : j.pool.healthOf c = a.pool.healthOf c :=
    hg.others c fun _ hd => h.apart apart (mem_eligible.mp hc).1 hd
  rw [← down c hc]
  exact congrArg Health.connected hothers

/-- A descent stops at the first group with a connected member. -/
theorem Descent.stops (h : Descent excluded cs s j (before ++ [g]) later) (hcs : cs.Nodup)
    (down : ∀ c ∈ eligible excluded before.flatten, up c = false)
    (hup : ∃ c ∈ eligible excluded g, up c = true) :
    Descends up (eligible excluded cs) (since s j) := by
  have hgroups : Selection.groups cs = before ++ g :: later := by
    rw [h.groups, List.append_assoc]
    rfl
  have hleading := Selection.leading_stops hcs hgroups down hup
  have hnodup := Selection.nodup_leading (nodup_eligible hcs excluded) up
  exact ⟨h.starts.trans hleading, h.ends.trans hleading,
    (h.starts.trans hleading).nodup_iff.mpr hnodup, h.downward⟩

/-- A descent that finds no connected member comes to its end with the last group. -/
theorem Descent.exhausts (h : Descent excluded cs s j before later) (hcs : cs.Nodup)
    (hlater : ∀ g ∈ later, eligible excluded g = [])
    (down : ∀ c ∈ eligible excluded before.flatten, up c = false) :
    Descends up (eligible excluded cs) (since s j) := by
  have hleading := Selection.leading_exhausts hcs h.groups hlater down
  have hnodup := Selection.nodup_leading (nodup_eligible hcs excluded) up
  exact ⟨h.starts.trans hleading, h.ends.trans hleading,
    (h.starts.trans hleading).nodup_iff.mpr hnodup, h.downward⟩

/-- What happens without a probe is of no account to a descent. -/
theorem descends_probeless (h : Descends up cs (since s t)) (hst : s.trace <:+ t.trace)
    (hp : Probeless P t u) : Descends up cs (since s u) := by
  have hsince := since_append hst hp.later
  refine ⟨?_, ?_, ?_, ?_⟩
  · rw [hsince, starts_append, hp.starts, List.append_nil]
    exact h.starts
  · rw [hsince, ends_append, hp.ends, List.append_nil]
    exact h.ends
  · rw [hsince, starts_append, hp.starts, List.append_nil]
    exact h.once
  · rw [hsince, touched_append, hp.touched, List.append_nil]
    exact h.downward

/-! ## Searches -/

variable {b : Manager} {r : Registry} {best : Connection} {conns : List Connection} {q : Search}

/-- Some groups have been probed since `s`, none of which has a connected member, and the registry
is `r`. -/
structure Passed (excluded : List Connection) (r : Registry) (s a : Manager)
    (before later : List (List Connection)) : Prop where
  descent : Descent excluded r.connections s a before later
  down : ∀ c ∈ eligible excluded before.flatten, a.pool.isUp c = false
  observing : a.Observing
  registry : a.pool.registry = r

/-- The group `g` has been probed as well, whether or not it has a connected member. -/
structure Reached (excluded : List Connection) (r : Registry) (s b : Manager)
    (before : List (List Connection)) (g : List Connection) (later : List (List Connection)) :
    Prop where
  descent : Descent excluded r.connections s b (before ++ [g]) later
  down : ∀ c ∈ eligible excluded before.flatten, b.pool.isUp c = false
  observing : b.Observing
  registry : b.pool.registry = r

/-- What is done first at the end of a batch: listeners are told of what it has changed. -/
theorem published (observing : s.Observing) (probed : List (Connection × Bool)) :
    (s.publishStatus probed).pool = s.pool ∧ (s.publishStatus probed).Observing ∧
      (s.publishStatus probed).network = s.network ∧
      Probeless (fun _ => True) s (s.publishStatus probed) :=
  ⟨outline_pool (publishStatus_outline observing probed).1,
    (publishStatus_steered observing probed).observing,
    (publishStatus_steered observing probed).network, publishStatus_probeless trivial s probed⟩

theorem Passed.reached (h : Passed excluded r s a before (g :: later))
    (hg : Gathered f owner options stage (eligible excluded g) a j u)
    (apart : ∀ c ∈ r.connections, ∀ d ∈ r.connections, c.id = d.id → c = d)
    (probed : List (Connection × Bool)) :
    Reached excluded r s (j.publishStatus probed) before g later := by
  obtain ⟨hpool, hobserving, _, hprobeless⟩ := published (hg.still.observing h.observing) probed
  refine ⟨(h.descent.gathered hg).probeless hprobeless, ?_, hobserving, ?_⟩
  · rw [hpool]
    exact h.descent.down hg apart h.down
  · rw [hpool]
    exact hg.registry.trans h.registry

theorem Reached.passed (h : Reached excluded r s b before g later)
    (hnone : ∀ c ∈ eligible excluded g, b.pool.isUp c = false) :
    Passed excluded r s b (before ++ [g]) later := by
  refine ⟨h.descent, fun c hc => ?_, h.observing, h.registry⟩
  rw [eligible_flatten] at hc
  exact (List.mem_append.mp hc).elim (h.down c) (hnone c)

/-- A search passes over the groups of which nobody is to be probed. -/
theorem Passed.goes_on (h : Passed excluded r s b before later)
    (hnext : Search.next excluded later = some (conns, q)) :
    ∃ passed g groups, q = ⟨excluded, groups⟩ ∧ conns = eligible excluded g ∧ conns ≠ [] ∧
      Passed excluded r s b passed (g :: groups) := by
  obtain ⟨passed, g, groups, hq, hconns, hne, hskip, hsame⟩ := h.descent.goes_on hnext
  exact ⟨passed, g, groups, hq, hconns, hne, { h with descent := hskip, down := hsame ▸ h.down }⟩

/-- A search stops at the first group with a connected member, with the first such member. -/
theorem Reached.stops (h : Reached excluded r s b before g later) (hcs : r.connections.Nodup)
    (hbest : (eligible excluded g).find? b.pool.isUp = some best) :
    Descends b.pool.isUp (eligible excluded r.connections) (since s b) ∧
      (Selection.leading b.pool.isUp (eligible excluded r.connections)).find? b.pool.isUp =
        some best := by
  have hup : ∃ c ∈ eligible excluded g, b.pool.isUp c = true :=
    ⟨best, List.mem_of_find?_eq_some hbest, List.find?_some hbest⟩
  have hgroups : Selection.groups r.connections = before ++ g :: later := by
    rw [h.descent.groups, List.append_assoc]
    rfl
  exact ⟨h.descent.stops hcs h.down hup,
    (Selection.leading_find hcs hgroups h.down hup).trans hbest⟩

/-- A search that finds no connected member comes to its end with the last group. -/
theorem Passed.exhausts (h : Passed excluded r s b before later) (hcs : r.connections.Nodup)
    (hnext : Search.next excluded later = none) :
    Descends b.pool.isUp (eligible excluded r.connections) (since s b) ∧
      (Selection.leading b.pool.isUp (eligible excluded r.connections)).find? b.pool.isUp =
        none := by
  have hnobody := Search.next_none hnext
  have hall := Selection.leading_exhausts hcs h.descent.groups hnobody h.down
  refine ⟨h.descent.exhausts hcs hnobody h.down, List.find?_eq_none.mpr fun c hc => ?_⟩
  simp [h.down c (hall.mem_iff.mpr hc)]

end Manager

end RpcPool

import RpcPool.Proofs.Descent

/-!
# Prioritized polls

An iteration of a prioritized poll with which nothing interferes. It goes through the groups of the
registered connections, without those that it leaves out, and after each group it re-ranks all
connections, by what was observed of them just now or long ago.

Results:
1. `rank_settled`: however stale it is, what is known of the connections decides after each group
   whether the manager is connected.
2. `Sweeping.next`: an iteration goes from group to group.
3. `sweep_probes`: which connections an iteration probes, and that it ends with the manager
   connected exactly if a registered connection is connected.
-/

namespace RpcPool

namespace Manager

variable {s t u a b j : Manager} {f : FlightId} {owner : Owner} {options : CheckOptions}
  {excluded cs : List Connection} {before later : List (List Connection)}
  {probed : List (Connection × Bool)}

/-- If the current pointer may move on its own, the manager is connected exactly if some registered
connection is. -/
def Settled (options : CheckOptions) (s : Manager) : Prop :=
  options.autoSwitch = true →
    (s.pool.connected = true ↔ ∃ c ∈ s.pool.registry.connections, s.pool.isUp c = true)

/-! ## The end of a check -/

theorem rank_sound (hs : s.Sound) (options : CheckOptions) (hprobed : ∀ p ∈ probed, s.Genuine p.1) :
    (s.rank options probed).1.Sound :=
  TaskStretch.sound (K := s.Genuine) (rank_stretch hprobed) hs fun _ h => h

/-- Without a connected connection nobody can be connected to. -/
theorem connected_registered (hs : s.Sound) (h : s.pool.connected = true) :
    ∃ c ∈ s.pool.registry.connections, s.pool.isUp c = true := by
  unfold Pool.connected at h
  cases hc : s.pool.registry.current with
  | none =>
    rw [hc] at h
    exact absurd h (by simp)
  | some c =>
    rw [hc] at h
    exact ⟨c, hs.registry.current_mem c hc, h⟩

theorem rank_found (hs : s.Observing) (options : CheckOptions)
    (probed : List (Connection × Bool)) : (s.rank options probed).2 =
      (Selection.firstConnected s.pool.health.get (probed.map (·.1))).isSome := by
  have hhealth := (publishStatus_steered hs probed).health
  unfold rank
  dsimp only
  rw [hhealth]
  split
  · rfl
  · rfl

/-- After a check the manager is connected, if it can be. -/
theorem rank_settled (hs : s.Sound) (observing : s.Observing)
    (hprobed : ∀ p ∈ probed, s.Genuine p.1) : Settled options (s.rank options probed).1 := by
  intro on
  obtain ⟨houtline, _⟩ := rank_outline observing on probed
  refine ⟨connected_registered (rank_sound hs options hprobed), ?_⟩
  have hpool := outline_pool houtline
  rw [hpool]
  dsimp only
  obtain ⟨current, hsettle⟩ := s.pool.settle_eq
    (Selection.firstConnected s.pool.health.get (probed.map (·.1)))
  rintro ⟨c, hc, hup⟩
  have hup : s.pool.isUp c = true := by
    rw [hsettle] at hup
    exact hup
  have hmem : c ∈ s.pool.registry.connections := by
    rw [hsettle] at hc
    exact hc
  have apart (d : Connection)
      (hd : Selection.firstConnected s.pool.health.get (probed.map (·.1)) = some d)
      (k : Connection) (hk : k ∈ s.pool.registry.connections) (hid : k.id = d.id) : k = d := by
    obtain ⟨p, hp, rfl⟩ := List.mem_map.mp (Selection.firstConnected_eq_some hd).1
    exact (hs.genuine k (mem_instances_of_registered hk)).eq (hprobed p hp) hid
  obtain ⟨k, _, hcurrent, hkup, _⟩ := Pool.settle_leads hs.pool apart hmem hup
  unfold Pool.connected
  rw [hcurrent]
  exact hkup

/-! ## From group to group -/

theorem sweep_steered (observing : s.Observing) (options : CheckOptions)
    (excluded : List Connection) (groups : List (List Connection)) :
    Steered s (s.sweep options excluded groups).1 :=
  (sweep_followed options excluded groups s).steered observing

theorem rank_nil_found (observing : s.Observing) (options : CheckOptions) :
    (s.rank options []).2 = false := by
  rw [rank_found observing]
  rfl

/-- A poll goes on to the next group of which somebody is to be probed. -/
theorem sweep_progress (observing : s.Observing) (options : CheckOptions)
    (excluded : List Connection) (groups : List (List Connection)) :
    (s.sweep options excluded groups).2 =
      match Search.next excluded groups with
      | none => .done (.flag false)
      | some (conns, q) => .await options (.sweep q) conns := by
  induction groups generalizing s with
  | nil => rfl
  | cons g later ih =>
    have hrank := rank_steered observing options []
    unfold sweep Search.next
    dsimp only
    split
    · rw [rank_nil_found observing]
      exact ih hrank.observing
    · rfl

/-- A poll that goes on to no group leaves the manager settled. -/
theorem sweep_settled (hs : s.Sound) (observing : s.Observing) {groups : List (List Connection)}
    (hgroups : groups = [] → Settled options s) {reply : Reply}
    (hdone : (s.sweep options excluded groups).2 = .done reply) :
    Settled options (s.sweep options excluded groups).1 := by
  induction groups generalizing s with
  | nil => exact hgroups rfl
  | cons g later ih =>
    have hnobody : ∀ p ∈ ([] : List (Connection × Bool)), s.Genuine p.1 :=
      fun p hp => absurd hp List.not_mem_nil
    unfold sweep at hdone ⊢
    dsimp only at hdone ⊢
    split at hdone
    · next hempty =>
      rw [if_pos hempty]
      rw [rank_nil_found observing] at hdone ⊢
      exact ih (rank_sound hs options hnobody) (rank_steered observing options []).observing
        (fun _ => rank_settled hs observing hnobody) hdone
    · exact absurd hdone (by simp)

/-- An iteration that began in `s` waits for the probes of a group, and no group above it has a
connected member. -/
def Sweeping (f : FlightId) (owner : Owner) (options : CheckOptions) (excluded cs : List Connection)
    (s t : Manager) : Prop :=
  ∃ a before g later, Descent excluded cs s a before (g :: later) ∧
    (∀ c ∈ eligible excluded before.flatten, a.pool.isUp c = false) ∧ a.Observing ∧
    a.pool.registry.connections = cs ∧
    Gathering f owner options (.sweep ⟨excluded, later⟩) (eligible excluded g) a t

/-- An iteration that began in `s` has ended. -/
structure Swept (f : FlightId) (options : CheckOptions) (excluded cs : List Connection)
    (s t : Manager) : Prop where
  ended : t.flights.lookup f = none
  probes : Descends t.pool.isUp (eligible excluded cs) (since s t)
  connections : t.pool.registry.connections = cs
  settled : Settled options t

/-- An iteration lands, with nothing changed since its last probe but the current pointer. -/
theorem swept_land (hsteered : Steered j b) (hst : s.trace <:+ j.trace)
    (hprobeless : Probeless (fun _ => True) j b) (hconns : j.pool.registry.connections = cs)
    (hsettled : Settled options b)
    (hdescends : Descends j.pool.isUp (eligible excluded cs) (since s j)) (reply : Reply) :
    Swept f options excluded cs s (b.land f owner reply) := by
  have hland := land_probeless (P := fun _ => True) b f owner reply
  have hgone := land_gone b f owner reply
  obtain ⟨answers, poller, loops, timers, ready, trace, heq⟩ := land_eq b f owner reply
  have hup : j.pool.isUp = b.pool.isUp := funext fun c => (hsteered.isUp c).symm
  have hafter := descends_probeless hdescends hst (hprobeless.trans hland)
  rw [heq] at hgone hafter ⊢
  exact ⟨hgone, hup ▸ hafter, hsteered.connections.trans hconns, hsettled⟩

/-- A poll that has found no connected member so far goes on to the next group, or it ends. -/
theorem sweep_goes_on (hs : b.Sound) (observing : b.Observing) (calm : b.network.Calm)
    (hconns : b.pool.registry.connections = cs) (hcs : cs.Nodup)
    (hdescent : Descent excluded cs s b before later)
    (down : ∀ c ∈ eligible excluded before.flatten, b.pool.isUp c = false)
    (hsettled : later = [] → Settled options b) :
    let r := b.sweep options excluded later
    Sweeping f owner options excluded cs s (r.1.proceed f owner r.2) ∨
      Swept f options excluded cs s (r.1.proceed f owner r.2) := by
  have hsteered := sweep_steered observing options excluded later
  have hprobeless : Probeless (fun _ => True) b (b.sweep options excluded later).1 :=
    (sweep_followed options excluded later b).probeless
  have hprogress := sweep_progress observing options excluded later
  have hdone (reply : Reply) (h : (b.sweep options excluded later).2 = .done reply) :
      Settled options (b.sweep options excluded later).1 :=
    sweep_settled hs observing hsettled h
  generalize b.sweep options excluded later = r at *
  obtain ⟨c, progress⟩ := r
  cases hnext : Search.next excluded later with
  | none =>
    rw [hnext] at hprogress
    subst hprogress
    exact Or.inr (swept_land hsteered hdescent.later hprobeless hconns (hdone _ rfl)
      (hdescent.exhausts hcs (Search.next_none hnext) down) _)
  | some found =>
    obtain ⟨conns, q⟩ := found
    rw [hnext] at hprogress
    subst hprogress
    obtain ⟨passed, g, groups, rfl, rfl, hne, hskip, hsame⟩ := hdescent.goes_on hnext
    refine Or.inl ⟨c, passed, g, groups, hskip.probeless hprobeless, fun k hk => ?_,
      hsteered.observing, hsteered.connections.trans hconns,
      gathering_launch f owner options _ (hsteered.network ▸ calm) hne⟩
    rw [hsteered.isUp]
    exact down k (hsame ▸ hk)

/-- An iteration goes from group to group. -/
theorem Sweeping.next (h : Sweeping f owner options excluded cs s t) (ht : t.Sound) {m : Move}
    (hm : m.within f) :
    Sweeping f owner options excluded cs s (t.next m) ∨
      Swept f options excluded cs s (t.next m) := by
  obtain ⟨a, before, g, later, hdescent, down, observing, hconns, hbatch⟩ := h
  rcases hbatch.next hm with hwaits | ⟨ready, hjoined⟩
  · exact Or.inl ⟨a, before, g, later, hdescent, down, observing, hconns, hwaits⟩
  · let j : Manager := { t with ready := ready }
    have hj : j.Sound := ht.work (K := fun _ => False) (fun _ h => h.elim) ⟨rfl, fun _ h => .inl h⟩
    have hobserving : j.Observing := hjoined.still.observing observing
    have hjconns : j.pool.registry.connections = cs :=
      (congrArg Registry.connections hjoined.registry).trans hconns
    have hcs : cs.Nodup := hjconns ▸ List.Nodup.of_map _ hj.registry.distinct
    have hgathered := hdescent.gathered hjoined
    have hdown := hdescent.down hjoined (hjconns ▸ hj.pool.apart) down
    obtain ⟨probed, hprobed, _, hon⟩ := hjoined.goes_on
    have hgenuine : ∀ p ∈ probed, j.Genuine p.1 := by
      intro p hp
      have hmem : p.1 ∈ eligible excluded g := hprobed ▸ List.mem_map_of_mem hp
      exact hj.genuine _ (mem_instances_of_registered
        (hjconns ▸ hdescent.group_subset (mem_eligible.mp hmem).1))
    have hsteered := rank_steered hobserving options probed
    have hprobeless := (rank_probeless j options probed).mono (Q := fun _ => True)
      fun _ _ => trivial
    have hsettled : Settled options (j.rank options probed).1 :=
      rank_settled hj hobserving hgenuine
    have hfound := rank_found hobserving options probed
    rw [hprobed] at hfound
    rw [hon]
    dsimp only [resume]
    cases hrank : (j.rank options probed).2 with
    | true =>
      rw [if_pos rfl]
      rw [hrank, Selection.firstConnected_isSome] at hfound
      obtain ⟨c, hc, hup⟩ := List.any_eq_true.mp hfound.symm
      exact Or.inr (swept_land hsteered hgathered.later hprobeless hjconns hsettled
        (hgathered.stops hcs hdown ⟨c, hc, hup⟩) _)
    | false =>
      rw [if_neg (by simp)]
      rw [hrank, Selection.firstConnected_isSome] at hfound
      have hnone := List.any_eq_false.mp hfound.symm
      have hcalm : (j.rank options probed).1.network.Calm := by
        rw [hsteered.network]
        exact hjoined.calm
      refine sweep_goes_on (rank_sound hj options hgenuine) hsteered.observing hcalm
        (hsteered.connections.trans hjconns) hcs
        (hgathered.probeless hprobeless) (fun c hc => ?_) fun _ => hsettled
      rw [hsteered.isUp]
      rw [eligible_flatten] at hc
      rcases List.mem_append.mp hc with hc | hc
      · exact hdown c hc
      · simpa [Pool.isUp, Pool.healthOf] using hnone c hc

theorem Swept.next (h : Swept f options excluded cs s t) {m : Move} (hm : m.within f) :
    Swept f options excluded cs s (t.next m) := by
  obtain ⟨now, timers, ready, hnext⟩ := ended_next hm h.ended
  rw [hnext]
  exact ⟨h.ended, h.probes, h.connections, h.settled⟩

theorem sweeping_run {moves : List Move} (hmoves : ∀ m ∈ moves, m.within f) (ht : Reachable t)
    (h : Sweeping f owner options excluded cs s t ∨ Swept f options excluded cs s t) :
    Sweeping f owner options excluded cs s (moves.foldl Manager.next t) ∨
      Swept f options excluded cs s (moves.foldl Manager.next t) := by
  induction moves generalizing t with
  | nil => exact h
  | cons m rest ih =>
    have hm := hmoves m List.mem_cons_self
    refine ih (fun m hm => hmoves m (List.mem_cons_of_mem _ hm)) (.next m ht) ?_
    rcases h with hsweeping | hswept
    · exact hsweeping.next ht.sound hm
    · exact Or.inr (hswept.next hm)

/-- The first turn of an iteration. -/
theorem sweeping_loop (h : s.Sound) {id : LoopId} {l : PollLoop}
    (hloop : s.loops.lookup id = some l) (hready : s.ready.contains (.loop id) = true)
    (hgoing : l.stopped = false) (hdue : l.due ≤ s.now)
    (htype : l.options.pollType = .prioritized) (calm : s.network.Calm) (observing : s.Observing) :
    Sweeping s.nextId (.loop id) (s.pollOptions l.options) l.options.excluded
        s.pool.registry.connections s (s.next (.turn (.loop id))) ∨
      Swept s.nextId (s.pollOptions l.options) l.options.excluded s.pool.registry.connections s
        (s.next (.turn (.loop id))) := by
  have hframe : Frame (· ∈ s.instances) s (s.iteration id l) := by
    refine ⟨rfl, fun c hc => ?_⟩
    rcases mem_instances_setFlight hc with hc | hc
    · exact mem_instances_setLoop (s := { s with ready := s.ready.erase (.loop id) }) hc |>.elim
        Or.inl fun hc => Or.inl (mem_instances_loop hloop hc)
    · exact Or.inl (mem_instances_loop hloop hc)
  have hs : (s.iteration id l).Sound := h.work h.genuine hframe
  have hbegin : (s.iteration id l).begin (.poll l.options) =
      (s.iteration id l).sweep (s.pollOptions l.options) l.options.excluded
        (Selection.groups s.pool.registry.connections) := by
    dsimp only [begin]
    rw [htype]
    rfl
  have hsettled (hnone : Selection.groups s.pool.registry.connections = []) :
      Settled (s.pollOptions l.options) (s.iteration id l) := by
    intro _
    refine ⟨connected_registered hs, fun ⟨c, hc, _⟩ => ?_⟩
    have hmem := Selection.mem_groups_flatten.mpr hc
    rw [show (s.iteration id l).pool.registry.connections = s.pool.registry.connections from rfl,
      hnone] at hmem
    exact absurd hmem List.not_mem_nil
  rw [next_loop hloop hready hgoing hdue, hbegin]
  have hstart : Descent l.options.excluded s.pool.registry.connections s (s.iteration id l) []
      (Selection.groups s.pool.registry.connections) :=
    .start (P := fun _ => True) (.same rfl)
  exact sweep_goes_on hs observing calm rfl (List.Nodup.of_map _ h.registry.distinct) hstart
    (fun c hc => absurd hc List.not_mem_nil) hsettled

/-! ## What an iteration probes -/

/-- An iteration of a prioritized poll with which nothing interferes can be brought to its end. It
then has probed those of the registered connections that it does not leave out, from the most
important group down to the first one in which it has found a connected member. If its current
pointer may move on its own, the manager is connected in the end exactly if some registered
connection is. -/
theorem sweep_probes (h : Reachable s) {id : LoopId} {l : PollLoop}
    (hloop : s.loops.lookup id = some l) (hready : s.ready.contains (.loop id) = true)
    (hgoing : l.stopped = false) (hdue : l.due ≤ s.now)
    (htype : l.options.pollType = .prioritized) (calm : s.network.Calm) (observing : s.Observing)
    {moves : List Move} (hmoves : ∀ m ∈ moves, m.within s.nextId)
    (ht : t = moves.foldl next (s.next (.turn (.loop id)))) :
    (∃ more : List Move, (∀ m ∈ more, m.within s.nextId) ∧
        (more.foldl next t).flights.lookup s.nextId = none) ∧
      (t.flights.lookup s.nextId = none →
        Descends t.pool.isUp (eligible l.options.excluded s.pool.registry.connections)
            (since s t) ∧
          t.pool.registry.connections = s.pool.registry.connections ∧
          (l.options.autoSwitch.getD s.pool.registry.autoSwitch = true →
            (t.pool.connected = true ↔
              ∃ c ∈ t.pool.registry.connections, t.pool.isUp c = true))) := by
  have hphase := sweeping_run hmoves (.next _ h)
    (sweeping_loop h.sound hloop hready hgoing hdue htype calm observing)
  rw [← ht] at hphase
  rcases hphase with hsweeping | hswept
  · obtain ⟨a, _, _, _, _, _, hobserving, _, hbatch⟩ := hsweeping
    obtain ⟨hend, hflight⟩ := hbatch.unfinished hobserving
    exact ⟨hend, fun hended => absurd hended hflight⟩
  · exact ⟨⟨[], fun m hm => absurd hm List.not_mem_nil, hswept.ended⟩,
      fun _ => ⟨hswept.probes, hswept.connections, hswept.settled⟩⟩

/-- A poll loop is about to start that leaves out X. The two connections of the next group cannot be
reached, B answers, and C is less important. A listener asks a question. -/
def polling : Manager :=
  [.call (.add { uri := "C", priority := 1 } none),
    .call (.add { uri := "A", priority := 5 } none),
    .call (.add { uri := "X", priority := 9 } none),
    .call (.add { uri := "B", priority := 3 } none),
    .call (.add { uri := "D", priority := 5 } none), .call (.addListener "log" [.has "A"] 1),
    .call (.startPolling { periodMs := 1000 } ["X"])].foldl next
      (idle ⟨[("X", ⟨[], some (.reply 0 (.ok ⟨true, .ofMillis 1⟩))⟩), ("D", ⟨[], some .hang⟩),
        ("B", ⟨[], some (.reply 20 (.ok ⟨true, .ofMillis 20⟩))⟩),
        ("C", ⟨[], some (.reply 0 (.ok ⟨true, .ofMillis 1⟩))⟩)]⟩ true)

/-- The iteration has waited for D in vain, and for B. -/
def polled : Manager :=
  [.turn (.probe 1 1), .turn (.probe 1 0), .turn (.flight 1), .clock 5000, .turn (.probe 1 1),
    .turn (.flight 1), .turn (.probe 1 0), .clock 5020, .turn (.probe 1 0),
    .turn (.flight 1)].foldl next (polling.next (.turn (.loop 0)))

theorem polled_probes :
    let b : Connection := ⟨3, { uri := "B", priority := 3 }⟩
    polled.flights.lookup 1 = none ∧ polled.current = some b ∧ polled.pool.connected = true ∧
      starts (since polling polled) =
        [⟨4, { uri := "D", priority := 5 }⟩, ⟨1, { uri := "A", priority := 5 }⟩, b] ∧
      Descends polled.pool.isUp (eligible [⟨2, { uri := "X", priority := 9 }⟩]
        polling.pool.registry.connections) (since polling polled) := by
  intro b
  let l : PollLoop :=
    ⟨{ periodMs := 1000, excluded := [⟨2, { uri := "X", priority := 9 }⟩] }, false, 0, 0, 0⟩
  have hloop : polling.loops.lookup 0 = some l := rfl
  have hid : polling.nextId = 1 := by decide
  have hended : polled.flights.lookup polling.nextId = none :=
    Option.isNone_iff_eq_none.mp (by decide +kernel)
  have hreachable : Reachable polling := .foldl _ (.new _ true [])
  obtain ⟨_, hprobes⟩ := sweep_probes (t := polled) hreachable hloop (by decide) rfl (by decide) rfl
    (by decide) (by decide) (by simp [Move.within, hid]) rfl
  obtain ⟨hdescends, _, hconnected⟩ := hprobes hended
  have hup : ∃ c ∈ polled.pool.registry.connections, polled.pool.isUp c = true := by
    decide +kernel
  exact ⟨hid ▸ hended, by decide +kernel, (hconnected (by decide)).mpr hup, by decide +kernel,
    hdescends⟩

end Manager

end RpcPool

import RpcPool.Proofs.Moves

/-!
# Every probe has its turn

For each probe that is not over, there is exactly one task under way: it is ready, or it has a
timer. There is none for any other probe. Probes are numbered by their tasks, and no number is given
out twice. An operation whose probes are all over is ready.

Results:
1. `Tended.next`, `Reachable.tended`: this holds in every state of every run.
2. `Tended.can_end`: so whatever batch an operation waits for, its own turns bring it to its end.
-/

namespace RpcPool

namespace Manager

variable {s t a : Manager} {m : Move} {f g : FlightId} {i j : Nat} {owner : Owner}
  {options : CheckOptions} {stage : Stage} {probes : List BatchProbe} {p q : BatchProbe}
  {state : ProbeState} {conns : List Connection} {skip : FlightId → Prop}

/-! ## Tasks of probes -/

/-- How often a task is under way: ready, or waiting for the clock. -/
def pending (s : Manager) (x : Task) : Nat := s.ready.count x + s.timers.countP (·.2 == x)

/-- How many tasks are under way for the probe at a place of a batch. -/
def tokens (s : Manager) (f : FlightId) (i : Nat) : Nat :=
  s.ready.count (.probe f i) + s.timers.countP (·.2 == .probe f i)

/-- How many there should be: one for a probe that is not over. -/
def owed (s : Manager) (f : FlightId) (i : Nat) : Nat :=
  match s.probe? f i with
  | some p => if p.state.isOver then 0 else 1
  | none => 0

theorem owed_le_one (s : Manager) (f : FlightId) (i : Nat) : s.owed f i ≤ 1 := by
  unfold owed
  split
  · split <;> decide
  · decide

theorem owed_open (h : s.probe? f i = some p) (hopen : p.state.isOver = false) :
    s.owed f i = 1 := by
  unfold owed
  rw [h]
  exact if_neg (by simp [hopen])

theorem owed_over (h : ∀ p, s.probe? f i = some p → p.state.isOver = true) : s.owed f i = 0 := by
  unfold owed
  split
  · next p hp => exact if_pos (h p hp)
  · rfl

theorem owed_same (h : t.probe? f i = s.probe? f i) : t.owed f i = s.owed f i := by
  unfold owed
  rw [h]

theorem Lasting.probe_ready (h : Lasting s t) : .probe f i ∈ t.ready ↔ .probe f i ∈ s.ready := by
  have hmem (u : Manager) : .probe f i ∈ u.ready.filter Task.isProbe ↔ .probe f i ∈ u.ready :=
    List.mem_filter.trans (and_iff_left rfl)
  rw [← hmem t, h.ready, hmem s]

theorem Lasting.probe_timers (h : Lasting s t) {due : Nat} :
    (due, .probe f i) ∈ t.timers ↔ (due, .probe f i) ∈ s.timers := by
  have hmem (u : Manager) : (due, .probe f i) ∈ u.timers.filter (·.2.isProbe) ↔
      (due, .probe f i) ∈ u.timers := List.mem_filter.trans (and_iff_left rfl)
  rw [← hmem t, h.timers, hmem s]

theorem Lasting.tokens (h : Lasting s t) (f : FlightId) (i : Nat) :
    t.tokens f i = s.tokens f i := by
  have hready (u : Manager) : u.ready.count (.probe f i) =
      (u.ready.filter Task.isProbe).count (.probe f i) := (List.count_filter rfl).symm
  have htimers (u : Manager) : u.timers.countP (·.2 == .probe f i) =
      (u.timers.filter (·.2.isProbe)).countP (·.2 == .probe f i) := by
    rw [List.countP_filter]
    refine List.countP_congr fun e _ => ?_
    cases he : e.2 <;> simp [Task.isProbe]
  unfold Manager.tokens
  rw [hready t, htimers t, h.ready, h.timers, ← hready, ← htimers]

theorem Lasting.probe? (h : Lasting s t) (hs : s.Numbered) (f : FlightId) (i : Nat) :
    t.probe? f i = s.probe? f i := by
  rcases h.flights f with hsame | ⟨hle, _, owner, op, hqueued⟩
  · exact probe?_same hsame i
  · rw [probe?_queued hqueued, probe?_none (hs f hle)]

theorem count_wake_ne {x y : Task} (h : y ≠ x) (s : Manager) :
    (s.wake x).ready.count y = s.ready.count y := by
  unfold wake
  split
  · rfl
  · show (s.ready ++ [x]).count y = _
    rw [List.count_append, List.count_singleton, if_neg (by simpa using h.symm)]
    rfl

/-- A task that is woken is ready once. -/
theorem count_foldl_wake {tasks : List Task} {x : Task} (s : Manager)
    (h : s.ready.count x + tasks.count x ≤ 1) :
    (tasks.foldl wake s).ready.count x = s.ready.count x + tasks.count x := by
  induction tasks generalizing s with
  | nil => rfl
  | cons y rest ih =>
    rw [List.foldl_cons]
    by_cases hxy : x = y
    · subst hxy
      rw [List.count_cons_self] at h ⊢
      have hnone : s.ready.count x = 0 := by omega
      have hwoken : (s.wake x).ready.count x = 1 := by
        unfold wake
        rw [if_neg (by simpa using List.count_eq_zero.mp hnone)]
        show (s.ready ++ [x]).count x = 1
        rw [List.count_append, hnone, List.count_singleton_self]
      rw [ih (s.wake x) (by omega), hwoken]
      omega
    · rw [List.count_cons_of_ne (Ne.symm hxy)] at h ⊢
      have hsame := count_wake_ne hxy s
      rw [ih (s.wake y) (by omega), hsame]

/-! ## The invariant -/

/-- Every probe that is not over has one task under way, and no task is left over. An operation
whose probes are all over is ready, but for those that are being run. -/
structure Tending (skip : FlightId → Prop) (s : Manager) : Prop where
  numbered : s.Numbered
  tasks : ∀ {f i p}, s.probe? f i = some p → 0 < p.task ∧ p.task ≤ s.started
  distinct : ∀ {f g i j p q}, s.probe? f i = some p → s.probe? g j = some q →
    p.task = q.task → f = g ∧ i = j
  tokens : ∀ f i, s.tokens f i = s.owed f i
  queued : ∀ {f i p}, s.probe? f i = some p → p.state = .queued → .probe f i ∈ s.ready
  joined : ∀ {f owner options stage probes}, ¬ skip f →
    s.flights.lookup f = some ⟨owner, .batch options stage probes⟩ → joined probes = true →
    .flight f ∈ s.ready

abbrev Tended : Manager → Prop := Tending fun _ => False

theorem Lasting.numbered (h : Lasting s t) (hs : s.Numbered) : t.Numbered := by
  intro f hf
  rcases h.flights f with hsame | ⟨_, hlt, _⟩
  · exact hsame.trans (hs f (Nat.le_trans h.nextId hf))
  · exact absurd hf (Nat.not_le_of_lt hlt)

theorem Tending.lasting (h : Tending skip s) (hst : Lasting s t) : Tending skip t where
  numbered := hst.numbered h.numbered
  tasks hp := by
    rw [hst.probe? h.numbered] at hp
    exact ⟨(h.tasks hp).1, Nat.le_trans (h.tasks hp).2 hst.started⟩
  distinct hp hq := by
    rw [hst.probe? h.numbered] at hp hq
    exact h.distinct hp hq
  tokens f i := by
    rw [hst.tokens, owed_same (hst.probe? h.numbered f i)]
    exact h.tokens f i
  queued hp hqueued := by
    rw [hst.probe? h.numbered] at hp
    exact hst.probe_ready.mpr (h.queued hp hqueued)
  joined {f _ _ _ _} hf hflight hjoined := by
    rcases hst.flights f with hsame | ⟨_, _, _, _, hqueued⟩
    · exact hst.woken f (h.joined hf (hsame ▸ hflight) hjoined)
    · cases hqueued.symm.trans hflight

/-- The task of an operation is taken out, and the operation is run. -/
theorem Tended.run (h : Tended s) (f : FlightId) :
    Tending (· = f) { s with ready := s.ready.erase (.flight f) } where
  numbered := h.numbered
  tasks := h.tasks
  distinct := h.distinct
  tokens g i := by
    have htokens := h.tokens g i
    unfold Manager.tokens at htokens ⊢
    rw [List.count_erase_of_ne (by simp)]
    exact htokens
  queued hp hqueued := (List.mem_erase_of_ne (by simp)).mpr (h.queued hp hqueued)
  joined hne hflight hjoined :=
    (List.mem_erase_of_ne (by simpa using hne)).mpr (h.joined (fun h => h) hflight hjoined)

/-- An operation that has been run and is not ready is left alone until one of its probes ends. -/
theorem Tending.left (h : Tending (· = f) s) (hopen : ∀ owner options stage probes,
    s.flights.lookup f = some ⟨owner, .batch options stage probes⟩ →
      Manager.joined probes = false) : Tended s where
  numbered := h.numbered
  tasks := h.tasks
  distinct := h.distinct
  tokens := h.tokens
  queued := h.queued
  joined {g owner options stage probes} _ hflight hjoined := by
    by_cases hg : g = f
    · rw [hg] at hflight
      rw [hopen _ _ _ _ hflight] at hjoined
      exact absurd hjoined (by simp)
    · exact h.joined hg hflight hjoined

/-! ## Batches open and operations end -/

/-- The probes of a batch that opens. -/
def opened (s : Manager) (options : CheckOptions) (conns : List Connection) : List BatchProbe :=
  let fallback := (options.timeoutMs.filter fun ms => 0 < ms).getD s.pool.registry.timeoutMs
  conns.mapIdx fun i c => ⟨c, probeTimeout fallback c, s.started + i + 1, .queued⟩

theorem launch_opened (s : Manager) (f : FlightId) (owner : Owner) (options : CheckOptions)
    (stage : Stage) (conns : List Connection) :
    s.launch f owner options stage conns =
      ((List.range conns.length).map (.probe f)).foldl wake
        ({ s with started := s.started + conns.length }.setFlight f
          ⟨owner, .batch options stage (s.opened options conns)⟩) := by
  unfold launch opened
  dsimp only
  rw [← List.foldl_map, List.length_mapIdx]

theorem getElem?_opened (h : (s.opened options conns)[i]? = some p) :
    i < conns.length ∧ p.task = s.started + i + 1 ∧ p.state = .queued := by
  unfold opened at h
  rw [List.getElem?_mapIdx] at h
  cases hc : conns[i]? with
  | none =>
    rw [hc] at h
    exact absurd h (by simp)
  | some c =>
    rw [hc] at h
    cases h
    exact ⟨(List.getElem?_eq_some_iff.mp hc).1, rfl, rfl⟩

theorem length_opened (s : Manager) (options : CheckOptions) (conns : List Connection) :
    (s.opened options conns).length = conns.length := List.length_mapIdx

theorem count_probes (f g : FlightId) (n j : Nat) :
    ((List.range n).map (Task.probe f)).count (.probe g j) = if g = f ∧ j < n then 1 else 0 := by
  split
  · next h =>
    obtain ⟨rfl, hj⟩ := h
    refine List.count_eq_one_of_mem ?_ (List.mem_map.mpr ⟨j, List.mem_range.mpr hj, rfl⟩)
    exact List.nodup_range.map fun _ _ h => by injection h
  · next h =>
    refine List.count_eq_zero.mpr fun hmem => h ?_
    obtain ⟨k, hk, heq⟩ := List.mem_map.mp hmem
    cases heq
    exact ⟨rfl, List.mem_range.mp hk⟩

/-- What the opening of a batch leaves alone, besides all other batches. -/
theorem launch_rest (s : Manager) (f : FlightId) (owner : Owner) (options : CheckOptions)
    (stage : Stage) (conns : List Connection) :
    ∃ ready, s.launch f owner options stage conns =
      { s.setFlight f ⟨owner, .batch options stage (s.opened options conns)⟩ with
        started := s.started + conns.length, ready := ready } := by
  rw [launch_opened]
  exact foldl_wake_eq _ _

theorem launch_lookup (s : Manager) (f : FlightId) (owner : Owner) (options : CheckOptions)
    (stage : Stage) (conns : List Connection) :
    (s.launch f owner options stage conns).flights.lookup f =
      some ⟨owner, .batch options stage (s.opened options conns)⟩ := by
  obtain ⟨ready, hlaunch⟩ := launch_rest s f owner options stage conns
  rw [hlaunch]
  exact lookup_upsert_self _ _ _

theorem launch_lookup_ne (h : g ≠ f) :
    (s.launch f owner options stage conns).flights.lookup g = s.flights.lookup g := by
  obtain ⟨ready, hlaunch⟩ := launch_rest s f owner options stage conns
  rw [hlaunch]
  exact lookup_upsert_ne _ _ h

theorem launch_probe? (h : (s.launch f owner options stage conns).probe? g i = some p) :
    (g = f ∧ i < conns.length ∧ p.task = s.started + i + 1 ∧ p.state = .queued) ∨
      (g ≠ f ∧ s.probe? g i = some p) := by
  by_cases hg : g = f
  · subst hg
    rw [probe?_batch (launch_lookup s g owner options stage conns)] at h
    exact Or.inl ⟨rfl, getElem?_opened h⟩
  · rw [probe?_same (launch_lookup_ne hg)] at h
    exact Or.inr ⟨hg, h⟩

theorem ready_subset_launch (s : Manager) (f : FlightId) (owner : Owner) (options : CheckOptions)
    (stage : Stage) (conns : List Connection) :
    s.ready ⊆ (s.launch f owner options stage conns).ready := by
  rw [launch_opened]
  exact ready_subset_foldl_wake _ ({ s with started := s.started + conns.length }.setFlight f
    ⟨owner, .batch options stage (s.opened options conns)⟩)

/-- Each probe of a batch that opens has one task. -/
theorem launch_tokens (hfew : s.tokens g i ≤ 1) (hresting : g = f → s.tokens g i = 0) :
    (s.launch f owner options stage conns).tokens g i =
      s.tokens g i + if g = f ∧ i < conns.length then 1 else 0 := by
  let set : Manager := { s with started := s.started + conns.length }.setFlight f
    ⟨owner, .batch options stage (s.opened options conns)⟩
  have hone : s.ready.count (.probe g i) +
      ((List.range conns.length).map (Task.probe f)).count (.probe g i) ≤ 1 := by
    unfold tokens at hfew hresting
    rw [count_probes]
    split
    · next h =>
      have := hresting h.1
      omega
    · omega
  have hcount := count_foldl_wake set hone
  obtain ⟨ready, hwake⟩ := foldl_wake_eq ((List.range conns.length).map (Task.probe f)) set
  rw [launch_opened]
  unfold tokens
  rw [hcount, hwake, count_probes]
  show s.ready.count _ + _ + s.timers.countP _ = _
  omega

theorem launch_owed (h : g ≠ f) : (s.launch f owner options stage conns).owed g i = s.owed g i :=
  owed_same (probe?_same (launch_lookup_ne h) i)

theorem launch_owed_self : (s.launch f owner options stage conns).owed f i =
    if i < conns.length then 1 else 0 := by
  have hprobe : (s.launch f owner options stage conns).probe? f i = (s.opened options conns)[i]? :=
    probe?_batch (launch_lookup s f owner options stage conns) i
  cases hp : (s.opened options conns)[i]? with
  | none =>
    have hlong : ¬ i < conns.length := by
      rw [← length_opened s options conns]
      exact Nat.not_lt.mpr (List.getElem?_eq_none_iff.mp hp)
    rw [if_neg hlong]
    refine owed_over fun p hp' => ?_
    rw [hprobe, hp] at hp'
    exact absurd hp' (by simp)
  | some p =>
    obtain ⟨hi, _, hqueued⟩ := getElem?_opened hp
    rw [if_pos hi]
    exact owed_open (hprobe.trans hp) (by rw [hqueued]; rfl)

/-- A batch that has just been opened is not over. -/
theorem opened_open (hne : conns ≠ []) : joined (s.opened options conns) = false := by
  have hpos : 0 < (s.opened options conns).length := by
    rw [length_opened]
    exact List.length_pos_iff.mpr hne
  refine List.all_eq_false.mpr ⟨_, List.getElem_mem hpos, ?_⟩
  rw [(getElem?_opened (List.getElem?_eq_getElem hpos)).2.2]
  simp [ProbeState.isOver]

/-- An operation opens a batch: each probe has a task, and a number of its own. -/
theorem Tending.launch (h : Tending (· = f) a) (hresting : a.Resting f) (hbegun : f < a.nextId)
    (hne : conns ≠ []) (owner : Owner) (options : CheckOptions) (stage : Stage) :
    Tended (a.launch f owner options stage conns) := by
  have hnone (i : Nat) : a.tokens f i = 0 := (h.tokens f i).trans (owed_over (hresting i))
  have htokens (g : FlightId) (i : Nat) :
      (a.launch f owner options stage conns).tokens g i =
        a.tokens g i + if g = f ∧ i < conns.length then 1 else 0 :=
    launch_tokens (h.tokens g i ▸ owed_le_one a g i) fun hg => hg ▸ hnone i
  have hcount : (a.launch f owner options stage conns).started = a.started + conns.length ∧
      (a.launch f owner options stage conns).nextId = a.nextId := by
    obtain ⟨ready, hlaunch⟩ := launch_rest a f owner options stage conns
    rw [hlaunch]
    exact ⟨rfl, rfl⟩
  exact {
    numbered := fun g hg => by
      rw [hcount.2] at hg
      have hgf : g ≠ f := (Nat.ne_of_lt (Nat.lt_of_lt_of_le hbegun hg)).symm
      exact (launch_lookup_ne hgf).trans (h.numbered g hg)
    tasks := fun hp => by
      rw [hcount.1]
      rcases launch_probe? hp with ⟨_, hi, htask, _⟩ | ⟨_, hp⟩
      · omega
      · have := h.tasks hp
        omega
    distinct := fun hp hq heq => by
      rcases launch_probe? hp with ⟨hg, _, hptask, _⟩ | ⟨_, hold⟩
      · rcases launch_probe? hq with ⟨hk, _, hqtask, _⟩ | ⟨_, hold⟩
        · exact ⟨hg.trans hk.symm, by omega⟩
        · have := h.tasks hold
          omega
      · rcases launch_probe? hq with ⟨_, _, hqtask, _⟩ | ⟨_, hold'⟩
        · have := h.tasks hold
          omega
        · exact h.distinct hold hold' heq
    tokens := fun g i => by
      rw [htokens]
      by_cases hg : g = f
      · subst hg
        rw [hnone, launch_owed_self, Nat.zero_add]
        exact if_congr (and_iff_right rfl) rfl rfl
      · rw [if_neg fun h => hg h.1, Nat.add_zero, launch_owed hg]
        exact h.tokens g i
    queued := fun {g i p} hp hqueued => by
      rcases launch_probe? hp with ⟨rfl, hi, _, _⟩ | ⟨_, hp⟩
      · exact launch_ready a g owner options stage hi
      · exact ready_subset_launch a f owner options stage conns (h.queued hp hqueued)
    joined := fun {g _ _ _ _} _ hflight hjoined => by
      by_cases hg : g = f
      · subst hg
        cases (launch_lookup a g owner options stage conns).symm.trans hflight
        rw [opened_open hne] at hjoined
        exact absurd hjoined (by simp)
      · exact ready_subset_launch a f owner options stage conns
          (h.joined hg ((launch_lookup_ne hg).symm.trans hflight) hjoined) }

/-- An operation ends. -/
theorem Tending.land (h : Tending (· = f) a) (hresting : a.Resting f) (owner : Owner)
    (reply : Reply) : Tended (a.land f owner reply) := by
  have hgone : ({ a with flights := without f a.flights } : Manager).flights.lookup f = none :=
    lookup_without_self _ _
  have hother (g : FlightId) (hg : g ≠ f) :
      ({ a with flights := without f a.flights } : Manager).flights.lookup g =
        a.flights.lookup g := lookup_without_ne _ hg
  have hself (i : Nat) : ({ a with flights := without f a.flights } : Manager).probe? f i = none :=
    probe?_none hgone i
  have hsame (g : FlightId) (hg : g ≠ f) (i : Nat) :
      ({ a with flights := without f a.flights } : Manager).probe? g i = a.probe? g i :=
    probe?_same (hother g hg) i
  have hold {g : FlightId} {i : Nat} {p : BatchProbe}
      (hp : ({ a with flights := without f a.flights } : Manager).probe? g i = some p) :
      a.probe? g i = some p := by
    have hg : g ≠ f := by
      rintro rfl
      exact absurd hp (by rw [hself]; simp)
    exact (hsame g hg i).symm.trans hp
  have hwithout : Tended { a with flights := without f a.flights } := by
    refine ⟨?_, fun hp => h.tasks (hold hp), fun hp hq => h.distinct (hold hp) (hold hq), ?_,
      fun hp => h.queued (hold hp), ?_⟩
    · intro g hg
      by_cases hgf : g = f
      · exact hgf ▸ hgone
      · exact (hother g hgf).trans (h.numbered g hg)
    · intro g i
      show a.tokens g i = _
      by_cases hg : g = f
      · subst hg
        rw [h.tokens, owed_over (hresting i),
          owed_over fun p hp => absurd hp (by rw [hself]; simp)]
      · rw [owed_same (hsame g hg i)]
        exact h.tokens g i
    · intro g owner' options stage probes _ hflight hjoined
      by_cases hg : g = f
      · subst hg
        cases hgone.symm.trans hflight
      · exact h.joined hg ((hother g hg).symm.trans hflight) hjoined
  exact hwithout.lasting (land_lasting a f owner reply)

/-! ## Turns of probes -/

theorem Stepped.lookup {flight : Flight} (h : Stepped f i p state flight s t) :
    t.flights.lookup f = some flight := by
  rw [h.flights]
  exact lookup_upsert_self _ _ _

theorem Stepped.lookup_ne {flight : Flight} (h : Stepped f i p state flight s t) (hg : g ≠ f) :
    t.flights.lookup g = s.flights.lookup g := by
  rw [h.flights]
  exact lookup_upsert_ne _ _ hg

theorem Stepped.probe?_self (h : Stepped f i p state ⟨owner, .batch options stage
      (probes.modify i fun p => { p with state := state })⟩ s t) (hp : probes[i]? = some p) :
    t.probe? f i = some { p with state := state } := by
  rw [probe?_batch h.lookup, List.getElem?_modify_eq, hp]
  rfl

/-- No other probe has changed. -/
theorem Stepped.probe?_ne (h : Stepped f i p state ⟨owner, .batch options stage
      (probes.modify i fun p => { p with state := state })⟩ s t)
    (hflight : s.flights.lookup f = some ⟨owner, .batch options stage probes⟩)
    (hne : ¬ (g = f ∧ j = i)) : t.probe? g j = s.probe? g j := by
  by_cases hg : g = f
  · subst hg
    rw [probe?_batch h.lookup, probe?_batch hflight,
      List.getElem?_modify_ne _ _ fun hij => hne ⟨rfl, hij.symm⟩]
  · exact probe?_same (h.lookup_ne hg) j

theorem Stepped.begun {flight : Flight} (h : Stepped f i p state flight s t) :
    state ≠ .queued := by
  rintro rfl
  have hmost : p.state.turnsLeft ≤ 2 := by
    cases p.state <;> simp [ProbeState.turnsLeft]
  exact absurd h.onward (Nat.not_lt_of_le hmost)

theorem Stepped.tokens {flight : Flight} (h : Stepped f i p state flight s t) (g : FlightId)
    (j : Nat) : t.tokens g j =
      s.tokens g j + if state.isOver = false ∧ g = f ∧ j = i then 1 else 0 := by
  unfold Manager.tokens
  rw [h.ready, h.timers]
  cases hover : state.isOver with
  | true =>
    rw [if_pos rfl, if_pos rfl, List.append_nil, if_neg (by simp), count_wake_ne (by simp)]
    rfl
  | false =>
    rw [if_neg (by simp), if_neg (by simp), List.countP_append, List.countP_singleton,
      ← Nat.add_assoc]
    refine congrArg _ (if_congr ?_ rfl rfl)
    rw [beq_iff_eq]
    constructor
    · intro htask
      cases htask
      exact ⟨rfl, rfl, rfl⟩
    · rintro ⟨-, rfl, rfl⟩
      rfl

theorem erase_tokens (hready : .probe f i ∈ s.ready) (g : FlightId) (j : Nat) :
    s.tokens g j = ({ s with ready := s.ready.erase (.probe f i) } : Manager).tokens g j +
      if g = f ∧ j = i then 1 else 0 := by
  unfold Manager.tokens
  by_cases hprobe : g = f ∧ j = i
  · obtain ⟨rfl, rfl⟩ := hprobe
    have hpos : 0 < s.ready.count (.probe g j) := List.count_pos_iff.mpr hready
    rw [if_pos ⟨rfl, rfl⟩, List.count_erase_self]
    show _ = _ - 1 + s.timers.countP _ + 1
    omega
  · rw [if_neg hprobe, List.count_erase_of_ne (by simp; tauto)]
    rfl

/-- When a probe has taken its turn, it has the task that it should have, and so do all others. -/
theorem Stepped.balanced (hstepped : Stepped f i p state ⟨owner, .batch options stage
      (probes.modify i fun p => { p with state := state })⟩
      { s with ready := s.ready.erase (.probe f i) } t) (h : Tended s)
    (hflight : s.flights.lookup f = some ⟨owner, .batch options stage probes⟩)
    (hp : probes[i]? = some p) (hopen : p.state.isOver = false)
    (hready : .probe f i ∈ s.ready) (g : FlightId) (j : Nat) : t.tokens g j = t.owed g j := by
  have herased := erase_tokens hready g j
  have hstep := hstepped.tokens g j
  by_cases hne : g = f ∧ j = i
  · obtain ⟨rfl, rfl⟩ := hne
    have hself := hstepped.probe?_self hp
    have hone : s.tokens g j = 1 :=
      (h.tokens g j).trans (owed_open ((probe?_batch hflight j).trans hp) hopen)
    rw [if_pos ⟨rfl, rfl⟩] at herased
    cases hover : state.isOver with
    | true =>
      rw [if_neg (by simp [hover])] at hstep
      rw [owed_over fun q hq => by cases hself.symm.trans hq; exact hover]
      omega
    | false =>
      rw [if_pos ⟨hover, rfl, rfl⟩] at hstep
      rw [owed_open hself hover]
      omega
  · have hother : t.probe? g j = s.probe? g j := hstepped.probe?_ne hflight hne
    rw [if_neg hne] at herased
    rw [if_neg fun h => hne h.2] at hstep
    rw [owed_same hother, ← h.tokens g j]
    omega

theorem Tended.probe (h : Tended s) (hready : .probe f i ∈ s.ready) (hp : s.probe? f i = some p)
    (hopen : p.state.isOver = false)
    (hstep : ProbeStep f i p { s with ready := s.ready.erase (.probe f i) } state t) :
    Tended t := by
  obtain ⟨owner, options, stage, probes, hflight, hi⟩ := probe?_some hp
  have hstepped := hstep.stepped hflight
  have hself := hstepped.probe?_self hi
  have hother {g : FlightId} {j : Nat} (hne : ¬ (g = f ∧ j = i)) : t.probe? g j = s.probe? g j :=
    hstepped.probe?_ne hflight hne
  -- a probe has the same number after its turn
  have hbefore {g : FlightId} {j : Nat} {q : BatchProbe} (hq : t.probe? g j = some q) :
      ∃ q', s.probe? g j = some q' ∧ q'.task = q.task := by
    by_cases hne : g = f ∧ j = i
    · obtain ⟨rfl, rfl⟩ := hne
      cases hself.symm.trans hq
      exact ⟨p, hp, rfl⟩
    · exact ⟨q, (hother hne).symm.trans hq, rfl⟩
  have hwoken (task : Task) (htask : task ∈ s.ready) (hne : task ≠ .probe f i) :
      task ∈ t.ready := by
    have herased : task ∈ s.ready.erase (.probe f i) := (List.mem_erase_of_ne hne).mpr htask
    rw [hstepped.ready]
    split
    · exact ready_subset_wake { s with ready := s.ready.erase (.probe f i) } _ herased
    · exact herased
  exact {
    numbered := fun g hg => by
      rw [hstepped.nextId] at hg
      have hgf : g ≠ f := by
        rintro rfl
        cases (h.numbered g hg).symm.trans hflight
      exact (hstepped.lookup_ne hgf).trans (h.numbered g hg)
    tasks := fun hq => by
      obtain ⟨q', hq', htask⟩ := hbefore hq
      rw [hstepped.started, ← htask]
      exact h.tasks hq'
    distinct := fun hq hr heq => by
      obtain ⟨q', hq', hqtask⟩ := hbefore hq
      obtain ⟨r', hr', hrtask⟩ := hbefore hr
      exact h.distinct hq' hr' (hqtask.trans (heq.trans hrtask.symm))
    tokens := hstepped.balanced h hflight hi hopen hready
    queued := fun {g j q} hq hqueued => by
      by_cases hne : g = f ∧ j = i
      · obtain ⟨rfl, rfl⟩ := hne
        cases hself.symm.trans hq
        exact absurd hqueued hstepped.begun
      · refine hwoken _ (h.queued ((hother hne).symm.trans hq) hqueued) ?_
        rintro htask
        cases htask
        exact hne ⟨rfl, rfl⟩
    joined := fun {g _ _ _ _} _ hflight' hjoined => by
      by_cases hg : g = f
      · subst hg
        cases hstepped.lookup.symm.trans hflight'
        have hover : state.isOver = true := by
          have hmem := List.mem_of_getElem? ((probe?_batch hstepped.lookup i).symm.trans hself)
          exact List.all_eq_true.mp hjoined _ hmem
        rw [hstepped.ready, if_pos hover]
        exact mem_wake _ _
      · exact hwoken _
          (h.joined (fun h => h) ((hstepped.lookup_ne hg).symm.trans hflight') hjoined) (by simp) }

/-! ## Every move -/

/-- When time passes, the tasks whose timers have gone off are woken. -/
theorem moveClock_foldl (s : Manager) (time : Nat) :
    s.moveClock time = ((s.timers.filter fun e => e.1 ≤ time).map (·.2)).foldl wake
      { s with now := time, timers := s.timers.filter fun e => !(e.1 ≤ time) } := by
  rw [List.foldl_map]
  rfl

/-- When time passes, tasks come from their timers to their turns, and none is lost. -/
theorem moveClock_pending {x : Task} (hfew : s.pending x ≤ 1) (time : Nat) :
    (s.moveClock time).pending x = s.pending x := by
  let due : List (Nat × Task) := s.timers.filter fun e => e.1 ≤ time
  let moved : Manager := { s with now := time, timers := s.timers.filter fun e => !(e.1 ≤ time) }
  have hsplit : s.timers.countP (·.2 == x) =
      (due.map (·.2)).count x + moved.timers.countP (·.2 == x) := by
    rw [List.countP_eq_countP_filter_add s.timers _ fun e => e.1 ≤ time, List.count_eq_countP,
      List.countP_map]
    rfl
  have hclock : s.moveClock time = (due.map (·.2)).foldl wake moved := moveClock_foldl s time
  have hone : moved.ready.count x + (due.map (·.2)).count x ≤ 1 := by
    unfold pending at hfew
    show s.ready.count _ + _ ≤ 1
    omega
  have hcount := count_foldl_wake moved hone
  obtain ⟨ready, hwake⟩ := foldl_wake_eq (due.map (·.2)) moved
  rw [hclock]
  unfold pending
  rw [hcount, hwake, hsplit]
  exact Nat.add_assoc _ _ _

theorem moveClock_tokens (hfew : s.tokens f i ≤ 1) (time : Nat) :
    (s.moveClock time).tokens f i = s.tokens f i :=
  moveClock_pending hfew time

theorem Tended.passes (h : Tended s) (time : Nat) : Tended (s.moveClock time) := by
  have htokens (f : FlightId) (i : Nat) :=
    moveClock_tokens (h.tokens f i ▸ owed_le_one s f i) time
  have hkept := ready_subset_moveClock s time
  obtain ⟨timers, ready, hclock⟩ := moveClock_eq s time
  rw [hclock] at htokens hkept ⊢
  exact ⟨h.numbered, h.tasks, h.distinct, fun f i => (htokens f i).trans (h.tokens f i),
    fun hp hqueued => hkept (h.queued hp hqueued),
    fun _ hflight hjoined => hkept (h.joined (fun h => h) hflight hjoined)⟩

/-- Every probe keeps its task whatever happens in a run. -/
theorem Tended.next (h : Tended s) (m : Move) : Tended (s.next m) := by
  have hresting {f : FlightId} {a : Manager} (hresting : s.Resting f)
      (hlasting : Lasting { s with ready := s.ready.erase (.flight f) } a) : a.Resting f := by
    intro i p hp
    rw [hlasting.probe? h.numbered] at hp
    exact hresting i p hp
  have hbefalls := next_befalls h.numbered m
  generalize s.next m = t at hbefalls ⊢
  cases hbefalls with
  | lasts hlasting => exact h.lasting hlasting
  | probes hready hp hopen hstep => exact h.probe hready hp hopen hstep
  | @strays f i hover =>
    -- such a probe has no task, so there was none to be taken out
    have hnone : s.tokens f i = 0 := (h.tokens f i).trans (owed_over hover)
    have hnot : .probe f i ∉ s.ready :=
      List.count_eq_zero.mp (Nat.eq_zero_of_add_eq_zero_right hnone)
    rw [List.erase_of_not_mem hnot]
    exact h
  | @waits f hopen => exact (h.run f).left hopen
  | @opens _ f a owner options stage conns hidle hlasting hbegun hne _ =>
    exact ((h.run f).lasting hlasting).launch (hresting hidle hlasting) hbegun hne owner options
      stage
  | @lands _ f a owner reply hidle hlasting _ =>
    exact ((h.run f).lasting hlasting).land (hresting hidle hlasting) owner reply
  | passes time => exact h.passes time

/-- And so it does when an operation starts. -/
theorem Tended.start (h : Tended s) (op : Operation) : Tended (s.start op) := by
  -- the start is the turn of a task that is ready just before it
  let a : Manager :=
    { s with nextId := s.nextId + 1, ready := .flight s.nextId :: s.ready }.setFlight s.nextId
      ⟨.caller, .queued op⟩
  have hlasting : Lasting s a := by
    refine ⟨rfl, Nat.le_succ _, Nat.le_refl _, fun f => ?_, rfl,
      fun f hf => List.mem_cons_of_mem _ hf, rfl⟩
    by_cases hf : f = s.nextId
    · subst hf
      exact Or.inr ⟨Nat.le_refl _, Nat.lt_succ_self _, _, _, lookup_upsert_self _ _ _⟩
    · exact Or.inl (lookup_upsert_ne _ _ hf)
  have hready : .flight s.nextId ∈ a.ready := List.mem_cons_self
  have hstart : a.next (.turn (.flight s.nextId)) = s.start op := by
    rw [next_flight hready]
    show ({ a with ready := (.flight s.nextId :: s.ready).erase (.flight s.nextId) } :
      Manager).runFlight s.nextId = _
    rw [List.erase_cons_head]
    rfl
  have ha : Tended a := h.lasting hlasting
  exact hstart ▸ ha.next (.turn (.flight s.nextId))

theorem tended_idle (network : Network) (hasRuntime : Bool) : (idle network hasRuntime).Tended where
  numbered _ _ := rfl
  tasks hp := absurd hp (by simp [probe?, idle])
  distinct hp := absurd hp (by simp [probe?, idle])
  tokens _ _ := rfl
  queued hp := absurd hp (by simp [probe?, idle])
  joined _ hflight := absurd hflight (by simp [idle])

theorem Reachable.tended (h : Reachable s) : Tended s := by
  have hstart (network : Network) (hasRuntime : Bool) (s : Manager)
      (hchores : Chores (Manager.idle network hasRuntime) s) (known : List (String × Listener)) :
      Tended { s with listeners := known } :=
    (tended_idle network hasRuntime).lasting
      (Chores.lasting (hchores.tail (.listen s.subscribers known)))
  induction h with
  | new network hasRuntime known => exact hstart network hasRuntime _ .refl known
  | load known h => exact hstart _ _ _ (ofConfig_chores h) known
  | next m _ ih => exact ih.next m

/-! ## Operations come to an end -/

/-- A probe that is neither over nor ready waits for the clock. -/
theorem Tended.timer (h : Tended s) (hp : s.probe? f i = some p) (hopen : p.state.isOver = false)
    (hready : .probe f i ∉ s.ready) : ∃ due, (due, .probe f i) ∈ s.timers := by
  have hone : s.tokens f i = 1 := (h.tokens f i).trans (owed_open hp hopen)
  have htimer : 0 < s.timers.countP (·.2 == .probe f i) := by
    unfold tokens at hone
    rw [List.count_eq_zero.mpr hready] at hone
    omega
  obtain ⟨⟨due, task⟩, hin, htask⟩ := List.countP_pos_iff.mp htimer
  cases eq_of_beq htask
  exact ⟨due, hin⟩

/-- A probe that is not over can take a turn, after time has passed if it waits. -/
theorem Tended.can_step (h : Tended s)
    (hflight : s.flights.lookup f = some ⟨owner, .batch options stage probes⟩)
    (hopen : joined probes = false) :
    ∃ (moves : List Move) (probes' : List BatchProbe), (∀ m ∈ moves, m.within f) ∧
      (moves.foldl Manager.next s).Tended ∧
      (moves.foldl Manager.next s).flights.lookup f =
        some ⟨owner, .batch options stage probes'⟩ ∧
      (probes'.map (·.state.turnsLeft)).sum < (probes.map (·.state.turnsLeft)).sum := by
  obtain ⟨p, hmem, hp⟩ := List.all_eq_false.mp hopen
  have hp : p.state.isOver = false := by simpa using hp
  obtain ⟨i, hi⟩ := List.mem_iff_getElem?.mp hmem
  have hturn {t : Manager} (ht : t.Tended)
      (hflight : t.flights.lookup f = some ⟨owner, .batch options stage probes⟩)
      (hready : .probe f i ∈ t.ready) : ∃ probes',
      (t.next (.turn (.probe f i))).Tended ∧
      (t.next (.turn (.probe f i))).flights.lookup f =
        some ⟨owner, .batch options stage probes'⟩ ∧
      (probes'.map (·.state.turnsLeft)).sum < (probes.map (·.state.turnsLeft)).sum := by
    obtain ⟨state, hstep⟩ := runProbe_step
      (s := { t with ready := t.ready.erase (.probe f i) })
      ((probe?_batch (s := { t with ready := t.ready.erase (.probe f i) }) hflight i).trans hi) hp
    have hstepped := hstep.stepped hflight
    have hafter := ht.next (.turn (.probe f i))
    rw [next_probe hready] at hafter ⊢
    exact ⟨_, hafter, hstepped.lookup, turnsLeft_modify hi hstepped.onward⟩
  by_cases hready : .probe f i ∈ s.ready
  · obtain ⟨probes', hafter, hlookup, hfewer⟩ := hturn h hflight hready
    exact ⟨[.turn (.probe f i)], probes', by simp [Move.within], hafter, hlookup, hfewer⟩
  · -- its task has a timer then, and time has to pass first
    obtain ⟨due, htimer⟩ := h.timer ((probe?_batch hflight i).trans hi) hp hready
    have hwoken : .probe f i ∈ (s.moveClock due).ready := moveClock_due htimer
    have hlookup : (s.moveClock due).flights.lookup f =
        some ⟨owner, .batch options stage probes⟩ := by
      obtain ⟨timers, ready, hclock⟩ := moveClock_eq s due
      rw [hclock]
      exact hflight
    obtain ⟨probes', hafter, hlookup, hfewer⟩ := hturn (h.passes due) hlookup hwoken
    exact ⟨[.clock due, .turn (.probe f i)], probes', by simp [Move.within], hafter, hlookup,
      hfewer⟩

/-- An operation whose batch has been joined ends, or goes on to a batch with less ahead of it. -/
theorem runFlight_ahead (hflight : s.flights.lookup f = some ⟨owner, .batch options stage probes⟩)
    (hjoined : joined probes = true) :
    (s.runFlight f).flights.lookup f = none ∨ ∃ options' stage' probes',
      (s.runFlight f).flights.lookup f = some ⟨owner, .batch options' stage' probes'⟩ ∧
        stage'.ahead < stage.ahead := by
  cases hchanges : changes probes with
  | error task =>
    rw [runFlight_broken hflight hjoined hchanges]
    exact Or.inl (land_gone _ _ _ _)
  | ok probed =>
    have hahead := resume_ahead s options stage probed
    rw [runFlight_joined hflight hjoined hchanges]
    generalize s.resume options stage probed = r at hahead ⊢
    obtain ⟨a, progress⟩ := r
    cases progress with
    | done reply => exact Or.inl (land_gone _ _ _ _)
    | await options' stage' conns =>
      exact Or.inr ⟨options', stage', _, launch_lookup a f owner options' stage' conns, hahead.2⟩

/-- Whatever batch an operation waits for, it can be brought to its end. -/
theorem Tended.can_end (h : Tended s)
    (hflight : s.flights.lookup f = some ⟨owner, .batch options stage probes⟩) :
    ∃ moves : List Move, (∀ m ∈ moves, m.within f) ∧
      (moves.foldl Manager.next s).flights.lookup f = none := by
  -- by induction on what the operation has ahead of it, and then on the turns of its probes
  induction hahead : stage.ahead using WellFoundedLT.induction
    generalizing options stage probes s with
  | _ bound ih =>
  induction hturns : (probes.map (·.state.turnsLeft)).sum using Nat.strongRecOn
    generalizing probes s with
  | _ n ihTurns =>
    cases hjoined : joined probes with
    | false =>
      obtain ⟨moves, probes', hmoves, hafter, hlookup, hfewer⟩ := h.can_step hflight hjoined
      obtain ⟨more, hmore, hgone⟩ := ihTurns _ (hturns ▸ hfewer) hafter hlookup rfl
      refine ⟨moves ++ more, fun m hm => ?_, ?_⟩
      · exact (List.mem_append.mp hm).elim (hmoves m) (hmore m)
      · rw [List.foldl_append]
        exact hgone
    | true =>
      have hready : .flight f ∈ s.ready := h.joined (fun h => h) hflight hjoined
      have hafter := h.next (.turn (.flight f))
      have honward :=
        runFlight_ahead (s := { s with ready := s.ready.erase (.flight f) }) hflight hjoined
      rw [← next_flight hready] at honward
      rcases honward with hgone | ⟨options', stage', probes', hnext, hless⟩
      · exact ⟨[.turn (.flight f)], by simp [Move.within], hgone⟩
      · obtain ⟨more, hmore, hgone⟩ := ih _ (hahead ▸ hless) hafter hnext rfl
        exact ⟨.turn (.flight f) :: more, List.forall_mem_cons.mpr ⟨rfl, hmore⟩, hgone⟩

end Manager

end RpcPool

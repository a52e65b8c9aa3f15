import RpcPool.Proofs.Reactions

/-!
# Turns of tasks

The functions that carry operations, probes and poll loops on, taken apart into sections. A task
never has an explicit section of its own: whatever it does besides its own sections is done by the
listeners that it calls. Between two batches an operation holds on to connections; it never comes to
hold one that was not named before its turn or by a listener during it.

Results:
1. `rank_stretch`, `begin_stretch`, `resume_stretch`: an operation, from any point at which it had
   to wait to the next.
2. `launch_eq`, `land_eq`: what the start of a batch and the end of a flight leave alone.
3. `runFlight_turn`, `runProbe_turn`, `runLoop_turn`: all that a turn of a task can come to.
4. `runTask_stretch`, `moveClock_frame`: a turn of any task, and the clock.
-/

namespace RpcPool

/-- The next group of a search, and what the search goes on with, is made of the groups it had. -/
theorem Search.mem_next {excluded conns : List Connection} {groups : List (List Connection)}
    {q : Search} {c : Connection} (h : Search.next excluded groups = some (conns, q))
    (hc : c ∈ q.instances ++ conns) : c ∈ excluded ∨ c ∈ groups.flatten := by
  induction groups with
  | nil => exact absurd h (by simp [Search.next])
  | cons g later ih =>
    unfold Search.next at h
    dsimp only at h
    split at h
    · exact (ih h).imp_right fun hin => List.mem_append_right g hin
    · simp only [Option.some.injEq, Prod.mk.injEq] at h
      obtain ⟨rfl, rfl⟩ := h
      rcases List.mem_append.mp hc with hc | hc
      · exact (List.mem_append.mp hc).imp_right fun hin => List.mem_append_right g hin
      · exact Or.inr (List.mem_append_left _ (List.mem_filter.mp hc).1)

namespace Manager

open Relation

/-- A stretch of a task: what is not its own is done by listeners. -/
abbrev TaskStretch (K : Connection → Prop) : Manager → Manager → Prop := Stretch K False Full

variable {K : Connection → Prop} {s t : Manager}

/-! ## The end of a batch -/

theorem announce_stretch (s : Manager) (current : Option Connection) :
    TaskStretch K s (s.announce current) := by
  rw [announce_eq]
  exact announceWith_stretch full_act s current

theorem follow_stretch {r : Pool × Option Switch}
    (h : ∀ q w, r = (q, some w) → s.pool.Automatic K q w) : TaskStretch K s (s.follow r) := by
  rw [follow_eq]
  exact followWith_stretch full_act h

theorem publishStatus_stretch (s : Manager) (probed : List (Connection × Bool)) :
    TaskStretch K s (s.publishStatus probed) := by
  unfold publishStatus
  split
  · exact .refl
  · split
    · exact announce_stretch s _
    · exact .refl

theorem firstConnected_known {health : InstanceId → Health} {probed : List (Connection × Bool)}
    {c : Connection} (hK : ∀ p ∈ probed, K p.1)
    (h : Selection.firstConnected health (probed.map (·.1)) = some c) :
    K c ∧ (health c.id).connected = true := by
  obtain ⟨hmem, up⟩ := Selection.firstConnected_eq_some h
  obtain ⟨p, hp, rfl⟩ := List.mem_map.mp hmem
  exact ⟨hK p hp, up⟩

theorem rank_stretch {options : CheckOptions} {probed : List (Connection × Bool)}
    (hK : ∀ p ∈ probed, K p.1) : TaskStretch K s (s.rank options probed).1 := by
  have hpublish : TaskStretch K s (s.publishStatus probed) := publishStatus_stretch s probed
  unfold rank
  dsimp only
  split
  · refine ReflTransGen.trans ?_ (follow_stretch fun q w h => .improve h)
    split
    · next c hc =>
      obtain ⟨hknown, up⟩ := firstConnected_known hK hc
      exact hpublish.trans (follow_stretch fun q w h => .reconnect hknown up h)
    · exact hpublish
  · exact hpublish

theorem sweep_stretch (options : CheckOptions) (excluded : List Connection)
    (groups : List (List Connection)) (s : Manager) :
    TaskStretch K s (s.sweep options excluded groups).1 ∧
      ∀ c ∈ (s.sweep options excluded groups).2.instances, c ∈ excluded ∨ c ∈ groups.flatten := by
  induction groups generalizing s with
  | nil => exact ⟨.refl, fun c hc => absurd hc List.not_mem_nil⟩
  | cons g later ih =>
    unfold sweep
    dsimp only
    split
    · have hrank : TaskStretch K s (s.rank options []).1 :=
        rank_stretch fun p hp => absurd hp List.not_mem_nil
      split
      · exact ⟨hrank, fun c hc => absurd hc List.not_mem_nil⟩
      · obtain ⟨hsweep, hnamed⟩ := ih (s.rank options []).1
        exact ⟨hrank.trans hsweep,
          fun c hc => (hnamed c hc).imp_right fun hin => List.mem_append_right g hin⟩
    · refine ⟨.refl, fun c hc => ?_⟩
      rcases List.mem_append.mp hc with hc | hc
      · exact (List.mem_append.mp hc).imp_right fun hin => List.mem_append_right g hin
      · exact Or.inr (List.mem_append_left _ (List.mem_filter.mp hc).1)

/-! ## Beginnings and continuations -/

theorem mem_groups {c : Connection} (h : c ∈ s.groups.flatten) :
    c ∈ s.pool.registry.connections := by
  obtain ⟨g, hg, hc⟩ := List.mem_flatten.mp h
  exact Selection.mem_of_mem_groups hg hc

theorem beginStatus_instances {options : CheckOptions} {c : Connection}
    (h : c ∈ (s.beginStatus options).instances) : c ∈ s.instances := by
  unfold beginStatus at h
  split at h
  · exact absurd h List.not_mem_nil
  · next current hcur =>
    have hc : c = current := by simpa [Progress.instances, Stage.instances] using h
    exact hc ▸ mem_instances_of_current hcur

theorem beginRanking_stretch (options : CheckOptions) (conns excluded : List Connection) :
    TaskStretch K s (s.beginRanking options conns excluded).1 ∧
      ∀ c ∈ (s.beginRanking options conns excluded).2.instances, c ∈ conns := by
  unfold beginRanking
  dsimp only
  split
  · exact ⟨rank_stretch fun p hp => absurd hp List.not_mem_nil,
      fun c hc => absurd hc List.not_mem_nil⟩
  · exact ⟨.refl, fun c hc => (List.mem_filter.mp hc).1⟩

/-- An operation begins with connections that it was given or that are named. -/
theorem begin_stretch (s : Manager) (op : Operation) :
    TaskStretch K s (s.begin op).1 ∧
      ∀ c ∈ (s.begin op).2.instances, c ∈ op.instances ∨ c ∈ s.instances := by
  cases op with
  | checkConnection => exact ⟨.refl, fun c hc => Or.inr (beginStatus_instances hc)⟩
  | checkConnections conns excluded =>
    obtain ⟨hbegin, hnamed⟩ :=
      beginRanking_stretch (s := s) (K := K) s.defaultOptions conns excluded
    exact ⟨hbegin, fun c hc => Or.inl (List.mem_append_left _ (hnamed c hc))⟩
  | bestAvailable excluded =>
    dsimp only [begin]
    split
    · exact ⟨.refl, fun c hc => absurd hc List.not_mem_nil⟩
    · next conns q hnext =>
      exact ⟨.refl, fun c hc => (Search.mem_next hnext hc).imp_right fun hin =>
        mem_instances_of_registered (mem_groups hin)⟩
  | poll o =>
    dsimp only [begin]
    split
    · exact ⟨.refl, fun c hc => Or.inr (beginStatus_instances hc)⟩
    · obtain ⟨hbegin, hnamed⟩ := beginRanking_stretch (s := s) (K := K) (s.pollOptions o)
        s.pool.registry.connections o.excluded
      exact ⟨hbegin, fun c hc => Or.inr (mem_instances_of_registered (hnamed c hc))⟩
    · obtain ⟨hsweep, hnamed⟩ := sweep_stretch (K := K) (s.pollOptions o) o.excluded s.groups s
      exact ⟨hsweep, fun c hc =>
        (hnamed c hc).imp_right fun hin => mem_instances_of_registered (mem_groups hin)⟩

/-- An operation goes on with connections that it held or that are named by then. -/
theorem resume_stretch (s : Manager) (options : CheckOptions) {stage : Stage}
    {probed : List (Connection × Bool)} (hstage : ∀ c ∈ stage.instances, K c)
    (hprobed : ∀ p ∈ probed, K p.1) :
    TaskStretch K s (s.resume options stage probed).1 ∧
      ∀ c ∈ (s.resume options stage probed).2.instances,
        K c ∨ c ∈ (s.resume options stage probed).1.instances := by
  have hpublish : TaskStretch K s (s.publishStatus probed) := publishStatus_stretch s probed
  have held {q q' : Search} {conns : List Connection} {c : Connection}
      (hq : ∀ c ∈ q.instances, K c) (hnext : Search.next q.excluded q.later = some (conns, q'))
      (hc : c ∈ q'.instances ++ conns) : K c :=
    hq c (List.mem_append.mpr (Search.mem_next hnext hc))
  cases stage with
  | status watched =>
    have hwatched : K watched := hstage watched (List.mem_singleton.mpr rfl)
    dsimp only [resume]
    split
    · split
      · exact ⟨hpublish, fun c hc => absurd hc List.not_mem_nil⟩
      · next conns q hnext =>
        -- the groups are read off the registry as the listeners have left it
        refine ⟨hpublish, fun c hc => ?_⟩
        rcases List.mem_cons.mp hc with rfl | hc
        · exact Or.inl hwatched
        · rcases Search.mem_next hnext hc with hin | hin
          · exact Or.inl ((List.mem_singleton.mp hin) ▸ hwatched)
          · exact Or.inr (mem_instances_of_registered (mem_groups hin))
    · exact ⟨hpublish, fun c hc => absurd hc List.not_mem_nil⟩
  | failover watched changed q =>
    dsimp only [resume]
    split
    · next best hbest =>
      obtain ⟨hknown, up⟩ := firstConnected_known hprobed hbest
      exact ⟨hpublish.trans (follow_stretch fun p w h => .failover hknown up h),
        fun c hc => absurd hc List.not_mem_nil⟩
    · split
      · exact ⟨hpublish, fun c hc => absurd hc List.not_mem_nil⟩
      · next conns q' hnext =>
        refine ⟨hpublish, fun c hc => Or.inl ?_⟩
        rcases List.mem_cons.mp hc with rfl | hc
        · exact hstage c (List.mem_cons_self ..)
        · exact held (fun c hc => hstage c (List.mem_cons_of_mem _ hc)) hnext hc
  | search q =>
    dsimp only [resume]
    split
    · exact ⟨hpublish, fun c hc => absurd hc List.not_mem_nil⟩
    · split
      · exact ⟨hpublish, fun c hc => absurd hc List.not_mem_nil⟩
      · next conns q' hnext => exact ⟨hpublish, fun c hc => Or.inl (held hstage hnext hc)⟩
  | ranking => exact ⟨rank_stretch hprobed, fun c hc => absurd hc List.not_mem_nil⟩
  | sweep q =>
    dsimp only [resume]
    split
    · exact ⟨rank_stretch hprobed, fun c hc => absurd hc List.not_mem_nil⟩
    · obtain ⟨hsweep, hnamed⟩ :=
        sweep_stretch (K := K) options q.excluded q.later (s.rank options probed).1
      exact ⟨(rank_stretch hprobed).trans hsweep,
        fun c hc => Or.inl (hstage c (List.mem_append.mpr (hnamed c hc)))⟩

/-! ## Flights -/

theorem connection_mapIdx {f : Nat → Connection → BatchProbe} (hf : ∀ i c, (f i c).connection = c)
    (conns : List Connection) : (conns.mapIdx f).map (·.connection) = conns := by
  refine List.ext_getElem? fun i => ?_
  rw [List.getElem?_map, List.getElem?_mapIdx]
  cases conns[i]? <;> simp [hf]

theorem launch_frame {id : FlightId} {owner : Owner} {options : CheckOptions} {stage : Stage}
    {conns : List Connection} (h : ∀ c ∈ stage.instances ++ conns, c ∈ s.instances ∨ K c) :
    Frame K s (s.launch id owner options stage conns) := by
  have hbatch (n : Nat) {probes : List BatchProbe} (hprobes : probes.map (·.connection) = conns) :
      Frame K s ({ s with started := n }.setFlight id ⟨owner, .batch options stage probes⟩) :=
    have hcount : Frame K s { s with started := n } := ⟨rfl, fun _ h => Or.inl h⟩
    hcount.trans (setFlight_frame fun c hc => h c (hprobes ▸ hc))
  unfold launch
  dsimp only
  rw [← List.foldl_map]
  exact (hbatch _ (connection_mapIdx (fun _ _ => rfl) conns)).trans (foldl_wake_frame _ _)

/-- A batch starts with one queued probe for each of its connections. -/
theorem launch_eq (s : Manager) (id : FlightId) (owner : Owner) (options : CheckOptions)
    (stage : Stage) (conns : List Connection) :
    ∃ probes started ready, s.launch id owner options stage conns =
        { s.setFlight id ⟨owner, .batch options stage probes⟩ with
          started := started, ready := ready } ∧
      probes.map (·.connection) = conns ∧ ∀ p ∈ probes, p.state = .queued := by
  unfold launch
  dsimp only
  rw [← List.foldl_map]
  generalize hbatch : conns.mapIdx _ = probes
  obtain ⟨ready, hready⟩ := foldl_wake_eq ((List.range probes.length).map fun i => .probe id i)
    ({ s with started := s.started + probes.length }.setFlight id
      ⟨owner, .batch options stage probes⟩)
  refine ⟨probes, s.started + probes.length, ready, hready, ?_, ?_⟩
  · rw [← hbatch]
    exact connection_mapIdx (fun _ _ => rfl) conns
  · intro p hp
    rw [← hbatch] at hp
    obtain ⟨i, hi, rfl⟩ := List.mem_mapIdx.mp hp
    rfl

theorem without_frame (s : Manager) (id : FlightId) :
    Frame K s { s with flights := without id s.flights } := by
  refine ⟨rfl, fun c hc => Or.inl ?_⟩
  rw [mem_instances] at hc ⊢
  rcases hc with h | h | h | ⟨e, he, h⟩ | h
  · exact Or.inl h
  · exact Or.inr (Or.inl h)
  · exact Or.inr (Or.inr (Or.inl h))
  · exact Or.inr (Or.inr (Or.inr (Or.inl ⟨e, mem_without he, h⟩)))
  · exact Or.inr (Or.inr (Or.inr (Or.inr h)))

theorem land_quiet (s : Manager) (id : FlightId) (owner : Owner) (reply : Reply) :
    QuietStretch K s (s.land id owner reply) := by
  have hdone : Frame K s { s with flights := without id s.flights } := without_frame s id
  have hanswer : Frame K { s with flights := without id s.flights }
      { s with flights := without id s.flights, answers := upsert id reply s.answers } :=
    ⟨rfl, fun _ h => Or.inl h⟩
  -- the loop is the next task to run
  have hlast (t : Manager) (loop : LoopId) : QuietStretch K t
      { t.release with
        ready := .loop loop :: t.release.ready.filter fun t => !(t == .loop loop) } := by
    have hready : Frame K t.release
        { t.release with
          ready := .loop loop :: t.release.ready.filter fun t => !(t == .loop loop) } :=
      ⟨rfl, fun _ h => Or.inl h⟩
    exact QuietStretch.work ((release_frame t).trans hready)
  unfold land
  cases owner with
  | caller => exact QuietStretch.work ((hdone.trans hanswer).trans (release_frame _))
  | task => exact QuietStretch.work ((hdone.trans hanswer).trans (release_frame _))
  | loop loop =>
    dsimp only
    split
    · exact QuietStretch.work (hdone.trans (release_frame _))
    · refine (QuietStretch.work hdone).trans ?_
      split
      · exact (QuietStretch.note rfl rfl).trans (hlast _ loop)
      · exact (QuietStretch.note rfl rfl).trans (hlast _ loop)

/-- The end of a flight leaves alone what is not about tasks and answers. -/
theorem land_eq (s : Manager) (id : FlightId) (owner : Owner) (reply : Reply) :
    ∃ answers poller loops timers ready trace, s.land id owner reply =
      { s with
        flights := without id s.flights, answers := answers, poller := poller, loops := loops,
        timers := timers, ready := ready, trace := trace } := by
  unfold land
  cases owner with
  | caller =>
    obtain ⟨poller, loops, timers, ready, h⟩ := release_eq { s with
      flights := without id s.flights
      answers := upsert id reply s.answers }
    exact ⟨_, poller, loops, timers, ready, _, h⟩
  | task =>
    obtain ⟨poller, loops, timers, ready, h⟩ := release_eq { s with
      flights := without id s.flights
      answers := upsert id reply s.answers }
    exact ⟨_, poller, loops, timers, ready, _, h⟩
  | loop loop =>
    have hlast (e : Event) := release_eq (({ s with
      flights := without id s.flights } : Manager).record e)
    dsimp only
    split
    · obtain ⟨poller, loops, timers, ready, h⟩ := release_eq { s with
        flights := without id s.flights }
      exact ⟨_, poller, loops, timers, ready, _, h⟩
    · split
      · next b =>
        obtain ⟨poller, loops, timers, ready, h⟩ := hlast (.pollFailed _ b)
        rw [h]
        exact ⟨_, poller, loops, timers, _, _, rfl⟩
      · obtain ⟨poller, loops, timers, ready, h⟩ := hlast (.polled _ _ _)
        rw [h]
        exact ⟨_, poller, loops, timers, _, _, rfl⟩

theorem land_flights (s : Manager) (id : FlightId) (owner : Owner) (reply : Reply) :
    (s.land id owner reply).flights = without id s.flights := by
  obtain ⟨answers, poller, loops, timers, ready, trace, hland⟩ := land_eq s id owner reply
  rw [hland]

theorem proceed_quiet {id : FlightId} {owner : Owner} {progress : Progress}
    (h : ∀ c ∈ progress.instances, c ∈ s.instances ∨ K c) :
    QuietStretch K s (s.proceed id owner progress) := by
  cases progress with
  | await options stage conns => exact QuietStretch.work (launch_frame h)
  | done reply => exact land_quiet s id owner reply

theorem changes_cons (p : BatchProbe) (rest : List BatchProbe) :
    changes (p :: rest) =
      match p.state with
      | .ended changed => (changes rest).map ((p.connection, changed) :: ·)
      | _ => .error p.task := by
  unfold changes
  rw [List.mapM_cons]
  obtain ⟨connection, timeoutMs, task, state⟩ := p
  cases state with
  | ended changed =>
    dsimp only [bind, Except.bind]
    split <;> next h => rw [h]; rfl
  | queued => rfl
  | waiting outcome => rfl
  | panicked => rfl

theorem changes_ok {probes : List BatchProbe} {probed : List (Connection × Bool)}
    (h : changes probes = .ok probed) : probed.map (·.1) = probes.map (·.connection) := by
  induction probes generalizing probed with
  | nil =>
    cases h
    rfl
  | cons p rest ih =>
    rw [changes_cons] at h
    split at h
    · cases hrest : changes rest with
      | error task =>
        rw [hrest] at h
        exact absurd h (by simp [Except.map])
      | ok more =>
        rw [hrest] at h
        simp only [Except.map, Except.ok.injEq] at h
        rw [← h, List.map_cons, List.map_cons, ih hrest]
    · exact absurd h (by simp)

section Flights

variable {id : FlightId} {owner : Owner} {options : CheckOptions} {stage : Stage}
  {probes : List BatchProbe}

theorem runFlight_queued {op : Operation} (h : s.flights.lookup id = some ⟨owner, .queued op⟩) :
    s.runFlight id = (s.begin op).1.proceed id owner (s.begin op).2 := by
  unfold runFlight
  rw [h]

/-- An operation finds that a probe of its batch broke. -/
theorem runFlight_broken {task : Nat}
    (h : s.flights.lookup id = some ⟨owner, .batch options stage probes⟩)
    (hjoined : joined probes = true) (hchanges : changes probes = .error task) :
    s.runFlight id = s.land id owner (.broken ⟨Stage.operation stage, task⟩) := by
  unfold runFlight
  rw [h]
  dsimp only
  rw [if_pos hjoined, hchanges]

/-- An operation goes on from its batch. -/
theorem runFlight_joined {probed : List (Connection × Bool)}
    (h : s.flights.lookup id = some ⟨owner, .batch options stage probes⟩)
    (hjoined : joined probes = true) (hchanges : changes probes = .ok probed) :
    s.runFlight id = (s.resume options stage probed).1.proceed id owner
      (s.resume options stage probed).2 := by
  unfold runFlight
  rw [h]
  dsimp only
  rw [if_pos hjoined, hchanges]

/-- An operation goes on waiting for its batch. -/
theorem runFlight_waiting (h : s.flights.lookup id = some ⟨owner, .batch options stage probes⟩)
    (hopen : joined probes = false) : s.runFlight id = s := by
  unfold runFlight
  rw [h]
  dsimp only
  rw [if_neg (by simp [hopen])]

end Flights

/-- What a turn of an operation comes to. An operation that was queued begins. One whose batch has
been joined goes on from it, or breaks off. -/
inductive FlightTurn (id : FlightId) (s : Manager) : Manager → Prop
  | waits : (∀ flight, s.flights.lookup id = some flight → ∃ options stage probes,
      flight.work = .batch options stage probes ∧ joined probes = false) → FlightTurn id s s
  | begins {owner : Owner} {op : Operation} : s.flights.lookup id = some ⟨owner, .queued op⟩ →
      FlightTurn id s ((s.begin op).1.proceed id owner (s.begin op).2)
  | breaks {owner : Owner} {options : CheckOptions} {stage : Stage} {probes : List BatchProbe}
      {task : Nat} : s.flights.lookup id = some ⟨owner, .batch options stage probes⟩ →
      joined probes = true → changes probes = .error task →
      FlightTurn id s (s.land id owner (.broken ⟨Stage.operation stage, task⟩))
  | goesOn {owner : Owner} {options : CheckOptions} {stage : Stage} {probes : List BatchProbe}
      {probed : List (Connection × Bool)} :
      s.flights.lookup id = some ⟨owner, .batch options stage probes⟩ →
      joined probes = true → changes probes = .ok probed →
      FlightTurn id s ((s.resume options stage probed).1.proceed id owner
        (s.resume options stage probed).2)

theorem runFlight_turn (s : Manager) (id : FlightId) : FlightTurn id s (s.runFlight id) := by
  cases hf : s.flights.lookup id with
  | none =>
    have hrun : s.runFlight id = s := by
      unfold runFlight
      rw [hf]
    rw [hrun]
    exact .waits fun flight hflight => by cases hf.symm.trans hflight
  | some flight =>
    obtain ⟨owner, op | ⟨options, stage, probes⟩⟩ := flight
    · rw [runFlight_queued hf]
      exact .begins hf
    · cases hjoined : joined probes with
      | false =>
        rw [runFlight_waiting hf hjoined]
        refine .waits fun flight hflight => ?_
        cases hf.symm.trans hflight
        exact ⟨options, stage, probes, rfl, hjoined⟩
      | true =>
        cases hchanges : changes probes with
        | error task =>
          rw [runFlight_broken hf hjoined hchanges]
          exact .breaks hf hjoined hchanges
        | ok probed =>
          rw [runFlight_joined hf hjoined hchanges]
          exact .goesOn hf hjoined hchanges

theorem runFlight_stretch {id : FlightId} (hK : ∀ c ∈ s.instances, K c) :
    TaskStretch K s (s.runFlight id) := by
  have hturn := runFlight_turn s id
  generalize s.runFlight id = after at hturn ⊢
  cases hturn with
  | waits _ => exact .refl
  | @begins owner op hf =>
    obtain ⟨hbegin, hnamed⟩ := begin_stretch (K := K) s op
    exact hbegin.trans (proceed_quiet fun c hc =>
      Or.inr ((hnamed c hc).elim (fun h => hK c (mem_instances_flight hf h)) (hK c))).stretch
  | @breaks owner _ _ _ _ _ _ _ => exact (land_quiet s id owner _).stretch
  | @goesOn owner options stage probes probed hf _ hprobed =>
    have hstage (c : Connection) (hc : c ∈ stage.instances) : K c :=
      hK c (mem_instances_flight hf (List.mem_append_left _ hc))
    have hheld (p : Connection × Bool) (hp : p ∈ probed) : K p.1 :=
      hK _ (mem_instances_flight hf (List.mem_append_right _
        (changes_ok hprobed ▸ List.mem_map_of_mem (f := (·.1)) hp)))
    obtain ⟨hresume, hnamed⟩ := resume_stretch s options hstage hheld
    exact hresume.trans (proceed_quiet fun c hc => (hnamed c hc).symm).stretch

/-! ## Probes -/

theorem connection_modify (probes : List BatchProbe) (index : Nat) (state : ProbeState) :
    (probes.modify index fun p => { p with state := state }).map (·.connection) =
      probes.map (·.connection) := by
  induction probes generalizing index with
  | nil => rw [List.modify_nil]
  | cons p rest ih =>
    cases index with
    | zero => rfl
    | succ index => simp only [List.modify_succ_cons, List.map_cons, ih]

theorem setProbe_frame (s : Manager) (id : FlightId) (index : Nat) (state : ProbeState) :
    Frame K s (s.setProbe id index state) := by
  unfold setProbe
  split
  · next owner options stage probes hf =>
    refine setFlight_frame fun c hc => Or.inl (mem_instances_flight hf ?_)
    simp only [Work.instances, connection_modify] at hc
    exact hc
  · exact Frame.refl s

theorem endProbe_quiet (s : Manager) (id : FlightId) (index : Nat) (c : Connection)
    (outcome : Probe.Outcome) : QuietStretch K s (s.endProbe id index c outcome) := by
  unfold endProbe
  dsimp only
  exact .head (.probe c outcome)
    (QuietStretch.work ((setProbe_frame _ id index _).trans (wake_frame _ (.flight id))))

/-- A probe of an operation that waits for its batch. -/
def HasProbe (s : Manager) (id : FlightId) (index : Nat) (p : BatchProbe) : Prop :=
  ∃ owner options stage probes, s.flights.lookup id = some ⟨owner, .batch options stage probes⟩ ∧
    probes[index]? = some p

/-- A probe has been started, and what its endpoint does has been found out. -/
def probing (s : Manager) (p : BatchProbe) : Manager :=
  { s.record (.probeStarted p.connection p.timeoutMs) with
    network := (s.network.take p.connection.uri).2 }

/-- What a turn of a probe comes to. A probe that is queued starts; then it breaks, or it waits, or
it has its answer at once. A probe that has waited ends. -/
inductive ProbeTurn (id : FlightId) (index : Nat) (s : Manager) : Manager → Prop
  | nothing : ProbeTurn id index s s
  | breaks {p : BatchProbe} : s.HasProbe id index p → p.state = .queued →
      (s.network.take p.connection.uri).1 = .panic →
      ProbeTurn id index s (((s.probing p).setProbe id index .panicked).wake (.flight id))
  | waits {p : BatchProbe} (outcome : Probe.Outcome) (due : Nat) :
      s.HasProbe id index p → p.state = .queued →
      ProbeTurn id index s
        (((s.probing p).setProbe id index (.waiting outcome)).sleep due (.probe id index))
  | answers {p : BatchProbe} (outcome : Probe.Outcome) :
      s.HasProbe id index p → p.state = .queued →
      ProbeTurn id index s ((s.probing p).endProbe id index p.connection outcome)
  | ends {p : BatchProbe} {outcome : Probe.Outcome} :
      s.HasProbe id index p → p.state = .waiting outcome →
      ProbeTurn id index s (s.endProbe id index p.connection outcome)

theorem runProbe_turn (s : Manager) (id : FlightId) (index : Nat) :
    ProbeTurn id index s (s.runProbe id index) := by
  unfold runProbe
  split
  · next owner options stage probes hflight =>
    split
    · exact .nothing
    · next p hp =>
      have hprobe : s.HasProbe id index p := ⟨owner, options, stage, probes, hflight, hp⟩
      split
      · next hqueued =>
        unfold startProbe
        dsimp only
        split
        · next hpanic => exact .breaks hprobe hqueued hpanic
        · exact .waits _ _ hprobe hqueued
        · split
          · exact .answers _ hprobe hqueued
          · split
            · exact .waits _ _ hprobe hqueued
            · exact .waits _ _ hprobe hqueued
      · next hwaiting => exact .ends hprobe hwaiting
      · exact .nothing
  · exact .nothing

theorem probing_quiet (s : Manager) (p : BatchProbe) : QuietStretch K s (s.probing p) := by
  have hnetwork : Frame K (s.record (.probeStarted p.connection p.timeoutMs)) (s.probing p) :=
    ⟨rfl, fun _ h => Or.inl h⟩
  exact (QuietStretch.note rfl rfl).trans (QuietStretch.work hnetwork)

theorem ProbeTurn.quiet {id : FlightId} {index : Nat} (h : ProbeTurn id index s t) :
    QuietStretch K s t := by
  cases h with
  | nothing => exact .refl
  | breaks _ _ _ =>
    exact (probing_quiet s _).trans
      (QuietStretch.work ((setProbe_frame _ id index _).trans (wake_frame _ _)))
  | waits outcome due _ _ =>
    exact (probing_quiet s _).trans
      (QuietStretch.work ((setProbe_frame _ id index _).trans (sleep_frame _ due _)))
  | answers outcome _ _ => exact (probing_quiet s _).trans (endProbe_quiet _ id index _ outcome)
  | ends _ _ => exact endProbe_quiet s id index _ _

/-! ## Poll loops and the clock -/

theorem stopLoop_quiet (s : Manager) (id : LoopId) (l : PollLoop) :
    QuietStretch K s
      ({ s with loops := without id s.loops }.record (.pollingStopped l.iterations)) := by
  have hdone : Frame K s { s with loops := without id s.loops } := by
    refine ⟨rfl, fun c hc => Or.inl ?_⟩
    rw [mem_instances] at hc ⊢
    rcases hc with h | h | h | h | ⟨e, he, h⟩
    · exact Or.inl h
    · exact Or.inr (Or.inl h)
    · exact Or.inr (Or.inr (Or.inl h))
    · exact Or.inr (Or.inr (Or.inr (Or.inl h)))
    · exact Or.inr (Or.inr (Or.inr (Or.inr ⟨e, mem_without he, h⟩)))
  exact (QuietStretch.work hdone).trans (QuietStretch.note rfl rfl)

/-- A poll loop takes the tick that is due, and an operation is queued for its iteration. -/
def ticked (s : Manager) (id : LoopId) (l : PollLoop) : Manager :=
  { s.setLoop id { l with
      iterations := l.iterations + 1
      due := nextTick l.options.period l.due s.now
      began := s.now } with
    nextId := s.nextId + 1 }.setFlight s.nextId ⟨.loop id, .queued (.poll l.options)⟩

/-- What a turn of a poll loop comes to. A loop that was told to stop quits. Another begins an
iteration if it is time for it, and waits if it is not. -/
inductive LoopTurn (id : LoopId) (s : Manager) : Manager → Prop
  | gone : s.loops.lookup id = none → LoopTurn id s s
  | quits {l : PollLoop} : s.loops.lookup id = some l → l.stopped = true →
      LoopTurn id s ({ s with loops := without id s.loops }.record (.pollingStopped l.iterations))
  | begins {l : PollLoop} : s.loops.lookup id = some l → l.stopped = false → l.due ≤ s.now →
      LoopTurn id s ((s.ticked id l).runFlight s.nextId)
  | waits {l : PollLoop} : s.loops.lookup id = some l → l.stopped = false → ¬ l.due ≤ s.now →
      LoopTurn id s (s.sleep l.due (.loop id))

theorem runLoop_turn (s : Manager) (id : LoopId) : LoopTurn id s (s.runLoop id) := by
  unfold runLoop
  split
  · next hnone => exact .gone hnone
  · next l hl =>
    split
    · next hstopped => exact .quits hl hstopped
    · next hgoing =>
      split
      · next hdue => exact .begins hl (Bool.eq_false_iff.mpr hgoing) hdue
      · next hlate => exact .waits hl (Bool.eq_false_iff.mpr hgoing) hlate

theorem ticked_frame {id : LoopId} {l : PollLoop} (hl : s.loops.lookup id = some l)
    (hK : ∀ c ∈ s.instances, K c) : Frame K s (s.ticked id l) := by
  have hexcluded (c : Connection) (hc : c ∈ l.options.excluded) : c ∈ s.instances :=
    mem_instances_loop hl hc
  let loop : PollLoop := { l with
    iterations := l.iterations + 1
    due := nextTick l.options.period l.due s.now
    began := s.now }
  have hloop : Frame K s (s.setLoop id loop) :=
    setLoop_frame fun c hc => Or.inl (hexcluded c hc)
  have hnext : Frame K (s.setLoop id loop) { s.setLoop id loop with nextId := s.nextId + 1 } :=
    ⟨rfl, fun _ h => Or.inl h⟩
  exact (hloop.trans hnext).trans (setFlight_frame fun c hc => Or.inr (hK c (hexcluded c hc)))

theorem runLoop_stretch {id : LoopId} (hK : ∀ c ∈ s.instances, K c) :
    TaskStretch K s (s.runLoop id) := by
  have hturn := runLoop_turn s id
  generalize s.runLoop id = after at hturn ⊢
  cases hturn with
  | gone _ => exact .refl
  | quits _ _ => exact (stopLoop_quiet s id _).stretch
  | @begins l hl _ _ =>
    have hframe : Frame K s (s.ticked id l) := ticked_frame hl hK
    exact (Stretch.work hframe).trans
      (runFlight_stretch fun c hc => (hframe.instances c hc).elim (hK c) fun h => h)
  | @waits l _ _ _ => exact Stretch.work (sleep_frame s l.due (.loop id))

/-- Whatever a task does in its turn consists of sections of its own and of notifications. -/
theorem runTask_stretch (s : Manager) (t : Task) :
    TaskStretch (· ∈ s.instances) s (s.runTask t) := by
  unfold runTask
  split
  · have hready : Frame (· ∈ s.instances) s { s with ready := s.ready.erase t } :=
      ⟨rfl, fun _ h => Or.inl h⟩
    refine (Stretch.work hready).trans ?_
    cases t with
    | probe id index => exact (runProbe_turn _ id index).quiet.stretch
    | flight id => exact runFlight_stretch fun _ h => h
    | loop id => exact runLoop_stretch fun _ h => h
  · exact .refl

theorem moveClock_eq (s : Manager) (now : Nat) :
    ∃ timers ready, s.moveClock now = { s with now := now, timers := timers, ready := ready } := by
  unfold moveClock
  dsimp only
  rw [← List.foldl_map]
  obtain ⟨ready, hready⟩ := foldl_wake_eq ((s.timers.filter fun e => e.1 ≤ now).map (·.2))
    { s with now := now, timers := s.timers.filter fun e => !(e.1 ≤ now) }
  exact ⟨_, ready, hready⟩

theorem moveClock_frame (s : Manager) (now : Nat) : Frame K s (s.moveClock now) := by
  obtain ⟨timers, ready, hclock⟩ := moveClock_eq s now
  rw [hclock]
  exact ⟨rfl, fun _ h => Or.inl h⟩

end Manager

end RpcPool

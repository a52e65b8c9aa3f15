import RpcPool.Proofs.Isolation

/-!
# Connections that a poll loop leaves out

The options of a poll loop may exclude connections by URI. An iteration that checks all connections,
or goes through the groups, leaves them out of each of its batches. An iteration that checks the
current connection probes that one in any case, and if it is lost, the search for another one leaves
out only the lost connection: it knows nothing of the options of the loop.

Results:
1. `begin_permitted`, `resume_permitted`: which batch an iteration starts, and which batch comes
   after which.
2. `Iterating.next`: whatever else happens in a run, the batches of an iteration are of this kind.
3. `iteration_probes`: an iteration probes an excluded connection only if it checks the current one,
   which is then probed itself or is lost and searched a replacement for.
-/

namespace RpcPool

/-- The batches that an iteration with some options may start, given the connection that was current
when it began. -/
inductive Permitted (o : PollOptions) (start : Option Connection) :
    Stage → List Connection → Prop
  | all {conns : List Connection} : o.pollType = .all →
      (∀ c ∈ conns, Selection.excludes o.excluded c = false) → Permitted o start .ranking conns
  | prioritized {q : Search} {conns : List Connection} : o.pollType = .prioritized →
      q.excluded = o.excluded → (∀ c ∈ conns, Selection.excludes o.excluded c = false) →
      Permitted o start (.sweep q) conns
  | current {w : Connection} : o.pollType = .current → start = some w →
      Permitted o start (.status w) [w]
  | failover {w : Connection} {changed : Bool} {q : Search} {conns : List Connection} :
      o.pollType = .current → start = some w → q.excluded = [w] →
      (∀ c ∈ conns, Selection.excludes [w] c = false) →
      Permitted o start (.failover w changed q) conns

/-- How an iteration may go on. -/
def Progress.Permitted (o : PollOptions) (start : Option Connection) : Progress → Prop
  | .await _ stage conns => RpcPool.Permitted o start stage conns
  | .done _ => True

theorem not_excluded_of_mem_filter {excluded conns : List Connection} {c : Connection}
    (h : c ∈ conns.filter fun c => !Selection.excludes excluded c) :
    Selection.excludes excluded c = false := by
  have hkept := (List.mem_filter.mp h).2
  simpa using hkept

/-- A search goes on with what it leaves out. -/
theorem Search.next_excluded {excluded conns : List Connection} {groups : List (List Connection)}
    {q : Search} (h : Search.next excluded groups = some (conns, q)) :
    q.excluded = excluded ∧ ∀ c ∈ conns, Selection.excludes excluded c = false := by
  induction groups with
  | nil => exact absurd h (by simp [Search.next])
  | cons g later ih =>
    unfold Search.next at h
    dsimp only at h
    split at h
    · exact ih h
    · simp only [Option.some.injEq, Prod.mk.injEq] at h
      obtain ⟨rfl, rfl⟩ := h
      exact ⟨rfl, fun c hc => not_excluded_of_mem_filter hc⟩

namespace Manager

variable {o : PollOptions} {start : Option Connection} {f : FlightId} {s t : Manager}

/-! ## The batches of an iteration -/

theorem sweep_permitted (h : o.pollType = .prioritized) (options : CheckOptions)
    (groups : List (List Connection)) (s : Manager) :
    (s.sweep options o.excluded groups).2.Permitted o start := by
  induction groups generalizing s with
  | nil => exact trivial
  | cons g later ih =>
    unfold sweep
    dsimp only
    split
    · split
      · exact trivial
      · exact ih _
    · exact .prioritized h rfl fun c hc => not_excluded_of_mem_filter hc

theorem begin_permitted (s : Manager) (o : PollOptions) :
    (s.begin (.poll o)).2.Permitted o s.current := by
  dsimp only [begin]
  split
  · next htype =>
    dsimp only [beginStatus]
    split
    · exact trivial
    · next w hcurrent => exact .current htype hcurrent
  · next htype =>
    dsimp only [beginRanking]
    split
    · exact trivial
    · exact .all htype fun c hc => not_excluded_of_mem_filter hc
  · next htype => exact sweep_permitted htype _ _ s

theorem resume_permitted {stage : Stage} {conns : List Connection}
    (h : Permitted o start stage conns) (s : Manager) (options : CheckOptions)
    (probed : List (Connection × Bool)) : (s.resume options stage probed).2.Permitted o start := by
  cases h with
  | all htype _ => exact trivial
  | @prioritized q _ htype hexcluded _ =>
    dsimp only [resume]
    split
    · exact trivial
    · rw [hexcluded]
      exact sweep_permitted htype _ _ _
  | @current w htype hstart =>
    dsimp only [resume]
    split
    · split
      · exact trivial
      · next conns q hnext =>
        -- the search is given the lost connection to leave out, and not the options of the loop
        obtain ⟨hexcluded, hconns⟩ := Search.next_excluded hnext
        exact .failover htype hstart hexcluded hconns
    · exact trivial
  | @failover w changed q _ htype hstart hexcluded _ =>
    dsimp only [resume]
    split
    · exact trivial
    · split
      · exact trivial
      · next conns q' hnext =>
        obtain ⟨hexcluded', hconns⟩ := Search.next_excluded hnext
        rw [hexcluded] at hexcluded' hconns
        exact .failover htype hstart hexcluded' hconns

/-! ## An iteration in a run -/

/-- An iteration is under way or over, and all its batches have been of the permitted kinds. -/
structure Iterating (o : PollOptions) (start : Option Connection) (f : FlightId) (s : Manager) :
    Prop where
  begun : f < s.nextId
  batch : ∀ flight, s.flights.lookup f = some flight → ∃ options stage probes,
    flight.work = .batch options stage probes ∧
      Permitted o start stage (probes.map (·.connection))

theorem Iterating.same (h : Iterating o start f s) (hnext : t.nextId = s.nextId)
    (hflights : t.flights = s.flights) : Iterating o start f t where
  begun := hnext ▸ h.begun
  batch flight hflight := h.batch flight (hflights ▸ hflight)

theorem Iterating.spares (h : Iterating o start f s) (hst : Spares f s t) :
    Iterating o start f t where
  begun := Nat.lt_of_lt_of_le h.begun hst.nextId
  batch flight hflight := h.batch flight (hst.lookup (.inl h.begun) ▸ hflight)

theorem proceed_iterating (hbegun : f < s.nextId) (owner : Owner) {progress : Progress}
    (h : progress.Permitted o start) : Iterating o start f (s.proceed f owner progress) := by
  cases progress with
  | await options stage conns =>
    obtain ⟨probes, started, ready, hlaunch, hconns, _⟩ := launch_eq s f owner options stage conns
    show Iterating o start f (s.launch f owner options stage conns)
    rw [hlaunch]
    refine ⟨hbegun, fun flight hflight => ?_⟩
    have hset : (s.setFlight f ⟨owner, .batch options stage probes⟩).flights.lookup f =
        some ⟨owner, .batch options stage probes⟩ := lookup_upsert_self _ _ _
    cases hset.symm.trans hflight
    refine ⟨options, stage, probes, rfl, ?_⟩
    rw [hconns]
    exact h
  | done reply =>
    refine ⟨?_, fun flight hflight => ?_⟩
    · show f < (s.land f owner reply).nextId
      rw [land_nextId]
      exact hbegun
    · have hgone : (s.land f owner reply).flights.lookup f = none := by
        rw [land_flights]
        exact lookup_without_self _ _
      cases hgone.symm.trans hflight

theorem Iterating.runFlight (h : Iterating o start f s) : Iterating o start f (s.runFlight f) := by
  have hturn := runFlight_turn s f
  generalize s.runFlight f = after at hturn ⊢
  cases hturn with
  | waits _ => exact h
  | begins hflight =>
    obtain ⟨_, _, _, hwork, _⟩ := h.batch _ hflight
    exact absurd hwork (by simp)
  | @breaks owner _ stage _ task _ _ _ =>
    let reply : Reply := .broken ⟨Stage.operation stage, task⟩
    have hdone : (Progress.done reply).Permitted o start := trivial
    exact proceed_iterating h.begun owner hdone
  | @goesOn owner options stage _ probed hflight _ _ =>
    obtain ⟨_, _, _, hwork, hpermitted⟩ := h.batch _ hflight
    cases hwork
    have hresume : Spares f s (s.resume options stage probed).1 :=
      resume_spares s options stage probed
    exact proceed_iterating (Nat.lt_of_lt_of_le h.begun hresume.nextId) owner
      (resume_permitted hpermitted s options probed)

theorem Iterating.wake (h : Iterating o start f s) (task : Task) :
    Iterating o start f (s.wake task) := h.spares (wake_spares s task)

theorem Iterating.setProbe (h : Iterating o start f s) (index : Nat) (state : ProbeState) :
    Iterating o start f (s.setProbe f index state) := by
  unfold Manager.setProbe
  split
  · next owner options stage probes hflight =>
    obtain ⟨_, _, _, hwork, hpermitted⟩ := h.batch _ hflight
    cases hwork
    refine ⟨h.begun, fun flight hset => ?_⟩
    have hself := lookup_upsert_self f (⟨owner, .batch options stage
      (probes.modify index fun p => { p with state := state })⟩ : Flight) s.flights
    cases hself.symm.trans hset
    refine ⟨options, stage, _, rfl, ?_⟩
    rw [connection_modify]
    exact hpermitted
  · exact h

theorem Iterating.endProbe (h : Iterating o start f s) (index : Nat) (c : Connection)
    (outcome : Probe.Outcome) : Iterating o start f (s.endProbe f index c outcome) := by
  have hnoted : Iterating o start f ({ s with pool := s.pool.observe c outcome }.record
      (.probeEnded c outcome)) := h.same rfl rfl
  exact (hnoted.setProbe index _).wake _

theorem Iterating.probeTurn {index : Nat} (h : Iterating o start f s)
    (hturn : ProbeTurn f index s t) : Iterating o start f t := by
  have hprobing (p : BatchProbe) : Iterating o start f (s.probing p) := h.same rfl rfl
  cases hturn with
  | nothing => exact h
  | breaks _ _ _ => exact ((hprobing _).setProbe index .panicked).wake _
  | @waits p outcome due _ _ =>
    have hset := (hprobing p).setProbe index (.waiting outcome)
    exact hset.same rfl rfl
  | answers outcome _ _ => exact (hprobing _).endProbe index _ outcome
  | ends _ _ => exact h.endProbe index _ _

/-- No move of a run makes an iteration start a batch of another kind. -/
theorem Iterating.next (h : Iterating o start f s) (m : Move) : Iterating o start f (s.next m) := by
  -- every move but the turns of the iteration itself leaves its batch alone
  by_cases hm : m.concerns f = true
  · cases m with
    | turn task =>
      have herased : Iterating o start f { s with ready := s.ready.erase task } := h.same rfl rfl
      dsimp only [Manager.next, runTask]
      split
      · cases task with
        | probe id index =>
          have hid : id = f := eq_of_beq hm
          rw [hid]
          rw [hid] at herased
          exact herased.probeTurn (runProbe_turn _ f index)
        | flight id =>
          have hid : id = f := eq_of_beq hm
          rw [hid]
          rw [hid] at herased
          exact herased.runFlight
        | loop id => exact absurd hm (by simp [Move.concerns])
      · exact h
    | _ => exact absurd hm (by simp [Move.concerns])
  · exact h.spares (next_spares (Bool.eq_false_iff.mpr hm))

theorem Iterating.run (h : Iterating o start f s) (moves : List Move) :
    Iterating o start f (moves.foldl Manager.next s) := by
  induction moves generalizing s with
  | nil => exact h
  | cons m rest ih => exact ih (h.next m)

/-- An iteration of a poll loop is about to begin. -/
def iteration (s : Manager) (id : LoopId) (l : PollLoop) : Manager :=
  { { s with ready := s.ready.erase (.loop id) }.setLoop id { l with
      iterations := l.iterations + 1
      due := nextTick l.options.period l.due s.now
      began := s.now } with
    nextId := s.nextId + 1 }.setFlight s.nextId ⟨.loop id, .queued (.poll l.options)⟩

/-- A turn of a poll loop whose next iteration is due goes on to the first batch of the iteration,
or to its end if it needs none. -/
theorem next_loop {id : LoopId} {l : PollLoop} (hloop : s.loops.lookup id = some l)
    (hready : s.ready.contains (.loop id) = true) (hgoing : l.stopped = false)
    (hdue : l.due ≤ s.now) :
    s.next (.turn (.loop id)) = ((s.iteration id l).begin (.poll l.options)).1.proceed s.nextId
      (.loop id) ((s.iteration id l).begin (.poll l.options)).2 := by
  have hrun : s.next (.turn (.loop id)) = (s.iteration id l).runFlight s.nextId := by
    dsimp only [next, runTask]
    rw [if_pos hready]
    unfold runLoop
    rw [show ({ s with ready := s.ready.erase (.loop id) } : Manager).loops.lookup id = some l from
      hloop]
    dsimp only
    rw [if_neg (by simp [hgoing]), if_pos hdue]
    rfl
  rw [hrun]
  exact runFlight_queued (lookup_upsert_self _ _ _)

/-- A turn of a poll loop whose next iteration is due begins that iteration. -/
theorem iterating_loop {id : LoopId} {l : PollLoop} (hloop : s.loops.lookup id = some l)
    (hready : s.ready.contains (.loop id) = true) (hgoing : l.stopped = false)
    (hdue : l.due ≤ s.now) :
    Iterating l.options s.current s.nextId (s.next (.turn (.loop id))) := by
  have hbegin : Spares s.nextId (s.iteration id l)
      ((s.iteration id l).begin (.poll l.options)).1 := begin_spares _ _
  rw [next_loop hloop hready hgoing hdue]
  exact proceed_iterating (Nat.lt_of_lt_of_le (Nat.lt_succ_self _) hbegin.nextId) _
    (begin_permitted (s.iteration id l) l.options)

/-! ## The probes of an iteration -/

/-- Whether an operation has a connection in its batch. -/
def InBatch (s : Manager) (f : FlightId) (c : Connection) : Prop :=
  ∃ owner options stage probes, s.flights.lookup f = some ⟨owner, .batch options stage probes⟩ ∧
    c ∈ probes.map (·.connection)

theorem endProbe_trace (s : Manager) (f : FlightId) (index : Nat) (c : Connection)
    (outcome : Probe.Outcome) : (s.endProbe f index c outcome).trace =
      ⟨s.now, s.pool.observe c outcome, .probeEnded c outcome⟩ :: s.trace := by
  let noted : Manager := { s with pool := s.pool.observe c outcome }.record (.probeEnded c outcome)
  have hset := (setProbe_frame (K := fun _ => True) noted f index
    (.ended (s.pool.wouldChange c outcome))).trace
  have hwake := (wake_frame (K := fun _ => True) (noted.setProbe f index
    (.ended (s.pool.wouldChange c outcome))) (.flight f)).trace
  exact hwake.trans hset

theorem inBatch_of_hasProbe {index : Nat} {p : BatchProbe} (h : s.HasProbe f index p) :
    s.InBatch f p.connection := by
  obtain ⟨owner, options, stage, probes, hflight, hp⟩ := h
  exact ⟨owner, options, stage, probes, hflight,
    List.mem_map.mpr ⟨p, List.mem_of_getElem? hp, rfl⟩⟩

/-- The probes that start in a turn of a probe are of connections of its batch. -/
theorem ProbeTurn.trace {index : Nat} (h : ProbeTurn f index s t) :
    ∃ new, t.trace = new ++ s.trace ∧
      ∀ m ∈ new, ∀ c timeoutMs, m.event = .probeStarted c timeoutMs → s.InBatch f c := by
  have hset (u : Manager) (state : ProbeState) : (u.setProbe f index state).trace = u.trace :=
    (setProbe_frame (K := fun _ => True) u f index state).trace
  have hstarted {p : BatchProbe} (hp : s.HasProbe f index p) (c : Connection) (timeoutMs : UInt32)
      (hevent : Event.probeStarted p.connection p.timeoutMs = .probeStarted c timeoutMs) :
      s.InBatch f c := by
    cases hevent
    exact inBatch_of_hasProbe hp
  cases h with
  | nothing => exact ⟨[], rfl, fun m hm => absurd hm List.not_mem_nil⟩
  | @breaks p hp _ _ =>
    have hwake := (wake_frame (K := fun _ => True)
      ((s.probing p).setProbe f index .panicked) (.flight f)).trace
    refine ⟨[_], hwake.trans (hset _ _), fun m hm c timeoutMs hevent => ?_⟩
    rw [List.mem_singleton.mp hm] at hevent
    exact hstarted hp c timeoutMs hevent
  | @waits p outcome due hp _ =>
    refine ⟨[_], hset (s.probing p) (.waiting outcome), fun m hm c timeoutMs hevent => ?_⟩
    rw [List.mem_singleton.mp hm] at hevent
    exact hstarted hp c timeoutMs hevent
  | @answers p outcome hp _ =>
    refine ⟨[_, _], endProbe_trace (s.probing p) f index _ outcome,
      fun m hm c timeoutMs hevent => ?_⟩
    rcases List.mem_pair.mp hm with rfl | rfl
    · exact absurd hevent (by simp)
    · exact hstarted hp c timeoutMs hevent
  | ends _ _ =>
    refine ⟨[_], endProbe_trace s f index _ _, fun m hm c timeoutMs hevent => ?_⟩
    rw [List.mem_singleton.mp hm] at hevent
    exact absurd hevent (by simp)

theorem batch_of_started {index : Nat} {c : Connection} {timeoutMs : UInt32} {m : Moment}
    (hm : m ∈ since s (s.next (.turn (.probe f index))))
    (hevent : m.event = .probeStarted c timeoutMs) : s.InBatch f c := by
  dsimp only [next, runTask] at hm
  split at hm
  · let erased : Manager := { s with ready := s.ready.erase (.probe f index) }
    obtain ⟨new, htrace, hnew⟩ := (runProbe_turn erased f index).trace
    have hsince : (erased.runProbe f index).trace = new.reverse.reverse ++ s.trace := by
      rw [List.reverse_reverse]
      exact htrace
    rw [since_of_trace hsince] at hm
    exact hnew m (List.mem_reverse.mp hm) c timeoutMs hevent
  · rw [since_same rfl] at hm
    exact absurd hm List.not_mem_nil

/-- Whether an operation probes a group for a replacement of a lost connection. -/
def Replacing (s : Manager) (f : FlightId) (w : Connection) : Prop :=
  ∃ owner options changed q probes,
    s.flights.lookup f = some ⟨owner, .batch options (.failover w changed q) probes⟩

/-- An iteration of a poll loop probes an excluded connection only if it checks the current one. It
then probes the one that was current when the iteration began, or one with another URI, as a
replacement for the one that was current. -/
theorem iteration_probes {id : LoopId} {l : PollLoop} (hloop : s.loops.lookup id = some l)
    (hready : s.ready.contains (.loop id) = true) (hgoing : l.stopped = false)
    (hdue : l.due ≤ s.now) {moves : List Move}
    (ht : t = moves.foldl Manager.next (s.next (.turn (.loop id)))) {index : Nat} {m : Moment}
    (hm : m ∈ since t (t.next (.turn (.probe s.nextId index)))) {c : Connection}
    {timeoutMs : UInt32} (hevent : m.event = .probeStarted c timeoutMs)
    (hexcluded : Selection.excludes l.options.excluded c = true) :
    l.options.pollType = .current ∧ ∃ w, s.current = some w ∧
      (c = w ∨ c.uri ≠ w.uri ∧ t.Replacing s.nextId w) := by
  have hiterating : Iterating l.options s.current s.nextId t := by
    rw [ht]
    exact (iterating_loop hloop hready hgoing hdue).run moves
  obtain ⟨owner, options, stage, probes, hflight, hprobe⟩ := batch_of_started hm hevent
  obtain ⟨_, _, _, hwork, hpermitted⟩ := hiterating.batch _ hflight
  cases hwork
  generalize probes.map (·.connection) = conns at hprobe hpermitted
  cases hpermitted with
  | all htype hconns =>
    rw [hconns c hprobe] at hexcluded
    exact absurd hexcluded (by simp)
  | prioritized htype _ hconns =>
    rw [hconns c hprobe] at hexcluded
    exact absurd hexcluded (by simp)
  | @current w htype hstart => exact ⟨htype, w, hstart, Or.inl (List.mem_singleton.mp hprobe)⟩
  | @failover w changed q _ htype hstart _ hconns =>
    refine ⟨htype, w, hstart, Or.inr ⟨fun huri => ?_, owner, options, changed, q, probes, hflight⟩⟩
    have hother := hconns c hprobe
    simp [Selection.excludes, huri] at hother

/-- A is current and cannot be reached; the poll loop that checks it leaves out B. -/
def watching : Manager :=
  [.call (.selectUri "A"), .call (.addUri "B" none),
    .call (.startPolling { periodMs := 1000, pollType := .current } ["B"])].foldl next
      (idle ⟨[("A", ⟨[], none⟩), ("B", ⟨[], some (.reply 0 (.ok ⟨true, .ofMillis 5⟩))⟩)]⟩ true)

theorem watching_probes :
    let b : Connection := ⟨1, { uri := "B" }⟩
    let lost := [.turn (.probe 1 0), .turn (.flight 1)].foldl next
      (watching.next (.turn (.loop 0)))
    (∃ l, watching.loops.lookup 0 = some l ∧ Selection.excludes l.options.excluded b = true) ∧
      (∃ m ∈ since lost (lost.next (.turn (.probe 1 0))), ∃ timeoutMs,
        m.event = .probeStarted b timeoutMs) ∧
      ∃ w, watching.current = some w ∧ lost.Replacing 1 w := by
  intro b lost
  let l : PollLoop :=
    ⟨{ periodMs := 1000, pollType := .current, excluded := [b] }, false, 0, 0, 0⟩
  have hloop : watching.loops.lookup 0 = some l := rfl
  have hexcluded : Selection.excludes l.options.excluded b = true := by decide
  have hstarted : ∃ m ∈ since lost (lost.next (.turn (.probe 1 0))),
      m.event = .probeStarted b 5000 :=
    ⟨_, List.mem_of_getElem? (i := 0) rfl, rfl⟩
  obtain ⟨m, hm, hevent⟩ := hstarted
  obtain ⟨_, w, hcurrent, hw⟩ := iteration_probes (t := lost) hloop (by decide) rfl
    (by decide) rfl hm hevent hexcluded
  refine ⟨⟨l, hloop, hexcluded⟩, ⟨m, hm, 5000, hevent⟩, w, hcurrent, ?_⟩
  rcases hw with rfl | ⟨_, hreplacing⟩
  · exact absurd hcurrent (by decide)
  · exact hreplacing

end Manager

end RpcPool

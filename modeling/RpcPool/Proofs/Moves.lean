import RpcPool.Proofs.Chores

/-!
# What a move does to batches

A move of a run touches at most one batch: it lets one of its probes take a turn, opens it, or ends
it. What the endpoint of a probe does settles at the start of the probe what will come of it and
when.

Results:
1. `runProbe_step`: the turn of a probe that is not over.
2. `begin_carries`, `resume_carries`: the batches of an operation have connections, and the options
   that the operation began with.
3. `next_befalls`: all that a move can do to batches and their tasks.
-/

namespace RpcPool

/-- What comes of a probe with a timeout, unless it breaks. An answer that comes exactly at the
timeout still counts. -/
def Behaviour.outcome? (timeoutMs : UInt32) : Behaviour → Option Probe.Outcome
  | .reply delay outcome =>
    some (if delay ≤ timeoutMs.toNat then outcome else .error (.timeout timeoutMs))
  | .hang => some (.error (.timeout timeoutMs))
  | .panic => none

/-- How long a probe with a timeout takes. -/
def Behaviour.duration (timeoutMs : UInt32) : Behaviour → Nat
  | .reply delay _ => min delay timeoutMs.toNat
  | .hang => timeoutMs.toNat
  | .panic => 0

theorem Behaviour.outcome?_eq_none {b : Behaviour} {timeoutMs : UInt32} :
    b.outcome? timeoutMs = none ↔ b = .panic := by
  cases b <;> simp [outcome?]

theorem Behaviour.duration_le (b : Behaviour) (timeoutMs : UInt32) :
    b.duration timeoutMs ≤ timeoutMs.toNat := by
  cases b with
  | reply delay outcome => exact Nat.min_le_right _ _
  | hang => exact Nat.le_refl _
  | panic => exact Nat.zero_le _

/-- The timeout that an operation has in place of the pool's. -/
def Operation.timeoutMs : Operation → Option UInt32
  | .poll o => o.timeoutMs
  | _ => none

/-- A batch that an operation goes on to has connections, and the options of the operation. -/
def Progress.Carries (options : CheckOptions) : Progress → Prop
  | .await options' _ conns => options' = options ∧ conns ≠ []
  | .done _ => True

namespace Manager

variable {s t a : Manager} {m : Move} {f g : FlightId} {i j : Nat} {owner : Owner}
  {options : CheckOptions} {stage : Stage} {probes : List BatchProbe} {p : BatchProbe}
  {state : ProbeState}

/-! ## Probes -/

/-- The probe of an operation at a place of its batch. -/
def probe? (s : Manager) (f : FlightId) (i : Nat) : Option BatchProbe :=
  match s.flights.lookup f with
  | some ⟨_, .batch _ _ probes⟩ => probes[i]?
  | _ => none

theorem probe?_batch (h : s.flights.lookup f = some ⟨owner, .batch options stage probes⟩)
    (i : Nat) : s.probe? f i = probes[i]? := by
  unfold probe?
  rw [h]

theorem probe?_none (h : s.flights.lookup f = none) (i : Nat) : s.probe? f i = none := by
  unfold probe?
  rw [h]

theorem probe?_queued {op : Operation} (h : s.flights.lookup f = some ⟨owner, .queued op⟩)
    (i : Nat) : s.probe? f i = none := by
  unfold probe?
  rw [h]

theorem probe?_same (h : t.flights.lookup f = s.flights.lookup f) (i : Nat) :
    t.probe? f i = s.probe? f i := by
  unfold probe?
  rw [h]

theorem probe?_some (h : s.probe? f i = some p) : ∃ owner options stage probes,
    s.flights.lookup f = some ⟨owner, .batch options stage probes⟩ ∧ probes[i]? = some p := by
  unfold probe? at h
  split at h
  · next owner options stage probes hflight => exact ⟨owner, options, stage, probes, hflight, h⟩
  · exact absurd h (by simp)

/-- No probe of an operation is still to take a turn. -/
def Resting (s : Manager) (f : FlightId) : Prop :=
  ∀ i p, s.probe? f i = some p → p.state.isOver = true

theorem resting_of_joined
    (h : s.flights.lookup f = some ⟨owner, .batch options stage probes⟩)
    (hjoined : joined probes = true) : s.Resting f := by
  intro i p hp
  rw [probe?_batch h] at hp
  exact List.all_eq_true.mp hjoined p (List.mem_of_getElem? hp)

theorem resting_of_unbatched (h : ∀ owner options stage probes,
    s.flights.lookup f ≠ some ⟨owner, .batch options stage probes⟩) : s.Resting f := by
  intro i p hp
  obtain ⟨owner, options, stage, probes, hflight, _⟩ := probe?_some hp
  exact absurd hflight (h owner options stage probes)

/-- The turn of a probe that is not over, and the state that the probe comes to. -/
inductive ProbeStep (f : FlightId) (i : Nat) (p : BatchProbe) (s : Manager) :
    ProbeState → Manager → Prop
  | breaks : p.state = .queued → (s.network.take p.connection.uri).1 = .panic →
      ProbeStep f i p s .panicked (((s.probing p).setProbe f i .panicked).wake (.flight f))
  | waits {outcome : Probe.Outcome} : p.state = .queued →
      (s.network.take p.connection.uri).1.outcome? p.timeoutMs = some outcome →
      ProbeStep f i p s (.waiting outcome)
        (((s.probing p).setProbe f i (.waiting outcome)).sleep
          (s.now + (s.network.take p.connection.uri).1.duration p.timeoutMs) (.probe f i))
  | answers {outcome : Probe.Outcome} : p.state = .queued →
      (s.network.take p.connection.uri).1.outcome? p.timeoutMs = some outcome →
      (s.network.take p.connection.uri).1.duration p.timeoutMs = 0 →
      ProbeStep f i p s (.ended (s.pool.wouldChange p.connection outcome))
        ((s.probing p).endProbe f i p.connection outcome)
  | ends {outcome : Probe.Outcome} : p.state = .waiting outcome →
      ProbeStep f i p s (.ended (s.pool.wouldChange p.connection outcome))
        (s.endProbe f i p.connection outcome)

theorem runProbe_step (hp : s.probe? f i = some p) (hopen : p.state.isOver = false) :
    ∃ state, ProbeStep f i p s state (s.runProbe f i) := by
  obtain ⟨owner, options, stage, probes, hflight, hi⟩ := probe?_some hp
  unfold runProbe
  rw [hflight]
  dsimp only
  rw [hi]
  dsimp only
  rcases unfinished_cases hopen with hstate | ⟨outcome, hstate⟩
  · rw [hstate]
    unfold startProbe
    dsimp only
    cases hbehaviour : ((s.record (.probeStarted p.connection p.timeoutMs)).network.take
        p.connection.uri).1 with
    | panic => exact ⟨_, .breaks hstate hbehaviour⟩
    | hang =>
      have houtcome : (s.network.take p.connection.uri).1.outcome? p.timeoutMs =
          some (.error (.timeout p.timeoutMs)) := congrArg (·.outcome? p.timeoutMs) hbehaviour
      have hstep := ProbeStep.waits (f := f) (i := i) (s := s) hstate houtcome
      rw [show (s.network.take p.connection.uri).1 = .hang from hbehaviour] at hstep
      exact ⟨_, hstep⟩
    | reply delay outcome =>
      have hbehaviour : (s.network.take p.connection.uri).1 = .reply delay outcome := hbehaviour
      have houtcome : (s.network.take p.connection.uri).1.outcome? p.timeoutMs =
          some (if delay ≤ p.timeoutMs.toNat then outcome else .error (.timeout p.timeoutMs)) :=
        congrArg (·.outcome? p.timeoutMs) hbehaviour
      have hduration : (s.network.take p.connection.uri).1.duration p.timeoutMs =
          min delay p.timeoutMs.toNat := congrArg (·.duration p.timeoutMs) hbehaviour
      dsimp only
      split
      · next hzero =>
        rw [hzero, if_pos (Nat.zero_le _)] at houtcome
        rw [hzero, Nat.zero_min] at hduration
        exact ⟨_, .answers hstate houtcome hduration⟩
      · have hstep := ProbeStep.waits (f := f) (i := i) hstate houtcome
        rw [hduration] at hstep
        split
        · next hle =>
          rw [if_pos hle, Nat.min_eq_left hle] at hstep
          exact ⟨_, hstep⟩
        · next hlate =>
          rw [if_neg hlate, Nat.min_eq_right (Nat.le_of_not_le hlate)] at hstep
          exact ⟨_, hstep⟩
  · rw [hstate]
    exact ⟨_, .ends hstate⟩

/-- There is no such probe, or it is over. -/
theorem runProbe_idle (h : ∀ p, s.probe? f i = some p → p.state.isOver = true) :
    s.runProbe f i = s := by
  unfold runProbe
  split
  · next owner options stage probes hflight =>
    split
    · rfl
    · next p hp =>
      rcases over_cases (h p ((probe?_batch hflight i).trans hp)) with hstate | ⟨_, hstate⟩
      · rw [hstate]
      · rw [hstate]
  · rfl

/-- All that can come of running a probe. -/
theorem runProbe_cases (s : Manager) (f : FlightId) (i : Nat) :
    ((∀ p, s.probe? f i = some p → p.state.isOver = true) ∧ s.runProbe f i = s) ∨
      ∃ p state, s.probe? f i = some p ∧ p.state.isOver = false ∧
        ProbeStep f i p s state (s.runProbe f i) := by
  by_cases hover : ∀ p, s.probe? f i = some p → p.state.isOver = true
  · exact Or.inl ⟨hover, runProbe_idle hover⟩
  · push Not at hover
    obtain ⟨p, hp, hopen⟩ := hover
    have hopen : p.state.isOver = false := by simpa using hopen
    obtain ⟨state, hstep⟩ := runProbe_step hp hopen
    exact Or.inr ⟨p, state, hp, hopen, hstep⟩

theorem endProbe_eq (h : s.flights.lookup f = some ⟨owner, .batch options stage probes⟩) (i : Nat)
    (c : Connection) (outcome : Probe.Outcome) :
    s.endProbe f i c outcome =
      ((({ s with pool := s.pool.observe c outcome }.record (.probeEnded c outcome)).setFlight f
        ⟨owner, .batch options stage (probes.modify i fun p =>
          { p with state := .ended (s.pool.wouldChange c outcome) })⟩).wake (.flight f)) := by
  let noted : Manager := { s with pool := s.pool.observe c outcome }.record (.probeEnded c outcome)
  have hset := setProbe_eq (s := noted) h i (.ended (s.pool.wouldChange c outcome))
  exact congrArg (·.wake (.flight f)) hset

theorem wake_ready {task : Task} (h : a.ready = s.ready) :
    (a.wake task).ready = (s.wake task).ready := by
  unfold wake
  rw [h]
  split
  · exact h
  · rfl

/-- What has changed with the turn of a probe, besides the health of its connection and the network:
the probe itself, and the tasks that take their turns next. -/
structure Stepped (f : FlightId) (i : Nat) (p : BatchProbe) (state : ProbeState) (flight : Flight)
    (s t : Manager) : Prop where
  flights : t.flights = upsert f flight s.flights
  now : t.now = s.now
  nextId : t.nextId = s.nextId
  started : t.started = s.started
  registry : t.pool.registry = s.pool.registry
  ready : t.ready = if state.isOver then (s.wake (.flight f)).ready else s.ready
  timers : t.timers = s.timers ++ if state.isOver then [] else
    [(s.now + (s.network.take p.connection.uri).1.duration p.timeoutMs, .probe f i)]
  onward : state.turnsLeft < p.state.turnsLeft

/-- A probe that is over wakes its operation. -/
theorem Stepped.over {flight : Flight} (hflights : a.flights = s.flights) (hnow : a.now = s.now)
    (hnextId : a.nextId = s.nextId) (hstarted : a.started = s.started)
    (hregistry : a.pool.registry = s.pool.registry) (hready : a.ready = s.ready)
    (htimers : a.timers = s.timers) (hover : state.isOver = true)
    (hopen : p.state.isOver = false) :
    Stepped f i p state flight s ((a.setFlight f flight).wake (.flight f)) := by
  have hwoken : ((a.setFlight f flight).wake (.flight f)).ready = (s.wake (.flight f)).ready :=
    wake_ready hready
  have honward : state.turnsLeft < p.state.turnsLeft := by
    rw [ProbeState.turnsLeft_eq_zero.mpr hover]
    refine Nat.pos_of_ne_zero fun hzero => ?_
    rw [ProbeState.turnsLeft_eq_zero.mp hzero] at hopen
    exact absurd hopen (by simp)
  obtain ⟨ready, hwake⟩ := wake_eq (a.setFlight f flight) (.flight f)
  rw [hwake] at hwoken ⊢
  refine ⟨congrArg (upsert f flight) hflights, hnow, hnextId, hstarted, hregistry, ?_, ?_, honward⟩
  · rw [if_pos hover]
    exact hwoken
  · rw [if_pos hover]
    exact htimers.trans (List.append_nil _).symm

theorem ProbeStep.stepped (h : ProbeStep f i p s state t)
    (hflight : s.flights.lookup f = some ⟨owner, .batch options stage probes⟩) :
    Stepped f i p state ⟨owner, .batch options stage
      (probes.modify i fun p => { p with state := state })⟩ s t := by
  have hqueued (h : p.state = .queued) : p.state.isOver = false := by rw [h]; rfl
  cases h with
  | breaks hstate _ =>
    rw [setProbe_eq (s := s.probing p) hflight]
    exact .over (a := s.probing p) rfl rfl rfl rfl rfl rfl rfl rfl (hqueued hstate)
  | waits hstate _ =>
    rw [setProbe_eq (s := s.probing p) hflight]
    exact ⟨rfl, rfl, rfl, rfl, rfl, rfl, rfl, hstate ▸ Nat.le_refl _⟩
  | @answers outcome hstate _ _ =>
    rw [endProbe_eq (s := s.probing p) hflight]
    let noted : Manager := { s.probing p with
      pool := s.pool.observe p.connection outcome }.record (.probeEnded p.connection outcome)
    exact .over (a := noted) rfl rfl rfl rfl rfl rfl rfl rfl (hqueued hstate)
  | @ends outcome hstate =>
    rw [endProbe_eq hflight]
    let noted : Manager := { s with
      pool := s.pool.observe p.connection outcome }.record (.probeEnded p.connection outcome)
    exact .over (a := noted) rfl rfl rfl rfl rfl rfl rfl rfl (by rw [hstate]; rfl)

/-! ## Batches of an operation -/

/-- The options with which an operation checks connections. -/
def optionsFor (s : Manager) : Operation → CheckOptions
  | .poll o => s.pollOptions o
  | _ => s.defaultOptions

theorem optionsFor_timeoutMs (s : Manager) (op : Operation) :
    (s.optionsFor op).timeoutMs = op.timeoutMs := by
  cases op <;> rfl

theorem beginStatus_carries (s : Manager) (options : CheckOptions) :
    (s.beginStatus options).Carries options := by
  unfold beginStatus
  split
  · exact trivial
  · exact ⟨rfl, List.cons_ne_nil _ _⟩

theorem beginRanking_carries (s : Manager) (options : CheckOptions)
    (conns excluded : List Connection) :
    (s.beginRanking options conns excluded).2.Carries options := by
  unfold beginRanking
  dsimp only
  split
  · exact trivial
  · next hne => exact ⟨rfl, fun hnil => hne (List.isEmpty_iff.mpr hnil)⟩

theorem sweep_carries (options : CheckOptions) (excluded : List Connection)
    (groups : List (List Connection)) (s : Manager) :
    (s.sweep options excluded groups).2.Carries options := by
  induction groups generalizing s with
  | nil => exact trivial
  | cons g later ih =>
    unfold sweep
    dsimp only
    split
    · split
      · exact trivial
      · exact ih _
    · next hne => exact ⟨rfl, fun hnil => hne (List.isEmpty_iff.mpr hnil)⟩

/-- An operation probes its first batch with its own options. -/
theorem begin_carries (s : Manager) (op : Operation) :
    (s.begin op).2.Carries (s.optionsFor op) := by
  cases op with
  | checkConnection => exact beginStatus_carries s _
  | checkConnections conns excluded => exact beginRanking_carries s _ conns excluded
  | bestAvailable excluded =>
    dsimp only [begin]
    split
    · exact trivial
    · next hnext => exact ⟨rfl, (Search.next_before hnext).1⟩
  | poll o =>
    dsimp only [begin]
    split
    · exact beginStatus_carries s _
    · exact beginRanking_carries s _ _ _
    · exact sweep_carries _ _ _ s

/-- An operation goes on to its next batch with the options of the last one. -/
theorem resume_carries (s : Manager) (options : CheckOptions) (stage : Stage)
    (probed : List (Connection × Bool)) :
    (s.resume options stage probed).2.Carries options := by
  cases stage with
  | status watched =>
    dsimp only [resume]
    split
    · split
      · exact trivial
      · next hnext => exact ⟨rfl, (Search.next_before hnext).1⟩
    · exact trivial
  | failover watched changed q =>
    dsimp only [resume]
    split
    · exact trivial
    · split
      · exact trivial
      · next hnext => exact ⟨rfl, (Search.next_before hnext).1⟩
  | search q =>
    dsimp only [resume]
    split
    · exact trivial
    · split
      · exact trivial
      · next hnext => exact ⟨rfl, (Search.next_before hnext).1⟩
  | ranking => exact trivial
  | sweep q =>
    dsimp only [resume]
    split
    · exact trivial
    · exact sweep_carries options q.excluded q.later _

/-! ## Moves -/

/-- Where an operation that opens a batch with a move has its options from: it begins with them, or
it had them in its last batch. -/
inductive Brings (s : Manager) (m : Move) (f : FlightId) (options : CheckOptions) : Prop
  | begins {op : Operation} : Undertakes s m f op → options.timeoutMs = op.timeoutMs →
      Brings s m f options
  | goesOn {owner : Owner} {stage : Stage} {probes : List BatchProbe} :
      s.flights.lookup f = some ⟨owner, .batch options stage probes⟩ → Brings s m f options

/-- What a move does to batches and their tasks. -/
inductive Befalls (s : Manager) : Move → Manager → Prop
  /-- No batch is concerned. -/
  | lasts {m : Move} {t : Manager} : Lasting s t → Befalls s m t
  /-- A probe takes its turn. -/
  | probes {f : FlightId} {i : Nat} {p : BatchProbe} {state : ProbeState} {t : Manager} :
      .probe f i ∈ s.ready → s.probe? f i = some p → p.state.isOver = false →
      ProbeStep f i p { s with ready := s.ready.erase (.probe f i) } state t →
      Befalls s (.turn (.probe f i)) t
  /-- There is no such probe, or it is over. -/
  | strays {f : FlightId} {i : Nat} : (∀ p, s.probe? f i = some p → p.state.isOver = true) →
      Befalls s (.turn (.probe f i)) { s with ready := s.ready.erase (.probe f i) }
  /-- An operation goes on waiting for its batch. -/
  | waits {f : FlightId} : (∀ owner options stage probes,
      s.flights.lookup f = some ⟨owner, .batch options stage probes⟩ → joined probes = false) →
      Befalls s (.turn (.flight f)) { s with ready := s.ready.erase (.flight f) }
  /-- An operation opens a batch. -/
  | opens {m : Move} {f : FlightId} {a : Manager} {owner : Owner} {options : CheckOptions}
      {stage : Stage} {conns : List Connection} : s.Resting f →
      Lasting { s with ready := s.ready.erase (.flight f) } a → f < a.nextId → conns ≠ [] →
      Brings s m f options → Befalls s m (a.launch f owner options stage conns)
  /-- An operation ends. -/
  | lands {m : Move} {f : FlightId} {a : Manager} {owner : Owner} {reply : Reply} : s.Resting f →
      Lasting { s with ready := s.ready.erase (.flight f) } a → f < a.nextId →
      Befalls s m (a.land f owner reply)
  /-- Time passes. -/
  | passes (time : Nat) : Befalls s (.clock time) (s.moveClock time)

theorem proceed_befalls {progress : Progress} (hresting : s.Resting f)
    (hlasting : Lasting { s with ready := s.ready.erase (.flight f) } a) (hbegun : f < a.nextId)
    (hcarries : progress.Carries options) (hbrings : Brings s m f options) :
    Befalls s m (a.proceed f owner progress) := by
  cases progress with
  | done reply => exact .lands hresting hlasting hbegun
  | await options' stage conns =>
    obtain ⟨rfl, hne⟩ := hcarries
    exact .opens hresting hlasting hbegun hne hbrings

theorem Undertakes.befalls {op : Operation} (h : Undertakes s m f op) (hs : s.Numbered) :
    Befalls s m (s.next m) := by
  obtain ⟨a, hprepared, hnext⟩ := h.begins hs
  have hbegin : Lasting a (a.begin op).1 := (begin_chores a op).lasting
  rw [hnext]
  exact proceed_befalls (resting_of_unbatched hprepared.unbatched) (hprepared.lasting.trans hbegin)
    (Nat.lt_of_lt_of_le hprepared.numbered hbegin.nextId) (begin_carries a op)
    (.begins h (optionsFor_timeoutMs a op))

theorem flight_befalls (hs : s.Numbered) (hready : .flight f ∈ s.ready) :
    Befalls s (.turn (.flight f)) (s.next (.turn (.flight f))) := by
  let erased : Manager := { s with ready := s.ready.erase (.flight f) }
  have hbegun (flight : Flight) (h : s.flights.lookup f = some flight) : f < s.nextId := by
    refine Nat.lt_of_not_le fun hle => ?_
    cases (hs f hle).symm.trans h
  have hturn : FlightTurn f erased (erased.runFlight f) := runFlight_turn erased f
  rw [show erased.runFlight f = s.next (.turn (.flight f)) from (next_flight hready).symm] at hturn
  generalize hnext : s.next (.turn (.flight f)) = t at hturn ⊢
  cases hturn with
  | waits hwaits =>
    refine .waits fun owner options stage probes h => ?_
    obtain ⟨_, _, _, hwork, hopen⟩ := hwaits _ h
    cases hwork
    exact hopen
  | begins hlookup => exact hnext ▸ Undertakes.befalls (.task hlookup hready) hs
  | breaks hlookup hjoined _ =>
    exact .lands (resting_of_joined hlookup hjoined) (.refl erased) (hbegun _ hlookup)
  | @goesOn owner options stage _ probed hlookup hjoined _ =>
    have hresume : Lasting erased (erased.resume options stage probed).1 :=
      (resume_chores erased options stage probed).lasting
    exact proceed_befalls (resting_of_joined hlookup hjoined) hresume
      (Nat.lt_of_lt_of_le (hbegun _ hlookup) hresume.nextId)
      (resume_carries erased options stage probed) (.goesOn hlookup)

theorem loop_befalls {id : LoopId} (hs : s.Numbered) (hready : .loop id ∈ s.ready) :
    Befalls s (.turn (.loop id)) (s.next (.turn (.loop id))) := by
  let erased : Manager := { s with ready := s.ready.erase (.loop id) }
  have herased : Lasting s erased := erase_loop_lasting s id
  have hnext : s.next (.turn (.loop id)) = erased.runLoop id := next_runLoop hready
  have hturn := runLoop_turn erased id
  generalize erased.runLoop id = after at hnext hturn
  cases hturn with
  | gone _ =>
    rw [hnext]
    exact .lasts herased
  | quits _ _ =>
    rw [hnext]
    exact .lasts (herased.trans (.same rfl rfl (Nat.le_refl _) rfl rfl rfl))
  | begins hloop hgoing hdue => exact Undertakes.befalls (.iteration hloop hready hgoing hdue) hs
  | @waits l _ _ _ =>
    rw [hnext]
    refine .lasts (herased.trans ⟨rfl, Nat.le_refl _, Nat.le_refl _, fun _ => Or.inl rfl, rfl,
      fun _ hf => hf, ?_⟩)
    show (erased.timers ++ [(l.due, Task.loop id)]).filter (·.2.isProbe) = _
    rw [List.filter_append]
    exact List.append_nil _

/-- All that a move can do to batches and their tasks. -/
theorem next_befalls (hs : s.Numbered) (m : Move) : Befalls s m (s.next m) := by
  cases m with
  | call c => exact .lasts (perform_chores s c).lasting
  | await r =>
    by_cases hheld : s.held = true
    · exact Undertakes.befalls (.awaited hheld) hs
    · rw [show s.next (.await r) = s from if_neg hheld]
      exact .lasts (.refl s)
  | turn task =>
    by_cases hready : task ∈ s.ready
    · cases task with
      | probe f i =>
        rw [next_probe hready]
        rcases runProbe_cases { s with ready := s.ready.erase (.probe f i) } f i with
          ⟨hover, hidle⟩ | ⟨p, state, hp, hopen, hstep⟩
        · rw [hidle]
          exact .strays hover
        · exact .probes hready hp hopen hstep
      | flight f => exact flight_befalls hs hready
      | loop id => exact loop_befalls hs hready
    · rw [next_not_ready hready]
      exact .lasts (.refl s)
  | clock time => exact .passes time
  | collect id => exact .lasts (.same rfl rfl (Nat.le_refl _) rfl rfl rfl)
  | forget name => exact .lasts (.same rfl rfl (Nat.le_refl _) rfl rfl rfl)
  | idle tasks => exact .lasts (.same rfl rfl (Nat.le_add_right _ _) rfl rfl rfl)

end Manager

end RpcPool

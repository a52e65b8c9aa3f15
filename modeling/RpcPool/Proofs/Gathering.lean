import Mathlib.Algebra.GroupWithZero.Nat
import RpcPool.Proofs.Batches
import RpcPool.Proofs.Exclusion
import RpcPool.Proofs.History

/-!
# A batch alone

While an operation waits for a batch of probes and nothing else takes a turn, each connection of the
batch is probed once, the registry stays as it is, and no task is forgotten: a probe that has not
ended is ready or has a timer, and the operation is ready once all probes are over.

Results:
1. `gathering_launch`: how a batch begins.
2. `Gathering.next`: a batch stays under way until it has been joined, with all probes accounted
   for; then its operation goes on.
3. `Gathering.can_join`: whatever has happened so far, the batch can still be joined.
-/

namespace RpcPool

/-- Whether a probe has been started. -/
def ProbeState.begun : ProbeState → Bool
  | .queued => false
  | _ => true

/-- How many turns a probe needs to its end. -/
def ProbeState.turnsLeft : ProbeState → Nat
  | .queued => 2
  | .waiting _ => 1
  | _ => 0

theorem ProbeState.turnsLeft_eq_zero {state : ProbeState} :
    state.turnsLeft = 0 ↔ state.isOver = true := by
  cases state <;> simp [turnsLeft, isOver]

namespace Manager

variable {s t u : Manager} {f : FlightId} {owner : Owner} {options : CheckOptions} {stage : Stage}
  {conns : List Connection} {probes : List BatchProbe} {index : Nat} {p : BatchProbe}
  {state : ProbeState}

/-- A probe that is alone in its batch knows whether it has changed the observed state. -/
structure Notes (s t : Manager) (p : BatchProbe) : Prop where
  waiting : p.state.isOver = false → t.pool.healthOf p.connection = s.pool.healthOf p.connection
  ended : ∀ changed, p.state = .ended changed →
    changed = ((s.pool.healthOf p.connection).status != (t.pool.healthOf p.connection).status)

/-- What the history since the beginning of a batch tells of its probes. -/
structure Tally (conns : List Connection) (s t : Manager) (probes : List BatchProbe) : Prop where
  batch : probes.map (·.connection) = conns
  unbroken : ∀ p ∈ probes, p.state ≠ .panicked
  starts : (starts (since s t)).Perm ((probes.filter fun p => p.state.begun).map (·.connection))
  ends : (ends (since s t)).Perm ((probes.filter fun p => p.state.isOver).map (·.connection))
  switches : switches (since s t) = []
  others : ∀ c : Connection, (∀ d ∈ conns, d.id ≠ c.id) → t.pool.healthOf c = s.pool.healthOf c
  sole : ∀ p, probes = [p] → Notes s t p

/-- No task of a batch has been forgotten. -/
structure Awake (f : FlightId) (t : Manager) (probes : List BatchProbe) : Prop where
  queued : ∀ i p, probes[i]? = some p → p.state = .queued → .probe f i ∈ t.ready
  waiting : ∀ i p outcome, probes[i]? = some p → p.state = .waiting outcome →
    .probe f i ∈ t.ready ∨ ∃ due, (due, .probe f i) ∈ t.timers
  joined : joined probes = true → .flight f ∈ t.ready

/-- A batch that began in `s` is under way, and nothing has interfered with it. -/
structure Gathering (f : FlightId) (owner : Owner) (options : CheckOptions) (stage : Stage)
    (conns : List Connection) (s t : Manager) : Prop where
  still : Still s t
  registry : t.pool.registry = s.pool.registry
  calm : t.network.Calm
  batch : ∃ probes, t.flights.lookup f = some ⟨owner, .batch options stage probes⟩ ∧
    Tally conns s t probes ∧ Awake f t probes

/-- A batch that began in `s` has been joined in `j`, each of its connections has been probed once,
and its operation goes on from there. -/
structure Gathered (f : FlightId) (owner : Owner) (options : CheckOptions) (stage : Stage)
    (conns : List Connection) (s j u : Manager) : Prop where
  still : Still s j
  registry : j.pool.registry = s.pool.registry
  calm : j.network.Calm
  starts : (starts (since s j)).Perm conns
  ends : (ends (since s j)).Perm conns
  switches : switches (since s j) = []
  others : ∀ c : Connection, (∀ d ∈ conns, d.id ≠ c.id) → j.pool.healthOf c = s.pool.healthOf c
  goes_on : ∃ probed : List (Connection × Bool), probed.map (·.1) = conns ∧
    (∀ c, conns = [c] → probed =
      [(c, (s.pool.healthOf c).status != (j.pool.healthOf c).status)]) ∧
    u = (j.resume options stage probed).1.proceed f owner (j.resume options stage probed).2

/-! ## The ready tasks -/

theorem mem_wake (s : Manager) (task : Task) : task ∈ (s.wake task).ready := by
  unfold wake
  split
  · next hready => exact List.contains_iff_mem.mp hready
  · exact List.mem_append_right _ (List.mem_singleton_self task)

theorem ready_subset_wake (s : Manager) (task : Task) : s.ready ⊆ (s.wake task).ready := by
  unfold wake
  split
  · exact fun _ h => h
  · exact List.subset_append_left _ _

theorem ready_subset_foldl_wake (tasks : List Task) (s : Manager) :
    s.ready ⊆ (tasks.foldl wake s).ready := by
  induction tasks generalizing s with
  | nil => exact fun _ h => h
  | cons task rest ih => exact fun _ h => ih (s.wake task) (ready_subset_wake s task h)

theorem mem_foldl_wake {tasks : List Task} {task : Task} (h : task ∈ tasks) (s : Manager) :
    task ∈ (tasks.foldl wake s).ready := by
  induction tasks generalizing s with
  | nil => exact absurd h List.not_mem_nil
  | cons first rest ih =>
    rcases List.mem_cons.mp h with rfl | h
    · exact ready_subset_foldl_wake rest _ (mem_wake s task)
    · exact ih h (s.wake first)

theorem launch_ready (s : Manager) (f : FlightId) (owner : Owner) (options : CheckOptions)
    (stage : Stage) {conns : List Connection} {i : Nat} (h : i < conns.length) :
    .probe f i ∈ (s.launch f owner options stage conns).ready := by
  unfold launch
  dsimp only
  rw [← List.foldl_map]
  refine mem_foldl_wake (List.mem_map.mpr ⟨i, List.mem_range.mpr ?_, rfl⟩) _
  rw [List.length_mapIdx]
  exact h

/-- A task that is to run when the clock comes to a time is ready then. -/
theorem moveClock_ready {due time : Nat} {task : Task} (h : (due, task) ∈ s.timers) :
    task ∈ (s.moveClock time).ready ∨ (due, task) ∈ (s.moveClock time).timers := by
  unfold moveClock
  dsimp only
  rw [← List.foldl_map]
  by_cases hdue : due ≤ time
  · refine Or.inl (mem_foldl_wake (List.mem_map.mpr ⟨(due, task), ?_, rfl⟩) _)
    exact List.mem_filter.mpr ⟨h, by simpa using hdue⟩
  · obtain ⟨ready, hready⟩ := foldl_wake_eq ((s.timers.filter fun e => e.1 ≤ time).map (·.2))
      { s with now := time, timers := s.timers.filter fun e => !(e.1 ≤ time) }
    rw [hready]
    exact Or.inr (List.mem_filter.mpr ⟨h, by simpa using hdue⟩)

/-- A task is ready when its time has come. -/
theorem moveClock_due {due : Nat} {task : Task} (h : (due, task) ∈ s.timers) :
    task ∈ (s.moveClock due).ready := by
  unfold moveClock
  dsimp only
  rw [← List.foldl_map]
  refine mem_foldl_wake (List.mem_map.mpr ⟨(due, task), ?_, rfl⟩) _
  exact List.mem_filter.mpr ⟨h, by simp⟩

theorem ready_subset_moveClock (s : Manager) (time : Nat) : s.ready ⊆ (s.moveClock time).ready := by
  unfold moveClock
  dsimp only
  rw [← List.foldl_map]
  exact ready_subset_foldl_wake _
    { s with now := time, timers := s.timers.filter fun e => !(e.1 ≤ time) }

/-! ## Probes of a batch -/

theorem modify_perm {α : Type} {l : List α} {i : Nat} {a : α} (h : l[i]? = some a) (g : α → α) :
    ∃ rest, l.Perm (a :: rest) ∧ (l.modify i g).Perm (g a :: rest) := by
  induction l generalizing i with
  | nil => exact absurd h (by simp)
  | cons b l ih =>
    cases i with
    | zero =>
      cases h
      exact ⟨l, .refl _, .refl _⟩
    | succ i =>
      obtain ⟨rest, hl, hmodify⟩ := ih h
      exact ⟨b :: rest, (hl.cons b).trans (.swap _ _ _), (hmodify.cons b).trans (.swap _ _ _)⟩

/-- One more probe has come as far as is asked for, unless it had come that far before. -/
theorem filter_modify_perm {α : Type} {key : BatchProbe → α} {far : ProbeState → Bool}
    {ks : List α} (hkey : key { p with state := state } = key p)
    (hp : probes[index]? = some p) (hfar : far p.state = true → far state = true)
    (h : ks.Perm ((probes.filter fun p => far p.state).map key)) :
    (ks ++ if far state && !far p.state then [key p] else []).Perm
      (((probes.modify index fun p => { p with state := state }).filter
        fun p => far p.state).map key) := by
  obtain ⟨rest, hprobes, hmodify⟩ := modify_perm hp fun p => { p with state := state }
  have hbefore := h.trans ((hprobes.filter fun p => far p.state).map key)
  have hafter := (hmodify.filter fun p => far p.state).map key
  refine List.Perm.trans ?_ hafter.symm
  cases hp : far p.state with
  | true =>
    have hstate := hfar hp
    simpa [List.filter_cons, hp, hstate, hkey] using hbefore
  | false =>
    have hrest : ks.Perm ((rest.filter fun p => far p.state).map key) := by
      simpa [List.filter_cons, hp] using hbefore
    cases hstate : far state with
    | true =>
      simpa [List.filter_cons, hstate, hkey] using
        (List.perm_append_singleton (key p) ks).trans (hrest.cons (key p))
    | false => simpa [List.filter_cons, hstate] using hrest

/-- A probe of a batch goes on to another state: it starts, or ends, or both at once. -/
structure Advance (f : FlightId) (index : Nat) (p : BatchProbe) (state : ProbeState)
    (t u : Manager) : Prop where
  still : Still t u
  registry : u.pool.registry = t.pool.registry
  calm : u.network.Calm
  starts : starts (since t u) = if state.begun && !p.state.begun then [p.connection] else []
  ends : ends (since t u) = if state.isOver && !p.state.isOver then [p.connection] else []
  switches : switches (since t u) = []
  waits : ∀ outcome, state = .waiting outcome →
    u.pool = t.pool ∧ ∃ due, (due, .probe f index) ∈ u.timers
  ended : ∀ changed, state = .ended changed → .flight f ∈ u.ready ∧
    ∃ outcome, u.pool = t.pool.observe p.connection outcome ∧
      changed = t.pool.wouldChange p.connection outcome
  onward : state.begun = true ∧ state ≠ .panicked ∧ state.turnsLeft < p.state.turnsLeft
  ready : t.ready ⊆ u.ready
  timers : t.timers ⊆ u.timers

theorem setProbe_eq (h : s.flights.lookup f = some ⟨owner, .batch options stage probes⟩)
    (index : Nat) (state : ProbeState) :
    s.setProbe f index state = s.setFlight f ⟨owner, .batch options stage
      (probes.modify index fun p => { p with state := state })⟩ := by
  unfold setProbe
  rw [h]

/-- A queued probe starts and has to wait. -/
theorem advance_waits (h : t.flights.lookup f = some ⟨owner, .batch options stage probes⟩)
    (hqueued : p.state = .queued) (hcalm : t.network.Calm) (outcome : Probe.Outcome) (due : Nat) :
    Advance f index p (.waiting outcome) t
      (((t.probing p).setProbe f index (.waiting outcome)).sleep due (.probe f index)) := by
  rw [setProbe_eq (s := t.probing p) h]
  let m : Moment := ⟨t.now, t.pool, .probeStarted p.connection p.timeoutMs⟩
  have hstart : Still t (t.record m.event) := .record rfl t
  refine ⟨hstart.trans (.same rfl rfl rfl rfl rfl), rfl, (hcalm.take _).2, ?_, ?_, ?_, ?_, ?_, ?_,
    fun _ h => h, List.subset_append_left _ _⟩
  · rw [since_of_cons (m := m) rfl, hqueued]
    rfl
  · rw [since_of_cons (m := m) rfl]
    rfl
  · rw [since_of_cons (m := m) rfl]
    rfl
  · exact fun _ _ => ⟨rfl, due, List.mem_append_right _ (List.mem_singleton_self _)⟩
  · exact fun _ h => absurd h (by simp)
  · rw [hqueued]
    exact ⟨rfl, by simp, Nat.le_refl _⟩

/-- A probe ends, at once or after it has waited. -/
theorem advance_ends {a : Manager}
    (h : a.flights.lookup f = some ⟨owner, .batch options stage probes⟩) (hcalm : a.network.Calm)
    (hstill : Still t a) (hpool : a.pool = t.pool) (hready : a.ready = t.ready)
    (htimers : a.timers = t.timers) (hopen : p.state.isOver = false)
    (hstarts : starts (since t a) = if !p.state.begun then [p.connection] else [])
    (hends : ends (since t a) = []) (hswitches : switches (since t a) = [])
    (outcome : Probe.Outcome) :
    Advance f index p (.ended (t.pool.wouldChange p.connection outcome)) t
      (a.endProbe f index p.connection outcome) := by
  let c := p.connection
  let noted : Manager := { a with pool := a.pool.observe c outcome }.record (.probeEnded c outcome)
  let changed := a.pool.wouldChange c outcome
  have hsince : since a (a.endProbe f index c outcome) =
      [⟨a.now, a.pool.observe c outcome, .probeEnded c outcome⟩] :=
    since_of_cons (endProbe_trace a f index c outcome)
  have hend : Still a (a.endProbe f index c outcome) :=
    (endProbe_quiet (K := fun _ => True) a f index c outcome).still
  have hwoken := mem_wake (noted.setProbe f index (.ended changed)) (.flight f)
  have hkept := ready_subset_wake (noted.setProbe f index (.ended changed)) (.flight f)
  obtain ⟨ready, hwake⟩ := wake_eq (noted.setProbe f index (.ended changed)) (.flight f)
  rw [setProbe_eq (s := noted) h] at hwake hwoken hkept
  have heq : a.endProbe f index c outcome = { noted.setFlight f ⟨owner, .batch options stage
      (probes.modify index fun p => { p with state := .ended changed })⟩ with ready := ready } := by
    rw [← hwake, ← setProbe_eq (s := noted) h]
    rfl
  rw [hwake] at hwoken hkept
  refine ⟨hstill.trans hend, ?_, ?_, ?_, ?_, ?_, ?_, ?_, ?_, ?_, ?_⟩
  · rw [heq, ← hpool]
    rfl
  · rw [heq]
    exact hcalm
  · rw [since_append hstill.later hend.later, starts_append, hstarts, hsince]
    simp [RpcPool.starts, Event.started?, ProbeState.begun]
  · rw [since_append hstill.later hend.later, ends_append, hends, hsince, hopen]
    rfl
  · rw [since_append hstill.later hend.later, switches_append, hswitches, hsince]
    rfl
  · exact fun _ h => absurd h (by simp)
  · intro changed' hchanged
    cases hchanged
    rw [heq, ← hpool]
    exact ⟨hwoken, outcome, rfl, rfl⟩
  · refine ⟨rfl, by simp, Nat.pos_of_ne_zero fun hzero => ?_⟩
    rw [ProbeState.turnsLeft_eq_zero.mp hzero] at hopen
    exact absurd hopen (by simp)
  · rw [heq, ← hready]
    exact hkept
  · rw [heq, ← htimers]
    exact fun _ h => h

/-- The turn of a probe that is not over. -/
theorem runProbe_advance (h : t.flights.lookup f = some ⟨owner, .batch options stage probes⟩)
    (hp : probes[index]? = some p) (hopen : p.state.isOver = false) (hcalm : t.network.Calm) :
    ∃ state, Advance f index p state t (t.runProbe f index) ∧
      (t.runProbe f index).flights.lookup f = some ⟨owner, .batch options stage
        (probes.modify index fun p => { p with state := state })⟩ := by
  have hprobing : Still t (t.probing p) :=
    (Still.record rfl t).trans (.same rfl rfl rfl rfl rfl)
  have hsince : since t (t.probing p) =
      [⟨t.now, t.pool, .probeStarted p.connection p.timeoutMs⟩] := since_of_cons rfl
  have hwaits (outcome : Probe.Outcome) (due : Nat) (hqueued : p.state = .queued) :
      Advance f index p (.waiting outcome) t
          (((t.probing p).setProbe f index (.waiting outcome)).sleep due (.probe f index)) ∧
        (((t.probing p).setProbe f index (.waiting outcome)).sleep due
          (.probe f index)).flights.lookup f = some ⟨owner, .batch options stage
            (probes.modify index fun p => { p with state := .waiting outcome })⟩ :=
    ⟨advance_waits h hqueued hcalm outcome due,
      lookup_setProbe (s := t.probing p) h index (.waiting outcome)⟩
  have hlookup (a : Manager) (ha : a.flights = t.flights) (outcome : Probe.Outcome) :
      (a.endProbe f index p.connection outcome).flights.lookup f = some ⟨owner,
        .batch options stage (probes.modify index fun q =>
          { q with state := .ended (a.pool.wouldChange p.connection outcome) })⟩ := by
    let noted : Manager := { a with pool := a.pool.observe p.connection outcome }.record
      (.probeEnded p.connection outcome)
    have hset := lookup_setProbe (s := noted)
      (show noted.flights.lookup f = some ⟨owner, .batch options stage probes⟩ from ha ▸ h) index
      (.ended (a.pool.wouldChange p.connection outcome))
    obtain ⟨ready, hwake⟩ := wake_eq (noted.setProbe f index
      (.ended (a.pool.wouldChange p.connection outcome))) (.flight f)
    unfold endProbe
    dsimp only
    rw [hwake]
    exact hset
  unfold runProbe
  rw [h]
  dsimp only
  rw [hp]
  dsimp only
  rcases unfinished_cases hopen with hstate | ⟨outcome, hstate⟩
  · rw [hstate]
    unfold startProbe
    dsimp only
    split
    · next hpanic => exact absurd hpanic (hcalm.take _).1
    · exact ⟨_, hwaits _ _ hstate⟩
    · next delay outcome _ =>
      split
      · refine ⟨_, advance_ends (a := t.probing p) h (hcalm.take _).2 hprobing rfl rfl rfl hopen ?_
          ?_ ?_ outcome, hlookup (t.probing p) rfl outcome⟩
        · rw [hsince, hstate]
          rfl
        · rw [hsince]
          rfl
        · rw [hsince]
          rfl
      · split
        · exact ⟨_, hwaits _ _ hstate⟩
        · exact ⟨_, hwaits _ _ hstate⟩
  · rw [hstate]
    refine ⟨_, advance_ends h hcalm (.refl t) rfl rfl rfl hopen ?_ ?_ ?_ outcome,
      hlookup t rfl outcome⟩
    · rw [since_same rfl, hstate]
      rfl
    · rw [since_same rfl]
      rfl
    · rw [since_same rfl]
      rfl

theorem runProbe_over (h : t.flights.lookup f = some ⟨owner, .batch options stage probes⟩)
    (hover : ∀ p, probes[index]? = some p → p.state.isOver = true) : t.runProbe f index = t := by
  unfold runProbe
  rw [h]
  dsimp only
  split
  · rfl
  · next p hp =>
    rcases over_cases (hover p hp) with hstate | ⟨_, hstate⟩
    · rw [hstate]
    · rw [hstate]

/-! ## While a batch is under way -/

theorem Tally.advance (h : Tally conns s t probes) (hstill : Still s t)
    (hp : probes[index]? = some p) (hopen : p.state.isOver = false)
    (hadvance : Advance f index p state t u) :
    Tally conns s u (probes.modify index fun p => { p with state := state }) where
  batch := (connection_modify probes index state).trans h.batch
  unbroken q hq := by
    rcases mem_modify hq with hq | ⟨_, _, rfl⟩
    · exact h.unbroken q hq
    · exact hadvance.onward.2.1
  starts := by
    rw [since_append hstill.later hadvance.still.later, starts_append, hadvance.starts]
    exact filter_modify_perm rfl hp (fun _ => hadvance.onward.1) h.starts
  ends := by
    rw [since_append hstill.later hadvance.still.later, ends_append, hadvance.ends]
    exact filter_modify_perm rfl hp (fun hover => absurd hover (by simp [hopen])) h.ends
  switches := by
    rw [since_append hstill.later hadvance.still.later, switches_append, h.switches,
      hadvance.switches]
    rfl
  others c hc := by
    rw [← h.others c hc]
    have hmem : p.connection ∈ conns :=
      h.batch ▸ List.mem_map_of_mem (List.mem_of_getElem? hp)
    cases state with
    | queued => exact absurd hadvance.onward.1 (by simp [ProbeState.begun])
    | waiting outcome =>
      obtain ⟨hpool, _⟩ := hadvance.waits outcome rfl
      rw [hpool]
    | ended changed =>
      obtain ⟨_, outcome, hpool, _⟩ := hadvance.ended changed rfl
      rw [hpool]
      exact Pool.healthOf_observe_ne _ _ (hc _ hmem).symm
    | panicked => exact absurd rfl hadvance.onward.2.1
  sole q hq := by
    have hprobes : probes = [p] ∧ index = 0 := by
      have hlength := congrArg List.length hq
      rw [List.length_modify] at hlength
      obtain ⟨p', rfl⟩ := List.length_eq_one_iff.mp hlength
      cases index with
      | zero =>
        cases hp
        exact ⟨rfl, rfl⟩
      | succ index => exact absurd hp (by simp)
    obtain ⟨rfl, rfl⟩ := hprobes
    cases hq
    have hbefore := (h.sole p rfl).waiting hopen
    refine ⟨fun hwaits => ?_, fun changed hended => ?_⟩
    · cases state with
      | queued => exact absurd hadvance.onward.1 (by simp [ProbeState.begun])
      | waiting outcome =>
        obtain ⟨hpool, _⟩ := hadvance.waits outcome rfl
        rw [hpool]
        exact hbefore
      | ended changed => exact absurd hwaits (by simp [ProbeState.isOver])
      | panicked => exact absurd hwaits (by simp [ProbeState.isOver])
    · obtain ⟨_, outcome, hpool, hchanged⟩ := hadvance.ended changed hended
      rw [hchanged, hpool, Pool.healthOf_observe_self _ _ rfl, ← hbefore]
      rfl

theorem Awake.advance (h : Awake f t probes) (hp : probes[index]? = some p)
    (hadvance : Advance f index p state { t with ready := t.ready.erase (.probe f index) } u) :
    Awake f u (probes.modify index fun p => { p with state := state }) := by
  have hkept (task : Task) (hne : task ≠ .probe f index) (hready : task ∈ t.ready) :
      task ∈ u.ready := hadvance.ready ((List.mem_erase_of_ne hne).mpr hready)
  -- the probe that took its turn is in its new state, and all others are as they were
  have hat (i : Nat) (q : BatchProbe)
      (hq : (probes.modify index fun p => { p with state := state })[i]? = some q) :
      (i = index ∧ q.state = state) ∨ (i ≠ index ∧ probes[i]? = some q) := by
    by_cases hi : i = index
    · subst hi
      rw [List.getElem?_modify_eq, hp] at hq
      cases hq
      exact Or.inl ⟨rfl, rfl⟩
    · rw [List.getElem?_modify_ne _ _ (Ne.symm hi)] at hq
      exact Or.inr ⟨hi, hq⟩
  refine ⟨fun i q hq hqueued => ?_, fun i q outcome hq hwaiting => ?_, fun hjoined => ?_⟩
  · rcases hat i q hq with ⟨rfl, hstate⟩ | ⟨hi, hq⟩
    · have hbegun := hadvance.onward.1
      rw [← hstate, hqueued] at hbegun
      exact absurd hbegun (by simp [ProbeState.begun])
    · exact hkept _ (by simpa using hi) (h.queued i q hq hqueued)
  · rcases hat i q hq with ⟨rfl, hstate⟩ | ⟨hi, hq⟩
    · exact Or.inr (hadvance.waits outcome (hstate.symm.trans hwaiting)).2
    · rcases h.waiting i q outcome hq hwaiting with hready | ⟨due, htimer⟩
      · exact Or.inl (hkept _ (by simpa using hi) hready)
      · exact Or.inr ⟨due, hadvance.timers htimer⟩
  · have hover := List.all_eq_true.mp hjoined _
      (mem_modify_self (f := fun p => { p with state := state }) hp)
    rcases over_cases hover with hpanicked | ⟨changed, hended⟩
    · exact absurd hpanicked hadvance.onward.2.1
    · exact (hadvance.ended changed hended).1

/-- A turn that is of no use to a batch can be spent. -/
theorem Awake.erase (h : Awake f t probes) {task : Task}
    (hprobe : ∀ i p, task = .probe f i → probes[i]? = some p → p.state.isOver = true)
    (hflight : task = .flight f → Manager.joined probes = false) :
    Awake f { t with ready := t.ready.erase task } probes := by
  have hopen (i : Nat) (q : BatchProbe) (hq : probes[i]? = some q) (hq' : q.state.isOver = false) :
      .probe f i ≠ task := by
    rintro rfl
    rw [hprobe i q rfl hq] at hq'
    exact absurd hq' (by simp)
  refine ⟨fun i q hq hqueued => ?_, fun i q outcome hq hwaiting => ?_, fun hjoined => ?_⟩
  · have hne := hopen i q hq (by rw [hqueued]; rfl)
    exact (List.mem_erase_of_ne hne).mpr (h.queued i q hq hqueued)
  · have hne := hopen i q hq (by rw [hwaiting]; rfl)
    exact (h.waiting i q outcome hq hwaiting).imp_left (List.mem_erase_of_ne hne).mpr
  · have hne : .flight f ≠ task := by
      rintro rfl
      rw [hflight rfl] at hjoined
      exact absurd hjoined (by simp)
    exact (List.mem_erase_of_ne hne).mpr (h.joined hjoined)

theorem Gathering.still_erase (h : Gathering f owner options stage conns s t) (task : Task) :
    Still s { t with ready := t.ready.erase task } :=
  h.still.trans (.same rfl rfl rfl rfl rfl)

theorem Tally.same (h : Tally conns s t probes) (htrace : u.trace = t.trace)
    (hpool : u.pool = t.pool) : Tally conns s u probes := by
  have hsince : since s u = since s t := by
    unfold since
    rw [htrace]
  refine ⟨h.batch, h.unbroken, hsince ▸ h.starts, hsince ▸ h.ends, hsince ▸ h.switches,
    hpool ▸ h.others, fun p hp => ?_⟩
  obtain ⟨hwaiting, hended⟩ := h.sole p hp
  exact ⟨hpool ▸ hwaiting, hpool ▸ hended⟩

/-- A turn of a probe, with the batch as it is after it. -/
theorem Gathering.runProbe (h : Gathering f owner options stage conns s t)
    (hflight : t.flights.lookup f = some ⟨owner, .batch options stage probes⟩)
    (hp : probes[index]? = some p) (hopen : p.state.isOver = false) :
    ∃ state, state.turnsLeft < p.state.turnsLeft ∧
      Gathering f owner options stage conns s
        (({ t with ready := t.ready.erase (.probe f index) } : Manager).runProbe f index) ∧
      (({ t with ready := t.ready.erase (.probe f index) } : Manager).runProbe f
        index).flights.lookup f = some ⟨owner, .batch options stage
          (probes.modify index fun p => { p with state := state })⟩ := by
  obtain ⟨probes', hflight', htally, hawake⟩ := h.batch
  cases hflight.symm.trans hflight'
  let erased : Manager := { t with ready := t.ready.erase (.probe f index) }
  obtain ⟨state, hadvance, hafter⟩ := runProbe_advance (t := erased) hflight hp hopen h.calm
  have htally' : Tally conns s erased probes := htally.same rfl rfl
  exact ⟨state, hadvance.onward.2.2,
    ⟨(h.still_erase _).trans hadvance.still, hadvance.registry.trans h.registry, hadvance.calm, _,
      hafter, htally'.advance (h.still_erase _) hp hopen hadvance, hawake.advance hp hadvance⟩,
    hafter⟩

/-- Each probe of a batch that has been joined has started and ended. -/
theorem Tally.joined (h : Tally conns s t probes) (hjoined : joined probes = true) :
    (RpcPool.starts (since s t)).Perm conns ∧ (RpcPool.ends (since s t)).Perm conns ∧
      ∀ c, conns = [c] → probes.map (fun p => (p.connection, reported p)) =
        [(c, (s.pool.healthOf c).status != (t.pool.healthOf c).status)] := by
  have hover := List.all_eq_true.mp hjoined
  have hbegun (p : BatchProbe) (hp : p ∈ probes) : p.state.begun = true := by
    rcases over_cases (hover p hp) with hstate | ⟨_, hstate⟩ <;> rw [hstate] <;> rfl
  have hstarts := h.starts
  have hends := h.ends
  rw [List.filter_eq_self.mpr hbegun, h.batch] at hstarts
  rw [List.filter_eq_self.mpr hover, h.batch] at hends
  refine ⟨hstarts, hends, ?_⟩
  rintro c rfl
  obtain ⟨p, rfl, rfl⟩ := List.map_eq_singleton_iff.mp h.batch
  have hone : p ∈ [p] := List.mem_singleton_self p
  obtain ⟨changed, hended⟩ := (over_cases (hover p hone)).resolve_left (h.unbroken p hone)
  have hchanged := (h.sole p rfl).ended changed hended
  simp [reported, hended, hchanged]

/-- An operation that is woken too early goes on waiting. -/
theorem Gathering.early (h : Gathering f owner options stage conns s t)
    (hflight : t.flights.lookup f = some ⟨owner, .batch options stage probes⟩)
    (hopen : joined probes = false) :
    Gathering f owner options stage conns s
      (({ t with ready := t.ready.erase (.flight f) } : Manager).runFlight f) := by
  obtain ⟨probes', hflight', htally, hawake⟩ := h.batch
  cases hflight.symm.trans hflight'
  have hrun : ({ t with ready := t.ready.erase (.flight f) } : Manager).runFlight f =
      { t with ready := t.ready.erase (.flight f) } := runFlight_waiting hflight hopen
  rw [hrun]
  refine ⟨h.still_erase _, h.registry, h.calm, probes, hflight, htally.same rfl rfl, ?_⟩
  exact hawake.erase (fun i p htask => absurd htask (by simp)) fun _ => hopen

/-- An operation that finds all its probes over goes on. -/
theorem Gathering.join (h : Gathering f owner options stage conns s t)
    (hflight : t.flights.lookup f = some ⟨owner, .batch options stage probes⟩)
    (hjoined : joined probes = true) :
    Gathered f owner options stage conns s { t with ready := t.ready.erase (.flight f) }
      (({ t with ready := t.ready.erase (.flight f) } : Manager).runFlight f) := by
  obtain ⟨probes', hflight', htally, _⟩ := h.batch
  cases hflight.symm.trans hflight'
  let erased : Manager := { t with ready := t.ready.erase (.flight f) }
  have htally : Tally conns s erased probes := htally.same rfl rfl
  obtain ⟨probed, hprobed⟩ := changes_joined hjoined htally.unbroken
  obtain ⟨hstarts, hends, hsole⟩ := htally.joined hjoined
  refine ⟨h.still_erase _, h.registry, h.calm, hstarts, hends, htally.switches, htally.others,
    probed, (changes_ok hprobed).trans htally.batch, fun c hc => ?_, ?_⟩
  · rw [changes_eq hprobed]
    exact hsole c hc
  · exact runFlight_joined (s := erased) hflight hjoined hprobed

theorem Gathering.clock (h : Gathering f owner options stage conns s t) (time : Nat) :
    Gathering f owner options stage conns s (t.moveClock time) := by
  obtain ⟨probes, hflight, htally, hawake⟩ := h.batch
  have hstill : Still t (t.moveClock time) := (moveClock_frame (K := fun _ => True) t time).still
  have hkept := ready_subset_moveClock t time
  have htimer (i : Nat) (due : Nat) (ht : (due, .probe f i) ∈ t.timers) :
      .probe f i ∈ (t.moveClock time).ready ∨ (due, .probe f i) ∈ (t.moveClock time).timers :=
    moveClock_ready ht
  obtain ⟨timers, ready, hclock⟩ := moveClock_eq t time
  rw [hclock] at hstill hkept htimer ⊢
  refine ⟨h.still.trans hstill, h.registry, h.calm, probes, hflight, htally.same rfl rfl, ?_⟩
  refine ⟨fun i p hp hqueued => hkept (hawake.queued i p hp hqueued), ?_,
    fun hjoined => hkept (hawake.joined hjoined)⟩
  intro i p outcome hp hwaiting
  rcases hawake.waiting i p outcome hp hwaiting with hready | ⟨due, ht⟩
  · exact Or.inl (hkept hready)
  · exact (htimer i due ht).imp_right fun ht => ⟨due, ht⟩

theorem next_probe (h : .probe f index ∈ t.ready) : t.next (.turn (.probe f index)) =
    ({ t with ready := t.ready.erase (.probe f index) } : Manager).runProbe f index :=
  if_pos (List.contains_iff_mem.mpr h)

theorem next_flight (h : .flight f ∈ t.ready) : t.next (.turn (.flight f)) =
    ({ t with ready := t.ready.erase (.flight f) } : Manager).runFlight f :=
  if_pos (List.contains_iff_mem.mpr h)

theorem next_runLoop {id : LoopId} (h : .loop id ∈ t.ready) : t.next (.turn (.loop id)) =
    ({ t with ready := t.ready.erase (.loop id) } : Manager).runLoop id :=
  if_pos (List.contains_iff_mem.mpr h)

theorem next_not_ready {task : Task} (h : task ∉ t.ready) : t.next (.turn task) = t :=
  if_neg (by simpa using h)

/-- A batch that nothing else interferes with stays under way, until it has been joined and its
operation goes on. -/
theorem Gathering.next (h : Gathering f owner options stage conns s t) {m : Move}
    (hm : m.within f) :
    Gathering f owner options stage conns s (t.next m) ∨
      ∃ ready, Gathered f owner options stage conns s { t with ready := ready } (t.next m) := by
  obtain ⟨probes, hflight, htally, hawake⟩ := h.batch
  cases m with
  | turn task =>
    by_cases hready : task ∈ t.ready
    · cases task with
      | probe flight index =>
        cases hm
        rw [next_probe hready]
        left
        by_cases hover : ∀ p, probes[index]? = some p → p.state.isOver = true
        · rw [runProbe_over (t := { t with ready := t.ready.erase (.probe f index) }) hflight hover]
          refine ⟨h.still_erase _, h.registry, h.calm, probes, hflight, htally.same rfl rfl,
            hawake.erase (fun i p htask hp => ?_) fun htask => absurd htask (by simp)⟩
          cases htask
          exact hover p hp
        · push Not at hover
          obtain ⟨p, hp, hopen⟩ := hover
          obtain ⟨_, _, hafter, _⟩ := h.runProbe hflight hp (by simpa using hopen)
          exact hafter
      | flight flight =>
        cases hm
        rw [next_flight hready]
        cases hjoined : joined probes with
        | false => exact Or.inl (h.early hflight hjoined)
        | true => exact Or.inr ⟨_, h.join hflight hjoined⟩
      | loop loop => exact absurd hm (by simp [Move.within])
    · rw [next_not_ready hready]
      exact Or.inl h
  | clock time => exact Or.inl (h.clock time)
  | _ => exact absurd hm (by simp [Move.within])

/-- A batch begins with one queued probe for each of its connections. -/
theorem gathering_launch (f : FlightId) (owner : Owner) (options : CheckOptions) (stage : Stage)
    {conns : List Connection} (hcalm : s.network.Calm) (hne : conns ≠ []) :
    Gathering f owner options stage conns s (s.launch f owner options stage conns) := by
  have hframe : Frame (fun _ => True) s (s.launch f owner options stage conns) :=
    launch_frame fun _ _ => Or.inr trivial
  have hready (i : Nat) (hi : i < conns.length) := launch_ready s f owner options stage hi
  obtain ⟨probes, count, ready, hlaunch, hconns, hqueued⟩ := launch_eq s f owner options stage conns
  have hsince : since s (s.launch f owner options stage conns) = [] := since_same hframe.trace
  have hnone (far : ProbeState → Bool) (hfar : far .queued = false) :
      probes.filter (fun p => far p.state) = [] :=
    List.filter_eq_nil_iff.mpr fun p hp => by simp [hqueued p hp, hfar]
  rw [hlaunch] at hframe hready hsince ⊢
  refine ⟨hframe.still, rfl, hcalm, probes, lookup_upsert_self _ _ _,
    ⟨hconns, ?_, ?_, ?_, ?_, fun _ _ => rfl, ?_⟩, ⟨?_, ?_, ?_⟩⟩
  · exact fun p hp => by simp [hqueued p hp]
  · rw [hsince, hnone ProbeState.begun rfl]
    exact .refl _
  · rw [hsince, hnone ProbeState.isOver rfl]
    exact .refl _
  · rw [hsince]
    rfl
  · rintro p rfl
    refine ⟨fun _ => rfl, fun changed hended => ?_⟩
    exact absurd hended (by simp [hqueued p (List.mem_singleton_self p)])
  · intro i p hp _
    refine hready i ?_
    rw [← hconns, List.length_map]
    exact (List.getElem?_eq_some_iff.mp hp).1
  · intro i p outcome hp hwaiting
    exact absurd hwaiting (by simp [hqueued p (List.mem_of_getElem? hp)])
  · intro hjoined
    cases probes with
    | nil => exact absurd hconns.symm hne
    | cons p rest =>
      have hover := List.all_eq_true.mp hjoined p List.mem_cons_self
      rw [hqueued p List.mem_cons_self] at hover
      exact absurd hover (by simp [ProbeState.isOver])

/-! ## Batches come to an end -/

theorem turnsLeft_modify {state : ProbeState} (hp : probes[index]? = some p)
    (h : state.turnsLeft < p.state.turnsLeft) :
    ((probes.modify index fun p => { p with state := state }).map (·.state.turnsLeft)).sum <
      (probes.map (·.state.turnsLeft)).sum := by
  obtain ⟨rest, hprobes, hmodify⟩ := modify_perm hp fun p => { p with state := state }
  rw [(hprobes.map (·.state.turnsLeft)).sum_nat, (hmodify.map (·.state.turnsLeft)).sum_nat]
  simpa using h

/-- A probe that is not over can take a turn, after the clock has moved if it waits. -/
theorem Gathering.can_advance (h : Gathering f owner options stage conns s t)
    (hflight : t.flights.lookup f = some ⟨owner, .batch options stage probes⟩)
    (hopen : joined probes = false) :
    ∃ (moves : List Move) (probes' : List BatchProbe), (∀ m ∈ moves, m.within f) ∧
      Gathering f owner options stage conns s (moves.foldl Manager.next t) ∧
      (moves.foldl Manager.next t).flights.lookup f =
        some ⟨owner, .batch options stage probes'⟩ ∧
      (probes'.map (·.state.turnsLeft)).sum < (probes.map (·.state.turnsLeft)).sum := by
  obtain ⟨probes', hflight', htally, hawake⟩ := h.batch
  cases hflight.symm.trans hflight'
  obtain ⟨p, hmem, hp⟩ := List.all_eq_false.mp hopen
  have hp : p.state.isOver = false := by simpa using hp
  obtain ⟨index, hindex⟩ := List.mem_iff_getElem?.mp hmem
  have hturn {t : Manager} (h : Gathering f owner options stage conns s t)
      (hflight : t.flights.lookup f = some ⟨owner, .batch options stage probes⟩)
      (hready : .probe f index ∈ t.ready) : ∃ probes',
      Gathering f owner options stage conns s (t.next (.turn (.probe f index))) ∧
      (t.next (.turn (.probe f index))).flights.lookup f =
        some ⟨owner, .batch options stage probes'⟩ ∧
      (probes'.map (·.state.turnsLeft)).sum < (probes.map (·.state.turnsLeft)).sum := by
    obtain ⟨state, hfewer, hafter, hlookup⟩ := h.runProbe hflight hindex hp
    rw [next_probe hready]
    exact ⟨_, hafter, hlookup, turnsLeft_modify hindex hfewer⟩
  by_cases hready : .probe f index ∈ t.ready
  · obtain ⟨probes', hafter, hlookup, hfewer⟩ := hturn h hflight hready
    exact ⟨[.turn (.probe f index)], probes', by simp [Move.within], hafter, hlookup, hfewer⟩
  · -- the probe waits, and the clock has to come to its time first
    obtain ⟨due, htimer⟩ : ∃ due, (due, .probe f index) ∈ t.timers := by
      rcases unfinished_cases hp with hqueued | ⟨outcome, hwaiting⟩
      · exact absurd (hawake.queued index p hindex hqueued) hready
      · exact (hawake.waiting index p outcome hindex hwaiting).resolve_left hready
    have hwoken : .probe f index ∈ (t.moveClock due).ready := moveClock_due htimer
    have hlookup : (t.moveClock due).flights.lookup f =
        some ⟨owner, .batch options stage probes⟩ := by
      obtain ⟨timers, ready, hclock⟩ := moveClock_eq t due
      rw [hclock]
      exact hflight
    obtain ⟨probes', hafter, hlookup, hfewer⟩ := hturn (h.clock due) hlookup hwoken
    exact ⟨[.clock due, .turn (.probe f index)], probes', by simp [Move.within], hafter, hlookup,
      hfewer⟩

/-- However far a batch has come, its probes can be brought to their end and its operation can go
on. -/
theorem Gathering.can_join (h : Gathering f owner options stage conns s t) :
    ∃ (moves : List Move) (j : Manager), (∀ m ∈ moves, m.within f) ∧
      Gathered f owner options stage conns s j (moves.foldl Manager.next t) := by
  obtain ⟨probes, hflight, -⟩ := h.batch
  -- by induction on the number of turns that the probes still need
  induction hturns : (probes.map (·.state.turnsLeft)).sum using Nat.strongRecOn
    generalizing t probes with
  | _ n ih =>
    cases hjoined : joined probes with
    | false =>
      obtain ⟨moves, probes', hmoves, hafter, hlookup, hfewer⟩ := h.can_advance hflight hjoined
      obtain ⟨more, j, hmore, hdone⟩ := ih _ (hturns ▸ hfewer) hafter probes' hlookup rfl
      refine ⟨moves ++ more, j, fun m hm => ?_, ?_⟩
      · exact (List.mem_append.mp hm).elim (hmoves m) (hmore m)
      · rw [List.foldl_append]
        exact hdone
    | true =>
      obtain ⟨probes', hflight', _, hawake⟩ := h.batch
      cases hflight.symm.trans hflight'
      refine ⟨[.turn (.flight f)], { t with ready := t.ready.erase (.flight f) },
        by simp [Move.within], ?_⟩
      show Gathered f owner options stage conns s _ (t.next (.turn (.flight f)))
      rw [next_flight (hawake.joined hjoined)]
      exact h.join hflight hjoined

end Manager

end RpcPool

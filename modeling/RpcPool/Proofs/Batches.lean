import RpcPool.Proofs.Notifications

/-!
# What a batch makes known

The outcome of a probe is taken note of when the probe ends, but listeners hear of it only when the
whole batch has been joined. If one probe of the batch has broken, the operation ends there with an
error, and what the other probes have changed is made known to nobody; the next batch sees no
difference any more.

Results:
1. `Underway.progressing`: while a batch is under way nobody is told anything, and every change of
   an observed state is noted in one of its probes.
2. `unbroken_batch`, `broken_batch`: what becomes of the changes when the batch ends.
3. `batch_told_iff`: if a batch has changed the observed state of the current connection, the
   listeners are told of it exactly if none of its probes has broken.
-/

namespace RpcPool

namespace Manager

open Relation

variable {s t u : Manager} {id : FlightId} {owner : Owner} {options : CheckOptions} {stage : Stage}
  {probes : List BatchProbe} {index : Nat} {p : BatchProbe}

/-- What happens to an operation alone while it waits for its batch: a probe takes its turn, the
operation is woken too early, the clock moves. -/
inductive Progressing (id : FlightId) : Manager → Manager → Prop
  | probe (s : Manager) (index : Nat) : Progressing id s (s.next (.turn (.probe id index)))
  | early {s : Manager} {owner : Owner} {options : CheckOptions} {stage : Stage}
      {probes : List BatchProbe} :
      s.flights.lookup id = some ⟨owner, .batch options stage probes⟩ → joined probes = false →
      Progressing id s (s.next (.turn (.flight id)))
  | clock (s : Manager) (time : Nat) : Progressing id s (s.next (.clock time))

/-- A batch that began in `s` is under way: nobody has been told anything, and if an observed state
is not what it was, a probe of the batch has reported that. -/
structure Underway (id : FlightId) (owner : Owner) (options : CheckOptions) (stage : Stage)
    (s t : Manager) : Prop where
  still : Still s t
  batch : ∃ probes, t.flights.lookup id = some ⟨owner, .batch options stage probes⟩ ∧
    ∀ c : Connection, (t.pool.healthOf c).status ≠ (s.pool.healthOf c).status →
      ∃ p ∈ probes, reported p = true ∧ p.connection.same c = true

/-! ## Probes of a batch -/

theorem lookup_setProbe (h : s.flights.lookup id = some ⟨owner, .batch options stage probes⟩)
    (index : Nat) (state : ProbeState) :
    (s.setProbe id index state).flights.lookup id =
      some ⟨owner, .batch options stage
        (probes.modify index fun p => { p with state := state })⟩ := by
  unfold setProbe
  rw [h]
  exact lookup_upsert_self _ _ _

theorem setProbe_pool (s : Manager) (id : FlightId) (index : Nat) (state : ProbeState) :
    (s.setProbe id index state).pool = s.pool :=
  (setProbe_frame (K := fun _ => True) s id index state).pool

/-- A probe that has reported a change is not touched by what happens to another one. -/
theorem mem_modify_of_reported {f : BatchProbe → BatchProbe} {q : BatchProbe}
    (hp : probes[index]? = some p) (hopen : reported p = false) (hq : q ∈ probes)
    (hreported : reported q = true) : q ∈ probes.modify index f := by
  obtain ⟨j, hj⟩ := List.mem_iff_getElem?.mp hq
  have hne : index ≠ j := by
    rintro rfl
    rw [hp] at hj
    cases hj
    rw [hopen] at hreported
    exact absurd hreported (by simp)
  refine List.mem_of_getElem? (i := j) ?_
  simp [hne, hj]

theorem mem_modify_self {f : BatchProbe → BatchProbe} (hp : probes[index]? = some p) :
    f p ∈ probes.modify index f := by
  refine List.mem_of_getElem? (i := index) ?_
  simp [hp]

theorem Underway.same (h : Underway id owner options stage s t) (hstill : Still t u)
    (hpool : u.pool = t.pool) (hflights : u.flights = t.flights) :
    Underway id owner options stage s u where
  still := h.still.trans hstill
  batch := by
    rw [hpool, hflights]
    exact h.batch

theorem Underway.wake (h : Underway id owner options stage s t) (task : Task) :
    Underway id owner options stage s (t.wake task) := by
  have hstill : Still t (t.wake task) := (wake_frame (K := fun _ => True) t task).still
  obtain ⟨ready, hwake⟩ := wake_eq t task
  rw [hwake] at hstill ⊢
  exact h.same hstill rfl rfl

theorem Underway.batchOf (h : Underway id owner options stage s t) (hp : t.HasProbe id index p) :
    ∃ probes, t.flights.lookup id = some ⟨owner, .batch options stage probes⟩ ∧
      probes[index]? = some p ∧
      ∀ c : Connection, (t.pool.healthOf c).status ≠ (s.pool.healthOf c).status →
        ∃ p ∈ probes, reported p = true ∧ p.connection.same c = true := by
  obtain ⟨probes, hflight, hnoted⟩ := h.batch
  obtain ⟨_, _, _, probes', hflight', hp⟩ := hp
  rw [hflight] at hflight'
  cases hflight'
  exact ⟨probes, hflight, hp, hnoted⟩

/-- A probe that has not ended yet goes on to wait, or breaks. -/
theorem Underway.setProbe (h : Underway id owner options stage s t) (hp : t.HasProbe id index p)
    (hopen : reported p = false) (state : ProbeState) :
    Underway id owner options stage s (t.setProbe id index state) where
  still := h.still.trans (setProbe_frame (K := fun _ => True) t id index state).still
  batch := by
    obtain ⟨probes, hflight, hp, hnoted⟩ := h.batchOf hp
    refine ⟨_, lookup_setProbe hflight index state, fun c hc => ?_⟩
    rw [setProbe_pool] at hc
    obtain ⟨q, hq, hreported, hsame⟩ := hnoted c hc
    exact ⟨q, mem_modify_of_reported hp hopen hq hreported, hreported, hsame⟩

/-- The end of a probe notes whether it has changed the observed state of its connection. -/
theorem Underway.endProbe (h : Underway id owner options stage s t) (hp : t.HasProbe id index p)
    (hopen : reported p = false) (outcome : Probe.Outcome) :
    Underway id owner options stage s (t.endProbe id index p.connection outcome) := by
  obtain ⟨probes, hflight, hp, hnoted⟩ := h.batchOf hp
  let changed := t.pool.wouldChange p.connection outcome
  let noted : Manager := { t with pool := t.pool.observe p.connection outcome }.record
    (.probeEnded p.connection outcome)
  have hset : Underway id owner options stage s (noted.setProbe id index (.ended changed)) := by
    refine ⟨h.still.trans ((Still.observe rfl t p.connection outcome).trans
      (setProbe_frame (K := fun _ => True) noted id index _).still),
      _, lookup_setProbe (s := noted) hflight index _, fun c hc => ?_⟩
    have hpool : (noted.setProbe id index (.ended changed)).pool =
        t.pool.observe p.connection outcome := setProbe_pool noted id index _
    rw [hpool] at hc
    have hearlier (hbefore : (t.pool.healthOf c).status ≠ (s.pool.healthOf c).status) :
        ∃ q ∈ probes.modify index fun p => { p with state := .ended changed },
          reported q = true ∧ q.connection.same c = true := by
      obtain ⟨q, hq, hreported, hsame⟩ := hnoted c hbefore
      exact ⟨q, mem_modify_of_reported hp hopen hq hreported, hreported, hsame⟩
    by_cases hid : c.id = p.connection.id
    · cases hchanged : changed with
      | true =>
        have hself := mem_modify_self (f := fun p => { p with state := .ended changed }) hp
        rw [hchanged] at hself
        exact ⟨_, hself, rfl, by simpa [Connection.same] using hid.symm⟩
      | false =>
        rw [← hchanged]
        refine hearlier ?_
        rw [Pool.status_observe_unchanged hchanged] at hc
        exact hc
    · refine hearlier ?_
      rw [Pool.healthOf_observe_ne _ _ hid] at hc
      exact hc
  exact hset.wake _

theorem Underway.probing (h : Underway id owner options stage s t) (p : BatchProbe) :
    Underway id owner options stage s (t.probing p) := by
  have hnote : Still t (t.record (.probeStarted p.connection p.timeoutMs)) := .record rfl t
  exact h.same (hnote.trans (.same rfl rfl rfl rfl rfl)) rfl rfl

theorem Underway.probeTurn (h : Underway id owner options stage s t)
    (hturn : ProbeTurn id index t u) : Underway id owner options stage s u := by
  -- only probes that have not ended take a turn, so no report is lost
  cases hturn with
  | nothing => exact h
  | @breaks p hp hqueued _ =>
    have hopen : reported p = false := by simp [reported, hqueued]
    exact ((h.probing p).setProbe hp hopen .panicked).wake _
  | @waits p outcome due hp hqueued =>
    have hopen : reported p = false := by simp [reported, hqueued]
    have hset := (h.probing p).setProbe hp hopen (.waiting outcome)
    exact hset.same (.same rfl rfl rfl rfl rfl) rfl rfl
  | @answers p outcome hp hqueued =>
    have hopen : reported p = false := by simp [reported, hqueued]
    exact (h.probing p).endProbe hp hopen outcome
  | @ends p outcome hp hwaiting =>
    have hopen : reported p = false := by simp [reported, hwaiting]
    exact h.endProbe hp hopen outcome

theorem underway_launch (s : Manager) (id : FlightId) (owner : Owner) (options : CheckOptions)
    (stage : Stage) (conns : List Connection) :
    Underway id owner options stage s (s.launch id owner options stage conns) := by
  have hframe : Frame (fun _ => True) s (s.launch id owner options stage conns) :=
    launch_frame fun _ _ => Or.inr trivial
  obtain ⟨probes, started, ready, hlaunch, _, _⟩ := launch_eq s id owner options stage conns
  have hflight : (s.launch id owner options stage conns).flights.lookup id =
      some ⟨owner, .batch options stage probes⟩ := by
    rw [hlaunch]
    exact lookup_upsert_self _ _ _
  refine ⟨hframe.still, probes, hflight, fun c hc => ?_⟩
  rw [hframe.pool] at hc
  exact absurd rfl hc

/-- A batch stays under way until its operation goes on from it. -/
theorem Underway.progressing (h : Underway id owner options stage s t)
    (hstep : Progressing id t u) : Underway id owner options stage s u := by
  cases hstep with
  | probe index =>
    have herased : Underway id owner options stage s
        { t with ready := t.ready.erase (.probe id index) } :=
      h.same (.same rfl rfl rfl rfl rfl) rfl rfl
    dsimp only [next, runTask]
    split
    · exact herased.probeTurn (runProbe_turn _ id index)
    · exact h
  | early hflight hwaits =>
    have herased : Underway id owner options stage s
        { t with ready := t.ready.erase (.flight id) } :=
      h.same (.same rfl rfl rfl rfl rfl) rfl rfl
    have hrun : ({ t with ready := t.ready.erase (.flight id) } : Manager).runFlight id =
        { t with ready := t.ready.erase (.flight id) } := runFlight_waiting hflight hwaits
    dsimp only [next, runTask]
    rw [hrun]
    split
    · exact herased
    · exact h
  | clock time =>
    obtain ⟨timers, ready, hclock⟩ := moveClock_eq t time
    have hstill : Still t (t.moveClock time) := (moveClock_frame (K := fun _ => True) t time).still
    dsimp only [next]
    rw [hclock] at hstill ⊢
    exact h.same hstill rfl rfl

/-- While a batch is under way, nobody is told anything. -/
theorem Underway.run (h : Underway id owner options stage s t)
    (hrun : ReflTransGen (Progressing id) t u) : Underway id owner options stage s u := by
  induction hrun with
  | refl => exact h
  | tail _ hstep ih => exact ih.progressing hstep

/-! ## The end of a batch -/

theorem changes_ended {probed : List (Connection × Bool)} (h : changes probes = .ok probed) :
    ∀ p ∈ probes, ∃ changed, p.state = .ended changed := by
  induction probes generalizing probed with
  | nil => exact fun p hp => absurd hp List.not_mem_nil
  | cons p rest ih =>
    rw [changes_cons] at h
    split at h
    · next changed hstate =>
      cases hrest : changes rest with
      | error task =>
        rw [hrest] at h
        exact absurd h (by simp [Except.map])
      | ok more =>
        intro q hq
        rcases List.mem_cons.mp hq with rfl | hq
        · exact ⟨changed, hstate⟩
        · exact ih hrest q hq
    · exact absurd h (by simp)

/-- The end of a batch is a turn of its operation, which finds all its probes over. -/
theorem batchEnd_ne (h : s.batchEnd (.turn (.flight id)) ≠ []) :
    s.ready.contains (.flight id) = true ∧ ∃ owner options stage probes,
      s.flights.lookup id = some ⟨owner, .batch options stage probes⟩ ∧ joined probes = true ∧
        s.batchEnd (.turn (.flight id)) = probes := by
  dsimp only [batchEnd, joinedBatch] at h ⊢
  split at h
  · next hready =>
    split at h
    · next owner options stage probes hflight =>
      split at h
      · next hover =>
        refine ⟨hready, owner, options, stage, probes, hflight, hover, ?_⟩
        rw [if_pos hready]
        exact if_pos hover
      · exact absurd rfl h
    · exact absurd rfl h
  · exact absurd rfl h

/-- An operation whose batch has broken ends with an error, and nobody is told anything. -/
theorem broken_batch (hend : s.batchEnd (.turn (.flight id)) ≠ [])
    (hbroken : ∃ p ∈ s.batchEnd (.turn (.flight id)), p.state = .panicked) :
    Still s (s.next (.turn (.flight id))) ∧
      (s.next (.turn (.flight id))).flights.lookup id = none := by
  obtain ⟨hready, owner, options, stage, probes, hflight, hover, hprobes⟩ := batchEnd_ne hend
  rw [hprobes] at hbroken
  obtain ⟨p, hp, hpanicked⟩ := hbroken
  let erased : Manager := { s with ready := s.ready.erase (.flight id) }
  have hchanges : ∃ task, changes probes = .error task := by
    cases hchanges : changes probes with
    | error task => exact ⟨task, rfl⟩
    | ok probed =>
      obtain ⟨changed, hended⟩ := changes_ended hchanges p hp
      exact absurd (hpanicked.symm.trans hended) (by simp)
  obtain ⟨task, hchanges⟩ := hchanges
  have hnext : s.next (.turn (.flight id)) =
      erased.land id owner (.broken ⟨Stage.operation stage, task⟩) := by
    have hrun : erased.runFlight id =
        erased.land id owner (.broken ⟨Stage.operation stage, task⟩) :=
      runFlight_broken hflight hover hchanges
    dsimp only [next, runTask]
    rw [if_pos hready]
    exact hrun
  rw [hnext]
  have herased : Still s erased := .same rfl rfl rfl rfl rfl
  refine ⟨herased.trans (land_quiet (K := fun _ => True) erased id owner _).still, ?_⟩
  rw [land_flights]
  exact lookup_without_self _ _

/-- An unbroken batch that has changed the observed state of the current connection tells it to all
listeners. -/
theorem unbroken_batch (hs : s.Attentive) (h : Underway id owner options stage s t)
    (hend : t.batchEnd (.turn (.flight id)) ≠ []) {c : Connection} (hcurrent : t.current = some c)
    (hchanged : (t.pool.healthOf c).status ≠ (s.pool.healthOf c).status)
    (hunbroken : ∀ p ∈ t.batchEnd (.turn (.flight id)), p.state ≠ .panicked) {name : String}
    (hname : name ∈ t.subscribers) :
    (name, some c) ∈ callbacks (since s (t.next (.turn (.flight id)))) := by
  have ht : t.Attentive := hs.same h.still.held h.still.listeners
  obtain ⟨_, _, _, _, probes, hflight, hover, hprobes⟩ := batchEnd_ne hend
  obtain ⟨probes', hflight', hnoted⟩ := h.batch
  rw [hflight] at hflight'
  cases hflight'
  -- a probe of the batch has noted the change, and an unbroken batch passes on what was noted
  obtain ⟨q, hq, hreported, hsame⟩ := hnoted c hchanged
  have hreport : reportOf t.current (results (t.batchEnd (.turn (.flight id)))) = [some c] := by
    have hany : (probes.any fun p => reported p && p.connection.same c) = true :=
      List.any_eq_true.mpr ⟨q, hq, by rw [hreported, hsame]; rfl⟩
    rw [hprobes] at hunbroken
    rw [hprobes, results_joined hover hunbroken, hcurrent]
    simp only [reportOf, List.any_map, Function.comp_def, hany, if_true]
  have haccounted := (next_course (s := t) (m := .turn (.flight id)) (by simp)).accounted ht
  rw [since_append h.still.later haccounted.later, callbacks_append, haccounted.callbacks, hreport]
  refine List.mem_append_right _ (List.mem_flatMap.mpr ⟨some c, ?_, ?_⟩)
  · exact List.mem_append_left _ (List.mem_singleton_self _)
  · exact List.mem_map.mpr ⟨name, hname, rfl⟩

/-- When a batch ends that has changed the observed state of the connection that is current then,
all listeners are told of it, unless a probe of the batch has broken. Then none of them is told,
though the operation has returned. -/
theorem batch_told_iff (hs : s.Attentive) {conns : List Connection}
    (hrun : ReflTransGen (Progressing id) (s.launch id owner options stage conns) t)
    (hend : t.batchEnd (.turn (.flight id)) ≠ []) {c : Connection} (hcurrent : t.current = some c)
    (hchanged : (t.pool.healthOf c).status ≠ (s.pool.healthOf c).status) :
    ((∀ name ∈ t.subscribers,
        (name, some c) ∈ callbacks (since s (t.next (.turn (.flight id))))) ↔
      t.subscribers = [] ∨ ∀ p ∈ t.batchEnd (.turn (.flight id)), p.state ≠ .panicked) ∧
    ((∃ p ∈ t.batchEnd (.turn (.flight id)), p.state = .panicked) →
      callbacks (since s (t.next (.turn (.flight id)))) = [] ∧
        (t.next (.turn (.flight id))).flights.lookup id = none) := by
  have hunderway := (underway_launch s id owner options stage conns).run hrun
  have hbroken (h : ∃ p ∈ t.batchEnd (.turn (.flight id)), p.state = .panicked) :
      callbacks (since s (t.next (.turn (.flight id)))) = [] ∧
        (t.next (.turn (.flight id))).flights.lookup id = none := by
    obtain ⟨hstill, hgone⟩ := broken_batch hend h
    exact ⟨(hunderway.still.trans hstill).callbacks, hgone⟩
  refine ⟨⟨fun hall => ?_, fun h name hname => ?_⟩, hbroken⟩
  · by_cases hunbroken : ∀ p ∈ t.batchEnd (.turn (.flight id)), p.state ≠ .panicked
    · exact Or.inr hunbroken
    · push Not at hunbroken
      obtain ⟨hsilent, _⟩ := hbroken hunbroken
      refine Or.inl (List.eq_nil_iff_forall_not_mem.mpr fun name hname => ?_)
      have htold := hall name hname
      rw [hsilent] at htold
      exact absurd htold List.not_mem_nil
  · rcases h with hnone | hunbroken
    · rw [hnone] at hname
      exact absurd hname List.not_mem_nil
    · exact unbroken_batch hs hunderway hend hcurrent hchanged hunbroken hname

/-- A is current, and there is a listener; both A and B are to be probed. -/
def unprobed : Manager :=
  let s : Manager := [.call (.selectUri "A"), .call (.addUri "B" none),
    .call (.addListener "log" [] 0)].foldl next
      (idle ⟨[("A", ⟨[], some (.reply 0 (.ok ⟨true, .ofMillis 5⟩))⟩),
        ("B", ⟨[], some .panic⟩)]⟩ true)
  { s with nextId := 1 }.setFlight 0
    ⟨.caller, .queued (.checkConnections [⟨0, { uri := "A" }⟩, ⟨1, { uri := "B" }⟩] [])⟩

/-- The probe of A has succeeded, the probe of B has broken. -/
def halfProbed : Manager :=
  [.turn (.probe 0 0), .turn (.probe 0 1)].foldl next
    (unprobed.launch 0 .caller unprobed.defaultOptions .ranking
      [⟨0, { uri := "A" }⟩, ⟨1, { uri := "B" }⟩])

theorem halfProbed_untold :
    let a : Connection := ⟨0, { uri := "A" }⟩
    let after := halfProbed.next (.turn (.flight 0))
    halfProbed.subscribers = ["log"] ∧ halfProbed.current = some a ∧
      unprobed.pool.isUp a = false ∧ halfProbed.pool.isUp a = true ∧
      ¬ (∀ name ∈ halfProbed.subscribers, (name, some a) ∈ callbacks (since unprobed after)) ∧
      after.flights.lookup 0 = none := by
  intro a after
  have attentive : unprobed.Attentive := by
    refine ⟨rfl, fun name calls hcalls => ?_⟩
    have hlisteners : unprobed.listeners = [("log", ⟨[]⟩)] := rfl
    obtain ⟨e, he, hscript⟩ := mem_script hcalls
    rw [hlisteners, List.mem_singleton] at he
    rw [he] at hscript
    exact absurd hscript List.not_mem_nil
  have hrun : ReflTransGen (Progressing 0)
      (unprobed.launch 0 .caller unprobed.defaultOptions .ranking
        [⟨0, { uri := "A" }⟩, ⟨1, { uri := "B" }⟩]) halfProbed :=
    .tail (.tail .refl (.probe _ 0)) (.probe _ 1)
  have hend : halfProbed.batchEnd (.turn (.flight 0)) ≠ [] := List.cons_ne_nil _ _
  have hpanicked : ∃ p ∈ halfProbed.batchEnd (.turn (.flight 0)), p.state = .panicked :=
    ⟨_, List.mem_of_getElem? (i := 1) rfl, rfl⟩
  have hcurrent : halfProbed.current = some a := by decide
  have hchanged : (halfProbed.pool.healthOf a).status ≠ (unprobed.pool.healthOf a).status := by
    decide
  obtain ⟨hiff, hbroken⟩ := batch_told_iff attentive hrun hend hcurrent hchanged
  refine ⟨by decide, hcurrent, by decide, by decide, fun htold => ?_, (hbroken hpanicked).2⟩
  rcases hiff.mp htold with hnone | hunbroken
  · exact absurd hnone (by decide)
  · obtain ⟨p, hp, hstate⟩ := hpanicked
    exact hunbroken p hp hstate

end Manager

end RpcPool

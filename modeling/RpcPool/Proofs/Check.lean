import RpcPool.Proofs.Observers
import RpcPool.Proofs.Run

/-!
# A check of a list of connections

A check that nothing interferes with, from its call to its answer: its probes start and end in any
order, the clock moves, listeners only observe. While it waits for its batch, only health changes;
when the batch has been joined, the two moves at the end of a check are made at once.

Results:
1. `waiting_next`, `returned_next`: what the moves of a check keep while it is under way, and after
   it has returned.
2. `check_leads`: when a check returns, the current connection is connected and of the best group
   with a connected member, or stays as it was if no registered connection is connected; the answer
   says whether one of the connections that were to be checked is connected.
-/

namespace RpcPool

/-- No probe of a route breaks. -/
def Route.Calm (r : Route) : Prop := .panic ∉ r.queue ∧ r.fallback ≠ some .panic

/-- No probe breaks. -/
def Network.Calm (n : Network) : Prop := ∀ e ∈ n.routes, e.2.Calm

instance (b : Behaviour) : Decidable (b = .panic) :=
  match b with
  | .panic => .isTrue rfl
  | .reply .. => .isFalse nofun
  | .hang => .isFalse nofun

instance (r : Route) : Decidable r.Calm :=
  decidable_of_iff ((∀ b ∈ r.queue, ¬ b = .panic) ∧ ∀ b ∈ r.fallback, ¬ b = .panic) <|
    and_congr ⟨fun h hp => h _ hp rfl, fun h _ hb hp => h (hp ▸ hb)⟩
      ⟨fun h hp => h _ hp rfl, fun h _ hb hp => h (hp ▸ hb)⟩

instance (n : Network) : Decidable n.Calm :=
  inferInstanceAs (Decidable (∀ e ∈ n.routes, e.2.Calm))

theorem Network.Calm.route {n : Network} (h : n.Calm) (uri : String) : (n.route uri).Calm := by
  unfold Network.route
  cases hl : n.routes.lookup uri with
  | none => exact ⟨List.not_mem_nil, by simp⟩
  | some r => exact h _ (Manager.mem_of_lookup hl)

theorem Network.Calm.take {n : Network} (h : n.Calm) (uri : String) :
    (n.take uri).1 ≠ .panic ∧ (n.take uri).2.Calm := by
  obtain ⟨hqueue, hfallback⟩ := h.route uri
  unfold Network.take
  dsimp only
  split
  · next b rest hq =>
    rw [hq] at hqueue
    refine ⟨fun hb => hqueue (hb ▸ List.mem_cons_self), fun e he => ?_⟩
    rcases List.mem_cons.mp he with rfl | he
    · exact ⟨fun hmem => hqueue (List.mem_cons_of_mem _ hmem), hfallback⟩
    · exact h e (List.mem_filter.mp he).1
  · refine ⟨?_, h⟩
    cases hf : (n.route uri).fallback with
    | none => simp [Behaviour.offline]
    | some b =>
      rintro rfl
      exact hfallback hf

/-- Whether a move concerns one operation alone: a turn of one of its tasks, or the clock. -/
def Move.within (id : FlightId) : Move → Prop
  | .turn (.probe flight _) => flight = id
  | .turn (.flight flight) => flight = id
  | .clock _ => True
  | _ => False

namespace Manager

variable {s t : Manager} {id : FlightId} {conns : List Connection} {r : Registry}

/-- A check waits for its batch. -/
structure Waiting (r : Registry) (id : FlightId) (conns : List Connection) (t : Manager) :
    Prop where
  registry : t.pool.registry = r
  health : t.pool.health.Observed
  calm : t.network.Calm
  observing : t.Observing
  flight : ∃ options probes, t.flights.lookup id = some ⟨.caller, .batch options .ranking probes⟩ ∧
    options.autoSwitch = true ∧ probes.map (·.connection) = conns ∧
    ∀ p ∈ probes, p.state ≠ .panicked

/-- A check has returned. -/
structure Returned (r : Registry) (id : FlightId) (conns : List Connection) (t : Manager) :
    Prop where
  flight : t.flights.lookup id = none
  answer : t.answers.lookup id = some (.flag (conns.any t.pool.isUp))
  settled : ∃ p : Pool, p.registry = r ∧ p.health.Observed ∧
    t.pool = p.settle (Selection.firstConnected p.health.get conns)

/-! ## While a batch is under way -/

theorem Waiting.wake (h : Waiting r id conns t) (task : Task) :
    Waiting r id conns (t.wake task) := by
  obtain ⟨ready, hwake⟩ := wake_eq t task
  rw [hwake]
  exact ⟨h.registry, h.health, h.calm, h.observing, h.flight⟩

theorem Waiting.sleep (h : Waiting r id conns t) (due : Nat) (task : Task) :
    Waiting r id conns (t.sleep due task) :=
  ⟨h.registry, h.health, h.calm, h.observing, h.flight⟩

theorem Waiting.record (h : Waiting r id conns t) (e : Event) : Waiting r id conns (t.record e) :=
  ⟨h.registry, h.health, h.calm, h.observing, h.flight⟩

theorem mem_modify {α : Type} {f : α → α} {a : α} {index : Nat} {entries : List α}
    (h : a ∈ entries.modify index f) : a ∈ entries ∨ ∃ b ∈ entries, a = f b := by
  induction entries generalizing index with
  | nil =>
    rw [List.modify_nil] at h
    exact Or.inl h
  | cons b rest ih =>
    cases index with
    | zero =>
      rcases List.mem_cons.mp h with rfl | h
      · exact Or.inr ⟨b, List.mem_cons_self, rfl⟩
      · exact Or.inl (List.mem_cons_of_mem _ h)
    | succ index =>
      rw [List.modify_succ_cons] at h
      rcases List.mem_cons.mp h with rfl | h
      · exact Or.inl List.mem_cons_self
      · rcases ih h with h | ⟨d, hd, rfl⟩
        · exact Or.inl (List.mem_cons_of_mem _ h)
        · exact Or.inr ⟨d, List.mem_cons_of_mem _ hd, rfl⟩

theorem Waiting.setProbe (h : Waiting r id conns t) (index : Nat) {state : ProbeState}
    (hstate : state ≠ .panicked) : Waiting r id conns (t.setProbe id index state) := by
  obtain ⟨options, probes, hflight, on, hconns, hcalm⟩ := h.flight
  unfold Manager.setProbe
  rw [hflight]
  refine ⟨h.registry, h.health, h.calm, h.observing, options, _, lookup_upsert_self _ _ _, on,
    (connection_modify probes index state).trans hconns, fun p hp => ?_⟩
  rcases mem_modify hp with hp | ⟨q, _, rfl⟩
  · exact hcalm p hp
  · exact hstate

theorem Waiting.endProbe (h : Waiting r id conns t) (index : Nat) (c : Connection)
    (outcome : Probe.Outcome) : Waiting r id conns (t.endProbe id index c outcome) := by
  have hobserve : Waiting r id conns { t with pool := t.pool.observe c outcome } :=
    ⟨h.registry, h.health.set ((h.health c.id).observe outcome), h.calm, h.observing, h.flight⟩
  exact ((hobserve.record _).setProbe index (by simp)).wake _

theorem Waiting.startProbe (h : Waiting r id conns t) (index : Nat) (c : Connection)
    (timeoutMs : UInt32) : Waiting r id conns (t.startProbe id index c timeoutMs) := by
  obtain ⟨hanswers, hcalm⟩ := h.calm.take c.uri
  have hstart : Waiting r id conns
      { t.record (.probeStarted c timeoutMs) with network := (t.network.take c.uri).2 } :=
    ⟨h.registry, h.health, hcalm, h.observing, h.flight⟩
  unfold Manager.startProbe
  dsimp only
  split
  · next hpanic => exact absurd hpanic hanswers
  · exact (hstart.setProbe index (by simp)).sleep _ _
  · split
    · exact hstart.endProbe index c _
    · split
      · exact (hstart.setProbe index (by simp)).sleep _ _
      · exact (hstart.setProbe index (by simp)).sleep _ _

theorem Waiting.runProbe (h : Waiting r id conns t) (index : Nat) :
    Waiting r id conns (t.runProbe id index) := by
  obtain ⟨options, probes, hflight, _⟩ := h.flight
  unfold Manager.runProbe
  rw [hflight]
  dsimp only
  split
  · exact h
  · split
    · exact h.startProbe index _ _
    · exact h.endProbe index _ _
    · exact h

/-! ## When the batch has been joined -/

/-- A probe that is not over is still to start, or it waits for its outcome. -/
theorem unfinished_cases {state : ProbeState} (h : state.isOver = false) :
    state = .queued ∨ ∃ outcome, state = .waiting outcome := by
  cases state with
  | queued => exact Or.inl rfl
  | waiting outcome => exact Or.inr ⟨outcome, rfl⟩
  | _ => exact absurd h (by simp [ProbeState.isOver])

/-- A probe that is over has broken, or it has ended with an outcome. -/
theorem over_cases {state : ProbeState} (h : state.isOver = true) :
    state = .panicked ∨ ∃ changed, state = .ended changed := by
  cases state with
  | panicked => exact Or.inl rfl
  | ended changed => exact Or.inr ⟨changed, rfl⟩
  | _ => exact absurd h (by simp [ProbeState.isOver])

theorem changes_joined {probes : List BatchProbe} (h : joined probes = true)
    (hcalm : ∀ p ∈ probes, p.state ≠ .panicked) : ∃ probed, changes probes = .ok probed := by
  induction probes with
  | nil => exact ⟨[], rfl⟩
  | cons p rest ih =>
    obtain ⟨hover, hrest⟩ := Bool.and_eq_true_iff.mp (List.all_cons.symm.trans h)
    obtain ⟨probed, hprobed⟩ := ih hrest fun q hq => hcalm q (List.mem_cons_of_mem _ hq)
    obtain ⟨changed, hended⟩ := (over_cases hover).resolve_left (hcalm p List.mem_cons_self)
    rw [changes_cons, hprobed, hended]
    exact ⟨(p.connection, changed) :: probed, rfl⟩

theorem land_caller (s : Manager) (id : FlightId) (reply : Reply) :
    (s.land id .caller reply).pool = s.pool ∧
      (s.land id .caller reply).flights = without id s.flights ∧
      (s.land id .caller reply).answers = upsert id reply s.answers := by
  unfold land
  obtain ⟨poller, loops, timers, ready, hrelease⟩ := release_eq
    { s with flights := without id s.flights, answers := upsert id reply s.answers }
  dsimp only
  rw [hrelease]
  exact ⟨rfl, rfl, rfl⟩

theorem returned_land {u : Manager} {p : Pool} {found : Bool} (hregistry : p.registry = r)
    (hhealth : p.health.Observed)
    (hu : u.pool = p.settle (Selection.firstConnected p.health.get conns))
    (hfound : found = (Selection.firstConnected p.health.get conns).isSome) :
    Returned r id conns (u.land id .caller (.flag found)) := by
  obtain ⟨hpool, hflights, hanswers⟩ := land_caller u id (.flag found)
  obtain ⟨current, hsettle⟩ := p.settle_eq (Selection.firstConnected p.health.get conns)
  have hup : (u.land id .caller (.flag found)).pool.isUp = p.isUp := by
    rw [hpool, hu, hsettle]
    rfl
  refine ⟨?_, ?_, p, hregistry, hhealth, hpool.trans hu⟩
  · rw [hflights]
    exact lookup_without_self _ _
  · rw [hanswers, lookup_upsert_self, hup, hfound, Selection.firstConnected_isSome]
    rfl

/-- A check returns with the end of its batch. -/
theorem returned_rank {options : CheckOptions} {probed : List (Connection × Bool)}
    (hregistry : t.pool.registry = r) (hhealth : t.pool.health.Observed) (hobserving : t.Observing)
    (on : options.autoSwitch = true) (hprobed : probed.map (·.1) = conns) :
    Returned r id conns
      ((t.rank options probed).1.land id .caller (.flag (t.rank options probed).2)) := by
  obtain ⟨houtline, hfound⟩ := rank_outline hobserving on probed
  rw [hprobed] at houtline hfound
  exact returned_land hregistry hhealth (outline_pool houtline) hfound

theorem Waiting.runFlight (h : Waiting r id conns t) :
    Waiting r id conns (t.runFlight id) ∨ Returned r id conns (t.runFlight id) := by
  obtain ⟨options, probes, hflight, on, hconns, hcalm⟩ := h.flight
  unfold Manager.runFlight
  rw [hflight]
  dsimp only
  split
  · next hjoined =>
    obtain ⟨probed, hprobed⟩ := changes_joined hjoined hcalm
    rw [hprobed]
    have hbatch : probed.map (·.1) = conns := (changes_ok hprobed).trans hconns
    exact Or.inr (returned_rank h.registry h.health h.observing on hbatch)
  · exact Or.inl h

theorem waiting_launch (hregistry : s.pool.registry = r) (health : s.pool.health.Observed)
    (calm : s.network.Calm) (observing : s.Observing) {options : CheckOptions}
    (on : options.autoSwitch = true) (conns : List Connection) :
    Waiting r id conns (s.launch id .caller options .ranking conns) := by
  unfold launch
  dsimp only
  rw [← List.foldl_map]
  generalize hbatch : conns.mapIdx _ = probes
  obtain ⟨ready, hready⟩ := foldl_wake_eq ((List.range probes.length).map fun i => .probe id i)
    ({ s with started := s.started + probes.length }.setFlight id
      ⟨.caller, .batch options .ranking probes⟩)
  rw [hready]
  -- only the probes of the new batch are new, and none of them has begun
  refine ⟨hregistry, health, calm, observing, options, probes, lookup_upsert_self _ _ _, on, ?_, ?_⟩
  · rw [← hbatch]
    exact connection_mapIdx (fun _ _ => rfl) conns
  · intro p hp
    rw [← hbatch] at hp
    obtain ⟨i, hi, rfl⟩ := List.mem_mapIdx.mp hp
    simp

/-- A check either begins its batch, or it returns because nothing is to be probed. -/
theorem begin_check (hregistry : s.pool.registry = r) (health : s.pool.health.Observed)
    (calm : s.network.Calm) (observing : s.Observing) (on : s.pool.registry.autoSwitch = true)
    {conns excluded : List Connection}
    (hflight : s.flights.lookup id = some ⟨.caller, .queued (.checkConnections conns excluded)⟩) :
    Waiting r id (conns.filter fun c => !Selection.excludes excluded c) (s.runFlight id) ∨
      Returned r id (conns.filter fun c => !Selection.excludes excluded c) (s.runFlight id) := by
  rw [runFlight_queued hflight]
  dsimp only [begin, beginRanking]
  split
  · next hnone =>
    rw [List.isEmpty_iff.mp hnone]
    exact Or.inr (returned_rank hregistry health observing on rfl)
  · exact Or.inl (waiting_launch hregistry health calm observing on _)

theorem start_check (health : s.pool.health.Observed) (calm : s.network.Calm)
    (observing : s.Observing) (on : s.pool.registry.autoSwitch = true)
    (conns excluded : List Connection) :
    Waiting s.pool.registry s.nextId (conns.filter fun c => !Selection.excludes excluded c)
        (s.start (.checkConnections conns excluded)) ∨
      Returned s.pool.registry s.nextId (conns.filter fun c => !Selection.excludes excluded c)
        (s.start (.checkConnections conns excluded)) := by
  let flight : Flight := ⟨.caller, .queued (.checkConnections conns excluded)⟩
  have hflight := lookup_upsert_self s.nextId flight s.flights
  exact begin_check (s := { s with nextId := s.nextId + 1 }.setFlight s.nextId flight) rfl health
    calm observing on hflight

theorem waiting_next {m : Move} (hm : m.within id) (h : Waiting r id conns t) :
    Waiting r id conns (t.next m) ∨ Returned r id conns (t.next m) := by
  cases m with
  | turn task =>
    have herase : Waiting r id conns { t with ready := t.ready.erase task } :=
      ⟨h.registry, h.health, h.calm, h.observing, h.flight⟩
    dsimp only [Manager.next, runTask]
    split
    · cases task with
      | probe flight index =>
        cases hm
        exact Or.inl (herase.runProbe index)
      | flight flight =>
        cases hm
        exact herase.runFlight
      | loop loop => exact absurd hm (by simp [Move.within])
    · exact Or.inl h
  | clock time =>
    obtain ⟨timers, ready, hclock⟩ := moveClock_eq t time
    dsimp only [Manager.next]
    rw [hclock]
    exact Or.inl ⟨h.registry, h.health, h.calm, h.observing, h.flight⟩
  | _ => exact absurd hm (by simp [Move.within])

theorem returned_next {m : Move} (hm : m.within id) (h : Returned r id conns t) :
    Returned r id conns (t.next m) := by
  cases m with
  | turn task =>
    have herase : Returned r id conns { t with ready := t.ready.erase task } :=
      ⟨h.flight, h.answer, h.settled⟩
    dsimp only [Manager.next, runTask]
    split
    · cases task with
      | probe flight index =>
        cases hm
        simp only [runProbe, h.flight]
        exact herase
      | flight flight =>
        cases hm
        simp only [runFlight, h.flight]
        exact herase
      | loop loop => exact absurd hm (by simp [Move.within])
    · exact h
  | clock time =>
    obtain ⟨timers, ready, hclock⟩ := moveClock_eq t time
    dsimp only [Manager.next]
    rw [hclock]
    exact ⟨h.flight, h.answer, h.settled⟩
  | _ => exact absurd hm (by simp [Move.within])

theorem foldl_next {moves : List Move} (hmoves : ∀ m ∈ moves, m.within id)
    (h : Waiting r id conns t ∨ Returned r id conns t) :
    Waiting r id conns (moves.foldl next t) ∨ Returned r id conns (moves.foldl next t) := by
  induction moves generalizing t with
  | nil => exact h
  | cons m rest ih =>
    have hm := hmoves m List.mem_cons_self
    -- once the check has returned, its tasks have nothing left to do
    refine ih (fun m hm => hmoves m (List.mem_cons_of_mem _ hm)) ?_
    rcases h with h | h
    · exact waiting_next hm h
    · exact Or.inr (returned_next hm h)

/-! ## The outcome of a check -/

/-- When a check that nothing interferes with has returned, the current connection leads, if any
registered connection is connected, and is the same as before if none is. The answer says whether
one of the connections that were to be checked is connected. -/
theorem check_leads (h : Reachable s) (on : s.pool.registry.autoSwitch = true)
    (calm : s.network.Calm) (observing : s.Observing) {conns excluded : List Connection}
    (hconns : ∀ c ∈ conns, s.Genuine c)
    {moves : List Move} (hmoves : ∀ m ∈ moves, m.within s.nextId)
    (ht : moves.foldl next (s.start (.checkConnections conns excluded)) = t)
    (hreturned : t.flights.lookup s.nextId = none) :
    t.pool.registry.connections = s.pool.registry.connections ∧
      ((∃ c ∈ t.pool.registry.connections, t.pool.isUp c = true) → t.pool.Leads) ∧
      ((∀ c ∈ t.pool.registry.connections, t.pool.isUp c = false) →
        t.pool.registry.current = s.pool.registry.current) ∧
      ∃ found, t.answers.lookup s.nextId = some (.flag found) ∧
        (found = true ↔
          ∃ c ∈ conns, Selection.excludes excluded c = false ∧ t.pool.isUp c = true) := by
  have hsound := h.sound
  have hphase := foldl_next hmoves (start_check hsound.health calm observing on conns excluded)
  rw [ht] at hphase
  rcases hphase with hwaiting | hdone
  · obtain ⟨_, _, hflight, _⟩ := hwaiting.flight
    rw [hreturned] at hflight
    exact absurd hflight (by simp)
  · -- what the batch found is the health of `p`; the moves after it are `settle` on `p`
    obtain ⟨p, hregistry, hhealth, hsettle⟩ := hdone.settled
    have wf : p.WellFormed := ⟨hregistry ▸ hsound.registry, hregistry ▸ hsound.pool.apart, hhealth⟩
    obtain ⟨current, heq⟩ := p.settle_eq (Selection.firstConnected p.health.get
      (conns.filter fun c => !Selection.excludes excluded c))
    have hlist : t.pool.registry.connections = p.registry.connections := by rw [hsettle, heq]
    have hup (c : Connection) : t.pool.isUp c = p.isUp c := by rw [hsettle, heq]; rfl
    refine ⟨by rw [hlist, hregistry], ?_, ?_, _, hdone.answer, ?_⟩
    · rintro ⟨c, hc, up⟩
      rw [hsettle]
      refine Pool.settle_leads wf (fun d hd k hk hid => ?_) (hlist ▸ hc) (hup c ▸ up)
      have hd := (List.mem_filter.mp (Selection.firstConnected_eq_some hd).1).1
      exact (hsound.genuine k (mem_instances_of_registered (hregistry ▸ hk))).eq (hconns d hd) hid
    · intro down
      rw [hsettle, ← hregistry]
      refine congrArg (·.registry.current) (Pool.settle_idle wf
        (fun d hd => (Selection.firstConnected_eq_some hd).2) fun c hc => ?_)
      exact hup c ▸ down c (hlist ▸ hc)
    · simp only [List.any_eq_true, List.mem_filter, Bool.not_eq_true', and_assoc]

/-- Of two endpoints the less important one is current. There is another instance under the URI of
B, which is not registered, and a listener asks a question. -/
def unchecked : Manager :=
  [.call (.add { uri := "A", priority := 1 } none), .call (.add { uri := "B", priority := 3 } none),
    .call (.selectUri "A"), .call (.make { uri := "B" } none),
    .call (.addListener "log" [.has "A"] 1)].foldl next
      (idle ⟨[("A", ⟨[], none⟩),
        ("B", ⟨[.offline], some (.reply 20 (.ok ⟨true, .ofMillis 20⟩))⟩)]⟩ true)

/-- The other instance is probed first, and in vain; B is given twice, and A is left out. -/
def checked : Manager :=
  [.turn (.probe 0 0), .turn (.probe 0 2), .turn (.probe 0 1), .clock 20, .turn (.probe 0 1),
    .turn (.probe 0 2), .turn (.flight 0)].foldl next
      (unchecked.start (.checkConnections
        [⟨3, { uri := "B" }⟩, ⟨1, { uri := "B", priority := 3 }⟩,
          ⟨1, { uri := "B", priority := 3 }⟩]
        [⟨0, { uri := "A", priority := 1 }⟩]))

theorem checked_leads :
    checked.pool.registry.current = some ⟨1, { uri := "B", priority := 3 }⟩ ∧ checked.pool.Leads ∧
      ∃ found, checked.answers.lookup 0 = some (.flag found) := by
  have calm : unchecked.network.Calm := by
    intro e he
    have hroutes : unchecked.network.routes =
        [("A", ⟨[], none⟩), ("B", ⟨[.offline], some (.reply 20 (.ok ⟨true, .ofMillis 20⟩))⟩)] := rfl
    rw [hroutes] at he
    rcases List.mem_cons.mp he with rfl | he
    · simp [Route.Calm]
    · rcases List.mem_singleton.mp he with rfl
      simp [Route.Calm, Behaviour.offline]
  have observing : unchecked.Observing := by
    intro name hname l hl
    have hlog : unchecked.listeners.lookup "log" = some ⟨[[.has "A"]]⟩ := rfl
    rcases List.mem_singleton.mp (show name ∈ ["log"] from hname) with rfl
    rw [hlog] at hl
    cases hl
    simp [Call.observes]
  have hreachable : Reachable unchecked := .foldl _ (.new _ true [])
  have hid : unchecked.nextId = 0 := by decide
  have hreturned : checked.flights.lookup unchecked.nextId = none :=
    Option.isNone_iff_eq_none.mp (by decide +kernel)
  obtain ⟨_, hleads, _, found, hanswer, _⟩ := check_leads (t := checked) hreachable (by decide) calm
    observing (by decide) (by simp [Move.within, hid]) rfl hreturned
  have hup : ∃ c ∈ checked.pool.registry.connections, checked.pool.isUp c = true := by
    decide +kernel
  exact ⟨by decide +kernel, hleads hup, found, hid ▸ hanswer⟩

end Manager

end RpcPool

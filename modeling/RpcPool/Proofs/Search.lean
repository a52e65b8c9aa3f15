import RpcPool.Proofs.Failover
import RpcPool.Proofs.Punctual

/-!
# The best available connection

A search for the best available connection with which nothing interferes. It goes through the groups
of the registered connections, without those that it leaves out, up to the first group with a
connected member, and it changes nothing in the registry. The probes of a group do not wait for each
other: time does not pass before the last of them has started.

Results:
1. `Together.next`: while a batch is under way, its probes start when it was opened.
2. `Seeking.next`: a search goes from group to group.
3. `search_probes`: which connections a search probes, when, and what it finds.
-/

namespace RpcPool

variable {ms new : List Moment}

/-- In a history, probes of connections of equal priority start at the same time. -/
def Abreast (ms : List Moment) : Prop :=
  ∀ x ∈ ms, ∀ y ∈ ms, ∀ c d : Connection, x.event.started? = some c → y.event.started? = some d →
    c.priority = d.priority → x.time = y.time

/-- What starts later may start at another time if its priority is another. -/
theorem Abreast.append (h : Abreast ms) (hnew : Abreast new)
    (apart : ∀ c ∈ starts ms, ∀ d ∈ starts new, c.priority ≠ d.priority) :
    Abreast (ms ++ new) := by
  have hstarts {ms : List Moment} {x : Moment} {c : Connection} (hx : x ∈ ms)
      (hc : x.event.started? = some c) : c ∈ starts ms :=
    List.mem_filterMap.mpr ⟨x, hx, hc⟩
  intro x hx y hy c d hc hd heq
  rcases List.mem_append.mp hx with hx | hx
  · rcases List.mem_append.mp hy with hy | hy
    · exact h x hx y hy c d hc hd heq
    · exact absurd heq (apart c (hstarts hx hc) d (hstarts hy hd))
  · rcases List.mem_append.mp hy with hy | hy
    · exact absurd heq.symm (apart d (hstarts hy hd) c (hstarts hx hc))
    · exact hnew x hx y hy c d hc hd heq

theorem abreast_of_starts_nil (h : starts ms = []) : Abreast ms := by
  intro x hx _ _ c _ hc
  rw [List.filterMap_eq_nil_iff.mp h x hx] at hc
  exact absurd hc (by simp)

namespace Manager

variable {s t u a b : Manager} {m : Move} {f : FlightId} {owner : Owner} {options : CheckOptions}
  {stage : Stage} {conns excluded : List Connection} {before later : List (List Connection)}
  {punctual onward : Prop}

theorem abreast_probeless {P : SwitchReason → Prop} (h : Abreast (since s t))
    (hst : s.trace <:+ t.trace) (hp : Probeless P t u) : Abreast (since s u) := by
  rw [since_append hst hp.later]
  refine h.append (abreast_of_starts_nil hp.starts) fun _ _ d hd => ?_
  rw [hp.starts] at hd
  exact absurd hd List.not_mem_nil

/-! ## The probes of a batch -/

/-- The probes of a batch that began in `a` have started when it began, or can still do so. -/
structure Together (f : FlightId) (a t : Manager) : Prop where
  started : ∀ x ∈ since a t, ∀ c, x.event.started? = some c → x.time = a.now
  queued : ∀ {i p}, t.probe? f i = some p → p.state = .queued → t.now = a.now

theorem Together.abreast (h : Together f a t) : Abreast (since a t) :=
  fun x hx y hy c d hc hd _ => (h.started x hx c hc).trans (h.started y hy d hd).symm

/-- No move but the turn of a probe changes anything of a batch that stays under way. -/
theorem Gathering.next_flights (h : Gathering f owner options stage conns a t)
    (hafter : Gathering f owner options stage conns a (t.next m)) (hm : m.within f)
    (hturning : t.turning m = none) : (t.next m).flights = t.flights := by
  obtain ⟨probes, hflight, _⟩ := h.batch
  cases m with
  | turn task =>
    by_cases hready : task ∈ t.ready
    · cases task with
      | probe g i =>
        have hnone : t.probe? g i = none :=
          (if_pos (List.contains_iff_mem.mpr hready)).symm.trans hturning
        rw [next_probe hready, runProbe_idle (s := { t with ready := t.ready.erase (.probe g i) })
          fun p hp => absurd (hnone.symm.trans hp) (by simp)]
      | flight g =>
        cases hm
        cases hjoined : joined probes with
        | false =>
          rw [next_flight hready, runFlight_waiting
            (s := { t with ready := t.ready.erase (.flight f) }) hflight hjoined]
        | true =>
          -- the operation has gone on, so its batch is another one or there is none
          obtain ⟨_, hstays, _⟩ := hafter.batch
          rw [next_flight hready] at hstays
          rcases runFlight_ahead (s := { t with ready := t.ready.erase (.flight f) }) hflight
              hjoined with hgone | ⟨_, _, _, hnext, hless⟩
          · exact absurd (hgone.symm.trans hstays) (by simp)
          · cases hnext.symm.trans hstays
            exact absurd hless (lt_irrefl _)
      | loop id => exact absurd hm (by simp [Move.within])
    · rw [next_not_ready hready]
  | clock time =>
    obtain ⟨timers, ready, hclock⟩ := moveClock_eq t time
    show (t.moveClock time).flights = t.flights
    rw [hclock]
  | _ => exact absurd hm (by simp [Move.within])

/-- What the history tells of a probe that starts with a move stands in the ledger. -/
theorem mem_startsIn {q : BatchProbe} {x : Moment} {c : Connection}
    (hturning : t.turning m = some q) (hx : x ∈ since t (t.next m))
    (hc : x.event.started? = some c) :
    ∃ e ∈ t.startsIn m, e.start = x.time := by
  unfold startsIn
  rw [hturning]
  obtain ⟨time, pool, event⟩ := x
  cases event with
  | probeStarted d timeoutMs => exact ⟨_, List.mem_filterMap.mpr ⟨_, hx, rfl⟩, rfl⟩
  | _ => exact absurd hc (by simp [Event.started?])

/-- On a punctual clock, no time passes while a probe of the batch can start. -/
theorem Together.next (h : Together f a t) (hbatch : Gathering f owner options stage conns a t)
    (hafter : Gathering f owner options stage conns a (t.next m)) (ht : t.Tended)
    (hm : m.within f) (hpunctual : t.Punctual m) : Together f a (t.next m) := by
  have hsince := since_append hbatch.still.later (next_later t m)
  cases hturning : t.turning m with
  | none =>
    refine ⟨fun x hx c hc => ?_, fun {i p} hp hqueued => ?_⟩
    · rw [hsince] at hx
      rcases List.mem_append.mp hx with hx | hx
      · exact h.started x hx c hc
      · rw [((next_probeless hturning).events x hx).started?] at hc
        exact absurd hc (by simp)
    · have hold : t.probe? f i = some p := by
        rw [← hp]
        unfold probe?
        rw [hbatch.next_flights hafter hm hturning]
      -- its task is ready, so the clock has to stand still
      have hready : .probe f i ∈ t.ready := ht.queued hold hqueued
      rcases (next_paced ht hturning hpunctual).now with hnow | ⟨hidle, _⟩
      · exact hnow.trans (h.queued hold hqueued)
      · rw [hidle] at hready
        exact absurd hready List.not_mem_nil
  | some q =>
    obtain ⟨g, j, state, rfl, hready, hq, hopen, hstep⟩ := turning_step ht hturning
    cases hm
    have hturned := hstep.turned hq hopen
    have hentries := next_entries hready hq hstep
    have hnow := (hstep.paced ht hready hq hopen).now
    refine ⟨fun x hx c hc => ?_, fun {i p} hp hqueued => ?_⟩
    · rw [hsince] at hx
      rcases List.mem_append.mp hx with hx | hx
      · exact h.started x hx c hc
      · obtain ⟨e, he, hstart⟩ := mem_startsIn hturning hx hc
        obtain ⟨rfl, hqueued⟩ := mem_more hentries hturned he
        exact hstart.symm.trans (h.queued hq hqueued)
    · rcases hturned.other ht hp with rfl | ⟨hold, _⟩
      · exact absurd hqueued hentries.state_ne
      · exact hnow.trans (h.queued hold hqueued)

/-- A batch that has just been opened is together. -/
theorem together_launch (a : Manager) (f : FlightId) (owner : Owner) (options : CheckOptions)
    (stage : Stage) (conns : List Connection) :
    Together f a (a.launch f owner options stage conns) := by
  obtain ⟨ready, hlaunch⟩ := launch_rest a f owner options stage conns
  rw [hlaunch]
  have hsame : since a { a.setFlight f ⟨owner, .batch options stage (a.opened options conns)⟩ with
      started := a.started + conns.length, ready := ready } = [] := since_same rfl
  refine ⟨fun x hx => ?_, fun _ _ => rfl⟩
  rw [hsame] at hx
  exact absurd hx List.not_mem_nil

/-! ## The phases of a search -/

/-- A search waits for the probes of a group. On a punctual clock they are together, and so were
those of the groups above it. -/
def Seeking (f : FlightId) (excluded : List Connection) (punctual : Prop) (s t : Manager) : Prop :=
  ∃ a before g later options, Passed excluded s.pool.registry s a before (g :: later) ∧
    Gathering f .caller options (.search ⟨excluded, later⟩) (eligible excluded g) a t ∧
    (punctual → Abreast (since s a) ∧ Together f a t)

/-- A search that began in `s` has ended. -/
structure Concluded (f : FlightId) (excluded : List Connection) (punctual : Prop) (s t : Manager) :
    Prop where
  ended : t.flights.lookup f = none
  registry : t.pool.registry = s.pool.registry
  probes : Descends t.pool.isUp (eligible excluded s.pool.registry.connections) (since s t)
  abreast : punctual → Abreast (since s t)
  answer : t.answers.lookup f = some (t.found ((Selection.leading t.pool.isUp
    (eligible excluded s.pool.registry.connections)).find? t.pool.isUp))

/-- A search lands with the first connected member of the groups that it has been through. -/
theorem concluded_land (hlater : s.trace <:+ b.trace)
    (hregistry : b.pool.registry = s.pool.registry)
    (hdescends : Descends b.pool.isUp (eligible excluded s.pool.registry.connections) (since s b))
    (habreast : punctual → Abreast (since s b)) {best : Option Connection}
    (hbest : (Selection.leading b.pool.isUp
      (eligible excluded s.pool.registry.connections)).find? b.pool.isUp = best) :
    Concluded f excluded punctual s (b.land f .caller (b.found best)) := by
  have hland := land_probeless (P := fun _ => True) b f .caller (b.found best)
  have hgone := land_gone b f .caller (b.found best)
  have hdescends := descends_probeless hdescends hlater hland
  have habreast (h : punctual) := abreast_probeless (habreast h) hlater hland
  obtain ⟨_, _, hanswers⟩ := land_caller b f (b.found best)
  have hanswer : (b.land f .caller (b.found best)).answers.lookup f = some (b.found best) := by
    rw [hanswers]
    exact lookup_upsert_self _ _ _
  obtain ⟨answers, poller, loops, timers, ready, trace, heq⟩ :=
    land_eq b f .caller (b.found best)
  rw [heq] at hgone hdescends habreast hanswer ⊢
  refine ⟨hgone, hregistry, hdescends, habreast, hanswer.trans ?_⟩
  show _ = some (b.found _)
  rw [hbest]

/-- A search that has found no connected member so far goes on to the next group, or it ends without
any. -/
theorem seek_goes_on (hs : s.Sound) (h : Passed excluded s.pool.registry s b before later)
    (calm : b.network.Calm) (habreast : punctual → Abreast (since s b)) (options : CheckOptions) :
    match Search.next excluded later with
    | none => Concluded f excluded punctual s (b.land f .caller (b.found none))
    | some (conns, q) =>
      Seeking f excluded punctual s (b.launch f .caller options (.search q) conns) := by
  have hcs : s.pool.registry.connections.Nodup := List.Nodup.of_map _ hs.registry.distinct
  cases hnext : Search.next excluded later with
  | none =>
    obtain ⟨hdescends, hnobody⟩ := h.exhausts hcs hnext
    exact concluded_land h.descent.later h.registry hdescends habreast hnobody
  | some found =>
    obtain ⟨conns, q⟩ := found
    obtain ⟨passed, g, groups, rfl, rfl, hne, hpassed⟩ := h.goes_on hnext
    exact ⟨b, passed, g, groups, options, hpassed, gathering_launch f .caller options _ calm hne,
      fun hpunctual => ⟨habreast hpunctual, together_launch b f .caller options _ _⟩⟩

/-- The probes of a group start together, and those of the groups above it have other priorities. -/
theorem Passed.abreast {r : Registry} {g : List Connection}
    (h : Passed excluded r s a before (g :: later))
    (hbatch : Gathering f owner options stage (eligible excluded g) a t)
    (habreast : Abreast (since s a)) (htogether : Together f a t) : Abreast (since s t) := by
  rw [since_append h.descent.later hbatch.still.later]
  refine habreast.append htogether.abreast fun c hc d hd heq => ?_
  have hc := mem_eligible.mp (h.descent.starts.mem_iff.mp hc)
  obtain ⟨probes, _, htally, _⟩ := hbatch.batch
  obtain ⟨p, hp, rfl⟩ := List.mem_map.mp (htally.starts.mem_iff.mp hd)
  have hd : p.connection ∈ eligible excluded g :=
    htally.batch ▸ List.mem_map_of_mem (List.mem_filter.mp hp).1
  exact absurd heq.symm (UInt32.ne_of_lt (h.descent.below hc.1 (mem_eligible.mp hd).1))

/-- A group has been probed. The search ends with its first connected member, or it goes on to the
next group. -/
theorem Seeking.next (hs : s.Sound) (ht : t.Tended) (h : Seeking f excluded punctual s t)
    (hm : m.within f) (hpunctual : onward → punctual ∧ t.Punctual m) :
    Seeking f excluded onward s (t.next m) ∨ Concluded f excluded onward s (t.next m) := by
  obtain ⟨a, before, g, later, options, hpassed, hbatch, htimely⟩ := h
  rcases hbatch.next hm with hwaits | ⟨ready, hjoined⟩
  · refine Or.inl ⟨a, before, g, later, options, hpassed, hwaits, fun h => ?_⟩
    obtain ⟨hbefore, hmove⟩ := hpunctual h
    obtain ⟨habreast, htogether⟩ := htimely hbefore
    exact ⟨habreast, htogether.next hbatch hwaits ht hm hmove⟩
  · let j : Manager := { t with ready := ready }
    have hcs : s.pool.registry.connections.Nodup := List.Nodup.of_map _ hs.registry.distinct
    obtain ⟨probed, hconns, _, hon⟩ := hjoined.goes_on
    have hreached := hpassed.reached hjoined hs.pool.apart probed
    obtain ⟨_, _, hnetwork, hprobeless⟩ :=
      published (hjoined.still.observing hpassed.observing) probed
    have habreast (h : onward) : Abreast (since s (j.publishStatus probed)) := by
      obtain ⟨hbefore, htogether⟩ := htimely (hpunctual h).1
      have hafter : Abreast (since s t) := hpassed.abreast hbatch hbefore htogether
      have hlater : s.trace <:+ j.trace := hpassed.descent.later.trans hjoined.still.later
      exact abreast_probeless (t := j) hafter hlater hprobeless
    rw [hon]
    dsimp only [resume]
    rw [hconns]
    generalize j.publishStatus probed = b at *
    cases hfirst : Selection.firstConnected b.pool.health.get (eligible excluded g) with
    | none =>
      have hgoes := seek_goes_on (f := f) hs
        (hreached.passed (Selection.firstConnected_eq_none.mp hfirst))
        (hnetwork ▸ hjoined.calm) habreast options
      dsimp only
      cases hnext : Search.next excluded later with
      | none =>
        rw [hnext] at hgoes
        exact Or.inr hgoes
      | some found =>
        rw [hnext] at hgoes
        exact Or.inl hgoes
    | some best =>
      obtain ⟨hdescends, hbest⟩ := hreached.stops hcs hfirst
      exact Or.inr (concluded_land hreached.descent.later hreached.registry hdescends habreast
        hbest)

theorem Concluded.next (h : Concluded f excluded punctual s t) (hm : m.within f)
    (hpunctual : onward → punctual) : Concluded f excluded onward s (t.next m) := by
  obtain ⟨now, timers, ready, hnext⟩ := ended_next hm h.ended
  rw [hnext]
  exact ⟨h.ended, h.registry, h.probes, fun hmoves => h.abreast (hpunctual hmoves), h.answer⟩

/-- The first turn of a search. -/
theorem seeking_start (hs : s.Sound) (calm : s.network.Calm) (observing : s.Observing)
    (excluded : List Connection) :
    Seeking s.nextId excluded True s (s.start (.bestAvailable excluded)) ∨
      Concluded s.nextId excluded True s (s.start (.bestAvailable excluded)) := by
  let a : Manager := { s with nextId := s.nextId + 1 }.setFlight s.nextId
    ⟨.caller, .queued (.bestAvailable excluded)⟩
  have hpassed : Passed excluded s.pool.registry s a [] a.groups := by
    refine ⟨.start (P := fun _ => True) (.same rfl), fun c hc => ?_, observing, rfl⟩
    exact absurd hc List.not_mem_nil
  have hnothing : since s a = [] := since_same rfl
  have habreast (_ : True) : Abreast (since s a) := abreast_of_starts_nil (hnothing ▸ rfl)
  have hgoes := seek_goes_on (f := s.nextId) hs hpassed calm habreast a.defaultOptions
  have hrun : s.start (.bestAvailable excluded) =
      (a.begin (.bestAvailable excluded)).1.proceed s.nextId .caller
        (a.begin (.bestAvailable excluded)).2 := runFlight_queued (lookup_upsert_self _ _ _)
  rw [hrun]
  cases hnext : Search.next excluded a.groups with
  | none =>
    have hbegin : a.begin (.bestAvailable excluded) = (a, .done (a.found none)) := by
      dsimp only [begin]
      rw [hnext]
    rw [hnext] at hgoes
    rw [hbegin]
    exact Or.inr hgoes
  | some found =>
    obtain ⟨conns, q⟩ := found
    have hbegin : a.begin (.bestAvailable excluded) =
        (a, .await a.defaultOptions (.search q) conns) := by
      dsimp only [begin]
      rw [hnext]
    rw [hnext] at hgoes
    rw [hbegin]
    exact Or.inl hgoes

theorem seeking_run (hs : s.Sound) (hu : u.Tended)
    (h : Seeking f excluded True s u ∨ Concluded f excluded True s u) {moves : List Move}
    (hmoves : ∀ m ∈ moves, m.within f) :
    Seeking f excluded (u.RunsPunctually moves) s (moves.foldl Manager.next u) ∨
      Concluded f excluded (u.RunsPunctually moves) s (moves.foldl Manager.next u) := by
  induction moves using List.reverseRecOn with
  | nil => exact h
  | append_singleton rest m ih =>
    have hm : m.within f := hmoves m (List.mem_append_right _ (List.mem_singleton_self m))
    have hpunctual (hboth : u.RunsPunctually (rest ++ [m])) :
        u.RunsPunctually rest ∧ (rest.foldl Manager.next u).Punctual m := by
      obtain ⟨hrest, hlast, _⟩ := (runsPunctually_append u rest [m]).mp hboth
      exact ⟨hrest, hlast⟩
    rw [List.foldl_append]
    rcases ih fun m hm => hmoves m (List.mem_append_left _ hm) with hseeking | hconcluded
    · exact hseeking.next hs (hu.run_moves rest) hm hpunctual
    · exact Or.inr (hconcluded.next hm fun hboth => (hpunctual hboth).1)

/-! ## What a search probes -/

/-- A search for the best available connection with which nothing interferes leaves the registry as
it is at any time, the current pointer with it, and it can be brought to its end. On a punctual
clock, all probes of connections of equal priority start at the same time. In the end, those of the
registered connections that it does not leave out have been probed, from the most important group
down to the first one with a connected member, and it answers with the first such member, or with
none. -/
theorem search_probes (h : Reachable s) (calm : s.network.Calm) (observing : s.Observing)
    (excluded : List Connection) {moves : List Move} (hmoves : ∀ m ∈ moves, m.within s.nextId)
    (ht : t = moves.foldl next (s.start (.bestAvailable excluded))) :
    t.pool.registry = s.pool.registry ∧
      ((s.start (.bestAvailable excluded)).RunsPunctually moves → Abreast (since s t)) ∧
      (∃ more : List Move, (∀ m ∈ more, m.within s.nextId) ∧
        (more.foldl next t).flights.lookup s.nextId = none) ∧
      (t.flights.lookup s.nextId = none →
        let candidates := eligible excluded s.pool.registry.connections
        Descends t.pool.isUp candidates (since s t) ∧
          t.answers.lookup s.nextId = some
            (t.found ((Selection.leading t.pool.isUp candidates).find? t.pool.isUp))) := by
  have hphase := seeking_run h.sound (h.tended.start _)
    (seeking_start h.sound calm observing excluded) hmoves
  rw [← ht] at hphase
  rcases hphase with hseeking | hconcluded
  · obtain ⟨a, _, _, _, _, hpassed, hbatch, htimely⟩ := hseeking
    obtain ⟨hend, hflight⟩ := hbatch.unfinished hpassed.observing
    refine ⟨hbatch.registry.trans hpassed.registry, fun hpunctual => ?_, hend,
      fun hended => absurd hended hflight⟩
    obtain ⟨habreast, htogether⟩ := htimely hpunctual
    exact hpassed.abreast hbatch habreast htogether
  · exact ⟨hconcluded.registry, hconcluded.abreast,
      ⟨[], fun m hm => absurd hm List.not_mem_nil, hconcluded.ended⟩,
      fun _ => ⟨hconcluded.probes, hconcluded.answer⟩⟩

/-- A is current and important. Of the others, U rejects the credentials, D does not answer, and B is
slower than C. A listener asks a question. -/
def outage : Manager :=
  [.call (.add { uri := "U", priority := 5 } none),
    .call (.add { uri := "A", priority := 7 } none),
    .call (.add { uri := "B", priority := 3 } none),
    .call (.add { uri := "C", priority := 3 } none),
    .call (.add { uri := "D", priority := 5 } none), .call (.addUri "E" none),
    .call (.selectUri "A"), .call (.addListener "log" [.has "A"] 1)].foldl next
      (idle ⟨[("A", ⟨[], some (.reply 0 (.ok ⟨true, .ofMillis 1⟩))⟩),
        ("U", ⟨[], some (.reply 0 (.ok ⟨false, .ofMillis 1⟩))⟩), ("D", ⟨[], some .hang⟩),
        ("B", ⟨[], some (.reply 20 (.ok ⟨true, .ofMillis 20⟩))⟩),
        ("C", ⟨[], some (.reply 5 (.ok ⟨true, .ofMillis 5⟩))⟩)]⟩ true)

/-- The search waits for D in vain, and then for C and B. -/
def outageTurns : List Move :=
  [.turn (.probe 0 1), .turn (.probe 0 0), .turn (.flight 0), .clock 5000, .turn (.probe 0 1),
    .turn (.flight 0), .turn (.probe 0 1), .turn (.probe 0 0), .clock 5005, .turn (.probe 0 1),
    .turn (.flight 0), .clock 5020, .turn (.probe 0 0), .turn (.flight 0)]

theorem outage_probes :
    let a : Connection := ⟨1, { uri := "A", priority := 7 }⟩
    let b : Connection := ⟨2, { uri := "B", priority := 3 }⟩
    let searched := outageTurns.foldl next (outage.start (.bestAvailable [a]))
    searched.flights.lookup 0 = none ∧ searched.current = some a ∧
      searched.answers.lookup 0 = some (searched.found (some b)) ∧
      Abreast (since outage searched) ∧
      Descends searched.pool.isUp (eligible [a] outage.pool.registry.connections)
        (since outage searched) := by
  intro a b searched
  have hid : outage.nextId = 0 := by decide
  have hcurrent : outage.pool.registry.current = some a := by decide
  have hended : searched.flights.lookup outage.nextId = none :=
    Option.isNone_iff_eq_none.mp (by decide +kernel)
  have hreachable : Reachable outage := .foldl _ (.new _ true [])
  obtain ⟨hregistry, habreast, _, hprobes⟩ := search_probes (t := searched) hreachable (by decide)
    (by decide) [a] (by simp [outageTurns, Move.within, hid]) rfl
  obtain ⟨hdescends, hanswer⟩ := hprobes hended
  have hfirst : (Selection.leading searched.pool.isUp
      (eligible [a] outage.pool.registry.connections)).find? searched.pool.isUp = some b := by
    decide +kernel
  rw [hfirst] at hanswer
  exact ⟨hid ▸ hended, (congrArg Registry.current hregistry).trans hcurrent, hid ▸ hanswer,
    habreast (by decide +kernel), hdescends⟩

end Manager

end RpcPool

import RpcPool.Proofs.Descent

/-!
# Failover

A check of the current connection with which nothing interferes. It probes that connection, and if
it is lost, the other registered connections, group by group, until a group has a connected member.

Results:
1. `Searching.next`: the search for a replacement goes from group to group.
2. `failover_probes`: which connections a check probes, what is current in the end, and what the
   check answers.
-/

namespace RpcPool

namespace Manager

variable {s t u a b j : Manager} {f : FlightId} {options : CheckOptions} {c : Connection}
  {before later : List (List Connection)}

/-! ## The phases of a check -/

/-- The connection that was current in `s` has been probed, and nothing else has happened. -/
structure Probed (c : Connection) (s j : Manager) : Prop where
  later : s.trace <:+ j.trace
  registry : j.pool.registry = s.pool.registry
  starts : starts (since s j) = [c]
  ends : ends (since s j) = [c]

/-- A check waits for the probe of the current connection. -/
def Checking (f : FlightId) (c : Connection) (s t : Manager) : Prop :=
  ∃ a options, a.trace = s.trace ∧ a.pool = s.pool ∧ a.Observing ∧ options.autoSwitch = true ∧
    Gathering f .caller options (.status c) [c] a t

/-- The current connection was found lost in `j`, and since then some groups of others have been
probed, none of which has a connected member. -/
structure Sought (c : Connection) (s j b : Manager) (before later : List (List Connection)) :
    Prop where
  probed : Probed c s j
  lost : j.pool.isUp c = false
  descent : Descent [c] s.pool.registry.connections j b before later
  down : ∀ d ∈ eligible [c] before.flatten, b.pool.isUp d = false
  observing : b.Observing
  registry : b.pool.registry = s.pool.registry
  health : b.pool.healthOf c = j.pool.healthOf c

theorem Sought.passed (h : Sought c s j b before later) :
    Passed [c] s.pool.registry j b before later :=
  ⟨h.descent, h.down, h.observing, h.registry⟩

/-- A check has found the current connection lost and waits for the probes of a group of others. -/
def Searching (f : FlightId) (c : Connection) (s t : Manager) : Prop :=
  ∃ j a before g later options, Sought c s j a before (g :: later) ∧
    Gathering f .caller options
      (.failover c ((s.pool.healthOf c).status != (j.pool.healthOf c).status) ⟨[c], later⟩)
      (eligible [c] g) a t

/-- A check of `c` that began in `s` has ended. The history falls into the probe of `c` and the
search for another connection. -/
structure Checked (f : FlightId) (c : Connection) (others : List Connection) (s t : Manager) :
    Prop where
  ended : t.flights.lookup f = none
  connections : t.pool.registry.connections = s.pool.registry.connections
  answer : t.answers.lookup f =
    some (.flag ((s.pool.healthOf c).status != (t.pool.healthOf c).status))
  probes : ∃ first rest, since s t = first ++ rest ∧ starts first = [c] ∧ ends first = [c] ∧
    (t.pool.isUp c = true →
      RpcPool.starts rest = [] ∧ RpcPool.ends rest = [] ∧ t.current = some c) ∧
    (t.pool.isUp c = false → Descends t.pool.isUp others rest ∧
      t.current = ((Selection.leading t.pool.isUp others).find? t.pool.isUp).or (some c))

/-- The other registered connections are those with another URI. -/
theorem eligible_others (h : s.Sound) (hcurrent : s.current = some c) :
    eligible [c] s.pool.registry.connections =
      s.pool.registry.connections.filter fun d => d ≠ c := by
  have hc := h.registry.current_mem c hcurrent
  refine List.filter_congr fun d hd => ?_
  rw [Bool.eq_iff_iff]
  simp only [Selection.excludes, List.any_cons, List.any_nil, Bool.or_false, Bool.not_eq_true',
    beq_eq_false_iff_ne, decide_eq_true_eq]
  exact ⟨fun huri heq => huri (heq ▸ rfl), fun hne huri =>
    hne (h.registry.eq_of_uri hd hc huri.symm)⟩

theorem isUp_congr_health {p q : Pool} (h : p.healthOf c = q.healthOf c) : p.isUp c = q.isUp c :=
  congrArg Health.connected h

/-! ## The end of a check -/

/-- A check lands when nothing is known of the current connection that its probe has not shown. -/
theorem checked_land {others : List Connection} (hprobed : Probed c s j)
    (hlater : j.trace <:+ b.trace)
    (hconns : b.pool.registry.connections = s.pool.registry.connections)
    (hhealth : b.pool.healthOf c = j.pool.healthOf c)
    (kept : j.pool.isUp c = true → Probeless (fun _ => True) j b ∧ b.current = some c)
    (lost : j.pool.isUp c = false → Descends b.pool.isUp others (since j b) ∧
      b.current = ((Selection.leading b.pool.isUp others).find? b.pool.isUp).or (some c)) :
    Checked f c others s (b.land f .caller
      (.flag ((s.pool.healthOf c).status != (j.pool.healthOf c).status))) := by
  let reply : Reply := .flag ((s.pool.healthOf c).status != (j.pool.healthOf c).status)
  have hland := land_probeless (P := fun _ => True) b f .caller reply
  obtain ⟨hpool, _, hanswers⟩ := land_caller b f reply
  have hcurrent : (b.land f .caller reply).current = b.current :=
    congrArg (·.registry.current) hpool
  have hup : j.pool.isUp c = b.pool.isUp c := (isUp_congr_health hhealth).symm
  refine ⟨land_gone b f .caller reply, ?_, ?_, since s j, since j (b.land f .caller reply),
    since_append hprobed.later (hlater.trans hland.later), hprobed.starts, hprobed.ends, ?_, ?_⟩
  · rw [hpool]
    exact hconns
  · rw [hanswers, hpool, hhealth]
    exact lookup_upsert_self _ _ _
  · rw [hpool, hcurrent, ← hup]
    intro h
    obtain ⟨hprobeless, hkept⟩ := kept h
    exact ⟨(hprobeless.trans hland).starts, (hprobeless.trans hland).ends, hkept⟩
  · rw [hpool, hcurrent, ← hup]
    intro h
    obtain ⟨hdescends, hfound⟩ := lost h
    exact ⟨descends_probeless hdescends hlater hland, hfound⟩

/-! ## From group to group -/

/-- A search that has found no connected member so far goes on to the next group, or it ends and the
lost connection stays current. -/
theorem search_goes_on (hs : s.Sound) (hcurrent : s.current = some c)
    (h : Sought c s j b before later) (calm : b.network.Calm) (options : CheckOptions) :
    let changed := (s.pool.healthOf c).status != (j.pool.healthOf c).status
    match Search.next [c] later with
    | none => Checked f c (eligible [c] s.pool.registry.connections) s
        (b.land f .caller (.flag changed))
    | some (conns, q) =>
      Searching f c s (b.launch f .caller options (.failover c changed q) conns) := by
  have hcs : s.pool.registry.connections.Nodup := List.Nodup.of_map _ hs.registry.distinct
  cases hnext : Search.next [c] later with
  | none =>
    obtain ⟨hdescends, hnobody⟩ := h.passed.exhausts hcs hnext
    refine checked_land h.probed h.descent.later (congrArg Registry.connections h.registry) h.health
      (fun hup => absurd hup (by simp [h.lost])) fun _ => ⟨hdescends, ?_⟩
    rw [hnobody, Option.none_or]
    exact (congrArg Registry.current h.registry).trans hcurrent
  | some found =>
    obtain ⟨conns, q⟩ := found
    obtain ⟨passed, g, groups, rfl, rfl, hne, hpassed⟩ := h.passed.goes_on hnext
    have hsought : Sought c s j b passed (g :: groups) :=
      { h with descent := hpassed.descent, down := hpassed.down }
    exact ⟨j, b, _, g, groups, options, hsought, gathering_launch f .caller options _ calm hne⟩

/-- The current connection has been probed. The check ends if it is connected, and else it looks for
another one. -/
theorem Checking.next (hs : s.Sound) (hcurrent : s.current = some c) (h : Checking f c s t)
    {m : Move} (hm : m.within f) :
    Checking f c s (t.next m) ∨ Searching f c s (t.next m) ∨
      Checked f c (eligible [c] s.pool.registry.connections) s (t.next m) := by
  obtain ⟨a, options, htrace, hpool, observing, on, hbatch⟩ := h
  rcases hbatch.next hm with hwaits | ⟨ready, hjoined⟩
  · exact Or.inl ⟨a, options, htrace, hpool, observing, on, hwaits⟩
  · right
    let j : Manager := { t with ready := ready }
    have hsince : since s j = since a j := by
      unfold since
      rw [htrace]
    have hprobed : Probed c s j := by
      refine ⟨htrace ▸ hjoined.still.later, hpool ▸ hjoined.registry, ?_, ?_⟩
      · rw [hsince]
        exact List.perm_singleton.mp hjoined.starts
      · rw [hsince]
        exact List.perm_singleton.mp hjoined.ends
    obtain ⟨probed, _, hsole, hon⟩ := hjoined.goes_on
    obtain ⟨hpublished, hobserving, hnetwork, hprobeless⟩ :=
      published (hjoined.still.observing observing) probed
    have hchanged : probed.any (·.2) =
        ((s.pool.healthOf c).status != (j.pool.healthOf c).status) := by
      rw [hsole c rfl, hpool]
      exact Bool.or_false _
    have hregistry : (j.publishStatus probed).pool.registry = s.pool.registry := by
      rw [hpublished]
      exact hprobed.registry
    have hhealth : (j.publishStatus probed).pool.healthOf c = j.pool.healthOf c := by
      rw [hpublished]
    have hcalm : (j.publishStatus probed).network.Calm := by
      rw [hnetwork]
      exact hjoined.calm
    rw [hon]
    dsimp only [resume]
    rw [hchanged]
    cases hup : (j.publishStatus probed).pool.isUp c with
    | true =>
      rw [if_neg (by simp)]
      right
      refine checked_land hprobed hprobeless.later (congrArg Registry.connections hregistry)
        hhealth (fun _ => ⟨hprobeless, ?_⟩) fun hdown => ?_
      · exact (congrArg Registry.current hregistry).trans hcurrent
      · rw [isUp_congr_health hhealth, hdown] at hup
        exact absurd hup (by simp)
    | false =>
      rw [if_pos (by simp [on])]
      have hsought : Sought c s j (j.publishStatus probed) []
          (Selection.groups s.pool.registry.connections) :=
        ⟨hprobed, (isUp_congr_health hhealth).symm.trans hup, .start hprobeless,
          fun d hd => absurd hd List.not_mem_nil, hobserving, hregistry, hhealth⟩
      have hgoes := search_goes_on (f := f) hs hcurrent hsought hcalm options
      have hgroups : (j.publishStatus probed).groups =
          Selection.groups s.pool.registry.connections :=
        congrArg (fun r : Registry => Selection.groups r.connections) hregistry
      rw [hgroups]
      cases hnext : Search.next [c] (Selection.groups s.pool.registry.connections) with
      | none =>
        rw [hnext] at hgoes
        exact Or.inr hgoes
      | some found =>
        rw [hnext] at hgoes
        exact Or.inl hgoes

/-- A search that has found a connected member stops there, and that becomes current. -/
theorem search_found (hs : s.Sound) (hcurrent : s.current = some c) (hprobed : Probed c s j)
    (lost : j.pool.isUp c = false) {g : List Connection} {best : Connection}
    (hreached : Reached [c] s.pool.registry j b before g later)
    (hhealth : b.pool.healthOf c = j.pool.healthOf c)
    (hbest : (eligible [c] g).find? b.pool.isUp = some best)
    (hmem : best ∈ s.pool.registry.connections) (hother : best.id ≠ c.id) :
    Checked f c (eligible [c] s.pool.registry.connections) s
      ((b.follow (b.pool.failover c best)).land f .caller
        (.flag ((s.pool.healthOf c).status != (j.pool.healthOf c).status))) := by
  have hcs : s.pool.registry.connections.Nodup := List.Nodup.of_map _ hs.registry.distinct
  obtain ⟨hdescends, hfirst⟩ := hreached.stops hcs hbest
  have hregistry := hreached.registry
  have hbcurrent : b.pool.registry.current = some c :=
    (congrArg Registry.current hregistry).trans hcurrent
  have hfailover := Pool.failover_eq hbcurrent (hregistry ▸ hmem) hother
  have hfollow : Probeless (fun _ => True) b (b.follow (b.pool.failover c best)) :=
    follow_probeless trivial b fun _ _ _ => trivial
  have hmoved : (b.follow (b.pool.failover c best)).pool =
      { b.pool with registry := { b.pool.registry with current := some best } } := by
    rw [hfailover]
    exact outline_pool (follow_outline hreached.observing fun hnone => absurd hnone (by simp)).1
  generalize b.follow (b.pool.failover c best) = e at hfollow hmoved
  have hisUp : e.pool.isUp = b.pool.isUp := by
    rw [hmoved]
    rfl
  refine checked_land hprobed (hreached.descent.later.trans hfollow.later) ?_ ?_
    (fun hkept => absurd hkept (by simp [lost])) fun _ => ?_
  · rw [hmoved]
    exact (congrArg Registry.connections hregistry :)
  · rw [hmoved]
    exact hhealth
  · rw [hisUp, hfirst, Option.some_or]
    exact ⟨descends_probeless hdescends hreached.descent.later hfollow,
      congrArg (·.registry.current) hmoved⟩

/-- A group has been probed. The check ends if it has a connected member, and else it looks
further. -/
theorem Searching.next (hs : s.Sound) (hcurrent : s.current = some c) (h : Searching f c s t)
    {m : Move} (hm : m.within f) :
    Searching f c s (t.next m) ∨
      Checked f c (eligible [c] s.pool.registry.connections) s (t.next m) := by
  obtain ⟨j, a, before, g, later, options, hsought, hbatch⟩ := h
  rcases hbatch.next hm with hwaits | ⟨ready, hjoined⟩
  · exact Or.inl ⟨j, a, before, g, later, options, hsought, hwaits⟩
  · let k : Manager := { t with ready := ready }
    have hgroup (d : Connection) (hd : d ∈ eligible [c] g) :
        d ∈ s.pool.registry.connections ∧ d.id ≠ c.id := by
      obtain ⟨hmem, hother⟩ := mem_eligible.mp hd
      have hregistered : d ∈ s.pool.registry.connections := hsought.descent.group_subset hmem
      refine ⟨hregistered, fun hid => ?_⟩
      rw [hs.pool.apart d hregistered c (hs.registry.current_mem c hcurrent) hid] at hother
      simp [Selection.excludes] at hother
    obtain ⟨probed, hconns, _, hon⟩ := hjoined.goes_on
    have hreached := hsought.passed.reached hjoined hs.pool.apart probed
    obtain ⟨hpublished, _, hnetwork, _⟩ :=
      published (hjoined.still.observing hsought.observing) probed
    have hhealth : (k.publishStatus probed).pool.healthOf c = j.pool.healthOf c := by
      rw [hpublished, ← hsought.health]
      exact hjoined.others c fun d hd => (hgroup d hd).2
    rw [hon]
    dsimp only [resume]
    rw [hconns]
    generalize k.publishStatus probed = b at *
    cases hfirst : Selection.firstConnected b.pool.health.get (eligible [c] g) with
    | none =>
      have hpassed := hreached.passed (Selection.firstConnected_eq_none.mp hfirst)
      have hgoes := search_goes_on (f := f) hs hcurrent ⟨hsought.probed, hsought.lost,
        hpassed.descent, hpassed.down, hpassed.observing, hpassed.registry, hhealth⟩
        (hnetwork ▸ hjoined.calm) options
      dsimp only
      cases hnext : Search.next [c] later with
      | none =>
        rw [hnext] at hgoes
        exact Or.inr hgoes
      | some found =>
        rw [hnext] at hgoes
        exact Or.inl hgoes
    | some best =>
      obtain ⟨hbest, _⟩ := Selection.firstConnected_eq_some hfirst
      obtain ⟨hmem, hother⟩ := hgroup best hbest
      exact Or.inr (search_found hs hcurrent hsought.probed hsought.lost hreached hhealth hfirst
        hmem hother)

theorem Checked.next {others : List Connection} (h : Checked f c others s t) {m : Move}
    (hm : m.within f) : Checked f c others s (t.next m) := by
  obtain ⟨now, timers, ready, hnext⟩ := ended_next hm h.ended
  rw [hnext]
  exact ⟨h.ended, h.connections, h.answer, h.probes⟩

theorem checking_run (hs : s.Sound) (hcurrent : s.current = some c) {moves : List Move}
    (hmoves : ∀ m ∈ moves, m.within f)
    (h : Checking f c s t ∨ Searching f c s t ∨
      Checked f c (eligible [c] s.pool.registry.connections) s t) :
    Checking f c s (moves.foldl Manager.next t) ∨ Searching f c s (moves.foldl Manager.next t) ∨
      Checked f c (eligible [c] s.pool.registry.connections) s (moves.foldl Manager.next t) := by
  induction moves generalizing t with
  | nil => exact h
  | cons m rest ih =>
    have hm := hmoves m List.mem_cons_self
    refine ih (fun m hm => hmoves m (List.mem_cons_of_mem _ hm)) ?_
    rcases h with hchecking | hsearching | hchecked
    · exact hchecking.next hs hcurrent hm
    · exact Or.inr (hsearching.next hs hcurrent hm)
    · exact Or.inr (Or.inr (hchecked.next hm))

theorem checking_start (on : s.pool.registry.autoSwitch = true) (calm : s.network.Calm)
    (observing : s.Observing) (hcurrent : s.current = some c) :
    Checking s.nextId c s (s.start .checkConnection) := by
  let a : Manager := { s with nextId := s.nextId + 1 }.setFlight s.nextId
    ⟨.caller, .queued .checkConnection⟩
  have hbegin : a.begin .checkConnection =
      (a, .await s.defaultOptions (.status c) [c]) := by
    dsimp only [begin, beginStatus]
    rw [show a.pool.registry.current = some c from hcurrent]
    rfl
  have hstart : s.start .checkConnection =
      a.launch s.nextId .caller s.defaultOptions (.status c) [c] := by
    have hrun : a.runFlight s.nextId = _ := runFlight_queued (lookup_upsert_self _ _ _)
    rw [hbegin] at hrun
    exact hrun
  rw [hstart]
  exact ⟨a, s.defaultOptions, rfl, rfl, observing, on,
    gathering_launch (s := a) _ _ _ _ calm (List.cons_ne_nil c [])⟩

/-! ## What a check probes -/

/-- A check of the current connection with which nothing interferes can be brought to its end. It
then has probed that connection once. If it is connected, nothing else has been probed and it is
still current. If it is lost, the other registered connections have been probed, from the most
important group down to the first one with a connected member, and the first such member is current,
or still the lost connection if there is none. The answer says whether what listeners are told about
the connection has changed. -/
theorem failover_probes (h : Reachable s) (hcurrent : s.current = some c)
    (on : s.pool.registry.autoSwitch = true) (calm : s.network.Calm) (observing : s.Observing)
    {moves : List Move} (hmoves : ∀ m ∈ moves, m.within s.nextId)
    (ht : t = moves.foldl next (s.start .checkConnection)) :
    (∃ more : List Move, (∀ m ∈ more, m.within s.nextId) ∧
        (more.foldl next t).flights.lookup s.nextId = none) ∧
      (t.flights.lookup s.nextId = none →
        (∃ first rest, since s t = first ++ rest ∧ starts first = [c] ∧ ends first = [c] ∧
          (t.pool.isUp c = true → starts rest = [] ∧ ends rest = [] ∧ t.current = some c) ∧
          (t.pool.isUp c = false →
            let others := s.pool.registry.connections.filter fun d => d ≠ c
            Descends t.pool.isUp others rest ∧
              t.current = ((Selection.leading t.pool.isUp others).find? t.pool.isUp).or (some c))) ∧
        t.pool.registry.connections = s.pool.registry.connections ∧
        t.answers.lookup s.nextId =
          some (.flag ((s.pool.healthOf c).status != (t.pool.healthOf c).status))) := by
  have hphase := checking_run h.sound hcurrent hmoves
    (Or.inl (checking_start on calm observing hcurrent))
  rw [← ht] at hphase
  rw [eligible_others h.sound hcurrent] at hphase
  rcases hphase with hchecking | hsearching | hchecked
  · obtain ⟨a, _, _, _, hobserving, _, hbatch⟩ := hchecking
    obtain ⟨hend, hflight⟩ := hbatch.unfinished hobserving
    exact ⟨hend, fun hended => absurd hended hflight⟩
  · obtain ⟨_, a, _, _, _, _, hsought, hbatch⟩ := hsearching
    obtain ⟨hend, hflight⟩ := hbatch.unfinished hsought.observing
    exact ⟨hend, fun hended => absurd hended hflight⟩
  · exact ⟨⟨[], fun m hm => absurd hm List.not_mem_nil, hchecked.ended⟩,
      fun _ => ⟨hchecked.probes, hchecked.connections, hchecked.answer⟩⟩

/-- A is current and cannot be reached. Of the others, D does not answer, U rejects the credentials,
and B is slower than C. A listener asks a question. -/
def failing : Manager :=
  [.call (.add { uri := "U", priority := 3 } none),
    .call (.add { uri := "A", priority := 3 } none),
    .call (.add { uri := "B", priority := 3 } none),
    .call (.add { uri := "C", priority := 3 } none),
    .call (.add { uri := "D", priority := 5 } none), .call (.addUri "E" none),
    .call (.selectUri "A"), .call (.addListener "log" [.has "A"] 1)].foldl next
      (idle ⟨[("D", ⟨[], some .hang⟩), ("U", ⟨[], some (.reply 0 (.ok ⟨false, .ofMillis 1⟩))⟩),
        ("B", ⟨[], some (.reply 20 (.ok ⟨true, .ofMillis 20⟩))⟩),
        ("C", ⟨[], some (.reply 5 (.ok ⟨true, .ofMillis 5⟩))⟩),
        ("E", ⟨[], some (.reply 0 (.ok ⟨true, .ofMillis 1⟩))⟩)]⟩ true)

/-- The check has waited for D in vain, and for U, B and C. -/
def failedOver : Manager :=
  [.turn (.probe 0 0), .turn (.flight 0), .turn (.probe 0 0), .clock 5000, .turn (.probe 0 0),
    .turn (.flight 0), .turn (.probe 0 2), .turn (.probe 0 1), .turn (.probe 0 0), .clock 5005,
    .turn (.probe 0 2), .clock 5020, .turn (.probe 0 1), .turn (.flight 0)].foldl next
      (failing.start .checkConnection)

theorem failedOver_probes :
    let a : Connection := ⟨1, { uri := "A", priority := 3 }⟩
    let b : Connection := ⟨2, { uri := "B", priority := 3 }⟩
    failing.current = some a ∧ failedOver.flights.lookup 0 = none ∧ failedOver.current = some b ∧
      failedOver.answers.lookup 0 = some (.flag true) ∧
      ∃ first rest, since failing failedOver = first ++ rest ∧ starts first = [a] ∧
        Descends failedOver.pool.isUp (failing.pool.registry.connections.filter fun d => d ≠ a)
          rest := by
  intro a b
  have hcurrent : failing.current = some a := by decide
  have hid : failing.nextId = 0 := by decide
  have hended : failedOver.flights.lookup failing.nextId = none :=
    Option.isNone_iff_eq_none.mp (by decide +kernel)
  have hreachable : Reachable failing := .foldl _ (.new _ true [])
  obtain ⟨_, hchecked⟩ := failover_probes (t := failedOver) hreachable hcurrent (by decide)
    (by decide) (by decide) (by simp [Move.within, hid]) rfl
  obtain ⟨⟨first, rest, hsince, hfirst, _, _, hlost⟩, _, hanswer⟩ := hchecked hended
  obtain ⟨hdescends, _⟩ := hlost (by decide +kernel)
  have hchanged :
      ((failing.pool.healthOf a).status != (failedOver.pool.healthOf a).status) = true := by
    decide +kernel
  rw [hchanged] at hanswer
  exact ⟨hcurrent, hid ▸ hended, by decide +kernel, hid ▸ hanswer, first, rest, hsince, hfirst,
    hdescends⟩

end Manager

end RpcPool

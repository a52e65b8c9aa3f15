import RpcPool.Proofs.Alone
import RpcPool.Proofs.Integrity

/-!
# Hysteresis

Connections of one priority that are checked in rounds, all of them in each round. However often
their times vary, the current pointer does not flap: it leaves a connected connection on its own
only for one that has been faster in this round and in the two before.

Results:
1. `CheckRound.shown`: what a round shows about each connection, and that it is known when the
   current pointer moves.
2. `CheckRounds.shown`: what is known of a connection after any number of rounds.
3. `CheckRounds.left_now`, `CheckRounds.left`: what a move in the last round, and in any round,
   looks back on.
4. `hysteresis`: which rounds an automatic move looks back on, and how far apart two moves are of
   which one takes the other one back.
-/

namespace RpcPool

/-- Whether an event is a probe made elsewhere. -/
def Event.elsewhere : Event → Bool
  | .observed .. => true
  | _ => false

/-- In a round both connections have answered and have accepted the credentials, and the first one
has taken less time. -/
def Outpaces (ms : List Moment) (d c : Connection) : Prop :=
  ∃ x y, outcomes d ms = [.ok x] ∧ outcomes c ms = [.ok y] ∧ x.authenticated = true ∧
    y.authenticated = true ∧ x.elapsed.toMillis < y.elapsed.toMillis

/-- The current pointer moves on its own from `c`, which is connected then, to `d`. -/
def Leaves (ms : List Moment) (c d : Connection) : Prop :=
  ∃ m ∈ ms, ∃ w, m.event = .switched w ∧ w.source = some c ∧ w.target = d ∧ m.pool.isUp c = true

variable {ms : List Moment} {c d : Connection}

theorem Outpaces.asymm (h : Outpaces ms d c) : ¬ Outpaces ms c d := by
  obtain ⟨x, y, hx, hy, _, _, hlt⟩ := h
  rintro ⟨y', x', hy', hx', _, _, hlt'⟩
  cases hx.symm.trans hx'
  cases hy.symm.trans hy'
  exact UInt64.lt_irrefl _ (UInt64.lt_trans hlt hlt')

/-- Where no probe was made elsewhere, an outcome comes with the end of a probe. -/
theorem length_outcomes (h : ∀ m ∈ ms, m.event.elsewhere = false) (c : Connection) :
    (outcomes c ms).length = (ends ms).countP (·.same c) := by
  induction ms with
  | nil => rfl
  | cons m rest ih =>
    have hfirst : (outcomes c [m]).length = (ends [m]).countP (·.same c) := by
      have hm := h m List.mem_cons_self
      obtain ⟨time, pool, event⟩ := m
      cases event with
      | probeEnded k outcome =>
        by_cases hid : k.id = c.id
        · simp [outcomes, ends, Event.outcome?, Event.ended?, Connection.same, hid]
        · simp [outcomes, ends, Event.outcome?, Event.ended?, Connection.same, hid]
      | observed k outcome => exact absurd hm (by simp [Event.elsewhere])
      | _ => rfl
    rw [← List.singleton_append, outcomes_append, ends_append, List.length_append,
      List.countP_append, hfirst, ih fun k hk => h k (List.mem_cons_of_mem _ hk)]

theorem mem_switches {m : Moment} {w : Switch} (hm : m ∈ ms) (hw : m.event = .switched w) :
    w ∈ switches ms :=
  List.mem_filterMap.mpr ⟨m, hm, by rw [hw]; rfl⟩

namespace Manager

variable {cs conns : List Connection} {rounds : List (List Moment)} {s t u a : Manager}
  {f : FlightId} {options : CheckOptions}

/-! ## One round -/

/-- A check of all registered connections, each of them once, from the call to the answer. Nothing
else takes a turn and no probe breaks. What listeners do neither changes the list nor brings in
probes made elsewhere. -/
structure CheckRound (cs : List Connection) (s t : Manager) : Prop where
  held : s.held = true
  calm : s.network.Calm
  checks : ∃ (r : Request) (conns excluded : List Connection) (moves : List Move),
    s.operation r = .checkConnections conns excluded ∧ conns.Perm cs ∧
    (∀ c ∈ conns, Selection.excludes excluded c = false) ∧ (∀ m ∈ moves, m.within s.nextId) ∧
    t = moves.foldl next (s.next (.await r))
  ended : t.flights.lookup s.nextId = none
  connections : t.pool.registry.connections = cs
  listed : ∀ m ∈ since s t, m.pool.registry.connections = cs
  own : ∀ m ∈ since s t, m.event.elsewhere = false

/-- A history falls into the probes of a batch and the end of a check. -/
def Splits (conns : List Connection) (ms : List Moment) : Prop :=
  ∃ first rest, ms = first ++ rest ∧ (ends first).Perm conns ∧ switches first = [] ∧
    ∀ m ∈ rest, m.event.Probeless (· ≠ .lost)

/-- A check of a list of connections waits for its batch, or it has returned. -/
def Ranking (f : FlightId) (options : CheckOptions) (conns : List Connection) (s t : Manager) :
    Prop :=
  Gathering f .caller options .ranking conns s t ∨
    (t.flights.lookup f = none ∧ Splits conns (since s t))

theorem Ranking.next (h : Ranking f options conns s t) {m : Move} (hm : m.within f) :
    Ranking f options conns s (t.next m) := by
  rcases h with hbatch | ⟨hended, hsplits⟩
  · rcases hbatch.next hm with hwaits | ⟨ready, hjoined⟩
    · exact Or.inl hwaits
    · let j : Manager := { t with ready := ready }
      obtain ⟨probed, _, _, hon⟩ := hjoined.goes_on
      have hrest : Probeless (· ≠ .lost) j (t.next m) := by
        rw [hon]
        exact (rank_probeless j options probed).trans (land_probeless _ f .caller _)
      refine Or.inr ⟨?_, since s j, since j (t.next m),
        since_append hjoined.still.later hrest.later, hjoined.ends, hjoined.switches, hrest.events⟩
      rw [hon]
      exact land_gone _ f .caller _
  · obtain ⟨now, timers, ready, hnext⟩ := ended_next hm hended
    rw [hnext]
    exact Or.inr ⟨hended, hsplits⟩

theorem Ranking.run (h : Ranking f options conns s t) {moves : List Move}
    (hmoves : ∀ m ∈ moves, m.within f) :
    Ranking f options conns s (moves.foldl Manager.next t) :=
  List.foldlRecOn moves _ h fun _ h m hm => h.next (hmoves m hm)

theorem ranking_start (hheld : s.held = true) (calm : s.network.Calm) {r : Request}
    {excluded : List Connection} (hr : s.operation r = .checkConnections conns excluded)
    (hincluded : ∀ c ∈ conns, Selection.excludes excluded c = false) (hne : conns ≠ []) :
    ∃ a options, a.trace = s.trace ∧
      Ranking s.nextId options conns a (s.next (.await r)) := by
  let a : Manager := { s with nextId := s.nextId + 1 }.setFlight s.nextId
    ⟨.caller, .queued (.checkConnections conns excluded)⟩
  have hall : (conns.filter fun c => !Selection.excludes excluded c) = conns :=
    List.filter_eq_self.mpr fun c hc => by simp [hincluded c hc]
  have hbegin : a.begin (.checkConnections conns excluded) =
      (a, .await a.defaultOptions .ranking conns) := by
    dsimp only [begin, beginRanking]
    rw [hall, if_neg (by simpa using hne)]
  have hstart : s.next (.await r) =
      a.launch s.nextId .caller a.defaultOptions .ranking conns := by
    have hflight : a.flights.lookup s.nextId =
        some ⟨.caller, .queued (.checkConnections conns excluded)⟩ := lookup_upsert_self _ _ _
    have hrun := runFlight_queued hflight
    rw [hbegin] at hrun
    dsimp only [next]
    rw [if_pos hheld, hr]
    exact hrun
  rw [hstart]
  exact ⟨a, a.defaultOptions, rfl, Or.inl (gathering_launch (s := a) _ _ _ _ calm hne)⟩

theorem CheckRound.splits (h : CheckRound cs s t) (hne : cs ≠ []) : Splits cs (since s t) := by
  obtain ⟨r, conns, excluded, moves, hr, hperm, hincluded, hmoves, rfl⟩ := h.checks
  have hconns : conns ≠ [] := fun hnil => hne (List.nil_perm.mp (hnil ▸ hperm))
  obtain ⟨a, options, htrace, hstart⟩ := ranking_start h.held h.calm hr hincluded hconns
  rcases hstart.run hmoves with hbatch | ⟨_, first, rest, hsince, hends, hsplits⟩
  · obtain ⟨probes, hflight, _⟩ := hbatch.batch
    cases h.ended.symm.trans hflight
  · have hsame : since s (moves.foldl Manager.next (s.next (.await r))) =
        since a (moves.foldl Manager.next (s.next (.await r))) := by
      unfold since
      rw [htrace]
    exact ⟨first, rest, hsame.trans hsince, hends.trans hperm, hsplits⟩

theorem CheckRound.reachable (h : CheckRound cs s t) (hs : Reachable s) : Reachable t := by
  obtain ⟨r, _, _, moves, _, _, _, _, rfl⟩ := h.checks
  exact (Reachable.next (.await r) hs).foldl moves

theorem CheckRound.recalls (h : CheckRound cs s t) : Recalls s t := by
  obtain ⟨r, _, _, moves, _, _, _, _, rfl⟩ := h.checks
  exact List.foldlRecOn moves _ (next_flat s (.await r)).recalls fun t h m _ =>
    h.trans (next_flat t m).recalls

theorem outcomes_probeless {P : SwitchReason → Prop} (h : ∀ m ∈ ms, m.event.Probeless P)
    (hown : ∀ m ∈ ms, m.event.elsewhere = false) (c : Connection) : outcomes c ms = [] := by
  have hnone : ends ms = [] := List.filterMap_eq_nil_iff.mpr fun m hm => (h m hm).ended?
  have hlength := length_outcomes hown c
  rw [hnone] at hlength
  exact List.length_eq_zero_iff.mp hlength

/-- A round has one outcome of each connection, and it is known when the current pointer moves. -/
theorem CheckRound.shown (h : CheckRound cs s t) (wf : t.pool.WellFormed) (hc : c ∈ cs) :
    ∃ x, outcomes c (since s t) = [x] ∧ t.pool.healthOf c = (s.pool.healthOf c).observe x ∧
      ∀ m ∈ since s t, ∀ w, m.event = .switched w → w.reason ≠ .lost ∧
        m.pool.healthOf c = (s.pool.healthOf c).observe x := by
  obtain ⟨first, rest, hsince, hends, hfirst, hrest⟩ := h.splits (List.ne_nil_of_mem hc)
  have hown := h.own
  rw [hsince] at hown
  obtain ⟨hownfirst, hownrest⟩ := List.forall_mem_append.mp hown
  have hlength : (outcomes c first).length = 1 := by
    rw [length_outcomes hownfirst, hends.countP_eq, ← h.connections]
    exact wf.countP_same (h.connections ▸ hc)
  obtain ⟨x, hx⟩ := List.length_eq_one_iff.mp hlength
  have hnone (n : Nat) : outcomes c (rest.take n) = [] :=
    outcomes_probeless (fun m hm => hrest m (List.mem_of_mem_take hm))
      (fun m hm => hownrest m (List.mem_of_mem_take hm)) c
  have hall : outcomes c (since s t) = [x] := by
    rw [hsince, outcomes_append, hx, ← List.take_length (l := rest), hnone]
    rfl
  refine ⟨x, hall, ?_, fun m hm w hw => ?_⟩
  · rw [h.recalls.health, hall]
    rfl
  · rw [hsince] at hm
    rcases List.mem_append.mp hm with hm | hm
    · exact absurd (mem_switches hm hw) (by simp [hfirst])
    · have hreason := hrest m hm
      rw [hw] at hreason
      refine ⟨hreason, ?_⟩
      obtain ⟨i, hi⟩ := List.mem_iff_getElem?.mp hm
      have hmoment : (since s t)[first.length + i]? = some m := by
        rw [hsince, List.getElem?_append_right (Nat.le_add_right _ _), Nat.add_sub_cancel_left]
        exact hi
      rw [h.recalls.moments c _ m hmoment, hsince, Nat.add_assoc, List.take_length_add_append,
        outcomes_append, hx, hnone]
      rfl

/-! ## Any number of rounds -/

/-- A run with a number of rounds. Between them anything may happen but probes. -/
inductive CheckRounds (cs : List Connection) (s : Manager) : List (List Moment) → Manager → Prop
  | start : CheckRounds cs s [] s
  | between {rounds : List (List Moment)} {t : Manager} (m : Move) : CheckRounds cs s rounds t →
      (∀ k ∈ since t (t.next m), k.event.ended? = none ∧ k.event.elsewhere = false) →
      CheckRounds cs s rounds (t.next m)
  | round {rounds : List (List Moment)} {t u : Manager} :
      CheckRounds cs s rounds t → CheckRound cs t u → CheckRounds cs s (rounds ++ [since t u]) u

theorem CheckRounds.reachable (h : CheckRounds cs s rounds t) (hs : Reachable s) : Reachable t := by
  induction h with
  | start => exact hs
  | between m _ _ ih => exact .next m ih
  | round _ hround ih => exact hround.reachable ih

/-- The health of a connection comes from one outcome in each round. -/
theorem CheckRounds.shown (h : CheckRounds cs s rounds t) (hs : Reachable s) (hc : c ∈ cs)
    (hnew : s.pool.healthOf c = .unprobed) :
    ∃ xs : List Probe.Outcome, rounds.map (outcomes c) = xs.map (fun x => [x]) ∧
      t.pool.healthOf c = xs.foldl Health.observe .unprobed := by
  induction h with
  | start => exact ⟨[], rfl, hnew⟩
  | @between rounds t m _ hquiet ih =>
    obtain ⟨xs, hxs, hhealth⟩ := ih
    refine ⟨xs, hxs, ?_⟩
    have hnone : outcomes c (since t (t.next m)) = [] := by
      have hends : ends (since t (t.next m)) = [] :=
        List.filterMap_eq_nil_iff.mpr fun k hk => (hquiet k hk).1
      have hlength := length_outcomes (fun k hk => (hquiet k hk).2) c
      rw [hends] at hlength
      exact List.length_eq_zero_iff.mp hlength
    rw [(next_flat t m).recalls.health, hnone]
    exact hhealth
  | @round rounds t u hrounds hround ih =>
    obtain ⟨xs, hxs, hhealth⟩ := ih
    have hu : Reachable u := hround.reachable (hrounds.reachable hs)
    obtain ⟨x, hx, hafter, _⟩ := hround.shown hu.sound.pool hc
    refine ⟨xs ++ [x], ?_, ?_⟩
    · rw [List.map_append, List.map_append, hxs, List.map_singleton, hx]
      rfl
    · rw [hafter, hhealth, List.foldl_append]
      rfl

/-- What a consistently better window says about the last three rounds. -/
theorem outpaces_last_three {xs ys : List Probe.Outcome}
    (hxs : rounds.map (outcomes d) = xs.map (fun x => [x]))
    (hys : rounds.map (outcomes c) = ys.map (fun y => [y]))
    (h : (xs.foldl Health.observe .unprobed).window.consistentlyBetter
      (ys.foldl Health.observe .unprobed).window = true) :
    3 ≤ rounds.length ∧ ∀ k r, rounds[k]? = some r → rounds.length ≤ k + 3 → Outpaces r d c := by
  have hxlength : rounds.length = xs.length := by simpa using congrArg List.length hxs
  have hylength : rounds.length = ys.length := by simpa using congrArg List.length hys
  obtain ⟨hthree, hslots⟩ := Health.better_last_three (hxlength.symm.trans hylength) h
  refine ⟨hxlength ▸ hthree, fun k r hr hlate => ?_⟩
  have hk : k < rounds.length := (List.getElem?_eq_some_iff.mp hr).1
  obtain ⟨x, y, hx, hy, hfaster⟩ := hslots k (hxlength ▸ hk) (hxlength ▸ hlate)
  have hxk := congrArg (·[k]?) hxs
  have hyk := congrArg (·[k]?) hys
  simp only [List.getElem?_map, hr, hx, hy, Option.map_some, Option.some.injEq] at hxk hyk
  exact ⟨x, y, hxk, hyk, hfaster⟩

/-- If the current pointer leaves a connected connection in a round, the other one has been faster
in this round and in the two before. -/
theorem CheckRounds.left_now (h : CheckRounds cs s rounds t) (hround : CheckRound cs t u)
    (hs : Reachable s) (flat : ∀ c ∈ cs, ∀ d ∈ cs, c.priority = d.priority)
    (hnew : ∀ c ∈ cs, s.pool.healthOf c = .unprobed) (hleaves : Leaves (since t u) c d) :
    2 ≤ rounds.length ∧ ∀ k r, rounds.length ≤ k + 2 → (rounds ++ [since t u])[k]? = some r →
      Outpaces r d c := by
  have hu := hround.reachable (h.reachable hs)
  obtain ⟨m, hm, w, hw, hsource, rfl, hup⟩ := hleaves
  have htrace : m ∈ u.trace := by
    rw [trace_eq_since hround.recalls.later]
    exact List.mem_append_left _ (List.mem_reverse.mpr hm)
  obtain ⟨hd, hc⟩ := hu.switched_registered htrace hw
  have hc := hc c hsource
  rw [hround.listed m hm] at hd hc
  obtain ⟨x, hx, _, hknown⟩ := hround.shown hu.sound.pool hd
  obtain ⟨y, hy, _, hknown'⟩ := hround.shown hu.sound.pool hc
  obtain ⟨hreason, hxhealth⟩ := hknown m hm w hw
  obtain ⟨_, hyhealth⟩ := hknown' m hm w hw
  obtain ⟨xs, hxs, hxbefore⟩ := h.shown hs hd (hnew _ hd)
  obtain ⟨ys, hys, hybefore⟩ := h.shown hs hc (hnew _ hc)
  have hbetter := (hu.switched_better m htrace w c hw hreason hsource hup).resolve_left
    fun hlt => UInt32.ne_of_lt hlt (flat c hc _ hd)
  have hfold (zs : List Probe.Outcome) (z : Probe.Outcome) :
      (zs ++ [z]).foldl Health.observe .unprobed =
        (zs.foldl Health.observe .unprobed).observe z := List.foldl_append
  have hwindow : ((xs ++ [x]).foldl Health.observe .unprobed).window.consistentlyBetter
      ((ys ++ [y]).foldl Health.observe .unprobed).window = true := by
    rw [hfold, hfold, ← hxbefore, ← hybefore, ← hxhealth, ← hyhealth]
    exact hbetter.2
  have hnow {k : Connection} {zs : List Probe.Outcome} {z : Probe.Outcome}
      (hzs : rounds.map (outcomes k) = zs.map (fun z => [z]))
      (hz : outcomes k (since t u) = [z]) :
      (rounds ++ [since t u]).map (outcomes k) = (zs ++ [z]).map (fun z => [z]) := by
    rw [List.map_append, List.map_append, hzs, List.map_singleton, hz]
    rfl
  obtain ⟨hthree, hback⟩ := outpaces_last_three (hnow hxs hx) (hnow hys hy) hwindow
  rw [List.length_append, List.length_singleton] at hthree hback
  exact ⟨by omega, fun k r hlate hr => hback k r hr (by omega)⟩

/-- So it is with every round of a run. -/
theorem CheckRounds.left (h : CheckRounds cs s rounds t) (hs : Reachable s)
    (flat : ∀ c ∈ cs, ∀ d ∈ cs, c.priority = d.priority)
    (hnew : ∀ c ∈ cs, s.pool.healthOf c = .unprobed) {n : Nat} {r : List Moment}
    (hr : rounds[n]? = some r) (hleaves : Leaves r c d) :
    2 ≤ n ∧ ∀ k r', k ≤ n → n ≤ k + 2 → rounds[k]? = some r' → Outpaces r' d c := by
  induction h with
  | start => exact absurd hr (by simp)
  | between m _ _ ih => exact ih hr
  | @round rounds t u hrounds hround ih =>
    by_cases hn : n < rounds.length
    · rw [List.getElem?_append_left hn] at hr
      obtain ⟨htwo, hback⟩ := ih hr
      refine ⟨htwo, fun k r' hk hlate hr' => hback k r' hk hlate ?_⟩
      rw [List.getElem?_append_left (Nat.lt_of_le_of_lt hk hn)] at hr'
      exact hr'
    · -- the move is made in the last round
      have hlast : n = rounds.length ∧ since t u = r := by
        rw [List.getElem?_append_right (Nat.le_of_not_lt hn), List.getElem?_singleton] at hr
        split at hr
        · next hzero => exact ⟨by omega, by simpa using hr⟩
        · exact absurd hr (by simp)
      obtain ⟨rfl, rfl⟩ := hlast
      obtain ⟨htwo, hback⟩ := hrounds.left_now hround hs flat hnew hleaves
      exact ⟨htwo, fun k r' _ hlate hr' => hback k r' hlate hr'⟩

/-- Connections of one priority that were never probed are checked in rounds. If the current pointer
moves on its own from a connected connection, two rounds have gone before, and in this round and in
those two the new connection and the old one have both answered with the credentials accepted, the
new one in less time. If a later such move takes one back, there are two rounds between the two. -/
theorem hysteresis (h : Reachable s) (hrounds : CheckRounds s.pool.registry.connections s rounds t)
    (flat : ∀ c ∈ s.pool.registry.connections, ∀ d ∈ s.pool.registry.connections,
      c.priority = d.priority)
    (hnew : ∀ c ∈ s.pool.registry.connections, s.pool.healthOf c = .unprobed) :
    (∀ n r c d, rounds[n]? = some r → Leaves r c d →
        2 ≤ n ∧ ∀ k r', k ≤ n → n ≤ k + 2 → rounds[k]? = some r' → Outpaces r' d c) ∧
      ∀ i j r r' c d, rounds[i]? = some r → rounds[j]? = some r' → Leaves r c d → Leaves r' d c →
        i ≤ j → i + 3 ≤ j := by
  refine ⟨fun n r c d hr hleaves => hrounds.left h flat hnew hr hleaves,
    fun i j r r' c d hr hr' hleaves hback hij => ?_⟩
  obtain ⟨_, hfaster⟩ := hrounds.left h flat hnew hr hleaves
  obtain ⟨_, hslower⟩ := hrounds.left h flat hnew hr' hback
  by_contra hnear
  -- in the earlier round each of the two would have been faster than the other one
  exact (hfaster i r (Nat.le_refl i) (Nat.le_add_right i 2) hr).asymm
    (hslower i r hij (by omega) hr)

/-- A check of A and B. -/
def race (s : Manager) : Manager :=
  [.turn (.probe s.nextId 0), .turn (.probe s.nextId 1), .turn (.flight s.nextId)].foldl next
    (s.next (.await (.checkConnections (some ["A", "B"]) [])))

/-- A cannot be reached, and B is slow. -/
def lonely : Manager :=
  [.call (.addUri "A" none), .call (.addUri "B" none)].foldl next
    (idle ⟨[("A", ⟨[], none⟩), ("B", ⟨[], some (.reply 0 (.ok ⟨true, .ofMillis 20⟩))⟩)]⟩ true)

/-- After a round A comes back. -/
def joinedBy : Manager :=
  (race lonely).next (.call (.script "A" (some (.reply 0 (.ok ⟨true, .ofMillis 5⟩))) []))

theorem race_round (h : s.network.Calm ∧ s.held = true ∧ (s.resolveAll ["A", "B"]).Perm cs ∧
    ((race s).flights.lookup s.nextId).isNone = true ∧ (race s).pool.registry.connections = cs ∧
    ∀ m ∈ since s (race s), m.pool.registry.connections = cs ∧ m.event.elsewhere = false) :
    CheckRound cs s (race s) := by
  obtain ⟨calm, held, hperm, hended, hconnections, hmoments⟩ := h
  have hmoves : ∀ m ∈ [Move.turn (.probe s.nextId 0), .turn (.probe s.nextId 1),
      .turn (.flight s.nextId)], m.within s.nextId := by
    simp [Move.within]
  exact {
    held
    calm
    checks := ⟨.checkConnections (some ["A", "B"]) [], s.resolveAll ["A", "B"], [], _, rfl, hperm,
      fun _ _ => rfl, hmoves, rfl⟩
    ended := Option.isNone_iff_eq_none.mp hended
    connections := hconnections
    listed m hm := (hmoments m hm).1
    own m hm := (hmoments m hm).2 }

theorem race_hysteresis :
    let a : Connection := ⟨0, { uri := "A" }⟩
    let b : Connection := ⟨1, { uri := "B" }⟩
    let rounds := [since lonely (race lonely), since joinedBy (race joinedBy),
      since (race joinedBy) (race (race joinedBy)),
      since (race (race joinedBy)) (race (race (race joinedBy)))]
    CheckRounds [a, b] lonely rounds (race (race (race joinedBy))) ∧
      (∃ r, rounds[3]? = some r ∧ Leaves r b a) ∧
      ∀ k r, 1 ≤ k → rounds[k]? = some r → Outpaces r a b := by
  intro a b rounds
  have h1 : CheckRound [a, b] lonely (race lonely) := race_round (by decide +kernel)
  have h2 : CheckRound [a, b] joinedBy (race joinedBy) := race_round (by decide +kernel)
  have h3 : CheckRound [a, b] (race joinedBy) (race (race joinedBy)) :=
    race_round (by decide +kernel)
  have h4 : CheckRound [a, b] (race (race joinedBy)) (race (race (race joinedBy))) :=
    race_round (by decide +kernel)
  have hrounds : CheckRounds [a, b] lonely rounds (race (race (race joinedBy))) :=
    .round (.round (.round (.between _ (.round .start h1) (by decide +kernel)) h2) h3) h4
  have hreachable : Reachable lonely := .foldl _ (.new _ true [])
  have hleaves : ∃ r, rounds[3]? = some r ∧ Leaves r b a :=
    ⟨_, rfl, _, List.mem_of_getElem? (i := 4) rfl, ⟨some b, a, .better⟩, rfl, rfl, rfl,
      by decide +kernel⟩
  obtain ⟨hback, _⟩ := hysteresis hreachable hrounds (by decide) (by decide)
  obtain ⟨r, hr, hr'⟩ := hleaves
  obtain ⟨_, hfaster⟩ := hback 3 r b a hr hr'
  refine ⟨hrounds, ⟨r, hr, hr'⟩, fun k r' hk hr'' => hfaster k r' ?_ (by omega) hr''⟩
  have hlt := (List.getElem?_eq_some_iff.mp hr'').1
  exact Nat.le_of_lt_succ hlt

end Manager

end RpcPool

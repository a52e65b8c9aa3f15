import RpcPool.Proofs.Broken
import RpcPool.Proofs.Joining

/-!
# The order in which probes end

Two runs of one operation that is left alone may differ in how long each endpoint takes to answer,
and so in the order in which its probes start and end. As long as each probe has the same outcome in
both, nothing of that can be told from what the operation returns and leaves behind.

Results:
1. `begin_apart`, `resume_apart`: no batch of an operation probes an instance twice.
2. `Joined.alike`: two runs of a batch whose probes have the same outcomes leave managers alike.
3. `Alike.concur`: from managers that are alike, an operation comes to the same end.
4. `order_immaterial`: the order in which the probes of an operation end does not matter.
-/

namespace RpcPool

/-- The groups that an operation has not come to yet. -/
def Stage.later : Stage → List (List Connection)
  | .failover _ _ q => q.later
  | .search q => q.later
  | .sweep q => q.later
  | _ => []

/-- The batch that an operation goes on to, and every group after it, are of distinct instances. -/
def Progress.Apart : Progress → Prop
  | .await _ stage conns => RpcPool.Apart conns ∧ ∀ g ∈ stage.later, RpcPool.Apart g
  | .done _ => True

/-- In two runs, the probes of each connection have the same outcomes. -/
def SameOutcomes (starts starts' : List Attempt) : Prop :=
  ∀ x ∈ starts, ∀ y ∈ starts', x.connection = y.connection → x.outcome? = y.outcome?

theorem Apart.sublist {cs ds : List Connection} (h : Apart cs) (hsub : ds.Sublist cs) : Apart ds :=
  List.Nodup.sublist (hsub.map _) h

theorem Search.next_apart {excluded conns : List Connection} {groups : List (List Connection)}
    {q : Search} (h : Search.next excluded groups = some (conns, q))
    (hgroups : ∀ g ∈ groups, Apart g) : Apart conns ∧ ∀ g ∈ q.later, Apart g := by
  obtain ⟨skipped, g, rfl, _, rfl, _, _⟩ := Search.next_some h
  have hg : Apart g := hgroups g (List.mem_append_right _ List.mem_cons_self)
  exact ⟨hg.sublist List.filter_sublist, fun g' hg' =>
    hgroups g' (List.mem_append_right _ (List.mem_cons_of_mem _ hg'))⟩

theorem Stage.ahead_lt (stage : Stage) : stage.ahead < toLex (2, 0) := by
  refine Prod.Lex.toLex_lt_toLex.mpr (Or.inl ?_)
  cases stage with
  | status _ => exact Nat.one_lt_two
  | _ => exact Nat.two_pos

namespace Manager

variable {s t u a b j k : Manager} {f : FlightId} {owner : Owner} {options : CheckOptions}
  {stage : Stage} {conns : List Connection} {progress : Progress} {op : Operation}
  {starts starts' : List Attempt} {probed probed' : List (Connection × Bool)}
  {m : Move} {moves moves' : List Move}

/-! ## No instance twice -/

theorem groups_apart (h : Apart s.pool.registry.connections) : ∀ g ∈ s.groups, Apart g := by
  intro g hg
  obtain ⟨p, _, rfl⟩ := List.mem_map.mp hg
  exact h.sublist List.filter_sublist

theorem sweep_apart (s : Manager) (options : CheckOptions) (excluded : List Connection)
    {groups : List (List Connection)} (hgroups : ∀ g ∈ groups, Apart g) :
    (s.sweep options excluded groups).2.Apart := by
  induction groups generalizing s with
  | nil => exact trivial
  | cons g later ih =>
    have hlater : ∀ g ∈ later, Apart g := fun g' hg' => hgroups g' (List.mem_cons_of_mem _ hg')
    unfold sweep
    dsimp only
    split
    · split
      · exact trivial
      · exact ih _ hlater
    · exact ⟨(hgroups g List.mem_cons_self).sublist List.filter_sublist, hlater⟩

theorem begin_apart (h : Apart s.pool.registry.connections)
    (hop : ∀ conns excluded, op = .checkConnections conns excluded → Apart conns) :
    (s.begin op).2.Apart := by
  have hnone (g : List Connection) (hg : g ∈ ([] : List (List Connection))) : Apart g :=
    absurd hg List.not_mem_nil
  have hstatus (options : CheckOptions) : (s.beginStatus options).Apart := by
    unfold beginStatus
    split
    · exact trivial
    · exact ⟨List.nodup_singleton _, hnone⟩
  have hranking (options : CheckOptions) {conns : List Connection} (hconns : Apart conns)
      (excluded : List Connection) : (s.beginRanking options conns excluded).2.Apart := by
    unfold beginRanking
    dsimp only
    split
    · exact trivial
    · exact ⟨hconns.sublist List.filter_sublist, hnone⟩
  cases op with
  | checkConnection => exact hstatus s.defaultOptions
  | checkConnections conns excluded =>
    exact hranking s.defaultOptions (hop conns excluded rfl) excluded
  | bestAvailable excluded =>
    dsimp only [begin]
    split
    · exact trivial
    · next hnext => exact Search.next_apart hnext (groups_apart h)
  | poll o =>
    dsimp only [begin]
    split
    · exact hstatus (s.pollOptions o)
    · exact hranking (s.pollOptions o) h o.excluded
    · exact sweep_apart s (s.pollOptions o) o.excluded (groups_apart h)

theorem resume_apart (observing : s.Observing) (h : Apart s.pool.registry.connections)
    (hlater : ∀ g ∈ stage.later, Apart g) :
    (s.resume options stage probed).2.Apart := by
  cases stage with
  | status watched =>
    have hconnections := (publishStatus_steered observing probed).connections
    dsimp only [resume]
    split
    · split
      · exact trivial
      · next hnext => exact Search.next_apart hnext (groups_apart (hconnections ▸ h))
    · exact trivial
  | failover watched changed q =>
    dsimp only [resume]
    split
    · exact trivial
    · split
      · exact trivial
      · next hnext => exact Search.next_apart hnext hlater
  | search q =>
    dsimp only [resume]
    split
    · exact trivial
    · split
      · exact trivial
      · next hnext => exact Search.next_apart hnext hlater
  | ranking => exact trivial
  | sweep q =>
    dsimp only [resume]
    split
    · exact trivial
    · exact sweep_apart _ options q.excluded hlater

/-! ## One batch in two runs -/

theorem Alike.opened_calls (h : Alike a b) (options : CheckOptions) (conns : List Connection) :
    (a.opened options conns).map (·.call) = (b.opened options conns).map (·.call) := by
  refine List.ext_getElem? fun i => ?_
  unfold opened
  rw [h.pool.registry, List.getElem?_map, List.getElem?_map, List.getElem?_mapIdx,
    List.getElem?_mapIdx]
  cases conns[i]? <;> rfl

/-- Two runs of a batch whose probes have the same outcomes leave managers alike. -/
theorem Joined.alike (h : Joined options conns a starts j probed)
    (h' : Joined options conns b starts' k probed') (hab : Alike a b)
    (hsame : SameOutcomes starts starts') : Alike j k ∧ probed = probed' := by
  have hhealth (id : InstanceId) : j.pool.health.get id = k.pool.health.get id := by
    by_cases hid : ∃ d ∈ conns, d.id = id
    · obtain ⟨d, hd, rfl⟩ := hid
      obtain ⟨outcome, ⟨x, hx, hxd, houtcome⟩, hj⟩ := h.shown d hd
      obtain ⟨outcome', ⟨y, hy, hyd, houtcome'⟩, hk⟩ := h'.shown d hd
      have heq : some outcome = some outcome' :=
        houtcome.symm.trans ((hsame x hx y hy (hxd.trans hyd.symm)).trans houtcome')
      cases heq
      show j.pool.healthOf d = k.pool.healthOf d
      rw [hj, hk, hab.pool.healthOf d]
    · push Not at hid
      rw [h.others id hid, h'.others id hid, hab.pool.health]
  have hpool : j.pool.Alike k.pool :=
    ⟨h.registry.trans (hab.pool.registry.trans h'.registry.symm), funext hhealth⟩
  have hmiddle : Alike { a with pool := j.pool } { b with pool := k.pool } :=
    { hab with pool := hpool }
  refine ⟨(Alike.symm h.aside).trans (hmiddle.trans h'.aside), ?_⟩
  rw [h.verdicts, h'.verdicts, funext hab.pool.healthOf, funext hpool.healthOf]

/-! ## A whole operation in two runs -/

/-- An operation goes on alone to its end, and none of its probes breaks. -/
structure Finishes (f : FlightId) (u : Manager) (moves : List Move) : Prop where
  tended : u.Tended
  within : ∀ m ∈ moves, m.within f
  ended : (moves.foldl next u).flights.lookup f = none
  calm : ∀ x ∈ u.attempts moves, x.outcome? ≠ none

/-- Up to the end of its first batch, and on. -/
theorem Finishes.goes_on (h : Finishes f (a.launch f owner options stage conns) moves)
    (hapart : Apart conns) : ∃ starts j probed after, Joined options conns a starts j probed ∧
      ∃ u, u = (j.resume options stage probed).1.proceed f owner
        (j.resume options stage probed).2 ∧ Finishes f u after ∧
      moves.foldl next (a.launch f owner options stage conns) = after.foldl next u ∧
      (a.launch f owner options stage conns).attempts moves = starts ++ u.attempts after := by
  obtain ⟨before, after, j, probed, rfl, hjoined, hattempts, hgo⟩ :=
    (batching_launch a f owner options stage hapart).ends
      (launch_lookup a f owner options stage conns) h.tended h.within h.ended h.calm
  have htended := h.tended.run_moves (before ++ [.turn (.flight f)])
  have hfold : (before ++ Move.turn (.flight f) :: after).foldl next
      (a.launch f owner options stage conns) = after.foldl next
        ((before ++ [Move.turn (.flight f)]).foldl next
          (a.launch f owner options stage conns)) := by
    rw [← List.foldl_append, List.append_assoc]
    rfl
  refine ⟨_, j, probed, after, hjoined, _, rfl, ?_, hgo ▸ hfold, hgo ▸ hattempts⟩
  rw [← hgo]
  refine ⟨htended, fun m hm => ?_, hfold ▸ h.ended, fun x hx => ?_⟩
  · exact h.within m (List.mem_append_right _ (List.mem_cons_of_mem _ hm))
  · exact h.calm x (hattempts ▸ List.mem_append_right _ hx)

/-- After its end, nothing of an operation changes any more. -/
theorem Concur.ended (h : Concur f s t) (hs : s.flights.lookup f = none)
    (ht : t.flights.lookup f = none) (hmoves : ∀ m ∈ moves, m.within f)
    (hmoves' : ∀ m ∈ moves', m.within f) : Concur f (moves.foldl next s) (moves'.foldl next t) := by
  obtain ⟨⟨now, timers, ready, hleft⟩, _⟩ := ended_run hs hmoves
  obtain ⟨⟨now', timers', ready', hright⟩, _⟩ := ended_run ht hmoves'
  rw [hleft, hright]
  exact ⟨h.pool, h.answer, h.news⟩

/-- From managers that are alike, an operation comes to the same end, whatever the order in which its
probes end. -/
theorem Alike.concur (h : Alike a b) (observing : a.Observing)
    (hregistry : Apart a.pool.registry.connections) (hapart : progress.Apart)
    (hrun : Finishes f (a.proceed f owner progress) moves)
    (hrun' : Finishes f (b.proceed f owner progress) moves')
    (hsame : SameOutcomes ((a.proceed f owner progress).attempts moves)
      ((b.proceed f owner progress).attempts moves')) :
    Concur f (moves.foldl next (a.proceed f owner progress))
        (moves'.foldl next (b.proceed f owner progress)) ∧
      (((a.proceed f owner progress).attempts moves).map (·.call)).Perm
        (((b.proceed f owner progress).attempts moves').map (·.call)) := by
  -- by induction on what the operation has ahead of it
  obtain ⟨bound, hbound⟩ : ∃ bound, ∀ options stage conns,
      progress = .await options stage conns → stage.ahead < bound :=
    ⟨_, fun _ stage _ _ => stage.ahead_lt⟩
  induction bound using WellFoundedLT.induction generalizing a b progress moves moves' with
  | _ bound ih =>
    cases progress with
    | done reply =>
      have hgone := land_gone a f owner reply
      have hgone' := land_gone b f owner reply
      have hnone := (ended_run hgone hrun.within).2.1
      have hnone' := (ended_run hgone' hrun'.within).2.1
      refine ⟨(h.land f owner reply).ended hgone hgone' hrun.within hrun'.within, ?_⟩
      show (((a.land f owner reply).attempts moves).map _).Perm
        (((b.land f owner reply).attempts moves').map _)
      rw [hnone, hnone']
    | await options stage conns =>
      obtain ⟨hconns, hlater⟩ := hapart
      obtain ⟨starts, j, probed, after, hjoined, u, hu, hnext, hfold, hattempts⟩ :=
        hrun.goes_on hconns
      obtain ⟨starts', k, probed', after', hjoined', u', hu', hnext', hfold', hattempts'⟩ :=
        hrun'.goes_on hconns
      have hsplit : SameOutcomes (starts ++ u.attempts after) (starts' ++ u'.attempts after') :=
        hattempts ▸ hattempts' ▸ hsame
      obtain ⟨hjk, rfl⟩ := hjoined.alike hjoined' h fun x hx y hy =>
        hsplit x (List.mem_append_left _ hx) y (List.mem_append_left _ hy)
      have hquiet : j.Observing := Alike.observing hjoined.aside observing
      have hapartj : Apart j.pool.registry.connections := by
        rw [hjoined.registry]
        exact hregistry
      have hplan : (j.resume options stage probed).2.Apart := resume_apart hquiet hapartj hlater
      have hahead := resume_ahead j options stage probed
      have hsteered := resume_steered hquiet options stage probed
      obtain ⟨hresumed, hprogress⟩ := hjk.resume hquiet options stage probed
      rw [← hprogress] at hu'
      subst hu hu'
      obtain ⟨hconcur, hperm⟩ := ih stage.ahead (hbound options stage conns rfl) hresumed
        hsteered.observing (by rw [hsteered.connections]; exact hapartj) hplan hnext hnext'
        (fun x hx y hy => hsplit x (List.mem_append_right _ hx) y (List.mem_append_right _ hy))
        (fun options' stage' conns' hawait => by rw [hawait] at hahead; exact hahead.2)
      have hcalls := hjoined.calls.trans
        (h.opened_calls options conns ▸ hjoined'.calls.symm)
      refine ⟨?_, ?_⟩
      · show Concur f (moves.foldl next (a.launch f owner options stage conns))
          (moves'.foldl next (b.launch f owner options stage conns))
        rw [hfold, hfold']
        exact hconcur
      · show (((a.launch f owner options stage conns).attempts moves).map _).Perm
          (((b.launch f owner options stage conns).attempts moves').map _)
        rw [hattempts, hattempts', List.map_append, List.map_append]
        exact hcalls.append hperm

/-! ## Two networks -/

/-- The same manager on another network. -/
def on (s : Manager) (n : Network) : Manager := { s with network := n }

theorem Tended.on (h : s.Tended) (n : Network) : (s.on n).Tended :=
  ⟨h.numbered, h.tasks, h.distinct, h.tokens, h.queued, h.joined⟩

theorem Undertakes.on (h : Undertakes s m f op) (n : Network) : Undertakes (s.on n) m f op := by
  cases h with
  | awaited hheld => exact .awaited (s := s.on n) hheld
  | task hflight hready => exact .task (s := s.on n) hflight hready
  | iteration hloop hready hgoing hdue => exact .iteration (s := s.on n) hloop hready hgoing hdue

theorem alike_on (s : Manager) (n n' : Network) : Alike (s.on n) (s.on n') := { Alike.refl s with }

theorem Reachable.apart (h : Reachable s) : Apart s.pool.registry.connections :=
  List.Nodup.map_on (fun c hc d hd => h.sound.pool.apart c hc d hd)
    (List.Nodup.of_map _ h.sound.registry.distinct)

/-- A run of an operation is a run from its beginning on. -/
theorem Undertakes.attempts_cons (h : Undertakes s m f op) (n : Network) (moves : List Move) :
    (s.on n).attempts (m :: moves) = ((s.on n).next m).attempts moves := by
  have hnone : (s.on n).startsIn m = [] := startsIn_none (h.on n).turning
  show (s.on n).startsIn m ++ _ = _
  rw [hnone, List.nil_append]

theorem news_since (h : s.trace <:+ t.trace) :
    t.news = ((since s t).filterMap (·.event.news?)).reverse ++ s.news := by
  unfold news
  rw [trace_eq_since h, List.filterMap_append, List.filterMap_reverse]

theorem callbacks_news (ms : List Moment) :
    callbacks ms = (ms.filterMap (·.event.news?)).filterMap Event.told? := by
  unfold callbacks
  rw [List.filterMap_filterMap]
  exact congrArg (List.filterMap · ms) (funext fun k => k.event.told?_news)

/-- From one state, an operation comes to the same end on two networks. -/
theorem Undertakes.concur (h : Undertakes s m f op) (hs : s.Tended) (observing : s.Observing)
    (hregistry : Apart s.pool.registry.connections)
    (hop : ∀ conns excluded, op = .checkConnections conns excluded → Apart conns) (n n' : Network)
    (hrun : Finishes f ((s.on n).next m) moves) (hrun' : Finishes f ((s.on n').next m) moves')
    (hsame : SameOutcomes (((s.on n).next m).attempts moves)
      (((s.on n').next m).attempts moves')) :
    Concur f (moves.foldl next ((s.on n).next m)) (moves'.foldl next ((s.on n').next m)) ∧
      ((((s.on n).next m).attempts moves).map (·.call)).Perm
        ((((s.on n').next m).attempts moves').map (·.call)) := by
  obtain ⟨a, hprepared, hnext⟩ := h.begins_on hs.numbered
  obtain ⟨nextId, flights, loops, ready, ha⟩ := hprepared.bookkeeping
  have hquiet : (a.on n).Observing := by
    rw [ha]
    exact observing
  have hapart : Apart (a.on n).pool.registry.connections := by
    rw [ha]
    exact hregistry
  have hsteered := (begin_followed (a.on n) op).steered hquiet
  have hplan : ((a.on n).begin op).2.Apart := begin_apart hapart hop
  obtain ⟨hbegun, hprogress⟩ := (alike_on a n n').begin hquiet op
  have hleft : (s.on n).next m = _ := hnext n
  have hright : (s.on n').next m = _ := hnext n'
  rw [show ({ a with network := n' } : Manager).begin op = (a.on n').begin op from rfl,
    ← hprogress] at hright
  rw [hleft] at hrun hsame ⊢
  rw [hright] at hrun' hsame ⊢
  exact hbegun.concur hsteered.observing (by rw [hsteered.connections]; exact hapart) hplan hrun
    hrun' hsame

/-- The order in which the probes of an operation end does not matter. In two runs of one operation
that is left alone, from one state but on two networks, the endpoints may take more or less time. If
each probe has the same outcome in both runs and none breaks, the operation comes to its end in both.
It then returns the same, has made the same calls, and leaves the same connection current and the
same known of each. The listeners have been called in the same way, and nothing else has been told
in another way, but for the time that an iteration of a poll loop has taken. -/
theorem order_immaterial (h : Reachable s) (observing : s.Observing) (hop : Undertakes s m f op)
    (hapart : ∀ conns excluded, op = .checkConnections conns excluded → Apart conns)
    (n n' : Network) (hmoves : ∀ k ∈ moves, k.within f) (hmoves' : ∀ k ∈ moves', k.within f)
    (ht : t = (m :: moves).foldl next (s.on n)) (hu : u = (m :: moves').foldl next (s.on n'))
    (hcalm : ∀ x ∈ (s.on n).attempts (m :: moves), x.behaviour ≠ .panic)
    (hcalm' : ∀ x ∈ (s.on n').attempts (m :: moves'), x.behaviour ≠ .panic)
    (hsame : SameOutcomes ((s.on n).attempts (m :: moves)) ((s.on n').attempts (m :: moves'))) :
    (∃ more : List Move, (∀ k ∈ more, k.within f) ∧ (more.foldl next t).flights.lookup f = none) ∧
    (∃ more : List Move, (∀ k ∈ more, k.within f) ∧ (more.foldl next u).flights.lookup f = none) ∧
    (t.flights.lookup f = none → u.flights.lookup f = none →
      t.answers.lookup f = u.answers.lookup f ∧
      ((∀ o, op ≠ .poll o) → ∃ reply, t.answers.lookup f = some reply) ∧
      (((s.on n).attempts (m :: moves)).map (·.call)).Perm
        (((s.on n').attempts (m :: moves')).map (·.call)) ∧
      t.pool.registry = u.pool.registry ∧ (∀ c, t.pool.healthOf c = u.pool.healthOf c) ∧
      callbacks (since s t) = callbacks (since s u) ∧
      (since s t).filterMap (·.event.news?) = (since s u).filterMap (·.event.news?)) := by
  subst ht hu
  have hs : s.Tended := h.tended
  refine ⟨(hop.on n).can_end (hs.on n) hmoves, (hop.on n').can_end (hs.on n') hmoves',
    fun hended hended' => ?_⟩
  rw [hop.attempts_cons] at hcalm hcalm' hsame
  rw [hop.attempts_cons] at hsame
  have hrun : Finishes f ((s.on n).next m) moves :=
    ⟨(hs.on n).next m, hmoves, hended, fun x hx hnone =>
      hcalm x hx (Behaviour.outcome?_eq_none.mp hnone)⟩
  have hrun' : Finishes f ((s.on n').next m) moves' :=
    ⟨(hs.on n').next m, hmoves', hended', fun x hx hnone =>
      hcalm' x hx (Behaviour.outcome?_eq_none.mp hnone)⟩
  obtain ⟨⟨hpool, hanswer, hnews⟩, hperm⟩ :=
    hop.concur hs observing h.apart hapart n n' hrun hrun' hsame
  have hlater : s.trace <:+ ((m :: moves).foldl next (s.on n)).trace := run_later (s.on n) _
  have hlater' : s.trace <:+ ((m :: moves').foldl next (s.on n')).trace := run_later (s.on n') _
  have hsince : (since s ((m :: moves).foldl next (s.on n))).filterMap (·.event.news?) =
      (since s ((m :: moves').foldl next (s.on n'))).filterMap (·.event.news?) := by
    have hboth := (news_since hlater).symm.trans (hnews.trans (news_since hlater'))
    exact List.reverse_injective (List.append_cancel_right hboth)
  refine ⟨hanswer, fun hplain => ?_, ?_, hpool.registry, hpool.healthOf, ?_, hsince⟩
  · have htasked : (s.on n).Tasked fun _ => False := h.tasked
    rcases ((hop.on n).pursued_run (hs.on n) htasked observing hplain hmoves).come with
      hpursuing | hanswered
    · obtain ⟨_, _, _, _, hflight, _⟩ := hpursuing.batch
      exact absurd (hended.symm.trans hflight) (by simp)
    · obtain ⟨reply, hreply, _⟩ := hanswered.answer
      exact ⟨reply, hreply⟩
  · rw [hop.attempts_cons, hop.attempts_cons]
    exact hperm
  · rw [callbacks_news, callbacks_news, hsince]

/-- Nothing is current, and somebody listens. -/
def racing : Manager :=
  [.call (.addUri "A" none), .call (.addUri "B" none), .call (.addListener "log" [] 0)].foldl next
    (idle ⟨[]⟩ true)

/-- Two endpoints that show the same after some time. -/
def delayed (delayA delayB : Nat) : Network :=
  ⟨[("A", ⟨[], some (.reply delayA (.ok ⟨true, .ofMillis 5⟩))⟩),
    ("B", ⟨[], some (.reply delayB (.ok ⟨true, .ofMillis 5⟩))⟩)]⟩

/-- One probe ends before the other. -/
def raced (first second : Nat) : List Move :=
  [.turn (.probe 0 first), .turn (.probe 0 second), .clock 10, .turn (.probe 0 first), .clock 20,
    .turn (.probe 0 second), .turn (.flight 0)]

theorem raced_immaterial :
    let m := Move.await (.checkConnections (some ["A", "B"]) [])
    let t := (m :: raced 0 1).foldl next (racing.on (delayed 10 20))
    let u := (m :: raced 1 0).foldl next (racing.on (delayed 20 10))
    ((racing.on (delayed 10 20)).endings (m :: raced 0 1)).map (·.connection.uri) = ["A", "B"] ∧
    ((racing.on (delayed 20 10)).endings (m :: raced 1 0)).map (·.connection.uri) = ["B", "A"] ∧
    t.current = some ⟨0, { uri := "A" }⟩ ∧ t.pool.registry = u.pool.registry ∧
    (∀ c, t.pool.healthOf c = u.pool.healthOf c) ∧
    callbacks (since racing t) = [("log", some ⟨0, { uri := "A" }⟩)] ∧
    callbacks (since racing t) = callbacks (since racing u) := by
  intro m t u
  have hreachable : Reachable racing := .foldl _ (.new _ true [])
  have hobserving : racing.Observing := by decide +kernel
  have hfirst : racing.nextId = 0 := by decide +kernel
  have hop : Undertakes racing m 0 (racing.operation (.checkConnections (some ["A", "B"]) [])) :=
    hfirst ▸ .awaited (by decide +kernel)
  have hapart : ∀ conns excluded, racing.operation (.checkConnections (some ["A", "B"]) []) =
      .checkConnections conns excluded → Apart conns := by
    intro conns excluded heq
    cases heq
    unfold Apart
    decide +kernel
  have hmoves (i j : Nat) : ∀ k ∈ raced i j, k.within 0 := by simp [raced, Move.within]
  have hshown : ∀ x ∈ (racing.on (delayed 10 20)).attempts (m :: raced 0 1),
      x.outcome? = some (.ok ⟨true, .ofMillis 5⟩) := by decide +kernel
  have hshown' : ∀ x ∈ (racing.on (delayed 20 10)).attempts (m :: raced 1 0),
      x.outcome? = some (.ok ⟨true, .ofMillis 5⟩) := by decide +kernel
  have hcalm {starts : List Attempt}
      (h : ∀ x ∈ starts, x.outcome? = some (.ok ⟨true, .ofMillis 5⟩)) :
      ∀ x ∈ starts, x.behaviour ≠ .panic := by
    intro x hx hpanic
    exact absurd ((Behaviour.outcome?_eq_none.mpr hpanic).symm.trans (h x hx)) (by simp)
  obtain ⟨_, _, hends⟩ := order_immaterial (t := t) (u := u) hreachable hobserving hop hapart
    (delayed 10 20) (delayed 20 10) (hmoves 0 1) (hmoves 1 0) rfl rfl (hcalm hshown)
    (hcalm hshown') fun x hx y hy _ => (hshown x hx).trans (hshown' y hy).symm
  obtain ⟨_, _, _, hregistry, hhealth, hcalled, _⟩ := hends
    (Option.isNone_iff_eq_none.mp (by decide +kernel))
    (Option.isNone_iff_eq_none.mp (by decide +kernel))
  exact ⟨by decide +kernel, by decide +kernel, by decide +kernel, hregistry, hhealth,
    by decide +kernel, hcalled⟩

end Manager

end RpcPool

import RpcPool.Proofs.Orders

/-!
# After a reset

A reset takes the listeners away, forgets all connections and has the poll loop stopped. Operations
and iterations that are under way know nothing of it. They go on with the connections they hold,
from the groups that they were given, and probe what is left for them to probe. But without a
registered connection nothing can become current, so there is nothing to make known and nobody to
hear of it.

Results:
1. `begin_bare`, `resume_bare`: an operation leaves a manager alone that was reset.
2. `next_fades`: what is under way comes to its end by itself, and nothing begins.
3. `reset_lasts`: what a reset leaves is there until the next call.
-/

namespace RpcPool

/-- What happens by itself. The user makes no call, but may give up the manager. -/
def Move.spontaneous : Move → Bool
  | .call .drop => true
  | .call _ => false
  | .await _ => false
  | _ => true

theorem Event.startedWith?_eq_some {e : Event} {c : Connection} {timeoutMs : UInt32} :
    e.startedWith? = some (c, timeoutMs) ↔ e = .probeStarted c timeoutMs := by
  cases e <;> simp [startedWith?]

namespace Pool

variable {p : Pool}

/-- Without registered connections nothing can become current. -/
theorem switch_empty (h : p.registry = .empty) (target : Connection) (reason : SwitchReason) :
    p.switch target reason = (p, none) := by
  unfold switch
  rw [h]
  rfl

theorem failover_empty (h : p.registry = .empty) (watched target : Connection) :
    p.failover watched target = (p, none) := by
  unfold failover
  rw [switch_empty h, ite_self]

theorem reconnect_empty (h : p.registry = .empty) (target : Connection) :
    p.reconnect target = (p, none) := by
  unfold reconnect
  rw [switch_empty h, ite_self]

theorem improve_empty (h : p.registry = .empty) : p.improve = (p, none) := by
  unfold improve
  split
  · exact switch_empty h _ _
  · rfl

end Pool

namespace Manager

open Relation

variable {s t u : Manager} {m : Move} {f : FlightId} {i : Nat} {id : LoopId} {owner : Owner}
  {work : Work} {e : Event}

/-! ## Bare managers -/

/-- No connections, no listeners and default settings, and every loop was told to stop. -/
structure Bare (s : Manager) : Prop where
  registry : s.pool.registry = .empty
  subscribers : s.subscribers = []
  poller : s.poller = none
  stopped : ∀ {id l}, s.loops.lookup id = some l → l.stopped = true

theorem publishStatus_bare (h : s.Bare) (probed : List (Connection × Bool)) :
    s.publishStatus probed = s := by
  unfold publishStatus
  rw [h.registry]
  rfl

theorem rank_bare (h : s.Bare) (options : CheckOptions) (probed : List (Connection × Bool)) :
    (s.rank options probed).1 = s := by
  have hreconnect (c : Connection) : s.follow (s.pool.reconnect c) = s := by
    rw [Pool.reconnect_empty h.registry]
    rfl
  have himprove : s.follow s.pool.improve = s := by
    rw [Pool.improve_empty h.registry]
    rfl
  unfold rank
  rw [publishStatus_bare h]
  dsimp only
  split
  · split
    · rw [hreconnect, himprove]
    · exact himprove
  · rfl

theorem sweep_bare (h : s.Bare) (options : CheckOptions) (excluded : List Connection)
    (groups : List (List Connection)) : (s.sweep options excluded groups).1 = s := by
  induction groups with
  | nil => rfl
  | cons g later ih =>
    unfold sweep
    dsimp only
    rw [rank_bare h]
    split
    · split
      · rfl
      · exact ih
    · rfl

theorem beginRanking_bare (h : s.Bare) (options : CheckOptions) (conns excluded : List Connection) :
    (s.beginRanking options conns excluded).1 = s := by
  unfold beginRanking
  dsimp only
  split
  · exact rank_bare h options []
  · rfl

/-- An operation that begins leaves a manager alone that is bare. -/
theorem begin_bare (h : s.Bare) (op : Operation) : (s.begin op).1 = s := by
  cases op with
  | checkConnection => rfl
  | checkConnections conns excluded => exact beginRanking_bare h _ conns excluded
  | bestAvailable excluded =>
    dsimp only [begin]
    split <;> rfl
  | poll o =>
    dsimp only [begin]
    split
    · rfl
    · exact beginRanking_bare h _ _ _
    · exact sweep_bare h _ _ _

/-- So does an operation that goes on, from whatever batch. -/
theorem resume_bare (h : s.Bare) (options : CheckOptions) (stage : Stage)
    (probed : List (Connection × Bool)) : (s.resume options stage probed).1 = s := by
  have hfailover (watched best : Connection) : s.follow (s.pool.failover watched best) = s := by
    rw [Pool.failover_empty h.registry]
    rfl
  cases stage with
  | status watched =>
    dsimp only [resume]
    rw [publishStatus_bare h]
    split
    · split <;> rfl
    · rfl
  | failover watched changed search =>
    dsimp only [resume]
    rw [publishStatus_bare h]
    split
    · exact hfailover _ _
    · split <;> rfl
  | search search =>
    dsimp only [resume]
    rw [publishStatus_bare h]
    split
    · rfl
    · split <;> rfl
  | ranking => exact rank_bare h options probed
  | sweep search =>
    dsimp only [resume]
    rw [rank_bare h]
    split
    · rfl
    · exact sweep_bare h options _ _

theorem release_bare (h : s.Bare) : s.release = s := by
  unfold release stopPolling
  rw [h.poller]
  exact ite_self s

/-! ## What is left under way -/

/-- The manager comes to be bare or stays so. No operation begins, and no listener is called. -/
structure Fades (s t : Manager) : Prop where
  bare : t.Bare
  flights : ∀ f owner, t.AnswersTo f owner → s.AnswersTo f owner
  later : s.trace <:+ t.trace
  unheard : ∀ k ∈ since s t, k.pool.registry = .empty ∧ k.event.told? = none

theorem Fades.trans (h : Fades s t) (h' : Fades t u) : Fades s u where
  bare := h'.bare
  flights f owner hf := h.flights f owner (h'.flights f owner hf)
  later := h.later.trans h'.later
  unheard k hk := by
    rw [since_append h.later h'.later] at hk
    exact (List.mem_append.mp hk).elim (h.unheard k) (h'.unheard k)

/-- Loops and operations may be over, and there may be bookkeeping. -/
theorem Fades.ends (h : s.Bare) (hregistry : t.pool.registry = s.pool.registry)
    (hsubscribers : t.subscribers = s.subscribers) (htrace : t.trace = s.trace)
    (hpoller : t.poller = s.poller)
    (hloops : ∀ id l, t.loops.lookup id = some l → s.loops.lookup id = some l)
    (hflights : ∀ f owner, t.AnswersTo f owner → s.AnswersTo f owner) : Fades s t where
  bare := ⟨hregistry.trans h.registry, hsubscribers.trans h.subscribers, hpoller.trans h.poller,
    fun hl => h.stopped (hloops _ _ hl)⟩
  flights := hflights
  later := htrace ▸ List.suffix_rfl
  unheard _ hk := absurd ((since_same htrace) ▸ hk) List.not_mem_nil

theorem Fades.same (h : s.Bare) (hregistry : t.pool.registry = s.pool.registry)
    (hsubscribers : t.subscribers = s.subscribers) (htrace : t.trace = s.trace)
    (hpoller : t.poller = s.poller) (hloops : t.loops = s.loops)
    (hflights : t.flights = s.flights) : Fades s t :=
  .ends h hregistry hsubscribers htrace hpoller (fun _ _ hl => hloops ▸ hl)
    fun _ _ => (AnswersTo.same (by rw [hflights])).mp

theorem Fades.beside (h : s.Bare) (hkept : t.kept = s.kept) (hbeside : Beside s t) : Fades s t := by
  have hregistry := congrArg (·.pool.registry) hkept
  have hsubscribers := congrArg Manager.subscribers hkept
  have htrace := congrArg Manager.trace hkept
  exact .ends h hregistry hsubscribers htrace hbeside.poller (fun _ _ hl => hbeside.loops ▸ hl)
    fun f _ => (AnswersTo.same (hbeside.owners f)).mp

theorem Fades.refl (h : s.Bare) : Fades s s := .same h rfl rfl rfl rfl rfl rfl

theorem Fades.note (h : s.Bare) (he : e.told? = none) : Fades s (s.record e) where
  bare := ⟨h.registry, h.subscribers, h.poller, h.stopped⟩
  flights _ _ hf := hf
  later := later_record s e
  unheard _ hk := by
    rw [since_record, List.mem_singleton] at hk
    rw [hk]
    exact ⟨h.registry, he⟩

theorem Fades.observe (h : s.Bare) (c : Connection) (outcome : Probe.Outcome) :
    Fades s ({ s with pool := s.pool.observe c outcome }.record (.probeEnded c outcome)) :=
  have hobserved : Fades s { s with pool := s.pool.observe c outcome } :=
    .same h rfl rfl rfl rfl rfl rfl
  hobserved.trans (.note hobserved.bare rfl)

theorem land_fades (h : s.Bare) (f : FlightId) (owner : Owner) (reply : Reply) :
    Fades s (s.land f owner reply) := by
  let removed : Manager := { s with flights := without f s.flights }
  have hremoved : Fades s removed :=
    .ends h rfl rfl rfl rfl (fun _ _ hl => hl) fun _ _ hf =>
      ((answersTo_without (s := s) rfl).mp hf).2
  have hanswered : Fades s { removed with answers := upsert f reply s.answers } :=
    .ends h rfl rfl rfl rfl (fun _ _ hl => hl) fun _ _ hf =>
      ((answersTo_without (s := s) rfl).mp hf).2
  cases owner with
  | caller | task =>
    show Fades s ({ removed with answers := upsert f reply s.answers } : Manager).release
    rw [release_bare hanswered.bare]
    exact hanswered
  | loop id =>
    cases hl : s.loops.lookup id with
    | none =>
      rw [land_orphan hl, release_bare hremoved.bare]
      exact hremoved
    | some l =>
      have htold : (s.report l reply).told? = none := by cases reply <;> rfl
      have hnoted : Fades s (removed.record (s.report l reply)) :=
        hremoved.trans (.note hremoved.bare htold)
      rw [land_loop hl, release_bare hnoted.bare]
      exact hnoted.trans (.same hnoted.bare rfl rfl rfl rfl rfl rfl)

theorem proceed_fades (h : s.Bare) (hf : s.flights.lookup f = some ⟨owner, work⟩)
    (progress : Progress) : Fades s (s.proceed f owner progress) := by
  cases progress with
  | await options stage conns =>
    have hlaunch := launch_beside hf options stage conns
    have hkept : (s.launch f owner options stage conns).kept = s.kept := by
      obtain ⟨ready, hlaunch⟩ := launch_rest s f owner options stage conns
      rw [hlaunch]
      rfl
    exact .beside h hkept hlaunch
  | done reply => exact land_fades h f owner reply

theorem runFlight_fades (h : s.Bare) (f : FlightId) : Fades s (s.runFlight f) := by
  have hturn := runFlight_turn s f
  generalize s.runFlight f = after at hturn ⊢
  cases hturn with
  | waits _ => exact .refl h
  | begins hf =>
    rw [begin_bare h]
    exact proceed_fades h hf _
  | @breaks owner _ _ _ _ _ _ _ => exact land_fades h f owner _
  | goesOn hf _ _ =>
    rw [resume_bare h]
    exact proceed_fades h hf _

theorem setProbe_fades (h : s.Bare) (f : FlightId) (i : Nat) (state : ProbeState) :
    Fades s (s.setProbe f i state) :=
  .beside h (setProbe_frame (K := fun _ => True) s f i state).kept (setProbe_beside s f i state)

theorem wake_fades (h : s.Bare) (f : FlightId) : Fades s (s.wake (.flight f)) :=
  .beside h (wake_frame (K := fun _ => True) s _).kept (wake_beside (by simp) s)

theorem endProbe_fades (h : s.Bare) (f : FlightId) (i : Nat) (c : Connection)
    (outcome : Probe.Outcome) : Fades s (s.endProbe f i c outcome) := by
  have hobserved := Fades.observe h c outcome
  have hset := setProbe_fades hobserved.bare f i (.ended (s.pool.wouldChange c outcome))
  exact (hobserved.trans hset).trans (wake_fades hset.bare f)

theorem ProbeTurn.fades (hturn : ProbeTurn f i s t) (h : s.Bare) : Fades s t := by
  have hprobing (p : BatchProbe) : Fades s (s.probing p) := by
    have hnoted := Fades.note (e := .probeStarted p.connection p.timeoutMs) h rfl
    exact hnoted.trans (.same hnoted.bare rfl rfl rfl rfl rfl rfl)
  cases hturn with
  | nothing => exact .refl h
  | @breaks p _ _ _ =>
    have hset := setProbe_fades (hprobing p).bare f i .panicked
    exact ((hprobing p).trans hset).trans (wake_fades hset.bare f)
  | @waits p outcome due _ _ =>
    have hset := setProbe_fades (hprobing p).bare f i (.waiting outcome)
    exact ((hprobing p).trans hset).trans (.same hset.bare rfl rfl rfl rfl rfl rfl)
  | @answers p outcome _ _ => exact (hprobing p).trans (endProbe_fades (hprobing p).bare f i _ _)
  | ends _ _ => exact endProbe_fades h f i _ _

/-- A loop that takes its turn takes note that it was told to stop. -/
theorem runLoop_fades (h : s.Bare) (id : LoopId) : Fades s (s.runLoop id) := by
  have hturn := runLoop_turn s id
  generalize s.runLoop id = after at hturn ⊢
  cases hturn with
  | gone _ => exact .refl h
  | quits _ _ =>
    have hgone : Fades s { s with loops := without id s.loops } := by
      refine .ends h rfl rfl rfl rfl (fun k l' hl' => ?_) fun _ _ hf => hf
      by_cases hk : k = id
      · rw [hk] at hl'
        cases (lookup_without_self id s.loops).symm.trans hl'
      · exact (lookup_without_ne _ hk).symm.trans hl'
    exact hgone.trans (.note hgone.bare rfl)
  | begins hl hgoing _ | waits hl hgoing _ =>
    -- no loop is left that was not told to stop
    cases (h.stopped hl).symm.trans hgoing

/-- What happens by itself begins nothing, and leaves a manager bare. -/
theorem next_fades (h : s.Bare) (hm : m.spontaneous = true) : Fades s (s.next m) := by
  cases m with
  | call c =>
    cases c with
    | drop =>
      by_cases hheld : s.held = true
      · have hgone : Fades s { s with held := false } := .same h rfl rfl rfl rfl rfl rfl
        show Fades s (s.perform .drop).1
        rw [perform_eq hheld, act_eq]
        show Fades s ({ s with held := false } : Manager).release
        rw [release_bare hgone.bare]
        exact hgone
      · rw [show s.next (.call .drop) = s from congrArg Prod.fst (if_neg hheld)]
        exact .refl h
    | _ => exact absurd hm (by simp [Move.spontaneous])
  | await r => exact absurd hm (by simp [Move.spontaneous])
  | turn task =>
    have herased : Fades s { s with ready := s.ready.erase task } :=
      .same h rfl rfl rfl rfl rfl rfl
    by_cases hready : task ∈ s.ready
    · cases task with
      | probe f i =>
        rw [next_probe hready]
        exact herased.trans ((runProbe_turn _ f i).fades herased.bare)
      | flight f =>
        rw [next_flight hready]
        exact herased.trans (runFlight_fades herased.bare f)
      | loop id =>
        rw [next_runLoop hready]
        exact herased.trans (runLoop_fades herased.bare id)
    · rw [next_not_ready hready]
      exact .refl h
  | clock time =>
    obtain ⟨timers, ready, hclock⟩ := moveClock_eq s time
    show Fades s (s.moveClock time)
    rw [hclock]
    exact .same h rfl rfl rfl rfl rfl rfl
  | collect _ | forget _ | idle _ => exact .same h rfl rfl rfl rfl rfl rfl

/-! ## The reset -/

/-- A reset leaves a manager bare, and what is under way as it is. -/
theorem reset_fades (hs : s.Looping) (hheld : s.held = true) : Fades s (s.next (.call .reset)) := by
  have heasing : Easing s s.stopPolling := stopPolling_easing hs.few
  have hpoller := stopPolling_poller s
  have hcleared : Fades s s.cleared := by
    refine ⟨⟨rfl, rfl, hpoller, fun {id l} hl => ?_⟩, fun f owner hf => ?_, ?_, ?_⟩
    · refine (Bool.not_eq_false _).mp fun hgoing => ?_
      cases hpoller.symm.trans (((hs.easing heasing).going hl).mp hgoing)
    · have hf : s.stopPolling.AnswersTo f owner := hf
      exact (AnswersTo.same (by rw [heasing.flights])).mp hf
    · exact heasing.trace ▸ List.suffix_rfl
    · have hnone : since s s.cleared = [] := since_same heasing.trace
      rw [hnone]
      exact fun _ hk => absurd hk List.not_mem_nil
  show Fades s (s.perform .reset).1
  rw [perform_eq hheld, act_eq]
  rcases performWith_reset act s with h | ⟨k, h⟩ <;> rw [h]
  · exact hcleared
  · exact hcleared.trans (.note hcleared.bare rfl)

/-- A manager as it is made, but for health and what is under way. -/
structure AsNew (s : Manager) : Prop where
  connections : s.pool.registry.connections = []
  current : s.pool.registry.current = none
  timeout : s.pool.registry.timeoutMs = 5000
  autoSwitch : s.pool.registry.autoSwitch = true
  subscribers : s.subscribers = []
  polling : s.isPolling = false

theorem Bare.asNew (h : s.Bare) : s.AsNew where
  connections := congrArg Registry.connections h.registry
  current := congrArg Registry.current h.registry
  timeout := congrArg Registry.timeoutMs h.registry
  autoSwitch := congrArg Registry.autoSwitch h.registry
  subscribers := h.subscribers
  polling := congrArg Option.isSome h.poller

/-- A probe starts in a turn of its own, as one of the batch that its operation waits for. -/
theorem Tended.probe_starts (hs : s.Tended) {k : Moment} {c : Connection} {timeoutMs : UInt32}
    (hk : k ∈ since s (s.next m)) (hstarted : k.event = .probeStarted c timeoutMs) :
    ∃ f i p, m = .turn (.probe f i) ∧ s.probe? f i = some p ∧ p.connection = c := by
  have hentry : (c, timeoutMs) ∈ (since s (s.next m)).filterMap (·.event.startedWith?) :=
    List.mem_filterMap.mpr ⟨k, hk, Event.startedWith?_eq_some.mpr hstarted⟩
  rw [started_entries] at hentry
  obtain ⟨a, ha, heq⟩ := List.mem_map.mp hentry
  cases hturning : s.turning m with
  | none =>
    rw [startsIn_none hturning] at ha
    exact absurd ha List.not_mem_nil
  | some p =>
    obtain ⟨f, i, state, rfl, hready, hp, hopen, hstep⟩ := turning_step hs hturning
    obtain ⟨rfl, _⟩ := mem_more (next_entries hready hp hstep) (hstep.turned hp hopen) ha
    exact ⟨f, i, p, rfl, hp, congrArg Prod.fst heq⟩

/-- From a reset to the next call of the user, whatever is under way and however it goes on: the
manager is as new, no listener is called, and a probe that starts belongs to an operation that was
under way at the reset. -/
theorem reset_lasts (h : Reachable s) (hheld : s.held = true) {moves : List Move}
    (hmoves : ∀ m ∈ moves, m.spontaneous = true)
    (ht : t = moves.foldl next (s.next (.call .reset))) :
    AsNew t ∧ (∀ k ∈ since s t, k.pool.registry = .empty ∧ k.event.told? = none) ∧
    ∀ m : Move, m.spontaneous = true → ∀ k ∈ since t (t.next m), ∀ c timeoutMs,
      k.event = .probeStarted c timeoutMs →
      ∃ f i p owner, m = .turn (.probe f i) ∧ t.probe? f i = some p ∧ p.connection = c ∧
        t.AnswersTo f owner ∧ s.AnswersTo f owner := by
  have hfades : Fades s t := by
    subst ht
    refine List.foldlRecOn (motive := Fades s) moves next (reset_fades h.looping hheld) ?_
    exact fun u hu m hm => hu.trans (next_fades hu.bare (hmoves m hm))
  have htended : t.Tended := ht ▸ ((h.next (.call .reset)).foldl moves).tended
  refine ⟨hfades.bare.asNew, hfades.unheard, fun m _ k hk c timeoutMs hstarted => ?_⟩
  obtain ⟨f, i, p, rfl, hp, hc⟩ := htended.probe_starts hk hstarted
  obtain ⟨owner, options, stage, probes, hflight, _⟩ := probe?_some hp
  have hanswers : t.AnswersTo f owner := answersTo_iff.mpr ⟨_, hflight⟩
  exact ⟨f, i, p, owner, rfl, hp, hc, hanswers, hfades.flights f owner hanswers⟩

/-- A search has found no answer from B, and an iteration has both before it. -/
def searching : List Move :=
  [.call (.add { uri := "A" } none), .call (.add { uri := "B", priority := 1 } none),
    .call (.select (some "A")), .call (.addListener "log" [] 0), .call (.setTimeout 70),
    .call (.startPolling { periodMs := 10, pollType := .all } []), .await (.bestAvailable []),
    .turn (.loop 0), .turn (.probe 1 0)]

/-- The search goes on to A, and the iteration probes B. -/
def aftermath : List Move := [.turn (.flight 1), .turn (.probe 2 1)]

theorem reset_amid_search :
    let s := searching.foldl next (idle ⟨[("A", ⟨[], some .hang⟩)]⟩ true)
    let t := aftermath.foldl next (s.next (.call .reset))
    Reachable s ∧ s.held = true ∧ s.isPolling = true ∧ s.subscribers = ["log"] ∧
    AsNew t ∧ (∀ k ∈ since s t, k.pool.registry = .empty ∧ k.event.told? = none) ∧
    (since t (t.next (.turn (.probe 1 0)))).filterMap (·.event.startedWith?) =
      [(⟨0, { uri := "A" }⟩, 5000)] ∧
    (∃ owner, s.AnswersTo 1 owner ∧ t.AnswersTo 1 owner) := by
  intro s t
  have hreachable : Reachable s := (Reachable.new _ true []).foldl searching
  have hheld : s.held = true := by decide +kernel
  have hstarts : (since t (t.next (.turn (.probe 1 0)))).filterMap (·.event.startedWith?) =
      [(⟨0, { uri := "A" }⟩, 5000)] := by decide +kernel
  obtain ⟨hnew, hunheard, hprobes⟩ := reset_lasts (t := t) hreachable hheld (by decide) rfl
  obtain ⟨k, hk, hstarted⟩ := List.mem_filterMap.mp (hstarts ▸ List.mem_singleton_self _)
  obtain ⟨f, i, p, owner, hm, -, -, hanswers, hbefore⟩ :=
    hprobes _ rfl k hk _ _ (Event.startedWith?_eq_some.mp hstarted)
  cases hm
  exact ⟨hreachable, hheld, by decide +kernel, by decide +kernel, hnew, hunheard, hstarts, owner,
    hbefore, hanswers⟩

end Manager

end RpcPool

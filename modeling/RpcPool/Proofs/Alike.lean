import RpcPool.Proofs.Solo

/-!
# Managers that are alike

Two managers are alike if nobody can tell them apart who asks them, listens to them or looks at what
has been announced, noted and answered so far. They may differ in the clock, in the network and in
the tasks that are to run, and in the order in which probes have ended. What an operation does
between two batches depends on nothing of that.

Results:
1. `Alike.announceWith`: listeners that only observe hear and ask the same.
2. `Alike.begin`, `Alike.resume`: an operation goes on in the same way from managers that are alike,
   and leaves them alike.
3. `Alike.land`: it comes to the same end.
-/

namespace RpcPool

/-- What an event tells, apart from the turns of probes and the time that was taken. -/
def Event.news? : Event → Option Event
  | .probeStarted .. => none
  | .probeEnded .. => none
  | .polled iteration _ connected => some (.polled iteration 0 connected)
  | e => some e

theorem Event.told?_news (e : Event) : e.told? = e.news?.bind Event.told? := by
  cases e <;> rfl

namespace Pool

variable {p q r : Pool}

/-- Two pools with the same registry that know the same of each connection. -/
structure Alike (p q : Pool) : Prop where
  registry : p.registry = q.registry
  health : p.health.get = q.health.get

theorem Alike.refl (p : Pool) : p.Alike p := ⟨rfl, rfl⟩

theorem Alike.symm (h : p.Alike q) : q.Alike p := ⟨h.registry.symm, h.health.symm⟩

theorem Alike.trans (h : p.Alike q) (h' : q.Alike r) : p.Alike r :=
  ⟨h.registry.trans h'.registry, h.health.trans h'.health⟩

theorem Alike.healthOf (h : p.Alike q) (c : Connection) : p.healthOf c = q.healthOf c :=
  congrFun h.health c.id

theorem Alike.isUp (h : p.Alike q) (c : Connection) : p.isUp c = q.isUp c :=
  congrArg Health.connected (h.healthOf c)

theorem Alike.connected (h : p.Alike q) : p.connected = q.connected := by
  unfold Pool.connected
  rw [h.registry, funext h.isUp]

theorem Alike.switch (h : p.Alike q) (target : Connection) (reason : SwitchReason) :
    (p.switch target reason).1.Alike (q.switch target reason).1 ∧
      (p.switch target reason).2 = (q.switch target reason).2 := by
  unfold Pool.switch
  rw [h.registry]
  obtain ⟨r, change⟩ := q.registry.switchTo target
  cases change with
  | unchanged => exact ⟨h, rfl⟩
  | changed current => exact ⟨⟨rfl, h.health⟩, rfl⟩

theorem Alike.failover (h : p.Alike q) (watched target : Connection) :
    (p.failover watched target).1.Alike (q.failover watched target).1 ∧
      (p.failover watched target).2 = (q.failover watched target).2 := by
  unfold Pool.failover
  rw [h.registry]
  split
  · exact h.switch target .lost
  · exact ⟨h, rfl⟩

theorem Alike.reconnect (h : p.Alike q) (target : Connection) :
    (p.reconnect target).1.Alike (q.reconnect target).1 ∧
      (p.reconnect target).2 = (q.reconnect target).2 := by
  unfold Pool.reconnect
  rw [h.connected]
  split
  · exact ⟨h, rfl⟩
  · exact h.switch target .disconnected

theorem Alike.improve (h : p.Alike q) :
    p.improve.1.Alike q.improve.1 ∧ p.improve.2 = q.improve.2 := by
  unfold Pool.improve
  rw [h.health, h.registry]
  split
  · next d _ => exact h.switch d .better
  · exact ⟨h, rfl⟩

end Pool

namespace Manager

variable {s t a b c : Manager} {f : FlightId} {r r' : Pool × Option Switch}

/-- What has happened, apart from the turns of probes, the latest first. -/
def news (s : Manager) : List Event := s.trace.filterMap (·.event.news?)

/-- Two managers that nobody can tell apart. -/
structure Alike (a b : Manager) : Prop where
  pool : a.pool.Alike b.pool
  subscribers : a.subscribers = b.subscribers
  listeners : a.listeners = b.listeners
  labels : a.labels = b.labels
  held : a.held = b.held
  loops : a.loops = b.loops
  answers : a.answers = b.answers
  news : a.news = b.news

theorem Alike.refl (s : Manager) : Alike s s := ⟨.refl s.pool, rfl, rfl, rfl, rfl, rfl, rfl, rfl⟩

theorem Alike.symm (h : Alike a b) : Alike b a :=
  ⟨h.pool.symm, h.subscribers.symm, h.listeners.symm, h.labels.symm, h.held.symm, h.loops.symm,
    h.answers.symm, h.news.symm⟩

theorem Alike.trans (h : Alike a b) (h' : Alike b c) : Alike a c :=
  ⟨h.pool.trans h'.pool, h.subscribers.trans h'.subscribers, h.listeners.trans h'.listeners,
    h.labels.trans h'.labels, h.held.trans h'.held, h.loops.trans h'.loops,
    h.answers.trans h'.answers, h.news.trans h'.news⟩

theorem Alike.observing (h : Alike a b) (ha : a.Observing) : b.Observing := by
  unfold Observing
  rw [← h.subscribers, ← h.listeners]
  exact ha

theorem Alike.shown (h : Alike a b) (c : Connection) : a.shown c = b.shown c := by
  unfold Manager.shown labelOf
  rw [h.labels]

theorem Alike.found (h : Alike a b) (c : Option Connection) : a.found c = b.found c := by
  unfold Manager.found
  rw [funext h.shown]

theorem Alike.groups (h : Alike a b) : a.groups = b.groups :=
  congrArg (fun r : Registry => Selection.groups r.connections) h.pool.registry

/-! ## Notifications -/

theorem news_record (s : Manager) (e : Event) : (s.record e).news = e.news?.toList ++ s.news := by
  show List.filterMap (·.event.news?) (⟨s.now, s.pool, e⟩ :: s.trace) = _
  rw [List.filterMap_cons]
  dsimp only
  cases e.news? <;> rfl

theorem Alike.note (h : Alike a b) {e e' : Event} (he : e.news? = e'.news?) :
    Alike (a.record e) (b.record e') :=
  { h with news := by rw [news_record, news_record, he, h.news] }

theorem Alike.record (h : Alike a b) (e : Event) : Alike (a.record e) (b.record e) := h.note rfl

theorem Alike.label (h : Alike a b) (label : Option String) (c : Connection) :
    Alike (a.label label c) (b.label label c) := by
  cases label with
  | none => exact h
  | some l => exact { h with labels := congrArg (upsert l c) h.labels }

/-- A question is answered in the same way. -/
theorem Alike.act (h : Alike a b) {c : Call} (hc : c.observes = true) :
    Alike (act a c).1 (act b c).1 ∧ (act a c).2 = (act b c).2 := by
  rw [act_eq, act_eq]
  cases c with
  | get uri label =>
    dsimp only [performWith]
    rw [h.pool.registry]
    cases b.pool.registry.get? uri with
    | none => exact ⟨h, rfl⟩
    | some c =>
      refine ⟨h.label label c, ?_⟩
      dsimp only
      rw [h.pool.healthOf c]
  | has uri =>
    dsimp only [performWith]
    rw [h.pool.registry]
    exact ⟨h, rfl⟩
  | _ => exact absurd hc (by simp [Call.observes])

theorem Alike.foldl_reactWith {calls : List Call} (h : Alike a b)
    (hcalls : ∀ c ∈ calls, c.observes = true) :
    Alike (calls.foldl (reactWith Manager.act) a) (calls.foldl (reactWith Manager.act) b) := by
  induction calls generalizing a b with
  | nil => exact h
  | cons c rest ih =>
    obtain ⟨hacted, hreply⟩ := h.act (hcalls c List.mem_cons_self)
    refine ih ?_ fun d hd => hcalls d (List.mem_cons_of_mem _ hd)
    unfold reactWith
    dsimp only
    rw [hreply]
    exact hacted.record _

theorem Alike.deliverWith (h : Alike a b) (ha : a.Observing) {name : String}
    (hname : name ∈ a.subscribers) (current : Option Connection) :
    Alike (deliverWith Manager.act current a name) (deliverWith Manager.act current b name) := by
  have hnoted := h.record (.notified name current)
  unfold Manager.deliverWith
  rw [← h.held]
  split
  · dsimp only
    rw [show (b.record (.notified name current)).listeners = a.listeners from h.listeners.symm,
      show (a.record (.notified name current)).listeners = a.listeners from rfl]
    split
    · next calls rest hl =>
      refine Alike.foldl_reactWith ?_ (ha name hname _ hl calls List.mem_cons_self)
      exact { hnoted with listeners := rfl }
    · exact hnoted
  · exact h

theorem Alike.announceWith (h : Alike a b) (ha : a.Observing) (current : Option Connection) :
    Alike (announceWith Manager.act a current) (announceWith Manager.act b current) := by
  have hdeliver (names : List String) {a b : Manager} (h : Alike a b) (ha : a.Observing)
      (hnames : ∀ name ∈ names, name ∈ a.subscribers) :
      Alike (names.foldl (Manager.deliverWith Manager.act current) a)
        (names.foldl (Manager.deliverWith Manager.act current) b) := by
    induction names generalizing a b with
    | nil => exact h
    | cons name rest ih =>
      have hname := hnames name List.mem_cons_self
      obtain ⟨houtline, hobserving⟩ := deliverWith_observes ha hname current
      have hsubscribers := congrArg Manager.subscribers houtline
      exact ih (h.deliverWith ha hname current) hobserving fun other hother =>
        hsubscribers ▸ hnames other (List.mem_cons_of_mem _ hother)
  unfold Manager.announceWith
  rw [← h.subscribers]
  exact hdeliver a.subscribers (h.record _) ha fun _ h => h

/-! ## Between two batches -/

theorem Alike.publishStatus (h : Alike a b) (ha : a.Observing) (probed : List (Connection × Bool)) :
    Alike (a.publishStatus probed) (b.publishStatus probed) := by
  unfold Manager.publishStatus
  rw [h.pool.registry]
  split
  · exact h
  · next current _ =>
    split
    · rw [announce_eq, announce_eq]
      exact h.announceWith ha (some current)
    · exact h

theorem Alike.follow (h : Alike a b) (ha : a.Observing) (hr : r.1.Alike r'.1 ∧ r.2 = r'.2) :
    Alike (a.follow r) (b.follow r') := by
  obtain ⟨q, w⟩ := r
  obtain ⟨q', w'⟩ := r'
  obtain ⟨hpool, hmove⟩ := hr
  have hmove : w = w' := hmove
  subst hmove
  rw [follow_eq, follow_eq]
  cases w with
  | none => exact h
  | some w =>
    have hmoved : Alike { a with pool := q } { b with pool := q' } := { h with pool := hpool }
    have hobserving : (({ a with pool := q } : Manager).record (.switched w)).Observing := ha
    exact (hmoved.record (.switched w)).announceWith hobserving (some w.target)

theorem Alike.rank (h : Alike a b) (ha : a.Observing) (options : CheckOptions)
    (probed : List (Connection × Bool)) :
    Alike (a.rank options probed).1 (b.rank options probed).1 ∧
      (a.rank options probed).2 = (b.rank options probed).2 := by
  have hpublished := h.publishStatus ha probed
  have hobserving := (publishStatus_outline ha probed).2
  unfold Manager.rank
  dsimp only
  rw [hpublished.pool.health]
  generalize a.publishStatus probed = a' at hpublished hobserving
  generalize b.publishStatus probed = b' at hpublished
  split
  · refine ⟨?_, rfl⟩
    cases Selection.firstConnected b'.pool.health.get (probed.map (·.1)) with
    | none => exact hpublished.follow hobserving hpublished.pool.improve
    | some c =>
      have hreconnected := hpublished.follow hobserving (hpublished.pool.reconnect c)
      have hstill := (follow_outline hobserving (r := a'.pool.reconnect c) Pool.reconnect_none).2
      exact hreconnected.follow hstill hreconnected.pool.improve
  · exact ⟨hpublished, rfl⟩

theorem Alike.sweep (h : Alike a b) (ha : a.Observing) (options : CheckOptions)
    (excluded : List Connection) (groups : List (List Connection)) :
    Alike (a.sweep options excluded groups).1 (b.sweep options excluded groups).1 ∧
      (a.sweep options excluded groups).2 = (b.sweep options excluded groups).2 := by
  induction groups generalizing a b with
  | nil => exact ⟨h, rfl⟩
  | cons g later ih =>
    obtain ⟨hranked, hfound⟩ := h.rank ha options []
    have hobserving := (rank_steered ha options []).observing
    unfold Manager.sweep
    dsimp only
    split
    · rw [hfound]
      split
      · exact ⟨hranked, rfl⟩
      · exact ih hranked hobserving
    · exact ⟨h, rfl⟩

theorem Alike.beginStatus (h : Alike a b) (options : CheckOptions) :
    a.beginStatus options = b.beginStatus options := by
  unfold Manager.beginStatus
  rw [h.pool.registry]

theorem Alike.beginRanking (h : Alike a b) (ha : a.Observing) (options : CheckOptions)
    (conns excluded : List Connection) :
    Alike (a.beginRanking options conns excluded).1 (b.beginRanking options conns excluded).1 ∧
      (a.beginRanking options conns excluded).2 = (b.beginRanking options conns excluded).2 := by
  obtain ⟨hranked, hfound⟩ := h.rank ha options []
  unfold Manager.beginRanking
  dsimp only
  split
  · exact ⟨hranked, by rw [hfound]⟩
  · exact ⟨h, rfl⟩

/-- An operation begins in the same way. -/
theorem Alike.begin (h : Alike a b) (ha : a.Observing) (op : Operation) :
    Alike (a.begin op).1 (b.begin op).1 ∧ (a.begin op).2 = (b.begin op).2 := by
  have hdefault : a.defaultOptions = b.defaultOptions := by
    unfold defaultOptions
    rw [h.pool.registry]
  cases op with
  | checkConnection =>
    dsimp only [Manager.begin]
    rw [hdefault, h.beginStatus]
    exact ⟨h, rfl⟩
  | checkConnections conns excluded =>
    dsimp only [Manager.begin]
    rw [hdefault]
    exact h.beginRanking ha b.defaultOptions conns excluded
  | bestAvailable excluded =>
    dsimp only [Manager.begin]
    rw [hdefault, h.groups, h.found]
    split
    · exact ⟨h, rfl⟩
    · exact ⟨h, rfl⟩
  | poll o =>
    have hoptions : a.pollOptions o = b.pollOptions o := by
      unfold Manager.pollOptions
      rw [h.pool.registry]
    dsimp only [Manager.begin]
    rw [hoptions, h.beginStatus, h.groups, h.pool.registry]
    cases o.pollType with
    | current => exact ⟨h, rfl⟩
    | all => exact h.beginRanking ha (b.pollOptions o) b.pool.registry.connections o.excluded
    | prioritized => exact h.sweep ha (b.pollOptions o) o.excluded b.groups

/-- An operation goes on in the same way. -/
theorem Alike.resume (h : Alike a b) (ha : a.Observing) (options : CheckOptions) (stage : Stage)
    (probed : List (Connection × Bool)) :
    Alike (a.resume options stage probed).1 (b.resume options stage probed).1 ∧
      (a.resume options stage probed).2 = (b.resume options stage probed).2 := by
  have hpublished := h.publishStatus ha probed
  have hobserving := (publishStatus_outline ha probed).2
  cases stage with
  | status watched =>
    dsimp only [Manager.resume]
    rw [hpublished.pool.isUp, hpublished.groups]
    split
    · split
      · exact ⟨hpublished, rfl⟩
      · exact ⟨hpublished, rfl⟩
    · exact ⟨hpublished, rfl⟩
  | failover watched changed q =>
    dsimp only [Manager.resume]
    rw [hpublished.pool.health]
    split
    · next best _ =>
      exact ⟨hpublished.follow hobserving (hpublished.pool.failover watched best), rfl⟩
    · split
      · exact ⟨hpublished, rfl⟩
      · exact ⟨hpublished, rfl⟩
  | search q =>
    dsimp only [Manager.resume]
    rw [hpublished.pool.health, funext hpublished.found]
    split
    · exact ⟨hpublished, rfl⟩
    · split
      · exact ⟨hpublished, rfl⟩
      · exact ⟨hpublished, rfl⟩
  | ranking =>
    obtain ⟨hranked, hfound⟩ := h.rank ha options probed
    exact ⟨hranked, congrArg (fun found => Progress.done (.flag found)) hfound⟩
  | sweep q =>
    obtain ⟨hranked, hfound⟩ := h.rank ha options probed
    have hobserving := (rank_steered ha options probed).observing
    dsimp only [Manager.resume]
    rw [hfound]
    split
    · exact ⟨hranked, rfl⟩
    · exact hranked.sweep hobserving options q.excluded q.later

/-! ## The end of an operation -/

/-- Two managers in which an operation has come to the same end. -/
structure Concur (f : FlightId) (s t : Manager) : Prop where
  pool : s.pool.Alike t.pool
  answer : s.answers.lookup f = t.answers.lookup f
  news : s.news = t.news

theorem Alike.release (h : Alike a b) (f : FlightId) : Concur f a.release b.release := by
  obtain ⟨poller, loops, timers, ready, ha⟩ := release_eq a
  obtain ⟨poller', loops', timers', ready', hb⟩ := release_eq b
  rw [ha, hb]
  exact ⟨h.pool, congrArg (List.lookup f) h.answers, h.news⟩

theorem Alike.land (h : Alike a b) (f : FlightId) (owner : Owner) (reply : Reply) :
    Concur f (a.land f owner reply) (b.land f owner reply) := by
  have hgone : Alike { a with flights := without f a.flights }
    { b with flights := without f b.flights } := { h with }
  have hanswered : Alike
      { a with flights := without f a.flights, answers := upsert f reply a.answers }
      { b with flights := without f b.flights, answers := upsert f reply b.answers } :=
    { h with answers := congrArg (upsert f reply) h.answers }
  have hloop {a b : Manager} (h : Alike a b) (ready ready' : List Task) :
      Concur f { a.release with ready := ready } { b.release with ready := ready' } :=
    { h.release f with }
  unfold Manager.land
  cases owner with
  | caller => exact hanswered.release f
  | task => exact hanswered.release f
  | loop id =>
    have hlookup : b.loops.lookup id = a.loops.lookup id := by rw [h.loops]
    have hpolled (l : PollLoop) :
        (Event.polled l.iterations (a.now - l.began) a.pool.connected).news? =
          (Event.polled l.iterations (b.now - l.began) b.pool.connected).news? := by
      unfold Event.news?
      rw [h.pool.connected]
    dsimp only
    rw [hlookup]
    cases a.loops.lookup id with
    | none => exact hgone.release f
    | some l =>
      cases reply with
      | broken broken => exact hloop (hgone.record (.pollFailed l.iterations broken)) _ _
      | _ => exact hloop (hgone.note (hpolled l)) _ _

end Manager

end RpcPool

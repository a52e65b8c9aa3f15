import RpcPool.Proofs.Overtaken

/-!
# Chores

All that a manager does besides taking turns with probes and batches comes down to a few chores: it
notes an event, changes the pool, the names, the listeners or the network, starts or stops polling,
or puts an operation in the queue. Calls and rounds of notifications are made of chores, and so is
what an operation does between two batches. No chore touches a probe that is under way, or the task
of one.

Results:
1. `act_chores`, `announceWith_chores`: calls and notifications.
2. `begin_chores`, `resume_chores`: operations between two batches.
3. `Chores.lasting`, `land_lasting`: what is left alone by chores, and by the end of an operation.
4. `Undertakes.begins_on`: however an operation begins, it is prepared by bookkeeping only.
-/

namespace RpcPool

/-- Whether a task is a probe of a batch. -/
def Task.isProbe : Task → Bool
  | .probe .. => true
  | _ => false

/-- The iteration of a poll loop whose end is noted, by its number. -/
def Event.iteration? : Event → Option Nat
  | .polled n _ _ => some n
  | .pollFailed n _ => some n
  | _ => none

namespace Manager

open Relation

variable {K : Connection → Prop} {inner : Performer} {s t u : Manager} {f : FlightId}
  {op : Operation}

/-! ## Calls and notifications -/

/-- One chore. The end of an iteration is noted by none. -/
inductive Chore (s : Manager) : Manager → Prop
  | note (e : Event) : e.iteration? = none → Chore s (s.record e)
  | adopt (q : Pool) : Chore s { s with pool := q }
  | name (made : List Endpoint) (labels : List (String × Connection)) :
      Chore s { s with made := made, labels := labels }
  | listen (subscribers : List String) (listeners : List (String × Listener)) :
      Chore s { s with subscribers := subscribers, listeners := listeners }
  | script (network : Network) : Chore s { s with network := network }
  | giveUp : Chore s { s with held := false }
  | stopPolling : Chore s s.stopPolling
  | startPolling {o : PollOptions} {t : Manager} : s.startPolling o = .ok t → Chore s t
  | spawn (name : String) (op : Operation) : Chore s ({ s with
      nextId := s.nextId + 1
      started := s.started + 1
      flights := upsert s.nextId ⟨.task, .queued op⟩ s.flights
      tasks := upsert name s.nextId s.tasks }.wake (.flight s.nextId))

abbrev Chores : Manager → Manager → Prop := ReflTransGen Chore

theorem deliverWith_chores (hinner : ∀ s c, Chores s (inner s c).1) (k : Option Connection)
    (s : Manager) (name : String) : Chores s (deliverWith inner k s name) := by
  have hreact (calls : List Call) (t : Manager) : Chores t (calls.foldl (reactWith inner) t) := by
    induction calls generalizing t with
    | nil => exact .refl
    | cons c rest ih => exact ((hinner t c).tail (.note _ rfl)).trans (ih _)
  unfold deliverWith
  split
  · have hnote : Chores s (s.record (.notified name k)) := .single (.note _ rfl)
    dsimp only
    split
    · next calls rest _ => exact (hnote.tail (.listen s.subscribers _)).trans (hreact calls _)
    · exact hnote
  · exact .refl

theorem announceWith_chores (hinner : ∀ s c, Chores s (inner s c).1) (s : Manager)
    (k : Option Connection) : Chores s (announceWith inner s k) := by
  have hdeliver (names : List String) (t : Manager) :
      Chores t (names.foldl (deliverWith inner k) t) := by
    induction names generalizing t with
    | nil => exact .refl
    | cons name rest ih => exact (deliverWith_chores hinner k t name).trans (ih _)
  exact .head (.note _ rfl) (hdeliver s.subscribers _)

theorem applyWith_chores (hinner : ∀ s c, Chores s (inner s c).1) (s : Manager)
    (r : Registry × Change) : Chores s (applyWith inner s r) := by
  obtain ⟨registry, change⟩ := r
  cases change with
  | unchanged => exact .single (.adopt _)
  | changed k => exact .head (.adopt _) (announceWith_chores hinner _ k)

theorem settleWith_chores (hinner : ∀ s c, Chores s (inner s c).1) (s : Manager)
    (r : Except PoolError (Registry × Change)) : Chores s (settleWith inner s r).1 := by
  cases r with
  | error e => exact .refl
  | ok r => exact applyWith_chores hinner s r

theorem followWith_chores (hinner : ∀ s c, Chores s (inner s c).1) (s : Manager)
    (r : Pool × Option Switch) : Chores s (followWith inner s r) := by
  obtain ⟨q, w⟩ := r
  cases w with
  | none => exact .refl
  | some w => exact .head (.adopt q) (.head (.note _ rfl) (announceWith_chores hinner _ _))

theorem label_chores (s : Manager) (label : Option String) (c : Connection) :
    Chores s (s.label label c) := by
  obtain ⟨labels, hlabel⟩ := label_eq s label c
  rw [hlabel]
  exact .single (.name s.made labels)

theorem register_chores (s : Manager) (e : Endpoint) (label : Option String) :
    Chores s (s.register e label).1 := by
  obtain ⟨made, connections, labels, hregister⟩ := register_eq s e label
  rw [hregister]
  exact .head (.adopt _) (.single (.name made labels))

theorem release_chores (s : Manager) : Chores s s.release := by
  unfold release
  split
  · exact .refl
  · exact .single .stopPolling

theorem performWith_chores (hinner : ∀ s c, Chores s (inner s c).1) (s : Manager) (c : Call) :
    Chores s (performWith inner s c).1 := by
  cases c with
  | make e label => exact .head (.name _ s.labels) (label_chores (s.instantiate e).1 label _)
  | add e label => exact register_chores s e label
  | addUri uri label => exact register_chores s { uri } label
  | remove uri => exact settleWith_chores hinner s _
  | select name =>
    dsimp only [performWith]
    split
    · exact applyWith_chores hinner s _
    · exact settleWith_chores hinner s _
  | selectUri uri => exact .head (.name _ s.labels) (settleWith_chores hinner _ _)
  | disconnect => exact applyWith_chores hinner s _
  | clear => exact applyWith_chores hinner s _
  | reset =>
    have hstop : Chores s { s.stopPolling with subscribers := [] } :=
      .head .stopPolling (.single (.listen [] s.stopPolling.listeners))
    exact hstop.trans (applyWith_chores hinner _ _)
  | setAutoSwitch on => exact .single (.adopt _)
  | setTimeout ms =>
    dsimp only [performWith]
    split
    · exact .refl
    · exact .single (.adopt _)
  | get uri label =>
    dsimp only [performWith]
    split
    · exact .refl
    · exact label_chores s label _
  | has uri => exact .refl
  | observe name outcome =>
    dsimp only [performWith]
    split
    · exact .refl
    · exact .head (.adopt _) (.single (.note _ rfl))
  | improve => exact followWith_chores hinner s _
  | script uri fallback queue => exact .single (.script _)
  | addListener name reaction times => exact .single (.listen _ _)
  | removeListener name =>
    dsimp only [performWith]
    split
    · exact .single (.listen _ s.listeners)
    · exact .refl
  | removeListeners => exact .single (.listen _ s.listeners)
  | startPolling options excluded =>
    dsimp only [performWith]
    split
    · exact .refl
    · next t ht => exact .single (.startPolling ht)
  | startConfigured polling =>
    dsimp only [performWith]
    split
    · exact .refl
    · next t ht => exact .single (.startPolling ht)
  | stopPolling => exact .single .stopPolling
  | spawn name request => exact .single (.spawn name (s.operation request))
  | drop => exact .head .giveUp (release_chores _)

theorem act_chores (s : Manager) (c : Call) : Chores s (act s c).1 := by
  have hdepth (depth : Nat) (s : Manager) (c : Call) : Chores s (performTo depth s c).1 := by
    induction depth generalizing s c with
    | zero => exact .refl
    | succ depth ih => exact performWith_chores ih s c
  exact hdepth _ s c

theorem perform_chores (s : Manager) (c : Call) : Chores s (s.perform c).1 := by
  by_cases hheld : s.held = true
  · rw [perform_eq hheld]
    exact act_chores s c
  · unfold perform
    rw [if_neg hheld]

theorem ofConfig_chores {config : Config} {network : Network} {hasRuntime : Bool}
    (h : ofConfig config network hasRuntime = .ok s) : Chores (idle network hasRuntime) s := by
  have hentries (entries : List Config.Entry) (a b : Manager) (h : a.registerAll entries = .ok b) :
      Chores a b := by
    induction entries generalizing a with
    | nil =>
      cases h
      exact .refl
    | cons e rest ih =>
      unfold registerAll at h
      dsimp only at h
      split at h
      · exact absurd h (by simp)
      · next r _ => exact .head (.name _ a.labels) (.head (.adopt _) (ih _ h))
  unfold ofConfig at h
  split at h
  · exact absurd h (by simp)
  · dsimp only at h
    split at h
    · exact absurd h (by simp)
    · next t ht =>
      have hregistered : Chores (idle network hasRuntime) t := .head (.adopt _) (hentries _ _ _ ht)
      split at h
      · exact hregistered.tail (.startPolling h)
      · cases h
        exact hregistered

/-! ## Operations between two batches -/

theorem FollowStretch.chores (h : FollowStretch s t) : Chores s t := by
  induction h with
  | refl => exact .refl
  | @tail a _ _ hmove ih =>
    obtain ⟨q, w, _, rfl⟩ := hmove
    exact (ih.tail (.adopt q)).trans (.head (.note _ rfl) (announceWith_chores act_chores _ _))

theorem publishStatus_chores (s : Manager) (probed : List (Connection × Bool)) :
    Chores s (s.publishStatus probed) := by
  unfold publishStatus
  split
  · exact .refl
  · split
    · rw [announce_eq]
      exact announceWith_chores act_chores s _
    · exact .refl

theorem begin_chores (s : Manager) (op : Operation) : Chores s (s.begin op).1 :=
  (begin_followed s op).chores

theorem resume_chores (s : Manager) (options : CheckOptions) (stage : Stage)
    (probed : List (Connection × Bool)) : Chores s (s.resume options stage probed).1 :=
  (publishStatus_chores s probed).trans (resume_followed s options stage probed).chores

/-! ## What chores leave alone -/

/-- Time has not passed, and no batch and no task of a probe has been touched. Numbers are given out
in order; operations that were put in the queue have new ones. -/
structure Lasting (s t : Manager) : Prop where
  now : t.now = s.now
  nextId : s.nextId ≤ t.nextId
  started : s.started ≤ t.started
  flights : ∀ f, t.flights.lookup f = s.flights.lookup f ∨
    s.nextId ≤ f ∧ f < t.nextId ∧ ∃ owner op, t.flights.lookup f = some ⟨owner, .queued op⟩
  ready : t.ready.filter Task.isProbe = s.ready.filter Task.isProbe
  woken : ∀ f, .flight f ∈ s.ready → .flight f ∈ t.ready
  timers : t.timers.filter (·.2.isProbe) = s.timers.filter (·.2.isProbe)

theorem Lasting.same (hnow : t.now = s.now) (hnextId : t.nextId = s.nextId)
    (hstarted : s.started ≤ t.started) (hflights : t.flights = s.flights)
    (hready : t.ready = s.ready) (htimers : t.timers = s.timers) : Lasting s t where
  now := hnow
  nextId := Nat.le_of_eq hnextId.symm
  started := hstarted
  flights _ := Or.inl (hflights ▸ rfl)
  ready := hready ▸ rfl
  woken _ hf := hready ▸ hf
  timers := htimers ▸ rfl

theorem Lasting.refl (s : Manager) : Lasting s s := .same rfl rfl (Nat.le_refl _) rfl rfl rfl

theorem Lasting.trans (h : Lasting s t) (h' : Lasting t u) : Lasting s u where
  now := h'.now.trans h.now
  nextId := Nat.le_trans h.nextId h'.nextId
  started := Nat.le_trans h.started h'.started
  flights f := by
    rcases h'.flights f with hsame | ⟨hle, hlt, hqueued⟩
    · rcases h.flights f with hbefore | ⟨hle, hlt, hqueued⟩
      · exact Or.inl (hsame.trans hbefore)
      · exact Or.inr ⟨hle, Nat.lt_of_lt_of_le hlt h'.nextId, hsame ▸ hqueued⟩
    · exact Or.inr ⟨Nat.le_trans h.nextId hle, hlt, hqueued⟩
  ready := h'.ready.trans h.ready
  woken f hf := h'.woken f (h.woken f hf)
  timers := h'.timers.trans h.timers

/-- A task that is no probe is woken. -/
theorem wake_lasting (s : Manager) {task : Task} (h : task.isProbe = false) :
    Lasting s (s.wake task) := by
  unfold wake
  split
  · exact .refl s
  · refine ⟨rfl, Nat.le_refl _, Nat.le_refl _, fun f => Or.inl rfl, ?_, ?_, rfl⟩
    · show (s.ready ++ [task]).filter Task.isProbe = _
      rw [List.filter_append, List.filter_singleton, h]
      exact List.append_nil _
    · exact fun f hf => List.mem_append_left _ hf

theorem rouse_lasting (s : Manager) {task : Task} (h : task.isProbe = false) :
    Lasting s (s.rouse task) := by
  let roused : Manager := { s with timers := s.timers.filter fun e => !(e.2 == task) }
  have htimers : roused.timers.filter (·.2.isProbe) = s.timers.filter (·.2.isProbe) := by
    show (s.timers.filter fun e => !(e.2 == task)).filter (·.2.isProbe) = _
    rw [List.filter_filter]
    refine List.filter_congr fun e _ => ?_
    by_cases he : e.2 = task
    · simp [he, h]
    · simp [he]
  have hroused : Lasting s roused :=
    ⟨rfl, Nat.le_refl _, Nat.le_refl _, fun _ => Or.inl rfl, rfl, fun _ hf => hf, htimers⟩
  unfold rouse
  split
  · exact hroused.trans (wake_lasting roused h)
  · exact .refl s

theorem stopLoop_lasting (s : Manager) (id : LoopId) : Lasting s (s.stopLoop id) := by
  unfold stopLoop
  split
  · exact .refl s
  · next l _ =>
    have hset : Lasting s { s with loops := upsert id { l with stopped := true } s.loops } :=
      .same rfl rfl (Nat.le_refl _) rfl rfl rfl
    exact hset.trans (rouse_lasting _ rfl)

theorem stopPolling_lasting (s : Manager) : Lasting s s.stopPolling := by
  have hforget : Lasting s { s with poller := none } :=
    .same rfl rfl (Nat.le_refl _) rfl rfl rfl
  unfold stopPolling
  split
  · exact .refl s
  · exact hforget.trans (stopLoop_lasting _ _)

theorem startPolling_lasting {o : PollOptions} (h : s.startPolling o = .ok t) : Lasting s t := by
  unfold startPolling at h
  split at h
  · let set : Manager := { s.record (.pollingStarted o.periodMs o.pollType) with
      nextId := s.nextId + 1
      started := s.started + 1
      loops := upsert s.nextId ⟨o, false, 0, s.now, s.now⟩ s.loops
      poller := some s.nextId }
    have hset : Lasting s set :=
      ⟨rfl, Nat.le_succ _, Nat.le_succ _, fun f => Or.inl rfl, rfl, fun f hf => hf, rfl⟩
    have hloop : Lasting s (set.wake (.loop s.nextId)) := hset.trans (wake_lasting set rfl)
    simp only [Except.ok.injEq] at h
    rw [← h]
    split
    · exact hloop.trans (stopLoop_lasting _ _)
    · exact hloop
  · exact absurd h (by simp)

/-- A new operation is put in the queue. -/
theorem queued_lasting (s : Manager) (owner : Owner) (op : Operation) :
    Lasting s ({ s with nextId := s.nextId + 1 }.setFlight s.nextId ⟨owner, .queued op⟩) := by
  refine ⟨rfl, Nat.le_succ _, Nat.le_refl _, fun f => ?_, rfl, fun f hf => hf, rfl⟩
  by_cases hf : f = s.nextId
  · refine Or.inr ⟨Nat.le_of_eq hf.symm, hf ▸ Nat.lt_succ_self _, owner, op, ?_⟩
    rw [hf]
    exact lookup_upsert_self _ _ _
  · exact Or.inl (lookup_upsert_ne _ _ hf)

theorem Chore.lasting (h : Chore s t) : Lasting s t := by
  cases h with
  | stopPolling => exact stopPolling_lasting s
  | startPolling hstart => exact startPolling_lasting hstart
  | spawn name op =>
    let begun : Manager := { s with
      nextId := s.nextId + 1
      started := s.started + 1
      flights := upsert s.nextId ⟨.task, .queued op⟩ s.flights
      tasks := upsert name s.nextId s.tasks }
    have hcount : Lasting ({ s with nextId := s.nextId + 1 }.setFlight s.nextId
        ⟨.task, .queued op⟩) begun := .same rfl rfl (Nat.le_succ _) rfl rfl rfl
    exact ((queued_lasting s .task op).trans hcount).trans (wake_lasting begun rfl)
  | _ => exact .same rfl rfl (Nat.le_refl _) rfl rfl rfl

theorem Chores.lasting (h : Chores s t) : Lasting s t := by
  induction h with
  | refl => exact .refl s
  | tail _ hchore ih => exact ih.trans hchore.lasting

/-- The end of an operation takes it out, and leaves all others alone. -/
theorem land_lasting (s : Manager) (f : FlightId) (owner : Owner) (reply : Reply) :
    Lasting { s with flights := without f s.flights } (s.land f owner reply) := by
  have hrelease (a : Manager) : Lasting a a.release := (release_chores a).lasting
  have hanswer : Lasting { s with flights := without f s.flights }
      { s with flights := without f s.flights, answers := upsert f reply s.answers } :=
    .same rfl rfl (Nat.le_refl _) rfl rfl rfl
  -- the loop is the next task to run
  have hlast (a : Manager) (loop : LoopId) : Lasting a
      { a with ready := .loop loop :: a.ready.filter fun t => !(t == .loop loop) } := by
    refine ⟨rfl, Nat.le_refl _, Nat.le_refl _, fun f => Or.inl rfl, ?_, fun f hf => ?_, rfl⟩
    · show ((a.ready.filter fun t => !(t == .loop loop)).filter Task.isProbe) = _
      rw [List.filter_filter]
      refine List.filter_congr fun task _ => ?_
      cases task with
      | loop other => rfl
      | _ => simp [Task.isProbe]
    · exact List.mem_cons_of_mem _ (List.mem_filter.mpr ⟨hf, by simp⟩)
  unfold land
  cases owner with
  | caller => exact hanswer.trans (hrelease _)
  | task => exact hanswer.trans (hrelease _)
  | loop loop =>
    let removed : Manager := { s with flights := without f s.flights }
    have hnoted (e : Event) : Lasting removed (removed.record e).release := by
      have hrecord : Lasting removed (removed.record e) :=
        .same rfl rfl (Nat.le_refl _) rfl rfl rfl
      exact hrecord.trans (hrelease _)
    dsimp only
    split
    · exact hrelease _
    · split
      · exact (hnoted _).trans (hlast _ loop)
      · exact (hnoted _).trans (hlast _ loop)

/-! ## Beginnings -/

/-- With a move, an operation takes its first turn: the user waits for it, or it is a task of its
own, or an iteration of a poll loop. -/
inductive Undertakes (s : Manager) : Move → FlightId → Operation → Prop
  | awaited {r : Request} : s.held = true →
      Undertakes s (.await r) s.nextId (s.operation r)
  | task {f : FlightId} {owner : Owner} {op : Operation} :
      s.flights.lookup f = some ⟨owner, .queued op⟩ → .flight f ∈ s.ready →
      Undertakes s (.turn (.flight f)) f op
  | iteration {id : LoopId} {l : PollLoop} : s.loops.lookup id = some l → .loop id ∈ s.ready →
      l.stopped = false → l.due ≤ s.now →
      Undertakes s (.turn (.loop id)) s.nextId (.poll l.options)

/-- Whom an operation answers to that begins with a move. -/
def ownerOf (s : Manager) (f : FlightId) : Move → Owner
  | .await _ => .caller
  | .turn (.loop id) => .loop id
  | _ => ((s.flights.lookup f).map (·.owner)).getD .task

/-- An operation is about to begin. Nothing but what is under way has changed. -/
structure Prepared (s a : Manager) (f : FlightId) (owner : Owner) (op : Operation) : Prop where
  bookkeeping : ∃ nextId flights loops ready,
    a = { s with nextId := nextId, flights := flights, loops := loops, ready := ready }
  begun : a.flights.lookup f = some ⟨owner, .queued op⟩
  lasting : Lasting { s with ready := s.ready.erase (.flight f) } a
  numbered : f < a.nextId
  unbatched : ∀ owner options stage probes,
    s.flights.lookup f ≠ some ⟨owner, .batch options stage probes⟩

/-- The turn of a task that is no probe takes no probe's task away. -/
theorem filter_erase_task {task : Task} (h : task.isProbe = false) (ready : List Task) :
    (ready.erase task).filter Task.isProbe = ready.filter Task.isProbe := by
  induction ready with
  | nil => rfl
  | cons other rest ih =>
    by_cases htask : other = task
    · rw [htask, List.erase_cons_head, List.filter_cons, if_neg (by simp [h])]
    · rw [List.erase_cons_tail (by simpa using htask), List.filter_cons, List.filter_cons, ih]

theorem Lasting.erased (h : Lasting s t) (f : FlightId) :
    Lasting { s with ready := s.ready.erase (.flight f) } t where
  now := h.now
  nextId := h.nextId
  started := h.started
  flights := h.flights
  ready := h.ready.trans (filter_erase_task rfl s.ready).symm
  woken _ hg := h.woken _ (List.mem_of_mem_erase hg)
  timers := h.timers

theorem erase_loop_lasting (s : Manager) (id : LoopId) :
    Lasting s { s with ready := s.ready.erase (.loop id) } where
  now := rfl
  nextId := Nat.le_refl _
  started := Nat.le_refl _
  flights _ := Or.inl rfl
  ready := filter_erase_task rfl s.ready
  woken _ hf := (List.mem_erase_of_ne (by simp)).mpr hf
  timers := rfl

/-- However an operation begins, only bookkeeping goes before, the same on every network. -/
theorem Undertakes.begins_on {m : Move} (h : Undertakes s m f op) (hs : s.Numbered) :
    ∃ a, Prepared s a f (s.ownerOf f m) op ∧ ∀ n : Network,
      ({ s with network := n } : Manager).next m =
        (({ a with network := n } : Manager).begin op).1.proceed f (s.ownerOf f m)
          (({ a with network := n } : Manager).begin op).2 := by
  cases h with
  | @awaited r hheld =>
    let a : Manager := { s with nextId := s.nextId + 1 }.setFlight s.nextId
      ⟨.caller, .queued (s.operation r)⟩
    have hbegun : a.flights.lookup s.nextId = some ⟨.caller, .queued (s.operation r)⟩ :=
      lookup_upsert_self _ _ _
    refine ⟨a, ⟨⟨_, _, s.loops, s.ready, rfl⟩, hbegun,
      (queued_lasting s .caller _).erased s.nextId, Nat.lt_succ_self _, ?_⟩, ?_⟩
    · intro owner options stage probes hbatch
      cases (hs s.nextId (Nat.le_refl _)).symm.trans hbatch
    · intro n
      have hnext : ({ s with network := n } : Manager).next (.await r) =
          ({ a with network := n } : Manager).runFlight s.nextId := if_pos hheld
      rw [hnext]
      exact runFlight_queued (s := { a with network := n }) hbegun
  | @task _ owner _ hflight hready =>
    let a : Manager := { s with ready := s.ready.erase (.flight f) }
    have hbegun : f < s.nextId := by
      refine Nat.lt_of_not_le fun hle => ?_
      cases (hs f hle).symm.trans hflight
    have howner : s.ownerOf f (.turn (.flight f)) = owner := by
      unfold ownerOf
      rw [hflight]
      rfl
    rw [howner]
    refine ⟨a, ⟨⟨s.nextId, s.flights, s.loops, _, rfl⟩, hflight, .refl a, hbegun, ?_⟩, ?_⟩
    · intro owner options stage probes hbatch
      cases hflight.symm.trans hbatch
    · intro n
      rw [next_flight (t := { s with network := n }) hready]
      exact runFlight_queued (s := { a with network := n }) hflight
  | @iteration id l hloop hready hgoing hdue =>
    let erased : Manager := { s with ready := s.ready.erase (.loop id) }
    let ticked : Manager := erased.setLoop id { l with
      iterations := l.iterations + 1
      due := nextTick l.options.period l.due s.now
      began := s.now }
    have hticked : Lasting s ticked :=
      (erase_loop_lasting s id).trans (.same rfl rfl (Nat.le_refl _) rfl rfl rfl)
    have hlasting : Lasting s (s.iteration id l) :=
      hticked.trans (queued_lasting ticked (.loop id) (.poll l.options))
    refine ⟨s.iteration id l, ⟨⟨_, _, _, _, rfl⟩, lookup_upsert_self _ _ _,
      hlasting.erased s.nextId, Nat.lt_succ_self _, ?_⟩, ?_⟩
    · intro owner options stage probes hbatch
      cases (hs s.nextId (Nat.le_refl _)).symm.trans hbatch
    · intro n
      exact next_loop (s := { s with network := n }) hloop (List.contains_iff_mem.mpr hready) hgoing
        hdue

theorem Undertakes.begins {m : Move} (h : Undertakes s m f op) (hs : s.Numbered) :
    ∃ a, Prepared s a f (s.ownerOf f m) op ∧
      s.next m = (a.begin op).1.proceed f (s.ownerOf f m) (a.begin op).2 := by
  obtain ⟨a, hprepared, hnext⟩ := h.begins_on hs
  have hnetwork : a.network = s.network := by
    obtain ⟨nextId, flights, loops, ready, ha⟩ := hprepared.bookkeeping
    rw [ha]
  refine ⟨a, hprepared, ?_⟩
  have hown := hnext s.network
  rw [← hnetwork] at hown
  rw [← hown, hnetwork]

end Manager

end RpcPool

import RpcPool.Proofs.Accounts

/-!
# Poll loops

A manager knows at most one poll loop as its own. The others were told to stop, and are there only
until they take note of it between two iterations. Besides starting and stopping, what happens to
loops is little: one begins an iteration, waits for the next, or takes note that it was told to
stop, and an iteration ends. All else is apart from them.

Results:
1. `Looping.deed`, `Looping.land`, `Looping.quit`: the loop of the manager is the only one that was
   not told to stop, and every loop that is there either waits for its turn or goes through one
   iteration.
2. `next_conduct`: a move is made of such deeds, with the end of an operation or of a loop at most.
3. `Conduct.looping`, `Reachable.looping`: so this holds in every state of every run.
4. `Deeds.now`, `Deeds.unreported`: deeds take no time, and none of them ends an iteration.
-/

namespace RpcPool

/-- An iteration of a poll loop has ended, well or with an error: the one of this number. -/
def Event.reports (iteration : Nat) : Event → Prop
  | .polled n _ _ => n = iteration
  | .pollFailed n _ => n = iteration
  | _ => False

/-- A poll loop, whether or not it was told to stop. -/
def PollLoop.course (l : PollLoop) : PollLoop := { l with stopped := false }

theorem PollLoop.course_eq_iff {l l' : PollLoop} : l'.course = l.course ↔ l'.options = l.options ∧
    l'.iterations = l.iterations ∧ l'.due = l.due ∧ l'.began = l.began := by
  simp [course]

namespace Manager

open Relation

variable {s t u a : Manager} {m : Move} {f g : FlightId} {id k : LoopId} {l : PollLoop}
  {owner : Owner} {work : Work} {x y : Task}

/-! ## Reports on iterations -/

/-- The iterations whose ends are noted, in order, with the times of their ends. -/
def finished (ms : List Moment) : List (Nat × Nat) :=
  ms.filterMap fun m => m.event.iteration?.map fun n => (n, m.time)

theorem finished_append (ms ms' : List Moment) :
    finished (ms ++ ms') = finished ms ++ finished ms' :=
  List.filterMap_append

/-- Things may have been noted, but no end of an iteration. -/
structure Unreported (s t : Manager) : Prop where
  later : s.trace <:+ t.trace
  silent : finished (since s t) = []

theorem Unreported.same (h : t.trace = s.trace) : Unreported s t where
  later := h ▸ List.suffix_rfl
  silent := by rw [since_same h]; rfl

theorem Unreported.trans (h : Unreported s t) (h' : Unreported t u) : Unreported s u where
  later := h.later.trans h'.later
  silent := by rw [since_append h.later h'.later, finished_append, h.silent, h'.silent]; rfl

theorem Unreported.noted {moment : Moment} (htrace : t.trace = moment :: s.trace)
    (h : moment.event.iteration? = none) : Unreported s t where
  later := htrace ▸ List.suffix_cons moment s.trace
  silent := by
    rw [since_of_cons htrace, finished, List.filterMap_cons, h]
    rfl

/-! ## Tasks under way -/

theorem wake_pending_ne (h : y ≠ x) (s : Manager) : (s.wake x).pending y = s.pending y := by
  have hcount := count_wake_ne h s
  obtain ⟨ready, hwake⟩ := wake_eq s x
  unfold pending
  rw [hcount, hwake]

theorem wake_pending_self (h : x ∉ s.ready) : (s.wake x).pending x = s.pending x + 1 := by
  have hcount : (s.wake x).ready.count x = s.ready.count x + 1 := by
    unfold wake
    rw [if_neg (by simpa using h), List.count_append, List.count_singleton_self]
  obtain ⟨ready, hwake⟩ := wake_eq s x
  unfold pending
  rw [hcount, hwake]
  exact Nat.add_right_comm _ _ _

theorem mem_ready_of_pending (h : x ∈ s.ready) : 0 < s.pending x :=
  Nat.add_pos_left (List.count_pos_iff.mpr h) _

/-- A task that is woken before its time is as often under way as before. -/
theorem rouse_pending (few : s.pending x ≤ 1) (y : Task) : (s.rouse x).pending y = s.pending y := by
  unfold rouse
  split
  · next hsleeping =>
    let awake : Manager := { s with timers := s.timers.filter fun e => !(e.2 == x) }
    show (awake.wake x).pending y = _
    by_cases hyx : y = x
    · -- its one timer is taken away, and it becomes ready instead
      subst hyx
      have hasleep : 0 < s.timers.countP (·.2 == y) :=
        List.countP_pos_iff.mpr (List.any_eq_true.mp hsleeping)
      have hnone : awake.timers.countP (·.2 == y) = 0 := by
        refine List.countP_eq_zero.mpr fun e he => ?_
        simpa using (List.mem_filter.mp he).2
      have hidle : y ∉ awake.ready := fun hready => by
        have hcount : 0 < s.ready.count y := List.count_pos_iff.mpr hready
        unfold pending at few
        omega
      have hzero : s.ready.count y = 0 := List.count_eq_zero.mpr hidle
      rw [wake_pending_self hidle]
      unfold pending at few ⊢
      rw [hnone, show awake.ready.count y = 0 from hzero]
      omega
    · rw [wake_pending_ne hyx]
      refine congrArg (s.ready.count y + ·) ?_
      rw [List.countP_filter]
      refine List.countP_congr fun e _ => ?_
      by_cases he : e.2 = y
      · simp [he, hyx]
      · simp [he]
  · rfl

/-! ## Loops and their iterations -/

/-- An operation is under way, and answers to this owner. -/
def AnswersTo (s : Manager) (f : FlightId) (owner : Owner) : Prop :=
  (s.flights.lookup f).map (·.owner) = some owner

/-- An iteration of a loop is under way. -/
abbrev Iterates (s : Manager) (f : FlightId) (id : LoopId) : Prop := s.AnswersTo f (.loop id)

theorem answersTo_iff :
    s.AnswersTo f owner ↔ ∃ work, s.flights.lookup f = some ⟨owner, work⟩ := by
  unfold AnswersTo
  constructor
  · intro h
    obtain ⟨⟨_, work⟩, hflight, rfl⟩ := Option.map_eq_some_iff.mp h
    exact ⟨work, hflight⟩
  · rintro ⟨work, hflight⟩
    rw [hflight]
    rfl

theorem AnswersTo.same
    (h : (t.flights.lookup f).map (·.owner) = (s.flights.lookup f).map (·.owner)) :
    t.AnswersTo f owner ↔ s.AnswersTo f owner := by
  unfold AnswersTo
  rw [h]

/-- A loop is gone, or it has one task and is between two iterations, or it goes through one. -/
inductive Whereabouts (s : Manager) (id : LoopId) : Prop
  | gone : s.loops.lookup id = none → s.pending (.loop id) = 0 → (∀ f, ¬ s.Iterates f id) →
      Whereabouts s id
  | between {l : PollLoop} : s.loops.lookup id = some l → s.pending (.loop id) = 1 →
      (∀ f, ¬ s.Iterates f id) → Whereabouts s id
  | within {l : PollLoop} {f : FlightId} : s.loops.lookup id = some l → s.pending (.loop id) = 0 →
      (∀ g, s.Iterates g id ↔ g = f) → Whereabouts s id

theorem Whereabouts.few (h : s.Whereabouts id) : s.pending (.loop id) ≤ 1 := by
  cases h <;> omega

/-- The loop of the manager is the one loop that was not told to stop. Numbers of loops and
operations are given out in order. -/
structure Looping (s : Manager) : Prop where
  numbered : s.Numbered
  unused : ∀ id, s.nextId ≤ id → s.loops.lookup id = none
  going : ∀ {id l}, s.loops.lookup id = some l → (l.stopped = false ↔ s.poller = some id)
  polled : ∀ {id}, s.poller = some id → s.loops.lookup id ≠ none
  placed : ∀ id, s.Whereabouts id

theorem Looping.few (h : s.Looping) (id : LoopId) : s.pending (.loop id) ≤ 1 := (h.placed id).few

theorem Looping.loop_lt (h : s.Looping) (hl : s.loops.lookup id = some l) : id < s.nextId := by
  refine Nat.lt_of_not_le fun hle => ?_
  cases (h.unused id hle).symm.trans hl

theorem Looping.flight_lt (h : s.Looping) (hf : s.Iterates f id) : f < s.nextId := by
  refine Nat.lt_of_not_le fun hle => ?_
  obtain ⟨work, hwork⟩ := answersTo_iff.mp hf
  cases (h.numbered f hle).symm.trans hwork

/-- A loop that is ready is there, between two iterations. -/
theorem Looping.ready (h : s.Looping) (hready : .loop id ∈ s.ready) :
    s.loops.lookup id ≠ none ∧ s.pending (.loop id) = 1 ∧ ∀ f, ¬ s.Iterates f id := by
  have hpos := mem_ready_of_pending hready
  cases h.placed id with
  | gone _ hnone _ => omega
  | between hl hone hidle => exact ⟨by simp [hl], hone, hidle⟩
  | within _ hnone _ => omega

/-- A loop with an iteration under way is there, and has no task besides. -/
theorem Looping.within (h : s.Looping) (hf : s.Iterates f id) :
    s.loops.lookup id ≠ none ∧ s.pending (.loop id) = 0 ∧ ∀ g, s.Iterates g id ↔ g = f := by
  cases h.placed id with
  | gone _ _ hidle => exact absurd hf (hidle f)
  | between _ _ hidle => exact absurd hf (hidle f)
  | within hl hnone honly =>
    obtain rfl := (honly f).mp hf
    exact ⟨by simp [hl], hnone, honly⟩

/-- The same loops in the same places. -/
theorem Whereabouts.congr (h : s.Whereabouts id)
    (hthere : t.loops.lookup id = none ↔ s.loops.lookup id = none)
    (hpending : t.pending (.loop id) = s.pending (.loop id))
    (hiterates : ∀ f, t.Iterates f id ↔ s.Iterates f id) : t.Whereabouts id := by
  have hstays {l : PollLoop} (hl : s.loops.lookup id = some l) :
      ∃ l', t.loops.lookup id = some l' :=
    Option.ne_none_iff_exists'.mp fun hnone => by cases (hthere.mp hnone).symm.trans hl
  cases h with
  | gone hnone hzero hidle =>
    exact .gone (hthere.mpr hnone) (hpending.trans hzero) fun f => mt (hiterates f).mp (hidle f)
  | between hl hone hidle =>
    obtain ⟨l', hl'⟩ := hstays hl
    exact .between hl' (hpending.trans hone) fun f => mt (hiterates f).mp (hidle f)
  | within hl hzero honly =>
    obtain ⟨l', hl'⟩ := hstays hl
    exact .within hl' (hpending.trans hzero) fun g => (hiterates g).trans (honly g)

/-! ## Stopping and starting -/

/-- At most, the loop of the manager is told to stop. -/
structure Easing (s t : Manager) : Prop where
  poller : t.poller = s.poller ∨ t.poller = none
  loops : ∀ k, t.loops.lookup k = (s.loops.lookup k).map fun l =>
    if s.poller = some k ∧ t.poller = none then { l with stopped := true } else l
  pending : ∀ k, t.pending (.loop k) = s.pending (.loop k)
  flights : t.flights = s.flights
  nextId : t.nextId = s.nextId
  now : t.now = s.now
  trace : t.trace = s.trace

theorem Easing.refl (s : Manager) : Easing s s where
  poller := .inl rfl
  loops k := by
    have hnever : ¬ (s.poller = some k ∧ s.poller = none) := by
      rintro ⟨hsome, hnone⟩
      cases hnone.symm.trans hsome
    simp only [if_neg hnever, Option.map_id']
  pending _ := rfl
  flights := rfl
  nextId := rfl
  now := rfl
  trace := rfl

theorem stopLoop_loops (s : Manager) (id k : LoopId) : (s.stopLoop id).loops.lookup k =
    (s.loops.lookup k).map fun l => if k = id then { l with stopped := true } else l := by
  unfold stopLoop
  split
  · next hnone =>
    by_cases hk : k = id
    · rw [hk, hnone]
      rfl
    · simp only [if_neg hk, Option.map_id']
  · next l hl =>
    obtain ⟨timers, ready, hrouse⟩ := rouse_eq
      { s with loops := upsert id { l with stopped := true } s.loops } (.loop id)
    rw [hrouse]
    show (upsert id { l with stopped := true } s.loops).lookup k = _
    by_cases hk : k = id
    · rw [hk, lookup_upsert_self, hl, Option.map_some, if_pos rfl]
    · simp only [lookup_upsert_ne _ _ hk, if_neg hk, Option.map_id']

theorem stopLoop_pending (few : s.pending (.loop id) ≤ 1) (y : Task) :
    (s.stopLoop id).pending y = s.pending y := by
  unfold stopLoop
  split
  · rfl
  · next l _ =>
    let told : Manager := { s with loops := upsert id { l with stopped := true } s.loops }
    exact rouse_pending (s := told) few y

theorem stopPolling_easing (few : ∀ id, s.pending (.loop id) ≤ 1) : Easing s s.stopPolling := by
  unfold stopPolling
  split
  · exact .refl s
  · next id hpoller =>
    let left : Manager := { s with poller := none }
    obtain ⟨loops, timers, ready, hstop⟩ := stopLoop_eq left id
    have hpoller' : (left.stopLoop id).poller = none := by rw [hstop]
    refine ⟨.inr hpoller', fun k => ?_, fun k =>
      stopLoop_pending (s := left) (few id) (.loop k), ?_, ?_, ?_, ?_⟩
    · rw [stopLoop_loops]
      refine congrArg (fun change => (s.loops.lookup k).map change) (funext fun l => ?_)
      by_cases hk : k = id
      · rw [if_pos hk, if_pos ⟨hpoller.trans (congrArg some hk.symm), hpoller'⟩]
      · rw [if_neg hk, if_neg fun h => hk (Option.some.inj (h.1.symm.trans hpoller))]
    · rw [hstop]
    · rw [hstop]
    · rw [hstop]
    · rw [hstop]

theorem release_easing (few : ∀ id, s.pending (.loop id) ≤ 1) : Easing s s.release := by
  unfold release
  split
  · exact .refl s
  · exact stopPolling_easing few

theorem Easing.lookup_none (h : Easing s t) (k : LoopId) :
    t.loops.lookup k = none ↔ s.loops.lookup k = none := by
  rw [h.loops k, Option.map_eq_none_iff]

/-- A loop is as far as before, and told to stop if it was told before. -/
theorem Easing.lookup_some (h : Easing s t) {l' : PollLoop} (hl : t.loops.lookup k = some l') :
    ∃ l, s.loops.lookup k = some l ∧ l'.course = l.course ∧
      (l.stopped = true → l'.stopped = true) := by
  rw [h.loops k] at hl
  obtain ⟨l, hs, rfl⟩ := Option.map_eq_some_iff.mp hl
  refine ⟨l, hs, ?_, fun hstopped => ?_⟩ <;> split <;> trivial

/-- Whichever loop is told to stop, the loop of the manager is the one that was not. -/
theorem Easing.going (h : Easing s t)
    (hs : ∀ {id l}, s.loops.lookup id = some l → (l.stopped = false ↔ s.poller = some id))
    {l' : PollLoop} (hl : t.loops.lookup k = some l') : l'.stopped = false ↔ t.poller = some k := by
  rw [h.loops k] at hl
  obtain ⟨l, hk, rfl⟩ := Option.map_eq_some_iff.mp hl
  rcases h.poller with hsame | hnone
  · have hnever : ¬ (s.poller = some k ∧ t.poller = none) := by
      rintro ⟨hsome, hnone⟩
      cases (hsame.symm.trans hnone).symm.trans hsome
    rw [if_neg hnever, hsame]
    exact hs hk
  · rw [hnone]
    by_cases hpoller : s.poller = some k
    · simp [hpoller]
    · simpa [hpoller] using mt (hs hk).mp hpoller

theorem Looping.easing (hs : s.Looping) (h : Easing s t) : t.Looping where
  numbered f hf := by
    rw [h.flights]
    exact hs.numbered f (h.nextId ▸ hf)
  unused id hid := (h.lookup_none id).mpr (hs.unused id (h.nextId ▸ hid))
  going := h.going hs.going
  polled {id} hpoller := by
    rcases h.poller with hsame | hnone
    · exact mt (h.lookup_none id).mp (hs.polled (hsame ▸ hpoller))
    · cases hnone.symm.trans hpoller
  placed id := (hs.placed id).congr (h.lookup_none id) (h.pending id) fun f =>
    AnswersTo.same (by rw [h.flights])

/-- A loop is started, and the one that it replaces is told to stop. -/
structure Opening (o : PollOptions) (s t : Manager) : Prop where
  poller : t.poller = some s.nextId
  newest : t.loops.lookup s.nextId = some ⟨o, false, 0, s.now, s.now⟩
  others : ∀ k, k ≠ s.nextId → t.loops.lookup k = (s.loops.lookup k).map fun l =>
    if s.poller = some k then { l with stopped := true } else l
  task : t.pending (.loop s.nextId) = 1
  pending : ∀ k, k ≠ s.nextId → t.pending (.loop k) = s.pending (.loop k)
  flights : t.flights = s.flights
  nextId : t.nextId = s.nextId + 1
  now : t.now = s.now
  trace : Unreported s t

theorem Looping.unready (h : s.Looping) (hid : s.nextId ≤ id) :
    s.pending (.loop id) = 0 ∧ ∀ f, ¬ s.Iterates f id := by
  cases h.placed id with
  | gone _ hnone hidle => exact ⟨hnone, hidle⟩
  | between hl _ _ => cases (h.unused id hid).symm.trans hl
  | within hl _ _ => cases (h.unused id hid).symm.trans hl

/-- A new loop becomes the loop of the manager. The loop that it replaces has not heard of it. -/
def engage (s : Manager) (o : PollOptions) : Manager :=
  ({ s.record (.pollingStarted o.periodMs o.pollType) with
    nextId := s.nextId + 1
    started := s.started + 1
    loops := upsert s.nextId ⟨o, false, 0, s.now, s.now⟩ s.loops
    poller := some s.nextId } : Manager).wake (.loop s.nextId)

theorem engage_eq (s : Manager) (o : PollOptions) : ∃ ready, s.engage o =
    { s.record (.pollingStarted o.periodMs o.pollType) with
      nextId := s.nextId + 1
      started := s.started + 1
      loops := upsert s.nextId ⟨o, false, 0, s.now, s.now⟩ s.loops
      poller := some s.nextId
      ready := ready } :=
  wake_eq _ _

theorem startPolling_ok {o : PollOptions} (h : s.startPolling o = .ok t) :
    (s.poller = none ∧ t = s.engage o) ∨
      ∃ old, s.poller = some old ∧ t = (s.engage o).stopLoop old := by
  unfold startPolling at h
  split at h
  · simp only [Except.ok.injEq] at h
    split at h
    · next old hold => exact .inr ⟨old, hold, h.symm⟩
    · next hfree => exact .inl ⟨hfree, h.symm⟩
  · exact absurd h (by simp)

theorem engage_loops_self (s : Manager) (o : PollOptions) :
    (s.engage o).loops.lookup s.nextId = some ⟨o, false, 0, s.now, s.now⟩ := by
  obtain ⟨ready, hengage⟩ := engage_eq s o
  rw [hengage]
  exact lookup_upsert_self _ _ _

theorem engage_loops_ne (hk : k ≠ s.nextId) (o : PollOptions) :
    (s.engage o).loops.lookup k = s.loops.lookup k := by
  obtain ⟨ready, hengage⟩ := engage_eq s o
  rw [hengage]
  exact lookup_upsert_ne _ _ hk

theorem engage_pending_self (hs : s.Looping) (o : PollOptions) :
    (s.engage o).pending (.loop s.nextId) = 1 := by
  have hnone := (hs.unready (Nat.le_refl s.nextId)).1
  let engaged : Manager := { s.record (.pollingStarted o.periodMs o.pollType) with
    nextId := s.nextId + 1
    started := s.started + 1
    loops := upsert s.nextId ⟨o, false, 0, s.now, s.now⟩ s.loops
    poller := some s.nextId }
  have hidle : .loop s.nextId ∉ engaged.ready := fun hready =>
    absurd (mem_ready_of_pending (s := s) hready) (by omega)
  exact (wake_pending_self hidle).trans (congrArg (· + 1) hnone)

theorem engage_pending_ne (hk : k ≠ s.nextId) (o : PollOptions) :
    (s.engage o).pending (.loop k) = s.pending (.loop k) :=
  wake_pending_ne (by simpa using hk) _

theorem startPolling_opening (hs : s.Looping) {o : PollOptions} (h : s.startPolling o = .ok t) :
    Opening o s t := by
  obtain ⟨ready, hengage⟩ := engage_eq s o
  rcases startPolling_ok h with ⟨hfree, rfl⟩ | ⟨old, hold, rfl⟩
  · exact {
      poller := by rw [hengage]
      newest := engage_loops_self s o
      others := fun k hk => by
        rw [engage_loops_ne hk]
        simp only [hfree, reduceCtorEq, if_false, Option.map_id']
      task := engage_pending_self hs o
      pending := fun k hk => engage_pending_ne hk o
      flights := by rw [hengage]; rfl
      nextId := by rw [hengage]
      now := by rw [hengage]; rfl
      trace := by
        rw [hengage]
        exact .noted rfl rfl }
  · -- the new loop has a number of its own, so that it is not the one that is told to stop
    have hne : old ≠ s.nextId := by
      rintro rfl
      exact hs.polled hold (hs.unused s.nextId (Nat.le_refl _))
    have hfew : (s.engage o).pending (.loop old) ≤ 1 := engage_pending_ne hne o ▸ hs.few old
    have hsame := stopLoop_pending hfew
    obtain ⟨loops, timers, ready', hstop⟩ := stopLoop_eq (s.engage o) old
    exact {
      poller := by rw [hstop, hengage]
      newest := by
        rw [stopLoop_loops, engage_loops_self, Option.map_some, if_neg hne.symm]
      others := fun k hk => by
        rw [stopLoop_loops, engage_loops_ne hk]
        refine congrArg (fun change => (s.loops.lookup k).map change) (funext fun l => ?_)
        exact if_congr ⟨fun heq => hold.trans (congrArg some heq.symm), fun hk =>
          Option.some.inj (hk.symm.trans hold)⟩ rfl rfl
      task := (hsame _).trans (engage_pending_self hs o)
      pending := fun k hk => (hsame _).trans (engage_pending_ne hk o)
      flights := by rw [hstop, hengage]; rfl
      nextId := by rw [hstop, hengage]
      now := by rw [hstop, hengage]; rfl
      trace := by
        rw [hstop, hengage]
        exact .noted rfl rfl }

theorem Looping.opening (hs : s.Looping) {o : PollOptions} (h : Opening o s t) : t.Looping where
  numbered f hf := by
    rw [h.flights]
    exact hs.numbered f (by have := h.nextId; omega)
  unused id hid := by
    have := h.nextId
    rw [h.others id (by omega), hs.unused id (by omega)]
    rfl
  going {id l} hl := by
    rw [h.poller]
    by_cases hid : id = s.nextId
    · rw [hid, h.newest] at hl
      cases hl
      simp [hid]
    · rw [h.others id hid] at hl
      obtain ⟨l, hk, rfl⟩ := Option.map_eq_some_iff.mp hl
      have hne : some s.nextId ≠ some id := fun heq => hid (Option.some.inj heq).symm
      by_cases hpoller : s.poller = some id
      · simp [hpoller, hne]
      · simpa [hpoller, hne] using mt (hs.going hk).mp hpoller
  polled {id} hpoller := by
    rw [← Option.some.inj (h.poller.symm.trans hpoller), h.newest]
    exact nofun
  placed id := by
    have hiterates (f : FlightId) : t.Iterates f id ↔ s.Iterates f id :=
      AnswersTo.same (by rw [h.flights])
    by_cases hid : id = s.nextId
    · rw [hid] at hiterates ⊢
      exact .between h.newest h.task fun f =>
        mt (hiterates f).mp ((hs.unready (Nat.le_refl _)).2 f)
    · refine (hs.placed id).congr ?_ (h.pending id hid) hiterates
      rw [h.others id hid, Option.map_eq_none_iff]

/-! ## Deeds -/

/-- What has nothing to do with loops, takes no time, and leaves every operation with whom it
answers to. -/
structure Beside (s t : Manager) : Prop where
  poller : t.poller = s.poller
  loops : t.loops = s.loops
  nextId : t.nextId = s.nextId
  now : t.now = s.now
  owners : ∀ f, (t.flights.lookup f).map (·.owner) = (s.flights.lookup f).map (·.owner)
  pending : ∀ k, t.pending (.loop k) = s.pending (.loop k)
  trace : Unreported s t

/-- One deed: what can happen to loops besides the end of one, or of an iteration. -/
inductive Deed (s : Manager) : Manager → Prop
  | beside {t : Manager} : Beside s t → Deed s t
  /-- An operation is put in the queue that is no iteration. -/
  | queues (owner : Owner) (op : Operation) : (∀ id, owner ≠ .loop id) → Deed s { s with
      nextId := s.nextId + 1
      flights := upsert s.nextId ⟨owner, .queued op⟩ s.flights }
  | stops : Deed s s.stopPolling
  | starts {o : PollOptions} {t : Manager} : s.startPolling o = .ok t → Deed s t
  /-- A loop begins an iteration that is due. -/
  | begins {id : LoopId} {l : PollLoop} : .loop id ∈ s.ready → s.loops.lookup id = some l →
      l.stopped = false → l.due ≤ s.now → Deed s (s.iteration id l)

abbrev Deeds : Manager → Manager → Prop := ReflTransGen Deed

theorem Beside.refl (s : Manager) : Beside s s :=
  ⟨rfl, rfl, rfl, rfl, fun _ => rfl, fun _ => rfl, .same rfl⟩

theorem Beside.trans (h : Beside s t) (h' : Beside t u) : Beside s u where
  poller := h'.poller.trans h.poller
  loops := h'.loops.trans h.loops
  nextId := h'.nextId.trans h.nextId
  now := h'.now.trans h.now
  owners f := (h'.owners f).trans (h.owners f)
  pending k := (h'.pending k).trans (h.pending k)
  trace := h.trace.trans h'.trace

theorem Looping.beside (hs : s.Looping) (h : Beside s t) : t.Looping where
  numbered f hf := by
    have hnone := hs.numbered f (h.nextId ▸ hf)
    have howners := h.owners f
    rw [hnone] at howners
    exact Option.map_eq_none_iff.mp howners
  unused id hid := by
    rw [h.loops]
    exact hs.unused id (h.nextId ▸ hid)
  going hl := by
    rw [h.poller]
    exact hs.going (h.loops ▸ hl)
  polled hpoller := by
    rw [h.loops]
    exact hs.polled (h.poller ▸ hpoller)
  placed id := (hs.placed id).congr (by rw [h.loops]) (h.pending id) fun f =>
    AnswersTo.same (h.owners f)

theorem erase_pending_ne (h : y ≠ x) (s : Manager) :
    ({ s with ready := s.ready.erase x } : Manager).pending y = s.pending y := by
  unfold pending
  rw [List.count_erase_of_ne h]

theorem erase_pending_self (h : x ∈ s.ready) :
    ({ s with ready := s.ready.erase x } : Manager).pending x + 1 = s.pending x := by
  have hpos : 0 < s.ready.count x := List.count_pos_iff.mpr h
  unfold pending
  rw [List.count_erase_self]
  show _ - 1 + s.timers.countP _ + 1 = _
  omega

theorem sleep_pending_ne (h : y ≠ x) (due : Nat) : (s.sleep due x).pending y = s.pending y := by
  unfold sleep pending
  rw [List.countP_append, List.countP_singleton, if_neg (by simpa using Ne.symm h)]
  rfl

theorem sleep_pending_self (due : Nat) : (s.sleep due x).pending x = s.pending x + 1 := by
  unfold sleep pending
  rw [List.countP_append, List.countP_singleton, if_pos (by simp)]
  exact (Nat.add_assoc _ _ _).symm

/-- The operation of a new number answers to its owner, and no other operation is concerned. -/
theorem answersTo_upsert {op : Operation} {asked : Owner}
    (hflights : t.flights = upsert s.nextId ⟨owner, .queued op⟩ s.flights) :
    t.AnswersTo f asked ↔
      (f = s.nextId ∧ owner = asked) ∨ (f ≠ s.nextId ∧ s.AnswersTo f asked) := by
  unfold AnswersTo
  rw [hflights]
  by_cases hf : f = s.nextId
  · rw [hf, lookup_upsert_self]
    simp
  · rw [lookup_upsert_ne _ _ hf]
    simp [hf]

/-- An operation that does not answer to a loop is no iteration of it. -/
theorem Looping.iterates_upsert {op : Operation} (hs : s.Looping)
    (hflights : t.flights = upsert s.nextId ⟨owner, .queued op⟩ s.flights)
    (hno : owner ≠ .loop k) : t.Iterates f k ↔ s.Iterates f k := by
  refine (answersTo_upsert hflights).trans ?_
  constructor
  · rintro (⟨-, howner⟩ | ⟨-, hf⟩)
    · exact absurd howner hno
    · exact hf
  · exact fun hf => .inr ⟨Nat.ne_of_lt (hs.flight_lt hf), hf⟩

theorem Looping.queued (hs : s.Looping) (op : Operation) (hno : ∀ id, owner ≠ .loop id) :
    ({ s with
      nextId := s.nextId + 1
      flights := upsert s.nextId ⟨owner, .queued op⟩ s.flights } : Manager).Looping where
  numbered f hf := by
    have hf : s.nextId + 1 ≤ f := hf
    exact (lookup_upsert_ne _ _ (by omega)).trans (hs.numbered f (by omega))
  unused id hid := hs.unused id (by have hid : s.nextId + 1 ≤ id := hid; omega)
  going hl := hs.going hl
  polled hpoller := hs.polled hpoller
  placed id := (hs.placed id).congr Iff.rfl rfl fun _ => hs.iterates_upsert rfl (hno id)

theorem iteration_pending (hready : .loop id ∈ s.ready) :
    (s.iteration id l).pending (.loop id) + 1 = s.pending (.loop id) ∧
      ∀ k, k ≠ id → (s.iteration id l).pending (.loop k) = s.pending (.loop k) :=
  ⟨erase_pending_self hready, fun _ hk => erase_pending_ne (by simpa using hk) s⟩

theorem iteration_iterates : (s.iteration id l).Iterates f k ↔
    (f = s.nextId ∧ k = id) ∨ (f ≠ s.nextId ∧ s.Iterates f k) := by
  refine (answersTo_upsert (s := s) rfl).trans ?_
  simp [eq_comm]

theorem iteration_loops_ne (hk : k ≠ id) :
    (s.iteration id l).loops.lookup k = s.loops.lookup k :=
  lookup_upsert_ne _ _ hk

theorem iteration_loops_self : (s.iteration id l).loops.lookup id = some { l with
    iterations := l.iterations + 1
    due := nextTick l.options.period l.due s.now
    began := s.now } :=
  lookup_upsert_self _ _ _

theorem Looping.iteration (hs : s.Looping) (hready : .loop id ∈ s.ready)
    (hl : s.loops.lookup id = some l) : (s.iteration id l).Looping where
  numbered f hf := by
    have hf : s.nextId + 1 ≤ f := hf
    exact (lookup_upsert_ne _ _ (by omega)).trans (hs.numbered f (by omega))
  unused k hk := by
    have hk : s.nextId + 1 ≤ k := hk
    have hne : k ≠ id := Nat.ne_of_gt (Nat.lt_of_lt_of_le (hs.loop_lt hl) (Nat.le_of_lt hk))
    exact (iteration_loops_ne hne).trans (hs.unused k (by omega))
  going {k l'} hl' := by
    show l'.stopped = false ↔ s.poller = some k
    by_cases hk : k = id
    · rw [hk, iteration_loops_self] at hl'
      cases hl'
      have hgoing := hs.going hl
      exact hk ▸ hgoing
    · rw [iteration_loops_ne hk] at hl'
      exact hs.going hl'
  polled {k} hpoller := by
    by_cases hk : k = id
    · rw [hk, iteration_loops_self]
      exact nofun
    · rw [iteration_loops_ne hk]
      exact hs.polled hpoller
  placed k := by
    obtain ⟨hself, hothers⟩ := iteration_pending (l := l) hready
    by_cases hk : k = id
    · obtain ⟨-, hone, hidle⟩ := hs.ready hready
      rw [hk]
      refine .within iteration_loops_self (f := s.nextId) (by omega) fun g => ?_
      rw [iteration_iterates]
      constructor
      · rintro (⟨hg, -⟩ | ⟨-, hg⟩)
        · exact hg
        · exact absurd hg (hidle g)
      · exact fun hg => .inl ⟨hg, rfl⟩
    · refine (hs.placed k).congr (by rw [iteration_loops_ne hk]) (hothers k hk) fun _ => ?_
      exact hs.iterates_upsert rfl (by simpa using Ne.symm hk)

theorem doze_beside (hready : .loop id ∈ s.ready) (due : Nat) :
    Beside s ({ s with ready := s.ready.erase (.loop id) }.sleep due (.loop id)) where
  poller := rfl
  loops := rfl
  nextId := rfl
  now := rfl
  owners _ := rfl
  pending k := by
    by_cases hk : k = id
    · rw [hk, sleep_pending_self]
      exact erase_pending_self hready
    · have hne : Task.loop k ≠ .loop id := by simpa using hk
      rw [sleep_pending_ne hne]
      exact erase_pending_ne hne s
  trace := .same rfl

/-- When time passes, it is only the time that has to do with loops. -/
theorem moveClock_beside (hs : s.Looping) (time : Nat) :
    ∃ a, Beside s a ∧ s.moveClock time = { a with now := time } := by
  have hpending (k : LoopId) := moveClock_pending (hs.few k) time
  obtain ⟨timers, ready, hclock⟩ := moveClock_eq s time
  rw [hclock] at hpending
  exact ⟨{ s with timers := timers, ready := ready },
    ⟨rfl, rfl, rfl, rfl, fun _ => rfl, hpending, .same rfl⟩, hclock⟩

theorem Looping.passes (h : s.Looping) (time : Nat) : ({ s with now := time } : Manager).Looping :=
  ⟨h.numbered, h.unused, h.going, h.polled,
    fun id => (h.placed id).congr Iff.rfl rfl fun _ => Iff.rfl⟩

theorem Looping.deed (hs : s.Looping) (h : Deed s t) : t.Looping := by
  cases h with
  | beside h => exact hs.beside h
  | queues owner op hno => exact hs.queued op hno
  | stops => exact hs.easing (stopPolling_easing hs.few)
  | starts h => exact hs.opening (startPolling_opening hs h)
  | begins hready hl _ _ => exact hs.iteration hready hl

theorem Looping.deeds (hs : s.Looping) (h : Deeds s t) : t.Looping := by
  induction h with
  | refl => exact hs
  | tail _ hdeed ih => exact ih.deed hdeed

theorem Deed.now (h : Deed s t) (hs : s.Looping) : t.now = s.now := by
  cases h with
  | beside h => exact h.now
  | stops => exact (stopPolling_easing hs.few).now
  | starts h => exact (startPolling_opening hs h).now
  | _ => rfl

theorem Deeds.now (h : Deeds s t) (hs : s.Looping) : t.now = s.now := by
  induction h with
  | refl => rfl
  | tail hbefore hdeed ih => exact (hdeed.now (hs.deeds hbefore)).trans ih

theorem Deed.unreported (h : Deed s t) (hs : s.Looping) : Unreported s t := by
  cases h with
  | beside h => exact h.trace
  | stops => exact .same (stopPolling_easing hs.few).trace
  | starts h => exact (startPolling_opening hs h).trace
  | _ => exact .same rfl

theorem Deeds.unreported (h : Deeds s t) (hs : s.Looping) : Unreported s t := by
  induction h with
  | refl => exact .same rfl
  | tail hbefore hdeed ih => exact ih.trans (hdeed.unreported (hs.deeds hbefore))

/-! ## Ends -/

theorem answersTo_without (hflights : t.flights = without f s.flights) :
    t.AnswersTo g owner ↔ g ≠ f ∧ s.AnswersTo g owner := by
  unfold AnswersTo
  rw [hflights]
  by_cases hg : g = f
  · rw [hg, lookup_without_self]
    simp
  · rw [lookup_without_ne _ hg]
    exact (and_iff_right hg).symm

theorem Numbered.without (hs : s.Numbered) (hflights : t.flights = without f s.flights)
    (hnextId : t.nextId = s.nextId) : t.Numbered := by
  intro g hg
  rw [hflights]
  by_cases hgf : g = f
  · rw [hgf]
    exact lookup_without_self _ _
  · exact (lookup_without_ne _ hgf).trans (hs g (hnextId ▸ hg))

theorem cons_pending_self (h : s.pending x = 0) :
    ({ s with ready := x :: s.ready.filter fun t => !(t == x) } : Manager).pending x = 1 := by
  have hfiltered : (s.ready.filter fun t => !(t == x)).count x = 0 :=
    List.count_eq_zero.mpr fun hmem => by simpa using (List.mem_filter.mp hmem).2
  unfold pending at h ⊢
  rw [List.count_cons_self, hfiltered]
  show 0 + 1 + s.timers.countP _ = 1
  omega

theorem cons_pending_ne (h : y ≠ x) :
    ({ s with ready := x :: s.ready.filter fun t => !(t == x) } : Manager).pending y =
      s.pending y := by
  unfold pending
  rw [List.count_cons_of_ne (Ne.symm h), List.count_filter (by simpa using h)]

/-- An operation is taken out that is no iteration. -/
theorem Looping.removed (hs : s.Looping) (hf : s.flights.lookup f = some ⟨owner, work⟩)
    (hno : ∀ id, owner ≠ .loop id) :
    ({ s with flights := without f s.flights } : Manager).Looping where
  numbered := hs.numbered.without rfl rfl
  unused := hs.unused
  going := hs.going
  polled := hs.polled
  placed id := by
    refine (hs.placed id).congr Iff.rfl rfl fun g => (answersTo_without (s := s) rfl).trans ?_
    refine and_iff_right_of_imp fun hg => ?_
    rintro rfl
    obtain ⟨work, hwork⟩ := answersTo_iff.mp hg
    cases hf.symm.trans hwork
    exact hno id rfl

theorem land_orphan (hl : s.loops.lookup id = none) (f : FlightId) (reply : Reply) :
    s.land f (.loop id) reply = ({ s with flights := without f s.flights } : Manager).release := by
  unfold land
  dsimp only
  rw [hl]

/-- How the end of an iteration is noted. -/
def report (s : Manager) (l : PollLoop) : Reply → Event
  | .broken b => .pollFailed l.iterations b
  | _ => .polled l.iterations (s.now - l.began) s.pool.connected

theorem report_reports (s : Manager) (l : PollLoop) (reply : Reply) :
    (s.report l reply).reports l.iterations := by
  cases reply <;> rfl

theorem report_iteration (s : Manager) (l : PollLoop) (reply : Reply) :
    (s.report l reply).iteration? = some l.iterations := by
  cases reply <;> rfl

/-- The end of an iteration is noted, and its loop is the next task to run. -/
theorem land_loop (hl : s.loops.lookup id = some l) (f : FlightId) (reply : Reply) :
    s.land f (.loop id) reply =
      { (({ s with flights := without f s.flights } : Manager).record
          (s.report l reply)).release with
        ready := .loop id ::
          (({ s with flights := without f s.flights } : Manager).record
            (s.report l reply)).release.ready.filter fun t => !(t == .loop id) } := by
  unfold land
  dsimp only
  rw [hl]
  cases reply <;> rfl

theorem land_loop_trace (few : ∀ k, s.pending (.loop k) ≤ 1)
    (hl : s.loops.lookup id = some l) (f : FlightId) (reply : Reply) :
    (s.land f (.loop id) reply).trace = ⟨s.now, s.pool, s.report l reply⟩ :: s.trace := by
  let noted : Manager :=
    ({ s with flights := without f s.flights } : Manager).record (s.report l reply)
  rw [land_loop hl]
  exact (release_easing (s := noted) few).trace

theorem Looping.land (hs : s.Looping) (hf : s.flights.lookup f = some ⟨owner, work⟩)
    (reply : Reply) : (s.land f owner reply).Looping := by
  cases owner with
  | caller | task =>
    have hremoved := hs.removed hf (by simp)
    have hanswered := hremoved.beside (t := { s with
      flights := without f s.flights, answers := upsert f reply s.answers })
      ⟨rfl, rfl, rfl, rfl, fun _ => rfl, fun _ => rfl, .same rfl⟩
    exact hanswered.easing (release_easing hanswered.few)
  | loop id =>
    -- the iteration was the only one of its loop, which gets its task back
    obtain ⟨hthere, hnone, honly⟩ := hs.within (answersTo_iff.mpr ⟨work, hf⟩)
    obtain ⟨l, hl⟩ := Option.ne_none_iff_exists'.mp hthere
    let noted : Manager :=
      ({ s with flights := without f s.flights } : Manager).record (s.report l reply)
    have heasing : Easing noted noted.release := release_easing hs.few
    rw [land_loop hl]
    generalize noted.release = r at heasing
    have hiterates (g : FlightId) (k : LoopId) : r.Iterates g k ↔ g ≠ f ∧ s.Iterates g k :=
      answersTo_without heasing.flights
    exact {
      numbered := hs.numbered.without heasing.flights heasing.nextId
      unused := fun k hk => (heasing.lookup_none k).mpr (hs.unused k (heasing.nextId ▸ hk))
      going := heasing.going hs.going
      polled := fun {k} hpoller => by
        rcases heasing.poller with hsame | hnobody
        · exact mt (heasing.lookup_none k).mp (hs.polled (hsame ▸ hpoller))
        · cases hnobody.symm.trans hpoller
      placed := fun k => by
        by_cases hk : k = id
        · rw [hk]
          obtain ⟨l', hl'⟩ :=
            Option.ne_none_iff_exists'.mp (mt (heasing.lookup_none id).mp hthere)
          refine .between hl' ?_ fun g hg => ?_
          · exact cons_pending_self ((heasing.pending id).trans hnone)
          · obtain ⟨hne, hg⟩ := (hiterates g id).mp hg
            exact hne ((honly g).mp hg)
        · refine (hs.placed k).congr (heasing.lookup_none k) ?_ fun g => ?_
          · exact (cons_pending_ne (by simpa using hk)).trans (heasing.pending k)
          · refine (hiterates g k).trans (and_iff_right_of_imp fun hg => ?_)
            rintro rfl
            obtain ⟨work', hwork⟩ := answersTo_iff.mp hg
            cases hf.symm.trans hwork
            exact hk rfl }

/-- A loop has taken note that it was told to stop. -/
def concluded (s : Manager) (id : LoopId) (l : PollLoop) : Manager :=
  ({ s with ready := s.ready.erase (.loop id), loops := without id s.loops } : Manager).record
    (.pollingStopped l.iterations)

theorem concluded_loops_ne (hk : k ≠ id) :
    (s.concluded id l).loops.lookup k = s.loops.lookup k :=
  lookup_without_ne _ hk

theorem Looping.quit (hs : s.Looping) (hready : .loop id ∈ s.ready)
    (hl : s.loops.lookup id = some l) (hstopped : l.stopped = true) :
    (s.concluded id l).Looping where
  numbered := hs.numbered
  unused k hk := by
    by_cases hid : k = id
    · rw [hid]
      exact lookup_without_self _ _
    · exact (concluded_loops_ne hid).trans (hs.unused k hk)
  going {k l'} hl' := by
    by_cases hk : k = id
    · rw [hk] at hl'
      cases (lookup_without_self id s.loops).symm.trans hl'
    · exact hs.going ((concluded_loops_ne hk).symm.trans hl')
  polled {k} hpoller := by
    have hpoller : s.poller = some k := hpoller
    by_cases hk : k = id
    · -- the loop of the manager was not told to stop
      have hgoing := (hs.going hl).mpr (hk ▸ hpoller)
      rw [hstopped] at hgoing
      cases hgoing
    · rw [concluded_loops_ne hk]
      exact hs.polled hpoller
  placed k := by
    by_cases hk : k = id
    · obtain ⟨-, hone, hidle⟩ := hs.ready hready
      have herased := erase_pending_self hready
      rw [hk]
      exact .gone (lookup_without_self _ _) (Nat.succ.inj (herased.trans hone)) hidle
    · exact (hs.placed k).congr (by rw [concluded_loops_ne hk])
        (erase_pending_ne (by simpa using hk) s) fun _ => Iff.rfl

/-! ## Moves -/

theorem Beside.deeds (h : Beside s t) : Deeds s t := .single (.beside h)

theorem wake_beside (hx : ∀ k, x ≠ .loop k) (s : Manager) : Beside s (s.wake x) := by
  have hpending (k : LoopId) := wake_pending_ne (Ne.symm (hx k)) s
  obtain ⟨ready, hwake⟩ := wake_eq s x
  rw [hwake] at hpending ⊢
  exact ⟨rfl, rfl, rfl, rfl, fun _ => rfl, hpending, .same rfl⟩

theorem foldl_wake_beside {tasks : List Task} (h : ∀ x ∈ tasks, ∀ k, x ≠ .loop k) (s : Manager) :
    Beside s (tasks.foldl wake s) := by
  induction tasks generalizing s with
  | nil => exact .refl s
  | cons x rest ih =>
    obtain ⟨hx, hrest⟩ := List.forall_mem_cons.mp h
    exact (wake_beside hx s).trans (ih hrest _)

theorem erase_beside (hx : ∀ k, x ≠ .loop k) (s : Manager) :
    Beside s { s with ready := s.ready.erase x } :=
  ⟨rfl, rfl, rfl, rfl, fun _ => rfl, fun k => erase_pending_ne (Ne.symm (hx k)) s, .same rfl⟩

theorem setFlight_beside (hf : s.flights.lookup f = some ⟨owner, work⟩) (work' : Work) :
    Beside s (s.setFlight f ⟨owner, work'⟩) where
  poller := rfl
  loops := rfl
  nextId := rfl
  now := rfl
  owners g := by
    show ((upsert f ⟨owner, work'⟩ s.flights).lookup g).map (·.owner) = _
    by_cases hg : g = f
    · rw [hg, lookup_upsert_self, hf]
      rfl
    · rw [lookup_upsert_ne _ _ hg]
  pending _ := rfl
  trace := .same rfl

theorem launch_beside (hf : s.flights.lookup f = some ⟨owner, work⟩) (options : CheckOptions)
    (stage : Stage) (conns : List Connection) :
    Beside s (s.launch f owner options stage conns) := by
  let counted : Manager := { s with started := s.started + conns.length }
  have hcounted : Beside s counted := ⟨rfl, rfl, rfl, rfl, fun _ => rfl, fun _ => rfl, .same rfl⟩
  rw [launch_opened]
  refine (hcounted.trans (setFlight_beside (s := counted) hf _)).trans
    (foldl_wake_beside (fun x hx k => ?_) _)
  obtain ⟨i, -, rfl⟩ := List.mem_map.mp hx
  simp

theorem record_beside (s : Manager) {e : Event} (h : e.iteration? = none) :
    Beside s (s.record e) :=
  ⟨rfl, rfl, rfl, rfl, fun _ => rfl, fun _ => rfl, .noted rfl h⟩

theorem Chore.deeds (h : Chore s t) : Deeds s t := by
  cases h with
  | note _ h => exact (record_beside s h).deeds
  | stopPolling => exact .single .stops
  | startPolling h => exact .single (.starts h)
  | spawn name op =>
    let begun : Manager := { s with
      nextId := s.nextId + 1
      flights := upsert s.nextId ⟨.task, .queued op⟩ s.flights }
    have hqueued : Deed s begun := .queues .task op (by simp)
    have hcounted : Beside begun { begun with
      started := s.started + 1, tasks := upsert name s.nextId s.tasks } :=
      ⟨rfl, rfl, rfl, rfl, fun _ => rfl, fun _ => rfl, .same rfl⟩
    exact .head hqueued (hcounted.trans (wake_beside (by simp) _)).deeds
  | _ =>
    exact Beside.deeds ⟨rfl, rfl, rfl, rfl, fun _ => rfl, fun _ => rfl, .same rfl⟩

theorem Chores.deeds (h : Chores s t) : Deeds s t := by
  induction h with
  | refl => exact .refl
  | tail _ hchore ih => exact ih.trans hchore.deeds

theorem setProbe_beside (s : Manager) (f : FlightId) (i : Nat) (state : ProbeState) :
    Beside s (s.setProbe f i state) := by
  unfold setProbe
  split
  · next hflight => exact setFlight_beside hflight _
  · exact .refl s

theorem probing_beside (s : Manager) (p : BatchProbe) : Beside s (s.probing p) :=
  ⟨rfl, rfl, rfl, rfl, fun _ => rfl, fun _ => rfl, .noted rfl rfl⟩

theorem endProbe_beside (s : Manager) (f : FlightId) (i : Nat) (c : Connection)
    (outcome : Probe.Outcome) : Beside s (s.endProbe f i c outcome) := by
  have hnoted : Beside s
      ({ s with pool := s.pool.observe c outcome }.record (.probeEnded c outcome)) :=
    ⟨rfl, rfl, rfl, rfl, fun _ => rfl, fun _ => rfl, .noted rfl rfl⟩
  exact (hnoted.trans (setProbe_beside _ f i _)).trans (wake_beside (by simp) _)

theorem ProbeTurn.beside {i : Nat} (h : ProbeTurn f i s t) : Beside s t := by
  cases h with
  | nothing => exact .refl s
  | breaks _ _ _ =>
    exact ((probing_beside s _).trans (setProbe_beside _ f i _)).trans (wake_beside (by simp) _)
  | waits outcome due _ _ =>
    have hsleep (a : Manager) : Beside a (a.sleep due (.probe f i)) :=
      ⟨rfl, rfl, rfl, rfl, fun _ => rfl, fun k => sleep_pending_ne (by simp) due, .same rfl⟩
    exact ((probing_beside s _).trans (setProbe_beside _ f i _)).trans (hsleep _)
  | answers outcome _ _ => exact (probing_beside s _).trans (endProbe_beside _ f i _ _)
  | ends _ _ => exact endProbe_beside s f i _ _

/-- What a move comes down to: deeds, and at the end an operation or a loop may end. Or else time
passes. -/
inductive Conduct (s : Manager) : Manager → Prop
  | goes {t : Manager} : Deeds s t → Conduct s t
  | passes {a : Manager} (time : Nat) : Beside s a → Conduct s { a with now := time }
  | lands {a : Manager} {f : FlightId} {owner : Owner} {work : Work} (reply : Reply) :
      Deeds s a → a.flights.lookup f = some ⟨owner, work⟩ → Conduct s (a.land f owner reply)
  | quits {id : LoopId} {l : PollLoop} : .loop id ∈ s.ready → s.loops.lookup id = some l →
      l.stopped = true → Conduct s (s.concluded id l)

theorem Conduct.looping (h : Conduct s t) (hs : s.Looping) : t.Looping := by
  cases h with
  | goes h => exact hs.deeds h
  | passes time h => exact (hs.beside h).passes time
  | lands reply h hf => exact (hs.deeds h).land hf reply
  | quits hready hl hstopped => exact hs.quit hready hl hstopped

/-- A stretch of chores leaves an operation alone that is under way. -/
theorem Lasting.lookup (h : Lasting s t) (hs : s.Numbered) {flight : Flight}
    (hf : s.flights.lookup f = some flight) : t.flights.lookup f = some flight := by
  rcases h.flights f with hsame | ⟨hle, -, -⟩
  · exact hsame.trans hf
  · cases (hs f hle).symm.trans hf

theorem proceed_conduct (h : Deeds s a) (hf : a.flights.lookup f = some ⟨owner, work⟩)
    (progress : Progress) : Conduct s (a.proceed f owner progress) := by
  cases progress with
  | await options stage conns => exact .goes (h.trans (launch_beside hf options stage conns).deeds)
  | done reply => exact .lands reply h hf

theorem runFlight_conduct (hs : s.Numbered) (h : Deeds t s) (f : FlightId) :
    Conduct t (s.runFlight f) := by
  have hturn := runFlight_turn s f
  generalize s.runFlight f = after at hturn ⊢
  cases hturn with
  | waits _ => exact .goes h
  | @begins owner op hf =>
    have hbegin := begin_chores s op
    exact proceed_conduct (h.trans hbegin.deeds) (hbegin.lasting.lookup hs hf) _
  | breaks hf _ _ => exact .lands _ h hf
  | @goesOn owner options stage _ probed hf _ _ =>
    have hresume := resume_chores s options stage probed
    exact proceed_conduct (h.trans hresume.deeds) (hresume.lasting.lookup hs hf) _

theorem runLoop_conduct (hs : s.Looping) (hready : .loop id ∈ s.ready) :
    Conduct s (({ s with ready := s.ready.erase (.loop id) } : Manager).runLoop id) := by
  have hturn := runLoop_turn { s with ready := s.ready.erase (.loop id) } id
  generalize Manager.runLoop _ id = after at hturn ⊢
  cases hturn with
  | gone hnone => exact absurd hnone (hs.ready hready).1
  | quits hl hstopped => exact .quits hready hl hstopped
  | begins hl hgoing hdue =>
    have hbegins : Deed s (s.iteration id _) := .begins hready hl hgoing hdue
    exact runFlight_conduct (hs.iteration hready hl).numbered (.single hbegins) s.nextId
  | @waits l _ _ _ => exact .goes (doze_beside hready l.due).deeds

theorem next_conduct (hs : s.Looping) (m : Move) : Conduct s (s.next m) := by
  cases m with
  | call c => exact .goes (perform_chores s c).deeds
  | await r =>
    by_cases hheld : s.held = true
    · let queued : Manager := { s with nextId := s.nextId + 1 }.setFlight s.nextId
        ⟨.caller, .queued (s.operation r)⟩
      have hqueued : Deed s queued := .queues .caller (s.operation r) (by simp)
      have hnext : s.next (.await r) = queued.runFlight s.nextId := if_pos hheld
      rw [hnext]
      exact runFlight_conduct (hs.deed hqueued).numbered (.single hqueued) s.nextId
    · rw [show s.next (.await r) = s from if_neg hheld]
      exact .goes .refl
  | turn task =>
    by_cases hready : task ∈ s.ready
    · cases task with
      | probe f i =>
        rw [next_probe hready]
        exact .goes ((erase_beside (by simp) s).trans (runProbe_turn _ f i).beside).deeds
      | flight f =>
        rw [next_flight hready]
        exact runFlight_conduct (s := { s with ready := s.ready.erase (.flight f) }) hs.numbered
          (erase_beside (by simp) s).deeds f
      | loop id =>
        rw [next_runLoop hready]
        exact runLoop_conduct hs hready
    · rw [next_not_ready hready]
      exact .goes .refl
  | clock time =>
    obtain ⟨a, hbeside, hclock⟩ := moveClock_beside hs time
    rw [show s.next (.clock time) = _ from hclock]
    exact .passes time hbeside
  | collect _ | forget _ | idle _ =>
    exact .goes (Beside.deeds ⟨rfl, rfl, rfl, rfl, fun _ => rfl, fun _ => rfl, .same rfl⟩)

theorem Looping.next (h : s.Looping) (m : Move) : (s.next m).Looping := (next_conduct h m).looping h

theorem looping_idle (network : Network) (hasRuntime : Bool) :
    (idle network hasRuntime).Looping where
  numbered _ _ := rfl
  unused _ _ := rfl
  going hl := absurd hl (by simp [idle])
  polled hpoller := absurd hpoller (by simp [idle])
  placed _ := .gone rfl rfl fun _ hf => absurd hf (by simp [AnswersTo, idle])

theorem Fresh.looping (h : Fresh s) : s.Looping := by
  obtain ⟨network, hasRuntime, hchores⟩ := h.chores
  exact (looping_idle network hasRuntime).deeds (Chores.deeds hchores)

theorem Reachable.looping (h : Reachable s) : s.Looping := by
  obtain ⟨r, moves, hfresh, rfl⟩ := reachable_iff.mp h
  exact List.foldlRecOn moves Manager.next hfresh.looping fun _ hs m _ => hs.next m

end Manager

end RpcPool

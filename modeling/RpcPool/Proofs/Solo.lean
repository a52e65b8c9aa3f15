import RpcPool.Proofs.Deadlines

/-!
# The moves of one operation

What can happen while the tasks of one operation are the only ones to take turns, whatever the
endpoints of its probes do: a probe takes its turn, the operation finds its batch joined, or nothing
changes but the clock and the tasks.

Results:
1. `Tended.alone`: all that a move of one operation can do while it waits for a batch.
2. `ended_run`: once the operation has ended, nothing starts or ends any more.
3. `ProbeStep.outcomes`: what is taken note of in the turn of a probe.
4. `Reachable.tasked`: the operations that are still to begin are tasks of their own.
5. `Undertakes.can_end`: whatever an operation has done by itself, it can be brought to its end.
-/

namespace RpcPool

/-- What a probe that has ended has shown about a connection. -/
def Ending.shown? (c : Connection) (e : Ending) : Option Probe.Outcome :=
  if e.connection.id = c.id then some e.outcome else none

/-- What some probes have shown about a connection, in the order in which they ended. -/
def shownBy (c : Connection) (ends : List Ending) : List Probe.Outcome :=
  ends.filterMap (·.shown? c)

theorem shownBy_append (c : Connection) (ends more : List Ending) :
    shownBy c (ends ++ more) = shownBy c ends ++ shownBy c more :=
  List.filterMap_append

namespace Manager

open Relation

variable {s t u a : Manager} {m : Move} {moves : List Move} {f : FlightId} {i : Nat}
  {owner : Owner} {options : CheckOptions} {stage : Stage} {probes : List BatchProbe}
  {p : BatchProbe} {state : ProbeState} {op : Operation}

/-! ## Moves of one operation -/

/-- A move of an operation that waits for a batch. -/
inductive Alone (f : FlightId) (owner : Owner) (options : CheckOptions) (stage : Stage)
    (probes : List BatchProbe) (s : Manager) : Move → Manager → Prop
  /-- Nothing happens to the batch. -/
  | rests {m : Move} {now : Nat} {timers : List (Nat × Task)} {ready : List Task} :
      s.turning m = none →
      Alone f owner options stage probes s m { s with now := now, timers := timers, ready := ready }
  /-- A probe takes its turn. -/
  | probes {i : Nat} {p : BatchProbe} {state : ProbeState} {t : Manager} :
      .probe f i ∈ s.ready → probes[i]? = some p → p.state.isOver = false →
      ProbeStep f i p { s with ready := s.ready.erase (.probe f i) } state t →
      Alone f owner options stage probes s (.turn (.probe f i)) t
  /-- A probe has broken, and so has the operation. -/
  | breaks {task : Nat} {t : Manager} : .flight f ∈ s.ready → joined probes = true →
      changes probes = .error task →
      t = ({ s with ready := s.ready.erase (.flight f) } : Manager).land f owner
        (.broken ⟨Stage.operation stage, task⟩) →
      Alone f owner options stage probes s (.turn (.flight f)) t
  /-- The operation goes on from its batch. -/
  | goesOn {probed : List (Connection × Bool)} {a t : Manager} : .flight f ∈ s.ready →
      joined probes = true → changes probes = .ok probed →
      a = { s with ready := s.ready.erase (.flight f) } →
      t = (a.resume options stage probed).1.proceed f owner (a.resume options stage probed).2 →
      Alone f owner options stage probes s (.turn (.flight f)) t

/-- All that a move of one operation can do while it waits for a batch. -/
theorem Tended.alone (hs : s.Tended)
    (hflight : s.flights.lookup f = some ⟨owner, .batch options stage probes⟩)
    (hm : m.within f) : Alone f owner options stage probes s m (s.next m) := by
  have hrests (h : s.turning m = none) (hnext : s.next m = s) :
      Alone f owner options stage probes s m (s.next m) := by
    rw [hnext]
    exact @Alone.rests f owner options stage probes s m s.now s.timers s.ready h
  cases m with
  | turn task =>
    by_cases hready : task ∈ s.ready
    · cases task with
      | probe g i =>
        cases hm
        -- a probe with a task is in the batch, and it is not over
        obtain ⟨p, hp, hopen⟩ : ∃ p, s.probe? f i = some p ∧ p.state.isOver = false := by
          by_contra hnone
          push Not at hnone
          have hzero : s.tokens f i = 0 :=
            (hs.tokens f i).trans (owed_over fun p hp => by simpa using hnone p hp)
          have hcount : s.ready.count (.probe f i) = 0 := Nat.eq_zero_of_add_eq_zero_right hzero
          exact List.count_eq_zero.mp hcount hready
        obtain ⟨state, hstep⟩ := runProbe_step
          (s := { s with ready := s.ready.erase (.probe f i) }) hp hopen
        rw [next_probe hready]
        exact .probes hready ((probe?_batch hflight i).symm.trans hp) hopen hstep
      | flight g =>
        cases hm
        let erased : Manager := { s with ready := s.ready.erase (.flight f) }
        have hflight : erased.flights.lookup f = some ⟨owner, .batch options stage probes⟩ :=
          hflight
        rw [next_flight hready]
        cases hjoined : joined probes with
        | false =>
          rw [show erased.runFlight f = erased from runFlight_waiting hflight hjoined]
          exact @Alone.rests f owner options stage probes s _ s.now s.timers _ rfl
        | true =>
          cases hchanges : changes probes with
          | error task =>
            exact .breaks hready hjoined hchanges (runFlight_broken hflight hjoined hchanges)
          | ok probed =>
            exact .goesOn hready hjoined hchanges rfl (runFlight_joined hflight hjoined hchanges)
      | loop id => exact absurd hm (by simp [Move.within])
    · refine hrests ?_ (next_not_ready hready)
      cases task with
      | probe g i => exact if_neg fun h => hready (List.contains_iff_mem.mp h)
      | flight g => rfl
      | loop id => rfl
  | clock time =>
    obtain ⟨timers, ready, hclock⟩ := moveClock_eq s time
    show Alone f owner options stage probes s (.clock time) (s.moveClock time)
    rw [hclock]
    exact .rests rfl
  | _ => exact absurd hm (by simp [Move.within])

/-- The first probe that has not ended is the one that is blamed. -/
theorem changes_error {task : Nat} (h : changes probes = .error task) :
    ∃ p ∈ probes, p.task = task ∧ ∀ changed, p.state ≠ .ended changed := by
  induction probes with
  | nil => exact absurd h (by simp [changes, pure, Except.pure])
  | cons p rest ih =>
    rw [changes_cons] at h
    split at h
    · cases hrest : changes rest with
      | error first =>
        rw [hrest] at h
        cases h
        obtain ⟨q, hq, htask⟩ := ih hrest
        exact ⟨q, List.mem_cons_of_mem _ hq, htask⟩
      | ok probed =>
        rw [hrest] at h
        exact absurd h (by simp [Except.map])
    · next hstate =>
      cases h
      exact ⟨p, List.mem_cons_self, rfl, hstate⟩

/-- Once an operation has ended, no probe of it takes a turn. -/
theorem ended_turning (h : s.flights.lookup f = none) (hm : m.within f) : s.turning m = none := by
  cases m with
  | turn task =>
    cases task with
    | probe g i =>
      cases hm
      show (if s.ready.contains (.probe f i) then s.probe? f i else none) = none
      rw [probe?_none h, ite_self]
    | _ => rfl
  | _ => rfl

/-- Once an operation has ended, nothing changes any more but the clock and the tasks. -/
theorem ended_run (h : s.flights.lookup f = none) (hmoves : ∀ m ∈ moves, m.within f) :
    (∃ now timers ready, moves.foldl next s =
      { s with now := now, timers := timers, ready := ready }) ∧
    s.attempts moves = [] ∧ s.endings moves = [] := by
  induction moves generalizing s with
  | nil => exact ⟨⟨s.now, s.timers, s.ready, rfl⟩, rfl, rfl⟩
  | cons m rest ih =>
    have hm := hmoves m List.mem_cons_self
    have hturning := ended_turning h hm
    obtain ⟨now, timers, ready, hnext⟩ := ended_next hm h
    have hgone : (s.next m).flights.lookup f = none := by
      rw [hnext]
      exact h
    obtain ⟨⟨now', timers', ready', hrest⟩, hattempts, hendings⟩ :=
      ih hgone fun k hk => hmoves k (List.mem_cons_of_mem _ hk)
    refine ⟨⟨now', timers', ready', ?_⟩, ?_, ?_⟩
    · rw [List.foldl_cons, hrest, hnext]
    · show s.startsIn m ++ (s.next m).attempts rest = []
      rw [startsIn_none hturning, hattempts, List.append_nil]
    · show s.endsIn m ++ (s.next m).endings rest = []
      rw [endsIn_none hturning, hendings, List.append_nil]

/-! ## What the turn of a probe shows -/

/-- The turn of a probe is quiet. -/
theorem ProbeStep.still (h : ProbeStep f i p s state t) : Still s t := by
  have hprobing := probing_quiet (K := fun _ => True) s p
  have hset (u : Manager) (state : ProbeState) :
      QuietStretch (fun _ => True) u (u.setProbe f i state) :=
    QuietStretch.work (setProbe_frame u f i state)
  cases h with
  | breaks _ _ =>
    exact QuietStretch.still ((hprobing.trans (hset _ _)).trans (QuietStretch.work
      (wake_frame _ _)))
  | waits _ _ =>
    exact QuietStretch.still ((hprobing.trans (hset _ _)).trans (QuietStretch.work
      (sleep_frame _ _ _)))
  | answers _ _ _ => exact QuietStretch.still (hprobing.trans (endProbe_quiet _ f i _ _))
  | ends _ => exact (endProbe_quiet (K := fun _ => True) s f i _ _).still

/-- In the turn of a probe nothing is taken note of but what the probe has shown. -/
theorem ProbeStep.outcomes (h : ProbeStep f i p s state t) (c : Connection) :
    outcomes c (since s t) = ((since s t).filterMap (·.event.concluded?)).filterMap
      fun e => if e.1.id = c.id then some e.2 else none := by
  have hset (u : Manager) (state : ProbeState) : (u.setProbe f i state).trace = u.trace :=
    (setProbe_frame (K := fun _ => True) u f i state).trace
  have hwake (u : Manager) : (u.wake (.flight f)).trace = u.trace :=
    (wake_frame (K := fun _ => True) u _).trace
  cases h with
  | breaks _ _ =>
    rw [since_of_cons ((hwake _).trans (hset _ _))]
    rfl
  | waits _ _ =>
    rw [since_of_cons (hset _ _)]
    rfl
  | @answers outcome _ _ _ =>
    rw [since_two (endProbe_trace _ f i p.connection outcome)]
    by_cases hid : p.connection.id = c.id <;>
      simp [RpcPool.outcomes, Event.outcome?, Event.concluded?, hid]
  | @ends outcome _ =>
    have htrace : (s.endProbe f i p.connection outcome).trace = _ :: s.trace :=
      endProbe_trace s f i p.connection outcome
    rw [since_of_cons htrace]
    by_cases hid : p.connection.id = c.id <;>
      simp [RpcPool.outcomes, Event.outcome?, Event.concluded?, hid]

/-- The turn of a probe makes of what is known of each connection what the probe has shown. -/
theorem probe_health
    (hstep : ProbeStep f i p { s with ready := s.ready.erase (.probe f i) } state
      (s.next (.turn (.probe f i)))) (c : Connection) :
    (s.next (.turn (.probe f i))).pool.healthOf c =
      (shownBy c (s.endsIn (.turn (.probe f i)))).foldl Health.observe (s.pool.healthOf c) := by
  have houtcomes : outcomes c (since s (s.next (.turn (.probe f i)))) = _ := hstep.outcomes c
  rw [show since { s with ready := s.ready.erase (.probe f i) } (s.next (.turn (.probe f i))) =
    since s (s.next (.turn (.probe f i))) from rfl, concluded_entries, List.filterMap_map]
    at houtcomes
  rw [(next_flat s _).recalls.health c, houtcomes]
  rfl

/-! ## Operations that are still to begin -/

/-- The operations that are in the queue are tasks of their own, but for those that are being run. -/
def Tasked (skip : FlightId → Prop) (s : Manager) : Prop :=
  ∀ g, ¬ skip g → ∀ owner op, s.flights.lookup g = some ⟨owner, .queued op⟩ → owner = .task

variable {skip : FlightId → Prop}

theorem Tasked.same (h : Tasked skip s) (hflights : t.flights = s.flights) : Tasked skip t := by
  intro g hg owner op hqueued
  rw [hflights] at hqueued
  exact h g hg owner op hqueued

theorem Tasked.skipping (h : Tasked (fun _ => False) s) (skip : FlightId → Prop) :
    Tasked skip s :=
  fun g _ => h g fun hfalse => hfalse

/-- An operation is put in the queue to be run at once. -/
theorem Tasked.queue (h : Tasked (fun _ => False) s) (hflights : t.flights =
    upsert f ⟨owner, .queued op⟩ s.flights) : Tasked (· = f) t := by
  intro g hg owner' op' hqueued
  rw [hflights, lookup_upsert_ne _ _ hg] at hqueued
  exact h g (fun hfalse => hfalse) owner' op' hqueued

theorem Chore.tasked (hchore : Chore s t) (h : Tasked skip s) : Tasked skip t := by
  cases hchore with
  | stopPolling =>
    obtain ⟨poller, loops, timers, ready, hstop⟩ := stopPolling_eq s
    rw [hstop]
    exact h.same rfl
  | startPolling hstart =>
    obtain ⟨poller, loops, timers, ready, nextId, started, _, rfl⟩ := startPolling_eq hstart
    exact h.same rfl
  | spawn name op =>
    intro g hg owner op' hqueued
    obtain ⟨ready, hwake⟩ := wake_eq { s with
      nextId := s.nextId + 1
      started := s.started + 1
      flights := upsert s.nextId ⟨.task, .queued op⟩ s.flights
      tasks := upsert name s.nextId s.tasks } (.flight s.nextId)
    rw [hwake] at hqueued
    by_cases hid : g = s.nextId
    · rw [hid] at hqueued
      cases (lookup_upsert_self s.nextId _ s.flights).symm.trans hqueued
      rfl
    · exact h g hg owner op' ((lookup_upsert_ne _ _ hid).symm.trans hqueued)
  | _ => exact h.same rfl

theorem Chores.tasked (hchores : Chores s t) (h : Tasked skip s) : Tasked skip t := by
  induction hchores with
  | refl => exact h
  | tail _ hchore ih => exact hchore.tasked ih

/-- An operation that goes on is in the queue no longer. -/
theorem Tasked.proceed (h : Tasked (· = f) s) (owner : Owner) (progress : Progress) :
    Tasked (fun _ => False) (s.proceed f owner progress) := by
  intro g _ owner' op hqueued
  cases progress with
  | await options stage conns =>
    by_cases hg : g = f
    · rw [hg] at hqueued
      cases (launch_lookup s f owner options stage conns).symm.trans hqueued
    · exact h g hg owner' op ((launch_lookup_ne hg).symm.trans hqueued)
  | done reply =>
    have hland : (s.land f owner reply).flights.lookup g = some ⟨owner', .queued op⟩ := hqueued
    rw [land_flights] at hland
    by_cases hg : g = f
    · rw [hg, lookup_without_self] at hland
      exact absurd hland (by simp)
    · exact h g hg owner' op ((lookup_without_ne _ hg).symm.trans hland)

theorem Tasked.runFlight (h : Tasked (· = f) s) :
    Tasked (fun _ => False) (s.runFlight f) := by
  have hturn := runFlight_turn s f
  generalize s.runFlight f = after at hturn ⊢
  cases hturn with
  | waits hwaits =>
    intro g _ owner op hqueued
    by_cases hg : g = f
    · obtain ⟨_, _, _, hbatch, _⟩ := hwaits _ (hg ▸ hqueued)
      exact absurd hbatch (by simp)
    · exact h g hg owner op hqueued
  | @begins owner op _ => exact Tasked.proceed (Chores.tasked (begin_chores s op) h) owner _
  | @breaks owner _ _ _ _ _ _ _ => exact h.proceed owner (.done _)
  | @goesOn owner options stage _ probed _ _ _ =>
    exact Tasked.proceed (Chores.tasked (resume_chores s options stage probed) h) owner _

theorem Tasked.runProbe (h : Tasked (fun _ => False) s) (i : Nat) :
    Tasked (fun _ => False) (s.runProbe f i) := by
  rcases runProbe_cases s f i with ⟨_, hidle⟩ | ⟨p, state, hp, _, hstep⟩
  · rw [hidle]
    exact h
  · obtain ⟨owner, options, stage, probes, hflight, _⟩ := probe?_some hp
    have hstepped := hstep.stepped hflight
    intro g _ owner' op hqueued
    by_cases hg : g = f
    · rw [hg] at hqueued
      cases hstepped.lookup.symm.trans hqueued
    · exact h g (fun hfalse => hfalse) owner' op ((hstepped.lookup_ne hg).symm.trans hqueued)

theorem Tasked.runLoop (h : Tasked (fun _ => False) s) (id : LoopId) :
    Tasked (fun _ => False) (s.runLoop id) := by
  have hturn := runLoop_turn s id
  generalize s.runLoop id = after at hturn ⊢
  cases hturn with
  | gone _ => exact h
  | quits _ _ => exact h.same rfl
  | begins _ _ _ => exact Tasked.runFlight (h.queue rfl)
  | waits _ _ _ => exact h.same rfl

theorem Tasked.next (h : Tasked (fun _ => False) s) (m : Move) :
    Tasked (fun _ => False) (s.next m) := by
  have herased (task : Task) :
      Tasked (fun _ => False) { s with ready := s.ready.erase task } := h.same rfl
  cases m with
  | call c => exact Chores.tasked (perform_chores s c) h
  | await r =>
    dsimp only [Manager.next]
    split
    · let queued : Manager := { s with nextId := s.nextId + 1 }.setFlight s.nextId
        ⟨.caller, .queued (s.operation r)⟩
      have hflights : queued.flights =
        upsert s.nextId ⟨.caller, .queued (s.operation r)⟩ s.flights := rfl
      exact Tasked.runFlight (h.queue hflights)
    · exact h
  | turn task =>
    by_cases hready : task ∈ s.ready
    · cases task with
      | probe g i =>
        rw [next_probe hready]
        exact Tasked.runProbe (herased _) i
      | flight g =>
        rw [next_flight hready]
        exact Tasked.runFlight (h.skipping _)
      | loop id =>
        rw [next_runLoop hready]
        exact Tasked.runLoop (herased _) id
    · rw [next_not_ready hready]
      exact h
  | clock time =>
    obtain ⟨timers, ready, hclock⟩ := moveClock_eq s time
    show Tasked (fun _ => False) (s.moveClock time)
    rw [hclock]
    exact h.same rfl
  | collect id => exact h.same rfl
  | forget name => exact h.same rfl
  | idle tasks => exact h.same rfl

/-- In a run, the operations that are still to begin are tasks of their own. -/
theorem Reachable.tasked (h : Reachable s) : Tasked (fun _ => False) s := by
  have hidle (network : Network) (hasRuntime : Bool) :
      Tasked (fun _ => False) (Manager.idle network hasRuntime) :=
    fun g _ owner op hqueued => absurd hqueued (by simp [Manager.idle])
  obtain ⟨s₀, moves, hfresh, rfl⟩ := reachable_iff.mp h
  obtain ⟨network, hasRuntime, hchores⟩ := hfresh.chores
  exact List.foldlRecOn (motive := Tasked fun _ => False) moves _
    (Chores.tasked hchores (hidle network hasRuntime)) fun _ h m _ => h.next m

/-- An operation that is no iteration of a poll loop answers to its caller, or is a task. -/
theorem Undertakes.answers (h : Undertakes s m f op) (hs : Tasked (fun _ => False) s)
    (hop : ∀ o, op ≠ .poll o) (id : LoopId) : s.ownerOf f m ≠ .loop id := by
  cases h with
  | awaited _ => exact fun heq => absurd heq (by simp [ownerOf])
  | @task _ owner _ hflight _ =>
    have howner : s.ownerOf f (.turn (.flight f)) = owner := by
      unfold ownerOf
      rw [hflight]
      rfl
    rw [howner, hs f (fun hfalse => hfalse) owner op hflight]
    simp
  | iteration _ _ _ _ => exact absurd rfl (hop _)

/-! ## The end of an operation -/

/-- An operation has come to its end, or it waits for a batch. -/
def Rested (f : FlightId) (t : Manager) : Prop :=
  t.flights.lookup f = none ∨ ∃ owner options stage probes,
    t.flights.lookup f = some ⟨owner, .batch options stage probes⟩

theorem proceed_rested (s : Manager) (f : FlightId) (owner : Owner) (progress : Progress) :
    Rested f (s.proceed f owner progress) := by
  cases progress with
  | await options stage conns =>
    exact Or.inr ⟨_, _, _, _, launch_lookup s f owner options stage conns⟩
  | done reply => exact Or.inl (land_gone s f owner reply)

theorem Rested.next (h : Rested f t) (ht : t.Tended) (hm : m.within f) : Rested f (t.next m) := by
  rcases h with hended | ⟨owner, options, stage, probes, hflight⟩
  · obtain ⟨now, timers, ready, hnext⟩ := ended_next hm hended
    rw [hnext]
    exact Or.inl hended
  · have halone := ht.alone hflight hm
    generalize t.next m = u at halone ⊢
    cases halone with
    | rests _ => exact Or.inr ⟨_, _, _, _, hflight⟩
    | probes _ _ _ hstep => exact Or.inr ⟨_, _, _, _, (hstep.stepped hflight).lookup⟩
    | breaks _ _ _ hland =>
      rw [hland]
      exact Or.inl (land_gone _ f _ _)
    | goesOn _ _ _ _ hgoes =>
      rw [hgoes]
      exact proceed_rested _ f _ _

/-- However far an operation has come by itself, it can be brought to its end. -/
theorem Undertakes.can_end (h : Undertakes s m f op) (hs : s.Tended)
    (hmoves : ∀ k ∈ moves, k.within f) : ∃ more : List Move, (∀ k ∈ more, k.within f) ∧
      (more.foldl next ((m :: moves).foldl next s)).flights.lookup f = none := by
  have hrested : Rested f ((m :: moves).foldl next s) := by
    induction moves using List.reverseRecOn with
    | nil =>
      obtain ⟨a, _, hnext⟩ := h.begins hs.numbered
      rw [show [m].foldl next s = s.next m from rfl, hnext]
      exact proceed_rested _ f _ _
    | append_singleton rest k ih =>
      have hrest := ih fun l hl => hmoves l (List.mem_append_left _ hl)
      rw [← List.cons_append, List.foldl_append]
      exact hrest.next (hs.run_moves (m :: rest))
        (hmoves k (List.mem_append_right _ List.mem_cons_self))
  rcases hrested with hended | ⟨owner, options, stage, probes, hflight⟩
  · exact ⟨[], fun k hk => absurd hk List.not_mem_nil, hended⟩
  · exact (hs.run_moves (m :: moves)).can_end hflight

end Manager

end RpcPool

import Mathlib.Logic.Relation
import RpcPool.Proofs.Instances
import RpcPool.Proofs.Pool

/-!
# Critical sections

Whatever a manager does comes down to a few kinds of critical sections, each on one state and not
interrupted by anything. An operation under way has sections of its own (`Own`): bookkeeping, a note
of an event, the outcome of a probe, an automatic move of the current pointer. A call has one
section for what it changes (`Explicit`). Between sections listeners are called, who may answer with
calls.

Every function of the manager is taken apart here once. What is true of a run then follows from what
each kind of section does.

Results:
1. `performWith_stretch`: a call is at most one explicit section, and notifications.
2. `rank_stretch`, `begin_stretch`, `resume_stretch`, `runTask_stretch`: a check, from any point at
   which it had to wait to the next, consists of sections of its own and of notifications, and holds
   only connections that were named before.
3. `performTo_flat`, `Stretch.flat`: with the calls of listeners taken apart as well, only sections
   are left.
-/

namespace RpcPool

/-- An event that comes with no change of the pool. -/
def Event.plain : Event → Bool
  | .probeEnded .. => false
  | .observed .. => false
  | .switched _ => false
  | _ => true

/-- The listener that is called in an event, and what it is told. -/
def Event.told? : Event → Option (String × Option Connection)
  | .notified name current => some (name, current)
  | _ => none

namespace Manager

open Relation

/-- A manager without its bookkeeping: what is left is the pool, what has happened, the instances
and their names, and the listeners. -/
def kept (s : Manager) : Manager :=
  { idle ⟨[]⟩ true with
    pool := s.pool
    trace := s.trace
    made := s.made
    labels := s.labels
    held := s.held
    subscribers := s.subscribers
    listeners := s.listeners }

/-- Bookkeeping: nothing else changes, and what is newly named is at hand. -/
structure Frame (K : Connection → Prop) (a b : Manager) : Prop where
  kept : b.kept = a.kept
  instances : ∀ c ∈ b.instances, c ∈ a.instances ∨ K c

/-- The critical sections of an operation under way, which has some connections at hand. -/
inductive Own (K : Connection → Prop) : Manager → Manager → Prop
  | work {a b : Manager} : Frame K a b → Own K a b
  | note {a : Manager} {e : Event} : e.plain = true → Own K a (a.record e)
  | probe {a : Manager} (c : Connection) (outcome : Probe.Outcome) :
      Own K a ({ a with pool := a.pool.observe c outcome }.record (.probeEnded c outcome))
  | switch {a : Manager} {q : Pool} {w : Switch} :
      a.pool.Automatic K q w → Own K a ({ a with pool := q }.record (.switched w))

/-- The sections in which no listener is called and the current pointer stays where it is. -/
inductive Quiet (K : Connection → Prop) : Manager → Manager → Prop
  | work {a b : Manager} : Frame K a b → Quiet K a b
  | note {a : Manager} {e : Event} : e.plain = true → e.told? = none → Quiet K a (a.record e)
  | probe {a : Manager} (c : Connection) (outcome : Probe.Outcome) :
      Quiet K a ({ a with pool := a.pool.observe c outcome }.record (.probeEnded c outcome))

/-- The critical sections of calls. -/
inductive Explicit : Manager → Manager → Prop
  | make (a : Manager) (e : Endpoint) (label : Option String) :
      Explicit a ((a.instantiate e).1.label label ⟨a.made.length, e⟩)
  | register {a : Manager} {e : Endpoint} {r : Registry} (label : Option String) :
      a.pool.registry.add ⟨a.made.length, e⟩ = .ok r →
      Explicit a (((a.instantiate e).1.setRegistry r).label label ⟨a.made.length, e⟩)
  | remove {a : Manager} {uri : String} {r : Registry} {change : Change} :
      a.pool.registry.remove uri = .ok (r, change) → Explicit a (a.setRegistry r)
  | select {a : Manager} {c : Connection} {r : Registry} {change : Change} :
      c ∈ a.instances → a.pool.registry.select c = .ok (r, change) → Explicit a (a.setRegistry r)
  | selectUri {a : Manager} {uri : String} {r : Registry} {change : Change} :
      a.pool.registry.selectUri uri a.made.length = .ok (r, change) →
      Explicit a ((a.instantiate { uri }).1.setRegistry r)
  | disconnect (a : Manager) : Explicit a (a.setRegistry a.pool.registry.disconnect.1)
  | clear (a : Manager) : Explicit a (a.setRegistry a.pool.registry.clear.1)
  | reset (a : Manager) : Explicit a (a.setRegistry a.pool.registry.reset.1)
  | setAutoSwitch (a : Manager) (on : Bool) :
      Explicit a (a.setRegistry { a.pool.registry with autoSwitch := on })
  | setTimeout {a : Manager} {ms : UInt32} :
      ms ≠ 0 → Explicit a (a.setRegistry { a.pool.registry with timeoutMs := ms })
  | observe (a : Manager) (c : Connection) (outcome : Probe.Outcome) :
      Explicit a ({ a with pool := a.pool.observe c outcome }.record (.observed c outcome))
  | label {a : Manager} {c : Connection} (label : Option String) :
      c ∈ a.instances → Explicit a (a.label label c)
  | arrange {a b : Manager} :
      b.pool = a.pool → b.trace = a.trace → b.made = a.made → (∀ c ∈ b.instances, c ∈ a.instances) →
      Explicit a b

/-- One link of a stretch: a section, or all listeners being notified, with everything that they
answer. -/
inductive Link (K : Connection → Prop) (called : Prop) (ok : Performer → Prop) :
    Manager → Manager → Prop
  | own {a b : Manager} : Own K a b → Link K called ok a b
  | explicit {a b : Manager} : called → Explicit a b → Link K called ok a b
  | announcement {inner : Performer} (a : Manager) (current : Option Connection) :
      ok inner → Link K called ok a (announceWith inner a current)

/-- A stretch that is not interrupted. Only calls have explicit sections of their own. -/
abbrev Stretch (K : Connection → Prop) (called : Prop) (ok : Performer → Prop) :
    Manager → Manager → Prop :=
  ReflTransGen (Link K called ok)

/-- A stretch of quiet sections. -/
abbrev QuietStretch (K : Connection → Prop) : Manager → Manager → Prop := ReflTransGen (Quiet K)

/-- A stretch with the calls of listeners taken apart. -/
abbrev Flat (K : Connection → Prop) : Manager → Manager → Prop :=
  ReflTransGen fun a b => Own K a b ∨ Explicit a b

section

variable {K : Connection → Prop} {called : Prop} {ok : Performer → Prop} {inner : Performer}
  {s t u : Manager}

theorem Frame.refl (s : Manager) : Frame K s s := ⟨rfl, fun _ h => Or.inl h⟩

theorem Frame.trans (h : Frame K s t) (h' : Frame K t u) : Frame K s u :=
  ⟨h'.kept.trans h.kept, fun c hc => (h'.instances c hc).elim (h.instances c) Or.inr⟩

theorem Frame.pool (h : Frame K s t) : t.pool = s.pool := by
  have hpool := congrArg Manager.pool h.kept
  exact hpool

theorem Frame.trace (h : Frame K s t) : t.trace = s.trace := by
  have htrace := congrArg Manager.trace h.kept
  exact htrace

theorem Frame.made (h : Frame K s t) : t.made = s.made := by
  have hmade := congrArg Manager.made h.kept
  exact hmade

theorem Stretch.work (h : Frame K s t) : Stretch K called ok s t := .single (.own (.work h))

theorem Stretch.explicit (h : Explicit s t) : Stretch K True ok s t := .single (.explicit trivial h)

theorem QuietStretch.work (h : Frame K s t) : QuietStretch K s t := .single (.work h)

theorem QuietStretch.note {e : Event} (h : e.plain = true) (told : e.told? = none) :
    QuietStretch K s (s.record e) :=
  .single (.note h told)

theorem Quiet.own (h : Quiet K s t) : Own K s t := by
  cases h with
  | work hf => exact .work hf
  | note hplain _ => exact .note hplain
  | probe c outcome => exact .probe c outcome

theorem QuietStretch.stretch (h : QuietStretch K s t) : Stretch K called ok s t := by
  induction h with
  | refl => exact .refl
  | tail _ hsection ih => exact ih.tail (.own hsection.own)

/-! ## Bookkeeping -/

theorem wake_eq (s : Manager) (t : Task) : ∃ ready, s.wake t = { s with ready := ready } := by
  unfold wake
  split
  · exact ⟨s.ready, rfl⟩
  · exact ⟨s.ready ++ [t], rfl⟩

theorem foldl_wake_eq (tasks : List Task) (s : Manager) :
    ∃ ready, tasks.foldl wake s = { s with ready := ready } := by
  induction tasks generalizing s with
  | nil => exact ⟨s.ready, rfl⟩
  | cons t rest ih =>
    obtain ⟨ready, hwake⟩ := wake_eq s t
    obtain ⟨last, hrest⟩ := ih (s.wake t)
    exact ⟨last, by rw [List.foldl_cons, hrest, hwake]⟩

theorem rouse_eq (s : Manager) (t : Task) :
    ∃ timers ready, s.rouse t = { s with timers := timers, ready := ready } := by
  unfold rouse
  split
  · obtain ⟨ready, hwake⟩ := wake_eq { s with timers := s.timers.filter fun e => !(e.2 == t) } t
    exact ⟨_, ready, hwake⟩
  · exact ⟨s.timers, s.ready, rfl⟩

theorem stopLoop_eq (s : Manager) (id : LoopId) :
    ∃ loops timers ready,
      s.stopLoop id = { s with loops := loops, timers := timers, ready := ready } := by
  unfold stopLoop
  split
  · exact ⟨s.loops, s.timers, s.ready, rfl⟩
  · next l _ =>
    obtain ⟨timers, ready, hrouse⟩ := rouse_eq
      { s with loops := upsert id { l with stopped := true } s.loops } (.loop id)
    exact ⟨_, timers, ready, hrouse⟩

theorem stopPolling_eq (s : Manager) :
    ∃ poller loops timers ready, s.stopPolling =
      { s with poller := poller, loops := loops, timers := timers, ready := ready } := by
  unfold stopPolling
  split
  · exact ⟨s.poller, s.loops, s.timers, s.ready, rfl⟩
  · next id _ =>
    obtain ⟨loops, timers, ready, hstop⟩ := stopLoop_eq { s with poller := none } id
    exact ⟨none, loops, timers, ready, hstop⟩

/-- Letting go of a manager may stop its poll loop, and does nothing else. -/
theorem release_eq (s : Manager) :
    ∃ poller loops timers ready, s.release =
      { s with poller := poller, loops := loops, timers := timers, ready := ready } := by
  unfold release
  split
  · exact ⟨s.poller, s.loops, s.timers, s.ready, rfl⟩
  · exact stopPolling_eq s

theorem startPolling_eq {o : PollOptions} (h : s.startPolling o = .ok t) :
    ∃ poller loops timers ready nextId started, s.nextId ≤ nextId ∧ t =
      { s.record (.pollingStarted o.periodMs o.pollType) with
        poller := poller, loops := loops, timers := timers, ready := ready
        nextId := nextId, started := started } := by
  unfold startPolling at h
  split at h
  · simp only [Except.ok.injEq] at h
    obtain ⟨ready, hwake⟩ := wake_eq
      { s.record (.pollingStarted o.periodMs o.pollType) with
        nextId := s.nextId + 1
        started := s.started + 1
        loops := upsert s.nextId ⟨o, false, 0, s.now, s.now⟩ s.loops
        poller := some s.nextId } (.loop s.nextId)
    rw [hwake] at h
    split at h
    · next old _ =>
      obtain ⟨loops, timers, ready', hstop⟩ := stopLoop_eq
        { s.record (.pollingStarted o.periodMs o.pollType) with
          nextId := s.nextId + 1
          started := s.started + 1
          loops := upsert s.nextId ⟨o, false, 0, s.now, s.now⟩ s.loops
          poller := some s.nextId
          ready := ready } old
      exact ⟨some s.nextId, loops, timers, ready', s.nextId + 1, s.started + 1,
        Nat.le_succ _, h.symm.trans hstop⟩
    · exact ⟨some s.nextId, _, s.timers, ready, s.nextId + 1, s.started + 1, Nat.le_succ _,
        h.symm⟩
  · exact absurd h (by simp)

theorem wake_frame (s : Manager) (t : Task) : Frame K s (s.wake t) := by
  obtain ⟨ready, hwake⟩ := wake_eq s t
  rw [hwake]
  exact ⟨rfl, fun _ h => Or.inl h⟩

theorem foldl_wake_frame (tasks : List Task) (s : Manager) : Frame K s (tasks.foldl wake s) := by
  obtain ⟨ready, hwake⟩ := foldl_wake_eq tasks s
  rw [hwake]
  exact ⟨rfl, fun _ h => Or.inl h⟩

theorem rouse_frame (s : Manager) (t : Task) : Frame K s (s.rouse t) := by
  obtain ⟨timers, ready, hrouse⟩ := rouse_eq s t
  rw [hrouse]
  exact ⟨rfl, fun _ h => Or.inl h⟩

theorem sleep_frame (s : Manager) (due : Nat) (t : Task) : Frame K s (s.sleep due t) :=
  ⟨rfl, fun _ h => Or.inl h⟩

theorem setFlight_frame {id : FlightId} {f : Flight}
    (h : ∀ c ∈ f.work.instances, c ∈ s.instances ∨ K c) : Frame K s (s.setFlight id f) :=
  ⟨rfl, fun c hc => (mem_instances_setFlight hc).elim Or.inl (h c)⟩

theorem setLoop_frame {id : LoopId} {l : PollLoop}
    (h : ∀ c ∈ l.options.excluded, c ∈ s.instances ∨ K c) : Frame K s (s.setLoop id l) :=
  ⟨rfl, fun c hc => (mem_instances_setLoop hc).elim Or.inl (h c)⟩

theorem stopLoop_frame (s : Manager) (id : LoopId) : Frame K s (s.stopLoop id) := by
  unfold stopLoop
  split
  · exact Frame.refl s
  · next l hl =>
    have hset : Frame K s (s.setLoop id { l with stopped := true }) :=
      setLoop_frame fun c hc => Or.inl (mem_instances_loop hl hc)
    exact hset.trans (rouse_frame _ _)

theorem stopPolling_frame (s : Manager) : Frame K s s.stopPolling := by
  unfold stopPolling
  split
  · exact Frame.refl s
  · have hforget : Frame K s { s with poller := none } := ⟨rfl, fun _ h => Or.inl h⟩
    exact hforget.trans (stopLoop_frame _ _)

theorem release_frame (s : Manager) : Frame K s s.release := by
  unfold release
  split
  · exact Frame.refl s
  · exact stopPolling_frame s

theorem startPolling_quiet {o : PollOptions} (ho : ∀ c ∈ o.excluded, c ∈ s.instances ∨ K c)
    (h : s.startPolling o = .ok t) : QuietStretch K s t := by
  unfold startPolling at h
  split at h
  · simp only [Except.ok.injEq] at h
    have hloop : Frame K (s.record (.pollingStarted o.periodMs o.pollType))
        ((s.record (.pollingStarted o.periodMs o.pollType)).setLoop s.nextId
          ⟨o, false, 0, s.now, s.now⟩) :=
      setLoop_frame ho
    have hset : Frame K ((s.record (.pollingStarted o.periodMs o.pollType)).setLoop s.nextId
          ⟨o, false, 0, s.now, s.now⟩)
        { s.record (.pollingStarted o.periodMs o.pollType) with
          nextId := s.nextId + 1
          started := s.started + 1
          loops := upsert s.nextId ⟨o, false, 0, s.now, s.now⟩ s.loops
          poller := some s.nextId } := ⟨rfl, fun _ h => Or.inl h⟩
    have hstart := (hloop.trans hset).trans (wake_frame _ (.loop s.nextId))
    refine (QuietStretch.note (e := .pollingStarted o.periodMs o.pollType) rfl rfl).trans
      (QuietStretch.work ?_)
    rw [← h]
    split
    · exact hstart.trans (stopLoop_frame _ _)
    · exact hstart
  · exact absurd h (by simp)

/-! ## Notifications and calls -/

theorem announceWith_stretch (hok : ok inner) (s : Manager) (current : Option Connection) :
    Stretch K called ok s (announceWith inner s current) :=
  .single (.announcement s current hok)

theorem publishWith_stretch (hok : ok inner) (s : Manager) (change : Change) :
    Stretch K called ok s (publishWith inner s change) := by
  cases change with
  | unchanged => exact .refl
  | changed current => exact announceWith_stretch hok s current

theorem followWith_stretch (hok : ok inner) {r : Pool × Option Switch}
    (h : ∀ q w, r = (q, some w) → s.pool.Automatic K q w) :
    Stretch K called ok s (followWith inner s r) := by
  obtain ⟨q, w⟩ := r
  cases w with
  | none => exact .refl
  | some w => exact .head (.own (.switch (h q w rfl))) (announceWith_stretch hok _ _)

theorem applyWith_stretch (hok : ok inner) {r : Registry × Change}
    (h : Explicit s (s.setRegistry r.1)) : Stretch K True ok s (applyWith inner s r) :=
  (Stretch.explicit h).trans (publishWith_stretch hok _ _)

theorem settleWith_stretch (hok : ok inner) {r : Except PoolError (Registry × Change)}
    (h : ∀ x change, r = .ok (x, change) → Explicit s (s.setRegistry x)) :
    Stretch K True ok s (settleWith inner s r).1 := by
  cases r with
  | error e => exact .refl
  | ok r => exact applyWith_stretch hok (h r.1 r.2 rfl)

theorem register_stretch (e : Endpoint) (label : Option String) :
    Stretch K True ok s (s.register e label).1 := by
  unfold register
  dsimp only
  split
  · exact Stretch.explicit (.make s e none)
  · next r hr => exact Stretch.explicit (.register label hr)

/-- A call is at most one explicit section and notifications, with bookkeeping around them. -/
theorem performWith_stretch (hok : ok inner) (s : Manager) (c : Call) :
    Stretch K True ok s (performWith inner s c).1 := by
  cases c with
  | make e label => exact Stretch.explicit (.make s e label)
  | add e label => exact register_stretch e label
  | addUri uri label => exact register_stretch { uri } label
  | remove uri => exact settleWith_stretch hok fun r change h => .remove h
  | select name =>
    dsimp only [performWith]
    split
    · exact applyWith_stretch hok (.disconnect s)
    · next c hc =>
      obtain ⟨name', _, hc⟩ := Option.bind_eq_some_iff.mp hc
      exact settleWith_stretch hok fun r change h => .select (mem_instances_resolve hc) h
  | selectUri uri =>
    dsimp only [performWith]
    -- an instance is made in any case, also where the URI is refused
    cases hr : s.pool.registry.selectUri uri s.made.length with
    | error e => exact Stretch.explicit (.make s { uri } none)
    | ok r => exact (Stretch.explicit (.selectUri hr)).trans (publishWith_stretch hok _ _)
  | disconnect => exact applyWith_stretch hok (.disconnect s)
  | clear => exact applyWith_stretch hok (.clear s)
  | reset =>
    -- the listeners are dropped first, so the notification at the end reaches none of them
    have hdrop : Explicit s.stopPolling { s.stopPolling with subscribers := [] } :=
      .arrange rfl rfl rfl fun _ h => h
    exact ((Stretch.work (stopPolling_frame s)).trans (Stretch.explicit hdrop)).trans
      (applyWith_stretch hok (.reset _))
  | setAutoSwitch on => exact Stretch.explicit (.setAutoSwitch s on)
  | setTimeout ms =>
    dsimp only [performWith]
    split
    · exact .refl
    · next hms => exact Stretch.explicit (.setTimeout hms)
  | get uri label =>
    dsimp only [performWith]
    split
    · exact .refl
    · next c hc =>
      exact Stretch.explicit (.label label (mem_instances_of_registered (Registry.get?_mem hc)))
  | has uri => exact .refl
  | observe name outcome =>
    dsimp only [performWith]
    split
    · exact .refl
    · next c _ => exact Stretch.explicit (.observe s c outcome)
  | improve => exact followWith_stretch hok fun q w h => .improve h
  | script uri fallback queue => exact Stretch.explicit (.arrange rfl rfl rfl fun _ h => h)
  | addListener name reaction times => exact Stretch.explicit (.arrange rfl rfl rfl fun _ h => h)
  | removeListener name =>
    dsimp only [performWith]
    split
    · exact Stretch.explicit (.arrange rfl rfl rfl fun _ h => h)
    · exact .refl
  | removeListeners => exact Stretch.explicit (.arrange rfl rfl rfl fun _ h => h)
  | startPolling options excluded =>
    dsimp only [performWith]
    split
    · exact .refl
    · next t ht =>
      exact (startPolling_quiet (fun c hc => Or.inl (mem_instances_resolveAll hc)) ht).stretch
  | startConfigured polling =>
    dsimp only [performWith]
    split
    · exact .refl
    · next t ht =>
      refine (startPolling_quiet (fun c hc => Or.inl ?_) ht).stretch
      exact mem_instances_of_registered (mem_listing.mp (List.mem_filter.mp hc).1)
  | stopPolling => exact Stretch.work (stopPolling_frame s)
  | spawn name request =>
    have hflight : Frame K s (s.setFlight s.nextId ⟨.task, .queued (s.operation request)⟩) :=
      setFlight_frame fun c hc => Or.inl (mem_instances_operation hc)
    have hname : Frame K (s.setFlight s.nextId ⟨.task, .queued (s.operation request)⟩)
        { s.setFlight s.nextId ⟨.task, .queued (s.operation request)⟩ with
          nextId := s.nextId + 1
          started := s.started + 1
          tasks := upsert name s.nextId s.tasks } := ⟨rfl, fun _ h => Or.inl h⟩
    exact Stretch.work ((hflight.trans hname).trans (wake_frame _ (.flight s.nextId)))
  | drop =>
    have hdrop : Explicit s { s with held := false } := .arrange rfl rfl rfl fun _ h => h
    exact (Stretch.explicit hdrop).trans (Stretch.work (release_frame _))

/-! ## The calls of listeners -/

theorem Flat.own (h : Own K s t) : Flat K s t := .single (Or.inl h)

theorem reactWith_flat (h : ∀ s c, Flat K s (inner s c).1) (s : Manager) (c : Call) :
    Flat K s (reactWith inner s c) :=
  (h s c).tail (Or.inl (.note rfl))

theorem foldl_reactWith_flat (h : ∀ s c, Flat K s (inner s c).1) (calls : List Call) (s : Manager) :
    Flat K s (calls.foldl (reactWith inner) s) := by
  induction calls generalizing s with
  | nil => exact .refl
  | cons c rest ih => exact (reactWith_flat h s c).trans (ih _)

theorem deliverWith_flat (h : ∀ s c, Flat K s (inner s c).1) (current : Option Connection)
    (s : Manager) (name : String) : Flat K s (deliverWith inner current s name) := by
  unfold deliverWith
  split
  · have hnote : Flat K s (s.record (.notified name current)) := Flat.own (.note rfl)
    dsimp only
    split
    · next calls rest _ =>
      have huse : Explicit (s.record (.notified name current))
          { s.record (.notified name current) with
            listeners := upsert name ⟨rest⟩ (s.record (.notified name current)).listeners } :=
        .arrange rfl rfl rfl fun _ h => h
      exact (hnote.tail (Or.inr huse)).trans (foldl_reactWith_flat h calls _)
    · exact hnote
  · exact .refl

theorem announceWith_flat (h : ∀ s c, Flat K s (inner s c).1) (s : Manager)
    (current : Option Connection) : Flat K s (announceWith inner s current) := by
  have hdeliver (names : List String) (t : Manager) :
      Flat K t (names.foldl (deliverWith inner current) t) := by
    induction names generalizing t with
    | nil => exact .refl
    | cons name rest ih => exact (deliverWith_flat h current t name).trans (ih _)
  exact .head (Or.inl (.note rfl)) (hdeliver s.subscribers _)

/-- With the calls of listeners taken apart, only sections are left of a stretch. -/
theorem Stretch.flat (hok : ∀ inner, ok inner → ∀ s c, Flat K s (inner s c).1)
    (h : Stretch K called ok s t) : Flat K s t := by
  induction h with
  | refl => exact .refl
  | tail _ link ih =>
    cases link with
    | own h => exact ih.tail (Or.inl h)
    | explicit _ h => exact ih.tail (Or.inr h)
    | announcement _ current hinner => exact ih.trans (announceWith_flat (hok _ hinner) _ current)

/-- A call comes down to sections, however deeply its notifications are nested. -/
theorem performTo_flat (depth : Nat) (s : Manager) (c : Call) :
    Flat K s (performTo depth s c).1 := by
  have hcall {inner : Performer} (h : ∀ s c, Flat K s (inner s c).1) (s : Manager) (c : Call) :
      Flat K s (performWith inner s c).1 := by
    have hstretch : Stretch K True (fun inner => ∀ s c, Flat K s (inner s c).1) s
        (performWith inner s c).1 := performWith_stretch h s c
    exact hstretch.flat fun _ h => h
  induction depth generalizing s c with
  | zero => exact .refl
  | succ depth ih => exact hcall ih s c

end

end Manager

end RpcPool

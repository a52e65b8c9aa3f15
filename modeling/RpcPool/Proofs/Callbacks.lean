import RpcPool.Proofs.Run

/-!
# What listeners are told

Listeners are called in rounds: `announceWith` calls every registered one with the same connection.
A run consists of quiet stretches, in which no listener is called and the current connection stays
as it is, and of two kinds of rounds: one follows every move of the current pointer at once, the
other one reports that the state of the current connection has changed.

Results:
1. `performWith_outcome`: a call is quiet, or it moves the current pointer and then holds one round;
   before that it arranges what is to be under way.
2. `next_course`: every other move is quiet up to the end of a batch, which may be reported, and
   then moves the current pointer some number of times, with a round each.
-/

namespace RpcPool

/-- The callbacks among some events: which listener was called, and with what. -/
def callbacks (ms : List Moment) : List (String × Option Connection) :=
  ms.filterMap (·.event.told?)

theorem getLastD_append {α : Type} (xs ys : List α) (k : α) :
    (xs ++ ys).getLastD k = ys.getLastD (xs.getLastD k) := by
  simp [List.getLastD_eq_getLast?, List.getLast?_append]

/-- Whether a call may move the current pointer. -/
def Call.moves : Call → Bool
  | .remove _ => true
  | .select _ => true
  | .selectUri _ => true
  | .disconnect => true
  | .clear => true
  | .reset => true
  | .improve => true
  | _ => false

/-- Whether a call neither changes which listeners are notified nor gives up the manager. -/
def Call.sparesListeners : Call → Bool
  | .reset => false
  | .addListener .. => false
  | .removeListener _ => false
  | .removeListeners => false
  | .drop => false
  | _ => true

namespace Manager

open Relation

abbrev current (s : Manager) : Option Connection := s.pool.registry.current

/-- What has happened since an earlier state, in order. -/
def since (s t : Manager) : List Moment :=
  (t.trace.take (t.trace.length - s.trace.length)).reverse

variable {K : Connection → Prop} {inner : Performer} {s t u : Manager} {k : Option Connection}

/-! ## History -/

theorem since_of_trace {new : List Moment} (h : t.trace = new.reverse ++ s.trace) :
    since s t = new := by
  unfold since
  rw [h, List.length_append, Nat.add_sub_cancel, List.take_left, List.reverse_reverse]

theorem trace_eq_since (h : s.trace <:+ t.trace) : t.trace = (since s t).reverse ++ s.trace := by
  obtain ⟨new, hnew⟩ := h
  have hsince : since s t = new.reverse :=
    since_of_trace (by rw [List.reverse_reverse]; exact hnew.symm)
  rw [hsince, List.reverse_reverse]
  exact hnew.symm

theorem since_same (h : t.trace = s.trace) : since s t = [] := since_of_trace h

theorem since_record (s : Manager) (e : Event) : since s (s.record e) = [⟨s.now, s.pool, e⟩] :=
  since_of_trace rfl

theorem later_record (s : Manager) (e : Event) : s.trace <:+ (s.record e).trace :=
  List.suffix_cons _ _

theorem since_append (hst : s.trace <:+ t.trace) (htu : t.trace <:+ u.trace) :
    since s u = since s t ++ since t u := by
  refine since_of_trace ?_
  rw [trace_eq_since htu, trace_eq_since hst, List.reverse_append, List.append_assoc]

theorem callbacks_append (ms ms' : List Moment) :
    callbacks (ms ++ ms') = callbacks ms ++ callbacks ms' :=
  List.filterMap_append

/-! ## Quiet stretches -/

/-- No listener is called, and the current connection stays as it is. -/
structure Unheard (s t : Manager) : Prop where
  later : s.trace <:+ t.trace
  told : ∀ m ∈ since s t, m.event.told? = none
  currents : ∀ m ∈ since s t, m.pool.registry.current = s.current
  current : t.current = s.current

/-- No listener is called, and the current connection and all listeners stay as they are. -/
structure Still (s t : Manager) : Prop extends Unheard s t where
  held : t.held = s.held
  subscribers : t.subscribers = s.subscribers
  listeners : t.listeners = s.listeners

theorem Unheard.same (htrace : t.trace = s.trace) (hcurrent : t.current = s.current) :
    Unheard s t where
  later := htrace ▸ List.suffix_rfl
  told := by
    rw [since_same htrace]
    exact fun m hm => absurd hm List.not_mem_nil
  currents := by
    rw [since_same htrace]
    exact fun m hm => absurd hm List.not_mem_nil
  current := hcurrent

theorem Unheard.trans (h : Unheard s t) (h' : Unheard t u) : Unheard s u where
  later := h.later.trans h'.later
  told m hm := by
    rw [since_append h.later h'.later] at hm
    exact (List.mem_append.mp hm).elim (h.told m) (h'.told m)
  currents m hm := by
    rw [since_append h.later h'.later] at hm
    exact (List.mem_append.mp hm).elim (h.currents m)
      fun hm => (h'.currents m hm).trans h.current
  current := h'.current.trans h.current

theorem Unheard.callbacks (h : Unheard s t) : callbacks (since s t) = [] :=
  List.filterMap_eq_nil_iff.mpr h.told

theorem Still.same (htrace : t.trace = s.trace) (hcurrent : t.current = s.current)
    (hheld : t.held = s.held) (hsubscribers : t.subscribers = s.subscribers)
    (hlisteners : t.listeners = s.listeners) : Still s t :=
  ⟨.same htrace hcurrent, hheld, hsubscribers, hlisteners⟩

theorem Still.refl (s : Manager) : Still s s := .same rfl rfl rfl rfl rfl

theorem Still.trans (h : Still s t) (h' : Still t u) : Still s u :=
  ⟨h.toUnheard.trans h'.toUnheard, h'.held.trans h.held, h'.subscribers.trans h.subscribers,
    h'.listeners.trans h.listeners⟩

/-- An event is noted that is no callback. -/
theorem Still.record {e : Event} (h : e.told? = none) (s : Manager) : Still s (s.record e) where
  later := later_record s e
  told m hm := by
    rw [since_record, List.mem_singleton] at hm
    rw [hm]
    exact h
  currents m hm := by
    rw [since_record, List.mem_singleton] at hm
    rw [hm]
  current := rfl
  held := rfl
  subscribers := rfl
  listeners := rfl

theorem Frame.still (h : Frame K s t) : Still s t := by
  have hheld := congrArg Manager.held h.kept
  have hsubscribers := congrArg Manager.subscribers h.kept
  have hlisteners := congrArg Manager.listeners h.kept
  exact .same h.trace (congrArg (·.registry.current) h.pool) hheld hsubscribers hlisteners

theorem Still.observe {e : Event} (he : e.told? = none) (s : Manager) (c : Connection)
    (outcome : Probe.Outcome) :
    Still s ({ s with pool := s.pool.observe c outcome }.record e) := by
  have hobserve : Still s { s with pool := s.pool.observe c outcome } :=
    .same rfl rfl rfl rfl rfl
  exact hobserve.trans (.record he _)

theorem Quiet.still (h : Quiet K s t) : Still s t := by
  cases h with
  | work hf => exact hf.still
  | note _ htold => exact .record htold s
  | probe c outcome => exact .observe rfl s c outcome

theorem QuietStretch.still (h : QuietStretch K s t) : Still s t := by
  induction h with
  | refl => exact .refl s
  | tail _ hsection ih => exact ih.trans hsection.still

/-! ## Moves of the current pointer -/

/-- The current pointer moves to `k`, and nobody has been told yet. -/
structure Shifted (s u : Manager) (k : Option Connection) : Prop where
  later : s.trace <:+ u.trace
  told : ∀ m ∈ since s u, m.event.told? = none
  currents : ∀ m ∈ since s u, m.pool.registry.current = k
  current : u.current = k
  fresh : s.current ≠ k
  held : u.held = s.held
  listeners : u.listeners = s.listeners

theorem Shifted.callbacks (h : Shifted s u k) : callbacks (since s u) = [] :=
  List.filterMap_eq_nil_iff.mpr h.told

/-- What a call does to all that is under way, before anybody hears of it. It may begin an
operation, under a number that no other one has, and it may lay down what an endpoint does. -/
structure Arranges (c : Call) (s t : Manager) : Prop where
  nextId : s.nextId ≤ t.nextId
  flights : t.flights = s.flights ∨
    s.nextId < t.nextId ∧ ∃ op, t.flights = upsert s.nextId ⟨.task, .queued op⟩ s.flights
  network : t.network = s.network ∨ ∃ uri fallback queue, c = .script uri fallback queue ∧
    t.network = s.network.extend uri fallback queue
  held : t.held = s.held ∨ c = .drop

theorem Arranges.same {c : Call} (hnextId : t.nextId = s.nextId) (hflights : t.flights = s.flights)
    (hnetwork : t.network = s.network) (hheld : t.held = s.held) : Arranges c s t :=
  ⟨Nat.le_of_eq hnextId.symm, .inl hflights, .inl hnetwork, .inl hheld⟩

theorem Arranges.wake {c : Call} (h : Arranges c s t) (task : Task) :
    Arranges c s (t.wake task) := by
  obtain ⟨ready, hwake⟩ := wake_eq t task
  rw [hwake]
  exact ⟨h.nextId, h.flights, h.network, h.held⟩

theorem stopPolling_arranges (c : Call) (s : Manager) : Arranges c s s.stopPolling := by
  obtain ⟨poller, loops, timers, ready, hstop⟩ := stopPolling_eq s
  rw [hstop]
  exact .same rfl rfl rfl rfl

theorem startPolling_arranges {o : PollOptions} (h : s.startPolling o = .ok t) (c : Call) :
    Arranges c s t := by
  obtain ⟨poller, loops, timers, ready, nextId, started, hnext, rfl⟩ := startPolling_eq h
  exact ⟨hnext, .inl rfl, .inl rfl, .inl rfl⟩

/-- What comes of a call: nobody hears of it, or the current pointer moves and one round of
notifications makes it known. -/
inductive CallOutcome (inner : Performer) (s : Manager) (c : Call) (t : Manager) : Prop
  | unheard : Unheard s t → Arranges c s t → (c.sparesListeners = true → Still s t) →
      (t.listeners = s.listeners ∨ ∃ name reaction times, c = .addListener name reaction times) →
      CallOutcome inner s c t
  | moved {u : Manager} {k : Option Connection} :
      c.moves = true → Shifted s u k → Arranges c s u →
      (u.subscribers = s.subscribers ∨ u.subscribers = [] ∧ c = .reset) →
      t = announceWith inner u k → CallOutcome inner s c t

theorem CallOutcome.still {c : Call} (h : Still s t) (harranges : Arranges c s t) :
    CallOutcome inner s c t :=
  .unheard h.toUnheard harranges (fun _ => h) (.inl h.listeners)

theorem applyWith_outcome {c : Call} {r : Registry × Change} (hmoves : c.moves = true)
    (htrace : t.trace = s.trace) (hcurrent : t.current = s.current) (hheld : t.held = s.held)
    (hlisteners : t.listeners = s.listeners) (harranges : Arranges c s t)
    (hsubscribers : t.subscribers = s.subscribers ∨ t.subscribers = [] ∧ c = .reset)
    (hr : r.2.Faithful t.current r.1.current) : CallOutcome inner s c (applyWith inner t r) := by
  obtain ⟨registry, change⟩ := r
  cases change with
  | unchanged =>
    have hset : Unheard s (t.setRegistry registry) := .same htrace (hr.trans hcurrent)
    have hkept : Arranges c s (t.setRegistry registry) :=
      ⟨harranges.nextId, harranges.flights, harranges.network, harranges.held⟩
    refine .unheard hset hkept (fun hspares => ?_) (.inl hlisteners)
    rcases hsubscribers with hsubscribers | ⟨_, rfl⟩
    · exact ⟨hset, hheld, hsubscribers, hlisteners⟩
    · exact absurd hspares (by simp [Call.sparesListeners])
  | changed k =>
    obtain ⟨hreached, hmoved⟩ := hr
    have hsince : since s (t.setRegistry registry) = [] := since_same htrace
    have hkept : Arranges c s (t.setRegistry registry) :=
      ⟨harranges.nextId, harranges.flights, harranges.network, harranges.held⟩
    refine .moved (u := t.setRegistry registry) (k := k) hmoves ?_ hkept hsubscribers rfl
    exact {
      later := htrace ▸ List.suffix_rfl
      told := by
        rw [hsince]
        exact fun m hm => absurd hm List.not_mem_nil
      currents := by
        rw [hsince]
        exact fun m hm => absurd hm List.not_mem_nil
      current := hreached
      fresh := hcurrent ▸ hmoved
      held := hheld
      listeners := hlisteners }

theorem settleWith_outcome {c : Call} {r : Except PoolError (Registry × Change)}
    (hmoves : c.moves = true) (hst : Still s t) (htrace : t.trace = s.trace)
    (harranges : Arranges c s t)
    (hr : ∀ x change, r = .ok (x, change) → change.Faithful t.current x.current) :
    CallOutcome inner s c (settleWith inner t r).1 := by
  cases r with
  | error e => exact .still hst harranges
  | ok r =>
    exact applyWith_outcome hmoves htrace hst.current hst.held hst.listeners harranges
      (.inl hst.subscribers) (hr r.1 r.2 rfl)

/-- An automatic move of the current pointer is noted before anybody is told. -/
theorem shifted_of_moved {q : Pool} {w : Switch} (h : s.pool.Moved q w) :
    Shifted s ({ s with pool := q }.record (.switched w)) (some w.target) := by
  have hsince : since s (({ s with pool := q } : Manager).record (.switched w)) =
      [⟨s.now, q, .switched w⟩] := since_of_trace rfl
  have hq := h.pool
  subst hq
  exact {
    later := List.suffix_cons _ _
    told := by
      rw [hsince]
      exact fun m hm => List.mem_singleton.mp hm ▸ rfl
    currents := by
      rw [hsince]
      exact fun m hm => List.mem_singleton.mp hm ▸ rfl
    current := rfl
    fresh := by
      intro hcurrent
      have hnew := h.target_new
      rw [Registry.isCurrent_iff.mpr ⟨w.target, hcurrent, rfl⟩] at hnew
      exact absurd hnew (by simp)
    held := rfl
    listeners := rfl }

/-- A call that registers an endpoint changes the list of connections and the names. -/
theorem register_eq (s : Manager) (e : Endpoint) (label : Option String) :
    ∃ made connections labels, (s.register e label).1 =
      { s.setRegistry { s.pool.registry with connections := connections } with
        made := made, labels := labels } := by
  unfold register
  dsimp only
  split
  · exact ⟨_, s.pool.registry.connections, s.labels, rfl⟩
  · next r hr =>
    obtain ⟨_, _, rfl⟩ := Registry.add_ok hr
    obtain ⟨labels, hlabel⟩ := label_eq ((s.instantiate e).1.setRegistry
      { s.pool.registry with
        connections := s.pool.registry.connections ++ [⟨s.made.length, e⟩] }) label
      ⟨s.made.length, e⟩
    exact ⟨_, _, labels, hlabel⟩

theorem register_outcome (s : Manager) (c : Call) (e : Endpoint) (label : Option String) :
    CallOutcome inner s c (s.register e label).1 := by
  obtain ⟨made, connections, labels, hregister⟩ := register_eq s e label
  rw [hregister]
  exact .still (.same rfl rfl rfl rfl rfl) (.same rfl rfl rfl rfl)

theorem label_outcome {c : Call} (h : Still s t) (harranges : Arranges c s t)
    (label : Option String) (conn : Connection) : CallOutcome inner s c (t.label label conn) := by
  obtain ⟨labels, hlabel⟩ := label_eq t label conn
  have hlast : Still t { t with labels := labels } := .same rfl rfl rfl rfl rfl
  rw [hlabel]
  exact .still (h.trans hlast)
    ⟨harranges.nextId, harranges.flights, harranges.network, harranges.held⟩

theorem startPolling_outcome {o : PollOptions} (h : s.startPolling o = .ok t) (c : Call) :
    CallOutcome inner s c t := by
  have hquiet : QuietStretch (fun _ => True) s t := startPolling_quiet (fun _ _ => .inr trivial) h
  exact .still hquiet.still (startPolling_arranges h c)

/-- A call is quiet, or it moves the current pointer and then holds one round of notifications. -/
theorem performWith_outcome (inner : Performer) (s : Manager) (c : Call) :
    CallOutcome inner s c (performWith inner s c).1 := by
  have hnothing : CallOutcome inner s c s := .still (.refl s) (.same rfl rfl rfl rfl)
  cases c with
  | make e label =>
    have hmade : Still s (s.instantiate e).1 := .same rfl rfl rfl rfl rfl
    exact label_outcome hmade (.same rfl rfl rfl rfl) label _
  | add e label => exact register_outcome s _ e label
  | addUri uri label => exact register_outcome s _ { uri } label
  | remove uri =>
    exact settleWith_outcome rfl (.refl s) rfl (.same rfl rfl rfl rfl)
      fun x change h => Registry.remove_faithful h
  | select name =>
    dsimp only [performWith]
    split
    · exact applyWith_outcome rfl rfl rfl rfl rfl (.same rfl rfl rfl rfl) (.inl rfl)
        (Registry.disconnect_faithful _)
    · exact settleWith_outcome rfl (.refl s) rfl (.same rfl rfl rfl rfl)
        fun x change h => Registry.select_faithful h
  | selectUri uri =>
    have hmade : Still s { s with made := s.made ++ [{ uri }] } := .same rfl rfl rfl rfl rfl
    exact settleWith_outcome rfl hmade rfl (.same rfl rfl rfl rfl)
      fun x change h => Registry.selectUri_faithful h
  | disconnect =>
    exact applyWith_outcome rfl rfl rfl rfl rfl (.same rfl rfl rfl rfl) (.inl rfl)
      (Registry.disconnect_faithful _)
  | clear =>
    exact applyWith_outcome rfl rfl rfl rfl rfl (.same rfl rfl rfl rfl) (.inl rfl)
      (Registry.clear_faithful _)
  | reset =>
    have hstop : Still s s.stopPolling := (stopPolling_frame (K := fun _ => True) s).still
    have htrace : s.stopPolling.trace = s.trace :=
      (stopPolling_frame (K := fun _ => True) s).trace
    obtain ⟨hnext, hflights, hnetwork, hheld⟩ := stopPolling_arranges .reset s
    -- the listeners are gone before the current connection is, so nobody hears of that
    exact applyWith_outcome (t := { s.stopPolling with subscribers := [] }) rfl htrace hstop.current
      hstop.held hstop.listeners ⟨hnext, hflights, hnetwork, hheld⟩ (.inr ⟨rfl, rfl⟩)
      (Registry.reset_faithful _)
  | setAutoSwitch on => exact .still (.same rfl rfl rfl rfl rfl) (.same rfl rfl rfl rfl)
  | setTimeout ms =>
    dsimp only [performWith]
    split
    · exact hnothing
    · exact .still (.same rfl rfl rfl rfl rfl) (.same rfl rfl rfl rfl)
  | get uri label =>
    dsimp only [performWith]
    split
    · exact hnothing
    · exact label_outcome (.refl s) (.same rfl rfl rfl rfl) label _
  | has uri => exact hnothing
  | observe name outcome =>
    dsimp only [performWith]
    split
    · exact hnothing
    · exact .still (.observe rfl s _ outcome) (.same rfl rfl rfl rfl)
  | improve =>
    dsimp only [performWith]
    cases himprove : s.pool.improve with
    | mk q w =>
      cases w with
      | none => exact hnothing
      | some w =>
        have hmoved : s.pool.Moved q w :=
          Pool.Automatic.moved (K := fun _ => True) (.improve himprove)
        exact .moved rfl (shifted_of_moved hmoved) (.same rfl rfl rfl rfl) (.inl rfl) rfl
  | script uri fallback queue =>
    have harranges : Arranges (.script uri fallback queue) s
        { s with network := s.network.extend uri fallback queue } :=
      ⟨Nat.le_refl _, .inl rfl, .inr ⟨uri, fallback, queue, rfl, rfl⟩, .inl rfl⟩
    exact .still (.same rfl rfl rfl rfl rfl) harranges
  | addListener name reaction times =>
    exact .unheard (.same rfl rfl) (.same rfl rfl rfl rfl)
      (fun hspares => absurd hspares (by simp [Call.sparesListeners]))
      (.inr ⟨name, reaction, times, rfl⟩)
  | removeListener name =>
    dsimp only [performWith]
    split
    · exact .unheard (.same rfl rfl) (.same rfl rfl rfl rfl)
        (fun hspares => absurd hspares (by simp [Call.sparesListeners])) (.inl rfl)
    · exact hnothing
  | removeListeners =>
    exact .unheard (.same rfl rfl) (.same rfl rfl rfl rfl)
      (fun hspares => absurd hspares (by simp [Call.sparesListeners])) (.inl rfl)
  | startPolling options excluded =>
    dsimp only [performWith]
    split
    · exact hnothing
    · next t ht => exact startPolling_outcome ht _
  | startConfigured polling =>
    dsimp only [performWith]
    split
    · exact hnothing
    · next t ht => exact startPolling_outcome ht _
  | stopPolling =>
    exact .still (stopPolling_frame (K := fun _ => True) s).still (stopPolling_arranges _ s)
  | spawn name request =>
    let begun : Manager := { s with
      nextId := s.nextId + 1
      started := s.started + 1
      flights := upsert s.nextId ⟨.task, .queued (s.operation request)⟩ s.flights
      tasks := upsert name s.nextId s.tasks }
    have hbegun : Still s begun := .same rfl rfl rfl rfl rfl
    have harranges : Arranges (.spawn name request) s begun :=
      ⟨Nat.le_succ _, .inr ⟨Nat.lt_succ_self _, s.operation request, rfl⟩, .inl rfl, .inl rfl⟩
    exact .still (hbegun.trans (wake_frame (K := fun _ => True) begun _).still) (harranges.wake _)
  | drop =>
    have hdrop : Unheard s { s with held := false } := .same rfl rfl
    have hrelease : Still { s with held := false } ({ s with held := false } : Manager).release :=
      (release_frame (K := fun _ => True) _).still
    have harranges : Arranges .drop s ({ s with held := false } : Manager).release := by
      obtain ⟨poller, loops, timers, ready, heq⟩ := release_eq { s with held := false }
      rw [heq]
      exact ⟨Nat.le_refl _, .inl rfl, .inl rfl, .inr rfl⟩
    exact .unheard (hdrop.trans hrelease.toUnheard) harranges
      (fun hspares => absurd hspares (by simp [Call.sparesListeners])) (.inl hrelease.listeners)

/-! ## Who listens -/

/-- What a listener will answer to its next notifications. -/
def script (s : Manager) (name : String) : List (List Call) :=
  ((s.listeners.lookup name).map (·.script)).getD []

/-- No listener will answer with a call that changes who listens. -/
def Sparing (s : Manager) : Prop :=
  ∀ name, ∀ calls ∈ s.script name, ∀ c ∈ calls, c.sparesListeners = true

/-- The same listeners are registered, and what they will answer was laid down before. -/
structure Steady (s t : Manager) : Prop where
  later : s.trace <:+ t.trace
  held : t.held = s.held
  subscribers : t.subscribers = s.subscribers
  scripts : ∀ name, t.script name <:+ s.script name

theorem script_of_lookup {name : String} {l : Listener} (h : s.listeners.lookup name = some l) :
    s.script name = l.script := by
  unfold script
  rw [h]
  rfl

theorem mem_script {name : String} {calls : List Call} (h : calls ∈ s.script name) :
    ∃ e ∈ s.listeners, calls ∈ e.2.script := by
  cases hl : s.listeners.lookup name with
  | none =>
    unfold script at h
    rw [hl] at h
    exact absurd h List.not_mem_nil
  | some l =>
    rw [script_of_lookup hl] at h
    exact ⟨(name, l), mem_of_lookup hl, h⟩

/-- What a new listener will answer; one that is known already keeps what it has left. -/
theorem mem_script_addListener {name other : String} {reaction : List Call} {times : Nat}
    {calls : List Call}
    (h : calls ∈ (performWith inner s (.addListener name reaction times)).1.script other) :
    calls ∈ s.script other ∨ calls = reaction := by
  unfold script at h ⊢
  dsimp only [performWith] at h
  split at h
  · exact Or.inl h
  · by_cases hother : other = name
    · rw [hother, lookup_upsert_self] at h
      exact Or.inr (List.eq_of_mem_replicate h)
    · rw [lookup_upsert_ne _ _ hother] at h
      exact Or.inl h

theorem script_congr (h : t.listeners = s.listeners) (name : String) :
    t.script name = s.script name := by
  unfold script
  rw [h]

theorem Steady.refl (s : Manager) : Steady s s :=
  ⟨List.suffix_rfl, rfl, rfl, fun _ => List.suffix_rfl⟩

theorem Steady.trans (h : Steady s t) (h' : Steady t u) : Steady s u :=
  ⟨h.later.trans h'.later, h'.held.trans h.held, h'.subscribers.trans h.subscribers,
    fun name => (h'.scripts name).trans (h.scripts name)⟩

theorem Still.steady (h : Still s t) : Steady s t :=
  ⟨h.later, h.held, h.subscribers, fun name => script_congr h.listeners name ▸ List.suffix_rfl⟩

theorem Shifted.steady (h : Shifted s u k) (hsubscribers : u.subscribers = s.subscribers) :
    Steady s u :=
  ⟨h.later, h.held, hsubscribers, fun name => script_congr h.listeners name ▸ List.suffix_rfl⟩

theorem Steady.sparing (h : Steady s t) (hs : s.Sparing) : t.Sparing :=
  fun name calls hcalls => hs name calls ((h.scripts name).subset hcalls)

theorem steady_record (s : Manager) (e : Event) : Steady s (s.record e) :=
  ⟨later_record s e, rfl, rfl, fun _ => List.suffix_rfl⟩

/-- Before a listener answers, its answer is taken out of its script. -/
theorem steady_taken {name : String} {calls : List Call} {rest : List (List Call)}
    (h : s.listeners.lookup name = some ⟨calls :: rest⟩) :
    Steady s { s with listeners := upsert name ⟨rest⟩ s.listeners } where
  later := List.suffix_rfl
  held := rfl
  subscribers := rfl
  scripts other := by
    by_cases hother : other = name
    · subst hother
      rw [script_of_lookup h, script_of_lookup (lookup_upsert_self other ⟨rest⟩ s.listeners)]
      exact List.suffix_cons calls rest
    · have hsame : (upsert name ⟨rest⟩ s.listeners).lookup other = s.listeners.lookup other :=
        lookup_upsert_ne ⟨rest⟩ s.listeners hother
      have hscript : script { s with listeners := upsert name ⟨rest⟩ s.listeners } other =
          s.script other := congrArg (fun l => (l.map Listener.script).getD []) hsame
      exact hscript ▸ List.suffix_rfl

/-- A listener is called, and is going to answer. -/
theorem steady_answer {name : String} {calls : List Call} {rest : List (List Call)}
    (h : s.listeners.lookup name = some ⟨calls :: rest⟩) (k : Option Connection) :
    Steady s { s.record (.notified name k) with listeners := upsert name ⟨rest⟩ s.listeners } :=
  (steady_taken h).trans (steady_record _ (.notified name k))

/-- A way to carry out calls that lets listeners be, as long as the calls do. -/
def SparesListeners (inner : Performer) : Prop :=
  ∀ s c, s.Sparing → c.sparesListeners = true → Steady s (inner s c).1

theorem foldl_reactWith_steady (hinner : SparesListeners inner) {calls : List Call}
    (hcalls : ∀ c ∈ calls, c.sparesListeners = true) (hs : s.Sparing) :
    Steady s (calls.foldl (reactWith inner) s) := by
  induction calls generalizing s with
  | nil => exact .refl s
  | cons c rest ih =>
    have hcall : Steady s (inner s c).1 := hinner s c hs (hcalls c List.mem_cons_self)
    have hreact : Steady s (reactWith inner s c) := hcall.trans (steady_record _ _)
    exact hreact.trans (ih (fun d hd => hcalls d (List.mem_cons_of_mem _ hd)) (hreact.sparing hs))

theorem deliverWith_steady (hinner : SparesListeners inner) (hs : s.Sparing)
    (k : Option Connection) (name : String) : Steady s (deliverWith inner k s name) := by
  unfold deliverWith
  split
  · dsimp only
    split
    · next calls rest hl =>
      have hanswer := steady_answer (s := s) hl k
      refine hanswer.trans (foldl_reactWith_steady hinner (fun c hc => ?_) (hanswer.sparing hs))
      exact hs name calls (script_of_lookup (s := s) hl ▸ List.mem_cons_self) c hc
    · exact steady_record s _
  · exact .refl s

theorem foldl_deliverWith_steady (hinner : SparesListeners inner) (hs : s.Sparing)
    (k : Option Connection) (names : List String) :
    Steady s (names.foldl (deliverWith inner k) s) := by
  induction names generalizing s with
  | nil => exact .refl s
  | cons name rest ih =>
    have hdeliver := deliverWith_steady hinner hs k name
    exact hdeliver.trans (ih (hdeliver.sparing hs))

theorem announceWith_steady (hinner : SparesListeners inner) (hs : s.Sparing)
    (k : Option Connection) : Steady s (announceWith inner s k) := by
  have hnote : Steady s (s.record (.announced k s.subscribers.length)) := steady_record s _
  exact hnote.trans (foldl_deliverWith_steady hinner (hnote.sparing hs) k s.subscribers)

theorem performWith_steady (hinner : SparesListeners inner) :
    SparesListeners (performWith inner) := by
  intro s c hs hc
  cases performWith_outcome inner s c with
  | unheard _ _ hstill _ => exact (hstill hc).steady
  | @moved u k _ hshift _ hsubscribers ht =>
    have hsame : u.subscribers = s.subscribers := by
      rcases hsubscribers with hsame | ⟨_, rfl⟩
      · exact hsame
      · exact absurd hc (by simp [Call.sparesListeners])
    have hmove : Steady s u := hshift.steady hsame
    rw [ht]
    exact hmove.trans (announceWith_steady hinner (hmove.sparing hs) k)

theorem performTo_steady (depth : Nat) : SparesListeners (performTo depth) := by
  induction depth with
  | zero => exact fun s _ _ _ => .refl s
  | succ depth ih => exact performWith_steady ih

theorem act_steady : SparesListeners act := fun s c => performTo_steady _ s c

/-! ## The moves of operations -/

/-- The pool moves its current pointer on its own, and one round of notifications makes it known. -/
def Followed (s t : Manager) : Prop :=
  ∃ q w, s.pool.Moved q w ∧
    t = announceWith act ({ s with pool := q }.record (.switched w)) (some w.target)

/-- Some automatic moves, each made known before the next one. -/
abbrev FollowStretch : Manager → Manager → Prop := ReflTransGen Followed

theorem follow_followed {r : Pool × Option Switch}
    (h : ∀ q w, r = (q, some w) → s.pool.Moved q w) : FollowStretch s (s.follow r) := by
  obtain ⟨q, w⟩ := r
  rw [follow_eq]
  cases w with
  | none => exact .refl
  | some w => exact .single ⟨q, w, h q w rfl, rfl⟩

theorem rank_followed (s : Manager) (options : CheckOptions) (probed : List (Connection × Bool)) :
    FollowStretch (s.publishStatus probed) (s.rank options probed).1 := by
  unfold rank
  dsimp only
  split
  · refine ReflTransGen.trans ?_ (follow_followed fun q w h =>
      Pool.Automatic.moved (K := fun _ => True) (.improve h))
    split
    · next c hc =>
      have up := (Selection.firstConnected_eq_some hc).2
      exact follow_followed fun q w h =>
        Pool.Automatic.moved (K := fun _ => True) (.reconnect trivial up h)
    · exact .refl
  · exact .refl

/-- A batch of no probes has nothing to report. -/
theorem publishStatus_nil (s : Manager) : s.publishStatus [] = s := by
  unfold publishStatus
  split
  · rfl
  · rfl

theorem sweep_followed (options : CheckOptions) (excluded : List Connection)
    (groups : List (List Connection)) (s : Manager) :
    FollowStretch s (s.sweep options excluded groups).1 := by
  induction groups generalizing s with
  | nil => exact .refl
  | cons g later ih =>
    have hrank : FollowStretch s (s.rank options []).1 := by
      have hfollowed := rank_followed s options []
      rw [publishStatus_nil] at hfollowed
      exact hfollowed
    unfold sweep
    dsimp only
    split
    · split
      · exact hrank
      · exact hrank.trans (ih _)
    · exact .refl

theorem beginRanking_followed (s : Manager) (options : CheckOptions)
    (conns excluded : List Connection) :
    FollowStretch s (s.beginRanking options conns excluded).1 := by
  unfold beginRanking
  dsimp only
  split
  · have hfollowed := rank_followed s options []
    rw [publishStatus_nil] at hfollowed
    exact hfollowed
  · exact .refl

theorem begin_followed (s : Manager) (op : Operation) : FollowStretch s (s.begin op).1 := by
  cases op with
  | checkConnection => exact .refl
  | checkConnections conns excluded => exact beginRanking_followed s _ conns excluded
  | bestAvailable excluded =>
    dsimp only [begin]
    split
    · exact .refl
    · exact .refl
  | poll o =>
    dsimp only [begin]
    split
    · exact .refl
    · exact beginRanking_followed s _ _ _
    · exact sweep_followed _ _ _ s

/-- An operation goes on from a batch with a report of it, if there is something to report. -/
theorem resume_followed (s : Manager) (options : CheckOptions) (stage : Stage)
    (probed : List (Connection × Bool)) :
    FollowStretch (s.publishStatus probed) (s.resume options stage probed).1 := by
  cases stage with
  | status watched =>
    dsimp only [resume]
    split
    · split
      · exact .refl
      · exact .refl
    · exact .refl
  | failover watched changed q =>
    dsimp only [resume]
    split
    · next best hbest =>
      have up := (Selection.firstConnected_eq_some hbest).2
      exact follow_followed fun q w h =>
        Pool.Automatic.moved (K := fun _ => True) (.failover trivial up h)
    · split
      · exact .refl
      · exact .refl
  | search q =>
    dsimp only [resume]
    split
    · exact .refl
    · split
      · exact .refl
      · exact .refl
  | ranking => exact rank_followed s options probed
  | sweep q =>
    dsimp only [resume]
    split
    · exact rank_followed s options probed
    · exact (rank_followed s options probed).trans (sweep_followed _ _ _ _)

theorem Followed.steady (h : Followed s t) (hs : s.Sparing) : Steady s t := by
  obtain ⟨q, w, hmoved, rfl⟩ := h
  have hshift := shifted_of_moved hmoved
  have hswitch := hshift.steady rfl
  exact hswitch.trans (announceWith_steady act_steady (hswitch.sparing hs) (some w.target))

theorem FollowStretch.steady (h : FollowStretch s t) (hs : s.Sparing) : Steady s t := by
  induction h with
  | refl => exact .refl s
  | tail _ hmove ih => exact ih.trans (hmove.steady (ih.sparing hs))

theorem publishStatus_steady (hs : s.Sparing) (probed : List (Connection × Bool)) :
    Steady s (s.publishStatus probed) := by
  unfold publishStatus
  split
  · exact .refl s
  · split
    · rw [announce_eq]
      exact announceWith_steady act_steady hs _
    · exact .refl s

/-! ## Moves of a run -/

/-- Whether a probe has ended and changed what listeners are told about its connection. -/
def reported (p : BatchProbe) : Bool :=
  match p.state with
  | .ended changed => changed
  | _ => false

/-- The batch of an operation, once all its probes are over. -/
def joinedBatch (s : Manager) (id : FlightId) : List BatchProbe :=
  match s.flights.lookup id with
  | some ⟨_, .batch _ _ probes⟩ => if joined probes then probes else []
  | _ => []

/-- The batch that comes to its end with a move: the operation goes on from it. -/
def batchEnd (s : Manager) : Move → List BatchProbe
  | .turn (.flight id) => if s.ready.contains (.flight id) then s.joinedBatch id else []
  | _ => []

/-- What the end of a batch makes known: nothing if one of its probes broke. -/
def results (probes : List BatchProbe) : List (Connection × Bool) :=
  match changes probes with
  | .error _ => []
  | .ok probed => probed

/-- A move that is no call: quiet up to the end of a batch, the report of that batch, automatic
moves of the current pointer, and quiet to the end. -/
def Course (probed : List (Connection × Bool)) (s t : Manager) : Prop :=
  ∃ a b, QuietStretch (fun _ => True) s a ∧ FollowStretch (a.publishStatus probed) b ∧
    QuietStretch (fun _ => True) b t

theorem changes_eq {probes : List BatchProbe} {probed : List (Connection × Bool)}
    (h : changes probes = .ok probed) :
    probed = probes.map fun p => (p.connection, reported p) := by
  induction probes generalizing probed with
  | nil =>
    cases h
    rfl
  | cons p rest ih =>
    rw [changes_cons] at h
    split at h
    · next changed hstate =>
      cases hrest : changes rest with
      | error task =>
        rw [hrest] at h
        exact absurd h (by simp [Except.map])
      | ok more =>
        rw [hrest] at h
        simp only [Except.map, Except.ok.injEq] at h
        have hreported : reported p = changed := by
          unfold reported
          rw [hstate]
        rw [← h, List.map_cons, hreported, ← ih hrest]
    · exact absurd h (by simp)

theorem results_error {probes : List BatchProbe} {task : Nat} (h : changes probes = .error task) :
    results probes = [] := by
  unfold results
  rw [h]

theorem results_ok {probes : List BatchProbe} {probed : List (Connection × Bool)}
    (h : changes probes = .ok probed) : results probes = probed := by
  unfold results
  rw [h]

theorem Course.quiet (h : QuietStretch (fun _ => True) s t) : Course [] s t :=
  ⟨t, t, h, by rw [publishStatus_nil], .refl⟩

theorem Course.after {probed : List (Connection × Bool)} (h : QuietStretch (fun _ => True) s t)
    (h' : Course probed t u) : Course probed s u := by
  obtain ⟨a, b, hbefore, hfollow, hafter⟩ := h'
  exact ⟨a, b, h.trans hbefore, hfollow, hafter⟩

theorem Course.steady {probed : List (Connection × Bool)} (h : Course probed s t)
    (hs : s.Sparing) : Steady s t := by
  obtain ⟨a, b, hbefore, hfollow, hafter⟩ := h
  have ha := hbefore.still.steady
  have hreport := publishStatus_steady (ha.sparing hs) probed
  have hmoves := hfollow.steady (hreport.sparing (ha.sparing hs))
  exact ((ha.trans hreport).trans hmoves).trans hafter.still.steady

theorem proceed_course {progress : Manager × Progress} {probed : List (Connection × Bool)}
    (h : FollowStretch (s.publishStatus probed) progress.1) (id : FlightId) (owner : Owner) :
    Course probed s (progress.1.proceed id owner progress.2) :=
  ⟨s, progress.1, .refl, h, proceed_quiet fun _ _ => .inr trivial⟩

theorem joinedBatch_queued {id : FlightId} {owner : Owner} {op : Operation}
    (h : s.flights.lookup id = some ⟨owner, .queued op⟩) : s.joinedBatch id = [] := by
  unfold joinedBatch
  rw [h]

theorem joinedBatch_batch {id : FlightId} {owner : Owner} {options : CheckOptions} {stage : Stage}
    {probes : List BatchProbe}
    (h : s.flights.lookup id = some ⟨owner, .batch options stage probes⟩) :
    s.joinedBatch id = if joined probes then probes else [] := by
  unfold joinedBatch
  rw [h]

theorem runFlight_course (s : Manager) (id : FlightId) :
    Course (results (s.joinedBatch id)) s (s.runFlight id) := by
  cases hf : s.flights.lookup id with
  | none =>
    have hbatch : s.joinedBatch id = [] := by
      unfold joinedBatch
      rw [hf]
    have hrun : s.runFlight id = s := by
      unfold runFlight
      rw [hf]
    rw [hbatch, hrun]
    exact .quiet .refl
  | some f =>
    obtain ⟨owner, op | ⟨options, stage, probes⟩⟩ := f
    · rw [joinedBatch_queued hf, runFlight_queued hf]
      have hfollowed : FollowStretch (s.publishStatus []) (s.begin op).1 := by
        rw [publishStatus_nil]
        exact begin_followed s op
      exact proceed_course hfollowed id owner
    · rw [joinedBatch_batch hf]
      cases hjoined : joined probes with
      | false =>
        rw [runFlight_waiting hf hjoined, if_neg Bool.false_ne_true]
        exact .quiet .refl
      | true =>
        rw [if_pos rfl]
        cases hchanges : changes probes with
        | error task =>
          rw [results_error hchanges, runFlight_broken hf hjoined hchanges]
          exact .quiet (land_quiet s id owner _)
        | ok probed =>
          rw [results_ok hchanges, runFlight_joined hf hjoined hchanges]
          exact proceed_course (resume_followed s options stage probed) id owner

theorem runFlight_queued_course {id : FlightId} {owner : Owner} {op : Operation}
    (h : s.flights.lookup id = some ⟨owner, .queued op⟩) : Course [] s (s.runFlight id) := by
  have hcourse := runFlight_course s id
  rw [joinedBatch_queued h] at hcourse
  exact hcourse

theorem runLoop_course (s : Manager) (id : LoopId) : Course [] s (s.runLoop id) := by
  have hturn := runLoop_turn s id
  generalize s.runLoop id = after at hturn ⊢
  cases hturn with
  | gone _ => exact .quiet .refl
  | quits _ _ => exact .quiet (stopLoop_quiet s id _)
  | begins hl _ _ =>
    have hticked := ticked_frame (K := fun _ => True) hl fun _ _ => trivial
    exact .after (.work hticked) (runFlight_queued_course (lookup_upsert_self _ _ _))
  | @waits l _ _ _ => exact .quiet (.work (sleep_frame s l.due (.loop id)))

theorem runTask_course (s : Manager) (t : Task) :
    Course (results (s.batchEnd (.turn t))) s (s.runTask t) := by
  unfold runTask
  split
  · next hready =>
    have herase : Frame (fun _ => True) s { s with ready := s.ready.erase t } :=
      ⟨rfl, fun _ h => .inl h⟩
    refine .after (.work herase) ?_
    cases t with
    | probe id index => exact .quiet (runProbe_turn _ id index).quiet
    | flight id =>
      dsimp only [batchEnd]
      rw [if_pos hready]
      exact runFlight_course { s with ready := s.ready.erase (.flight id) } id
    | loop id => exact runLoop_course _ id
  · next hready =>
    have hnone : s.batchEnd (.turn t) = [] := by
      cases t with
      | flight id => exact if_neg hready
      | _ => rfl
    rw [hnone]
    exact .quiet .refl

/-- A move that is no call is quiet up to the end of a batch, which may be reported, and then moves
the current pointer some number of times, with a round each. -/
theorem next_course {m : Move} (hm : ∀ c, m ≠ .call c) :
    Course (results (s.batchEnd m)) s (s.next m) := by
  cases m with
  | call c => exact absurd rfl (hm c)
  | await r =>
    dsimp only [next]
    split
    · have hflight : Frame (fun _ => True) s ({ s with nextId := s.nextId + 1 }.setFlight s.nextId
          ⟨.caller, .queued (s.operation r)⟩) := ⟨rfl, fun _ _ => .inr trivial⟩
      exact .after (.work hflight) (runFlight_queued_course (lookup_upsert_self _ _ _))
    · exact .quiet .refl
  | turn t => exact runTask_course s t
  | clock time => exact .quiet (.work (moveClock_frame s time))
  | collect id => exact .quiet (.work ⟨rfl, fun _ h => .inl h⟩)
  | forget name => exact .quiet (.work ⟨rfl, fun _ h => .inl h⟩)
  | idle tasks => exact .quiet (.work ⟨rfl, fun _ h => .inl h⟩)

end Manager

end RpcPool

import RpcPool.Proofs.Loops

/-!
# Who decides about polling

Calls decide whether a manager polls: one that starts polling, if there is a scheduler, one that
stops it, and a reset. They may come from the user or from a listener in answer to a notification,
on the scheduler or from outside of it. Nothing else decides, as long as the user holds the manager.

Results:
1. `performWith_obeys`, `act_obeys`: a call carries out what it orders, and the calls of listeners
   do.
2. `next_obeys`: what is no call of the user orders nothing beyond what listeners order.
-/

namespace RpcPool

/-- What a call that gave this reply has ordered: to poll, or not to. A call that was refused has
ordered nothing. -/
def Call.order? : Call → Reply → Option Bool
  | .startPolling .., .done => some true
  | .startConfigured _, .done => some true
  | .stopPolling, .none => some false
  | .reset, .none => some false
  | _, _ => none

/-- What the call of a listener has ordered. -/
def Event.order? : Event → Option Bool
  | .answered c reply => c.order? reply
  | _ => none

/-- The orders that listeners have given, in the order in which their calls returned. -/
def orders (ms : List Moment) : List Bool := ms.filterMap (·.event.order?)

theorem orders_append (ms ms' : List Moment) : orders (ms ++ ms') = orders ms ++ orders ms' :=
  List.filterMap_append

namespace Manager

open Relation

variable {s t u : Manager} {inner : Performer} {own : List Bool} {f : FlightId} {c : Call}

/-- Nothing is ordered: the loop of the manager stays what it is, unless the user is gone. -/
def Keeping (s t : Manager) : Prop := t.poller = s.poller ∨ t.poller = none ∧ t.held = false

/-- What listeners have ordered since an earlier state, and then `own` orders, decides about
polling: the last order says whether the manager polls, and a loop that it polls with is not one of
before. If nothing was ordered the loop of the manager is kept. The user does not come to hold the
manager again. -/
structure Obeys (own : List Bool) (s t : Manager) : Prop where
  later : s.trace <:+ t.trace
  nextId : s.nextId ≤ t.nextId
  held : t.held = true → s.held = true
  polling : t.held = true → t.isPolling = (orders (since s t) ++ own).getLastD s.isPolling
  renewed : orders (since s t) ++ own ≠ [] → ∀ id, t.poller = some id → s.nextId ≤ id
  kept : orders (since s t) ++ own = [] → Keeping s t

theorem Obeys.nothing (later : s.trace <:+ t.trace) (hnextId : s.nextId ≤ t.nextId)
    (hheld : t.held = true → s.held = true) (hnone : orders (since s t) = [])
    (hkept : Keeping s t) : Obeys [] s t where
  later := later
  nextId := hnextId
  held := hheld
  polling h := by
    rcases hkept with hpoller | ⟨-, hgone⟩
    · rw [hnone, isPolling, hpoller]
      rfl
    · exact absurd h (by simp [hgone])
  renewed h := absurd (by simpa using hnone) h
  kept _ := hkept

/-- At most, something is begun that gets the next number. -/
theorem Obeys.numbers (htrace : t.trace = s.trace) (hheld : t.held = s.held)
    (hpoller : t.poller = s.poller) (hnextId : s.nextId ≤ t.nextId) : Obeys [] s t :=
  .nothing (htrace ▸ List.suffix_rfl) hnextId (fun h => hheld ▸ h)
    (congrArg orders (since_same htrace)) (.inl hpoller)

theorem Obeys.same (htrace : t.trace = s.trace) (hheld : t.held = s.held)
    (hpoller : t.poller = s.poller) (hnextId : t.nextId = s.nextId) : Obeys [] s t :=
  .numbers htrace hheld hpoller (Nat.le_of_eq hnextId.symm)

theorem Obeys.refl (s : Manager) : Obeys [] s s := .same rfl rfl rfl rfl

theorem Obeys.trans (h : Obeys [] s t) (h' : Obeys own t u) : Obeys own s u := by
  have horders : orders (since s u) ++ own =
      (orders (since s t) ++ []) ++ (orders (since t u) ++ own) := by
    rw [since_append h.later h'.later, orders_append, List.append_nil, List.append_assoc]
  refine ⟨h.later.trans h'.later, Nat.le_trans h.nextId h'.nextId, fun hheld =>
    h.held (h'.held hheld), fun hheld => ?_, fun hsome id hid => ?_, fun hnone => ?_⟩
  · rw [horders, h'.polling hheld, h.polling (h'.held hheld)]
    exact (getLastD_append _ _ _).symm
  · -- the last order was given before `t` if there is none after it
    by_cases hlast : orders (since t u) ++ own = []
    · rw [horders, hlast, List.append_nil] at hsome
      rcases h'.kept hlast with hsame | ⟨hgone, -⟩
      · exact h.renewed hsome id (hsame ▸ hid)
      · cases hgone.symm.trans hid
    · exact Nat.le_trans h.nextId (h'.renewed hlast id hid)
  · rw [horders, List.append_eq_nil_iff] at hnone
    rcases h'.kept hnone.2 with hsame | hgone
    · rcases h.kept hnone.1 with hsame' | ⟨hnobody, hgone⟩
      · exact .inl (hsame.trans hsame')
      · refine .inr ⟨hsame.trans hnobody, Bool.eq_false_iff.mpr fun hheld => ?_⟩
        exact absurd (h'.held hheld) (by simp [hgone])
    · exact .inr hgone

/-- An event that orders nothing is noted. -/
theorem Obeys.note {e : Event} (h : e.order? = none) (s : Manager) : Obeys [] s (s.record e) :=
  .nothing (later_record s e) (Nat.le_refl _) (fun h => h)
    (by rw [since_record]; simp [orders, h]) (.inl rfl)

/-- An order is carried out, with nothing besides. -/
theorem Obeys.carriedOut {order : Bool} (later : s.trace <:+ t.trace)
    (hnextId : s.nextId ≤ t.nextId) (hheld : t.held = s.held) (hpolling : t.isPolling = order)
    (hrenewed : ∀ id, t.poller = some id → s.nextId ≤ id) : Obeys [order] s t where
  later := later
  nextId := hnextId
  held h := hheld ▸ h
  polling _ := by
    rw [hpolling, getLastD_append]
    rfl
  renewed _ := hrenewed
  kept h := absurd h (by simp)

/-! ## Calls and notifications -/

/-- A way to carry out calls that does what they order. -/
def Obedient (inner : Performer) : Prop :=
  ∀ s c, Obeys (c.order? (inner s c).2).toList s (inner s c).1

/-- The call of a listener has returned, and that is noted. -/
theorem Obeys.answered {reply : Reply} (h : Obeys (c.order? reply).toList s t) :
    Obeys [] s (t.record (.answered c reply)) := by
  have hnoted : since t (t.record (.answered c reply)) = [⟨t.now, t.pool, .answered c reply⟩] :=
    since_record t _
  have hanswer : orders [⟨t.now, t.pool, .answered c reply⟩] = (c.order? reply).toList := by
    cases hown : c.order? reply <;> simp [orders, Event.order?, hown]
  have horders : orders (since s (t.record (.answered c reply))) ++ [] =
      orders (since s t) ++ (c.order? reply).toList := by
    rw [since_append h.later (later_record t _), hnoted, orders_append, hanswer, List.append_nil]
  refine ⟨h.later.trans (later_record t _), h.nextId, h.held, ?_, ?_, ?_⟩ <;> rw [horders]
  · exact h.polling
  · exact h.renewed
  · exact h.kept

theorem reactWith_obeys (h : Obedient inner) (s : Manager) (c : Call) :
    Obeys [] s (reactWith inner s c) :=
  (h s c).answered

theorem deliverWith_obeys (h : Obedient inner) (k : Option Connection) (s : Manager)
    (name : String) : Obeys [] s (deliverWith inner k s name) := by
  have hreact (calls : List Call) (t : Manager) : Obeys [] t (calls.foldl (reactWith inner) t) := by
    induction calls generalizing t with
    | nil => exact .refl t
    | cons c rest ih => exact (reactWith_obeys h t c).trans (ih _)
  have hnote : Obeys [] s (s.record (.notified name k)) := .note rfl s
  unfold deliverWith
  split
  · dsimp only
    split
    · next calls rest _ =>
      let used : Manager :=
        { s.record (.notified name k) with listeners := upsert name ⟨rest⟩ s.listeners }
      have hused : Obeys [] (s.record (.notified name k)) used := .same rfl rfl rfl rfl
      exact (hnote.trans hused).trans (hreact calls used)
    · exact hnote
  · exact .refl s

theorem announceWith_obeys (h : Obedient inner) (s : Manager) (k : Option Connection) :
    Obeys [] s (announceWith inner s k) := by
  have hdeliver (names : List String) (t : Manager) :
      Obeys [] t (names.foldl (deliverWith inner k) t) := by
    induction names generalizing t with
    | nil => exact .refl t
    | cons name rest ih => exact (deliverWith_obeys h k t name).trans (ih _)
  exact (Obeys.note rfl s).trans (hdeliver s.subscribers _)

theorem applyWith_obeys (h : Obedient inner) (s : Manager) (r : Registry × Change) :
    Obeys [] s (applyWith inner s r) := by
  obtain ⟨registry, change⟩ := r
  have hset : Obeys [] s (s.setRegistry registry) := .same rfl rfl rfl rfl
  cases change with
  | unchanged => exact hset
  | changed k => exact hset.trans (announceWith_obeys h _ k)

theorem settleWith_obeys (h : Obedient inner) (s : Manager)
    (r : Except PoolError (Registry × Change)) : Obeys [] s (settleWith inner s r).1 := by
  cases r with
  | error e => exact .refl s
  | ok r => exact applyWith_obeys h s r

theorem followWith_obeys (h : Obedient inner) (s : Manager) (r : Pool × Option Switch) :
    Obeys [] s (followWith inner s r) := by
  obtain ⟨q, w⟩ := r
  cases w with
  | none => exact .refl s
  | some w =>
    let moved : Manager := { s with pool := q }
    have hmoved : Obeys [] s moved := .same rfl rfl rfl rfl
    have hnoted : Obeys [] moved (moved.record (.switched w)) := .note rfl moved
    exact (hmoved.trans hnoted).trans (announceWith_obeys h _ _)

theorem label_obeys (s : Manager) (label : Option String) (c : Connection) :
    Obeys [] s (s.label label c) := by
  obtain ⟨labels, hlabel⟩ := label_eq s label c
  rw [hlabel]
  exact .same rfl rfl rfl rfl

theorem register_obeys (s : Manager) (e : Endpoint) (label : Option String) :
    Obeys [] s (s.register e label).1 := by
  obtain ⟨made, connections, labels, hregister⟩ := register_eq s e label
  rw [hregister]
  exact .same rfl rfl rfl rfl

theorem stopPolling_poller (s : Manager) : s.stopPolling.poller = none := by
  unfold stopPolling
  split
  · next h => exact h
  · next id _ =>
    obtain ⟨loops, timers, ready, hstop⟩ := stopLoop_eq { s with poller := none } id
    rw [hstop]

theorem stopPolling_obeys (s : Manager) : Obeys [false] s s.stopPolling := by
  have hpoller := stopPolling_poller s
  obtain ⟨poller, loops, timers, ready, hstop⟩ := stopPolling_eq s
  rw [hstop] at hpoller ⊢
  exact .carriedOut List.suffix_rfl (Nat.le_refl _) rfl (by rw [isPolling, hpoller]; rfl)
    fun id hid => by cases hpoller.symm.trans hid

/-- Letting go of a manager orders nothing. -/
theorem release_obeys (s : Manager) : Obeys [] s s.release := by
  unfold release
  split
  · exact .refl s
  · next hgone =>
    have hheld : s.held = false := by
      simp only [Bool.or_eq_true, not_or, Bool.not_eq_true] at hgone
      exact hgone.1
    have hpoller := stopPolling_poller s
    obtain ⟨poller, loops, timers, ready, hstop⟩ := stopPolling_eq s
    rw [hstop] at hpoller ⊢
    exact .nothing List.suffix_rfl (Nat.le_refl _) (fun h => h) (congrArg orders (since_same rfl))
      (.inr ⟨hpoller, hheld⟩)

theorem startPolling_obeys {o : PollOptions} (h : s.startPolling o = .ok t) :
    Obeys [true] s t := by
  have hpoller : t.poller = some s.nextId := by
    obtain ⟨ready, hengage⟩ := engage_eq s o
    rcases startPolling_ok h with ⟨-, rfl⟩ | ⟨old, -, rfl⟩
    · rw [hengage]
    · obtain ⟨loops, timers, ready', hstop⟩ := stopLoop_eq (s.engage o) old
      rw [hstop, hengage]
  obtain ⟨poller, loops, timers, ready, nextId, started, hnextId, rfl⟩ := startPolling_eq h
  have hpoller : poller = some s.nextId := hpoller
  exact .carriedOut (later_record s _) hnextId rfl (by rw [isPolling, hpoller]; rfl)
    fun id hid => Nat.le_of_eq (Option.some.inj (hpoller.symm.trans hid))

/-- With no listeners, a notification is made known to nobody. -/
theorem announceWith_nobody (h : s.subscribers = []) (k : Option Connection) :
    announceWith inner s k = s.record (.announced k 0) := by
  unfold announceWith
  rw [h]
  rfl

/-- A manager that has been reset, before that is made known. -/
def cleared (s : Manager) : Manager :=
  ({ s.stopPolling with subscribers := [] } : Manager).setRegistry .empty

/-- A reset takes the listeners away before it makes anything known. -/
theorem performWith_reset (inner : Performer) (s : Manager) :
    (performWith inner s .reset).1 = s.cleared ∨
      ∃ k, (performWith inner s .reset).1 = s.cleared.record (.announced k 0) := by
  have hreset : (performWith inner s .reset).1 =
      publishWith inner s.cleared s.stopPolling.pool.registry.reset.2 := rfl
  rw [hreset]
  cases s.stopPolling.pool.registry.reset.2 with
  | unchanged => exact .inl rfl
  | changed k => exact .inr ⟨k, announceWith_nobody rfl k⟩

theorem cleared_eq (s : Manager) : ∃ loops timers ready, s.cleared =
    { s with
      pool := { s.pool with registry := .empty }
      subscribers := []
      poller := none
      loops := loops
      timers := timers
      ready := ready } := by
  have hpoller := stopPolling_poller s
  obtain ⟨poller, loops, timers, ready, hstop⟩ := stopPolling_eq s
  refine ⟨loops, timers, ready, ?_⟩
  unfold cleared setRegistry
  rw [hstop] at hpoller ⊢
  have hpoller : poller = none := hpoller
  rw [hpoller]

theorem reset_obeys (s : Manager) : Obeys [false] s (performWith inner s .reset).1 := by
  obtain ⟨loops, timers, ready, hcleared⟩ := cleared_eq s
  rcases performWith_reset inner s with h | ⟨k, h⟩ <;> rw [h, hcleared]
  · exact .carriedOut List.suffix_rfl (Nat.le_refl _) rfl rfl nofun
  · exact .carriedOut (List.suffix_cons _ _) (Nat.le_refl _) rfl rfl nofun

/-- A call does what it orders if the calls of listeners do. -/
theorem performWith_obeys (h : Obedient inner) : Obedient (performWith inner) := by
  intro s c
  cases c with
  | make e label =>
    have hmade : Obeys [] s (s.instantiate e).1 := .same rfl rfl rfl rfl
    exact hmade.trans (label_obeys _ label _)
  | add e label => exact register_obeys s e label
  | addUri uri label => exact register_obeys s { uri } label
  | remove uri => exact settleWith_obeys h s _
  | select name =>
    dsimp only [performWith]
    split
    · exact applyWith_obeys h s _
    · exact settleWith_obeys h s _
  | selectUri uri =>
    have hmade : Obeys [] s { s with made := s.made ++ [{ uri }] } := .same rfl rfl rfl rfl
    exact hmade.trans (settleWith_obeys h _ _)
  | disconnect => exact applyWith_obeys h s _
  | clear => exact applyWith_obeys h s _
  | reset => exact reset_obeys s
  | setAutoSwitch on => exact .same rfl rfl rfl rfl
  | setTimeout ms =>
    dsimp only [performWith]
    split
    · exact .refl s
    · exact .same rfl rfl rfl rfl
  | get uri label =>
    dsimp only [performWith]
    split
    · exact .refl s
    · exact label_obeys s label _
  | has uri => exact .refl s
  | observe name outcome =>
    dsimp only [performWith]
    split
    · exact .refl s
    · next c _ =>
      have hobserved : Obeys [] s { s with pool := s.pool.observe c outcome } :=
        .same rfl rfl rfl rfl
      exact hobserved.trans (.note rfl _)
  | improve => exact followWith_obeys h s _
  | script uri fallback queue => exact .same rfl rfl rfl rfl
  | addListener name reaction times => exact .same rfl rfl rfl rfl
  | removeListener name =>
    dsimp only [performWith]
    split
    · exact .same rfl rfl rfl rfl
    · exact .refl s
  | removeListeners => exact .same rfl rfl rfl rfl
  | startPolling options excluded =>
    dsimp only [performWith]
    split
    · exact .refl s
    · next ht => exact startPolling_obeys ht
  | startConfigured polling =>
    dsimp only [performWith]
    split
    · exact .refl s
    · next ht => exact startPolling_obeys ht
  | stopPolling => exact stopPolling_obeys s
  | spawn name request =>
    obtain ⟨ready, hwake⟩ := wake_eq { s with
      nextId := s.nextId + 1
      started := s.started + 1
      flights := upsert s.nextId ⟨.task, .queued (s.operation request)⟩ s.flights
      tasks := upsert name s.nextId s.tasks } (.flight s.nextId)
    dsimp only [performWith]
    rw [hwake]
    exact .numbers rfl rfl rfl (Nat.le_succ _)
  | drop =>
    have hgone : Obeys [] s { s with held := false } :=
      .nothing List.suffix_rfl (Nat.le_refl _) nofun (congrArg orders (since_same rfl)) (.inl rfl)
    exact hgone.trans (release_obeys _)

/-- Calls of listeners are carried out in full, so it does not matter what would become of calls
that are nested more deeply than they can be. -/
def performFrom (base : Performer) : Nat → Performer
  | 0 => base
  | depth + 1 => performWith (performFrom base depth)

theorem performFrom_agree (base : Performer) (n : Nat) :
    Agree n (performTo n) (performFrom base n) := by
  induction n with
  | zero =>
    exact ⟨fun _ _ h => absurd h (Nat.not_lt_zero _), fun _ _ h => absurd h (Nat.not_lt_zero _)⟩
  | succ n ih => exact ih.performWith

theorem act_obeys : Obedient act := by
  have hdepth (depth : Nat) : Obedient (performFrom (fun s _ => (s, .unknownTask)) depth) := by
    induction depth with
    | zero =>
      intro s c
      have hnone : c.order? .unknownTask = none := by cases c <;> rfl
      show Obeys (c.order? .unknownTask).toList s s
      rw [hnone]
      exact .refl s
    | succ depth ih => exact performWith_obeys ih
  intro s c
  have hact : performFrom _ _ s c = act s c :=
    (performFrom_agree (fun s _ => (s, .unknownTask)) (s.reactions + c.reactions + 1)).same s c
      (Nat.lt_succ_self _)
  rw [← hact]
  exact hdepth _ s c

/-! ## Turns -/

theorem publishStatus_obeys (s : Manager) (probed : List (Connection × Bool)) :
    Obeys [] s (s.publishStatus probed) := by
  unfold publishStatus
  split
  · exact .refl s
  · split
    · rw [announce_eq]
      exact announceWith_obeys act_obeys s _
    · exact .refl s

theorem FollowStretch.obeys (h : FollowStretch s t) : Obeys [] s t := by
  induction h with
  | refl => exact .refl s
  | @tail a _ _ hmove ih =>
    obtain ⟨q, w, _, rfl⟩ := hmove
    have hmoved : Obeys [] a { a with pool := q } := .same rfl rfl rfl rfl
    exact (ih.trans (hmoved.trans (.note rfl _))).trans (announceWith_obeys act_obeys _ _)

theorem launch_obeys (s : Manager) (f : FlightId) (owner : Owner) (options : CheckOptions)
    (stage : Stage) (conns : List Connection) :
    Obeys [] s (s.launch f owner options stage conns) := by
  obtain ⟨ready, hlaunch⟩ := launch_rest s f owner options stage conns
  rw [hlaunch]
  exact .same rfl rfl rfl rfl

theorem land_obeys (s : Manager) (f : FlightId) (owner : Owner) (reply : Reply) :
    Obeys [] s (s.land f owner reply) := by
  let removed : Manager := { s with flights := without f s.flights }
  have hremoved : Obeys [] s removed := .same rfl rfl rfl rfl
  have hanswered : Obeys [] s { removed with answers := upsert f reply s.answers } :=
    .same rfl rfl rfl rfl
  cases owner with
  | caller => exact hanswered.trans (release_obeys _)
  | task => exact hanswered.trans (release_obeys _)
  | loop id =>
    have hnoted (e : Event) (he : e.order? = none) : Obeys [] s (removed.record e).release :=
      (hremoved.trans (.note he removed)).trans (release_obeys _)
    unfold land
    dsimp only
    split
    · exact hremoved.trans (release_obeys _)
    · split
      · exact (hnoted (.pollFailed _ _) rfl).trans (.same rfl rfl rfl rfl)
      · exact (hnoted (.polled _ _ _) rfl).trans (.same rfl rfl rfl rfl)

theorem proceed_obeys (s : Manager) (f : FlightId) (owner : Owner) (progress : Progress) :
    Obeys [] s (s.proceed f owner progress) := by
  cases progress with
  | await options stage conns => exact launch_obeys s f owner options stage conns
  | done reply => exact land_obeys s f owner reply

theorem runFlight_obeys (s : Manager) (f : FlightId) : Obeys [] s (s.runFlight f) := by
  have hturn := runFlight_turn s f
  generalize s.runFlight f = after at hturn ⊢
  cases hturn with
  | waits _ => exact .refl s
  | @begins owner op _ => exact (begin_followed s op).obeys.trans (proceed_obeys _ f owner _)
  | @breaks owner _ _ _ _ _ _ _ => exact land_obeys s f owner _
  | @goesOn owner options stage _ probed _ _ _ =>
    have hpublish := publishStatus_obeys s probed
    have hresume := (resume_followed s options stage probed).obeys
    exact (hpublish.trans hresume).trans (proceed_obeys _ f owner _)

theorem runLoop_obeys (s : Manager) (id : LoopId) : Obeys [] s (s.runLoop id) := by
  have hturn := runLoop_turn s id
  generalize s.runLoop id = after at hturn ⊢
  cases hturn with
  | gone _ => exact .refl s
  | quits _ _ =>
    let gone : Manager := { s with loops := without id s.loops }
    have hgone : Obeys [] s gone := .same rfl rfl rfl rfl
    exact hgone.trans (.note rfl gone)
  | @begins l _ _ _ =>
    have hticked : Obeys [] s (s.ticked id l) := .numbers rfl rfl rfl (Nat.le_succ _)
    exact hticked.trans (runFlight_obeys _ s.nextId)
  | waits _ _ _ => exact .same rfl rfl rfl rfl

theorem setProbe_obeys (s : Manager) (f : FlightId) (i : Nat) (state : ProbeState) :
    Obeys [] s (s.setProbe f i state) := by
  unfold setProbe
  split <;> exact .same rfl rfl rfl rfl

theorem wake_obeys (s : Manager) (x : Task) : Obeys [] s (s.wake x) := by
  obtain ⟨ready, hwake⟩ := wake_eq s x
  rw [hwake]
  exact .same rfl rfl rfl rfl

theorem endProbe_obeys (s : Manager) (f : FlightId) (i : Nat) (c : Connection)
    (outcome : Probe.Outcome) : Obeys [] s (s.endProbe f i c outcome) := by
  let observed : Manager := { s with pool := s.pool.observe c outcome }
  have hobserved : Obeys [] s observed := .same rfl rfl rfl rfl
  have hnoted : Obeys [] s (observed.record (.probeEnded c outcome)) :=
    hobserved.trans (.note rfl observed)
  exact (hnoted.trans (setProbe_obeys _ f i _)).trans (wake_obeys _ _)

theorem ProbeTurn.obeys {i : Nat} (h : ProbeTurn f i s t) : Obeys [] s t := by
  have hprobing (p : BatchProbe) : Obeys [] s (s.probing p) :=
    Obeys.trans (.note (e := .probeStarted p.connection p.timeoutMs) rfl s) (.same rfl rfl rfl rfl)
  cases h with
  | nothing => exact .refl s
  | breaks _ _ _ => exact ((hprobing _).trans (setProbe_obeys _ f i _)).trans (wake_obeys _ _)
  | waits outcome due _ _ =>
    exact ((hprobing _).trans (setProbe_obeys _ f i _)).trans (.same rfl rfl rfl rfl)
  | answers outcome _ _ => exact (hprobing _).trans (endProbe_obeys _ f i _ _)
  | ends _ _ => exact endProbe_obeys s f i _ _

/-- What is no call of the user orders nothing but what listeners order. -/
theorem next_obeys {m : Move} (hm : ∀ c, m ≠ .call c) : Obeys [] s (s.next m) := by
  cases m with
  | call c => exact absurd rfl (hm c)
  | await r =>
    dsimp only [next]
    split
    · let begun : Manager := { s with nextId := s.nextId + 1 }.setFlight s.nextId
        ⟨.caller, .queued (s.operation r)⟩
      have hbegun : Obeys [] s begun := .numbers rfl rfl rfl (Nat.le_succ _)
      exact hbegun.trans (runFlight_obeys begun s.nextId)
    · exact .refl s
  | turn task =>
    have herased : Obeys [] s { s with ready := s.ready.erase task } := .same rfl rfl rfl rfl
    dsimp only [next, runTask]
    split
    · refine herased.trans ?_
      cases task with
      | probe f i => exact (runProbe_turn _ f i).obeys
      | flight f => exact runFlight_obeys _ f
      | loop id => exact runLoop_obeys _ id
    · exact .refl s
  | clock time =>
    obtain ⟨timers, ready, hclock⟩ := moveClock_eq s time
    show Obeys [] s (s.moveClock time)
    rw [hclock]
    exact .same rfl rfl rfl rfl
  | collect _ | forget _ | idle _ => exact .same rfl rfl rfl rfl

end Manager

end RpcPool

import RpcPool.Manager.Journal
import RpcPool.Proofs.Callbacks

/-!
# The log and the current connection

Two kinds of entries are about the current connection. An automatic move of the pointer writes one
that says from where to where it goes, and whatever listeners are told of writes one that names the
current connection. All else that is logged has nothing to do with the pointer.

What is done at the end of a batch, in a call or in a listener's answer is taken apart into things
that each leave the pointer alone, or write their entries before anybody else can act. After each of
them the last entry names what is current.

Results:
1. `performWith_logged`: what a call writes before listeners hear of it.
2. `next_logged`, `act_logged`: the same for each thing that is done in a move of a run, and in a
   call of a listener.
3. `LoggedRun.mirrors`: whatever listeners answer, the log keeps up with the pointer.
4. `Reachable.log_mirrors`: the log of a run.
-/

namespace RpcPool

/-! ## Entries about the current connection -/

/-- What the log calls a connection, or the absence of one. -/
def called (c : Option Connection) : Option Json := some (Log.redacted? (c.map (·.uri)))

namespace Log.Entry

/-- A field of an entry. -/
def field (e : Entry) (name : String) : Option Json := e.fields.lookup name

/-- Whether an entry names the current connection. -/
def names (e : Entry) : Bool := e.event == "connection_changed"

/-- Whether an entry is about an automatic move of the current pointer. -/
def switches (e : Entry) : Bool := e.event == "auto_switch"

/-- An entry that names a connection. -/
structure Names (e : Entry) (c : Option Connection) : Prop where
  names : e.names = true
  uri : e.field "uri" = called c

/-- An entry of a move from one connection to another. -/
structure Switches (e : Entry) (source target : Option Connection) : Prop where
  switches : e.switches = true
  source : e.field "from" = called source
  target : e.field "to" = called target

theorem Names.switches {e : Entry} {c : Option Connection} (h : e.Names c) :
    e.switches = false := by
  have hevent : e.event = "connection_changed" := beq_iff_eq.mp h.names
  unfold Entry.switches
  rw [hevent]
  decide

theorem Switches.names {e : Entry} {source target : Option Connection}
    (h : e.Switches source target) : e.names = false := by
  have hevent : e.event = "auto_switch" := beq_iff_eq.mp h.switches
  unfold Entry.names
  rw [hevent]
  decide

end Log.Entry

/-- The entry that names a connection to so many listeners. -/
def announcement (c : Option Connection) (listeners : Nat) : Log.Entry :=
  (Log.Note.connectionChanged (c.map (·.uri)) (UInt64.ofNat listeners)).entry

/-- The entry of an automatic move. -/
def Switch.entry (w : Switch) : Log.Entry :=
  (Log.Note.autoSwitch (w.source.map (·.uri)) w.target.uri w.reason.message).entry

theorem announcement_names (c : Option Connection) (listeners : Nat) :
    (announcement c listeners).Names c := ⟨rfl, rfl⟩

theorem Switch.entry_switches (w : Switch) : w.entry.Switches w.source (some w.target) :=
  ⟨rfl, rfl, rfl⟩

/-- Whether an event is logged with an entry about the current connection. -/
def Event.isAboutCurrent : Event → Bool
  | .switched _ => true
  | .announced .. => true
  | _ => false

theorem note_elsewhere {m : Moment} {n : Log.Note} (h : m.event.isAboutCurrent = false)
    (hn : m.note? = some n) : n.entry.names = false ∧ n.entry.switches = false := by
  obtain ⟨time, pool, event⟩ := m
  cases event with
  | switched w => exact absurd h (by simp [Event.isAboutCurrent])
  | announced c listeners => exact absurd h (by simp [Event.isAboutCurrent])
  | observed c outcome => exact absurd hn (by simp [Moment.note?])
  | notified name c => exact absurd hn (by simp [Moment.note?])
  | answered call reply => exact absurd hn (by simp [Moment.note?])
  | _ =>
    cases hn
    exact ⟨rfl, rfl⟩

/-- What is current by the last entry that names it, or `k` if none does. -/
def latest (k : Option Json) (es : List Log.Entry) : Option Json :=
  ((es.filter (·.names)).map (·.field "uri")).getLastD k

/-- Every entry of a move says where the pointer was by the entries before it, and the next entry
names the connection that it moved to. -/
def Chained (k : Option Json) (es : List Log.Entry) : Prop :=
  ∀ before e after, es = before ++ e :: after → e.switches = true →
    e.field "from" = latest k before ∧
      ∃ e' later, after = e' :: later ∧ e'.names = true ∧ e'.field "uri" = e.field "to"

section

variable {k : Option Json} {es es' : List Log.Entry}

theorem latest_append : latest k (es ++ es') = latest (latest k es) es' := by
  unfold latest
  rw [List.filter_append, List.map_append, getLastD_append]

theorem latest_silent (h : ∀ e ∈ es, e.names = false) : latest k es = k := by
  have hnone : es.filter (·.names) = [] :=
    List.filter_eq_nil_iff.mpr fun e he => by simp [h e he]
  unfold latest
  rw [hnone]
  rfl

/-- The last entry that names the current connection decides. -/
theorem latest_last {before after : List Log.Entry} {e : Log.Entry} (he : e.names = true)
    (hafter : ∀ e' ∈ after, e'.names = false) :
    latest k (before ++ e :: after) = e.field "uri" := by
  have hone : latest (latest k before) [e] = e.field "uri" := by
    unfold latest
    rw [List.filter_cons_of_pos he]
    rfl
  rw [← List.singleton_append, latest_append, latest_append, hone, latest_silent hafter]

theorem Chained.of_still (h : ∀ e ∈ es, e.switches = false) : Chained k es := by
  intro before e after heq he
  have hmem : e ∈ es := heq ▸ List.mem_append_right before List.mem_cons_self
  rw [h e hmem] at he
  exact absurd he (by simp)

theorem Chained.append (h : Chained k es) (h' : Chained (latest k es) es') :
    Chained k (es ++ es') := by
  intro before e after heq he
  rcases List.append_eq_append_iff.mp heq with ⟨mid, rfl, hmid⟩ | ⟨mid, rfl, hmid⟩
  · rw [latest_append]
    exact h' mid e after hmid he
  · cases mid with
    | nil =>
      rw [List.append_nil] at h'
      exact h' [] e after hmid.symm he
    | cons x mid =>
      -- the entry of the move belongs to the first part, and so does the one after it
      obtain ⟨rfl, rfl⟩ := List.cons_eq_cons.mp hmid
      obtain ⟨hfrom, e', later, rfl, hnames, huri⟩ := h before e mid rfl he
      exact ⟨hfrom, e', later ++ es', rfl, hnames, huri⟩

/-- An automatic move is logged with two entries. -/
theorem Chained.pair {e e' : Log.Entry} {source target : Option Connection}
    (he : e.Switches source target) (he' : e'.Names target) : Chained (called source) [e, e'] := by
  intro before x after heq hx
  cases before with
  | nil =>
    obtain ⟨rfl, rfl⟩ := List.cons_eq_cons.mp heq
    exact ⟨he.source, e', [], rfl, he'.names, he'.uri.trans he.target.symm⟩
  | cons y before =>
    obtain ⟨rfl, hrest⟩ := List.cons_eq_cons.mp heq
    have hmem : x ∈ [e'] := hrest ▸ List.mem_append_right before List.mem_cons_self
    rw [List.mem_singleton.mp hmem, he'.switches] at hx
    exact absurd hx (by simp)

end

/-- Whether a call asks for a change of the current connection. A re-ranking does not: it leaves the
choice to the pool. -/
def Call.asks : Call → Bool
  | .improve => false
  | c => c.moves

/-- Whether a move of a run is a call that asks for a change of the current connection. -/
def Move.asks : Move → Bool
  | .call c => c.asks
  | _ => false

namespace Manager

open Relation

variable {inner : Performer} {asked : Bool} {s t u : Manager}
  {k : Option Connection} {es es' : List Log.Entry}

/-- The log of a run so far, as it is written if logging is on and no write fails. -/
def log (s : Manager) : List Log.Entry := journal s.trace.reverse

/-- What was logged since an earlier state. -/
def written (s t : Manager) : List Log.Entry := journal (since s t)

/-- The log grows by some entries. -/
structure Writes (s t : Manager) (es : List Log.Entry) : Prop where
  later : s.trace <:+ t.trace
  entries : written s t = es

/-- Nothing about the current pointer: it stays where it is, nothing is logged about it, and no
listener is called. -/
structure Elsewhere (s t : Manager) : Prop extends Unheard s t where
  names : ∀ e ∈ written s t, e.names = false
  switches : ∀ e ∈ written s t, e.switches = false

/-- All listeners are called, one after the other, with what was current before the first of them
could answer. -/
def Told (inner : Performer) (s t : Manager) : Prop :=
  t = s.subscribers.foldl (deliverWith inner s.current) s

/-- One thing that is done, and what is logged of it before anybody hears of it: nothing about the
current pointer, a report of the current connection, an automatic move of the pointer, or a change
that was asked for. What listeners answer comes after that. -/
inductive Logged (inner : Performer) (asked : Bool) (s t : Manager) : Prop
  | elsewhere : Elsewhere s t → Logged inner asked s t
  | report {u : Manager} {e : Log.Entry} :
      asked = false → u.pool = s.pool → Writes s u [e] → e.Names u.current → Told inner u t →
      Logged inner asked s t
  | automatic {u : Manager} {w : Switch} {e e' : Log.Entry} :
      asked = false → s.pool.Moved u.pool w → Writes s u [e, e'] →
      e.Switches s.current u.current → e'.Names u.current → Told inner u t →
      Logged inner asked s t
  | explicit {u : Manager} {e : Log.Entry} :
      asked = true → u.current ≠ s.current → Writes s u [e] → e.Names u.current →
      Told inner u t → Logged inner asked s t

/-- Some things that are done one after the other. -/
abbrev LoggedRun (asked : Bool) : Manager → Manager → Prop := ReflTransGen (Logged act asked)

/-! ## What is written -/

theorem journal_append (ms ms' : List Moment) :
    journal (ms ++ ms') = journal ms ++ journal ms' :=
  List.filterMap_append

theorem written_append (hst : s.trace <:+ t.trace) (htu : t.trace <:+ u.trace) :
    written s u = written s t ++ written t u := by
  unfold written
  rw [since_append hst htu, journal_append]

theorem log_append (h : s.trace <:+ t.trace) : t.log = s.log ++ written s t := by
  unfold log written
  rw [trace_eq_since h, List.reverse_append, List.reverse_reverse, journal_append]

theorem Writes.trans (h : Writes s t es) (h' : Writes t u es') : Writes s u (es ++ es') where
  later := h.later.trans h'.later
  entries := by rw [written_append h.later h'.later, h.entries, h'.entries]

/-- What is current is made known. -/
theorem Writes.announced (h : t.trace = s.trace) (k : Option Connection) (n : Nat) :
    Writes s (t.record (.announced k n)) [announcement k n] := by
  have htrace : (t.record (.announced k n)).trace = ⟨t.now, t.pool, .announced k n⟩ :: s.trace :=
    congrArg (List.cons _) h
  have hsince : since s (t.record (.announced k n)) = [⟨t.now, t.pool, .announced k n⟩] :=
    since_of_trace htrace
  exact ⟨h ▸ later_record t _, congrArg journal hsince⟩

theorem Writes.switched (s : Manager) (q : Pool) (w : Switch) :
    Writes s ({ s with pool := q }.record (.switched w)) [w.entry] := by
  have hsince : since s (({ s with pool := q } : Manager).record (.switched w)) =
      [⟨s.now, q, .switched w⟩] := since_of_trace rfl
  exact ⟨List.suffix_cons _ _, congrArg journal hsince⟩

theorem announced_names (h : s.current = k) (n : Nat) :
    (announcement k n).Names (s.record (.announced k n)).current := by
  subst h
  exact announcement_names _ n

theorem announceWith_told (h : s.current = k) :
    Told inner (s.record (.announced k s.subscribers.length)) (announceWith inner s k) := by
  subst h
  rfl

/-! ## What is not about the current pointer -/

theorem Elsewhere.of_unheard (h : Unheard s t)
    (hs : ∀ m ∈ since s t, m.event.isAboutCurrent = false) : Elsewhere s t := by
  have hentry : ∀ e ∈ written s t, e.names = false ∧ e.switches = false := by
    intro e he
    obtain ⟨m, hm, hnote⟩ := List.mem_filterMap.mp he
    obtain ⟨n, hn, rfl⟩ := Option.map_eq_some_iff.mp hnote
    exact note_elsewhere (hs m hm) hn
  exact ⟨h, fun e he => (hentry e he).1, fun e he => (hentry e he).2⟩

theorem Elsewhere.same (htrace : t.trace = s.trace) (hcurrent : t.current = s.current) :
    Elsewhere s t := by
  refine .of_unheard (.same htrace hcurrent) ?_
  rw [since_same htrace]
  exact fun m hm => absurd hm List.not_mem_nil

theorem Elsewhere.refl (s : Manager) : Elsewhere s s := .same rfl rfl

theorem Elsewhere.trans (h : Elsewhere s t) (h' : Elsewhere t u) : Elsewhere s u where
  toUnheard := h.toUnheard.trans h'.toUnheard
  names e he := by
    rw [written_append h.later h'.later] at he
    exact (List.mem_append.mp he).elim (h.names e) (h'.names e)
  switches e he := by
    rw [written_append h.later h'.later] at he
    exact (List.mem_append.mp he).elim (h.switches e) (h'.switches e)

theorem Elsewhere.record {e : Event} (htold : e.told? = none) (he : e.isAboutCurrent = false)
    (s : Manager) : Elsewhere s (s.record e) := by
  refine .of_unheard (Still.record htold s).toUnheard fun m hm => ?_
  rw [since_record, List.mem_singleton] at hm
  rw [hm]
  exact he

theorem Elsewhere.observe {e : Event} (htold : e.told? = none) (he : e.isAboutCurrent = false)
    (s : Manager) (c : Connection) (outcome : Probe.Outcome) :
    Elsewhere s ({ s with pool := s.pool.observe c outcome }.record e) := by
  have hobserve : Elsewhere s { s with pool := s.pool.observe c outcome } := .same rfl rfl
  exact hobserve.trans (.record htold he _)

theorem Frame.elsewhere (h : Frame (fun _ => True) s t) : Elsewhere s t :=
  .same h.trace (congrArg (·.registry.current) h.pool)

theorem startPolling_elsewhere {o : PollOptions} (h : s.startPolling o = .ok t) :
    Elsewhere s t := by
  obtain ⟨poller, loops, timers, ready, nextId, started, _, rfl⟩ := startPolling_eq h
  exact (Elsewhere.record rfl rfl s).trans (.same rfl rfl)

theorem probing_elsewhere (s : Manager) (p : BatchProbe) : Elsewhere s (s.probing p) :=
  (Elsewhere.record rfl rfl s).trans (.same rfl rfl)

theorem endProbe_elsewhere (s : Manager) (id : FlightId) (index : Nat) (c : Connection)
    (outcome : Probe.Outcome) : Elsewhere s (s.endProbe id index c outcome) := by
  unfold endProbe
  dsimp only
  exact (Elsewhere.observe rfl rfl s c outcome).trans
    (Frame.elsewhere ((setProbe_frame _ id index _).trans (wake_frame _ _)))

theorem ProbeTurn.elsewhere {id : FlightId} {index : Nat} (h : ProbeTurn id index s t) :
    Elsewhere s t := by
  cases h with
  | nothing => exact .refl s
  | breaks _ _ _ =>
    exact (probing_elsewhere s _).trans
      (Frame.elsewhere ((setProbe_frame _ id index _).trans (wake_frame _ _)))
  | waits outcome due _ _ =>
    exact (probing_elsewhere s _).trans
      (Frame.elsewhere ((setProbe_frame _ id index _).trans (sleep_frame _ due _)))
  | answers outcome _ _ =>
    exact (probing_elsewhere s _).trans (endProbe_elsewhere _ id index _ outcome)
  | ends _ _ => exact endProbe_elsewhere s id index _ _

theorem land_elsewhere (s : Manager) (id : FlightId) (owner : Owner) (reply : Reply) :
    Elsewhere s (s.land id owner reply) := by
  have hdone : Elsewhere s { s with flights := without id s.flights } := .same rfl rfl
  have hanswered : Elsewhere s
      { s with flights := without id s.flights, answers := upsert id reply s.answers } :=
    .same rfl rfl
  have hrelease (a : Manager) : Elsewhere a a.release :=
    Frame.elsewhere (release_frame a)
  unfold land
  cases owner with
  | caller => exact hanswered.trans (hrelease _)
  | task => exact hanswered.trans (hrelease _)
  | loop loop =>
    dsimp only
    split
    · exact hdone.trans (hrelease _)
    · refine hdone.trans ?_
      -- the iteration is noted, one way or the other, and the loop is the next task to run
      split
      · exact ((Elsewhere.record rfl rfl _).trans (hrelease _)).trans (.same rfl rfl)
      · exact ((Elsewhere.record rfl rfl _).trans (hrelease _)).trans (.same rfl rfl)

theorem proceed_elsewhere (s : Manager) (id : FlightId) (owner : Owner) (progress : Progress) :
    Elsewhere s (s.proceed id owner progress) := by
  cases progress with
  | await options stage conns =>
    exact Frame.elsewhere (launch_frame fun _ _ => .inr trivial)
  | done reply => exact land_elsewhere s id owner reply

/-! ## Calls -/

/-- A change that was asked for is logged and made known, unless the pointer is where it was. -/
theorem applyWith_logged {r : Registry × Change} (htrace : t.trace = s.trace)
    (hcurrent : t.current = s.current) (hr : r.2.Faithful t.current r.1.current) :
    Logged inner true s (applyWith inner t r) := by
  obtain ⟨registry, change⟩ := r
  cases change with
  | unchanged => exact .elsewhere (.same htrace (hr.trans hcurrent))
  | changed k =>
    obtain ⟨hreached, hmoved⟩ := hr
    have hset : (t.setRegistry registry).current = k := hreached
    have htrace : (t.setRegistry registry).trace = s.trace := htrace
    refine .explicit rfl (fun hstays => ?_) (.announced htrace k t.subscribers.length)
      (announced_names hset _) (announceWith_told hset)
    exact hmoved (hcurrent.trans (hstays.symm.trans hset))

theorem settleWith_logged {r : Except PoolError (Registry × Change)} (htrace : t.trace = s.trace)
    (hcurrent : t.current = s.current)
    (hr : ∀ x change, r = .ok (x, change) → change.Faithful t.current x.current) :
    Logged inner true s (settleWith inner t r).1 := by
  cases r with
  | error e => exact .elsewhere (.same htrace hcurrent)
  | ok r => exact applyWith_logged htrace hcurrent (hr r.1 r.2 rfl)

/-- An automatic move is logged with its two entries before anybody hears of it. -/
theorem followed_logged {q : Pool} {w : Switch} (h : s.pool.Moved q w) :
    Logged inner false s
      (announceWith inner ({ s with pool := q }.record (.switched w)) (some w.target)) := by
  have hcurrent : q.registry.current = some w.target := by rw [h.pool]
  have hentry : w.entry.Switches s.current q.registry.current := by
    have hswitches := w.entry_switches
    rw [h.source, ← hcurrent] at hswitches
    exact hswitches
  exact .automatic rfl h ((Writes.switched s q w).trans (.announced rfl _ _)) hentry
    (announced_names hcurrent _) (announceWith_told hcurrent)

theorem label_elsewhere (h : Elsewhere s t) (label : Option String) (c : Connection) :
    Elsewhere s (t.label label c) := by
  obtain ⟨labels, hlabel⟩ := label_eq t label c
  rw [hlabel]
  exact h.trans (.same rfl rfl)

theorem register_elsewhere (s : Manager) (e : Endpoint) (label : Option String) :
    Elsewhere s (s.register e label).1 := by
  obtain ⟨made, connections, labels, hregister⟩ := register_eq s e label
  rw [hregister]
  exact .same rfl rfl

/-- What a call writes before listeners hear of it. -/
theorem performWith_logged (inner : Performer) (s : Manager) (c : Call) :
    Logged inner c.asks s (performWith inner s c).1 := by
  have hnothing (asked : Bool) : Logged inner asked s s := .elsewhere (.refl s)
  cases c with
  | make e label =>
    have hmade : Elsewhere s (s.instantiate e).1 := .same rfl rfl
    exact .elsewhere (label_elsewhere hmade label _)
  | add e label => exact .elsewhere (register_elsewhere s e label)
  | addUri uri label => exact .elsewhere (register_elsewhere s { uri } label)
  | remove uri => exact settleWith_logged rfl rfl fun _ _ h => Registry.remove_faithful h
  | select name =>
    dsimp only [performWith]
    split
    · exact applyWith_logged rfl rfl (Registry.disconnect_faithful _)
    · exact settleWith_logged rfl rfl fun _ _ h => Registry.select_faithful h
  | selectUri uri =>
    exact settleWith_logged (t := { s with made := s.made ++ [{ uri }] }) rfl rfl
      fun _ _ h => Registry.selectUri_faithful h
  | disconnect => exact applyWith_logged rfl rfl (Registry.disconnect_faithful _)
  | clear => exact applyWith_logged rfl rfl (Registry.clear_faithful _)
  | reset =>
    have hstop : Frame (fun _ => True) s s.stopPolling := stopPolling_frame s
    exact applyWith_logged (t := { s.stopPolling with subscribers := [] }) hstop.trace
      (congrArg (·.registry.current) hstop.pool) (Registry.reset_faithful _)
  | setAutoSwitch on => exact .elsewhere (.same rfl rfl)
  | setTimeout ms =>
    dsimp only [performWith]
    split
    · exact hnothing _
    · exact .elsewhere (.same rfl rfl)
  | get uri label =>
    dsimp only [performWith]
    split
    · exact hnothing _
    · exact .elsewhere (label_elsewhere (.refl s) label _)
  | has uri => exact hnothing _
  | observe name outcome =>
    dsimp only [performWith]
    split
    · exact hnothing _
    · exact .elsewhere (.observe rfl rfl s _ outcome)
  | improve =>
    dsimp only [performWith]
    cases himprove : s.pool.improve with
    | mk q w =>
      cases w with
      | none => exact hnothing _
      | some w =>
        exact followed_logged (Pool.Automatic.moved (K := fun _ => True) (.improve himprove))
  | script uri fallback queue => exact .elsewhere (.same rfl rfl)
  | addListener name reaction times => exact .elsewhere (.same rfl rfl)
  | removeListener name =>
    dsimp only [performWith]
    split
    · exact .elsewhere (.same rfl rfl)
    · exact hnothing _
  | removeListeners => exact .elsewhere (.same rfl rfl)
  | startPolling options excluded =>
    dsimp only [performWith]
    split
    · exact hnothing _
    · next t ht => exact .elsewhere (startPolling_elsewhere ht)
  | startConfigured polling =>
    dsimp only [performWith]
    split
    · exact hnothing _
    · next t ht => exact .elsewhere (startPolling_elsewhere ht)
  | stopPolling => exact .elsewhere (Frame.elsewhere (stopPolling_frame s))
  | spawn name request =>
    let begun : Manager := { s with
      nextId := s.nextId + 1
      started := s.started + 1
      flights := upsert s.nextId ⟨.task, .queued (s.operation request)⟩ s.flights
      tasks := upsert name s.nextId s.tasks }
    have hbegun : Elsewhere s begun := .same rfl rfl
    exact .elsewhere (hbegun.trans (Frame.elsewhere (wake_frame begun _)))
  | drop =>
    have hdrop : Elsewhere s { s with held := false } := .same rfl rfl
    exact .elsewhere (hdrop.trans (Frame.elsewhere (release_frame _)))

/-- What a call of a listener writes before listeners hear of it. -/
theorem act_logged (s : Manager) (c : Call) : LoggedRun c.asks s (act s c).1 := by
  rw [act_eq]
  exact .single (performWith_logged act s c)

/-! ## Moves of a run -/

theorem Elsewhere.run (h : Elsewhere s t) : LoggedRun asked s t := .single (.elsewhere h)

theorem FollowStretch.logged (h : FollowStretch s t) : LoggedRun false s t := by
  induction h with
  | refl => exact .refl
  | tail _ hmove ih =>
    obtain ⟨q, w, hmoved, rfl⟩ := hmove
    exact ih.tail (followed_logged hmoved)

theorem publishStatus_logged (s : Manager) (probed : List (Connection × Bool)) :
    LoggedRun false s (s.publishStatus probed) := by
  unfold publishStatus
  split
  · exact .refl
  · next c hc =>
    split
    · rw [announce_eq]
      exact .single (.report (u := s.record (.announced (some c) s.subscribers.length)) rfl
        rfl (.announced rfl _ _) (announced_names hc _) (announceWith_told hc))
    · exact .refl

theorem runFlight_logged (s : Manager) (id : FlightId) : LoggedRun false s (s.runFlight id) := by
  have hturn := runFlight_turn s id
  generalize s.runFlight id = after at hturn ⊢
  cases hturn with
  | waits _ => exact .refl
  | @begins owner op _ =>
    exact (begin_followed s op).logged.trans (proceed_elsewhere _ id owner _).run
  | @breaks owner _ _ _ _ _ _ _ => exact (land_elsewhere s id owner _).run
  | @goesOn owner options stage _ probed _ _ _ =>
    have hresume := (resume_followed s options stage probed).logged
    exact ((publishStatus_logged s probed).trans hresume).trans (proceed_elsewhere _ id owner _).run

theorem runLoop_logged (s : Manager) (id : LoopId) : LoggedRun false s (s.runLoop id) := by
  have hturn := runLoop_turn s id
  generalize s.runLoop id = after at hturn ⊢
  cases hturn with
  | gone _ => exact .refl
  | quits _ _ =>
    have hquits : Elsewhere s { s with loops := without id s.loops } := .same rfl rfl
    exact (hquits.trans (.record rfl rfl _)).run
  | @begins l hl _ _ =>
    have hticked : Frame (fun _ => True) s (s.ticked id l) := ticked_frame hl fun _ _ => trivial
    exact hticked.elsewhere.run.trans (runFlight_logged _ _)
  | @waits l _ _ _ =>
    exact (Frame.elsewhere (sleep_frame s l.due (.loop id))).run

theorem runTask_logged (s : Manager) (t : Task) : LoggedRun false s (s.runTask t) := by
  unfold runTask
  split
  · have herase : Elsewhere s { s with ready := s.ready.erase t } := .same rfl rfl
    refine herase.run.trans ?_
    cases t with
    | probe id index => exact (runProbe_turn _ id index).elsewhere.run
    | flight id => exact runFlight_logged _ id
    | loop id => exact runLoop_logged _ id
  · exact .refl

/-- What each thing that is done in a move of a run writes before listeners hear of it. -/
theorem next_logged (s : Manager) (m : Move) : LoggedRun m.asks s (s.next m) := by
  cases m with
  | call c =>
    cases held : s.held with
    | true =>
      dsimp only [next]
      rw [perform_eq held]
      exact act_logged s c
    | false =>
      simp only [next, perform, held]
      exact .refl
  | await r =>
    dsimp only [next]
    split
    · have hflight : Elsewhere s ({ s with nextId := s.nextId + 1 }.setFlight s.nextId
          ⟨.caller, .queued (s.operation r)⟩) := .same rfl rfl
      exact hflight.run.trans (runFlight_logged _ _)
    · exact .refl
  | turn t => exact runTask_logged s t
  | clock time => exact (Frame.elsewhere (moveClock_frame s time)).run
  | collect id => exact Elsewhere.run (.same rfl rfl)
  | forget name => exact Elsewhere.run (.same rfl rfl)
  | idle tasks => exact Elsewhere.run (.same rfl rfl)

/-! ## The log keeps up -/

/-- From one state to another the log keeps up with the current pointer. If nothing is logged that
names the current connection, it has been the same all the time. -/
structure Mirrors (s t : Manager) : Prop where
  later : s.trace <:+ t.trace
  last : latest (called s.current) (written s t) = called t.current
  chained : Chained (called s.current) (written s t)
  silent : (∀ e ∈ written s t, e.names = false) →
    t.current = s.current ∧ ∀ m ∈ since s t, m.pool.registry.current = s.current

theorem Elsewhere.mirrors (h : Elsewhere s t) : Mirrors s t where
  later := h.later
  last := by rw [latest_silent h.names, h.current]
  chained := .of_still h.switches
  silent _ := ⟨h.current, h.currents⟩

theorem Mirrors.trans (h : Mirrors s t) (h' : Mirrors t u) : Mirrors s u where
  later := h.later.trans h'.later
  last := by
    rw [written_append h.later h'.later, latest_append, h.last]
    exact h'.last
  chained := by
    rw [written_append h.later h'.later]
    exact h.chained.append (h.last ▸ h'.chained)
  silent hsilent := by
    rw [written_append h.later h'.later] at hsilent
    obtain ⟨hcurrent, hseen⟩ := h.silent fun e he => hsilent e (List.mem_append_left _ he)
    obtain ⟨hcurrent', hseen'⟩ := h'.silent fun e he => hsilent e (List.mem_append_right _ he)
    refine ⟨hcurrent'.trans hcurrent, fun m hm => ?_⟩
    rw [since_append h.later h'.later] at hm
    exact (List.mem_append.mp hm).elim (hseen m) fun hm => (hseen' m hm).trans hcurrent

/-- What is written ends with an entry that names the current connection. -/
theorem Writes.mirrors {e : Log.Entry} (h : Writes s t es) (hlast : es.getLast? = some e)
    (he : e.Names t.current) (hes : Chained (called s.current) es) : Mirrors s t := by
  obtain ⟨before, rfl⟩ := List.getLast?_eq_some_iff.mp hlast
  refine ⟨h.later, ?_, h.entries ▸ hes, fun hsilent => ?_⟩
  · rw [h.entries, latest_last he.names fun e' he' => absurd he' List.not_mem_nil]
    exact he.uri
  · have hnot := hsilent e (h.entries ▸ List.mem_append_right before List.mem_cons_self)
    rw [he.names] at hnot
    exact absurd hnot (by simp)

theorem Writes.mirrors_one {e : Log.Entry} (h : Writes s t [e]) (he : e.Names t.current) :
    Mirrors s t := by
  refine h.mirrors rfl he (.of_still fun e' he' => ?_)
  rw [List.mem_singleton.mp he']
  exact he.switches

/-- A listener is called, which is not logged. -/
theorem notified_mirrors (s : Manager) (name : String) (k : Option Connection) :
    Mirrors s (s.record (.notified name k)) := by
  have hsince := since_record s (.notified name k)
  have hwritten : written s (s.record (.notified name k)) = [] := congrArg journal hsince
  refine ⟨later_record s _, ?_, ?_, fun _ => ⟨rfl, fun m hm => ?_⟩⟩
  · rw [hwritten]
    rfl
  · rw [hwritten]
    exact .of_still fun e he => absurd he List.not_mem_nil
  · rw [hsince, List.mem_singleton] at hm
    rw [hm]

section

variable (hinner : ∀ s c, Mirrors s (inner s c).1)

include hinner

theorem foldl_reactWith_mirrors (calls : List Call) (s : Manager) :
    Mirrors s (calls.foldl (reactWith inner) s) := by
  induction calls generalizing s with
  | nil => exact (Elsewhere.refl s).mirrors
  | cons c rest ih =>
    have hreact : Mirrors s (reactWith inner s c) :=
      (hinner s c).trans (Elsewhere.record rfl rfl (inner s c).1).mirrors
    exact hreact.trans (ih _)

theorem deliverWith_mirrors (k : Option Connection) (s : Manager) (name : String) :
    Mirrors s (deliverWith inner k s name) := by
  have hcalled : Mirrors s (s.record (.notified name k)) := notified_mirrors s name k
  unfold deliverWith
  split
  · dsimp only
    split
    · next calls rest _ =>
      have hused : Mirrors (s.record (.notified name k))
          { s.record (.notified name k) with
            listeners := upsert name ⟨rest⟩ (s.record (.notified name k)).listeners } :=
        Elsewhere.mirrors (.same rfl rfl)
      exact (hcalled.trans hused).trans (foldl_reactWith_mirrors hinner calls _)
    · exact hcalled
  · exact (Elsewhere.refl s).mirrors

theorem Told.mirrors (h : Told inner s t) : Mirrors s t := by
  have hdeliver (k : Option Connection) (names : List String) (a : Manager) :
      Mirrors a (names.foldl (deliverWith inner k) a) := by
    induction names generalizing a with
    | nil => exact (Elsewhere.refl a).mirrors
    | cons name rest ih => exact (deliverWith_mirrors hinner k a name).trans (ih _)
  rw [show t = _ from h]
  exact hdeliver s.current s.subscribers s

theorem Logged.mirrors (h : Logged inner asked s t) : Mirrors s t := by
  cases h with
  | elsewhere helsewhere => exact helsewhere.mirrors
  | report _ _ hwrites hnames htold =>
    exact (hwrites.mirrors_one hnames).trans (htold.mirrors hinner)
  | @automatic u w e e' _ _ hwrites hswitches hnames htold =>
    have hpair : Mirrors s u := hwrites.mirrors rfl hnames (.pair hswitches hnames)
    exact hpair.trans (htold.mirrors hinner)
  | explicit _ _ hwrites hnames htold =>
    exact (hwrites.mirrors_one hnames).trans (htold.mirrors hinner)

end

/-- The log keeps up in every call, however deeply its notifications are nested. -/
theorem performTo_mirrors (depth : Nat) (s : Manager) (c : Call) :
    Mirrors s (performTo depth s c).1 := by
  induction depth generalizing s c with
  | zero => exact (Elsewhere.refl s).mirrors
  | succ depth ih => exact (performWith_logged (performTo depth) s c).mirrors ih

theorem LoggedRun.mirrors (h : LoggedRun asked s t) : Mirrors s t := by
  induction h with
  | refl => exact (Elsewhere.refl s).mirrors
  | tail _ hlogged ih => exact ih.trans (hlogged.mirrors fun s c => performTo_mirrors _ s c)

theorem foldl_next_mirrors (moves : List Move) (s : Manager) :
    Mirrors s (moves.foldl next s) := by
  induction moves generalizing s with
  | nil => exact (Elsewhere.refl s).mirrors
  | cons m rest ih => exact (next_logged s m).mirrors.trans (ih _)

/-! ## Runs -/

theorem registerAll_elsewhere {entries : List Config.Entry} (h : s.registerAll entries = .ok t) :
    Elsewhere s t := by
  induction entries generalizing s with
  | nil =>
    cases h
    exact .refl _
  | cons e rest ih =>
    unfold registerAll at h
    dsimp only at h
    split at h
    · exact absurd h (by simp)
    · next r hr =>
      obtain ⟨_, _, rfl⟩ := Registry.add_ok hr
      refine Elsewhere.trans ?_ (ih h)
      exact .same rfl rfl

/-- A manager that was just made has no current connection, and nothing was logged about one. -/
theorem ofConfig_elsewhere {config : Config} {network : Network} {hasRuntime : Bool}
    (h : ofConfig config network hasRuntime = .ok s) : Elsewhere (idle network hasRuntime) s := by
  unfold ofConfig at h
  split at h
  · exact absurd h (by simp)
  · dsimp only at h
    split at h
    · exact absurd h (by simp)
    · next t ht =>
      have hentries : Elsewhere (idle network hasRuntime) t := by
        refine Elsewhere.trans ?_ (registerAll_elsewhere ht)
        exact .same rfl rfl
      split at h
      · exact hentries.trans (startPolling_elsewhere h)
      · cases h
        exact hentries

/-- The log of a run keeps up from its start on. -/
theorem Reachable.mirrors (h : Reachable s) :
    ∃ network hasRuntime, Mirrors (Manager.idle network hasRuntime) s := by
  induction h with
  | new network hasRuntime known => exact ⟨network, hasRuntime, Elsewhere.mirrors (.same rfl rfl)⟩
  | @load _ network hasRuntime a known h =>
    have hknown : Elsewhere a { a with listeners := known } := .same rfl rfl
    exact ⟨network, hasRuntime, ((ofConfig_elsewhere h).trans hknown).mirrors⟩
  | @next s m _ ih =>
    obtain ⟨network, hasRuntime, hmirrors⟩ := ih
    exact ⟨network, hasRuntime, hmirrors.trans (next_logged s m).mirrors⟩

/-- What the log of a run says about the current connection. The last entry that names it names it
right. If there is none, no connection has ever been current: not in any state that the run has
come through, nor whenever something happened. The entries of automatic moves fit in. -/
structure Mirrored (s : Manager) : Prop where
  last : ∀ before e after, s.log = before ++ e :: after → e.names = true →
    (∀ e' ∈ after, e'.names = false) → e.field "uri" = called s.current
  never : (∀ e ∈ s.log, e.names = false) →
    (∀ r (moves : List Move), Reachable r → moves.foldl next r = s → r.current = none) ∧
      ∀ m ∈ s.trace, m.pool.registry.current = none
  chained : Chained (called none) s.log

theorem since_idle (network : Network) (hasRuntime : Bool) (s : Manager) :
    since (idle network hasRuntime) s = s.trace.reverse := by
  refine since_of_trace ?_
  rw [List.reverse_reverse]
  exact (List.append_nil s.trace).symm

theorem written_idle (network : Network) (hasRuntime : Bool) (s : Manager) :
    written (idle network hasRuntime) s = s.log :=
  congrArg journal (since_idle network hasRuntime s)

/-- Nothing that names the current connection was logged, so there has not been any. -/
theorem Reachable.silent (h : Reachable s) (hs : ∀ e ∈ s.log, e.names = false) :
    s.current = none ∧ ∀ m ∈ s.trace, m.pool.registry.current = none := by
  obtain ⟨network, hasRuntime, hmirrors⟩ := h.mirrors
  obtain ⟨hcurrent, hseen⟩ := hmirrors.silent (written_idle network hasRuntime s ▸ hs)
  refine ⟨hcurrent, fun m hm => hseen m ?_⟩
  rw [since_idle]
  exact List.mem_reverse.mpr hm

theorem Reachable.mirrored (h : Reachable s) : s.Mirrored := by
  obtain ⟨network, hasRuntime, hmirrors⟩ := h.mirrors
  have hlog := written_idle network hasRuntime s
  refine ⟨fun before e after heq he hafter => ?_, fun hs => ⟨fun r moves hr hmoves => ?_, ?_⟩, ?_⟩
  · have hlast := hmirrors.last
    rw [hlog, heq, latest_last he hafter] at hlast
    exact hlast
  · -- the log only grows, so it was silent before
    have hkept : Mirrors r s := hmoves ▸ foldl_next_mirrors moves r
    have hgrown : s.log = r.log ++ written r s := log_append hkept.later
    exact (hr.silent fun e he => hs e (hgrown ▸ List.mem_append_left _ he)).1
  · exact (h.silent hs).2
  · exact hlog ▸ hmirrors.chained

/-- In a run the log mirrors the current pointer: between any two moves its last entry that names
the current connection is right. Everything that is done, in moves and in what listeners answer,
writes its entries before anybody hears of it: an automatic move of the pointer exactly two, one
that says from where to where it goes and right after it one that names the new connection. -/
theorem Reachable.log_mirrors (h : Reachable s) :
    s.Mirrored ∧ (∀ m, LoggedRun m.asks s (s.next m)) ∧ ∀ a c, LoggedRun c.asks a (act a c).1 :=
  ⟨h.mirrored, next_logged s, act_logged⟩

/-- A check finds an endpoint and makes it current. The listener answers by taking it away again,
and the same check goes back to it when it ranks all connections. -/
def interrupted : Manager :=
  [.call (.addUri "http://user:word@A" none),
    .call (.addListener "listener" [.disconnect] 1),
    .call (.spawn "check" (.checkConnections (some ["http://user:word@A"]) [])), .turn (.flight 0),
    .turn (.probe 0 0), .turn (.flight 0)].foldl next
      (idle ⟨[("http://user:word@A", ⟨[], some (.reply 0 (.ok ⟨true, .ofMillis 5⟩))⟩)]⟩ true)

theorem interrupted_mirrors :
    interrupted.log.map (·.event) =
        ["probe_start", "probe_end", "auto_switch", "connection_changed", "connection_changed",
          "auto_switch", "connection_changed"] ∧
      (interrupted.log.filter (·.names)).map (fun e => (e.field "uri").map Json.render) =
        [some "\"http://[REDACTED]@A\"", some "null", some "\"http://[REDACTED]@A\""] ∧
      interrupted.Mirrored ∧ (∀ m, LoggedRun m.asks interrupted (interrupted.next m)) ∧
      ∀ a c, LoggedRun c.asks a (act a c).1 :=
  ⟨by decide +kernel, by decide +kernel, Reachable.log_mirrors (.foldl _ (.new _ true []))⟩

end Manager

end RpcPool

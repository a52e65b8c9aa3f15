import RpcPool.Proofs.Callbacks
import RpcPool.Proofs.Check

/-!
# Undisturbed runs

A run is undisturbed while the user holds on to the manager, listeners only observe, and no probe
breaks. Every move keeps it so, unless it lays down something else: a listener that answers with
more than questions, or an endpoint whose probes break.

Results:
1. `Undisturbed.announce`, `Undisturbed.followed`: a round of notifications and an automatic move.
2. `Undisturbed.perform`, `Undisturbed.runTask`: a call, and a turn of any task.
3. `Undisturbed.next`, `Undisturbed.run`: a move, and a run.
4. `Undisturbed.idle`, `Undisturbed.ofConfig`: how runs begin.
-/

namespace RpcPool

/-- The probes of an operation under way. -/
def Work.probes : Work → List BatchProbe
  | .queued _ => []
  | .batch _ _ probes => probes

/-- A call that keeps a run undisturbed: new listeners only observe, new behaviours do not break,
and the user does not give up the manager. -/
def Call.Benign : Call → Prop
  | .addListener _ reaction _ => ∀ c ∈ reaction, c.observes = true
  | .script _ fallback queue => Route.Calm ⟨queue, fallback⟩
  | .drop => False
  | _ => True

def Move.Benign : Move → Prop
  | .call c => c.Benign
  | _ => True

theorem Network.Calm.setRoute {n : Network} {r : Route} (h : n.Calm) (hr : r.Calm) (uri : String) :
    (n.setRoute uri r).Calm := by
  intro e he
  rcases List.mem_cons.mp he with rfl | he
  · exact hr
  · exact h e (List.mem_filter.mp he).1

theorem Network.Calm.extend {n : Network} {fallback : Option Behaviour} {queue : List Behaviour}
    (h : n.Calm) (hr : Route.Calm ⟨queue, fallback⟩) (uri : String) :
    (n.extend uri fallback queue).Calm := by
  have hroute : Route.Calm ⟨(n.route uri).queue ++ queue, fallback⟩ := by
    refine ⟨fun hmem => ?_, hr.2⟩
    rcases List.mem_append.mp hmem with hmem | hmem
    · exact (h.route uri).1 hmem
    · exact hr.1 hmem
  exact h.setRoute hroute uri

theorem Call.observes_sparesListeners {c : Call} (h : c.observes = true) :
    c.sparesListeners = true := by
  cases c with
  | get uri label => rfl
  | has uri => rfl
  | _ => exact absurd h (by simp [Call.observes])

namespace Manager

open Relation

variable {s t : Manager}

/-- The user holds the manager, and all that listeners have left to answer are questions. -/
structure Attentive (s : Manager) : Prop where
  held : s.held = true
  questions : ∀ name, ∀ calls ∈ s.script name, ∀ c ∈ calls, c.observes = true

/-- Listeners only observe, and no probe breaks or has broken. -/
structure Undisturbed (s : Manager) : Prop extends Attentive s where
  calm : s.network.Calm
  unbroken : ∀ e ∈ s.flights, ∀ p ∈ e.2.work.probes, p.state ≠ .panicked

theorem Attentive.observing (h : s.Attentive) : s.Observing :=
  fun name _ _ hl calls hcalls => h.questions name calls (script_of_lookup hl ▸ hcalls)

theorem Attentive.sparing (h : s.Attentive) : s.Sparing :=
  fun name calls hcalls c hc => Call.observes_sparesListeners (h.questions name calls hcalls c hc)

theorem Attentive.same (h : s.Attentive) (held : t.held = s.held)
    (listeners : t.listeners = s.listeners) : t.Attentive where
  held := held.trans h.held
  questions name calls hcalls := h.questions name calls (script_congr listeners name ▸ hcalls)

theorem Steady.attentive (h : Steady s t) (hs : s.Attentive) : t.Attentive where
  held := h.held.trans hs.held
  questions name calls hcalls := hs.questions name calls ((h.scripts name).subset hcalls)

theorem Undisturbed.same (h : s.Undisturbed) (held : t.held = s.held)
    (listeners : t.listeners = s.listeners) (network : t.network = s.network)
    (flights : t.flights = s.flights) : t.Undisturbed where
  toAttentive := h.toAttentive.same held listeners
  calm := network ▸ h.calm
  unbroken e he := h.unbroken e (flights ▸ he)

/-- A manager that was just made is undisturbed, on a network on which no probe breaks. -/
theorem Undisturbed.idle {network : Network} (h : network.Calm) (hasRuntime : Bool) :
    (idle network hasRuntime).Undisturbed where
  held := rfl
  questions _ _ hcalls := absurd hcalls List.not_mem_nil
  calm := h
  unbroken _ he := absurd he List.not_mem_nil

/-! ## Notifications and automatic moves -/

theorem Undisturbed.announce (h : s.Undisturbed) (k : Option Connection) :
    (announceWith act s k).Undisturbed := by
  have hsteady := announceWith_steady act_steady h.sparing k
  obtain ⟨houtline, _⟩ := announceWith_observes h.observing k
  have hnetwork := congrArg network houtline
  have hflights := congrArg flights houtline
  exact {
    toAttentive := hsteady.attentive h.toAttentive
    calm := hnetwork ▸ h.calm
    unbroken e he := h.unbroken e (hflights ▸ he) }

theorem Undisturbed.followed (h : s.Undisturbed) (hst : FollowStretch s t) : t.Undisturbed := by
  induction hst with
  | refl => exact h
  | tail _ hmove ih =>
    obtain ⟨q, w, _, rfl⟩ := hmove
    refine Undisturbed.announce ?_ (some w.target)
    exact ih.same rfl rfl rfl rfl

theorem Undisturbed.publishStatus (h : s.Undisturbed) (probed : List (Connection × Bool)) :
    (s.publishStatus probed).Undisturbed := by
  unfold Manager.publishStatus
  split
  · exact h
  · split
    · rw [announce_eq]
      exact h.announce _
    · exact h

/-! ## Calls -/

theorem Undisturbed.startPolling {o : PollOptions} (h : s.Undisturbed)
    (ht : s.startPolling o = .ok t) : t.Undisturbed := by
  obtain ⟨poller, loops, timers, ready, nextId, started, _, rfl⟩ := startPolling_eq ht
  exact h.same rfl rfl rfl rfl

theorem Undisturbed.wake (h : s.Undisturbed) (task : Task) : (s.wake task).Undisturbed := by
  obtain ⟨ready, hwake⟩ := wake_eq s task
  rw [hwake]
  exact h.same rfl rfl rfl rfl

theorem Undisturbed.setFlight (h : s.Undisturbed) {id : FlightId} {f : Flight}
    (hf : ∀ p ∈ f.work.probes, p.state ≠ .panicked) : (s.setFlight id f).Undisturbed where
  toAttentive := h.toAttentive.same rfl rfl
  calm := h.calm
  unbroken e he := by
    rcases mem_upsert he with rfl | he
    · exact hf
    · exact h.unbroken e he

theorem Undisturbed.addListener (h : s.Undisturbed) {name : String} {reaction : List Call}
    {times : Nat} (hreaction : ∀ c ∈ reaction, c.observes = true) :
    (performWith act s (.addListener name reaction times)).1.Undisturbed := by
  refine ⟨⟨h.held, fun other calls hcalls => ?_⟩, h.calm, h.unbroken⟩
  rcases mem_script_addListener hcalls with hold | rfl
  · exact h.questions other calls hold
  · exact hreaction

theorem Undisturbed.arranges {c : Call} (h : s.Undisturbed) (hc : c.Benign)
    (harranges : Arranges c s t) (hlisteners : t.listeners = s.listeners) : t.Undisturbed where
  toAttentive := by
    refine h.toAttentive.same (harranges.held.resolve_right ?_) hlisteners
    rintro rfl
    exact hc
  calm := by
    rcases harranges.network with hsame | ⟨uri, fallback, queue, rfl, hscript⟩
    · exact hsame ▸ h.calm
    · exact hscript ▸ h.calm.extend hc uri
  unbroken e he := by
    rcases harranges.flights with hsame | ⟨_, op, hbegun⟩
    · exact h.unbroken e (hsame ▸ he)
    · rw [hbegun] at he
      rcases mem_upsert he with rfl | he
      · exact fun p hp => absurd hp List.not_mem_nil
      · exact h.unbroken e he

/-- A call keeps a run undisturbed, unless it lays down something else. -/
theorem Undisturbed.perform (h : s.Undisturbed) {c : Call} (hc : c.Benign) :
    (s.perform c).1.Undisturbed := by
  rw [perform_eq h.held, act_eq]
  cases performWith_outcome act s c with
  | unheard _ harranges _ hlisteners =>
    rcases hlisteners with hsame | ⟨name, reaction, times, rfl⟩
    · exact h.arranges hc harranges hsame
    · exact h.addListener hc
  | @moved u k _ hshift harranges _ ht =>
    rw [ht]
    exact (h.arranges hc harranges hshift.listeners).announce k

/-! ## Turns of tasks -/

theorem Undisturbed.launch (h : s.Undisturbed) (id : FlightId) (owner : Owner)
    (options : CheckOptions) (stage : Stage) (conns : List Connection) :
    (s.launch id owner options stage conns).Undisturbed := by
  obtain ⟨probes, started, ready, hlaunch, _, hqueued⟩ := launch_eq s id owner options stage conns
  have hset : (s.setFlight id ⟨owner, .batch options stage probes⟩).Undisturbed := by
    refine h.setFlight fun p hp => ?_
    rw [hqueued p hp]
    simp
  rw [hlaunch]
  exact hset.same rfl rfl rfl rfl

theorem Undisturbed.land (h : s.Undisturbed) (id : FlightId) (owner : Owner) (reply : Reply) :
    (s.land id owner reply).Undisturbed := by
  have hdone : ({ s with flights := without id s.flights } : Manager).Undisturbed :=
    ⟨h.toAttentive.same rfl rfl, h.calm, fun e he => h.unbroken e (mem_without he)⟩
  obtain ⟨answers, poller, loops, timers, ready, trace, hland⟩ := land_eq s id owner reply
  rw [hland]
  exact hdone.same rfl rfl rfl rfl

theorem Undisturbed.proceed (h : s.Undisturbed) (id : FlightId) (owner : Owner)
    (progress : Progress) : (s.proceed id owner progress).Undisturbed := by
  cases progress with
  | await options stage conns => exact h.launch id owner options stage conns
  | done reply => exact h.land id owner reply

theorem Undisturbed.runFlight (h : s.Undisturbed) (id : FlightId) :
    (s.runFlight id).Undisturbed := by
  have hturn := runFlight_turn s id
  generalize s.runFlight id = after at hturn ⊢
  cases hturn with
  | waits _ => exact h
  | @begins owner op _ => exact (h.followed (begin_followed s op)).proceed id owner _
  | @breaks owner _ _ _ _ _ _ _ => exact h.land id owner _
  | @goesOn owner options stage _ probed _ _ _ =>
    have hresume := (h.publishStatus probed).followed (resume_followed s options stage probed)
    exact hresume.proceed id owner _

theorem Undisturbed.setProbe (h : s.Undisturbed) (id : FlightId) (index : Nat) {state : ProbeState}
    (hstate : state ≠ .panicked) : (s.setProbe id index state).Undisturbed := by
  unfold Manager.setProbe
  split
  · next owner options stage probes hf =>
    refine h.setFlight fun p hp => ?_
    rcases mem_modify hp with hp | ⟨q, _, rfl⟩
    · exact h.unbroken _ (mem_of_lookup hf) p hp
    · exact hstate
  · exact h

theorem Undisturbed.endProbe (h : s.Undisturbed) (id : FlightId) (index : Nat) (c : Connection)
    (outcome : Probe.Outcome) : (s.endProbe id index c outcome).Undisturbed := by
  have hended : ({ s with pool := s.pool.observe c outcome }.record
      (.probeEnded c outcome)).Undisturbed := h.same rfl rfl rfl rfl
  exact (hended.setProbe id index (by simp)).wake _

theorem Undisturbed.probing (h : s.Undisturbed) (p : BatchProbe) : (s.probing p).Undisturbed where
  toAttentive := h.toAttentive.same rfl rfl
  calm := (h.calm.take p.connection.uri).2
  unbroken := h.unbroken

theorem Undisturbed.probeTurn {id : FlightId} {index : Nat} (h : s.Undisturbed)
    (hturn : ProbeTurn id index s t) : t.Undisturbed := by
  cases hturn with
  | nothing => exact h
  | @breaks p _ _ hpanic => exact absurd hpanic (h.calm.take p.connection.uri).1
  | @waits p outcome due _ _ =>
    have hwaiting : ProbeState.waiting outcome ≠ .panicked := by simp
    have hset := (h.probing p).setProbe id index hwaiting
    exact hset.same rfl rfl rfl rfl
  | answers outcome _ _ => exact (h.probing _).endProbe id index _ outcome
  | ends _ _ => exact h.endProbe id index _ _

theorem Undisturbed.runLoop (h : s.Undisturbed) (id : LoopId) : (s.runLoop id).Undisturbed := by
  have hturn := runLoop_turn s id
  generalize s.runLoop id = after at hturn ⊢
  cases hturn with
  | gone _ => exact h
  | quits _ _ => exact h.same rfl rfl rfl rfl
  | begins _ _ _ =>
    refine Undisturbed.runFlight (Undisturbed.setFlight ?_ fun p hp => ?_) s.nextId
    · exact h.same rfl rfl rfl rfl
    · exact absurd hp List.not_mem_nil
  | waits _ _ _ => exact h.same rfl rfl rfl rfl

theorem Undisturbed.runTask (h : s.Undisturbed) (task : Task) : (s.runTask task).Undisturbed := by
  have herased : ({ s with ready := s.ready.erase task } : Manager).Undisturbed :=
    h.same rfl rfl rfl rfl
  unfold Manager.runTask
  split
  · cases task with
    | probe id index => exact herased.probeTurn (runProbe_turn _ id index)
    | flight id => exact herased.runFlight id
    | loop id => exact herased.runLoop id
  · exact h

/-! ## Runs -/

theorem Undisturbed.start (h : s.Undisturbed) (op : Operation) : (s.start op).Undisturbed := by
  refine Undisturbed.runFlight (Undisturbed.setFlight ?_ fun p hp => ?_) s.nextId
  · exact h.same rfl rfl rfl rfl
  · exact absurd hp List.not_mem_nil

/-- A move keeps a run undisturbed, unless it lays down something else. -/
theorem Undisturbed.next (h : s.Undisturbed) {m : Move} (hm : m.Benign) :
    (s.next m).Undisturbed := by
  cases m with
  | call c => exact h.perform hm
  | await r =>
    dsimp only [Manager.next]
    rw [if_pos h.held]
    exact h.start _
  | turn task => exact h.runTask task
  | clock time =>
    obtain ⟨timers, ready, hclock⟩ := moveClock_eq s time
    dsimp only [Manager.next]
    rw [hclock]
    exact h.same rfl rfl rfl rfl
  | collect id => exact h.same rfl rfl rfl rfl
  | forget name => exact h.same rfl rfl rfl rfl
  | idle tasks => exact h.same rfl rfl rfl rfl

theorem Undisturbed.run (h : s.Undisturbed) {moves : List Move} (hmoves : ∀ m ∈ moves, m.Benign) :
    (moves.foldl Manager.next s).Undisturbed := by
  induction moves generalizing s with
  | nil => exact h
  | cons m rest ih =>
    exact ih (h.next (hmoves m List.mem_cons_self)) fun m hm =>
      hmoves m (List.mem_cons_of_mem _ hm)

theorem Undisturbed.registerAll (h : s.Undisturbed) {entries : List Config.Entry}
    (ht : s.registerAll entries = .ok t) : t.Undisturbed := by
  induction entries generalizing s with
  | nil =>
    cases ht
    exact h
  | cons e rest ih =>
    unfold Manager.registerAll at ht
    dsimp only at ht
    split at ht
    · exact absurd ht (by simp)
    · next r _ =>
      have hset : ((s.instantiate e.endpoint).1.setRegistry r).Undisturbed := h.same rfl rfl rfl rfl
      exact ih hset ht

/-- So is a manager that was made from a configuration. -/
theorem Undisturbed.ofConfig {config : Config} {network : Network} {hasRuntime : Bool}
    (h : network.Calm) (ht : ofConfig config network hasRuntime = .ok t) : t.Undisturbed := by
  unfold Manager.ofConfig at ht
  split at ht
  · exact absurd ht (by simp)
  · dsimp only at ht
    split at ht
    · exact absurd ht (by simp)
    · next registered hregistered =>
      have hidle : (Manager.idle network hasRuntime).Undisturbed := .idle h hasRuntime
      have hset (r : Registry) : ((Manager.idle network hasRuntime).setRegistry r).Undisturbed :=
        hidle.same rfl rfl rfl rfl
      have hentries : registered.Undisturbed := (hset _).registerAll hregistered
      split at ht
      · exact hentries.startPolling ht
      · cases ht
        exact hentries

end Manager

end RpcPool

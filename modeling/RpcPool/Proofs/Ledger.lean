import RpcPool.Proofs.Tending

/-!
# The ledger of a run

Which probes have started in a run, and which have ended. A probe goes by the number of its task, so
it stays the same probe when its connection is removed, replaced by another one with the same URI,
or probed by several operations at once.

Results:
1. `run_started`, `run_concluded`: the history tells of the probes in the ledger, and of no others.
2. `Ledger.next`, `ledger_run`: each probe starts once and ends at most once, with the outcome that
   was settled at its start, and none is lost: it has broken, has ended, or still has its task.
-/

namespace RpcPool

/-- A probe that has started, and what its endpoint does. -/
structure Attempt where
  /-- The number of its task. -/
  task : Nat
  connection : Connection
  timeoutMs : UInt32
  start : Nat
  behaviour : Behaviour

/-- What comes of it, unless it breaks. -/
def Attempt.outcome? (a : Attempt) : Option Probe.Outcome := a.behaviour.outcome? a.timeoutMs

/-- When it ends, if it does not break. -/
def Attempt.due (a : Attempt) : Nat := a.start + a.behaviour.duration a.timeoutMs

/-- A probe that has ended. -/
structure Ending where
  /-- The number of its task. -/
  task : Nat
  connection : Connection
  outcome : Probe.Outcome
  time : Nat

/-- What the ledger says of a probe that has started, in the state that it has come to. -/
def Attempt.Stands (a : Attempt) (ends : List Ending) : ProbeState → Prop
  | .queued => False
  | .waiting outcome => a.outcome? = some outcome
  | .ended _ => a.task ∈ ends.map (·.task)
  | .panicked => a.outcome? = none

/-- The connection of a probe that starts, and the timeout. -/
def Event.startedWith? : Event → Option (Connection × UInt32)
  | .probeStarted c timeoutMs => some (c, timeoutMs)
  | _ => none

/-- The connection of a probe that ends, and the outcome. -/
def Event.concluded? : Event → Option (Connection × Probe.Outcome)
  | .probeEnded c outcome => some (c, outcome)
  | _ => none

namespace Manager

open Relation

variable {s t a : Manager} {m : Move} {moves : List Move} {f : FlightId} {i : Nat}
  {p : BatchProbe} {state : ProbeState} {base : Nat}

/-! ## Entries -/

/-- The probe that takes its turn with a move. -/
def turning (s : Manager) : Move → Option BatchProbe
  | .turn (.probe f i) => if s.ready.contains (.probe f i) then s.probe? f i else none
  | _ => none

/-- The probes that start with a move. -/
def startsIn (s : Manager) (m : Move) : List Attempt :=
  match s.turning m with
  | none => []
  | some p => (since s (s.next m)).filterMap fun k =>
      k.event.startedWith?.map fun (c, timeoutMs) =>
        ⟨p.task, c, timeoutMs, k.time, (s.network.take c.uri).1⟩

/-- The probes that end with a move. -/
def endsIn (s : Manager) (m : Move) : List Ending :=
  match s.turning m with
  | none => []
  | some p => (since s (s.next m)).filterMap fun k =>
      k.event.concluded?.map fun (c, outcome) => ⟨p.task, c, outcome, k.time⟩

/-- The probes that start in a run, in order. -/
def attempts (s : Manager) : List Move → List Attempt
  | [] => []
  | m :: rest => s.startsIn m ++ (s.next m).attempts rest

/-- The probes that end in a run, in order. -/
def endings (s : Manager) : List Move → List Ending
  | [] => []
  | m :: rest => s.endsIn m ++ (s.next m).endings rest

theorem attempts_append (s : Manager) (moves more : List Move) :
    s.attempts (moves ++ more) = s.attempts moves ++ (moves.foldl next s).attempts more := by
  induction moves generalizing s with
  | nil => rfl
  | cons m rest ih =>
    show s.startsIn m ++ (s.next m).attempts (rest ++ more) = _
    rw [ih, ← List.append_assoc]
    rfl

theorem endings_append (s : Manager) (moves more : List Move) :
    s.endings (moves ++ more) = s.endings moves ++ (moves.foldl next s).endings more := by
  induction moves generalizing s with
  | nil => rfl
  | cons m rest ih =>
    show s.endsIn m ++ (s.next m).endings (rest ++ more) = _
    rw [ih, ← List.append_assoc]
    rfl

theorem attempts_concat (s : Manager) (moves : List Move) (m : Move) :
    s.attempts (moves ++ [m]) = s.attempts moves ++ (moves.foldl next s).startsIn m := by
  rw [attempts_append]
  exact congrArg _ (List.append_nil _)

theorem endings_concat (s : Manager) (moves : List Move) (m : Move) :
    s.endings (moves ++ [m]) = s.endings moves ++ (moves.foldl next s).endsIn m := by
  rw [endings_append]
  exact congrArg _ (List.append_nil _)

theorem startsIn_none (h : s.turning m = none) : s.startsIn m = [] := by
  unfold startsIn
  rw [h]

theorem endsIn_none (h : s.turning m = none) : s.endsIn m = [] := by
  unfold endsIn
  rw [h]

/-- The entry of a probe that starts now. -/
def attempt (s : Manager) (p : BatchProbe) : Attempt :=
  ⟨p.task, p.connection, p.timeoutMs, s.now, (s.network.take p.connection.uri).1⟩

/-- The entries that come from the turn of a probe, given the state that it comes to. -/
inductive Entries (s : Manager) (p : BatchProbe) : ProbeState → List Attempt → List Ending → Prop
  | breaks : p.state = .queued → (s.attempt p).outcome? = none →
      Entries s p .panicked [s.attempt p] []
  | waits {outcome : Probe.Outcome} : p.state = .queued →
      (s.attempt p).outcome? = some outcome → Entries s p (.waiting outcome) [s.attempt p] []
  | answers {outcome : Probe.Outcome} (changed : Bool) : p.state = .queued →
      (s.attempt p).outcome? = some outcome → (s.attempt p).due = s.now →
      Entries s p (.ended changed) [s.attempt p] [⟨p.task, p.connection, outcome, s.now⟩]
  | ends {outcome : Probe.Outcome} (changed : Bool) : p.state = .waiting outcome →
      Entries s p (.ended changed) [] [⟨p.task, p.connection, outcome, s.now⟩]

theorem since_two {k l : Moment} (h : t.trace = l :: k :: s.trace) : since s t = [k, l] := by
  have htrace : t.trace = [k, l].reverse ++ s.trace := h
  exact since_of_trace htrace

/-- A ready probe that is there takes its turn. -/
theorem turning_ready (hready : .probe f i ∈ s.ready) (hp : s.probe? f i = some p) :
    s.turning (.turn (.probe f i)) = some p :=
  (if_pos (List.contains_iff_mem.mpr hready)).trans hp

theorem next_entries (hready : .probe f i ∈ s.ready) (hp : s.probe? f i = some p)
    (hstep : ProbeStep f i p { s with ready := s.ready.erase (.probe f i) } state
      (s.next (.turn (.probe f i)))) :
    Entries s p state (s.startsIn (.turn (.probe f i))) (s.endsIn (.turn (.probe f i))) := by
  have hturning := turning_ready hready hp
  have hset (u : Manager) (state : ProbeState) : (u.setProbe f i state).trace = u.trace :=
    (setProbe_frame (K := fun _ => True) u f i state).trace
  have hwake (u : Manager) : (u.wake (.flight f)).trace = u.trace :=
    (wake_frame (K := fun _ => True) u _).trace
  unfold startsIn endsIn
  rw [hturning]
  generalize s.next (.turn (.probe f i)) = t at hstep
  cases hstep with
  | breaks hqueued hpanic =>
    rw [since_of_cons ((hwake _).trans (hset _ _))]
    exact .breaks hqueued (Behaviour.outcome?_eq_none.mpr hpanic)
  | waits hqueued houtcome =>
    rw [since_of_cons (hset _ _)]
    exact .waits hqueued houtcome
  | answers hqueued houtcome hduration =>
    rw [since_two (endProbe_trace _ f i p.connection _)]
    exact .answers _ hqueued houtcome (congrArg (s.now + ·) hduration)
  | @ends outcome hwaiting =>
    let erased : Manager := { s with ready := s.ready.erase (.probe f i) }
    have htrace : (erased.endProbe f i p.connection outcome).trace = _ :: s.trace :=
      endProbe_trace erased f i p.connection outcome
    rw [since_of_cons htrace]
    exact .ends _ hwaiting

/-! ## What the history tells -/

theorem proceed_probeless {P : SwitchReason → Prop} (s : Manager) (f : FlightId) (owner : Owner)
    (progress : Progress) : Probeless P s (s.proceed f owner progress) := by
  cases progress with
  | await options stage conns =>
    have hlaunch : Frame (fun _ => True) s (s.launch f owner options stage conns) :=
      launch_frame fun _ _ => Or.inr trivial
    exact hlaunch.probeless
  | done reply => exact land_probeless s f owner reply

theorem runFlight_probeless (s : Manager) (f : FlightId) :
    Probeless (fun _ => True) s (s.runFlight f) := by
  have hturn := runFlight_turn s f
  generalize s.runFlight f = after at hturn ⊢
  cases hturn with
  | waits _ => exact .refl s
  | @begins owner op _ =>
    exact (begin_followed s op).probeless.trans (proceed_probeless _ f owner _)
  | @breaks owner _ _ _ _ _ _ _ => exact land_probeless s f owner _
  | @goesOn owner options stage _ probed _ _ _ =>
    have hpublish := publishStatus_probeless (P := fun _ => True) trivial s probed
    have hresume := (resume_followed s options stage probed).probeless
    exact (hpublish.trans hresume).trans (proceed_probeless _ f owner _)

theorem runLoop_probeless (s : Manager) (id : LoopId) :
    Probeless (fun _ => True) s (s.runLoop id) := by
  have hturn := runLoop_turn s id
  generalize s.runLoop id = after at hturn ⊢
  cases hturn with
  | gone _ => exact .refl _
  | quits _ _ => exact .noted rfl trivial
  | @begins l _ _ _ =>
    have hticked : Probeless (fun _ => True) s (s.ticked id l) := .same rfl
    exact hticked.trans (runFlight_probeless _ _)
  | waits _ _ _ => exact .same rfl

/-- No probe starts or ends but in a turn of its own. -/
theorem next_probeless (h : s.turning m = none) : Probeless (fun _ => True) s (s.next m) := by
  cases m with
  | call c =>
    dsimp only [next]
    by_cases hheld : s.held = true
    · rw [perform_eq hheld]
      exact act_probeless trivial s c
    · unfold perform
      rw [if_neg hheld]
      exact .refl s
  | await r =>
    dsimp only [next]
    split
    · have hqueued : Probeless (fun _ => True) s
          ({ s with nextId := s.nextId + 1 }.setFlight s.nextId
            ⟨.caller, .queued (s.operation r)⟩) := .same rfl
      exact hqueued.trans (runFlight_probeless _ _)
    · exact .refl s
  | turn task =>
    by_cases hready : task ∈ s.ready
    · have herased : Probeless (fun _ => True) s { s with ready := s.ready.erase task } := .same rfl
      cases task with
      | probe f i =>
        have hnone : s.probe? f i = none :=
          (if_pos (List.contains_iff_mem.mpr hready)).symm.trans h
        rw [next_probe hready, runProbe_idle (s := { s with ready := s.ready.erase (.probe f i) })
          fun p hp => absurd (hnone.symm.trans hp) (by simp)]
        exact herased
      | flight f =>
        rw [next_flight hready]
        exact herased.trans (runFlight_probeless _ f)
      | loop id =>
        rw [next_runLoop hready]
        exact herased.trans (runLoop_probeless _ id)
    · rw [next_not_ready hready]
      exact .refl s
  | clock time => exact (moveClock_frame (K := fun _ => True) s time).probeless
  | collect id => exact .same rfl
  | forget name => exact .same rfl
  | idle tasks => exact .same rfl

theorem started_entries (s : Manager) (m : Move) :
    (since s (s.next m)).filterMap (·.event.startedWith?) =
      (s.startsIn m).map fun a => (a.connection, a.timeoutMs) := by
  cases hturning : s.turning m with
  | none =>
    rw [startsIn_none hturning]
    refine List.filterMap_eq_nil_iff.mpr fun k hk => ?_
    have hplain := (next_probeless hturning).events k hk
    cases hevent : k.event with
    | probeStarted c timeoutMs =>
      rw [hevent] at hplain
      exact hplain.elim
    | _ => rfl
  | some p =>
    unfold startsIn
    rw [hturning]
    simp only [List.map_filterMap, Option.map_map, Function.comp_def, Option.map_id']

theorem concluded_entries (s : Manager) (m : Move) :
    (since s (s.next m)).filterMap (·.event.concluded?) =
      (s.endsIn m).map fun e => (e.connection, e.outcome) := by
  cases hturning : s.turning m with
  | none =>
    rw [endsIn_none hturning]
    refine List.filterMap_eq_nil_iff.mpr fun k hk => ?_
    have hplain := (next_probeless hturning).events k hk
    cases hevent : k.event with
    | probeEnded c outcome =>
      rw [hevent] at hplain
      exact hplain.elim
    | _ => rfl
  | some p =>
    unfold endsIn
    rw [hturning]
    simp only [List.map_filterMap, Option.map_map, Function.comp_def, Option.map_id']

theorem next_later (s : Manager) (m : Move) : s.trace <:+ (s.next m).trace :=
  (next_flat s m).recalls.later

theorem run_later (s : Manager) (moves : List Move) : s.trace <:+ (moves.foldl next s).trace :=
  List.foldlRecOn (motive := fun t => s.trace <:+ t.trace) moves _ List.suffix_rfl
    fun t h m _ => h.trans (next_later t m)

/-- The probes that start in a run are the ones that its history tells of, in this order. -/
theorem run_started (s : Manager) (moves : List Move) :
    (since s (moves.foldl next s)).filterMap (·.event.startedWith?) =
      (s.attempts moves).map fun a => (a.connection, a.timeoutMs) := by
  induction moves generalizing s with
  | nil => exact congrArg _ (since_same rfl)
  | cons m rest ih =>
    rw [List.foldl_cons, since_append (next_later s m) (run_later _ rest), List.filterMap_append,
      started_entries, ih]
    exact List.map_append.symm

/-- The probes that end in a run are the ones that its history tells of, in this order. -/
theorem run_concluded (s : Manager) (moves : List Move) :
    (since s (moves.foldl next s)).filterMap (·.event.concluded?) =
      (s.endings moves).map fun e => (e.connection, e.outcome) := by
  induction moves generalizing s with
  | nil => exact congrArg _ (since_same rfl)
  | cons m rest ih =>
    rw [List.foldl_cons, since_append (next_later s m) (run_later _ rest), List.filterMap_append,
      concluded_entries, ih]
    exact List.map_append.symm

/-! ## What becomes of the probes under way -/

/-- Only probes that are over have gone, and only queued ones with new numbers have come. -/
structure Keeps (s t : Manager) : Prop where
  started : s.started ≤ t.started
  old : ∀ {f i p}, t.probe? f i = some p →
    s.probe? f i = some p ∨ p.state = .queued ∧ s.started < p.task
  unfinished : ∀ {f i p}, s.probe? f i = some p → p.state.isOver = false → t.probe? f i = some p

/-- One probe has come to another state. -/
structure Turned (f : FlightId) (i : Nat) (p : BatchProbe) (state : ProbeState) (s t : Manager) :
    Prop where
  started : t.started = s.started
  before : s.probe? f i = some p
  unfinished : p.state.isOver = false
  after : t.probe? f i = some { p with state := state }
  others : ∀ {g j}, ¬ (g = f ∧ j = i) → t.probe? g j = s.probe? g j

theorem Lasting.keeps (h : Lasting s t) (hs : s.Numbered) : Keeps s t where
  started := h.started
  old hp := Or.inl ((h.probe? hs _ _).symm.trans hp)
  unfinished hp _ := (h.probe? hs _ _).trans hp

/-- An operation goes on to wait for a batch. -/
theorem Lasting.launch_keeps
    (hlasting : Lasting { s with ready := s.ready.erase (.flight f) } a) (hs : s.Numbered)
    (hresting : s.Resting f) (owner : Owner) (options : CheckOptions) (stage : Stage)
    (conns : List Connection) : Keeps s (a.launch f owner options stage conns) := by
  obtain ⟨ready, hlaunch⟩ := launch_rest a f owner options stage conns
  have hcount : (a.launch f owner options stage conns).started = a.started + conns.length := by
    rw [hlaunch]
  refine ⟨?_, fun {g j q} hq => ?_, fun {g j q} hq hopen => ?_⟩
  · rw [hcount]
    exact Nat.le_trans hlasting.started (Nat.le_add_right _ _)
  · rcases launch_probe? hq with ⟨_, _, htask, hqueued⟩ | ⟨_, hold⟩
    · have hcounted : s.started ≤ a.started := hlasting.started
      exact Or.inr ⟨hqueued, by omega⟩
    · exact Or.inl ((hlasting.probe? hs g j).symm.trans hold)
  · -- the last batch of the operation was over
    have hg : g ≠ f := by
      rintro rfl
      rw [hresting j q hq] at hopen
      exact absurd hopen (by simp)
    exact (probe?_same (launch_lookup_ne hg) j).trans ((hlasting.probe? hs g j).trans hq)

/-- An operation ends. -/
theorem Lasting.land_keeps
    (hlasting : Lasting { s with ready := s.ready.erase (.flight f) } a) (hs : s.Numbered)
    (hresting : s.Resting f) (owner : Owner) (reply : Reply) :
    Keeps s (a.land f owner reply) := by
  have hland := land_lasting a f owner reply
  have hnumbered : ({ a with flights := without f a.flights } : Manager).Numbered := by
    intro g hg
    by_cases hgf : g = f
    · exact hgf ▸ lookup_without_self _ _
    · exact (lookup_without_ne _ hgf).trans (hlasting.numbered hs g hg)
  have hprobe (g : FlightId) (j : Nat) : (a.land f owner reply).probe? g j =
      ({ a with flights := without f a.flights } : Manager).probe? g j :=
    hland.probe? hnumbered g j
  have hother {g : FlightId} (hg : g ≠ f) (j : Nat) :
      (a.land f owner reply).probe? g j = s.probe? g j := by
    rw [hprobe, probe?_same (lookup_without_ne a.flights hg)]
    exact hlasting.probe? hs g j
  refine ⟨Nat.le_trans hlasting.started hland.started, fun {g j q} hq => ?_,
    fun {g j q} hq hopen => ?_⟩
  · have hg : g ≠ f := by
      rintro rfl
      rw [hprobe, probe?_none (lookup_without_self _ _)] at hq
      exact absurd hq (by simp)
    exact Or.inl ((hother hg j).symm.trans hq)
  · have hg : g ≠ f := by
      rintro rfl
      rw [hresting j q hq] at hopen
      exact absurd hopen (by simp)
    exact (hother hg j).trans hq

/-- A move with no turn of a probe touches no probe that is not over. -/
theorem next_keeps (h : s.Tended) (hturning : s.turning m = none) : Keeps s (s.next m) := by
  have hsame {t : Manager} (hstarted : t.started = s.started)
      (hprobe : ∀ f i, t.probe? f i = s.probe? f i) : Keeps s t :=
    ⟨Nat.le_of_eq hstarted.symm, fun hp => Or.inl ((hprobe _ _).symm.trans hp),
      fun hp _ => (hprobe _ _).trans hp⟩
  have hbefalls := next_befalls h.numbered m
  generalize s.next m = t at hbefalls ⊢
  cases hbefalls with
  | lasts hlasting => exact hlasting.keeps h.numbered
  | probes hready hp _ _ =>
    exact absurd (hturning.symm.trans (turning_ready hready hp)) (by simp)
  | strays _ => exact hsame rfl fun _ _ => rfl
  | waits _ => exact hsame rfl fun _ _ => rfl
  | opens hresting hlasting _ _ _ => exact hlasting.launch_keeps h.numbered hresting _ _ _ _
  | lands hresting hlasting _ => exact hlasting.land_keeps h.numbered hresting _ _
  | passes time =>
    obtain ⟨timers, ready, hclock⟩ := moveClock_eq s time
    rw [hclock]
    exact hsame rfl fun _ _ => rfl

/-- A probe that has a turn can take it. -/
theorem turning_step (h : s.Tended) (hturning : s.turning m = some p) :
    ∃ f i state, m = .turn (.probe f i) ∧ .probe f i ∈ s.ready ∧ s.probe? f i = some p ∧
      p.state.isOver = false ∧
      ProbeStep f i p { s with ready := s.ready.erase (.probe f i) } state (s.next m) := by
  cases m with
  | turn task =>
    cases task with
    | probe f i =>
      by_cases hready : .probe f i ∈ s.ready
      · have hp : s.probe? f i = some p :=
          (if_pos (List.contains_iff_mem.mpr hready)).symm.trans hturning
        have hopen : p.state.isOver = false := by
          refine Bool.eq_false_iff.mpr fun hover => ?_
          -- a probe that is over has no task
          have hnone : s.tokens f i = 0 := (h.tokens f i).trans
            (owed_over fun q hq => by cases hp.symm.trans hq; exact hover)
          exact List.count_eq_zero.mp (Nat.eq_zero_of_add_eq_zero_right hnone) hready
        obtain ⟨state, hstep⟩ := runProbe_step
          (s := { s with ready := s.ready.erase (.probe f i) }) hp hopen
        rw [← next_probe hready] at hstep
        exact ⟨f, i, state, rfl, hready, hp, hopen, hstep⟩
      · have hnone : s.turning (.turn (.probe f i)) = none :=
          if_neg fun h => hready (List.contains_iff_mem.mp h)
        exact absurd (hnone.symm.trans hturning) (by simp)
    | flight f => exact absurd hturning (by simp [turning])
    | loop id => exact absurd hturning (by simp [turning])
  | _ => exact absurd hturning (by simp [turning])

theorem ProbeStep.turned
    (hstep : ProbeStep f i p { s with ready := s.ready.erase (.probe f i) } state t)
    (hp : s.probe? f i = some p) (hopen : p.state.isOver = false) :
    Turned f i p state s t := by
  obtain ⟨owner, options, stage, probes, hflight, hi⟩ := probe?_some hp
  have hstepped := hstep.stepped hflight
  exact ⟨hstepped.started, hp, hopen, hstepped.probe?_self hi,
    fun hne => hstepped.probe?_ne hflight hne⟩

/-! ## The ledger -/

/-- The probes that started and ended since some state, by the end of which the tasks up to a number
had been started. Nothing is said of how those have begun. -/
structure Ledger (base : Nat) (starts : List Attempt) (ends : List Ending) (t : Manager) : Prop where
  startedOnce : (starts.map (·.task)).Nodup
  endedOnce : (ends.map (·.task)).Nodup
  starts_numbered : ∀ a ∈ starts, 0 < a.task ∧ a.task ≤ t.started
  ends_numbered : ∀ e ∈ ends, 0 < e.task ∧ e.task ≤ t.started
  matched : ∀ e ∈ ends, base < e.task → ∃ a ∈ starts, a.task = e.task ∧
    a.connection = e.connection ∧ a.outcome? = some e.outcome
  queued : ∀ {f i p}, t.probe? f i = some p → p.state = .queued → p.task ∉ starts.map (·.task)
  unfinished : ∀ {f i p}, t.probe? f i = some p → p.state.isOver = false →
    p.task ∉ ends.map (·.task)
  begun : ∀ {f i p}, t.probe? f i = some p → p.state ≠ .queued → base < p.task →
    ∃ a ∈ starts, a.task = p.task ∧ a.connection = p.connection ∧ a.timeoutMs = p.timeoutMs ∧
      a.Stands ends p.state
  unlost : ∀ a ∈ starts, a.outcome? = none ∨ a.task ∈ ends.map (·.task) ∨
    ∃ f i p outcome, t.probe? f i = some p ∧ p.task = a.task ∧ p.state = .waiting outcome

variable {starts : List Attempt} {ends : List Ending}

/-- Two entries with one number are the same. -/
theorem Ledger.attempt_unique (h : Ledger base starts ends t) {a b : Attempt} (ha : a ∈ starts)
    (hb : b ∈ starts) (htask : a.task = b.task) : a = b :=
  List.inj_on_of_nodup_map h.startedOnce ha hb htask

/-- A probe that has broken never ends. -/
theorem Ledger.broken_unended (h : Ledger base starts ends t) {a : Attempt} (ha : a ∈ starts)
    (hbase : base < a.task) (hbroken : a.outcome? = none) : a.task ∉ ends.map (·.task) := by
  intro hmem
  obtain ⟨e, he, htask⟩ := List.mem_map.mp hmem
  obtain ⟨b, hb, hsame, _, houtcome⟩ := h.matched e he (htask ▸ hbase)
  have hab : b = a := h.attempt_unique hb ha (hsame.trans htask)
  rw [hab, hbroken] at houtcome
  exact absurd houtcome (by simp)

theorem Ledger.keeps (h : Ledger base starts ends s) (hkeeps : Keeps s t) :
    Ledger base starts ends t where
  startedOnce := h.startedOnce
  endedOnce := h.endedOnce
  starts_numbered a ha :=
    ⟨(h.starts_numbered a ha).1, Nat.le_trans (h.starts_numbered a ha).2 hkeeps.started⟩
  ends_numbered e he :=
    ⟨(h.ends_numbered e he).1, Nat.le_trans (h.ends_numbered e he).2 hkeeps.started⟩
  matched := h.matched
  queued {f i p} hp hqueued := by
    rcases hkeeps.old hp with hold | ⟨_, hnew⟩
    · exact h.queued hold hqueued
    · rintro hmem
      obtain ⟨a, ha, htask⟩ := List.mem_map.mp hmem
      have hle := (h.starts_numbered a ha).2
      omega
  unfinished {f i p} hp hopen := by
    rcases hkeeps.old hp with hold | ⟨_, hnew⟩
    · exact h.unfinished hold hopen
    · rintro hmem
      obtain ⟨e, he, htask⟩ := List.mem_map.mp hmem
      have hle := (h.ends_numbered e he).2
      omega
  begun {f i p} hp hbegun hbase := by
    rcases hkeeps.old hp with hold | ⟨hqueued, _⟩
    · exact h.begun hold hbegun hbase
    · exact absurd hqueued hbegun
  unlost a ha := by
    rcases h.unlost a ha with hpanic | hended | ⟨f, i, p, outcome, hp, htask, hwaiting⟩
    · exact Or.inl hpanic
    · exact Or.inr (Or.inl hended)
    · exact Or.inr (Or.inr ⟨f, i, p, outcome, hkeeps.unfinished hp (by rw [hwaiting]; rfl), htask,
        hwaiting⟩)

/-! ## The turn of a probe in the ledger -/

section

variable {more : List Attempt} {done : List Ending} {outcome : Probe.Outcome}

theorem Entries.state_ne (h : Entries s p state more done) : state ≠ .queued := by
  cases h <;> simp

/-- A queued probe starts. -/
theorem Entries.start (h : Entries s p state more done) (hqueued : p.state = .queued) :
    more = [s.attempt p] ∧ ∀ ends, (s.attempt p).Stands (ends ++ done) state := by
  cases h with
  | breaks _ hpanic => exact ⟨rfl, fun _ => hpanic⟩
  | waits _ houtcome => exact ⟨rfl, fun _ => houtcome⟩
  | answers changed _ _ _ =>
    refine ⟨rfl, fun ends => ?_⟩
    show p.task ∈ (ends ++ _).map (·.task)
    simp
  | ends _ hwaiting => exact absurd (hqueued.symm.trans hwaiting) (by simp)

/-- A probe that has waited ends. -/
theorem Entries.finish (h : Entries s p state more done) (hwaiting : p.state = .waiting outcome) :
    more = [] ∧ (∃ changed, state = .ended changed) ∧
      done = [⟨p.task, p.connection, outcome, s.now⟩] := by
  cases h with
  | breaks hqueued _ => exact absurd (hqueued.symm.trans hwaiting) (by simp)
  | waits hqueued _ => exact absurd (hqueued.symm.trans hwaiting) (by simp)
  | answers _ hqueued _ _ => exact absurd (hqueued.symm.trans hwaiting) (by simp)
  | ends changed hstate =>
    cases hstate.symm.trans hwaiting
    exact ⟨rfl, ⟨changed, rfl⟩, rfl⟩

/-- At most one probe ends in a turn, the one whose turn it is. -/
theorem Entries.conclude (h : Entries s p state more done) : done = [] ∨
    ∃ changed outcome, state = .ended changed ∧
      done = [⟨p.task, p.connection, outcome, s.now⟩] ∧
      ((p.state = .queued ∧ (s.attempt p).outcome? = some outcome ∧ (s.attempt p).due = s.now) ∨
        p.state = .waiting outcome) := by
  cases h with
  | breaks _ _ => exact Or.inl rfl
  | waits _ _ => exact Or.inl rfl
  | answers changed hqueued houtcome hdue =>
    exact Or.inr ⟨changed, _, rfl, rfl, Or.inl ⟨hqueued, houtcome, hdue⟩⟩
  | ends changed hwaiting => exact Or.inr ⟨changed, _, rfl, rfl, Or.inr hwaiting⟩

/-- A probe that can take a turn is queued or has waited. -/
theorem Turned.open (h : Turned f i p state s t) :
    p.state = .queued ∨ ∃ outcome, p.state = .waiting outcome :=
  unfinished_cases h.unfinished

theorem mem_more (hentries : Entries s p state more done) (hturned : Turned f i p state s t)
    {a : Attempt} (ha : a ∈ more) : a = s.attempt p ∧ p.state = .queued := by
  rcases hturned.open with hqueued | ⟨outcome, hwaiting⟩
  · rw [(hentries.start hqueued).1] at ha
    exact ⟨List.mem_singleton.mp ha, hqueued⟩
  · rw [(hentries.finish hwaiting).1] at ha
    exact absurd ha List.not_mem_nil

theorem mem_done (hentries : Entries s p state more done) {e : Ending} (he : e ∈ done) :
    e.task = p.task := by
  rcases hentries.conclude with rfl | ⟨_, _, _, rfl, _⟩
  · exact absurd he List.not_mem_nil
  · exact List.mem_singleton.mp he ▸ rfl

/-- Another probe has another number, and is as it was. -/
theorem Turned.other (h : Turned f i p state s t) (hs : s.Tended) {g : FlightId} {j : Nat}
    {q : BatchProbe} (hq : t.probe? g j = some q) :
    q = { p with state := state } ∨ (s.probe? g j = some q ∧ q.task ≠ p.task) := by
  by_cases hne : g = f ∧ j = i
  · obtain ⟨rfl, rfl⟩ := hne
    exact Or.inl (Option.some.inj (h.after.symm.trans hq)).symm
  · have hq' : s.probe? g j = some q := (h.others hne).symm.trans hq
    exact Or.inr ⟨hq', fun htask => hne (hs.distinct hq' h.before htask)⟩

theorem Ledger.turned_started (h : Ledger base starts ends s) (hturned : Turned f i p state s t)
    (hentries : Entries s p state more done) : ((starts ++ more).map (·.task)).Nodup := by
  rcases hturned.open with hqueued | ⟨outcome, hwaiting⟩
  · rw [(hentries.start hqueued).1, List.map_append]
    refine List.nodup_append.mpr ⟨h.startedOnce, List.nodup_singleton _, ?_⟩
    rintro n hn _ hm rfl
    cases List.mem_singleton.mp hm
    exact h.queued hturned.before hqueued hn
  · rw [(hentries.finish hwaiting).1, List.append_nil]
    exact h.startedOnce

theorem Ledger.turned_ended (h : Ledger base starts ends s) (hturned : Turned f i p state s t)
    (hentries : Entries s p state more done) : ((ends ++ done).map (·.task)).Nodup := by
  rcases hentries.conclude with rfl | ⟨_, _, _, rfl, _⟩
  · rw [List.append_nil]
    exact h.endedOnce
  · rw [List.map_append]
    refine List.nodup_append.mpr ⟨h.endedOnce, List.nodup_singleton _, ?_⟩
    rintro n hn _ hm rfl
    cases List.mem_singleton.mp hm
    exact h.unfinished hturned.before hturned.unfinished hn

/-- A probe ends with the outcome that was settled when it started. -/
theorem Ledger.turned_matched (h : Ledger base starts ends s) (hturned : Turned f i p state s t)
    (hentries : Entries s p state more done) {e : Ending} (he : e ∈ ends ++ done)
    (hbase : base < e.task) : ∃ a ∈ starts ++ more, a.task = e.task ∧
      a.connection = e.connection ∧ a.outcome? = some e.outcome := by
  rcases List.mem_append.mp he with he | he
  · obtain ⟨a, ha, hmatched⟩ := h.matched e he hbase
    exact ⟨a, List.mem_append_left _ ha, hmatched⟩
  · rcases hentries.conclude with rfl | ⟨_, outcome, _, rfl, ⟨hqueued, houtcome, _⟩ | hwaiting⟩
    · exact absurd he List.not_mem_nil
    · cases List.mem_singleton.mp he
      rw [(hentries.start hqueued).1]
      exact ⟨s.attempt p, by simp, rfl, rfl, houtcome⟩
    · cases List.mem_singleton.mp he
      obtain ⟨a, ha, htask, hconnection, _, hstands⟩ :=
        h.begun hturned.before (by rw [hwaiting]; simp) hbase
      rw [hwaiting] at hstands
      exact ⟨a, List.mem_append_left _ ha, htask, hconnection, hstands⟩

theorem Attempt.Stands.mono {a : Attempt} (h : a.Stands ends state) :
    a.Stands (ends ++ done) state := by
  cases state with
  | ended changed =>
    show a.task ∈ (ends ++ done).map (·.task)
    rw [List.map_append]
    exact List.mem_append_left _ h
  | _ => exact h

/-- The ledger says of each probe how far it has come. -/
theorem Ledger.turned_begun (h : Ledger base starts ends s) (hs : s.Tended)
    (hturned : Turned f i p state s t) (hentries : Entries s p state more done)
    {g : FlightId} {j : Nat} {q : BatchProbe} (hq : t.probe? g j = some q)
    (hbegun : q.state ≠ .queued) (hbase : base < q.task) :
    ∃ a ∈ starts ++ more, a.task = q.task ∧ a.connection = q.connection ∧
      a.timeoutMs = q.timeoutMs ∧ a.Stands (ends ++ done) q.state := by
  rcases hturned.other hs hq with rfl | ⟨hq, _⟩
  · rcases hturned.open with hqueued | ⟨outcome, hwaiting⟩
    · obtain ⟨rfl, hstands⟩ := hentries.start hqueued
      exact ⟨s.attempt p, by simp, rfl, rfl, rfl, hstands ends⟩
    · obtain ⟨rfl, ⟨changed, rfl⟩, rfl⟩ := hentries.finish hwaiting
      obtain ⟨a, ha, htask, hconnection, htimeout, _⟩ :=
        h.begun hturned.before (by rw [hwaiting]; simp) hbase
      refine ⟨a, List.mem_append_left _ ha, htask, hconnection, htimeout, ?_⟩
      show a.task ∈ (ends ++ _).map (·.task)
      rw [htask]
      simp
  · obtain ⟨a, ha, htask, hconnection, htimeout, hstands⟩ := h.begun hq hbegun hbase
    exact ⟨a, List.mem_append_left _ ha, htask, hconnection, htimeout, Attempt.Stands.mono hstands⟩

/-- No probe that has started is lost. -/
theorem Ledger.turned_unlost (h : Ledger base starts ends s) (hturned : Turned f i p state s t)
    (hentries : Entries s p state more done) {a : Attempt} (ha : a ∈ starts ++ more) :
    a.outcome? = none ∨ a.task ∈ (ends ++ done).map (·.task) ∨
      ∃ f i p outcome, t.probe? f i = some p ∧ p.task = a.task ∧ p.state = .waiting outcome := by
  rcases List.mem_append.mp ha with ha | ha
  · rcases h.unlost a ha with hpanic | hended | ⟨g, j, q, outcome, hq, htask, hwaiting⟩
    · exact Or.inl hpanic
    · rw [List.map_append]
      exact Or.inr (Or.inl (List.mem_append_left _ hended))
    · by_cases hne : g = f ∧ j = i
      · obtain ⟨rfl, rfl⟩ := hne
        cases hq.symm.trans hturned.before
        obtain ⟨_, _, rfl⟩ := hentries.finish hwaiting
        rw [← htask]
        exact Or.inr (Or.inl (by simp))
      · exact Or.inr (Or.inr ⟨g, j, q, outcome, (hturned.others hne).trans hq, htask, hwaiting⟩)
  · obtain ⟨rfl, hqueued⟩ := mem_more hentries hturned ha
    have hstands := (hentries.start hqueued).2 ends
    cases hstate : state with
    | queued => exact absurd hstate hentries.state_ne
    | waiting outcome =>
      exact Or.inr (Or.inr ⟨f, i, _, outcome, hturned.after, rfl, hstate⟩)
    | ended changed =>
      rw [hstate] at hstands
      exact Or.inr (Or.inl hstands)
    | panicked =>
      rw [hstate] at hstands
      exact Or.inl hstands

/-- A probe that takes its turn gets the entries that it should. -/
theorem Ledger.turned (h : Ledger base starts ends s) (hs : s.Tended)
    (hturned : Turned f i p state s t) (hentries : Entries s p state more done) :
    Ledger base (starts ++ more) (ends ++ done) t where
  startedOnce := h.turned_started hturned hentries
  endedOnce := h.turned_ended hturned hentries
  starts_numbered a ha := by
    rw [hturned.started]
    rcases List.mem_append.mp ha with ha | ha
    · exact h.starts_numbered a ha
    · obtain ⟨rfl, _⟩ := mem_more hentries hturned ha
      exact hs.tasks hturned.before
  ends_numbered e he := by
    rw [hturned.started]
    rcases List.mem_append.mp he with he | he
    · exact h.ends_numbered e he
    · rw [mem_done hentries he]
      exact hs.tasks hturned.before
  matched _ he hbase := h.turned_matched hturned hentries he hbase
  queued {g j q} hq hqueued := by
    rcases hturned.other hs hq with rfl | ⟨hq, hne⟩
    · exact absurd hqueued hentries.state_ne
    · rw [List.map_append, List.mem_append, not_or]
      refine ⟨h.queued hq hqueued, fun hmem => ?_⟩
      obtain ⟨a, ha, htask⟩ := List.mem_map.mp hmem
      obtain ⟨rfl, _⟩ := mem_more hentries hturned ha
      exact hne htask.symm
  unfinished {g j q} hq hopen := by
    have hunended : p.task ∉ ends.map (·.task) := h.unfinished hturned.before hturned.unfinished
    rw [List.map_append, List.mem_append, not_or]
    rcases hturned.other hs hq with rfl | ⟨hq, hne⟩
    · refine ⟨hunended, ?_⟩
      rcases hentries.conclude with rfl | ⟨changed, _, rfl, _⟩
      · exact List.not_mem_nil
      · exact absurd hopen (by simp [ProbeState.isOver])
    · refine ⟨h.unfinished hq hopen, fun hmem => ?_⟩
      obtain ⟨e, he, htask⟩ := List.mem_map.mp hmem
      exact hne (htask.symm.trans (mem_done hentries he))
  begun hq hbegun hbase := h.turned_begun hs hturned hentries hq hbegun hbase
  unlost _ ha := h.turned_unlost hturned hentries ha

end

/-- The ledger is kept with every move. -/
theorem Ledger.next (h : Ledger base starts ends s) (hs : s.Tended) (m : Move) :
    Ledger base (starts ++ s.startsIn m) (ends ++ s.endsIn m) (s.next m) := by
  cases hturning : s.turning m with
  | none =>
    rw [startsIn_none hturning, endsIn_none hturning, List.append_nil, List.append_nil]
    exact h.keeps (next_keeps hs hturning)
  | some p =>
    obtain ⟨f, i, state, rfl, hready, hp, hopen, hstep⟩ := turning_step hs hturning
    exact h.turned hs (hstep.turned hp hopen) (next_entries hready hp hstep)

theorem Tended.run_moves (h : s.Tended) (moves : List Move) : (moves.foldl Manager.next s).Tended :=
  List.foldlRecOn (motive := Manager.Tended) moves _ h fun _ h m _ => h.next m

/-- Numbers are given out in order. -/
theorem Tended.grows (h : s.Tended) (m : Move) : s.started ≤ (s.next m).started := by
  cases hturning : s.turning m with
  | none => exact (next_keeps h hturning).started
  | some p =>
    obtain ⟨f, i, state, rfl, _, hp, hopen, hstep⟩ := turning_step h hturning
    exact Nat.le_of_eq (hstep.turned hp hopen).started.symm

theorem Tended.run_grows (h : s.Tended) (moves : List Move) :
    s.started ≤ (moves.foldl Manager.next s).started := by
  induction moves generalizing s with
  | nil => exact Nat.le_refl _
  | cons m rest ih => exact Nat.le_trans (h.grows m) (ih (h.next m))

/-- In a run, each probe starts once and ends at most once, with the outcome that was settled at its
start, and none is lost. -/
theorem ledger_run (h : s.Tended) (hbase : ∀ f i p, s.probe? f i = some p → p.task ≤ base)
    (moves : List Move) :
    Ledger base (s.attempts moves) (s.endings moves) (moves.foldl next s) := by
  induction moves using List.reverseRecOn with
  | nil =>
    refine ⟨.nil, .nil, ?_, ?_, ?_, ?_, ?_, ?_, ?_⟩
    · exact fun a ha => absurd ha List.not_mem_nil
    · exact fun e he => absurd he List.not_mem_nil
    · exact fun e he => absurd he List.not_mem_nil
    · exact fun _ _ => List.not_mem_nil
    · exact fun _ _ => List.not_mem_nil
    · exact fun hp _ hlt => absurd hlt (Nat.not_lt_of_le (hbase _ _ _ hp))
    · exact fun a ha => absurd ha List.not_mem_nil
  | append_singleton rest m ih =>
    rw [attempts_concat, endings_concat, List.foldl_append]
    exact ih.next (h.run_moves rest) m

end Manager

end RpcPool

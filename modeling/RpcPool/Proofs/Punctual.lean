import RpcPool.Proofs.Ledger

/-!
# Probes and the clock

The clock of a run is punctual if time passes only when every task waits for it, and no further than
to the next timer. The scheduler moves it in no other way. On a punctual clock every probe ends at
the very time that was settled when it started: when its endpoint answers, or at its timeout.

Results:
1. `Timed.next`, `timed_run`: on a punctual clock no probe ends early or late.
2. `step_punctual`: the scheduler keeps the clock punctual, whatever it is told to do.
-/

namespace RpcPool

namespace Manager

open Relation

variable {s t a : Manager} {m : Move} {moves : List Move} {f g : FlightId} {i j : Nat}
  {p : BatchProbe} {state : ProbeState} {base : Nat} {starts : List Attempt} {ends : List Ending}

/-! ## Punctual clocks -/

/-- Time passes only when all tasks wait for it, and no further than to the next timer. -/
def Punctual (s : Manager) : Move → Prop
  | .clock time => s.ready = [] ∧ ∀ e ∈ s.timers, time ≤ e.1
  | _ => True

/-- A run on a punctual clock. -/
def RunsPunctually (s : Manager) : List Move → Prop
  | [] => True
  | m :: rest => s.Punctual m ∧ (s.next m).RunsPunctually rest

instance decidablePunctual (s : Manager) : (m : Move) → Decidable (s.Punctual m)
  | .clock time => inferInstanceAs (Decidable (s.ready = [] ∧ ∀ e ∈ s.timers, time ≤ e.1))
  | .call _ | .await _ | .turn _ | .collect _ | .forget _ | .idle _ => .isTrue trivial

instance decidableRunsPunctually (s : Manager) :
    (moves : List Move) → Decidable (s.RunsPunctually moves)
  | [] => .isTrue trivial
  | m :: rest =>
    have := decidableRunsPunctually (s.next m) rest
    inferInstanceAs (Decidable (s.Punctual m ∧ (s.next m).RunsPunctually rest))

theorem runsPunctually_append (s : Manager) (moves more : List Move) :
    s.RunsPunctually (moves ++ more) ↔
      s.RunsPunctually moves ∧ (moves.foldl next s).RunsPunctually more := by
  induction moves generalizing s with
  | nil => exact ⟨fun h => ⟨trivial, h⟩, And.right⟩
  | cons m rest ih =>
    show s.Punctual m ∧ (s.next m).RunsPunctually (rest ++ more) ↔ _
    rw [ih]
    exact and_assoc.symm

/-- What a move with no turn of a probe does to time and to the tasks of probes, on a punctual
clock. -/
structure Paced (s t : Manager) : Prop where
  now : t.now = s.now ∨ s.ready = [] ∧ ∀ e ∈ s.timers, t.now ≤ e.1
  ready : ∀ {f i p}, s.probe? f i = some p → p.state.isOver = false → .probe f i ∈ t.ready →
    (.probe f i ∈ s.ready ∧ t.now = s.now) ∨ (t.now, .probe f i) ∈ s.timers
  timers : ∀ {due f i}, (due, .probe f i) ∈ t.timers → (due, .probe f i) ∈ s.timers

theorem Lasting.paced (h : Lasting s t) : Paced s t where
  now := Or.inl h.now
  ready _ _ hready := Or.inl ⟨h.probe_ready.mp hready, h.now⟩
  timers htimer := h.probe_timers.mp htimer

theorem Paced.lasting (h : Paced s t) (hlasting : Lasting t a) : Paced s a where
  now := hlasting.now.symm ▸ h.now
  ready hp hopen hready := hlasting.now.symm ▸ h.ready hp hopen (hlasting.probe_ready.mp hready)
  timers htimer := h.timers (hlasting.probe_timers.mp htimer)

/-- A task that is taken out of the queue for its turn was in it. -/
theorem Paced.erased {task : Task} (h : Paced { s with ready := s.ready.erase task } t)
    (hnow : t.now = s.now) : Paced s t where
  now := Or.inl hnow
  ready hp hopen hready := by
    rcases h.ready hp hopen hready with ⟨hold, _⟩ | htimer
    · exact Or.inl ⟨List.mem_of_mem_erase hold, hnow⟩
    · exact Or.inr htimer
  timers := h.timers

theorem mem_foldl_wake_or {tasks : List Task} {x : Task} (h : x ∈ (tasks.foldl wake s).ready) :
    x ∈ s.ready ∨ x ∈ tasks := by
  induction tasks generalizing s with
  | nil => exact Or.inl h
  | cons y rest ih =>
    rcases ih (s := s.wake y) h with hready | hrest
    · unfold wake at hready
      split at hready
      · exact Or.inl hready
      · rcases List.mem_append.mp hready with hold | hnew
        · exact Or.inl hold
        · exact Or.inr (List.mem_cons.mpr (Or.inl (List.mem_singleton.mp hnew)))
    · exact Or.inr (List.mem_cons_of_mem _ hrest)

/-- An operation goes on to wait for a batch. -/
theorem Lasting.launch_paced
    (hlasting : Lasting { s with ready := s.ready.erase (.flight f) } a) (hresting : s.Resting f)
    (owner : Owner) (options : CheckOptions) (stage : Stage) (conns : List Connection) :
    Paced s (a.launch f owner options stage conns) := by
  have hpaced := hlasting.paced
  have hready {x : Task} (hx : x ∈ (a.launch f owner options stage conns).ready) :
      x ∈ a.ready ∨ x ∈ (List.range conns.length).map (Task.probe f) := by
    let set : Manager := { a with started := a.started + conns.length }.setFlight f
      ⟨owner, .batch options stage (a.opened options conns)⟩
    rw [launch_opened] at hx
    exact mem_foldl_wake_or (s := set) hx
  obtain ⟨ready, hlaunch⟩ := launch_rest a f owner options stage conns
  have htimers : (a.launch f owner options stage conns).timers = a.timers := by
    rw [hlaunch]
    rfl
  have hnow : (a.launch f owner options stage conns).now = s.now := by
    rw [hlaunch]
    exact hlasting.now
  refine ⟨Or.inl hnow, fun {g j q} hq hopen hx => ?_, fun htimer => ?_⟩
  · rcases hready hx with hold | hnew
    · rcases hpaced.ready hq hopen hold with ⟨hold, _⟩ | htimer
      · exact Or.inl ⟨List.mem_of_mem_erase hold, hnow⟩
      · exact Or.inr (hnow ▸ hlasting.now ▸ htimer)
    · -- the last batch of the operation was over
      obtain ⟨k, _, heq⟩ := List.mem_map.mp hnew
      cases heq
      rw [hresting j q hq] at hopen
      exact absurd hopen (by simp)
  · rw [htimers] at htimer
    exact hpaced.timers htimer

/-- On a punctual clock, the tasks that become ready when time passes had timers for that time. -/
theorem moveClock_paced {time : Nat} (hidle : s.ready = []) (hnext : ∀ e ∈ s.timers, time ≤ e.1) :
    Paced s (s.moveClock time) := by
  have hready {x : Task} (hx : x ∈ (s.moveClock time).ready) : (time, x) ∈ s.timers := by
    rw [moveClock_foldl] at hx
    rcases mem_foldl_wake_or hx with hold | hnew
    · have hold : x ∈ s.ready := hold
      rw [hidle] at hold
      exact absurd hold List.not_mem_nil
    · obtain ⟨e, he, rfl⟩ := List.mem_map.mp hnew
      obtain ⟨htimer, hle⟩ := List.mem_filter.mp he
      have htime : e.1 = time := Nat.le_antisymm (by simpa using hle) (hnext e htimer)
      exact htime ▸ htimer
  obtain ⟨ready, hwake⟩ := foldl_wake_eq ((s.timers.filter fun e => e.1 ≤ time).map (·.2))
    { s with now := time, timers := s.timers.filter fun e => !(e.1 ≤ time) }
  rw [← moveClock_foldl] at hwake
  rw [hwake] at hready ⊢
  exact ⟨Or.inr ⟨hidle, hnext⟩, fun _ _ hx => Or.inr (hready hx),
    fun htimer => (List.mem_filter.mp htimer).1⟩

theorem next_paced (h : s.Tended) (hturning : s.turning m = none) (hpunctual : s.Punctual m) :
    Paced s (s.next m) := by
  have herased (task : Task) : Paced s { s with ready := s.ready.erase task } :=
    ⟨Or.inl rfl, fun _ _ hready => Or.inl ⟨List.mem_of_mem_erase hready, rfl⟩, fun h => h⟩
  have hbefalls := next_befalls h.numbered m
  generalize s.next m = t at hbefalls ⊢
  cases hbefalls with
  | lasts hlasting => exact hlasting.paced
  | probes hready hp _ _ =>
    exact absurd (hturning.symm.trans (turning_ready hready hp)) (by simp)
  | strays _ => exact herased _
  | waits _ => exact herased _
  | opens hresting hlasting _ _ _ => exact hlasting.launch_paced hresting _ _ _ _
  | @lands _ f a owner reply _ hlasting _ =>
    have hland := land_lasting a f owner reply
    have hgone : Paced { s with ready := s.ready.erase (.flight f) }
        { a with flights := without f a.flights } := { hlasting.paced with }
    exact (hgone.lasting hland).erased (hland.now.trans hlasting.now)
  | passes time => exact moveClock_paced hpunctual.1 hpunctual.2

/-- What the turn of a probe does to time and to the tasks of probes. -/
structure TurnPaced (f : FlightId) (i : Nat) (p : BatchProbe) (state : ProbeState)
    (s t : Manager) : Prop where
  now : t.now = s.now
  ready : ∀ {g j}, .probe g j ∈ t.ready → .probe g j ∈ s.ready ∧ ¬ (g = f ∧ j = i)
  timers : ∀ {due g j}, (due, .probe g j) ∈ t.timers →
    ((due, .probe g j) ∈ s.timers ∧ ¬ (g = f ∧ j = i)) ∨
      (g = f ∧ j = i ∧ p.state = .queued ∧ due = (s.attempt p).due)

theorem ProbeStep.paced (h : s.Tended) (hready : .probe f i ∈ s.ready)
    (hp : s.probe? f i = some p) (hopen : p.state.isOver = false)
    (hstep : ProbeStep f i p { s with ready := s.ready.erase (.probe f i) } state t) :
    TurnPaced f i p state s t := by
  obtain ⟨owner, options, stage, probes, hflight, hi⟩ := probe?_some hp
  have hstepped := hstep.stepped hflight
  -- the one task of the probe is the one that is run
  have hone : s.tokens f i = 1 := (h.tokens f i).trans (owed_open hp hopen)
  have hcount : 0 < s.ready.count (.probe f i) := List.count_pos_iff.mpr hready
  have hgone : .probe f i ∉ s.ready.erase (.probe f i) := by
    unfold tokens at hone
    rw [← List.count_eq_zero, List.count_erase_self]
    omega
  have htimer : ∀ due, (due, .probe f i) ∉ s.timers := by
    intro due hmem
    have hpos : 0 < s.timers.countP (·.2 == .probe f i) :=
      List.countP_pos_iff.mpr ⟨(due, .probe f i), hmem, by simp⟩
    unfold tokens at hone
    omega
  refine ⟨hstepped.now, fun {g j} hx => ?_, fun {due g j} hx => ?_⟩
  · have herased : .probe g j ∈ s.ready.erase (.probe f i) := by
      rw [hstepped.ready] at hx
      split at hx
      · unfold wake at hx
        split at hx
        · exact hx
        · exact (List.mem_append.mp hx).resolve_right (by simp)
      · exact hx
    refine ⟨List.mem_of_mem_erase herased, ?_⟩
    rintro ⟨rfl, rfl⟩
    exact hgone herased
  · rw [hstepped.timers] at hx
    rcases List.mem_append.mp hx with hold | hnew
    · refine Or.inl ⟨hold, ?_⟩
      rintro ⟨rfl, rfl⟩
      exact htimer due hold
    · refine Or.inr ?_
      cases hstep with
      | waits hqueued _ =>
        cases List.mem_singleton.mp hnew
        exact ⟨rfl, rfl, hqueued, rfl⟩
      | breaks _ _ => exact absurd hnew (by simp [ProbeState.isOver])
      | answers _ _ _ => exact absurd hnew (by simp [ProbeState.isOver])
      | ends _ => exact absurd hnew (by simp [ProbeState.isOver])

/-! ## Probes end in time -/

/-- On a punctual clock, the task of a probe that waits is due when the probe is, and all that have
ended have done so when they were due. -/
structure Timed (base : Nat) (starts : List Attempt) (ends : List Ending) (t : Manager) : Prop where
  ahead : ∀ {due f i}, (due, .probe f i) ∈ t.timers → t.now ≤ due
  waiting : ∀ {f i p outcome}, t.probe? f i = some p → base < p.task →
    p.state = .waiting outcome → ∃ a ∈ starts, a.task = p.task ∧
      (∀ due, (due, .probe f i) ∈ t.timers → due = a.due) ∧ (.probe f i ∈ t.ready → t.now = a.due)
  ended : ∀ e ∈ ends, base < e.task → ∃ a ∈ starts, a.task = e.task ∧ e.time = a.due

theorem Timed.paced (h : Timed base starts ends s) (hkeeps : Keeps s t) (hpaced : Paced s t) :
    Timed base starts ends t where
  ahead {due f i} htimer := by
    have hbefore := hpaced.timers htimer
    rcases hpaced.now with hnow | ⟨_, hnext⟩
    · rw [hnow]
      exact h.ahead hbefore
    · exact hnext _ hbefore
  waiting {f i p outcome} hp hbase hwaiting := by
    rcases hkeeps.old hp with hold | ⟨hqueued, _⟩
    · obtain ⟨a, ha, htask, htimer, hready⟩ := h.waiting hold hbase hwaiting
      refine ⟨a, ha, htask, fun due hmem => htimer due (hpaced.timers hmem), fun hmem => ?_⟩
      rcases hpaced.ready hold (by rw [hwaiting]; rfl) hmem with ⟨hbefore, hnow⟩ | hbefore
      · exact hnow.trans (hready hbefore)
      · exact htimer _ hbefore
    · exact absurd (hqueued.symm.trans hwaiting) (by simp)
  ended := h.ended

variable {more : List Attempt} {done : List Ending}

/-- A probe that takes its turn ends at its time, or settles it. -/
theorem Timed.turned (h : Timed base starts ends s) (hready : .probe f i ∈ s.ready)
    (hturned : Turned f i p state s t)
    (hentries : Entries s p state more done) (hpaced : TurnPaced f i p state s t) :
    Timed base (starts ++ more) (ends ++ done) t where
  ahead {due g j} htimer := by
    rw [hpaced.now]
    rcases hpaced.timers htimer with ⟨hbefore, _⟩ | ⟨_, _, _, rfl⟩
    · exact h.ahead hbefore
    · exact Nat.le_add_right _ _
  waiting {g j q outcome} hq hbase hwaiting := by
    by_cases hne : g = f ∧ j = i
    · obtain ⟨rfl, rfl⟩ := hne
      cases hturned.after.symm.trans hq
      rcases hturned.open with hqueued | ⟨outcome, hbefore⟩
      · obtain ⟨rfl, _⟩ := hentries.start hqueued
        refine ⟨s.attempt p, by simp, rfl, fun due hmem => ?_, fun hmem => ?_⟩
        · rcases hpaced.timers hmem with ⟨_, hnot⟩ | ⟨_, _, _, hdue⟩
          · exact absurd ⟨rfl, rfl⟩ hnot
          · exact hdue
        · exact absurd ⟨rfl, rfl⟩ (hpaced.ready hmem).2
      · obtain ⟨_, ⟨changed, rfl⟩, _⟩ := hentries.finish hbefore
        exact absurd hwaiting (by simp)
    · obtain ⟨a, ha, htask, htimer, hrun⟩ :=
        h.waiting ((hturned.others hne).symm.trans hq) hbase hwaiting
      refine ⟨a, List.mem_append_left _ ha, htask, fun due hmem => ?_, fun hmem => ?_⟩
      · rcases hpaced.timers hmem with ⟨hbefore, _⟩ | ⟨hg, hj, _⟩
        · exact htimer due hbefore
        · exact absurd ⟨hg, hj⟩ hne
      · exact hpaced.now.trans (hrun (hpaced.ready hmem).1)
  ended e he hbase := by
    rcases List.mem_append.mp he with he | he
    · obtain ⟨a, ha, htimed⟩ := h.ended e he hbase
      exact ⟨a, List.mem_append_left _ ha, htimed⟩
    · rcases hentries.conclude with rfl | ⟨_, outcome, _, rfl, ⟨hqueued, _, hdue⟩ | hwaiting⟩
      · exact absurd he List.not_mem_nil
      · cases List.mem_singleton.mp he
        obtain ⟨rfl, _⟩ := hentries.start hqueued
        exact ⟨s.attempt p, by simp, rfl, hdue.symm⟩
      · cases List.mem_singleton.mp he
        obtain ⟨a, ha, htask, _, hrun⟩ := h.waiting hturned.before hbase hwaiting
        exact ⟨a, List.mem_append_left _ ha, htask, hrun hready⟩

/-- No probe ends early or late with a move. -/
theorem Timed.next (h : Timed base starts ends s) (hs : s.Tended) (hpunctual : s.Punctual m) :
    Timed base (starts ++ s.startsIn m) (ends ++ s.endsIn m) (s.next m) := by
  cases hturning : s.turning m with
  | none =>
    rw [startsIn_none hturning, endsIn_none hturning, List.append_nil, List.append_nil]
    exact h.paced (next_keeps hs hturning) (next_paced hs hturning hpunctual)
  | some p =>
    obtain ⟨f, i, state, rfl, hready, hp, hopen, hstep⟩ := turning_step hs hturning
    exact h.turned hready (hstep.turned hp hopen) (next_entries hready hp hstep)
      (hstep.paced hs hready hp hopen)

/-- On a punctual clock no probe ends early or late. -/
theorem timed_run (h : s.Tended) (hbase : ∀ f i p, s.probe? f i = some p → p.task ≤ base)
    (hahead : ∀ due f i, (due, .probe f i) ∈ s.timers → s.now ≤ due) {moves : List Move}
    (hpunctual : s.RunsPunctually moves) :
    Timed base (s.attempts moves) (s.endings moves) (moves.foldl next s) := by
  induction moves using List.reverseRecOn with
  | nil =>
    refine ⟨fun {due f i} htimer => hahead due f i htimer, fun {f i p _} hp hlt _ => ?_, ?_⟩
    · exact absurd hlt (Nat.not_lt_of_le (hbase f i p hp))
    · exact fun e he => absurd he List.not_mem_nil
  | append_singleton rest m ih =>
    obtain ⟨hrest, hm, _⟩ := (runsPunctually_append s rest [m]).mp hpunctual
    rw [attempts_concat, endings_concat, List.foldl_append]
    exact (ih hrest).next (h.run_moves rest) hm

/-! ## The scheduler -/

/-- A punctual run leads from one state to another. -/
def Punctually (s t : Manager) : Prop :=
  ∃ moves : List Move, s.RunsPunctually moves ∧ moves.foldl next s = t

theorem Punctually.refl (s : Manager) : Punctually s s := ⟨[], trivial, rfl⟩

theorem Punctually.trans {u : Manager} (h : Punctually s t) (h' : Punctually t u) :
    Punctually s u := by
  obtain ⟨moves, hmoves, rfl⟩ := h
  obtain ⟨more, hmore, rfl⟩ := h'
  exact ⟨moves ++ more, (runsPunctually_append s moves more).mpr ⟨hmoves, hmore⟩,
    List.foldl_append⟩

theorem Punctually.move (h : s.Punctual m) : Punctually s (s.next m) := ⟨[m], ⟨h, trivial⟩, rfl⟩

theorem nextTask?_none (h : s.nextTask? = none) : s.ready = [] :=
  List.head?_eq_none_iff.mp (Option.or_eq_none_iff.mp h).2

/-- The clock goes to the next timer, or not as far. -/
theorem punctual_clock {due time : Nat} (hidle : s.nextTask? = none)
    (hnext : s.nextTimer? = some due) (hle : time ≤ due) : s.Punctual (.clock time) := by
  refine ⟨nextTask?_none hidle, fun e he => Nat.le_trans hle ?_⟩
  exact (List.min?_eq_some_iff.mp hnext).2 e.1 (List.mem_map_of_mem he)

theorem settle_punctual (fuel : Nat) (s : Manager) : Punctually s (settle fuel s) := by
  induction fuel generalizing s with
  | zero => exact .refl s
  | succ fuel ih =>
    unfold settle
    split
    · exact .refl s
    · next task _ => exact (Punctually.move (m := .turn task) trivial).trans (ih _)

theorem runUntil_punctual (fuel : Nat) (s : Manager) (time : Nat) :
    Punctually s (runUntil fuel s time) := by
  induction fuel generalizing s with
  | zero => exact .refl s
  | succ fuel ih =>
    unfold runUntil
    split
    · next task _ => exact (Punctually.move (m := .turn task) trivial).trans (ih _)
    · next hidle hnone =>
      refine .move (m := .clock time) ⟨nextTask?_none hidle, fun e he => ?_⟩
      rw [List.map_eq_nil_iff.mp (List.min?_eq_none_iff.mp hnone)] at he
      exact absurd he List.not_mem_nil
    · next due hidle hnext =>
      split
      · exact (Punctually.move (punctual_clock hidle hnext (Nat.le_refl due))).trans (ih _)
      · next hlate =>
        exact .move (punctual_clock hidle hnext (Nat.le_of_lt (Nat.lt_of_not_le hlate)))

theorem runToAnswer_punctual (fuel : Nat) (s : Manager) (f : FlightId) :
    Punctually s (runToAnswer fuel s f) := by
  induction fuel generalizing s with
  | zero => exact .refl s
  | succ fuel ih =>
    unfold runToAnswer
    split
    · exact .refl s
    · split
      · next task _ => exact (Punctually.move (m := .turn task) trivial).trans (ih _)
      · next due hidle hnext =>
        exact (Punctually.move (punctual_clock hidle hnext (Nat.le_refl due))).trans (ih _)
      · exact .refl s

theorem giveWay_punctual (s : Manager) : Punctually s s.giveWay :=
  ((Punctually.move (m := .idle 1) trivial).trans (settle_punctual stepLimit _)).trans
    (.move (m := .idle (yields - 1)) trivial)

/-- Every step of a scenario is a run on a punctual clock. -/
theorem step_punctual (s : Manager) (st : Step) : Punctually s (s.step st).1 := by
  refine Punctually.trans ?_ (giveWay_punctual _)
  have hcollect (t : Manager) (f : FlightId) : Punctually t (t.takeAnswer f).1 :=
    .move (m := .collect f) trivial
  cases st with
  | call c => exact .move (m := .call c) trivial
  | await r =>
    have hbegin : Punctually s (s.next (.await r)) := .move trivial
    dsimp only [Manager.next, reply] at hbegin ⊢
    split
    · next held =>
      rw [if_pos held] at hbegin
      exact (hbegin.trans (runToAnswer_punctual stepLimit _ _)).trans (hcollect _ _)
    · exact .refl s
  | advance ms => exact runUntil_punctual stepLimit s (s.now + ms)
  | join name =>
    dsimp only [reply]
    split
    · exact .refl s
    · next id _ =>
      have hforget : Punctually s (s.next (.forget name)) := .move trivial
      exact (hforget.trans (runToAnswer_punctual stepLimit _ _)).trans (hcollect _ _)

end Manager

end RpcPool

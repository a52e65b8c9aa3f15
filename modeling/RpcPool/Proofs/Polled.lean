import RpcPool.Proofs.Orders
import RpcPool.Proofs.Solo
import RpcPool.Proofs.Stops

/-!
# Polling

Calls and listeners may start and stop polling, reset the manager and give it up, in any order and
while iterations are under way. Calls are made on the scheduler, or from outside of it, where no
loop can be started. Whatever the order, one loop at most was not told to stop, and the last order
decides.

Results:
1. `occur_conduct`, `Orderly.occur`: what holds of loops in a run holds when calls come from outside
   too.
2. `occur_obeys`, `run_polling`: over a run, the manager polls if the last order was to poll.
3. `polls_as_ordered`: what becomes of the loops of a manager, in every state of every run.
-/

namespace RpcPool

/-- A call that starts a poll loop. -/
def Call.starts : Call → Bool
  | .startPolling .. => true
  | .startConfigured _ => true
  | _ => false

/-- What can happen in a run: a move, or a call that the user makes from outside of the scheduler.
-/
inductive Occurrence
  | within (m : Move)
  | outside (c : Call)

namespace Manager

open Relation

variable {s t : Manager} {f : FlightId} {id : LoopId} {l : PollLoop} {o : Occurrence} {c : Call}

/-- Carries out a call where there is no scheduler to run tasks on. -/
def performOutside (s : Manager) (c : Call) : Manager × Reply :=
  let (t, reply) := { s with hasRuntime := false }.perform c
  ({ t with hasRuntime := s.hasRuntime }, reply)

/-- The manager after an occurrence. -/
def occur (s : Manager) : Occurrence → Manager
  | .within m => s.next m
  | .outside c => (s.performOutside c).1

/-- What the user orders with an occurrence. There is nobody to order once the user is gone. -/
def ownOrder (s : Manager) : Occurrence → List Bool
  | .within (.call c) => if s.held then (c.order? (s.perform c).2).toList else []
  | .within _ => []
  | .outside c => if s.held then (c.order? (s.performOutside c).2).toList else []

/-- What is ordered with an occurrence, by listeners and by the user. A call of the user returns
after the calls of the listeners that it has notified. -/
def ordered (s : Manager) (o : Occurrence) : List Bool :=
  orders (since s (s.occur o)) ++ s.ownOrder o

/-- What is ordered in a run. -/
def orderedIn (s : Manager) : List Occurrence → List Bool
  | [] => []
  | o :: rest => s.ordered o ++ (s.occur o).orderedIn rest

/-! ## Calls from outside -/

/-- Whether there is a scheduler where a call is made has nothing to do with loops. -/
theorem hasRuntime_beside (s : Manager) (b : Bool) : Beside s { s with hasRuntime := b } :=
  ⟨rfl, rfl, rfl, rfl, fun _ => rfl, fun _ => rfl, .same rfl⟩

theorem performOutside_deeds (s : Manager) (c : Call) : Deeds s (s.performOutside c).1 := by
  let away : Manager := { s with hasRuntime := false }
  have hcall : Deeds away (away.perform c).1 := (perform_chores away c).deeds
  exact (hasRuntime_beside s false).deeds.trans
    (hcall.trans (hasRuntime_beside (away.perform c).1 s.hasRuntime).deeds)

/-- The calls that start a loop differ in where they have its options from. -/
theorem performWith_starts (inner : Performer) (hc : c.starts = true) (s : Manager) :
    ∃ options, performWith inner s c = match s.startPolling options with
      | .error e => (s, .refused e)
      | .ok t => (t, .done) := by
  cases c with
  | startPolling options excluded => exact ⟨_, rfl⟩
  | startConfigured polling => exact ⟨_, rfl⟩
  | _ => exact absurd hc (by simp [Call.starts])

/-- A loop cannot be started from outside, and the attempt leaves everything as it is. -/
theorem performOutside_refused (hheld : s.held = true) (hc : c.starts = true) :
    s.performOutside c = (s, .refused .noRuntime) := by
  let away : Manager := { s with hasRuntime := false }
  have hrefused : away.perform c = (away, .refused .noRuntime) := by
    obtain ⟨options, hstart⟩ := performWith_starts act hc away
    rw [perform_eq (s := away) hheld, act_eq, hstart]
    rfl
  unfold performOutside
  rw [hrefused]

theorem perform_started (hheld : s.held = true) (hruntime : s.hasRuntime = true)
    (hc : c.starts = true) :
    (s.perform c).2 = .done ∧ ∃ options, s.startPolling options = .ok (s.perform c).1 := by
  obtain ⟨options, hstart⟩ := performWith_starts act hc s
  have hok : ∃ t, s.startPolling options = .ok t := by
    unfold startPolling
    rw [if_pos hruntime]
    exact ⟨_, rfl⟩
  obtain ⟨t, ht⟩ := hok
  rw [ht] at hstart
  rw [perform_eq hheld, act_eq, hstart]
  exact ⟨rfl, options, ht⟩

/-! ## Occurrences -/

theorem occur_conduct (hs : s.Looping) (o : Occurrence) : Conduct s (s.occur o) := by
  cases o with
  | within m => exact next_conduct hs m
  | outside c => exact .goes (performOutside_deeds s c)

/-- What holds of every state of a run, for loops, probes and operations. -/
structure Orderly (s : Manager) : Prop where
  looping : s.Looping
  tended : s.Tended
  tasked : Tasked (fun _ => False) s

theorem Orderly.occur (h : s.Orderly) (o : Occurrence) : (s.occur o).Orderly := by
  refine ⟨(occur_conduct h.looping o).looping h.looping, ?_, ?_⟩
  · cases o with
    | within m => exact h.tended.next m
    | outside c =>
      let away : Manager := { s with hasRuntime := false }
      have haway : away.Tended :=
        h.tended.lasting (.same rfl rfl (Nat.le_refl _) rfl rfl rfl)
      exact (haway.lasting (perform_chores away c).lasting).lasting
        (.same rfl rfl (Nat.le_refl _) rfl rfl rfl)
  · cases o with
    | within m => exact h.tasked.next m
    | outside c =>
      let away : Manager := { s with hasRuntime := false }
      have haway : Tasked (fun _ => False) away := h.tasked.same rfl
      exact Tasked.same (Chores.tasked (perform_chores away c) haway) rfl

theorem Orderly.run (h : s.Orderly) (run : List Occurrence) : (run.foldl Manager.occur s).Orderly :=
  List.foldlRecOn run Manager.occur h fun _ hs o _ => hs.occur o

theorem Fresh.orderly (h : Fresh s) : s.Orderly :=
  ⟨h.looping, h.reachable.tended, h.reachable.tasked⟩

theorem occur_obeys (s : Manager) (o : Occurrence) : Obeys (s.ownOrder o) s (s.occur o) := by
  have hcall (a : Manager) (c : Call) :
      Obeys (if a.held then (c.order? (a.perform c).2).toList else []) a (a.perform c).1 := by
    by_cases hheld : a.held = true
    · rw [if_pos hheld, perform_eq hheld]
      exact act_obeys a c
    · rw [if_neg hheld, show a.perform c = (a, .none) from if_neg hheld]
      exact .refl a
  cases o with
  | within m =>
    by_cases hm : ∃ c, m = .call c
    · obtain ⟨c, rfl⟩ := hm
      exact hcall s c
    · have hnone : s.ownOrder (.within m) = [] := by
        cases m <;> first | rfl | exact absurd ⟨_, rfl⟩ hm
      rw [hnone]
      exact next_obeys fun c hc => hm ⟨c, hc⟩
  | outside c =>
    have h := hcall { s with hasRuntime := false } c
    exact ⟨h.later, h.nextId, h.held, h.polling, h.renewed, h.kept⟩

/-- At the end of a run the manager polls if the last order was to poll. -/
theorem run_polling (run : List Occurrence) (s : Manager)
    (hheld : (run.foldl occur s).held = true) : s.held = true ∧
      (run.foldl occur s).isPolling = (s.orderedIn run).getLastD s.isPolling := by
  induction run generalizing s with
  | nil => exact ⟨hheld, rfl⟩
  | cons o rest ih =>
    have hobeys := occur_obeys s o
    -- who holds the manager at the end has held it all along
    obtain ⟨hbetween, hlast⟩ := ih (s.occur o) hheld
    refine ⟨hobeys.held hbetween, hlast.trans ?_⟩
    rw [hobeys.polling hbetween, orderedIn, getLastD_append (s.ordered o)]
    rfl

/-- Every order has the loops stopped that there were before: they are replaced, or polling is to
stop. -/
theorem Orderly.stops (h : s.Orderly) (hsome : s.ordered o ≠ []) (hl : s.loops.lookup id ≠ none) :
    (s.occur o).Halted id := by
  have hobeys := occur_obeys s o
  obtain ⟨l, hl⟩ := Option.ne_none_iff_exists'.mp hl
  have hlt : id < s.nextId := h.looping.loop_lt hl
  refine ⟨Nat.lt_of_lt_of_le hlt hobeys.nextId, fun l' hl' => ?_⟩
  refine (Bool.not_eq_false _).mp fun hgoing => ?_
  have hpoller := ((h.occur o).looping.going hl').mp hgoing
  exact Nat.not_le_of_lt hlt (hobeys.renewed hsome id hpoller)

/-- If nothing is ordered, a loop that was not told to stop goes on. -/
theorem Orderly.lasts (h : s.Orderly) (hl : s.loops.lookup id = some l) (hgoing : l.stopped = false)
    (hnone : s.ordered o = []) (hheld : (s.occur o).held = true) :
    ∃ l', (s.occur o).loops.lookup id = some l' ∧ l'.stopped = false := by
  obtain ⟨l', hl'⟩ := Option.ne_none_iff_exists'.mp
    ((occur_conduct h.looping o).there h.looping hl hgoing)
  refine ⟨l', hl', ((h.occur o).looping.going hl').mpr ?_⟩
  rcases (occur_obeys s o).kept hnone with hsame | ⟨-, hgone⟩
  · exact hsame.trans ((h.looping.going hl).mp hgoing)
  · exact absurd hheld (by simp [hgone])

theorem Orderly.stopped (h : s.Orderly) (hid : s.Halted id) (more : List Occurrence) :
    Abides id s (more.foldl Manager.occur s) := by
  induction more generalizing s with
  | nil => exact .refl hid
  | cons o rest ih =>
    have hfirst := (occur_conduct h.looping o).abides h.looping hid
    exact hfirst.trans (ih (h.occur o) hfirst.halted)

/-- The turns of an iteration bring it to its end. -/
theorem Orderly.can_end (h : s.Orderly) (hf : s.Iterates f id) :
    ∃ moves : List Move, (∀ m ∈ moves, m.within f) ∧
      (moves.foldl Manager.next s).flights.lookup f = none := by
  obtain ⟨op | ⟨options, stage, probes⟩, hflight⟩ := answersTo_iff.mp hf
  · cases h.tasked f (fun hfalse => hfalse) _ op hflight
  · exact h.tended.can_end hflight

/-- An iteration fails if a probe of its batch has broken. That is noted, and its loop goes on. -/
theorem Tended.fails {options : CheckOptions} {stage : Stage} {probes : List BatchProbe}
    {task : Nat} (h : s.Tended) (hheld : s.held = true)
    (hf : s.flights.lookup f = some ⟨.loop id, .batch options stage probes⟩)
    (hjoined : joined probes = true) (hchanges : changes probes = .error task)
    (hl : s.loops.lookup id = some l) :
    since s (s.next (.turn (.flight f))) =
      [⟨s.now, s.pool, .pollFailed l.iterations ⟨Stage.operation stage, task⟩⟩] ∧
    (s.next (.turn (.flight f))).loops.lookup id = some l ∧
    .loop id ∈ (s.next (.turn (.flight f))).ready := by
  have hready : .flight f ∈ s.ready := h.joined (fun h => h) hf hjoined
  let failed : Reply := .broken ⟨Stage.operation stage, task⟩
  let erased : Manager := { s with ready := s.ready.erase (.flight f) }
  let noted : Manager :=
    ({ erased with flights := without f s.flights } : Manager).record (erased.report l failed)
  -- the user holds the manager, so that its loop is not told to stop
  have hkept : noted.release = noted := if_pos (by simp [noted, erased, record, hheld])
  rw [next_flight hready, runFlight_broken (s := erased) hf hjoined hchanges,
    land_loop (s := erased) hl, show release _ = _ from hkept]
  exact ⟨since_record s _, hl, List.mem_cons_self⟩

/-- A manager polls if one of the loops was not told to stop. -/
theorem Looping.isPolling_iff (h : s.Looping) :
    s.isPolling = true ↔ ∃ id l, s.loops.lookup id = some l ∧ l.stopped = false := by
  constructor
  · intro hpolls
    obtain ⟨id, hpoller⟩ := Option.isSome_iff_exists.mp hpolls
    obtain ⟨l, hl⟩ := Option.ne_none_iff_exists'.mp (h.polled hpoller)
    exact ⟨id, l, hl, (h.going hl).mpr hpoller⟩
  · rintro ⟨id, l, hl, hgoing⟩
    exact Option.isSome_iff_exists.mpr ⟨id, (h.going hl).mp hgoing⟩

/-- A loop that is there has a turn before it, or goes through an iteration. -/
theorem Looping.turns (h : s.Looping) (hl : s.loops.lookup id = some l) :
    .loop id ∈ s.ready ∨ (∃ due, (due, .loop id) ∈ s.timers) ∨ ∃ f, s.Iterates f id := by
  cases h.placed id with
  | gone hnone _ _ => cases hnone.symm.trans hl
  | between _ hone _ =>
    by_cases hready : .loop id ∈ s.ready
    · exact .inl hready
    · have hasleep : 0 < s.timers.countP (·.2 == .loop id) := by
        unfold pending at hone
        rw [List.count_eq_zero.mpr hready] at hone
        omega
      obtain ⟨⟨due, task⟩, hin, htask⟩ := List.countP_pos_iff.mp hasleep
      cases eq_of_beq htask
      exact .inr (.inl ⟨due, hin⟩)
  | within _ _ honly => exact .inr (.inr ⟨_, (honly _).mpr rfl⟩)

/-- A loop that was not told to stop begins an iteration at its turn, if it is time. -/
theorem Looping.begins (h : s.Looping) (hl : s.loops.lookup id = some l)
    (hgoing : l.stopped = false) (hready : .loop id ∈ s.ready) (hdue : l.due ≤ s.now) :
    ∃ l', (s.next (.turn (.loop id))).loops.lookup id = some l' ∧
      l'.iterations = l.iterations + 1 := by
  have hnext : s.next (.turn (.loop id)) = (s.iteration id l).runFlight s.nextId :=
    (next_loop hl (List.contains_iff_mem.mpr hready) hgoing hdue).trans
      (runFlight_queued (lookup_upsert_self _ _ _)).symm
  have hbegun := h.iteration hready hl
  have hf : (s.iteration id l).Iterates s.nextId id := iteration_iterates.mpr (.inl ⟨rfl, rfl⟩)
  rw [hnext]
  cases (runFlight_conduct hbegun.numbered .refl s.nextId).continues hbegun hf
    iteration_loops_self with
  | goesOn _ hl' hcount => exact ⟨_, hl', hcount⟩
  | ends _ hl' hcount _ _ => exact ⟨_, hl', hcount⟩

/-! ## Polling as ordered -/

/-- What becomes of the loops of a manager in a run, and with whatever occurs next. -/
structure PollsAsOrdered (s : Manager) (run : List Occurrence) (t : Manager) : Prop where
  /-- One loop at most was not told to stop. -/
  single : ∀ {id k l l'}, t.loops.lookup id = some l → t.loops.lookup k = some l' →
    l.stopped = false → l'.stopped = false → id = k
  /-- The manager polls if there is such a loop. -/
  going : t.isPolling = true ↔ ∃ id l, t.loops.lookup id = some l ∧ l.stopped = false
  /-- It does so if the last order was to poll. -/
  ordered : t.held = true → t.isPolling = (s.orderedIn run).getLastD s.isPolling
  /-- A new order stops the loops that there are. -/
  stops : ∀ o, t.ordered o ≠ [] → ∀ id, t.loops.lookup id ≠ none → (t.occur o).Halted id
  /-- A loop that was stopped begins no iteration. -/
  stopped : ∀ id, t.Halted id → ∀ more : List Occurrence, Abides id t (more.foldl occur t)
  /-- An iteration that has begun goes on until it ends, and it can be brought to its end. -/
  begun : ∀ f id, t.Iterates f id → ∃ l, t.loops.lookup id = some l ∧
    (∀ o, Continues f id l t (t.occur o)) ∧
    ∃ moves : List Move, (∀ m ∈ moves, m.within f) ∧
      (moves.foldl next t).flights.lookup f = none
  /-- An iteration that fails, since a probe of its batch has broken, does not end its loop. -/
  failed : ∀ f id options stage probes task l,
    t.flights.lookup f = some ⟨.loop id, .batch options stage probes⟩ → joined probes = true →
    changes probes = .error task → t.held = true → t.loops.lookup id = some l →
    since t (t.next (.turn (.flight f))) =
      [⟨t.now, t.pool, .pollFailed l.iterations ⟨Stage.operation stage, task⟩⟩] ∧
    (t.next (.turn (.flight f))).loops.lookup id = some l ∧
    .loop id ∈ (t.next (.turn (.flight f))).ready
  /-- Nor does anything else, unless it is ordered or the user is gone. -/
  lasts : ∀ o id l, t.loops.lookup id = some l → l.stopped = false → t.ordered o = [] →
    (t.occur o).held = true → ∃ l', (t.occur o).loops.lookup id = some l' ∧ l'.stopped = false
  /-- A loop that goes on comes to its turns, and begins iterations when it is time. -/
  turns : ∀ id l, t.loops.lookup id = some l → l.stopped = false →
    (.loop id ∈ t.ready ∨ (∃ due, (due, .loop id) ∈ t.timers) ∨ ∃ f, t.Iterates f id) ∧
    (.loop id ∈ t.ready → l.due ≤ t.now → ∃ l',
      (t.next (.turn (.loop id))).loops.lookup id = some l' ∧ l'.iterations = l.iterations + 1)
  /-- A call that starts a loop succeeds where there is a scheduler, with a loop that is new. -/
  started : ∀ c : Call, c.starts = true → t.held = true → t.hasRuntime = true →
    (t.perform c).2 = .done ∧ ∃ l, t.loops.lookup t.nextId = none ∧
      (t.perform c).1.loops.lookup t.nextId = some l ∧ l.stopped = false ∧ l.iterations = 0
  /-- Where there is no scheduler it fails, and changes nothing. -/
  refused : ∀ c : Call, c.starts = true → t.held = true →
    t.performOutside c = (t, .refused .noRuntime)

theorem polls_as_ordered (h : Fresh s) (run : List Occurrence) (ht : t = run.foldl occur s) :
    PollsAsOrdered s run t := by
  have horderly : t.Orderly := ht ▸ h.orderly.run run
  have hlooping := horderly.looping
  exact {
    single := fun hl hl' hgoing hgoing' => by
      have hid := (hlooping.going hl).mp hgoing
      have hk := (hlooping.going hl').mp hgoing'
      exact Option.some.inj (hid.symm.trans hk)
    going := hlooping.isPolling_iff
    ordered := fun hheld => by
      subst ht
      exact (run_polling run s hheld).2
    stops := fun _ hsome _ hl => horderly.stops hsome hl
    stopped := fun _ hid more => horderly.stopped hid more
    begun := fun _ _ hf => by
      obtain ⟨l, hl⟩ := Option.ne_none_iff_exists'.mp (hlooping.within hf).1
      exact ⟨l, hl, fun o => (occur_conduct hlooping o).continues hlooping hf hl,
        horderly.can_end hf⟩
    failed := fun _ _ _ _ _ _ _ hf hjoined hchanges hheld hl =>
      horderly.tended.fails hheld hf hjoined hchanges hl
    lasts := fun _ _ _ hl hgoing hnone hheld => horderly.lasts hl hgoing hnone hheld
    turns := fun _ _ hl hgoing => ⟨hlooping.turns hl, hlooping.begins hl hgoing⟩
    started := fun _ hc hheld hruntime => by
      obtain ⟨hdone, options, hstart⟩ := perform_started hheld hruntime hc
      have hopening := startPolling_opening hlooping hstart
      exact ⟨hdone, _, hlooping.unused _ (Nat.le_refl _), hopening.newest, rfl, rfl⟩
    refused := fun _ hc hheld => performOutside_refused hheld hc }

/-- The first probe of A breaks, and the second is answered late. -/
def faltering : Manager :=
  idle ⟨[("A", ⟨[.panic, .reply 5 (.ok ⟨true, .ofMillis 5⟩)], none⟩)]⟩ true

/-- An iteration has failed. In the next, polling is started from outside, and then anew. -/
def overlap : List Occurrence :=
  [.within (.call (.add { uri := "A" } none)),
    .within (.call (.startPolling { periodMs := 10, pollType := .all } [])),
    .within (.turn (.loop 0)), .within (.turn (.probe 1 0)), .within (.turn (.flight 1)),
    .within (.turn (.loop 0)), .within (.clock 10), .within (.turn (.loop 0)),
    .within (.turn (.probe 2 0)), .outside (.startPolling {} []),
    .within (.call (.startPolling {} []))]

theorem overlap_as_ordered :
    let t := overlap.foldl occur faltering
    Fresh faltering ∧ faltering.orderedIn overlap = [true, true] ∧ t.isPolling = true ∧
    (∃ l, t.loops.lookup 0 = some l ∧ l.iterations = 2 ∧ l.stopped = true) ∧
    (∃ moves : List Move, (∀ m ∈ moves, m.within 2) ∧
      (moves.foldl next t).flights.lookup 2 = none) ∧
    (∀ more : List Occurrence, Abides 0 t (more.foldl occur t)) ∧
    t.performOutside (.startPolling {} []) = (t, .refused .noRuntime) ∧
    (t.occur (.within (.call .reset))).Halted 3 := by
  intro t
  have hfresh : Fresh faltering := .new _ true []
  have horders : faltering.orderedIn overlap = [true, true] := by decide +kernel
  have hloop : ∃ l, t.loops.lookup 0 = some l ∧ l.iterations = 2 ∧ l.stopped = true :=
    ⟨_, rfl, by decide +kernel, by decide +kernel⟩
  have hpolls := polls_as_ordered (t := t) hfresh overlap rfl
  have hhalted : t.Halted 0 := by
    obtain ⟨l, hl, -, hstopped⟩ := hloop
    refine ⟨by decide +kernel, fun l' hl' => ?_⟩
    cases hl.symm.trans hl'
    exact hstopped
  obtain ⟨_, -, -, hends⟩ := hpolls.begun 2 0 rfl
  refine ⟨hfresh, horders, ?_, hloop, hends, hpolls.stopped 0 hhalted,
    hpolls.refused _ rfl (by decide +kernel), hpolls.stops _ (by decide +kernel) 3 ?_⟩
  · rw [hpolls.ordered (by decide +kernel), horders]
    rfl
  · have hthere : (t.loops.lookup 3).isSome = true := by decide +kernel
    exact Option.isSome_iff_ne_none.mp hthere

end Manager

end RpcPool

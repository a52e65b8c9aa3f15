import RpcPool.Proofs.Accounts

/-!
# Timeouts and deadlines

Each probe gets its timeout when its batch opens: that of its connection, or else the one that the
operation was given, or else the pool's as it stands then. No timeout is zero, so no batch is held
up for longer than its largest timeout by endpoints that do not answer.

Results:
1. `next_batch`: a batch is the one that was there before, or has just been opened.
2. `run_batch`: in a run, each batch was opened by some move, for an operation that began in the run.
3. `Prompt.next`: on a punctual clock, no time passes beyond the deadline of a batch that is still
   waited for.
4. `probes_timely`: the timeout of every probe of a run, and the deadline of every batch.
-/

namespace RpcPool

/-- The first timeout that counts. A timeout of zero does not. -/
def firstTimeout (timeouts : List (Option UInt32)) : Option UInt32 :=
  (timeouts.filterMap id).find? (0 < ·)

theorem firstTimeout_pos {timeouts : List (Option UInt32)} {ms : UInt32}
    (h : firstTimeout timeouts = some ms) : 1 ≤ ms := by
  have hpos : 0 < ms := by simpa using List.find?_some h
  exact UInt32.le_iff_toNat_le.mpr (UInt32.lt_iff_toNat_lt.mp hpos)

theorem firstTimeout_cons (own : Option UInt32) (timeouts : List (Option UInt32)) :
    firstTimeout (own :: timeouts) = (own.filter (0 < ·)).or (firstTimeout timeouts) := by
  unfold firstTimeout
  cases own with
  | none => rfl
  | some ms => by_cases h : 0 < ms <;> simp [Option.filter, h]

/-- What stays the same of a probe from the opening of its batch on. -/
def BatchProbe.fixed (p : BatchProbe) : Connection × UInt32 × Nat :=
  (p.connection, p.timeoutMs, p.task)

/-- The largest timeout of some probes. -/
def largestTimeout (probes : List BatchProbe) : Nat :=
  (probes.map (·.timeoutMs.toNat)).max?.getD 0

theorem le_largestTimeout {probes : List BatchProbe} {p : BatchProbe} (h : p ∈ probes) :
    p.timeoutMs.toNat ≤ largestTimeout probes :=
  List.le_max?_getD_of_mem (List.mem_map_of_mem h)

namespace Manager

variable {s t a : Manager} {m : Move} {moves : List Move} {f : FlightId} {i : Nat}
  {owner : Owner} {options : CheckOptions} {stage : Stage} {conns : List Connection}
  {probes : List BatchProbe} {p : BatchProbe} {op : Operation}

/-! ## Openings -/

/-- With a move, an operation opens a batch of new probes. -/
structure Opens (s : Manager) (m : Move) (f : FlightId) (options : CheckOptions)
    (probes : List BatchProbe) : Prop where
  flight : ∃ owner stage,
    (s.next m).flights.lookup f = some ⟨owner, .batch options stage probes⟩
  nonempty : probes ≠ []
  fresh : ∀ p ∈ probes, p.state = .queued ∧ s.started < p.task

/-- An operation waits for a batch, or has not gone on from it yet. -/
def Holds (t : Manager) (f : FlightId) (probes : List BatchProbe) : Prop :=
  ∃ owner options stage probes', t.flights.lookup f = some ⟨owner, .batch options stage probes'⟩ ∧
    probes'.map BatchProbe.fixed = probes.map BatchProbe.fixed

/-- How a move opens a batch. -/
structure Launches (s : Manager) (m : Move) (f : FlightId) (options : CheckOptions)
    (conns : List Connection) (a t : Manager) : Prop where
  brings : Brings s m f options
  resting : s.Resting f
  lasting : Lasting { s with ready := s.ready.erase (.flight f) } a
  nonempty : conns ≠ []
  launched : ∃ owner stage, t = a.launch f owner options stage conns

theorem fixed_modify (probes : List BatchProbe) (i : Nat) (state : ProbeState) :
    (probes.modify i fun p => { p with state := state }).map BatchProbe.fixed =
      probes.map BatchProbe.fixed := by
  refine List.ext_getElem? fun j => ?_
  rw [List.getElem?_map, List.getElem?_map, List.getElem?_modify]
  cases probes[j]? with
  | none => split <;> rfl
  | some p => split <;> rfl

/-- A batch is the one that was there before the move, or the move has opened it. -/
theorem next_batch (hs : s.Tended)
    (h : (s.next m).flights.lookup f = some ⟨owner, .batch options stage probes⟩) :
    (∃ probes', s.flights.lookup f = some ⟨owner, .batch options stage probes'⟩ ∧
      probes'.map BatchProbe.fixed = probes.map BatchProbe.fixed) ∨
    ∃ a conns, Launches s m f options conns a (s.next m) ∧ probes = a.opened options conns := by
  have hkept {a b : Manager} (hab : Lasting a b)
      (hb : b.flights.lookup f = some ⟨owner, .batch options stage probes⟩) :
      a.flights.lookup f = some ⟨owner, .batch options stage probes⟩ := by
    rcases hab.flights f with hsame | ⟨_, _, _, _, hqueued⟩
    · exact hsame.symm.trans hb
    · cases hqueued.symm.trans hb
  have hbefalls := next_befalls hs.numbered m
  generalize s.next m = t at h hbefalls ⊢
  cases hbefalls with
  | lasts hlasting => exact Or.inl ⟨probes, hkept hlasting h, rfl⟩
  | @probes g i p state _ _ hp _ hstep =>
    obtain ⟨_, _, _, others, hflight, _⟩ := probe?_some hp
    have hstepped := hstep.stepped hflight
    by_cases hg : f = g
    · subst hg
      cases hstepped.lookup.symm.trans h
      exact Or.inl ⟨others, hflight, (fixed_modify others i state).symm⟩
    · exact Or.inl ⟨probes, (hstepped.lookup_ne hg).symm.trans h, rfl⟩
  | strays _ => exact Or.inl ⟨probes, h, rfl⟩
  | waits _ => exact Or.inl ⟨probes, h, rfl⟩
  | @opens _ g a owner' options' stage' conns hresting hlasting _ hne hbrings =>
    by_cases hg : f = g
    · subst hg
      cases (launch_lookup a f owner' options' stage' conns).symm.trans h
      exact Or.inr ⟨a, conns, ⟨hbrings, hresting, hlasting, hne, _, _, rfl⟩, rfl⟩
    · have hbefore := hkept hlasting ((launch_lookup_ne hg).symm.trans h)
      exact Or.inl ⟨probes, hbefore, rfl⟩
  | @lands _ g a owner' reply _ hlasting _ =>
    have hrest := hkept (land_lasting a g owner' reply) h
    by_cases hg : f = g
    · subst hg
      rw [show ({ a with flights := without f a.flights } : Manager).flights.lookup f = none from
        lookup_without_self _ _] at hrest
      exact absurd hrest (by simp)
    · have hother : a.flights.lookup f = some ⟨owner, .batch options stage probes⟩ :=
        (lookup_without_ne _ hg).symm.trans hrest
      have hbefore := hkept hlasting hother
      exact Or.inl ⟨probes, hbefore, rfl⟩
  | passes time =>
    obtain ⟨timers, ready, hclock⟩ := moveClock_eq s time
    rw [hclock] at h
    exact Or.inl ⟨probes, h, rfl⟩

/-- The probes of a batch that is there already are not new. -/
theorem Opens.launches (h : s.Opens m f options probes) (hs : s.Tended) :
    ∃ a conns, Launches s m f options conns a (s.next m) ∧ probes = a.opened options conns := by
  obtain ⟨owner, stage, hflight⟩ := h.flight
  rcases next_batch hs hflight with ⟨probes', hbefore, hfixed⟩ | hlaunches
  · obtain ⟨p, hp⟩ := List.exists_mem_of_ne_nil probes h.nonempty
    have hmem : p.fixed ∈ probes'.map BatchProbe.fixed := hfixed ▸ List.mem_map_of_mem hp
    obtain ⟨q, hq, hsame⟩ := List.mem_map.mp hmem
    obtain ⟨i, hi⟩ := List.mem_iff_getElem?.mp hq
    have hold := (hs.tasks ((probe?_batch hbefore i).trans hi)).2
    have hnew := (h.fresh p hp).2
    have htask : q.task = p.task := congrArg (·.2.2) hsame
    omega
  · exact hlaunches

theorem Launches.opens (h : Launches s m f options conns a (s.next m)) :
    s.Opens m f options (a.opened options conns) where
  flight := by
    obtain ⟨owner, stage, hlaunch⟩ := h.launched
    rw [hlaunch]
    exact ⟨owner, stage, launch_lookup a f owner options stage conns⟩
  nonempty hnil := by
    have hlength := length_opened a options conns
    rw [hnil] at hlength
    exact h.nonempty (List.length_eq_zero_iff.mp hlength.symm)
  fresh p hp := by
    obtain ⟨i, hi⟩ := List.mem_iff_getElem?.mp hp
    obtain ⟨_, htask, hqueued⟩ := getElem?_opened hi
    have hstarted : s.started ≤ a.started := h.lasting.started
    exact ⟨hqueued, by omega⟩

/-- Each probe of a new batch has the first timeout that counts: its connection's own, the one that
the operation was given, or the pool's. -/
theorem Launches.timeout (h : Launches s m f options conns a (s.next m))
    (hdefault : (s.next m).pool.registry.timeoutMs ≠ 0) (hp : p ∈ a.opened options conns) :
    firstTimeout [p.connection.endpoint.timeoutMs, options.timeoutMs,
      some (s.next m).pool.registry.timeoutMs] = some p.timeoutMs := by
  have hregistry : (s.next m).pool.registry = a.pool.registry := by
    obtain ⟨owner, stage, hlaunch⟩ := h.launched
    obtain ⟨ready, hrest⟩ := launch_rest a f owner options stage conns
    rw [hlaunch, hrest]
    rfl
  rw [hregistry] at hdefault ⊢
  obtain ⟨i, hi⟩ := List.mem_iff_getElem?.mp hp
  unfold opened at hi
  rw [List.getElem?_mapIdx] at hi
  obtain ⟨c, _, rfl⟩ := Option.map_eq_some_iff.mp hi
  rw [firstTimeout_cons, firstTimeout_cons]
  have hlast : firstTimeout [some a.pool.registry.timeoutMs] =
      some a.pool.registry.timeoutMs := by
    unfold firstTimeout
    simpa using hdefault
  rw [hlast]
  show _ = some (probeTimeout _ c)
  unfold probeTimeout
  rw [Option.or_some, Option.or_some]

/-! ## Batches of a run -/

/-- Something happens with a move of a run. -/
def Happens (s : Manager) (moves : List Move) (P : Manager → Move → Prop) : Prop :=
  ∃ before m after, moves = before ++ m :: after ∧ P (before.foldl next s) m

theorem Happens.append {P : Manager → Move → Prop} (h : s.Happens moves P) (more : List Move) :
    s.Happens (moves ++ more) P := by
  obtain ⟨before, m, after, rfl, hm⟩ := h
  refine ⟨before, m, after ++ more, ?_, hm⟩
  rw [List.append_assoc, List.cons_append]

theorem Happens.last {P : Manager → Move → Prop} (h : P (moves.foldl next s) m) :
    s.Happens (moves ++ [m]) P :=
  ⟨moves, m, [], rfl, h⟩

/-- A batch was opened in the run, for an operation that began in it. -/
structure Stems (s : Manager) (moves : List Move) (f : FlightId) (options : CheckOptions)
    (probes : List BatchProbe) : Prop where
  opened : ∃ probes₀, s.Happens moves (fun b m => b.Opens m f options probes₀) ∧
    probes.map BatchProbe.fixed = probes₀.map BatchProbe.fixed
  begun : ∃ op, s.Happens moves (fun b m => Undertakes b m f op) ∧
    options.timeoutMs = op.timeoutMs

theorem Stems.append (h : s.Stems moves f options probes) (more : List Move) :
    s.Stems (moves ++ more) f options probes := by
  obtain ⟨⟨probes₀, hopened, hfixed⟩, op, hbegun, htimeout⟩ := h
  exact ⟨⟨probes₀, hopened.append more, hfixed⟩, op, hbegun.append more, htimeout⟩

/-- In a run, each batch was opened by some move, for an operation that began in the run. -/
theorem run_batch (h : Fresh s)
    (hflight : (moves.foldl next s).flights.lookup f = some ⟨owner, .batch options stage probes⟩) :
    s.Stems moves f options probes := by
  induction moves using List.reverseRecOn generalizing owner options stage probes with
  | nil =>
    obtain ⟨network, hasRuntime, hchores⟩ := h.chores
    have hlasting : Lasting (Manager.idle network hasRuntime) s := Chores.lasting hchores
    rcases hlasting.flights f with hsame | ⟨_, _, _, _, hqueued⟩
    · cases hsame.symm.trans hflight
    · cases hqueued.symm.trans hflight
  | append_singleton rest m ih =>
    have htended : (rest.foldl next s).Tended := h.reachable.tended.run_moves rest
    rw [List.foldl_append] at hflight
    have hflight : ((rest.foldl next s).next m).flights.lookup f = _ := hflight
    rcases next_batch htended hflight with ⟨probes', hbefore, hfixed⟩ | ⟨a, conns, hlaunches, rfl⟩
    · obtain ⟨⟨probes₀, hopened, hsame⟩, op, hbegun, htimeout⟩ := ih hbefore
      exact ⟨⟨probes₀, hopened.append [m], hfixed.symm.trans hsame⟩, op, hbegun.append [m],
        htimeout⟩
    · refine ⟨⟨_, .last hlaunches.opens, rfl⟩, ?_⟩
      cases hlaunches.brings with
      | @begins op hundertakes htimeout =>
        exact ⟨op, .last (P := fun b m => Undertakes b m f op) hundertakes, htimeout⟩
      | goesOn hbefore =>
        obtain ⟨op, hbegun, htimeout⟩ := (ih hbefore).begun
        exact ⟨op, hbegun.append [m], htimeout⟩

/-! ## Deadlines -/

/-- When nothing is ready, a probe of each batch under way waits for the clock. -/
theorem Tended.waits (hs : s.Tended) (hidle : s.ready = [])
    (hflight : s.flights.lookup f = some ⟨owner, .batch options stage probes⟩) :
    ∃ due i, (due, .probe f i) ∈ s.timers := by
  have hopen : joined probes = false := by
    refine Bool.eq_false_iff.mpr fun hjoined => ?_
    have hready : .flight f ∈ s.ready := hs.joined (fun h => h) hflight hjoined
    rw [hidle] at hready
    exact absurd hready List.not_mem_nil
  obtain ⟨p, hmem, hp⟩ := List.all_eq_false.mp hopen
  obtain ⟨i, hi⟩ := List.mem_iff_getElem?.mp hmem
  have hready : .probe f i ∉ s.ready := by
    rw [hidle]
    exact List.not_mem_nil
  obtain ⟨due, htimer⟩ := hs.timer ((probe?_batch hflight i).trans hi) (by simpa using hp) hready
  exact ⟨due, i, htimer⟩

/-- A batch that was opened at some time is in time for its deadline: its probes start at once, and
all wait for times within the deadline. -/
structure Prompt (opened deadline : Nat) (f : FlightId) (t : Manager) : Prop where
  within : t.now ≤ deadline
  bound : ∀ {i p}, t.probe? f i = some p → opened + p.timeoutMs.toNat ≤ deadline
  queued : ∀ {i p}, t.probe? f i = some p → p.state = .queued → t.now = opened
  timers : ∀ {due i}, (due, .probe f i) ∈ t.timers → t.now ≤ due ∧ due ≤ deadline

/-- A batch with the same probes has them at the same places. -/
theorem probe?_fixed {probes' : List BatchProbe}
    (hbefore : s.flights.lookup f = some ⟨owner, .batch options stage probes'⟩)
    (hfixed : probes'.map BatchProbe.fixed = probes.map BatchProbe.fixed)
    (hflight : t.flights.lookup f = some ⟨owner, .batch options stage probes⟩)
    (hp : t.probe? f i = some p) : ∃ q, s.probe? f i = some q ∧ q.fixed = p.fixed := by
  rw [probe?_batch hflight] at hp
  have hmap : (probes.map BatchProbe.fixed)[i]? = some p.fixed := by
    rw [List.getElem?_map, hp]
    rfl
  rw [← hfixed, List.getElem?_map] at hmap
  obtain ⟨q, hq, hsame⟩ := Option.map_eq_some_iff.mp hmap
  exact ⟨q, (probe?_batch hbefore i).trans hq, hsame⟩

variable {opened deadline : Nat}

theorem Prompt.bounded (h : Prompt opened deadline f s)
    (hsame : ∀ {i p}, t.probe? f i = some p → ∃ q, s.probe? f i = some q ∧ q.fixed = p.fixed)
    {i : Nat} {p : BatchProbe} (hp : t.probe? f i = some p) :
    opened + p.timeoutMs.toNat ≤ deadline := by
  obtain ⟨q, hq, hfixed⟩ := hsame hp
  have htimeout : q.timeoutMs = p.timeoutMs := congrArg (·.2.1) hfixed
  exact htimeout ▸ h.bound hq

theorem Prompt.paced (h : Prompt opened deadline f s) (hs : s.Tended)
    (hbefore : s.flights.lookup f = some ⟨owner, .batch options stage probes⟩)
    (hsame : ∀ {i p}, t.probe? f i = some p → ∃ q, s.probe? f i = some q ∧ q.fixed = p.fixed)
    (hkeeps : Keeps s t) (hpaced : Paced s t) : Prompt opened deadline f t where
  within := by
    rcases hpaced.now with hnow | ⟨hidle, hnext⟩
    · rw [hnow]
      exact h.within
    · -- time has passed, but some probe of the batch has been waited for
      obtain ⟨due, i, htimer⟩ := hs.waits hidle hbefore
      exact Nat.le_trans (hnext _ htimer) (h.timers htimer).2
  bound := h.bounded hsame
  queued {i p} hp hqueued := by
    rcases hkeeps.old hp with hold | ⟨_, hnew⟩
    · have hready : .probe f i ∈ s.ready := hs.queued hold hqueued
      rcases hpaced.now with hnow | ⟨hidle, _⟩
      · exact hnow.trans (h.queued hold hqueued)
      · rw [hidle] at hready
        exact absurd hready List.not_mem_nil
    · obtain ⟨q, hq, hfixed⟩ := hsame hp
      have htask : q.task = p.task := congrArg (·.2.2) hfixed
      have := (hs.tasks hq).2
      omega
  timers htimer := by
    have hold := hpaced.timers htimer
    refine ⟨?_, (h.timers hold).2⟩
    rcases hpaced.now with hnow | ⟨_, hnext⟩
    · rw [hnow]
      exact (h.timers hold).1
    · exact hnext _ hold

/-- A probe that takes its turn waits no longer than its timeout. -/
theorem Prompt.turned {q : BatchProbe} {state : ProbeState} {more : List Attempt}
    {done : List Ending} {g : FlightId} {j : Nat} (h : Prompt opened deadline f s)
    (hsame : ∀ {i p}, t.probe? f i = some p → ∃ q, s.probe? f i = some q ∧ q.fixed = p.fixed)
    (hs : s.Tended) (hturned : Turned g j q state s t) (hentries : Entries s q state more done)
    (hpaced : TurnPaced g j q state s t) : Prompt opened deadline f t where
  within := hpaced.now ▸ h.within
  bound := h.bounded hsame
  queued hp hqueued := by
    rcases hturned.other hs hp with rfl | ⟨hold, _⟩
    · exact absurd hqueued hentries.state_ne
    · exact hpaced.now.trans (h.queued hold hqueued)
  timers htimer := by
    rw [hpaced.now]
    rcases hpaced.timers htimer with ⟨hold, _⟩ | ⟨rfl, rfl, hqueued, rfl⟩
    · exact h.timers hold
    · have hnow : s.now = opened := h.queued hturned.before hqueued
      have hle := h.bound hturned.before
      have hduration : (s.attempt q).behaviour.duration q.timeoutMs ≤ q.timeoutMs.toNat :=
        Behaviour.duration_le _ _
      refine ⟨Nat.le_add_right _ _, ?_⟩
      show s.now + (s.attempt q).behaviour.duration q.timeoutMs ≤ deadline
      omega

/-- A batch that an operation goes on to wait for stays in time for its deadline. -/
theorem Prompt.next (h : Prompt opened deadline f s) (hs : s.Tended) (hpunctual : s.Punctual m)
    {probes' : List BatchProbe}
    (hbefore : s.flights.lookup f = some ⟨owner, .batch options stage probes'⟩)
    (hfixed : probes'.map BatchProbe.fixed = probes.map BatchProbe.fixed)
    (hflight : (s.next m).flights.lookup f = some ⟨owner, .batch options stage probes⟩) :
    Prompt opened deadline f (s.next m) := by
  have hsame {i : Nat} {p : BatchProbe} (hp : (s.next m).probe? f i = some p) :=
    probe?_fixed hbefore hfixed hflight hp
  cases hturning : s.turning m with
  | none =>
    exact h.paced hs hbefore hsame (next_keeps hs hturning) (next_paced hs hturning hpunctual)
  | some q =>
    obtain ⟨g, j, state, rfl, hready, hq, hopen, hstep⟩ := turning_step hs hturning
    exact h.turned hsame hs (hstep.turned hq hopen) (next_entries hready hq hstep)
      (hstep.paced hs hready hq hopen)

/-- A batch that has just been opened is in time. -/
theorem Opens.prompt (h : s.Opens m f options probes) (hs : s.Tended) :
    Prompt (s.next m).now ((s.next m).now + largestTimeout probes) f (s.next m) := by
  have hprobe {i : Nat} {p : BatchProbe} (hp : (s.next m).probe? f i = some p) : p ∈ probes := by
    obtain ⟨owner, stage, hflight⟩ := h.flight
    rw [probe?_batch hflight] at hp
    exact List.mem_of_getElem? hp
  refine ⟨Nat.le_add_right _ _, fun hp => ?_, fun _ _ => rfl, fun {due i} htimer => ?_⟩
  · exact Nat.add_le_add_left (le_largestTimeout (hprobe hp)) _
  · -- the last batch of the operation was over, so none of its probes waits
    obtain ⟨a, conns, hlaunches, _⟩ := h.launches hs
    obtain ⟨owner, stage, hlaunch⟩ := hlaunches.launched
    obtain ⟨ready, hrest⟩ := launch_rest a f owner options stage conns
    have htimers : (s.next m).timers = a.timers := by
      rw [hlaunch, hrest]
      rfl
    rw [htimers] at htimer
    have hold : (due, .probe f i) ∈ s.timers := hlaunches.lasting.paced.timers htimer
    have hnone : s.tokens f i = 0 := (hs.tokens f i).trans (owed_over (hlaunches.resting i))
    have hpos : 0 < s.timers.countP (·.2 == .probe f i) :=
      List.countP_pos_iff.mpr ⟨(due, .probe f i), hold, by simp⟩
    unfold tokens at hnone
    omega

/-- As long as an operation waits for a batch, the batch is in time for its deadline. -/
theorem Opens.run_prompt (h : s.Opens m f options probes) (hs : s.Tended)
    (hpunctual : (s.next m).RunsPunctually moves)
    (hholds : (moves.foldl Manager.next (s.next m)).Holds f probes) :
    Prompt (s.next m).now ((s.next m).now + largestTimeout probes) f
      (moves.foldl Manager.next (s.next m)) := by
  induction moves using List.reverseRecOn with
  | nil => exact h.prompt hs
  | append_singleton rest k ih =>
    obtain ⟨hrest, hk, _⟩ := (runsPunctually_append (s.next m) rest [k]).mp hpunctual
    obtain ⟨owner, options', stage, probes', hflight, hfixed⟩ := hholds
    have htended : (rest.foldl Manager.next (s.next m)).Tended := (hs.next m).run_moves rest
    rw [List.foldl_append] at hflight ⊢
    have hflight : ((rest.foldl Manager.next (s.next m)).next k).flights.lookup f = _ := hflight
    rcases next_batch htended hflight with ⟨earlier, hbefore, hsame⟩ | ⟨a, conns, hlaunches, rfl⟩
    · have hholds : (rest.foldl Manager.next (s.next m)).Holds f probes :=
        ⟨owner, options', stage, earlier, hbefore, hsame.trans hfixed⟩
      exact (ih hrest hholds).next htended hk hbefore hsame hflight
    · -- a batch that was opened only now has other probes
      obtain ⟨p, hp⟩ := List.exists_mem_of_ne_nil probes h.nonempty
      have hmem : p.fixed ∈ (a.opened options' conns).map BatchProbe.fixed :=
        hfixed ▸ List.mem_map_of_mem hp
      obtain ⟨q, hq, hqp⟩ := List.mem_map.mp hmem
      have htask : q.task = p.task := congrArg (·.2.2) hqp
      have hnew := (hlaunches.opens.fresh q hq).2
      obtain ⟨owner₀, stage₀, hopened⟩ := h.flight
      obtain ⟨i, hi⟩ := List.mem_iff_getElem?.mp hp
      have hold := ((hs.next m).tasks ((probe?_batch hopened i).trans hi)).2
      have hgrows : (s.next m).started ≤ (rest.foldl Manager.next (s.next m)).started :=
        (hs.next m).run_grows rest
      omega

/-! ## Every probe and every batch -/

/-- Each probe of a batch that is opened in a run has the first timeout that counts. -/
theorem Opens.timeouts {before : List Move} (h : Fresh s)
    (hopens : (before.foldl next s).Opens m f options probes) :
    ∃ op, s.Happens (before ++ [m]) (fun b k => Undertakes b k f op) ∧ ∀ p ∈ probes,
      firstTimeout [p.connection.endpoint.timeoutMs, op.timeoutMs,
        some ((before ++ [m]).foldl next s).pool.registry.timeoutMs] = some p.timeoutMs := by
  have htended : (before.foldl next s).Tended := h.reachable.tended.run_moves before
  have hreachable : Reachable ((before ++ [m]).foldl next s) := h.reachable.foldl _
  have hdefault := hreachable.sound.registry.timeout_ne
  obtain ⟨owner, stage, hflight⟩ := hopens.flight
  have hconcat : (before ++ [m]).foldl next s = (before.foldl next s).next m := List.foldl_append
  rw [hconcat] at hdefault ⊢
  rw [← hconcat] at hflight
  obtain ⟨op, hbegun, htimeout⟩ := (run_batch h hflight).begun
  obtain ⟨a, conns, hlaunches, rfl⟩ := hopens.launches htended
  refine ⟨op, hbegun, fun p hp => ?_⟩
  rw [← htimeout]
  exact hlaunches.timeout hdefault hp

/-- A probe that starts in a run belongs to a batch that was opened in it. -/
theorem attempts_stem (h : Fresh s) {b : Attempt} (hb : b ∈ s.attempts moves) :
    ∃ f options probes, s.Stems moves f options probes ∧
      ∃ p ∈ probes, p.fixed = (b.connection, b.timeoutMs, b.task) := by
  induction moves using List.reverseRecOn with
  | nil => exact absurd hb List.not_mem_nil
  | append_singleton rest m ih =>
    rw [attempts_concat] at hb
    rcases List.mem_append.mp hb with hold | hnew
    · obtain ⟨f, options, probes, hstems, hfixed⟩ := ih hold
      exact ⟨f, options, probes, hstems.append [m], hfixed⟩
    · have htended : (rest.foldl next s).Tended := h.reachable.tended.run_moves rest
      cases hturning : (rest.foldl next s).turning m with
      | none =>
        rw [startsIn_none hturning] at hnew
        exact absurd hnew List.not_mem_nil
      | some p =>
        obtain ⟨f, i, state, rfl, hready, hp, hopen, hstep⟩ := turning_step htended hturning
        obtain ⟨rfl, _⟩ := mem_more (next_entries hready hp hstep) (hstep.turned hp hopen) hnew
        obtain ⟨owner, options, stage, probes, hflight, hi⟩ := probe?_some hp
        exact ⟨f, options, probes, (run_batch h hflight).append _, p, List.mem_of_getElem? hi, rfl⟩

/-- In every run, each probe starts with a timeout that is not zero, the first that counts when its
batch is opened: its connection's own, the one that the poll loop gives its operation, or the
pool's. On a punctual clock, an operation has gone on from a batch before time passes its deadline,
the largest timeout of its probes after it was opened, whether or not they are answered. -/
theorem probes_timely (h : Fresh s) (moves : List Move) (ht : t = moves.foldl next s) :
    (∀ a ∈ s.attempts moves, ∃ before m after f options probes op,
      moves = before ++ m :: after ∧ (before.foldl next s).Opens m f options probes ∧
      s.Happens (before ++ [m]) (fun b k => Undertakes b k f op) ∧
      (∃ p ∈ probes, p.fixed = (a.connection, a.timeoutMs, a.task)) ∧ 1 ≤ a.timeoutMs ∧
      firstTimeout [a.connection.endpoint.timeoutMs, op.timeoutMs,
        some ((before ++ [m]).foldl next s).pool.registry.timeoutMs] = some a.timeoutMs) ∧
    ∀ before m after f options probes, moves = before ++ m :: after →
      (before.foldl next s).Opens m f options probes → t.Holds f probes →
      (∃ more : List Move, (∀ k ∈ more, k.within f) ∧
        (more.foldl next t).flights.lookup f = none) ∧
      (s.RunsPunctually moves →
        let deadline := ((before ++ [m]).foldl next s).now + largestTimeout probes
        t.now ≤ deadline ∧ (t.ready = [] →
          ∃ due i, (due, .probe f i) ∈ t.timers ∧ t.now ≤ due ∧ due ≤ deadline)) := by
  subst ht
  have htended (moves : List Move) : (moves.foldl next s).Tended :=
    h.reachable.tended.run_moves moves
  have hconcat (before : List Move) (m : Move) :
      (before ++ [m]).foldl next s = (before.foldl next s).next m := List.foldl_append
  refine ⟨fun b hb => ?_, fun before m after f options probes hmoves hopens hholds => ⟨?_, ?_⟩⟩
  · obtain ⟨f, options, probes, hstems, p, hp, hpb⟩ := attempts_stem h hb
    obtain ⟨probes₀, ⟨before, m, after, hmoves, hopens⟩, hfixed⟩ := hstems.opened
    obtain ⟨op, hbegun, htimeouts⟩ := hopens.timeouts h
    have hmem : p.fixed ∈ probes₀.map BatchProbe.fixed := hfixed ▸ List.mem_map_of_mem hp
    obtain ⟨q, hq, hqp⟩ := List.mem_map.mp hmem
    have hqb : q.fixed = (b.connection, b.timeoutMs, b.task) := hqp.trans hpb
    have hconnection : q.connection = b.connection := congrArg (·.1) hqb
    have htimeout : q.timeoutMs = b.timeoutMs := congrArg (·.2.1) hqb
    have hfirst := htimeouts q hq
    rw [hconnection, htimeout] at hfirst
    exact ⟨before, m, after, f, options, probes₀, op, hmoves, hopens, hbegun, ⟨q, hq, hqb⟩,
      firstTimeout_pos hfirst, hfirst⟩
  · obtain ⟨owner, options', stage, probes', hflight, _⟩ := hholds
    exact (htended moves).can_end hflight
  · intro hpunctual
    subst hmoves
    rw [hconcat]
    rw [List.foldl_append, List.foldl_cons] at hholds ⊢
    obtain ⟨_, _, hafter⟩ := (runsPunctually_append s before (m :: after)).mp hpunctual
    have hprompt := hopens.run_prompt (htended before) hafter hholds
    refine ⟨hprompt.within, fun hidle => ?_⟩
    obtain ⟨owner, options', stage, probes', hflight, _⟩ := hholds
    obtain ⟨due, i, htimer⟩ := (((htended before).next m).run_moves after).waits hidle hflight
    exact ⟨due, i, htimer, hprompt.timers htimer⟩

/-- Nobody answers. A has a timeout of its own, and that of B does not count. -/
def silent : Manager :=
  idle ⟨[("A", ⟨[], some .hang⟩), ("B", ⟨[], some .hang⟩)]⟩ true

/-- A check and an iteration of a poll loop with another timeout overlap, and the pool's timeout
changes after the check has opened its batch. -/
def silence : List Move :=
  [.call (.add { uri := "A", timeoutMs := some 30 } none),
    .call (.add { uri := "B", timeoutMs := some 0 } none), .call (.setTimeout 50),
    .await (.checkConnections (some ["A", "B"]) []), .call (.setTimeout 60),
    .call (.startPolling { periodMs := 1000, pollType := .all, timeoutMs := some 40 } []),
    .turn (.loop 1), .turn (.probe 0 0), .turn (.probe 0 1), .turn (.probe 2 0),
    .turn (.probe 2 1), .clock 30, .turn (.probe 0 0), .turn (.probe 2 0), .turn (.flight 0),
    .turn (.flight 2), .clock 40, .turn (.probe 2 1), .turn (.flight 2), .turn (.loop 1)]

theorem silence_timely :
    let a : Connection := ⟨0, { uri := "A", timeoutMs := some 30 }⟩
    let b : Connection := ⟨1, { uri := "B", timeoutMs := some 0 }⟩
    let t := silence.foldl next silent
    Fresh silent ∧ silent.RunsPunctually silence ∧
    (silent.attempts silence).map (fun e => (e.connection, e.timeoutMs)) =
      [(a, 30), (b, 50), (a, 30), (b, 40)] ∧
    (∀ e ∈ silent.attempts silence, 1 ≤ e.timeoutMs) ∧ t.now = 40 ∧
    ∃ due i, (due, .probe 0 i) ∈ t.timers ∧ 40 ≤ due ∧ due ≤ 50 := by
  intro a b t
  have hfresh : Fresh silent := .new _ true []
  have hpunctual : silent.RunsPunctually silence := by decide +kernel
  have hnow : t.now = 40 := by decide +kernel
  obtain ⟨hprobes, hbatches⟩ := probes_timely (t := t) hfresh silence rfl
  have hopens : ((silence.take 3).foldl next silent).Opens
      (.await (.checkConnections (some ["A", "B"]) [])) 0 ⟨true, none⟩
      [⟨a, 30, 1, .queued⟩, ⟨b, 50, 2, .queued⟩] :=
    ⟨⟨.caller, .ranking, rfl⟩, by simp, by simp; decide +kernel⟩
  have hholds : t.Holds 0 [⟨a, 30, 1, .queued⟩, ⟨b, 50, 2, .queued⟩] :=
    ⟨.caller, ⟨true, none⟩, .ranking,
      [⟨a, 30, 1, .ended true⟩, ⟨b, 50, 2, .waiting (.error (.timeout 50))⟩], rfl, rfl⟩
  obtain ⟨_, htimely⟩ := hbatches (silence.take 3) _ (silence.drop 4) 0 _ _ rfl hopens hholds
  obtain ⟨_, hwaits⟩ := htimely hpunctual
  obtain ⟨due, i, htimer, hlate, hdue⟩ := hwaits (by decide +kernel)
  refine ⟨hfresh, hpunctual, by decide +kernel, fun e he => ?_, hnow, due, i, htimer, ?_, ?_⟩
  · obtain ⟨_, _, _, _, _, _, _, _, _, _, _, hpos, _⟩ := hprobes e he
    exact hpos
  · exact hnow ▸ hlate
  · have hdeadline :
        ((silence.take 3 ++ [Move.await (.checkConnections (some ["A", "B"]) [])]).foldl next
          silent).now + largestTimeout [⟨a, 30, 1, .queued⟩, ⟨b, 50, 2, .queued⟩] = 50 := by
      decide +kernel
    exact hdeadline ▸ hdue

end Manager

end RpcPool

import Mathlib.Data.Prod.Lex
import RpcPool.Proofs.Gathering

/-!
# An operation alone

An operation whose tasks are the only ones to take turns, between listeners that only observe. What
it does between two batches changes nothing but the current pointer, it goes on from batch to batch,
and it can always be brought to its end.

Results:
1. `resume_steered`: what is done between two batches.
2. `resume_ahead`: from batch to batch an operation has fewer groups ahead of it.
3. `Gathering.can_end`: an operation can be brought to its end.
4. `ended_next`: once it has ended, its tasks have nothing left to do.
-/

namespace RpcPool

/-- The members of a list that are not left out. -/
def eligible (excluded cs : List Connection) : List Connection :=
  cs.filter fun c => !Selection.excludes excluded c

/-- A search goes on to the next group that is not left out as a whole. -/
theorem Search.next_some {excluded conns : List Connection} {groups : List (List Connection)}
    {q : Search} (h : Search.next excluded groups = some (conns, q)) :
    ∃ skipped g, groups = skipped ++ g :: q.later ∧ (∀ g ∈ skipped, eligible excluded g = []) ∧
      conns = eligible excluded g ∧ conns ≠ [] ∧ q.excluded = excluded := by
  induction groups with
  | nil => exact absurd h (by simp [Search.next])
  | cons g later ih =>
    unfold Search.next at h
    dsimp only at h
    split at h
    · next hempty =>
      obtain ⟨skipped, g', rfl, hskipped, hconns⟩ := ih h
      refine ⟨g :: skipped, g', rfl, fun g'' hg => ?_, hconns⟩
      rcases List.mem_cons.mp hg with rfl | hg
      · exact List.isEmpty_iff.mp hempty
      · exact hskipped g'' hg
    · next hne =>
      cases h
      exact ⟨[], g, rfl, fun g hg => absurd hg List.not_mem_nil, rfl,
        fun hnil => hne (List.isEmpty_iff.mpr hnil), rfl⟩

theorem Search.next_none {excluded : List Connection} {groups : List (List Connection)}
    (h : Search.next excluded groups = none) : ∀ g ∈ groups, eligible excluded g = [] := by
  induction groups with
  | nil => exact fun g hg => absurd hg List.not_mem_nil
  | cons g later ih =>
    unfold Search.next at h
    dsimp only at h
    split at h
    · next hempty =>
      intro g' hg
      rcases List.mem_cons.mp hg with rfl | hg
      · exact List.isEmpty_iff.mp hempty
      · exact ih h g' hg
    · exact absurd h (by simp)

/-- What an operation still has ahead of it: a search, if it probes the current connection, and else
so many groups. -/
def Stage.ahead : Stage → Nat ×ₗ Nat
  | .status _ => toLex (1, 0)
  | .failover _ _ q => toLex (0, q.later.length)
  | .search q => toLex (0, q.later.length)
  | .ranking => toLex (0, 0)
  | .sweep q => toLex (0, q.later.length)

/-- A batch that an operation goes on to has connections, and less is ahead after it. -/
def Progress.Before (bound : Nat ×ₗ Nat) : Progress → Prop
  | .await _ stage conns => conns ≠ [] ∧ stage.ahead < bound
  | .done _ => True

theorem Search.next_before {excluded conns : List Connection} {groups : List (List Connection)}
    {q : Search} (h : Search.next excluded groups = some (conns, q)) :
    conns ≠ [] ∧ toLex (0, q.later.length) < toLex (0, groups.length) := by
  obtain ⟨skipped, g, rfl, _, _, hne, _⟩ := Search.next_some h
  refine ⟨hne, Prod.Lex.toLex_lt_toLex.mpr (Or.inr ⟨rfl, ?_⟩)⟩
  simp only [List.length_append, List.length_cons]
  omega

namespace Manager

variable {s t u : Manager} {f : FlightId} {owner : Owner} {options : CheckOptions} {stage : Stage}
  {conns : List Connection}

/-! ## Between two batches -/

/-- Nothing has changed but the current pointer, and what listeners that only observe change. -/
structure Steered (s t : Manager) : Prop where
  observing : t.Observing
  outline : t.outline = ({ s with pool :=
    { s.pool with registry := { s.pool.registry with current := t.current } } } : Manager).outline

theorem Steered.refl (h : s.Observing) : Steered s s := ⟨h, rfl⟩

theorem Steered.pool (h : Steered s t) :
    t.pool = { s.pool with registry := { s.pool.registry with current := t.current } } :=
  outline_pool h.outline

theorem Steered.trans (h : Steered s t) (h' : Steered t u) : Steered s u := by
  refine ⟨h'.observing, ?_⟩
  have hmoved := outline_withPool h.outline
    { t.pool with registry := { t.pool.registry with current := u.current } }
  have hpool := h.pool
  rw [h'.outline, hmoved, hpool]

theorem Steered.connections (h : Steered s t) :
    t.pool.registry.connections = s.pool.registry.connections := by
  rw [h.pool]

theorem Steered.health (h : Steered s t) : t.pool.health = s.pool.health := by
  rw [h.pool]

theorem Steered.isUp (h : Steered s t) (c : Connection) : t.pool.isUp c = s.pool.isUp c := by
  rw [h.pool]
  rfl

theorem Steered.network (h : Steered s t) : t.network = s.network := by
  have hnetwork := congrArg Manager.network h.outline
  exact hnetwork

theorem Followed.steered (h : Followed s t) (hs : s.Observing) : Steered s t := by
  obtain ⟨q, w, hmoved, rfl⟩ := h
  have hq := hmoved.pool
  subst hq
  let moved : Manager := { s with pool :=
    { s.pool with registry := { s.pool.registry with current := some w.target } } }
  have hnoted : (moved.record (.switched w)).Observing := hs
  obtain ⟨houtline, hobserving⟩ := announceWith_observes hnoted (some w.target)
  have hcurrent := congrArg Manager.current houtline
  refine ⟨hobserving, houtline.trans ?_⟩
  rw [show current (announceWith act _ _) = some w.target from hcurrent]
  rfl

theorem FollowStretch.steered (h : FollowStretch s t) (hs : s.Observing) : Steered s t := by
  induction h with
  | refl => exact .refl hs
  | tail _ hmove ih => exact ih.trans (hmove.steered ih.observing)

theorem publishStatus_steered (hs : s.Observing) (probed : List (Connection × Bool)) :
    Steered s (s.publishStatus probed) := by
  obtain ⟨houtline, hobserving⟩ := publishStatus_outline hs probed
  have hpool := outline_pool houtline
  refine ⟨hobserving, houtline.trans ?_⟩
  show s.outline = _
  rw [show (s.publishStatus probed).current = s.current from congrArg (·.registry.current) hpool]

theorem rank_steered (hs : s.Observing) (options : CheckOptions)
    (probed : List (Connection × Bool)) : Steered s (s.rank options probed).1 := by
  have hpublish := publishStatus_steered hs probed
  exact hpublish.trans ((rank_followed s options probed).steered hpublish.observing)

theorem resume_steered (hs : s.Observing) (options : CheckOptions) (stage : Stage)
    (probed : List (Connection × Bool)) : Steered s (s.resume options stage probed).1 := by
  have hpublish := publishStatus_steered hs probed
  exact hpublish.trans ((resume_followed s options stage probed).steered hpublish.observing)

theorem Still.observing (h : Still s t) (hs : s.Observing) : t.Observing := by
  intro name hname l hl
  rw [h.subscribers] at hname
  rw [h.listeners] at hl
  exact hs name hname l hl

/-! ## From batch to batch -/

theorem sweep_before (options : CheckOptions) (excluded : List Connection)
    (groups : List (List Connection)) (s : Manager) :
    (s.sweep options excluded groups).2.Before (toLex (0, groups.length)) := by
  induction groups generalizing s with
  | nil => exact trivial
  | cons g later ih =>
    have hshorter : toLex (0, later.length) < toLex (0, (g :: later).length) :=
      Prod.Lex.toLex_lt_toLex.mpr (Or.inr ⟨rfl, Nat.lt_succ_self _⟩)
    unfold sweep
    dsimp only
    split
    · split
      · exact trivial
      · have hrest := ih (s.rank options []).1
        generalize (sweep _ options excluded later).2 = progress at hrest ⊢
        cases progress with
        | await options stage conns => exact ⟨hrest.1, hrest.2.trans hshorter⟩
        | done reply => exact trivial
    · next hne => exact ⟨fun hnil => hne (List.isEmpty_iff.mpr hnil), hshorter⟩

/-- From batch to batch, less is ahead of an operation. -/
theorem resume_ahead (s : Manager) (options : CheckOptions) (stage : Stage)
    (probed : List (Connection × Bool)) :
    (s.resume options stage probed).2.Before stage.ahead := by
  cases stage with
  | status watched =>
    dsimp only [resume]
    split
    · split
      · exact trivial
      · next hnext =>
        exact ⟨(Search.next_before hnext).1, Prod.Lex.toLex_lt_toLex.mpr (Or.inl Nat.one_pos)⟩
    · exact trivial
  | failover watched changed q =>
    dsimp only [resume]
    split
    · exact trivial
    · split
      · exact trivial
      · next hnext => exact Search.next_before hnext
  | search q =>
    dsimp only [resume]
    split
    · exact trivial
    · split
      · exact trivial
      · next hnext => exact Search.next_before hnext
  | ranking => exact trivial
  | sweep q =>
    dsimp only [resume]
    split
    · exact trivial
    · exact sweep_before options q.excluded q.later _

/-! ## The end of an operation -/

theorem land_gone (s : Manager) (f : FlightId) (owner : Owner) (reply : Reply) :
    (s.land f owner reply).flights.lookup f = none := by
  rw [land_flights]
  exact lookup_without_self _ _

/-- Whatever batch an operation waits for, it can be brought to its end. -/
theorem Gathering.can_end (h : Gathering f owner options stage conns s t) (hs : s.Observing) :
    ∃ moves : List Move, (∀ m ∈ moves, m.within f) ∧
      (moves.foldl Manager.next t).flights.lookup f = none := by
  -- by induction on what the operation has ahead of it after this batch
  induction hahead : stage.ahead using WellFoundedLT.induction
    generalizing options stage conns s t with
  | _ bound ih =>
    obtain ⟨moves, j, hmoves, hgathered⟩ := h.can_join
    obtain ⟨probed, _, _, hon⟩ := hgathered.goes_on
    have hsteered := resume_steered (hgathered.still.observing hs) options stage probed
    have hbefore := resume_ahead j options stage probed
    generalize j.resume options stage probed = r at hon hsteered hbefore
    obtain ⟨a, progress⟩ := r
    cases progress with
    | done reply =>
      refine ⟨moves, hmoves, ?_⟩
      rw [hon]
      exact land_gone a f owner reply
    | await options' stage' conns' =>
      obtain ⟨hne, hless⟩ := hbefore
      have hnext : Gathering f owner options' stage' conns' a (moves.foldl Manager.next t) := by
        rw [hon]
        exact gathering_launch f owner options' stage' (hsteered.network ▸ hgathered.calm) hne
      obtain ⟨more, hmore, hgone⟩ := ih _ (hahead ▸ hless) hnext hsteered.observing rfl
      refine ⟨moves ++ more, fun m hm => ?_, ?_⟩
      · exact (List.mem_append.mp hm).elim (hmoves m) (hmore m)
      · rw [List.foldl_append]
        exact hgone

/-- An operation that waits for a batch has not ended, and it can. -/
theorem Gathering.unfinished (h : Gathering f owner options stage conns s t) (hs : s.Observing) :
    (∃ more : List Move, (∀ m ∈ more, m.within f) ∧
      (more.foldl Manager.next t).flights.lookup f = none) ∧ t.flights.lookup f ≠ none := by
  obtain ⟨probes, hflight, _⟩ := h.batch
  refine ⟨h.can_end hs, ?_⟩
  rw [hflight]
  exact Option.some_ne_none _

/-- Once an operation has ended, nothing that its tasks are left with changes anything. -/
theorem ended_next {m : Move} (hm : m.within f) (h : t.flights.lookup f = none) :
    ∃ now timers ready, t.next m = { t with now := now, timers := timers, ready := ready } := by
  cases m with
  | turn task =>
    by_cases hready : task ∈ t.ready
    · cases task with
      | probe flight index =>
        cases hm
        refine ⟨t.now, t.timers, t.ready.erase (.probe f index), ?_⟩
        rw [next_probe hready]
        simp only [runProbe, h]
      | flight flight =>
        cases hm
        refine ⟨t.now, t.timers, t.ready.erase (.flight f), ?_⟩
        rw [next_flight hready]
        simp only [runFlight, h]
      | loop loop => exact absurd hm (by simp [Move.within])
    · exact ⟨t.now, t.timers, t.ready, next_not_ready hready⟩
  | clock time =>
    obtain ⟨timers, ready, hclock⟩ := moveClock_eq t time
    exact ⟨time, timers, ready, hclock⟩
  | _ => exact absurd hm (by simp [Move.within])

end Manager

end RpcPool

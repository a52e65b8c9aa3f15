import RpcPool.Proofs.Callbacks
import RpcPool.Proofs.Foremost
import RpcPool.Proofs.Observers

/-!
# Stability of the ranking

An improvement brings the pool to a point where another one does nothing, and the pool stays there
until a probe or a change of the registry gives it something new to go by.

Results:
1. `replacement_congr`: the ranking depends on nothing but the connections of the list, the current one
   and their health.
2. `improve_improve`: an improvement leaves nothing to improve.
3. `ranking_stable`: after one improvement further ones find nothing, whatever goes on in between that
   leaves the ranked connections as they are.
-/

namespace RpcPool

namespace Selection

variable {health health' : InstanceId → Health} {cs : List Connection} {c d : Connection}

/-! ## What the ranking depends on -/

theorem fastestConnected_congr (h : ∀ c ∈ cs, health' c.id = health c.id) :
    fastestConnected health' cs = fastestConnected health cs := by
  have hfold : cs.foldl (faster health') none = cs.foldl (faster health) none := by
    refine List.foldl_ext _ _ _ fun best c hc => ?_
    unfold faster latency
    rw [h c hc]
  unfold fastestConnected
  rw [hfold]

theorem candidate_congr (h : ∀ c ∈ cs, health' c.id = health c.id) :
    candidate health' cs = candidate health cs := by
  have hgroups : ∀ gs : List (List Connection), (∀ g ∈ gs, ∀ c ∈ g, c ∈ cs) →
      gs.findSome? (fastestConnected health') = gs.findSome? (fastestConnected health) := by
    intro gs
    induction gs with
    | nil => intro _; rfl
    | cons g rest ih =>
      intro hgs
      have hg : fastestConnected health' g = fastestConnected health g :=
        fastestConnected_congr fun c hc => h c (hgs g List.mem_cons_self c hc)
      rw [List.findSome?_cons, List.findSome?_cons, hg,
        ih fun g' hg' => hgs g' (List.mem_cons_of_mem _ hg')]
  exact hgroups (groups cs) fun g hg c hc => mem_of_mem_groups hg hc

theorem replacement_congr {current : Option Connection}
    (h : ∀ c ∈ cs, health' c.id = health c.id) (hcurrent : ∀ c, current = some c → c ∈ cs) :
    replacement health' cs current = replacement health cs current := by
  unfold replacement
  rw [candidate_congr h]
  cases hd : candidate health cs with
  | none => rfl
  | some d =>
    have hmem := (candidate_mem hd).1
    cases current with
    | none => rfl
    | some c =>
      have hc := h c (hcurrent c rfl)
      have hdisplaces : displaces health' d c = displaces health d c := by
        unfold displaces
        rw [h d hmem, hc]
      dsimp only
      rw [hc, hdisplaces]

/-- The candidate does not replace itself. -/
theorem replacement_candidate_self (h : candidate health cs = some d) :
    replacement health cs (some d) = none := by
  rw [replacement_of_up h (candidate_mem h).2]
  exact if_neg fun hother => hother.1 rfl

end Selection

namespace Pool

variable {p q : Pool}

/-! ## A fixed point -/

/-- After an improvement there is nothing to improve: either the candidate has become current, or it
has been refused and is refused again. -/
theorem improve_improve (p : Pool) : p.improve.1.improve.2 = none := by
  cases hd : Selection.replacement p.health.get p.registry.connections p.registry.current with
  | none =>
    have hstay : p.improve = (p, none) := by
      unfold improve
      rw [hd]
    rw [hstay]
    exact congrArg Prod.snd hstay
  | some d =>
    have himprove : p.improve = p.switch d .better := by
      unfold improve
      rw [hd]
    rcases p.switch_eq d .better with ⟨_, _, hswitch⟩ | ⟨_, hswitch⟩
    · rw [himprove, hswitch]
      have hself := Selection.replacement_candidate_self (Selection.replacement_candidate hd)
      unfold improve
      dsimp only
      rw [hself]
    · rw [himprove, hswitch]
      exact congrArg Prod.snd (himprove.trans hswitch)

/-- Two pools rank alike: they have the same connections, of the same health, and the same current
one. -/
structure RanksAlike (p q : Pool) : Prop where
  connections : q.registry.connections = p.registry.connections
  current : q.registry.current = p.registry.current
  health : ∀ c ∈ p.registry.connections, q.healthOf c = p.healthOf c

theorem RanksAlike.of_eq (h : q = p) : p.RanksAlike q := h ▸ ⟨rfl, rfl, fun _ _ => rfl⟩

theorem RanksAlike.trans {r : Pool} (hpq : p.RanksAlike q) (hqr : q.RanksAlike r) :
    p.RanksAlike r where
  connections := hqr.connections.trans hpq.connections
  current := hqr.current.trans hpq.current
  health c hc := (hqr.health c (hpq.connections ▸ hc)).trans (hpq.health c hc)

/-- Pools that rank alike improve alike. -/
theorem RanksAlike.improve (h : p.RanksAlike q) (wf : p.WellFormed) :
    q.improve.2 = p.improve.2 := by
  have hreplacement : Selection.replacement q.health.get q.registry.connections q.registry.current =
      Selection.replacement p.health.get p.registry.connections p.registry.current := by
    rw [h.connections, h.current]
    exact Selection.replacement_congr h.health wf.registry.current_mem
  have hswitch : ∀ d, (q.switch d .better).2 = (p.switch d .better).2 := by
    intro d
    have hcurrent : q.registry.isCurrent d = p.registry.isCurrent d := by
      unfold Registry.isCurrent
      rw [h.current]
    have hcontains : q.registry.contains d = p.registry.contains d := by
      unfold Registry.contains
      rw [h.connections]
    unfold switch Registry.switchTo
    rw [hcurrent, hcontains]
    by_cases hstay : (p.registry.isCurrent d || !p.registry.contains d) = true
    · rw [if_pos hstay, if_pos hstay]
    · rw [if_neg hstay, if_neg hstay, h.current]
  unfold Pool.improve
  rw [hreplacement]
  split
  · exact hswitch _
  · rfl

end Pool

namespace Manager

variable {s t u : Manager}

/-! ## Calls in a row -/

theorem improve_pool (hs : s.Observing) (hheld : s.held = true) :
    (s.next (.call .improve)).pool = s.pool.improve.1 := by
  have hcall : s.next (.call .improve) = s.follow s.pool.improve := by
    show (s.perform .improve).1 = s.follow s.pool.improve
    rw [perform_eq hheld, act_eq, follow_eq]
    rfl
  rw [hcall]
  exact outline_pool (follow_outline hs Pool.improve_none).1

/-- An improvement that finds nothing changes nothing and notifies nobody. -/
theorem perform_improve (hheld : s.held = true) (h : s.pool.improve.2 = none) :
    s.perform .improve = (s, .connection none) := by
  rw [perform_eq hheld, act_eq]
  show (followWith act s s.pool.improve, Reply.connection (s.pool.improve.2.map _)) = _
  unfold followWith
  rw [h]
  rfl

/-- From one state to the other the manager is only asked to improve, or goes on in ways that leave
the ranked connections as they are: no probe shows anything new about them, and none is added,
removed or selected. -/
inductive Uneventful (t : Manager) : Manager → Prop
  | refl : Uneventful t t
  | improve {u : Manager} : Uneventful t u → Uneventful t (u.next (.call .improve))
  | other {u : Manager} {m : Move} : Uneventful t u → u.pool.RanksAlike (u.next m).pool →
      Uneventful t (u.next m)

theorem Uneventful.ranksAlike (h : Uneventful t u) (wf : t.pool.WellFormed)
    (settled : t.pool.improve.2 = none) : t.pool.RanksAlike u.pool := by
  induction h with
  | refl => exact .of_eq rfl
  | @improve u _ ih =>
    -- a further improvement finds what the first one left
    have hnone : u.pool.improve.2 = none := (ih.improve wf).trans settled
    cases hheld : u.held with
    | false =>
      have hgone : u.next (.call .improve) = u := by
        show (u.perform .improve).1 = u
        unfold perform
        rw [hheld]
        rfl
      rw [hgone]
      exact ih
    | true =>
      have hsame : u.next (.call .improve) = u := congrArg Prod.fst (perform_improve hheld hnone)
      rw [hsame]
      exact ih
  | other _ halike ih => exact ih.trans halike

/-- Ranking is stable. After one improvement, whether it has moved the current pointer or not, each
further one returns nothing and leaves the manager exactly as it is, so nobody is notified; and the
current pointer stays where the first one has left it. -/
theorem ranking_stable (h : Reachable s) (hs : s.Observing) (hheld : s.held = true)
    (huneventful : Uneventful (s.next (.call .improve)) u) :
    u.current = (s.next (.call .improve)).current ∧
      (u.held = true → u.perform .improve = (u, .connection none)) := by
  have wf : (s.next (.call .improve)).pool.WellFormed := (Reachable.next _ h).sound.pool
  have settled : (s.next (.call .improve)).pool.improve.2 = none := by
    rw [improve_pool hs hheld]
    exact s.pool.improve_improve
  have halike := huneventful.ranksAlike wf settled
  refine ⟨halike.current, fun huheld => ?_⟩
  exact perform_improve huheld ((halike.improve wf).trans settled)

/-- A is current, and B of the same priority has been faster three times. A listener asks a question
when it is notified. -/
def outrun : Manager :=
  let answered (name : String) (ms : UInt64) : Move := .call (.observe name (.ok ⟨true, .ofMillis ms⟩))
  [.call (.addUri "A" none), .call (.addUri "B" none), .call (.selectUri "A"),
    .call (.addListener "watch" [.has "B"] 2), answered "A" 20, answered "B" 5, answered "A" 30,
    answered "B" 5, answered "A" 20, answered "B" 6].foldl next (idle ⟨[]⟩ true)

/-- The first improvement moves to B; after some time, another one and a question, a third one finds
nothing. -/
theorem outrun_settles :
    let t := outrun.next (.call .improve)
    let u := ((t.next (.clock 10)).next (.call .improve)).next (.call (.has "A"))
    outrun.current = some ⟨0, { uri := "A" }⟩ ∧ u.current = some ⟨1, { uri := "B" }⟩ ∧
      u.perform .improve = (u, .connection none) := by
  intro t u
  have hreachable : Reachable outrun := .foldl _ (.new _ true [])
  have hclock : (t.next (.clock 10)).pool = t.pool := by decide +kernel
  have hquestion : u.pool = ((t.next (.clock 10)).next (.call .improve)).pool := by decide +kernel
  have huneventful : Uneventful t u :=
    .other (.improve (.other .refl (.of_eq hclock))) (.of_eq hquestion)
  have hstable := ranking_stable hreachable (by decide +kernel) (by decide +kernel) huneventful
  exact ⟨by decide +kernel, hstable.1.trans (by decide +kernel), hstable.2 (by decide +kernel)⟩

end Manager

end RpcPool

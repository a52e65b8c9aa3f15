import RpcPool.Manager.Scenario
import RpcPool.Proofs.Turns

/-!
# Runs

What can happen to a manager, one move at a time: the user makes a call or starts an operation, a
task takes its turn, the clock moves. Moves may follow each other in any order, so a run is any
interleaving of what is under way, and listeners may answer with whatever calls they like.

Results:
1. `next_flat`, `ofConfig_flat`: a move, and the making of a manager, come down to critical
   sections.
2. `Reachable.sound`: in every state of every run the registry is well formed, health comes from
   probes, and everything named is an instance that was made in the run.
3. `Reachable.invariant`: what holds at the start and is kept by every section holds throughout a
   run.
4. `Reachable.step`: the states of a scenario are states of a run.
-/

namespace RpcPool

/-- One move of a run. -/
inductive Move
  /-- The user makes a call. -/
  | call (c : Call)
  /-- The user starts an operation, which runs up to its first batch. -/
  | await (r : Request)
  /-- A task takes its turn. -/
  | turn (t : Task)
  /-- The clock comes to a time. -/
  | clock (time : Nat)
  /-- The answer of an operation is taken. -/
  | collect (id : FlightId)
  /-- The name of a task is forgotten. -/
  | forget (name : String)
  /-- So many tasks that do nothing are started. -/
  | idle (tasks : Nat)

namespace Manager

open Relation

/-- The manager after a move. -/
def next (s : Manager) : Move → Manager
  | .call c => (s.perform c).1
  | .await r => if s.held then s.start (s.operation r) else s
  | .turn t => s.runTask t
  | .clock time => s.moveClock time
  | .collect id => (s.takeAnswer id).1
  | .forget name => { s with tasks := without name s.tasks }
  | .idle tasks => { s with started := s.started + tasks }

/-- The states of runs. A run starts with a manager that was just made, empty or from a
configuration; what listeners will answer, once they are added, may be laid down before. -/
inductive Reachable : Manager → Prop
  | new (network : Network) (hasRuntime : Bool) (known : List (String × Listener)) :
      Reachable { idle network hasRuntime with listeners := known }
  | load {config : Config} {network : Network} {hasRuntime : Bool} {s : Manager}
      (known : List (String × Listener)) :
      ofConfig config network hasRuntime = .ok s → Reachable { s with listeners := known }
  | next {s : Manager} (m : Move) : Reachable s → Reachable (s.next m)

variable {s t : Manager} {K : Connection → Prop}

/-! ## Moves are made of sections -/

theorem TaskStretch.flat (h : TaskStretch K s t) : Flat K s t :=
  Stretch.flat (fun _ hinner => hinner.flat) h

theorem perform_flat (s : Manager) (c : Call) : Flat K s (s.perform c).1 := by
  unfold perform
  split
  · exact performTo_flat _ s c
  · exact .refl

/-- The user's own operation, up to its first batch. -/
theorem start_stretch {op : Operation} (hK : ∀ c ∈ s.instances, K c)
    (hop : ∀ c ∈ op.instances, K c) : TaskStretch K s (s.start op) := by
  have hid : Frame K s { s with nextId := s.nextId + 1 } := ⟨rfl, fun _ h => Or.inl h⟩
  have hflight : Frame K s
      ({ s with nextId := s.nextId + 1 }.setFlight s.nextId ⟨.caller, .queued op⟩) :=
    hid.trans (setFlight_frame fun c hc => Or.inr (hop c hc))
  exact (Stretch.work hflight).trans
    (runFlight_stretch fun c hc => (hflight.instances c hc).elim (hK c) fun h => h)

theorem await_stretch (s : Manager) (r : Request) :
    TaskStretch (· ∈ s.instances) s (s.next (.await r)) := by
  dsimp only [next]
  split
  · exact start_stretch (fun _ h => h) fun c hc => mem_instances_operation hc
  · exact .refl

theorem next_flat (s : Manager) (m : Move) : Flat (· ∈ s.instances) s (s.next m) := by
  cases m with
  | call c => exact perform_flat s c
  | await r => exact (await_stretch s r).flat
  | turn t => exact (runTask_stretch s t).flat
  | clock time => exact Flat.own (.work (moveClock_frame s time))
  | collect id => exact Flat.own (.work ⟨rfl, fun _ h => Or.inl h⟩)
  | forget name => exact Flat.own (.work ⟨rfl, fun _ h => Or.inl h⟩)
  | idle tasks => exact Flat.own (.work ⟨rfl, fun _ h => Or.inl h⟩)

theorem registerAll_flat {entries : List Config.Entry} (h : s.registerAll entries = .ok t) :
    Flat K s t := by
  induction entries generalizing s with
  | nil =>
    cases h
    exact .refl
  | cons e rest ih =>
    unfold registerAll at h
    dsimp only at h
    split at h
    · exact absurd h (by simp)
    · next r hr => exact .head (Or.inr (.register none hr)) (ih h)

theorem listen_flat (s : Manager) (known : List (String × Listener)) :
    Flat K s { s with listeners := known } :=
  .single (Or.inr (.arrange rfl rfl rfl fun _ h => h))

/-- A manager is made from a configuration by calls on an empty one. -/
theorem ofConfig_flat {config : Config} {network : Network} {hasRuntime : Bool}
    (h : ofConfig config network hasRuntime = .ok s) (known : List (String × Listener)) :
    Flat K (idle network hasRuntime) { s with listeners := known } := by
  unfold ofConfig at h
  split at h
  · exact absurd h (by simp)
  · next hms =>
    dsimp only at h
    split at h
    · exact absurd h (by simp)
    · next t ht =>
      have htimeout : Explicit (idle network hasRuntime)
          ((idle network hasRuntime).setRegistry
            { Registry.empty with timeoutMs := config.timeoutMs }) := .setTimeout hms
      have hswitch : Explicit
          ((idle network hasRuntime).setRegistry
            { Registry.empty with timeoutMs := config.timeoutMs })
          ((idle network hasRuntime).setRegistry
            { Registry.empty with
              timeoutMs := config.timeoutMs, autoSwitch := config.autoSwitch }) :=
        .setAutoSwitch _ config.autoSwitch
      have hentries : Flat K (idle network hasRuntime) t :=
        .head (Or.inr htimeout) (.head (Or.inr hswitch) (registerAll_flat ht))
      have hknown : Flat K s { s with listeners := known } := listen_flat s known
      refine ReflTransGen.trans ?_ hknown
      split at h
      · refine hentries.trans
          (TaskStretch.flat (startPolling_quiet (fun c hc => Or.inl ?_) h).stretch)
        exact mem_instances_of_registered (List.mem_filter.mp hc).1
      · cases h
        exact hentries

/-! ## What every section keeps -/

/-- Everything a manager names is an instance that was made in the run, its registry is well formed,
and health comes from probes. -/
structure Sound (s : Manager) : Prop where
  genuine : ∀ c ∈ s.instances, s.Genuine c
  registry : s.pool.registry.WellFormed
  health : s.pool.health.Observed

theorem Sound.pool (h : s.Sound) : s.pool.WellFormed :=
  ⟨h.registry, fun _ hc _ hd => (h.genuine _ (mem_instances_of_registered hc)).eq
    (h.genuine _ (mem_instances_of_registered hd)), h.health⟩

theorem Sound.idle (network : Network) (hasRuntime : Bool) : (idle network hasRuntime).Sound :=
  ⟨fun _ h => absurd h List.not_mem_nil, .empty, .empty⟩

theorem Sound.work (h : s.Sound) (hK : ∀ c, K c → s.Genuine c) (hf : Frame K s t) : t.Sound where
  genuine c hc := by
    have hmade : s.made <+: t.made := hf.made ▸ List.prefix_rfl
    exact ((hf.instances c hc).elim (h.genuine c) (hK c)).mono hmade
  registry := hf.pool ▸ h.registry
  health := hf.pool ▸ h.health

theorem Sound.setRegistry {r : Registry} (h : s.Sound) (hr : r.WellFormed)
    (hgenuine : ∀ c ∈ r.connections, s.Genuine c) : (s.setRegistry r).Sound where
  genuine c hc := by
    rcases mem_instances_setRegistry hc with hc | hc | hc
    · exact h.genuine c hc
    · exact hgenuine c hc
    · exact hgenuine c (hr.current_mem c hc)
  registry := hr
  health := h.health

theorem Sound.instantiate (h : s.Sound) (e : Endpoint) : (s.instantiate e).1.Sound where
  genuine c hc := (h.genuine c hc).mono (List.prefix_append s.made [e])
  registry := h.registry
  health := h.health

theorem Sound.label {c : Connection} (h : s.Sound) (hc : s.Genuine c) (label : Option String) :
    (s.label label c).Sound := by
  cases label with
  | none => exact h
  | some l =>
    refine ⟨fun d hd => ?_, h.registry, h.health⟩
    rcases mem_instances_label hd with hd | rfl
    · exact h.genuine d hd
    · exact hc

theorem Sound.own (h : s.Sound) (hK : ∀ c, K c → s.Genuine c) (ho : Own K s t) : t.Sound := by
  cases ho with
  | work hf => exact h.work hK hf
  | note _ => exact ⟨h.genuine, h.registry, h.health⟩
  | probe c outcome => exact ⟨h.genuine, h.registry, (h.pool.observe c outcome).health⟩
  | @switch q w hauto =>
    -- the target was known before the wait: by its number it is the registered instance
    have hmoved := hauto.moved
    have htarget : s.Genuine w.target := hauto.target_known.elim (hK _) fun hmem =>
      h.genuine _ (mem_instances_of_registered hmem)
    have hwf : q.WellFormed := h.pool.moved hmoved fun k hk hid =>
      (h.genuine k (mem_instances_of_registered hk)).eq htarget hid
    refine ⟨fun c hc => ?_, hwf.registry, hwf.health⟩
    rw [hmoved.pool] at hc
    rcases mem_instances_setRegistry (s := s) hc with hc | hc | hc
    · exact h.genuine c hc
    · exact h.genuine c (mem_instances_of_registered hc)
    · cases hc
      exact htarget

theorem Sound.explicit (h : s.Sound) (he : Explicit s t) : t.Sound := by
  have registered (c : Connection) (hc : c ∈ s.pool.registry.connections) : s.Genuine c :=
    h.genuine c (mem_instances_of_registered hc)
  cases he with
  | make e label => exact (h.instantiate e).label (genuine_new s e rfl) label
  | @register e r label hr =>
    have hnew : (s.instantiate e).1.Genuine ⟨s.made.length, e⟩ := genuine_new s e rfl
    refine Sound.label ((h.instantiate e).setRegistry (h.registry.add hr) fun c hc => ?_) hnew label
    obtain ⟨_, _, rfl⟩ := Registry.add_ok hr
    rcases List.mem_append.mp hc with hc | hc
    · exact (registered c hc).mono (List.prefix_append s.made [e])
    · exact List.mem_singleton.mp hc ▸ hnew
  | remove hr =>
    refine h.setRegistry (h.registry.remove hr) fun c hc => registered c ?_
    obtain ⟨_, _, rfl⟩ := Registry.remove_ok hr
    exact List.eraseP_subset hc
  | @select c r change hmem hr =>
    refine h.setRegistry (h.registry.select hr) fun d hd => ?_
    rcases Registry.select_ok hr with ⟨_, rfl⟩ | ⟨_, _, rfl⟩
    · exact registered d hd
    · rcases Registry.mem_place hd with rfl | hd
      · exact h.genuine d hmem
      · exact registered d hd
  | @selectUri uri r change hr =>
    have hselect := Registry.selectUri_ok hr
    refine (h.instantiate { uri }).setRegistry (h.registry.select hselect) fun d hd => ?_
    have hmono (c : Connection) (hc : c ∈ s.pool.registry.connections) :
        (s.instantiate { uri }).1.Genuine c :=
      (registered c hc).mono (List.prefix_append s.made [{ uri }])
    rcases Registry.select_ok hselect with ⟨_, rfl⟩ | ⟨_, _, rfl⟩
    · exact hmono d hd
    · rcases Registry.mem_place hd with rfl | hd
      -- the URI stands for the registered instance if there is one, or else for the new one
      · cases hget : s.pool.registry.get? uri with
        | none => exact genuine_new s { uri } rfl
        | some c => exact hmono c (Registry.get?_mem hget)
      · exact hmono d hd
  | disconnect => exact h.setRegistry h.registry.disconnect registered
  | clear => exact h.setRegistry h.registry.clear fun _ hc => absurd hc List.not_mem_nil
  | reset => exact h.setRegistry (.reset _) fun _ hc => absurd hc List.not_mem_nil
  | setAutoSwitch on => exact h.setRegistry { h.registry with } registered
  | setTimeout hms => exact h.setRegistry { h.registry with timeout_ne := hms } registered
  | observe c outcome => exact ⟨h.genuine, h.registry, (h.pool.observe c outcome).health⟩
  | label label hmem => exact h.label (h.genuine _ hmem) label
  | arrange hpool htrace hmade hinstances =>
    refine ⟨fun c hc => ?_, hpool ▸ h.registry, hpool ▸ h.health⟩
    have hprefix : s.made <+: t.made := hmade ▸ List.prefix_rfl
    exact (h.genuine c (hinstances c hc)).mono hprefix

theorem Own.made (h : Own K s t) : t.made = s.made := by
  cases h with
  | work hf => exact hf.made
  | note _ => rfl
  | probe _ _ => rfl
  | switch _ => rfl

theorem label_made (s : Manager) (label : Option String) (c : Connection) :
    (s.label label c).made = s.made := by
  obtain ⟨labels, hlabel⟩ := label_eq s label c
  rw [hlabel]

theorem Explicit.made (h : Explicit s t) : s.made <+: t.made := by
  cases h with
  | make e label => exact (label_made ..).symm ▸ List.prefix_append s.made [e]
  | @register e r label _ => exact (label_made ..).symm ▸ List.prefix_append s.made [e]
  | selectUri _ => exact List.prefix_append _ _
  | label label _ => exact (label_made ..).symm ▸ List.prefix_rfl
  | arrange _ _ hmade _ => exact hmade ▸ List.prefix_rfl
  | _ => exact List.prefix_rfl

/-- What was made stays made. -/
theorem Flat.made (h : Flat K s t) : s.made <+: t.made := by
  induction h with
  | refl => exact List.prefix_rfl
  | tail _ hsection ih =>
    rcases hsection with ho | he
    · exact ho.made.symm ▸ ih
    · exact ih.trans he.made

/-! ## Invariants -/

/-- What every section keeps is kept by a stretch of sections, and soundness with it. -/
theorem Flat.invariant {P : Manager → Prop}
    (own : ∀ {K : Connection → Prop} {a b : Manager}, a.Sound → (∀ c, K c → a.Genuine c) →
      Own K a b → P a → P b)
    (explicit : ∀ {a b : Manager}, a.Sound → Explicit a b → P a → P b)
    (hs : s.Sound) (hK : ∀ c, K c → s.Genuine c) (hp : P s) (h : Flat K s t) :
    t.Sound ∧ (∀ c, K c → t.Genuine c) ∧ P t := by
  induction h with
  | refl => exact ⟨hs, hK, hp⟩
  | tail _ hsection ih =>
    obtain ⟨hsound, hknown, hp⟩ := ih
    rcases hsection with ho | he
    · refine ⟨hsound.own hknown ho, fun c hc => ?_, own hsound hknown ho hp⟩
      exact (hknown c hc).mono (ho.made ▸ List.prefix_rfl)
    · exact ⟨hsound.explicit he, fun c hc => (hknown c hc).mono he.made, explicit hsound he hp⟩

theorem TaskStretch.sound (h : TaskStretch K s t) (hs : s.Sound)
    (hK : ∀ c, K c → s.Genuine c) : t.Sound :=
  (h.flat.invariant (P := fun _ => True) (fun _ _ _ _ => trivial) (fun _ _ _ => trivial) hs hK
    trivial).1

/-- What holds at the start and is kept by every section holds throughout a run. -/
theorem Reachable.invariant {P : Manager → Prop}
    (start : ∀ network hasRuntime, P (Manager.idle network hasRuntime))
    (own : ∀ {K : Connection → Prop} {a b : Manager}, a.Sound → (∀ c, K c → a.Genuine c) →
      Own K a b → P a → P b)
    (explicit : ∀ {a b : Manager}, a.Sound → Explicit a b → P a → P b)
    (h : Reachable s) : s.Sound ∧ P s := by
  have hstart (network : Network) (hasRuntime : Bool) (t : Manager)
      (hflat : Flat (fun _ => False) (Manager.idle network hasRuntime) t) : t.Sound ∧ P t := by
    obtain ⟨hsound, _, hp⟩ := hflat.invariant own explicit (.idle network hasRuntime)
      (fun _ h => h.elim) (start network hasRuntime)
    exact ⟨hsound, hp⟩
  induction h with
  | new network hasRuntime known =>
    exact hstart network hasRuntime _ (listen_flat _ known)
  | @load _ network hasRuntime _ known h =>
    exact hstart network hasRuntime _ (ofConfig_flat h known)
  | @next s m _ ih =>
    obtain ⟨hsound, _, hp⟩ := (next_flat s m).invariant own explicit ih.1 ih.1.genuine ih.2
    exact ⟨hsound, hp⟩

theorem Reachable.sound (h : Reachable s) : s.Sound :=
  (h.invariant (P := fun _ => True) (fun _ _ => trivial) (fun _ _ _ _ => trivial)
    fun _ _ _ => trivial).1

theorem Reachable.foldl (moves : List Move) (h : Reachable s) :
    Reachable (moves.foldl Manager.next s) := by
  induction moves generalizing s with
  | nil => exact h
  | cons m rest ih => exact ih (.next m h)

/-! ## Scenarios -/

theorem Reachable.settle (fuel : Nat) (h : Reachable s) : Reachable (Manager.settle fuel s) := by
  induction fuel generalizing s with
  | zero => exact h
  | succ fuel ih =>
    unfold Manager.settle
    split
    · exact h
    · next t _ => exact ih (.next (.turn t) h)

theorem Reachable.runUntil (fuel : Nat) (time : Nat) (h : Reachable s) :
    Reachable (Manager.runUntil fuel s time) := by
  induction fuel generalizing s with
  | zero => exact h
  | succ fuel ih =>
    unfold Manager.runUntil
    split
    · next t _ => exact ih (.next (.turn t) h)
    · exact .next (.clock time) h
    · next due _ _ =>
      split
      · exact ih (.next (.clock due) h)
      · exact .next (.clock time) h

theorem Reachable.runToAnswer (fuel : Nat) (id : FlightId) (h : Reachable s) :
    Reachable (Manager.runToAnswer fuel s id) := by
  induction fuel generalizing s with
  | zero => exact h
  | succ fuel ih =>
    unfold Manager.runToAnswer
    split
    · exact h
    · split
      · next t _ => exact ih (.next (.turn t) h)
      · next due _ _ => exact ih (.next (.clock due) h)
      · exact h

theorem Reachable.giveWay (h : Reachable s) : Reachable s.giveWay :=
  .next (.idle (yields - 1)) (.settle stepLimit (.next (.idle 1) h))

/-- After every step of a scenario the manager is in a state of a run. -/
theorem Reachable.step (st : Step) (h : Reachable s) : Reachable (s.step st).1 := by
  refine Reachable.giveWay ?_
  cases st with
  | call c => exact .next (.call c) h
  | await r =>
    have hbegun : Reachable (s.next (.await r)) := .next (.await r) h
    dsimp only [Manager.next, reply] at hbegun ⊢
    split
    · next held =>
      rw [if_pos held] at hbegun
      exact .next (.collect _) (.runToAnswer stepLimit _ hbegun)
    · exact h
  | advance ms => exact .runUntil stepLimit (s.now + ms) h
  | join name =>
    dsimp only [reply]
    split
    · exact h
    · next id _ =>
      have hforget : Reachable (s.next (.forget name)) := .next (.forget name) h
      exact .next (.collect id) (.runToAnswer stepLimit id hforget)

end Manager

end RpcPool

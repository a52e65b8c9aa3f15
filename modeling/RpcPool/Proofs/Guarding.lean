import RpcPool.Proofs.Integrity
import RpcPool.Proofs.Ledger

/-!
# Where the pointer moves on its own

Checks, polls and re-rankings leave the list of connections alone, and make current only what is
registered and connected. Health changes only in the turn of a probe, which moves nothing, so what
counts is the health in the state that a move starts from, unless a listener has said otherwise in
between. A connection that was removed while it was being probed does not come back.

Results:
1. `next_guarded`, `improve_guarded`: what is no explicit call and no turn of a probe is guarded,
   section by section.
2. `probe_moves_nothing`: in the turn of a probe the registry stays as it is.
3. `Flat.told_guarded`: no event tells of an automatic move that was none.
4. `automatic_guarded`: all of this, for every state.
5. `GuardedRun.pool`: while listeners only observe, such a move is guarded as a whole.
-/

namespace RpcPool

open Relation

/-- What a section that is no explicit call may do to a pool: list and health stay, and if the current
connection is another one now, it was registered and connected before. An instance that was not
registered stays so and does not become current. -/
structure Pool.Guarded (p q : Pool) : Prop where
  connections : q.registry.connections = p.registry.connections
  health : q.health = p.health
  current : q.registry.current = p.registry.current ∨
    ∃ c, q.registry.current = some c ∧ p.registry.contains c = true ∧ p.isUp c = true
  absent : ∀ c, p.registry.contains c = false →
    q.registry.contains c = false ∧ (q.registry.isCurrent c = true → p.registry.isCurrent c = true)

theorem Pool.Guarded.refl (p : Pool) : p.Guarded p :=
  ⟨rfl, rfl, Or.inl rfl, fun _ hc => ⟨hc, fun hcurrent => hcurrent⟩⟩

theorem Pool.Guarded.trans {p q r : Pool} (h : p.Guarded q) (h' : q.Guarded r) : p.Guarded r where
  connections := h'.connections.trans h.connections
  health := h'.health.trans h.health
  current := by
    rcases h'.current with hsame | ⟨c, hc, hin, hup⟩
    · rw [hsame]
      exact h.current
    · have hin' : p.registry.contains c = true := by
        obtain ⟨d, hd, hid⟩ := Registry.contains_iff.mp hin
        exact Registry.contains_iff.mpr ⟨d, h.connections ▸ hd, hid⟩
      have hup' : p.isUp c = true := by
        rw [← hup]
        exact congrArg (fun t : Health.Table => (t.get c.id).connected) h.health.symm
      exact Or.inr ⟨c, hc, hin', hup'⟩
  absent c hc := by
    obtain ⟨hq, hcurrent⟩ := h.absent c hc
    obtain ⟨hr, hcurrent'⟩ := h'.absent c hq
    exact ⟨hr, fun hnow => hcurrent (hcurrent' hnow)⟩

theorem Pool.Moved.guarded {p q : Pool} {w : Switch} (h : Pool.Moved p q w) : p.Guarded q := by
  have hq := h.pool
  subst hq
  refine ⟨rfl, rfl, Or.inr ⟨w.target, rfl, h.target_registered, h.target_up⟩,
    fun c hc => ⟨hc, fun hcur => ?_⟩⟩
  -- whatever has become current has the number of a registered connection
  obtain ⟨k, hk, hid⟩ := Registry.isCurrent_iff.mp hcur
  cases hk
  obtain ⟨d, hd, hdid⟩ := Registry.contains_iff.mp h.target_registered
  have hin : p.registry.contains c = true := Registry.contains_iff.mpr ⟨d, hd, hdid.trans hid⟩
  rw [hc] at hin
  exact absurd hin (by simp)

/-- An event that tells of an automatic move comes at a moment at which the target of the move is
current, registered and connected. -/
def Moment.Guarded (n : Moment) : Prop := ∀ w, n.event = .switched w →
  n.pool.registry.current = some w.target ∧ n.pool.registry.contains w.target = true ∧
    n.pool.isUp w.target = true

/-- Whether a move is the turn of a probe. -/
def Move.probes : Move → Bool
  | .turn (.probe _ _) => true
  | _ => false

namespace Manager

variable {K : Connection → Prop} {P : SwitchReason → Prop} {s t : Manager}

/-- A section that is no explicit call: its pool is guarded, and listeners and names stay as they
are. -/
structure Guarded (a b : Manager) : Prop where
  unasked : Unasked a b
  pool : a.pool.Guarded b.pool
  made : b.made = a.made
  labels : b.labels = a.labels
  held : b.held = a.held
  subscribers : b.subscribers = a.subscribers
  listeners : b.listeners = a.listeners

/-- Guarded sections, with answers of listeners in between. -/
abbrev GuardedRun : Manager → Manager → Prop := ReflTransGen fun a b => Guarded a b ∨ Replied a b

/-! ## Sections without probes -/

theorem Unasked.guarded (h : Unasked s t) (hp : ∀ n ∈ since s t, n.event.Probeless P) :
    Guarded s t := by
  cases h with
  | work hkept =>
    have hpool := congrArg pool hkept
    have hmade := congrArg made hkept
    have hlabels := congrArg labels hkept
    have hheld := congrArg held hkept
    have hsubscribers := congrArg subscribers hkept
    have hlisteners := congrArg listeners hkept
    have hsame : t.pool = s.pool := hpool
    exact ⟨.work hkept, hsame ▸ .refl _, hmade, hlabels, hheld, hsubscribers, hlisteners⟩
  | note hplain => exact ⟨.note hplain, .refl _, rfl, rfl, rfl, rfl, rfl⟩
  | probe c outcome =>
    have hsince : since s ({ s with pool := s.pool.observe c outcome }.record
        (.probeEnded c outcome)) = [⟨s.now, s.pool.observe c outcome, .probeEnded c outcome⟩] :=
      since_of_trace rfl
    have hended : (Event.probeEnded c outcome).Probeless P :=
      hp _ (hsince ▸ List.mem_singleton_self _)
    exact hended.elim
  | switch hmoved => exact ⟨.switch hmoved, hmoved.guarded, rfl, rfl, rfl, rfl, rfl⟩

theorem Replied.later (h : Replied s t) : s.trace <:+ t.trace := by
  obtain ⟨name, calls, rest, _, rfl⟩ := h
  have hreacts : Probeless (fun _ => True) { s with listeners := upsert name ⟨rest⟩ s.listeners }
      (calls.foldl (reactWith act) { s with listeners := upsert name ⟨rest⟩ s.listeners }) :=
    foldl_reactWith_probeless (act_probeless trivial) calls _
  exact hreacts.later

theorem UnaskedRun.later (h : UnaskedRun s t) : s.trace <:+ t.trace := by
  induction h with
  | refl => exact List.suffix_rfl
  | tail _ link ih => exact ih.trans (link.elim Unasked.later Replied.later)

/-- As every section with an outcome leaves an event, there is none where no such event is. -/
theorem UnaskedRun.guarded (h : UnaskedRun s t) (hp : Probeless P s t) : GuardedRun s t := by
  have hevents := hp.events
  clear hp
  induction h with
  | refl => exact .refl
  | tail hrun link ih =>
    have hlater := UnaskedRun.later hrun
    have hlater' := link.elim Unasked.later Replied.later
    rw [since_append hlater hlater'] at hevents
    have hbefore := ih fun n hn => hevents n (List.mem_append_left _ hn)
    rcases link with hunasked | hreplied
    · have hguarded := hunasked.guarded fun n hn => hevents n (List.mem_append_right _ hn)
      exact hbefore.tail (Or.inl hguarded)
    · exact hbefore.tail (Or.inr hreplied)

theorem improve_guarded (s : Manager) : GuardedRun s (act s .improve).1 :=
  (improve_unasked s).guarded (act_probeless (P := fun _ => True) trivial s .improve)

theorem next_guarded (s : Manager) {m : Move} (hm : m.automatic = true) (hp : m.probes = false) :
    GuardedRun s (s.next m) := by
  refine (next_unasked s hm).guarded (next_probeless ?_)
  cases m with
  | turn task =>
    cases task with
    | probe f i => exact absurd hp (by simp [Move.probes])
    | _ => rfl
  | _ => rfl

theorem QuietStretch.registry (h : QuietStretch K s t) : t.pool.registry = s.pool.registry := by
  induction h with
  | refl => rfl
  | tail _ hsection ih =>
    cases hsection with
    | work hf => exact (congrArg Pool.registry hf.pool).trans ih
    | note _ _ => exact ih
    | probe _ _ => exact ih

/-- The turn of a probe at most observes what has come of it. -/
theorem probe_moves_nothing (s : Manager) {m : Move} (hm : m.probes = true) :
    (s.next m).pool.registry = s.pool.registry := by
  cases m with
  | turn task =>
    cases task with
    | probe f i =>
      dsimp only [next, runTask]
      split
      · let taken : Manager := { s with ready := s.ready.erase (.probe f i) }
        have hturn : QuietStretch (fun _ => True) taken (taken.runProbe f i) :=
          (runProbe_turn taken f i).quiet
        exact hturn.registry
      · rfl
    | _ => exact absurd hm (by simp [Move.probes])
  | _ => exact absurd hm (by simp [Move.probes])

/-! ## What a run tells of automatic moves -/

theorem nothing_told (h : t.trace = s.trace) :
    s.trace <:+ t.trace ∧ ∀ n ∈ since s t, n.Guarded := by
  rw [since_same h]
  exact ⟨h ▸ List.suffix_rfl, fun n hn => absurd hn List.not_mem_nil⟩

theorem Own.told_guarded (h : Own K s t) :
    s.trace <:+ t.trace ∧ ∀ n ∈ since s t, n.Guarded := by
  have told {e : Event} {p : Pool} (he : (⟨s.now, p, e⟩ : Moment).Guarded) :
      s.trace <:+ ({ s with pool := p }.record e).trace ∧
        ∀ n ∈ since s ({ s with pool := p }.record e), n.Guarded := by
    have hsince : since s ({ s with pool := p }.record e) = [⟨s.now, p, e⟩] := since_of_trace rfl
    refine ⟨List.suffix_cons _ _, fun n hn => ?_⟩
    rw [hsince, List.mem_singleton] at hn
    exact hn ▸ he
  cases h with
  | work hf => exact nothing_told hf.trace
  | note hplain =>
    exact told fun w hw => by
      cases hw
      exact absurd hplain (by simp [Event.plain])
  | probe c outcome => exact told fun w hw => absurd hw (by simp)
  | @switch q w hauto =>
    have hmoved := hauto.moved
    have hq := hmoved.pool
    subst hq
    exact told fun w' hw => by
      cases hw
      exact ⟨rfl, hmoved.target_registered, hmoved.target_up⟩

theorem Explicit.told_guarded (h : Explicit s t) :
    s.trace <:+ t.trace ∧ ∀ n ∈ since s t, n.Guarded := by
  rcases h.trace with htrace | ⟨c, outcome, htrace⟩
  · exact nothing_told htrace
  · have hsince : since s t = [⟨t.now, t.pool, .observed c outcome⟩] := since_of_trace htrace
    refine ⟨htrace ▸ List.suffix_cons _ _, fun n hn w hw => ?_⟩
    rw [hsince, List.mem_singleton] at hn
    rw [hn] at hw
    exact absurd hw (by simp)

/-- No event of a run tells of an automatic move that was none. -/
theorem Flat.told_guarded (h : Flat K s t) :
    s.trace <:+ t.trace ∧ ∀ n ∈ since s t, n.Guarded := by
  induction h with
  | refl => exact nothing_told rfl
  | tail _ hsection ih =>
    obtain ⟨hlater, hguarded⟩ := ih
    obtain ⟨hlater', hguarded'⟩ := hsection.elim Own.told_guarded Explicit.told_guarded
    refine ⟨hlater.trans hlater', fun n hn => ?_⟩
    rw [since_append hlater hlater'] at hn
    exact (List.mem_append.mp hn).elim (hguarded n) (hguarded' n)

/-- Whatever is not an explicit call consists of guarded sections, and of what listeners answer; only
the turn of a probe changes health instead, and it leaves the registry as it is. A re-ranking that a
listener asks for is guarded as well. Whenever a move of a run tells that the pointer has moved on its
own, it leads to a connection that is registered and connected at that moment. -/
theorem automatic_guarded (s : Manager) :
    (∀ m : Move, m.automatic = true → m.probes = false → GuardedRun s (s.next m)) ∧
      (∀ m : Move, m.probes = true → (s.next m).pool.registry = s.pool.registry) ∧
      GuardedRun s (act s .improve).1 ∧
      ∀ m : Move, ∀ n ∈ since s (s.next m), n.Guarded :=
  ⟨fun _ => next_guarded s, fun _ => probe_moves_nothing s, improve_guarded s,
    fun m => (next_flat s m).told_guarded.2⟩

/-- The endpoint A is removed while it is being probed together with B. Both probes succeed. -/
def removed : Manager :=
  [.call (.addUri "A" none), .call (.addUri "B" none),
    .call (.spawn "check" (.checkConnections (some ["A", "B"]) [])), .turn (.flight 0),
    .turn (.probe 0 0), .turn (.probe 0 1), .call (.remove "A"), .clock 10, .turn (.probe 0 0),
    .turn (.probe 0 1)].foldl next
      (idle ⟨[("A", ⟨[], some (working 5)⟩), ("B", ⟨[], some (working 10)⟩)]⟩ true)

theorem removed_guarded :
    removed.pool.isUp ⟨0, { uri := "A" }⟩ = true ∧
      (removed.next (.turn (.flight 0))).pool.registry.current = some ⟨1, { uri := "B" }⟩ ∧
      (removed.next (.turn (.flight 0))).pool.registry.has "A" = false ∧
      GuardedRun removed (removed.next (.turn (.flight 0))) :=
  ⟨by decide, by decide, by decide, (automatic_guarded removed).1 (.turn (.flight 0)) rfl rfl⟩

/-! ## Whole moves -/

/-- While listeners only observe, guarded sections are guarded as a whole: the connection that has
become current was registered and connected before the first of them. -/
theorem GuardedRun.pool (h : GuardedRun s t) (hs : s.Attentive) :
    t.Attentive ∧ s.pool.Guarded t.pool := by
  induction h with
  | refl => exact ⟨hs, .refl s.pool⟩
  | tail _ link ih =>
    obtain ⟨hattentive, hpool⟩ := ih
    rcases link with hguarded | hreplied
    · exact ⟨hattentive.same hguarded.held hguarded.listeners, hpool.trans hguarded.pool⟩
    · obtain ⟨hafter, hround⟩ := hreplied.round hattentive
      exact ⟨hafter, (outline_pool hround.outline).symm ▸ hpool⟩

end Manager

end RpcPool

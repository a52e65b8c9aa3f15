import RpcPool.Proofs.Run

/-!
# The current connection in a run

What no interleaving of calls, checks, poll loops and listeners can break: the current connection is
one of the registered ones, and what moves it without being asked moves it only where that makes
sense.

Results:
1. `Reachable.registry_consistent`: in every state of every run, and whenever something happened,
   the list and the current connection fit together.
2. `Reachable.switched_registered`: an automatic move is one between registered connections.
3. `Reachable.switched_worse_iff`: an automatic move takes a connected current connection away for
   one that is not better exactly if it is a failover. A failover does not ask whether the
   connection it leaves has recovered during the search.
-/

namespace RpcPool

open Relation

variable {K : Connection → Prop}

/-! ## Consistency -/

/-- The URIs are distinct and not empty, the current connection is exactly one of the list, and the
timeout is at least one millisecond. -/
structure Registry.Consistent (r : Registry) : Prop where
  distinct : (r.connections.map (·.uri)).Nodup
  named : ∀ c ∈ r.connections, c.uri ≠ ""
  current_once : ∀ k, r.current = some k → k ∈ r.connections ∧ r.connections.countP (·.same k) = 1
  timeout_pos : 1 ≤ r.timeoutMs

/-- An instance is registered once. -/
theorem Pool.WellFormed.countP_same {p : Pool} (wf : p.WellFormed) {k : Connection}
    (hmem : k ∈ p.registry.connections) : p.registry.connections.countP (·.same k) = 1 := by
  have hnodup : p.registry.connections.Nodup := wf.registry.distinct.of_map
  have hsame : p.registry.connections.countP (·.same k) = p.registry.connections.count k := by
    refine List.countP_congr fun c hc => ?_
    simp only [Connection.same, beq_iff_eq]
    exact ⟨fun hid => wf.apart c hc k hmem hid, fun h => h ▸ rfl⟩
  exact hsame ▸ List.count_eq_one_of_mem hnodup hmem

theorem Pool.WellFormed.consistent {p : Pool} (wf : p.WellFormed) : p.registry.Consistent where
  distinct := wf.registry.distinct
  named := wf.registry.named
  current_once k hk :=
    ⟨wf.registry.current_mem k hk, wf.countP_same (wf.registry.current_mem k hk)⟩
  timeout_pos := by
    have hne : p.registry.timeoutMs.toNat ≠ 0 := fun h =>
      wf.registry.timeout_ne (UInt32.toNat_inj.mp h)
    exact UInt32.le_iff_toNat_le.mpr (Nat.one_le_iff_ne_zero.mpr hne)

namespace Manager

variable {s t : Manager}

theorem Own.trace (h : Own K s t) :
    t.trace = s.trace ∨ ∃ e, t.trace = ⟨t.now, t.pool, e⟩ :: s.trace := by
  cases h with
  | work hf => exact Or.inl hf.trace
  | @note e _ => exact Or.inr ⟨e, rfl⟩
  | probe c outcome => exact Or.inr ⟨.probeEnded c outcome, rfl⟩
  | @switch q w _ => exact Or.inr ⟨.switched w, rfl⟩

theorem label_trace (s : Manager) (label : Option String) (c : Connection) :
    (s.label label c).trace = s.trace := by
  obtain ⟨labels, hlabel⟩ := label_eq s label c
  rw [hlabel]

theorem Explicit.trace (h : Explicit s t) :
    t.trace = s.trace ∨ ∃ c outcome, t.trace = ⟨t.now, t.pool, .observed c outcome⟩ :: s.trace := by
  cases h with
  | make e label => exact Or.inl (label_trace ..)
  | register label _ => exact Or.inl (label_trace ..)
  | label label _ => exact Or.inl (label_trace ..)
  | observe c outcome => exact Or.inr ⟨c, outcome, rfl⟩
  | arrange _ htrace _ _ => exact Or.inl htrace
  | _ => exact Or.inl rfl

/-- The pools that a run has been seen with. -/
theorem Reachable.trace_wellFormed (h : Reachable s) : ∀ m ∈ s.trace, m.pool.WellFormed := by
  have extended {a b : Manager} (hb : b.Sound) (ha : ∀ m ∈ a.trace, m.pool.WellFormed)
      (htrace : b.trace = a.trace ∨ ∃ e, b.trace = ⟨b.now, b.pool, e⟩ :: a.trace) :
      ∀ m ∈ b.trace, m.pool.WellFormed := by
    intro m hm
    rcases htrace with htrace | ⟨e, htrace⟩
    · exact ha m (htrace ▸ hm)
    · rcases List.mem_cons.mp (htrace ▸ hm) with rfl | hm
      · exact hb.pool
      · exact ha m hm
  refine (h.invariant (P := fun s => ∀ m ∈ s.trace, m.pool.WellFormed) ?_ ?_ ?_).2
  · exact fun _ _ m hm => absurd hm List.not_mem_nil
  · exact fun ha hK ho hp => extended (ha.own hK ho) hp ho.trace
  · exact fun ha he hp => extended (ha.explicit he) hp
      (he.trace.imp_right fun ⟨c, outcome, htrace⟩ => ⟨.observed c outcome, htrace⟩)

/-- The list and the current connection fit together at any time, also while listeners are being
called. -/
theorem Reachable.registry_consistent (h : Reachable s) :
    s.pool.registry.Consistent ∧ ∀ m ∈ s.trace, m.pool.registry.Consistent :=
  ⟨h.sound.pool.consistent, fun m hm => (h.trace_wellFormed m hm).consistent⟩

/-- An instance under the URI of the current connection takes its place in the list. -/
def replaced : Manager :=
  [.call (.selectUri "A"), .call (.addUri "B" none),
    .call (.make { uri := "A", priority := 3 } (some "other")),
    .call (.select (some "other"))].foldl next (idle ⟨[]⟩ true)

theorem replaced_consistent :
    replaced.pool.registry.current = some ⟨2, { uri := "A", priority := 3 }⟩ ∧
      replaced.pool.registry.connections.map (·.id) = [2, 1] ∧ replaced.pool.registry.Consistent :=
  ⟨by decide, by decide,
    (Reachable.registry_consistent (.foldl _ (.new ⟨[]⟩ true []))).1⟩

/-! ## What a connected current connection gives way to -/

/-- Every automatic move that a run tells of was one of the three, on a well-formed pool. -/
theorem Reachable.switched_automatic (h : Reachable s) :
    ∀ m ∈ s.trace, ∀ w, m.event = .switched w →
      ∃ (K : Connection → Prop) (p : Pool), p.WellFormed ∧ p.Automatic K m.pool w := by
  refine (h.invariant (P := fun s => ∀ m ∈ s.trace, ∀ w, m.event = .switched w →
    ∃ (K : Connection → Prop) (p : Pool), p.WellFormed ∧ p.Automatic K m.pool w) ?_ ?_ ?_).2
  · exact fun _ _ m hm => absurd hm List.not_mem_nil
  · intro K a b ha hK ho hp m hm w hw
    cases ho with
    | work hf => exact hp m (hf.trace ▸ hm) w hw
    | note hplain =>
      rcases List.mem_cons.mp hm with rfl | hm
      · cases hw
        exact absurd hplain (by simp [Event.plain])
      · exact hp m hm w hw
    | probe _ _ =>
      rcases List.mem_cons.mp hm with rfl | hm
      · exact absurd hw (by simp)
      · exact hp m hm w hw
    | switch hauto =>
      rcases List.mem_cons.mp hm with rfl | hm
      · cases hw
        exact ⟨K, a.pool, ha.pool, hauto⟩
      · exact hp m hm w hw
  · intro a b ha he hp m hm w hw
    rcases he.trace with htrace | ⟨k, outcome, htrace⟩
    · exact hp m (htrace ▸ hm) w hw
    · rcases List.mem_cons.mp (htrace ▸ hm) with rfl | hm
      · exact absurd hw (by simp)
      · exact hp m hm w hw

/-- An automatic move leads from one registered connection to another. -/
theorem Reachable.switched_registered (h : Reachable s) {m : Moment} {w : Switch}
    (hm : m ∈ s.trace) (hw : m.event = .switched w) :
    w.target ∈ m.pool.registry.connections ∧
      ∀ c, w.source = some c → c ∈ m.pool.registry.connections := by
  obtain ⟨K, p, wf, hauto⟩ := h.switched_automatic m hm w hw
  have hmoved := hauto.moved
  have hcurrent : m.pool.registry.current = some w.target := by rw [hmoved.pool]
  refine ⟨(h.trace_wellFormed m hm).registry.current_mem _ hcurrent, fun c hc => ?_⟩
  have hmem : c ∈ p.registry.connections := wf.registry.current_mem c (hmoved.source ▸ hc)
  rw [hmoved.pool]
  exact hmem

/-- Unless it is a failover, an automatic move takes a connected current connection away only for a
better one. -/
theorem Reachable.switched_better (h : Reachable s) :
    ∀ m ∈ s.trace, ∀ w c, m.event = .switched w → w.reason ≠ .lost → w.source = some c →
      m.pool.isUp c = true → Selection.Better m.pool.health.get w.target c := by
  intro m hm w c hw hreason hsource up
  obtain ⟨K, p, wf, hauto⟩ := h.switched_automatic m hm w hw
  have hhealth : m.pool.health = p.health := by rw [hauto.moved.pool]
  have hup : p.isUp c = true := by
    rw [← up]
    exact congrArg (fun t : Health.Table => (t.get c.id).connected) hhealth.symm
  rw [hhealth]
  exact hauto.better wf hreason hsource hup

/-- A connected current connection is taken away for one that is not better exactly by a failover,
to a connection of lower precedence or to one of the same priority that was not faster over a whole
window. -/
theorem Reachable.switched_worse_iff {m : Moment} {w : Switch} {c : Connection} (h : Reachable s)
    (hm : m ∈ s.trace) (hw : m.event = .switched w) (hc : w.source = some c)
    (up : m.pool.isUp c = true) :
    ¬ Selection.Better m.pool.health.get w.target c ↔
      w.reason = .lost ∧ (w.target.priority < c.priority ∨
        (w.target.priority = c.priority ∧
          (m.pool.healthOf w.target).window.consistentlyBetter
            (m.pool.healthOf c).window = false)) := by
  constructor
  · intro hworse
    have hreason : w.reason = .lost := by
      by_contra hreason
      exact hworse (h.switched_better m hm w c hw hreason hc up)
    exact ⟨hreason, Selection.not_better_iff.mp hworse⟩
  · rintro ⟨_, hworse⟩
    exact Selection.not_better_iff.mpr hworse

/-- The answer of a working endpoint. -/
def working (ms : UInt64) : Behaviour := .reply ms.toNat (.ok ⟨true, .ofMillis ms⟩)

/-- The current connection A is lost, and the search for another one waits for B. Meanwhile a check
of A finds it connected again. -/
def recovered : Manager :=
  [.call (.add { uri := "A", priority := 5 } (some "a")), .call (.addUri "B" none),
    .call (.select (some "a")), .call (.spawn "failover" .checkConnection), .turn (.flight 0),
    .turn (.probe 0 0), .turn (.flight 0), .turn (.probe 0 0), .clock 50,
    .await (.checkConnections (some ["a"]) []), .turn (.probe 1 0), .clock 55, .turn (.probe 1 0),
    .turn (.flight 1), .clock 200, .turn (.probe 0 0), .turn (.flight 0)].foldl next
      (idle ⟨[("A", ⟨[.offline], some (working 5)⟩), ("B", ⟨[], some (working 200)⟩)]⟩ true)

theorem recovered_left :
    let a : Connection := ⟨0, { uri := "A", priority := 5 }⟩
    let b : Connection := ⟨1, { uri := "B" }⟩
    ∃ m ∈ recovered.trace, m.event = .switched ⟨some a, b, .lost⟩ ∧ m.pool.isUp a = true ∧
      ¬ Selection.Better m.pool.health.get b a := by
  intro a b
  have hm : (⟨200, recovered.pool, .switched ⟨some a, b, .lost⟩⟩ : Moment) ∈ recovered.trace :=
    List.mem_of_getElem? (i := 1) rfl
  have up : recovered.pool.isUp a = true := by decide
  have hreachable : Reachable recovered := .foldl _ (.new _ true [])
  exact ⟨_, hm, rfl, up,
    (hreachable.switched_worse_iff hm rfl rfl up).mpr ⟨rfl, Or.inl (by decide)⟩⟩

end Manager

end RpcPool

import RpcPool.Proofs.Punctual

/-!
# The account of a run

Seen from its beginning, a run accounts for all probes of its operations: which started, which
ended, and what they have shown. Operations may overlap as they like, a connection may be probed by
several of them at once, and it may be removed or replaced meanwhile.

Results:
1. `reachable_iff`: runs begin with a manager that was just made, which has probed nothing.
2. `probes_accounted`: health is what the outcomes of probes have made of it, in the order in which
   they ended; no probe is lost, counted twice or taken for one of another connection.
-/

namespace RpcPool

namespace Manager

variable {s t : Manager} {moves : List Move}

/-! ## Beginnings of runs -/

/-- A manager that was just made, with the listeners laid down that may be added later. -/
inductive Fresh : Manager → Prop
  | new (network : Network) (hasRuntime : Bool) (known : List (String × Listener)) :
      Fresh { idle network hasRuntime with listeners := known }
  | load {config : Config} {network : Network} {hasRuntime : Bool} {s : Manager}
      (known : List (String × Listener)) :
      ofConfig config network hasRuntime = .ok s → Fresh { s with listeners := known }

theorem Fresh.reachable (h : Fresh s) : Reachable s := by
  cases h with
  | new network hasRuntime known => exact .new network hasRuntime known
  | load known h => exact .load known h

/-- Every run goes on from a manager that was just made. -/
theorem reachable_iff :
    Reachable t ↔ ∃ (s : Manager) (moves : List Move), Fresh s ∧ moves.foldl next s = t := by
  constructor
  · intro h
    induction h with
    | new network hasRuntime known => exact ⟨_, [], .new network hasRuntime known, rfl⟩
    | load known h => exact ⟨_, [], .load known h, rfl⟩
    | next m _ ih =>
      obtain ⟨s, moves, hfresh, rfl⟩ := ih
      exact ⟨s, moves ++ [m], hfresh, List.foldl_append⟩
  · rintro ⟨s, moves, hfresh, rfl⟩
    exact hfresh.reachable.foldl moves

theorem Fresh.chores (h : Fresh s) :
    ∃ network hasRuntime, Chores (Manager.idle network hasRuntime) s := by
  cases h with
  | new network hasRuntime known =>
    exact ⟨network, hasRuntime,
      .single (.listen (Manager.idle network hasRuntime).subscribers known)⟩
  | @load _ network hasRuntime s known h =>
    exact ⟨network, hasRuntime, (ofConfig_chores h).tail (.listen s.subscribers known)⟩

/-- Nothing is being probed. -/
theorem Fresh.unbatched (h : Fresh s) (f : FlightId) (i : Nat) : s.probe? f i = none := by
  obtain ⟨network, hasRuntime, hchores⟩ := h.chores
  exact (Chores.lasting hchores).probe? (tended_idle network hasRuntime).numbered f i

/-- No probe waits for the clock. -/
theorem Fresh.untimed (h : Fresh s) (due : Nat) (f : FlightId) (i : Nat) :
    (due, .probe f i) ∉ s.timers := by
  obtain ⟨network, hasRuntime, hchores⟩ := h.chores
  intro hmem
  have hbefore := (Chores.lasting hchores).probe_timers.mp hmem
  exact absurd hbefore List.not_mem_nil

theorem registerAll_health {entries : List Config.Entry} (h : s.registerAll entries = .ok t) :
    t.pool.health = s.pool.health := by
  induction entries generalizing s with
  | nil =>
    cases h
    rfl
  | cons e rest ih =>
    unfold registerAll at h
    dsimp only at h
    split at h
    · exact absurd h (by simp)
    · next r _ =>
      have hrest : t.pool.health = ((s.instantiate e.endpoint).1.setRegistry r).pool.health := ih h
      exact hrest

/-- Nothing is known of any connection. -/
theorem Fresh.unprobed (h : Fresh s) (c : Connection) : s.pool.healthOf c = .unprobed := by
  suffices hempty : s.pool.health = .empty by
    show s.pool.health.get c.id = .unprobed
    rw [hempty]
    exact Health.Table.get_empty c.id
  cases h with
  | new network hasRuntime known => rfl
  | load known h =>
    unfold ofConfig at h
    split at h
    · exact absurd h (by simp)
    · dsimp only at h
      split at h
      · exact absurd h (by simp)
      · next t ht =>
        have hnone : t.pool.health = .empty := registerAll_health ht
        split at h
        · obtain ⟨poller, loops, timers, ready, nextId, started, _, rfl⟩ := startPolling_eq h
          exact hnone
        · cases h
          exact hnone

theorem Fresh.ledger (h : Fresh s) (moves : List Move) :
    Ledger 0 (s.attempts moves) (s.endings moves) (moves.foldl next s) := by
  refine ledger_run h.reachable.tended (fun f i p hp => ?_) moves
  exact absurd ((h.unbatched f i).symm.trans hp) (by simp)

theorem Fresh.timed (h : Fresh s) (hpunctual : s.RunsPunctually moves) :
    Timed 0 (s.attempts moves) (s.endings moves) (moves.foldl next s) := by
  refine timed_run h.reachable.tended (fun f i p hp => ?_) (fun due f i htimer => ?_) hpunctual
  · exact absurd ((h.unbatched f i).symm.trans hp) (by simp)
  · exact absurd htimer (h.untimed due f i)

/-! ## Every probe is accounted for -/

/-- A task that is due waits for the clock no longer than to its time. -/
theorem Timed.now_le {base : Nat} {starts : List Attempt} {ends : List Ending}
    (h : Timed base starts ends t) (ht : t.Tended) {f : FlightId} {i : Nat} {p : BatchProbe}
    {outcome : Probe.Outcome} (hp : t.probe? f i = some p) (hbase : base < p.task)
    (hwaiting : p.state = .waiting outcome) : ∃ a ∈ starts, a.task = p.task ∧ t.now ≤ a.due := by
  obtain ⟨a, ha, htask, htimer, hready⟩ := h.waiting hp hbase hwaiting
  refine ⟨a, ha, htask, ?_⟩
  by_cases hmem : .probe f i ∈ t.ready
  · exact Nat.le_of_eq (hready hmem)
  · obtain ⟨due, hin⟩ := ht.timer hp (by rw [hwaiting]; rfl) hmem
    exact htimer due hin ▸ h.ahead hin

/-- A probe that has started still waits for its outcome. -/
def Awaits (t : Manager) (a : Attempt) (outcome : Probe.Outcome) : Prop :=
  ∃ f i p, t.probe? f i = some p ∧ p.task = a.task ∧ p.connection = a.connection ∧
    p.state = .waiting outcome

/-- In every run, whatever overlaps in it, the health of each connection is what the outcomes of its
probes have made of it, in the order in which they ended, at the end and at every moment before.
Each probe that starts is another one, and ends at most once, with the outcome that its endpoint
gives within its timeout, or else with the timeout. A probe that breaks never ends. Any other has
ended or still waits, and no longer than it takes if the clock is punctual. -/
theorem probes_accounted (h : Fresh s) (moves : List Move) (ht : t = moves.foldl next s) :
    let starts := s.attempts moves
    let ends := s.endings moves
    (∀ c, t.pool.healthOf c = (outcomes c (since s t)).foldl Health.observe .unprobed) ∧
    (∀ c i m, (since s t)[i]? = some m → m.pool.healthOf c =
      (outcomes c ((since s t).take (i + 1))).foldl Health.observe .unprobed) ∧
    (since s t).filterMap (·.event.startedWith?) =
      starts.map (fun a => (a.connection, a.timeoutMs)) ∧
    (since s t).filterMap (·.event.concluded?) = ends.map (fun e => (e.connection, e.outcome)) ∧
    (starts.map (·.task)).Nodup ∧ (ends.map (·.task)).Nodup ∧
    (∀ e ∈ ends, ∃ a ∈ starts, a.task = e.task ∧ a.connection = e.connection ∧
      a.outcome? = some e.outcome ∧ (s.RunsPunctually moves → e.time = a.due)) ∧
    ∀ a ∈ starts,
      (a.outcome? = none ∧ a.task ∉ ends.map (·.task)) ∨
      (a.outcome?.isSome ∧ a.task ∈ ends.map (·.task)) ∨
      (∃ outcome, a.outcome? = some outcome ∧ a.task ∉ ends.map (·.task) ∧
        t.Awaits a outcome ∧ (s.RunsPunctually moves → t.now ≤ a.due)) := by
  subst ht
  intro starts ends
  have hledger : Ledger 0 starts ends (moves.foldl next s) := h.ledger moves
  have htended : (moves.foldl next s).Tended := h.reachable.tended.run_moves moves
  have hrecalls (rest : List Move) : Recalls s (rest.foldl next s) :=
    List.foldlRecOn (motive := Recalls s) rest _ (.refl s)
      fun t hst m _ => hst.trans (next_flat t m).recalls
  refine ⟨fun c => ?_, fun c i m hm => ?_, run_started s moves, run_concluded s moves,
    hledger.startedOnce, hledger.endedOnce, fun e he => ?_, fun a ha => ?_⟩
  · rw [(hrecalls moves).health c, h.unprobed]
  · rw [(hrecalls moves).moments c i m hm, h.unprobed]
  · have hpositive : 0 < e.task := (hledger.ends_numbered e he).1
    obtain ⟨a, ha, htask, hconnection, houtcome⟩ := hledger.matched e he hpositive
    refine ⟨a, ha, htask, hconnection, houtcome, fun hpunctual => ?_⟩
    obtain ⟨b, hb, hsame, htime⟩ := (h.timed hpunctual).ended e he hpositive
    rw [hledger.attempt_unique ha hb (htask.trans hsame.symm)]
    exact htime
  · cases houtcome : a.outcome? with
    | none =>
      exact Or.inl ⟨rfl, hledger.broken_unended ha (hledger.starts_numbered a ha).1 houtcome⟩
    | some outcome =>
      refine Or.inr ?_
      rcases hledger.unlost a ha with hnone | hended | ⟨f, i, p, outcome', hp, htask, hwaiting⟩
      · exact absurd (houtcome.symm.trans hnone) (by simp)
      · exact Or.inl ⟨rfl, hended⟩
      · have hbase : 0 < p.task := (htended.tasks hp).1
        obtain ⟨b, hb, hsame, hconnection, _, hstands⟩ :=
          hledger.begun hp (by rw [hwaiting]; simp) hbase
        have hab : b = a := hledger.attempt_unique hb ha (hsame.trans htask)
        subst hab
        rw [hwaiting] at hstands
        cases houtcome.symm.trans hstands
        refine Or.inr ⟨outcome, rfl, ?_, ⟨f, i, p, hp, htask, hconnection.symm, hwaiting⟩, ?_⟩
        · rw [← htask]
          exact hledger.unfinished hp (by rw [hwaiting]; rfl)
        · intro hpunctual
          obtain ⟨d, hd, hdtask, hnow⟩ := (h.timed hpunctual).now_le htended hp hbase hwaiting
          rw [hledger.attempt_unique hb hd (hsame.trans hdtask.symm)]
          exact hnow

/-- The endpoint answers the first time, with its last chance, then not at all, and then breaks. -/
def replacing : Manager :=
  idle ⟨[("A", ⟨[.reply 100 (.ok ⟨true, .ofMillis 5⟩), .hang, .panic], none⟩)]⟩ true

/-- A check names A twice. While its probes wait, A is replaced by another connection with the same
URI, and both are checked. -/
def replacement : List Move :=
  [.call (.add { uri := "A", timeoutMs := some 100 } (some "old")),
    .call (.spawn "twice" (.checkConnections (some ["old", "old"]) [])), .turn (.flight 0),
    .turn (.probe 0 0), .turn (.probe 0 1), .call (.remove "A"),
    .call (.add { uri := "A" } (some "new")),
    .await (.checkConnections (some ["old", "new"]) []), .turn (.probe 1 0), .turn (.probe 1 1),
    .turn (.flight 1), .clock 100, .turn (.probe 0 1), .turn (.probe 0 0)]

theorem replacement_accounted :
    let old : Connection := ⟨0, { uri := "A", timeoutMs := some 100 }⟩
    let new : Connection := ⟨1, { uri := "A" }⟩
    let t := replacement.foldl next replacing
    Fresh replacing ∧ replacing.RunsPunctually replacement ∧
    t.pool.healthOf old =
      [.error (.timeout 100), .ok ⟨true, .ofMillis 5⟩].foldl Health.observe .unprobed ∧
    t.pool.healthOf new =
      [.error (.request "Connection refused")].foldl Health.observe .unprobed ∧
    (replacing.endings replacement).map (fun e => (e.task, e.connection, e.time)) =
      [(5, new, 0), (3, old, 100), (2, old, 100)] ∧
    ∀ e ∈ replacing.endings replacement, ∃ a ∈ replacing.attempts replacement,
      a.task = e.task ∧ a.connection = e.connection ∧ a.outcome? = some e.outcome ∧
        e.time = a.due := by
  intro old new t
  have hfresh : Fresh replacing := .new _ true []
  have hpunctual : replacing.RunsPunctually replacement := by decide +kernel
  obtain ⟨hhealth, _, _, _, _, _, hends, _⟩ := probes_accounted (t := t) hfresh replacement rfl
  have hold : outcomes old (since replacing t) =
      [.error (.timeout 100), .ok ⟨true, .ofMillis 5⟩] := by decide +kernel
  have hnew : outcomes new (since replacing t) = [.error (.request "Connection refused")] := by
    decide +kernel
  refine ⟨hfresh, hpunctual, ?_, ?_, by decide +kernel, fun e he => ?_⟩
  · rw [hhealth, hold]
  · rw [hhealth, hnew]
  · obtain ⟨a, ha, htask, hconnection, houtcome, hdue⟩ := hends e he
    exact ⟨a, ha, htask, hconnection, houtcome, hdue hpunctual⟩

end Manager

end RpcPool

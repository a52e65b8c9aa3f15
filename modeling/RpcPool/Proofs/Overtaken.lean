import RpcPool.Proofs.Alone

/-!
# Checks that are overtaken

A check of the current connection decides to replace that connection and may then wait for any
number of probes, while calls and other operations go on. It moves the current pointer only when its
search is over, and only if the very instance that it has found lost is still current.

Results:
1. `Reachable.numbered`: an operation under way has a number that was given out.
2. `Begins.iterating`: how a check of the current connection begins.
3. `resume_watched`: what a check does between two batches.
4. `overtaken_stays`: in any run, a check whose connection is no longer current leaves the current
   pointer alone.
-/

namespace RpcPool

namespace Manager

variable {s t a : Manager} {f : FlightId} {owner : Owner} {o : PollOptions}
  {start : Option Connection}

/-! ## Numbers of operations -/

/-- There is no operation under a number that has not been given out. -/
def Numbered (s : Manager) : Prop := ∀ f, s.nextId ≤ f → s.flights.lookup f = none

theorem next_nextId (s : Manager) (m : Move) : s.nextId ≤ (s.next m).nextId := by
  -- a move concerns one operation at most, so there is another one that it spares
  obtain ⟨f, hf⟩ : ∃ f, m.concerns f = false := by
    cases m with
    | turn task =>
      cases task with
      | probe id index => exact ⟨id + 1, beq_false_of_ne (Nat.ne_of_lt (Nat.lt_succ_self id))⟩
      | flight id => exact ⟨id + 1, beq_false_of_ne (Nat.ne_of_lt (Nat.lt_succ_self id))⟩
      | loop id => exact ⟨0, rfl⟩
    | _ => exact ⟨0, rfl⟩
  exact (next_spares hf).nextId

theorem within_of_concerns {m : Move} (h : m.concerns f = true) : m.within f := by
  cases m with
  | turn task =>
    cases task with
    | probe id index => exact eq_of_beq h
    | flight id => exact eq_of_beq h
    | loop id => exact absurd h (by simp [Move.concerns])
  | _ => exact absurd h (by simp [Move.concerns])

theorem Numbered.next (h : s.Numbered) (m : Move) : (s.next m).Numbered := by
  intro f hf
  have hnone : s.flights.lookup f = none := h f (Nat.le_trans (next_nextId s m) hf)
  cases hm : m.concerns f with
  | false => exact ((next_spares hm).lookup (.inr hf)).trans hnone
  | true =>
    obtain ⟨now, timers, ready, hnext⟩ := ended_next (within_of_concerns hm) hnone
    rw [hnext]
    exact hnone

theorem registerAll_flights {entries : List Config.Entry} (h : s.registerAll entries = .ok t) :
    t.flights = s.flights := by
  induction entries generalizing s with
  | nil =>
    cases h
    rfl
  | cons e rest ih =>
    unfold registerAll at h
    dsimp only at h
    split at h
    · exact absurd h (by simp)
    · next r _ =>
      have hrest : t.flights = ((s.instantiate e.endpoint).1.setRegistry r).flights := ih h
      exact hrest

theorem ofConfig_flights {config : Config} {network : Network} {hasRuntime : Bool}
    (h : ofConfig config network hasRuntime = .ok s) : s.flights = [] := by
  unfold ofConfig at h
  split at h
  · exact absurd h (by simp)
  · dsimp only at h
    split at h
    · exact absurd h (by simp)
    · next t ht =>
      have hnone : t.flights = [] := registerAll_flights ht
      split at h
      · obtain ⟨poller, loops, timers, ready, nextId, started, _, rfl⟩ := startPolling_eq h
        exact hnone
      · cases h
        exact hnone

theorem Reachable.numbered (h : Reachable s) : s.Numbered := by
  induction h with
  | new network hasRuntime known => exact fun _ _ => rfl
  | @load _ _ _ s known h =>
    intro f _
    show s.flights.lookup f = none
    rw [ofConfig_flights h]
    rfl
  | next m _ ih => exact ih.next m

/-! ## How a check begins -/

/-- A check of the current connection takes its first turn: the user waits for it, or it is a task
of its own, or an iteration of a poll loop. -/
inductive Begins (s : Manager) : FlightId → Manager → Prop
  | awaited : s.held = true → Begins s s.nextId (s.next (.await .checkConnection))
  | task {f : FlightId} {owner : Owner} :
      s.flights.lookup f = some ⟨owner, .queued .checkConnection⟩ → .flight f ∈ s.ready →
      Begins s f (s.next (.turn (.flight f)))
  | iteration {id : LoopId} {l : PollLoop} :
      s.loops.lookup id = some l → s.ready.contains (.loop id) = true → l.stopped = false →
      l.due ≤ s.now → l.options.pollType = .current →
      Begins s s.nextId (s.next (.turn (.loop id)))

theorem Begins.proceeds (h : Begins s f t) (hs : s.Numbered) :
    ∃ a owner options, Still s a ∧ f < a.nextId ∧
      t = a.proceed f owner (a.beginStatus options) := by
  cases h with
  | awaited hheld =>
    let a : Manager := { s with nextId := s.nextId + 1 }.setFlight s.nextId
      ⟨.caller, .queued .checkConnection⟩
    refine ⟨a, .caller, a.defaultOptions, .same rfl rfl rfl rfl rfl, Nat.lt_succ_self _, ?_⟩
    have hstart : s.next (.await .checkConnection) = a.runFlight s.nextId := if_pos hheld
    have hflight : a.flights.lookup s.nextId = some ⟨.caller, .queued .checkConnection⟩ :=
      lookup_upsert_self _ _ _
    rw [hstart]
    exact runFlight_queued hflight
  | @task _ owner hflight hready =>
    let a : Manager := { s with ready := s.ready.erase (.flight f) }
    have hbegun : f < s.nextId := by
      refine Nat.lt_of_not_le fun hle => ?_
      cases (hs f hle).symm.trans hflight
    refine ⟨a, owner, a.defaultOptions, .same rfl rfl rfl rfl rfl, hbegun, ?_⟩
    rw [next_flight hready]
    exact runFlight_queued (s := a) hflight
  | @iteration id l hloop hready hgoing hdue htype =>
    refine ⟨s.iteration id l, .loop id, (s.iteration id l).pollOptions l.options,
      .same rfl rfl rfl rfl rfl, Nat.lt_succ_self _, ?_⟩
    rw [next_loop hloop hready hgoing hdue]
    dsimp only [begin]
    rw [htype]

theorem beginStatus_permitted (htype : o.pollType = .current) (s : Manager)
    (options : CheckOptions) : (s.beginStatus options).Permitted o s.current := by
  unfold beginStatus
  split
  · exact trivial
  · next w hcurrent => exact .current htype hcurrent

/-- However it begins, a check of the current connection goes on as an iteration of a poll loop that
checks the current connection. -/
theorem Begins.iterating (h : Begins s f t) (hs : s.Numbered) (htype : o.pollType = .current) :
    Still s t ∧ Iterating o s.current f t := by
  obtain ⟨a, owner, options, hstill, hbegun, rfl⟩ := h.proceeds hs
  have hproceed : QuietStretch (fun _ => True) a (a.proceed f owner (a.beginStatus options)) :=
    proceed_quiet fun _ _ => .inr trivial
  refine ⟨hstill.trans hproceed.still, proceed_iterating hbegun owner ?_⟩
  rw [← hstill.current]
  exact beginStatus_permitted htype a options

/-! ## Between two batches -/

theorem follow_idle (s : Manager) : s.follow (s.pool, none) = s := rfl

/-- Between two batches, after listeners were told what the first one has changed, a check does
nothing to the pool, unless it has come to its end and the connection it began with is current. -/
theorem resume_watched {stage : Stage} {conns : List Connection} (htype : o.pollType = .current)
    (h : Permitted o start stage conns) (s : Manager) (options : CheckOptions)
    (probed : List (Connection × Bool)) :
    (s.resume options stage probed).1 = s.publishStatus probed ∨
      ∃ w reply, start = some w ∧ (s.publishStatus probed).pool.registry.isCurrent w = true ∧
        (s.resume options stage probed).2 = .done reply := by
  cases h with
  | all hall _ => exact absurd (htype.symm.trans hall) (by simp)
  | prioritized hprioritized _ _ => exact absurd (htype.symm.trans hprioritized) (by simp)
  | @current w _ _ =>
    left
    dsimp only [resume]
    split
    · split <;> rfl
    · rfl
  | @failover w changed q _ _ hstart _ _ =>
    dsimp only [resume]
    split
    · next best _ =>
      cases hcurrent : (s.publishStatus probed).pool.registry.isCurrent w with
      | true => exact Or.inr ⟨w, _, hstart, hcurrent, rfl⟩
      | false =>
        have hfailover : (s.publishStatus probed).pool.failover w best =
            ((s.publishStatus probed).pool, none) := if_neg (by simp [hcurrent])
        rw [hfailover]
        exact Or.inl (follow_idle _)
    · left
      split <;> rfl

/-- A turn of an operation that waits for a batch ends the batch and goes on from it, or it has no
results to report and changes nothing that anybody would notice. -/
theorem runFlight_batch
    (hbatch : ∀ flight, s.flights.lookup f = some flight → ∃ options stage probes,
      flight.work = .batch options stage probes) :
    (results (s.joinedBatch f) = [] ∧ Still s (s.runFlight f)) ∨
      ∃ owner options stage probes, s.flights.lookup f = some ⟨owner, .batch options stage probes⟩ ∧
        s.runFlight f = (s.resume options stage (results (s.joinedBatch f))).1.proceed f owner
          (s.resume options stage (results (s.joinedBatch f))).2 := by
  unfold Manager.runFlight joinedBatch
  cases hflight : s.flights.lookup f with
  | none => exact Or.inl ⟨rfl, .refl s⟩
  | some flight =>
    obtain ⟨options, stage, probes, hwork⟩ := hbatch flight hflight
    obtain ⟨owner, _⟩ := flight
    cases hwork
    dsimp only
    cases joined probes with
    | false => exact Or.inl ⟨rfl, .refl s⟩
    | true =>
      rw [if_pos rfl, if_pos rfl]
      cases hchanges : changes probes with
      | error task =>
        exact Or.inl ⟨results_error hchanges, (land_quiet (K := fun _ => True) s f owner _).still⟩
      | ok probed =>
        rw [results_ok hchanges]
        exact Or.inr ⟨owner, options, stage, probes, rfl, rfl⟩

/-- A turn of a check leaves the current pointer alone, but for what listeners do when they are told
the results of a batch. The one exception is the turn in which the check ends while the connection
that it began with is current. -/
theorem Iterating.turn (h : Iterating o start f t) (htype : o.pollType = .current) :
    let searched := ({ t with ready := t.ready.erase (.flight f) } : Manager).publishStatus
      (results (t.batchEnd (.turn (.flight f))))
    Still searched (t.next (.turn (.flight f))) ∨
      ∃ w, start = some w ∧ searched.pool.registry.isCurrent w = true ∧
        (t.next (.turn (.flight f))).flights.lookup f = none := by
  intro searched
  let erased : Manager := { t with ready := t.ready.erase (.flight f) }
  by_cases hready : .flight f ∈ t.ready
  · have hsearched : searched = erased.publishStatus (results (erased.joinedBatch f)) := by
      have hend : t.batchEnd (.turn (.flight f)) = t.joinedBatch f :=
        if_pos (List.contains_iff_mem.mpr hready)
      show erased.publishStatus (results (t.batchEnd (.turn (.flight f)))) = _
      rw [hend]
      rfl
    rw [hsearched, next_flight hready]
    rcases runFlight_batch (s := erased) fun flight hflight => (h.batch flight hflight).imp
      fun _ h => h.imp fun _ h => h.imp fun _ h => h.1 with
      ⟨hnone, hstill⟩ | ⟨owner, options, stage, probes, hflight, hrun⟩
    · rw [hnone, publishStatus_nil]
      exact Or.inl hstill
    · obtain ⟨_, _, _, hwork, hpermitted⟩ := h.batch _ hflight
      cases hwork
      rw [hrun]
      generalize results (erased.joinedBatch f) = probed
      rcases resume_watched htype hpermitted erased options probed with
        hsame | ⟨w, reply, hstart, hcurrent, hdone⟩
      · have hproceed : QuietStretch (fun _ => True) (erased.resume options stage probed).1
            ((erased.resume options stage probed).1.proceed f owner
              (erased.resume options stage probed).2) :=
          proceed_quiet fun _ _ => .inr trivial
        exact Or.inl (hsame ▸ hproceed.still)
      · refine Or.inr ⟨w, hstart, hcurrent, ?_⟩
        rw [hdone]
        exact land_gone _ f owner reply
  · have hsearched : searched = erased := by
      have hend : t.batchEnd (.turn (.flight f)) = [] :=
        if_neg fun h => hready (List.contains_iff_mem.mp h)
      show erased.publishStatus (results (t.batchEnd (.turn (.flight f)))) = erased
      rw [hend]
      exact publishStatus_nil _
    rw [hsearched, next_not_ready hready]
    exact Or.inl (.same rfl rfl rfl rfl rfl)

/-! ## What a check does in a run -/

theorem Begins.reached (h : Begins s f t) : ∃ m, t = s.next m := by
  cases h with
  | awaited _ => exact ⟨_, rfl⟩
  | task _ _ => exact ⟨_, rfl⟩
  | iteration _ _ _ _ _ => exact ⟨_, rfl⟩

/-- An instance that was current is the only one with its number. -/
theorem current_of_isCurrent {u : Manager} {w : Connection} (hs : s.Sound)
    (hw : s.current = some w) (hu : u.Sound) (hmade : s.made <+: u.made)
    (hcurrent : u.pool.registry.isCurrent w = true) : u.current = some w := by
  obtain ⟨k, hk, hid⟩ := Registry.isCurrent_iff.mp hcurrent
  have hwgenuine : u.Genuine w := (hs.genuine w (mem_instances_of_current hw)).mono hmade
  have hkgenuine : u.Genuine k := hu.genuine k (mem_instances_of_current hk)
  rw [hkgenuine.eq hwgenuine hid] at hk
  exact hk

/-- Whatever else happens in a run, a check of the current connection moves the current pointer only
in the turn in which its search is over, and only if the very instance that was current when the
check began is still current then. Listeners that are told the results of the last batch may have
changed that, and what they do is not counted. -/
theorem overtaken_stays (h : Reachable s) (hbegins : Begins s f a) {moves : List Move}
    (ht : t = moves.foldl next a) :
    let searched := ({ t with ready := t.ready.erase (.flight f) } : Manager).publishStatus
      (results (t.batchEnd (.turn (.flight f))))
    let after := t.next (.turn (.flight f))
    Still s a ∧ (∀ index, Still t (t.next (.turn (.probe f index)))) ∧
      (after.flights.lookup f ≠ none → Still searched after) ∧
      ((∀ w, s.current = some w → searched.current ≠ some w) → Still searched after) := by
  intro searched after
  let o : PollOptions := { pollType := .current }
  obtain ⟨hfirst, hiterating⟩ := hbegins.iterating (o := o) h.numbered rfl
  have hrun : Iterating o s.current f t := ht ▸ hiterating.run moves
  have hturn := hrun.turn rfl
  refine ⟨hfirst, fun index => ?_, fun hunfinished => ?_, fun hovertaken => ?_⟩
  · have hquiet : QuietStretch (fun _ => True) { t with ready := t.ready.erase (.probe f index) }
        (({ t with ready := t.ready.erase (.probe f index) } : Manager).runProbe f index) :=
      (runProbe_turn _ f index).quiet
    by_cases hready : .probe f index ∈ t.ready
    · have herased : Still t { t with ready := t.ready.erase (.probe f index) } :=
        .same rfl rfl rfl rfl rfl
      rw [next_probe hready]
      exact herased.trans hquiet.still
    · rw [next_not_ready hready]
      exact .refl t
  · exact hturn.resolve_right fun ⟨_, _, _, hended⟩ => hunfinished hended
  · refine hturn.resolve_right fun ⟨w, hw, hisCurrent, _⟩ => ?_
    obtain ⟨m, rfl⟩ := hbegins.reached
    have hreachable : Reachable t := ht ▸ (Reachable.next m h).foldl moves
    have herased : ({ t with ready := t.ready.erase (.flight f) } : Manager).Sound :=
      hreachable.sound.work (K := fun _ => False) (fun _ h => h.elim) ⟨rfl, fun _ h => .inl h⟩
    have hstretch : TaskStretch (fun _ => False) _ searched := publishStatus_stretch _ _
    have hmoves : s.made <+: t.made := by
      rw [ht]
      exact List.foldlRecOn (motive := fun t => s.made <+: t.made) moves _ (next_flat s m).made
        fun t h m _ => h.trans (next_flat t m).made
    exact hovertaken w hw (current_of_isCurrent h.sound hw
      (hstretch.sound herased fun _ h => h.elim) (hmoves.trans hstretch.flat.made) hisCurrent)

/-- A is current and cannot be reached, and a check of it is about to start as a task. There is
another instance under the URI of A. -/
def reselecting : Manager :=
  [.call (.selectUri "A"), .call (.addUri "B" none), .call (.make { uri := "A" } (some "again")),
    .call (.spawn "check" .checkConnection)].foldl next
      (idle ⟨[("B", ⟨[], some (.reply 20 (.ok ⟨true, .ofMillis 20⟩))⟩)]⟩ true)

/-- While the check waits for B, the other instance is made current. -/
def reselected : Manager :=
  [.turn (.probe 0 0), .turn (.flight 0), .turn (.probe 0 0), .call (.select (some "again")),
    .clock 20, .turn (.probe 0 0)].foldl next (reselecting.next (.turn (.flight 0)))

theorem reselected_stays :
    let again : Connection := ⟨2, { uri := "A" }⟩
    let after := reselected.next (.turn (.flight 0))
    reselecting.current = some ⟨0, { uri := "A" }⟩ ∧ reselected.current = some again ∧
      reselected.Replacing 0 ⟨0, { uri := "A" }⟩ ∧ reselected.pool.isUp ⟨1, { uri := "B" }⟩ = true ∧
      after.current = some again ∧ after.flights.lookup 0 = none := by
  intro again after
  have hbegins : Begins reselecting 0 (reselecting.next (.turn (.flight 0))) :=
    .task rfl (by decide)
  have hreachable : Reachable reselecting := .foldl _ (.new _ true [])
  have hcurrent : reselecting.current = some ⟨0, { uri := "A" }⟩ := by decide
  have hsearched : (({ reselected with ready := reselected.ready.erase (.flight 0) } :
      Manager).publishStatus (results (reselected.batchEnd (.turn (.flight 0))))).current =
        some again := by
    decide +kernel
  obtain ⟨_, _, _, hstays⟩ := overtaken_stays (t := reselected) hreachable hbegins rfl
  have hstill := hstays fun w hw => by
    cases hcurrent.symm.trans hw
    rw [hsearched]
    decide
  exact ⟨hcurrent, by decide +kernel, ⟨_, _, _, _, _, rfl⟩, by decide +kernel,
    hstill.current.trans hsearched, Option.isNone_iff_eq_none.mp (by decide +kernel)⟩

end Manager

end RpcPool

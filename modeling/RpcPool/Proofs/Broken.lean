import RpcPool.Proofs.Solo

/-!
# Operations that break

A probe that breaks leaves no outcome, and the operation whose batch it belongs to ends with an
error once the batch has been joined. By then the other probes of the batch have all ended and have
been taken note of. As long as an operation waits for batches it has not touched the registry, so
an operation that breaks leaves nothing half done.

Results:
1. `begin_plain`, `resume_plain`: an operation that is no iteration of a poll loop touches the
   registry only with its last step, and breaks for no other reason.
2. `Pursued.next`: what is known of such an operation after each of its moves.
3. `broken_exactly`: an operation alone breaks exactly if one of its probes does, and what it leaves
   behind.
-/

namespace RpcPool

/-- Whether a batch belongs to a prioritized poll. -/
def Stage.isSweep : Stage → Bool
  | .sweep _ => true
  | _ => false

namespace Manager

open Relation

variable {s t u a b : Manager} {m : Move} {moves : List Move} {f : FlightId} {owner : Owner}
  {options : CheckOptions} {stage : Stage} {probes : List BatchProbe} {op : Operation}
  {starts : List Attempt} {ends : List Ending}

/-! ## Between two batches -/

/-- An operation goes on to another batch with nothing changed, or it comes to its end unbroken. -/
def Plain (s : Manager) (r : Manager × Progress) : Prop :=
  match r.2 with
  | .await _ stage _ => stage.isSweep = false ∧ r.1 = s
  | .done reply => ∀ b, reply ≠ .broken b

theorem begin_plain (s : Manager) (hop : ∀ o, op ≠ .poll o) : s.Plain (s.begin op) := by
  have hflag (reply : Bool) : ∀ b, Reply.flag reply ≠ .broken b := fun b h => by cases h
  cases op with
  | checkConnection =>
    dsimp only [begin]
    unfold beginStatus
    split
    · exact hflag false
    · exact ⟨rfl, rfl⟩
  | checkConnections conns excluded =>
    dsimp only [begin]
    unfold beginRanking
    dsimp only
    split
    · exact hflag _
    · exact ⟨rfl, rfl⟩
  | bestAvailable excluded =>
    dsimp only [begin]
    split
    · exact fun b h => by cases h
    · exact ⟨rfl, rfl⟩
  | poll o => exact absurd rfl (hop o)

theorem resume_plain (s : Manager) (options : CheckOptions) (hstage : stage.isSweep = false)
    (probed : List (Connection × Bool)) :
    (s.publishStatus probed).Plain (s.resume options stage probed) := by
  have hflag (reply : Bool) : ∀ b, Reply.flag reply ≠ .broken b := fun b h => by cases h
  cases stage with
  | status watched =>
    dsimp only [resume]
    split
    · split
      · exact hflag _
      · exact ⟨rfl, rfl⟩
    · exact hflag _
  | failover watched changed q =>
    dsimp only [resume]
    split
    · exact hflag changed
    · split
      · exact hflag changed
      · exact ⟨rfl, rfl⟩
  | search q =>
    dsimp only [resume]
    split
    · exact fun b h => by cases h
    · split
      · exact fun b h => by cases h
      · exact ⟨rfl, rfl⟩
  | ranking => exact hflag _
  | sweep q => exact absurd hstage (by simp [Stage.isSweep])

/-- The answer of an operation that is no iteration of a poll loop can be collected. -/
theorem land_answers (s : Manager) (f : FlightId) (reply : Reply) (h : ∀ id, owner ≠ .loop id) :
    (s.land f owner reply).answers.lookup f = some reply := by
  obtain ⟨poller, loops, timers, ready, hrelease⟩ := release_eq { s with
    flights := without f s.flights, answers := upsert f reply s.answers }
  unfold land
  cases owner with
  | caller =>
    dsimp only
    rw [hrelease]
    exact lookup_upsert_self _ _ _
  | task =>
    dsimp only
    rw [hrelease]
    exact lookup_upsert_self _ _ _
  | loop id => exact absurd rfl (h id)

/-! ## An operation that has begun -/

/-- The batch that an operation has broken with. All its probes are over, and each of them that has
not broken has been taken note of. -/
def FailedBatch (s : Manager) (moves : List Move) (f : FlightId) (b : BrokenBatch) : Prop :=
  ∃ before after, moves = before ++ .turn (.flight f) :: after ∧
    let probes := (before.foldl next s).batchEnd (.turn (.flight f))
    (∃ p ∈ probes, p.task = b.task ∧ p.state = .panicked) ∧
    ∀ p ∈ probes, ∃ a ∈ s.attempts before, a.task = p.task ∧ a.connection = p.connection ∧
      ((p.state = .panicked ∧ a.behaviour = .panic) ∨ ∃ e ∈ s.endings before, e.task = p.task ∧
        e.connection = p.connection ∧ a.outcome? = some e.outcome)

/-- An operation that began in `s` waits for a batch, and none of the earlier ones has broken. -/
structure Pursuing (f : FlightId) (s t : Manager) (starts : List Attempt) : Prop where
  observing : t.Observing
  registry : t.pool.registry = s.pool.registry
  batch : ∃ owner options stage probes,
    t.flights.lookup f = some ⟨owner, .batch options stage probes⟩ ∧
    (∀ id, owner ≠ .loop id) ∧ stage.isSweep = false ∧ (∀ p ∈ probes, s.started < p.task) ∧
    ∀ a ∈ starts, a.outcome? = none → a.task ∈ probes.map (·.task)

/-- An operation that began in `s` has come to its end. -/
structure Answered (f : FlightId) (s : Manager) (moves : List Move) (t : Manager) : Prop where
  ended : t.flights.lookup f = none
  answer : ∃ reply, t.answers.lookup f = some reply ∧
    ((∃ b, reply = .broken b) ↔ ∃ a ∈ s.attempts moves, a.outcome? = none) ∧
    ∀ b, reply = .broken b → t.pool.registry = s.pool.registry ∧ s.FailedBatch moves f b

/-- How far an operation that began in `s` has come, and what has become known by its probes. -/
structure Pursued (f : FlightId) (s : Manager) (moves : List Move) (t : Manager) : Prop where
  health : ∀ c, t.pool.healthOf c =
    (shownBy c (s.endings moves)).foldl Health.observe (s.pool.healthOf c)
  fresh : ∀ a ∈ s.attempts moves, s.started < a.task
  own : ∀ e ∈ s.endings moves, s.started < e.task
  come : Pursuing f s t (s.attempts moves) ∨ Answered f s moves t

/-- A plain operation goes on, or it ends unbroken. -/
theorem Plain.pursued {r : Manager × Progress} (hplain : a.Plain r)
    (hobserving : a.Observing) (hregistry : a.pool.registry = s.pool.registry)
    (hhealth : ∀ c, r.1.pool.healthOf c =
      (shownBy c (s.endings moves)).foldl Health.observe (s.pool.healthOf c))
    (hstarted : s.started ≤ r.1.started) (howner : ∀ id, owner ≠ .loop id)
    (hfresh : ∀ a ∈ s.attempts moves, s.started < a.task)
    (hown : ∀ e ∈ s.endings moves, s.started < e.task)
    (hunbroken : ∀ a ∈ s.attempts moves, a.outcome? ≠ none) :
    Pursued f s moves (r.1.proceed f owner r.2) := by
  obtain ⟨b, progress⟩ := r
  cases progress with
  | await options stage conns =>
    obtain ⟨hstage, rfl⟩ := hplain
    have hlookup := launch_lookup b f owner options stage conns
    obtain ⟨ready, hlaunch⟩ := launch_rest b f owner options stage conns
    show Pursued f s moves (b.launch f owner options stage conns)
    rw [hlaunch] at hlookup ⊢
    refine ⟨hhealth, hfresh, hown, Or.inl ⟨hobserving, hregistry, owner, options, stage, _, hlookup,
      howner, hstage, fun p hp => ?_, fun a ha hnone => absurd hnone (hunbroken a ha)⟩⟩
    obtain ⟨i, hi⟩ := List.mem_iff_getElem?.mp hp
    have htask := (getElem?_opened hi).2.1
    have hle : s.started ≤ b.started := hstarted
    omega
  | done reply =>
    have hanswer := land_answers b f reply howner
    have hgone := land_gone b f owner reply
    obtain ⟨answers, poller, loops, timers, ready, trace, hland⟩ := land_eq b f owner reply
    show Pursued f s moves (b.land f owner reply)
    rw [hland] at hanswer hgone ⊢
    refine ⟨hhealth, hfresh, hown, Or.inr ⟨hgone, reply, hanswer, ⟨?_, ?_⟩, ?_⟩⟩
    · rintro ⟨broken, hbroken⟩
      exact absurd hbroken (hplain broken)
    · rintro ⟨a, ha, hnone⟩
      exact absurd hnone (hunbroken a ha)
    · exact fun broken hbroken => absurd hbroken (hplain broken)

theorem Undertakes.turning (h : Undertakes s m f op) : s.turning m = none := by
  cases h with
  | awaited _ => rfl
  | task _ _ => rfl
  | iteration _ _ _ _ => rfl

theorem Undertakes.pursued (h : Undertakes s m f op) (hs : s.Numbered)
    (htasked : s.Tasked fun _ => False) (hobserving : s.Observing) (hop : ∀ o, op ≠ .poll o) :
    Pursued f s [m] (s.next m) := by
  have hnone : s.attempts [m] = [] ∧ s.endings [m] = [] := by
    refine ⟨?_, ?_⟩
    · show s.startsIn m ++ [] = []
      rw [startsIn_none h.turning, List.append_nil]
    · show s.endsIn m ++ [] = []
      rw [endsIn_none h.turning, List.append_nil]
  obtain ⟨a, hprepared, hnext⟩ := h.begins hs
  obtain ⟨nextId, flights, loops, ready, hbooked⟩ := hprepared.bookkeeping
  have hstarted : s.started ≤ (a.begin op).1.started :=
    Nat.le_trans hprepared.lasting.started (Chores.lasting (begin_chores a op)).started
  have hquiet : a.Observing := by
    rw [hbooked]
    exact hobserving
  have hpool : a.pool = s.pool := by rw [hbooked]
  have hsteered := (begin_followed a op).steered hquiet
  rw [hnext]
  refine (begin_plain a hop).pursued hquiet (by rw [hpool]) (fun c => ?_) hstarted
    (h.answers htasked hop) (fun a ha => ?_) (fun e he => ?_) (fun a ha => ?_)
  · rw [hnone.2]
    show (a.begin op).1.pool.health.get c.id = s.pool.health.get c.id
    rw [hsteered.health, hpool]
  · rw [hnone.1] at ha
    exact absurd ha List.not_mem_nil
  · rw [hnone.2] at he
    exact absurd he List.not_mem_nil
  · rw [hnone.1] at ha
    exact absurd ha List.not_mem_nil

theorem FailedBatch.append {broken : BrokenBatch} (h : s.FailedBatch moves f broken)
    (more : List Move) : s.FailedBatch (moves ++ more) f broken := by
  obtain ⟨before, after, rfl, hbatch⟩ := h
  refine ⟨before, after ++ more, ?_, hbatch⟩
  rw [List.append_assoc, List.cons_append]

/-- A probe of a joined batch has an entry that says what has become of it. -/
theorem Ledger.joined_entry (h : Ledger s.started starts ends t)
    (hflight : t.flights.lookup f = some ⟨owner, .batch options stage probes⟩)
    (hjoined : joined probes = true) {p : BatchProbe} (hp : p ∈ probes)
    (hfresh : s.started < p.task) : ∃ a ∈ starts, a.task = p.task ∧ a.connection = p.connection ∧
      ((p.state = .panicked ∧ a.outcome? = none) ∨
        (∃ changed, p.state = .ended changed) ∧ ∃ e ∈ ends, e.task = p.task ∧
          e.connection = p.connection ∧ a.outcome? = some e.outcome) := by
  have hover := over_cases (List.all_eq_true.mp hjoined p hp)
  obtain ⟨i, hi⟩ := List.mem_iff_getElem?.mp hp
  obtain ⟨a, ha, htask, hconnection, _, hstands⟩ :=
    h.begun ((probe?_batch hflight i).trans hi) (by rcases hover with hstate | ⟨_, hstate⟩ <;>
      simp [hstate]) hfresh
  refine ⟨a, ha, htask, hconnection, ?_⟩
  rcases hover with hstate | ⟨changed, hstate⟩
  · rw [hstate] at hstands
    exact Or.inl ⟨hstate, hstands⟩
  · rw [hstate] at hstands
    obtain ⟨e, he, hetask⟩ := List.mem_map.mp hstands
    obtain ⟨d, hd, hsame, hdconnection, houtcome⟩ := h.matched e he (by omega)
    have hda : d = a := h.attempt_unique hd ha (hsame.trans hetask)
    subst hda
    exact Or.inr ⟨⟨changed, hstate⟩, e, he, hetask.trans htask, hdconnection.symm.trans hconnection,
      houtcome⟩

/-- A batch whose probes have all ended has not broken. -/
theorem Ledger.unbroken (h : Ledger s.started starts ends t)
    (hflight : t.flights.lookup f = some ⟨owner, .batch options stage probes⟩)
    (hjoined : joined probes = true) {probed : List (Connection × Bool)}
    (hchanges : changes probes = .ok probed) (hnew : ∀ p ∈ probes, s.started < p.task)
    (hbroken : ∀ a ∈ starts, a.outcome? = none → a.task ∈ probes.map (·.task)) :
    ∀ a ∈ starts, a.outcome? ≠ none := by
  intro a ha hnone
  obtain ⟨p, hp, htask⟩ := List.mem_map.mp (hbroken a ha hnone)
  obtain ⟨d, hd, hsame, _, ⟨hpanicked, _⟩ | ⟨_, e, _, _, _, houtcome⟩⟩ :=
    h.joined_entry hflight hjoined hp (hnew p hp)
  · obtain ⟨changed, hended⟩ := changes_ended hchanges p hp
    exact absurd (hpanicked.symm.trans hended) (by simp)
  · have hda : d = a := h.attempt_unique hd ha (hsame.trans htask)
    rw [hda, hnone] at houtcome
    exact absurd houtcome (by simp)

theorem batchEnd_joined (hready : .flight f ∈ t.ready)
    (hflight : t.flights.lookup f = some ⟨owner, .batch options stage probes⟩)
    (hjoined : joined probes = true) : t.batchEnd (.turn (.flight f)) = probes := by
  show (if t.ready.contains (.flight f) then t.joinedBatch f else []) = probes
  rw [if_pos (List.contains_iff_mem.mpr hready), joinedBatch_batch hflight, if_pos hjoined]

/-- An operation finds that its batch has broken. -/
theorem Pursuing.breaks (h : Pursuing f s t (s.attempts moves)) (ht : t = moves.foldl next s)
    (hledger : Ledger s.started (s.attempts moves) (s.endings moves) t)
    (hflight : t.flights.lookup f = some ⟨owner, .batch options stage probes⟩)
    (howner : ∀ id, owner ≠ .loop id) (hnew : ∀ p ∈ probes, s.started < p.task)
    (hready : .flight f ∈ t.ready) (hjoined : joined probes = true) {task : Nat}
    (hchanges : changes probes = .error task)
    (hattempts : s.attempts (moves ++ [.turn (.flight f)]) = s.attempts moves) :
    Answered f s (moves ++ [.turn (.flight f)])
      (({ t with ready := t.ready.erase (.flight f) } : Manager).land f owner
        (.broken ⟨Stage.operation stage, task⟩)) := by
  let erased : Manager := { t with ready := t.ready.erase (.flight f) }
  let reply : Reply := .broken ⟨Stage.operation stage, task⟩
  obtain ⟨q, hq, hqtask, hunended⟩ := changes_error hchanges
  obtain ⟨d, hd, _, _, ⟨hpanicked, hnone⟩ | ⟨⟨changed, hended⟩, _⟩⟩ :=
    hledger.joined_entry hflight hjoined hq (hnew q hq)
  · have hanswer := land_answers erased f reply howner
    have hgone := land_gone erased f owner reply
    obtain ⟨answers, poller, loops, timers, ready, trace, hland⟩ := land_eq erased f owner reply
    rw [hland] at hanswer hgone ⊢
    refine ⟨hgone, reply, hanswer, ⟨fun _ => ?_, fun _ => ⟨_, rfl⟩⟩, fun b hb => ⟨h.registry, ?_⟩⟩
    · rw [hattempts]
      exact ⟨d, hd, hnone⟩
    · have hb : Reply.broken ⟨Stage.operation stage, task⟩ = .broken b := hb
      cases hb
      refine ⟨moves, [], rfl, ?_⟩
      rw [← ht, batchEnd_joined hready hflight hjoined]
      refine ⟨⟨q, hq, hqtask, hpanicked⟩, fun p hp => ?_⟩
      obtain ⟨a, ha, htask, hconnection, ⟨hpanicked, hnone⟩ | ⟨_, e, he, hshown⟩⟩ :=
        hledger.joined_entry hflight hjoined hp (hnew p hp)
      · exact ⟨a, ha, htask, hconnection,
          Or.inl ⟨hpanicked, Behaviour.outcome?_eq_none.mp hnone⟩⟩
      · exact ⟨a, ha, htask, hconnection, Or.inr ⟨e, he, hshown⟩⟩
  · exact absurd hended (hunended changed)

/-- A move that gives no probe its turn adds nothing to the ledger. -/
theorem entries_concat {k : Move} (ht : t = moves.foldl next s) (hturning : t.turning k = none) :
    s.attempts (moves ++ [k]) = s.attempts moves ∧
      s.endings (moves ++ [k]) = s.endings moves := by
  rw [attempts_concat, endings_concat, ← ht, startsIn_none hturning, endsIn_none hturning,
    List.append_nil, List.append_nil]
  exact ⟨rfl, rfl⟩

/-- A probe of the batch that an operation waits for has taken its turn. -/
theorem Pursued.probed {i : Nat} {p : BatchProbe} {state : ProbeState}
    (h : Pursued f s moves t) (hpursuing : Pursuing f s t (s.attempts moves))
    (ht : t = moves.foldl next s)
    (hflight : t.flights.lookup f = some ⟨owner, .batch options stage probes⟩)
    (howner : ∀ id, owner ≠ .loop id) (hstage : stage.isSweep = false)
    (hnew : ∀ p ∈ probes, s.started < p.task)
    (hbroken : ∀ a ∈ s.attempts moves, a.outcome? = none → a.task ∈ probes.map (·.task))
    (hready : .probe f i ∈ t.ready) (hp : probes[i]? = some p) (hopen : p.state.isOver = false)
    (hstep : ProbeStep f i p { t with ready := t.ready.erase (.probe f i) } state
      (t.next (.turn (.probe f i)))) :
    Pursued f s (moves ++ [.turn (.probe f i)]) (t.next (.turn (.probe f i))) := by
  have hattempts : s.attempts (moves ++ [.turn (.probe f i)]) =
      s.attempts moves ++ t.startsIn (.turn (.probe f i)) := by rw [attempts_concat, ht]
  have hendings : s.endings (moves ++ [.turn (.probe f i)]) =
      s.endings moves ++ t.endsIn (.turn (.probe f i)) := by rw [endings_concat, ht]
  have hprobe : t.probe? f i = some p := (probe?_batch hflight i).trans hp
  have hentries := next_entries hready hprobe hstep
  have hturned := hstep.turned hprobe hopen
  have hstepped := hstep.stepped hflight
  have hmore {a : Attempt} (ha : a ∈ t.startsIn (.turn (.probe f i))) :
      a.task ∈ probes.map (·.task) := by
    obtain ⟨rfl, _⟩ := mem_more hentries hturned ha
    exact List.mem_map_of_mem (List.mem_of_getElem? hp)
  have htasks : (probes.modify i fun p => { p with state := state }).map (·.task) =
      probes.map (·.task) := by
    have hfixed := congrArg (List.map (·.2.2)) (fixed_modify probes i state)
    rwa [List.map_map, List.map_map] at hfixed
  have hfresh {n : Nat} (hn : n ∈ probes.map (·.task)) : s.started < n := by
    obtain ⟨q, hq, rfl⟩ := List.mem_map.mp hn
    exact hnew q hq
  refine ⟨fun c => ?_, fun a ha => ?_, fun e he => ?_, Or.inl ⟨?_, ?_, owner, options, stage, _,
    hstepped.lookup, howner, hstage, fun q hq => ?_, fun a ha hnone => ?_⟩⟩
  · rw [hendings, shownBy_append, List.foldl_append, ← h.health]
    exact probe_health hstep c
  · rw [hattempts] at ha
    exact (List.mem_append.mp ha).elim (h.fresh a) fun hnew => hfresh (hmore hnew)
  · rw [hendings] at he
    refine (List.mem_append.mp he).elim (h.own e) fun hdone => ?_
    rw [mem_done hentries hdone]
    exact hnew p (List.mem_of_getElem? hp)
  · exact hstep.still.observing hpursuing.observing
  · exact hstepped.registry.trans hpursuing.registry
  · exact hfresh (htasks ▸ List.mem_map_of_mem hq)
  · rw [htasks]
    rw [hattempts] at ha
    exact (List.mem_append.mp ha).elim (fun hold => hbroken a hold hnone) hmore

/-- An operation goes on from a batch whose probes have all ended. -/
theorem Pursued.resumed {probed : List (Connection × Bool)} (h : Pursued f s moves t)
    (hpursuing : Pursuing f s t (s.attempts moves)) (hgrows : s.started ≤ t.started)
    (howner : ∀ id, owner ≠ .loop id) (hstage : stage.isSweep = false)
    (hunbroken : ∀ a ∈ s.attempts moves, a.outcome? ≠ none)
    (ha : a = { t with ready := t.ready.erase (.flight f) }) :
    Pursued f s moves
      ((a.resume options stage probed).1.proceed f owner (a.resume options stage probed).2) := by
  have hquiet : a.Observing := by
    rw [ha]
    exact hpursuing.observing
  obtain ⟨houtline, hobserving⟩ := publishStatus_outline hquiet probed
  have hsteered := resume_steered hquiet options stage probed
  have hresumed : a.started ≤ (a.resume options stage probed).1.started :=
    (Chores.lasting (resume_chores a options stage probed)).started
  refine (resume_plain a options hstage probed).pursued hobserving ?_ (fun c => ?_) ?_ howner
    h.fresh h.own hunbroken
  · rw [outline_pool houtline, ha]
    exact hpursuing.registry
  · show (a.resume options stage probed).1.pool.health.get c.id = _
    rw [← h.health, hsteered.health, ha]
    rfl
  · rw [ha] at hresumed ⊢
    exact Nat.le_trans hgrows hresumed

/-- What is known of an operation stays known when its moves add nothing to the ledger. -/
theorem Pursued.concat {k : Move} (h : Pursued f s moves u)
    (hsame : s.attempts (moves ++ [k]) = s.attempts moves ∧
      s.endings (moves ++ [k]) = s.endings moves) : Pursued f s (moves ++ [k]) u := by
  obtain ⟨hstarts, hends⟩ := hsame
  refine ⟨hends ▸ h.health, hstarts ▸ h.fresh, hends ▸ h.own, ?_⟩
  rcases h.come with hpursuing | ⟨hended, reply, hanswer, hiff, hfailed⟩
  · exact Or.inl (hstarts ▸ hpursuing)
  · refine Or.inr ⟨hended, reply, hanswer, ?_, fun b hb => ⟨(hfailed b hb).1,
      (hfailed b hb).2.append [k]⟩⟩
    rw [hstarts]
    exact hiff

/-- What is known of an operation after one more of its moves. -/
theorem Pursued.next {k : Move} (h : Pursued f s moves t) (ht : t = moves.foldl next s)
    (hs : s.Tended) (htended : t.Tended)
    (hledger : Ledger s.started (s.attempts moves) (s.endings moves) t) (hk : k.within f) :
    Pursued f s (moves ++ [k]) (t.next k) := by
  rcases h.come with hpursuing | hanswered
  · obtain ⟨owner, options, stage, probes, hflight, howner, hstage, hnew, hbroken⟩ :=
      hpursuing.batch
    have halone := htended.alone hflight hk
    generalize hnext : t.next k = u at halone ⊢
    cases halone with
    | rests hturning =>
      refine Pursued.concat ⟨h.health, h.fresh, h.own, Or.inl ?_⟩ (entries_concat ht hturning)
      exact ⟨hpursuing.observing, hpursuing.registry, owner, options, stage, probes, hflight,
        howner, hstage, hnew, hbroken⟩
    | @probes i p state _ hready hp hopen hstep =>
      subst hnext
      exact h.probed hpursuing ht hflight howner hstage hnew hbroken hready hp hopen hstep
    | @breaks task _ hready hjoined hchanges hland =>
      obtain ⟨hstarts, hends⟩ := entries_concat ht (k := .turn (.flight f)) rfl
      have hanswered := hpursuing.breaks ht hledger hflight howner hnew hready hjoined hchanges
        hstarts
      rw [← hland] at hanswered
      refine ⟨fun c => ?_, hstarts ▸ h.fresh, hends ▸ h.own, Or.inr hanswered⟩
      rw [hends, ← h.health, hland]
      obtain ⟨answers, poller, loops, timers, ready, trace, heq⟩ := land_eq
        ({ t with ready := t.ready.erase (.flight f) } : Manager) f owner
        (.broken ⟨Stage.operation stage, task⟩)
      rw [heq]
    | @goesOn probed a _ hready hjoined hchanges ha hgoes =>
      have hgrows : s.started ≤ t.started := ht ▸ hs.run_grows moves
      have hunbroken := hledger.unbroken hflight hjoined hchanges hnew hbroken
      rw [hgoes]
      exact (h.resumed hpursuing hgrows howner hstage hunbroken ha).concat (entries_concat ht rfl)
  · obtain ⟨now, timers, ready, hnext⟩ := ended_next hk hanswered.ended
    rw [hnext]
    exact Pursued.concat ⟨h.health, h.fresh, h.own, Or.inr ⟨hanswered.ended, hanswered.answer⟩⟩
      (entries_concat ht (ended_turning hanswered.ended hk))

/-- What is known of an operation, in every run in which it is the only one to move. -/
theorem Undertakes.pursued_run (h : Undertakes s m f op) (hs : s.Tended)
    (htasked : s.Tasked fun _ => False) (hobserving : s.Observing) (hop : ∀ o, op ≠ .poll o)
    (hmoves : ∀ k ∈ moves, k.within f) :
    Pursued f s (m :: moves) ((m :: moves).foldl next s) := by
  induction moves using List.reverseRecOn with
  | nil => exact h.pursued hs.numbered htasked hobserving hop
  | append_singleton rest k ih =>
    have hrest := ih fun l hl => hmoves l (List.mem_append_left _ hl)
    have hk : k.within f := hmoves k (List.mem_append_right _ List.mem_cons_self)
    have hledger := ledger_run hs (fun _ _ _ hp => (hs.tasks hp).2) (m :: rest)
    have hnext := hrest.next rfl hs (hs.run_moves (m :: rest)) hledger hk
    rw [← List.cons_append, List.foldl_append]
    exact hnext

/-- An operation that is the only one to move comes to its end, and it breaks exactly if one of its
probes has. It has then touched neither the list of connections nor what is current nor the
settings, and every other probe of its last batch has ended and been taken note of. What is known of
each connection is what the probes that ended have made of it, each of them once, and a probe that
breaks never ends. -/
theorem broken_exactly (h : Reachable s) (observing : s.Observing) (hop : Undertakes s m f op)
    (hplain : ∀ o, op ≠ .poll o) (hmoves : ∀ k ∈ moves, k.within f)
    (ht : t = (m :: moves).foldl next s) :
    let starts := s.attempts (m :: moves)
    let ends := s.endings (m :: moves)
    (∃ more : List Move, (∀ k ∈ more, k.within f) ∧ (more.foldl next t).flights.lookup f = none) ∧
    (t.flights.lookup f = none → ∃ reply, t.answers.lookup f = some reply ∧
      ((∃ b, reply = .broken b) ↔ ∃ a ∈ starts, a.behaviour = .panic) ∧
      ∀ b, reply = .broken b →
        t.pool.registry = s.pool.registry ∧ s.FailedBatch (m :: moves) f b) ∧
    (∀ c, t.pool.healthOf c = (shownBy c ends).foldl Health.observe (s.pool.healthOf c)) ∧
    (starts.map (·.task)).Nodup ∧ (ends.map (·.task)).Nodup ∧
    (∀ e ∈ ends, ∃ a ∈ starts, a.task = e.task ∧ a.connection = e.connection ∧
      a.outcome? = some e.outcome) ∧
    ∀ a ∈ starts, a.behaviour = .panic → a.task ∉ ends.map (·.task) := by
  subst ht
  intro starts ends
  have hs : s.Tended := h.tended
  have hledger : Ledger s.started starts ends ((m :: moves).foldl next s) :=
    ledger_run hs (fun _ _ _ hp => (hs.tasks hp).2) (m :: moves)
  obtain ⟨hhealth, hfresh, hown, hcome⟩ := hop.pursued_run hs h.tasked observing hplain hmoves
  refine ⟨hop.can_end hs hmoves, fun hended => ?_, hhealth, hledger.startedOnce,
    hledger.endedOnce, fun e he => ?_, fun a ha hpanic => ?_⟩
  · rcases hcome with hpursuing | hanswered
    · obtain ⟨owner, options, stage, probes, hflight, _⟩ := hpursuing.batch
      exact absurd (hended.symm.trans hflight) (by simp)
    · simpa only [Behaviour.outcome?_eq_none, Attempt.outcome?] using hanswered.answer
  · exact hledger.matched e he (hown e he)
  · exact hledger.broken_unended ha (hfresh a ha) (Behaviour.outcome?_eq_none.mpr hpanic)

/-- A is current, and offline. The endpoint of B breaks, and C answers after a while. -/
def breaking : Manager :=
  [.call (.add { uri := "A", priority := 2 } none), .call (.add { uri := "B", priority := 1 } none),
    .call (.add { uri := "C", priority := 1 } none), .call (.select (some "A")),
    .call (.addListener "log" [] 0)].foldl next
      (idle ⟨[("A", ⟨[], some (.reply 0 (.ok ⟨false, .ofMillis 5⟩))⟩), ("B", ⟨[], some .panic⟩),
        ("C", ⟨[], some (.reply 20 (.ok ⟨true, .ofMillis 5⟩))⟩)]⟩ true)

/-- A search finds nothing in the first group, and goes on to the second. -/
def breakage : List Move :=
  [.turn (.probe 0 0), .turn (.flight 0), .turn (.probe 0 0), .turn (.probe 0 1), .clock 20,
    .turn (.probe 0 1), .turn (.flight 0)]

theorem breakage_broken :
    let c : Connection := ⟨2, { uri := "C", priority := 1 }⟩
    let m := Move.await (.bestAvailable [])
    let t := (m :: breakage).foldl next breaking
    Reachable breaking ∧ breaking.Observing ∧
    (∃ b, t.answers.lookup 0 = some (.broken b) ∧ breaking.FailedBatch (m :: breakage) 0 b) ∧
    t.pool.registry = breaking.pool.registry ∧
    t.pool.healthOf c = Health.unprobed.observe (.ok ⟨true, .ofMillis 5⟩) := by
  intro c m t
  have hreachable : Reachable breaking := .foldl _ (.new _ true [])
  have hobserving : breaking.Observing := by decide +kernel
  have hmoves : ∀ k ∈ breakage, k.within 0 := by simp [breakage, Move.within]
  have hended : t.flights.lookup 0 = none := Option.isNone_iff_eq_none.mp (by decide +kernel)
  have hfirst : breaking.nextId = 0 := by decide +kernel
  have hop : Undertakes breaking m 0 (breaking.operation (.bestAvailable [])) :=
    hfirst ▸ .awaited (by decide +kernel)
  have hpanic : ∃ a ∈ breaking.attempts (m :: breakage), a.outcome? = none := by
    have hany : (breaking.attempts (m :: breakage)).any (·.outcome?.isNone) = true := by
      decide +kernel
    obtain ⟨a, ha, hnone⟩ := List.any_eq_true.mp hany
    exact ⟨a, ha, Option.isNone_iff_eq_none.mp hnone⟩
  have hbefore : breaking.pool.healthOf c = .unprobed := by decide +kernel
  have hshown : shownBy c (breaking.endings (m :: breakage)) = [.ok ⟨true, .ofMillis 5⟩] := by
    decide +kernel
  obtain ⟨_, hanswers, hhealth, _⟩ := broken_exactly (t := t) hreachable hobserving hop
    (fun o h => by cases h) hmoves rfl
  obtain ⟨reply, hanswer, hiff, hfailed⟩ := hanswers hended
  obtain ⟨a, ha, hnone⟩ := hpanic
  obtain ⟨b, rfl⟩ := hiff.mpr ⟨a, ha, Behaviour.outcome?_eq_none.mp hnone⟩
  obtain ⟨hregistry, hbatch⟩ := hfailed b rfl
  refine ⟨hreachable, hobserving, ⟨b, hanswer, hbatch⟩, hregistry, ?_⟩
  rw [hhealth, hshown, hbefore]
  rfl

end Manager

end RpcPool

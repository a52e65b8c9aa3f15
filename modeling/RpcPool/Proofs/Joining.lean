import RpcPool.Proofs.Alike

/-!
# What a joined batch comes to

The probes of a batch may end in any order. If its connections are told apart by their numbers, each
probe is the only one to take note of anything about its connection, so what the batch comes to is
said by the outcome of each probe alone: what is known of its connection by then, and whether that is
a change.

Results:
1. `Batching.turned`: how the probes of a batch have fared, whichever of them takes its turn next.
2. `Batching.ends`: an operation that has ended without a break has gone on from each of its batches,
   and what such a batch had come to.
-/

namespace RpcPool

/-- Instances that are pairwise distinct. -/
def Apart (cs : List Connection) : Prop := (cs.map (·.id)).Nodup

/-- The call of a probe. -/
def BatchProbe.call (p : BatchProbe) : Connection × UInt32 := (p.connection, p.timeoutMs)

/-- The call of a probe that has started. -/
def Attempt.call (x : Attempt) : Connection × UInt32 := (x.connection, x.timeoutMs)

/-- What a probe has shown about its connection: an outcome, or nothing if it broke. -/
def Shows (starts : List Attempt) (c : Connection) (outcome : Option Probe.Outcome) : Prop :=
  ∃ x ∈ starts, x.connection = c ∧ x.outcome? = outcome

/-- How a probe has fared, given what was known of its connection when its batch was opened, and
what is known of it by now. -/
def Fared (starts : List Attempt) (c : Connection) (before after : Health) : ProbeState → Prop
  | .queued => after = before
  | .waiting outcome => after = before ∧ Shows starts c (some outcome)
  | .ended changed => ∃ outcome, Shows starts c (some outcome) ∧ after = before.observe outcome ∧
      changed = (before.status != after.status)
  | .panicked => Shows starts c none

variable {starts : List Attempt} {c : Connection} {before after : Health} {conns : List Connection}

theorem Shows.append {outcome : Option Probe.Outcome} (h : Shows starts c outcome)
    (more : List Attempt) : Shows (starts ++ more) c outcome := by
  obtain ⟨x, hx, hshows⟩ := h
  exact ⟨x, List.mem_append_left _ hx, hshows⟩

theorem Fared.append {state : ProbeState} (h : Fared starts c before after state)
    (more : List Attempt) : Fared (starts ++ more) c before after state := by
  cases state with
  | queued => exact h
  | waiting outcome => exact ⟨h.1, h.2.append more⟩
  | ended changed =>
    obtain ⟨outcome, hshows, hafter, hchanged⟩ := h
    exact ⟨outcome, hshows.append more, hafter, hchanged⟩
  | panicked => exact Shows.append h more

theorem Apart.eq_of_id (h : Apart conns) {i j : Nat} {c d : Connection} (hi : conns[i]? = some c)
    (hj : conns[j]? = some d) (hid : c.id = d.id) : i = j := by
  have hci : (conns.map (·.id))[i]? = some c.id := by rw [List.getElem?_map, hi]; rfl
  have hcj : (conns.map (·.id))[j]? = some c.id := by rw [List.getElem?_map, hj, hid]; rfl
  obtain ⟨hlt, _⟩ := List.getElem?_eq_some_iff.mp hci
  exact (List.getElem?_inj hlt h).mp (hci.trans hcj.symm)

namespace Manager

variable {s t a u j : Manager} {f : FlightId} {i : Nat} {p : BatchProbe} {state : ProbeState}
  {owner : Owner} {options : CheckOptions} {stage : Stage} {probes : List BatchProbe}
  {moves : List Move}

/-! ## Aside from the pool -/

/-- Nothing that can be told has changed, but for the pool. -/
def Aside (s t : Manager) : Prop := Alike { s with pool := t.pool } t

theorem Aside.trans (h : Aside s t) (h' : Aside t u) : Aside s u := by
  have hbefore : Alike { s with pool := u.pool } { t with pool := u.pool } :=
    { h with pool := .refl u.pool }
  exact Alike.trans hbefore h'

theorem setProbe_aside (s : Manager) (f : FlightId) (i : Nat) (state : ProbeState) :
    Aside s (s.setProbe f i state) := by
  unfold setProbe
  split
  · exact { Alike.refl s with }
  · exact Alike.refl s

theorem wake_aside (s : Manager) (task : Task) : Aside s (s.wake task) := by
  obtain ⟨ready, hwake⟩ := wake_eq s task
  rw [hwake]
  exact { Alike.refl s with }

theorem endProbe_aside (s : Manager) (f : FlightId) (i : Nat) (c : Connection)
    (outcome : Probe.Outcome) : Aside s (s.endProbe f i c outcome) := by
  let noted : Manager := { s with pool := s.pool.observe c outcome }.record (.probeEnded c outcome)
  have hnoted : Aside s noted :=
    { Alike.refl { s with pool := s.pool.observe c outcome } with
      news := (news_record s (.probeEnded c outcome)).symm }
  exact (hnoted.trans (setProbe_aside noted f i _)).trans (wake_aside _ _)

theorem probing_aside (s : Manager) (p : BatchProbe) : Aside s (s.probing p) :=
  { Alike.refl s with news := (news_record s (.probeStarted p.connection p.timeoutMs)).symm }

theorem ProbeStep.aside (h : ProbeStep f i p s state t) : Aside s t := by
  have hset (state : ProbeState) : Aside s ((s.probing p).setProbe f i state) :=
    (probing_aside s p).trans (setProbe_aside (s.probing p) f i state)
  cases h with
  | breaks _ _ => exact (hset .panicked).trans (wake_aside _ _)
  | waits _ _ => exact (hset _).trans { Alike.refl _ with }
  | answers _ _ _ => exact (probing_aside s p).trans (endProbe_aside _ f i _ _)
  | ends _ => exact endProbe_aside s f i _ _

/-! ## The probes of a batch -/

/-- A batch that was opened in `a`, whose probes have started as is told. -/
structure Batching (options : CheckOptions) (conns : List Connection) (a : Manager)
    (starts : List Attempt) (t : Manager) (probes : List BatchProbe) : Prop where
  apart : Apart conns
  fixed : probes.map (·.fixed) = (a.opened options conns).map (·.fixed)
  aside : Aside a t
  registry : t.pool.registry = a.pool.registry
  begun : (starts.map (·.call)).Perm ((probes.filter fun p => p.state.begun).map (·.call))
  others : ∀ id, (∀ d ∈ conns, d.id ≠ id) → t.pool.health.get id = a.pool.health.get id
  fared : ∀ p ∈ probes, Fared starts p.connection (a.pool.healthOf p.connection)
    (t.pool.healthOf p.connection) p.state

theorem opened_connections (a : Manager) (options : CheckOptions) (conns : List Connection) :
    (a.opened options conns).map (·.connection) = conns :=
  connection_mapIdx (fun _ _ => rfl) conns

theorem Batching.connections (h : Batching options conns a starts t probes) :
    probes.map (·.connection) = conns := by
  have hfixed := congrArg (List.map (·.1)) h.fixed
  rw [List.map_map, List.map_map] at hfixed
  exact hfixed.trans (opened_connections a options conns)

theorem Batching.calls (h : Batching options conns a starts t probes) :
    probes.map (·.call) = (a.opened options conns).map (·.call) := by
  have hfixed := congrArg (List.map fun k => (k.1, k.2.1)) h.fixed
  rwa [List.map_map, List.map_map] at hfixed

/-- How a batch begins. -/
theorem batching_launch (a : Manager) (f : FlightId) (owner : Owner) (options : CheckOptions)
    (stage : Stage) (hapart : Apart conns) :
    Batching options conns a [] (a.launch f owner options stage conns)
      (a.opened options conns) := by
  have hqueued (p : BatchProbe) (hp : p ∈ a.opened options conns) : p.state = .queued := by
    obtain ⟨i, hi⟩ := List.mem_iff_getElem?.mp hp
    exact (getElem?_opened hi).2.2
  have hnone : (a.opened options conns).filter (fun p => p.state.begun) = [] :=
    List.filter_eq_nil_iff.mpr fun p hp => by simp [hqueued p hp, ProbeState.begun]
  obtain ⟨ready, hlaunch⟩ := launch_rest a f owner options stage conns
  rw [hlaunch]
  refine ⟨hapart, rfl, { Alike.refl a with }, rfl, ?_, fun _ _ => rfl, fun p hp => ?_⟩
  · rw [hnone]
    exact .nil
  · rw [hqueued p hp]
    rfl

/-- How the probe has fared that has taken its turn. -/
theorem ProbeStep.fared {before : Health} (hready : .probe f i ∈ t.ready)
    (hp : t.probe? f i = some p)
    (hstep : ProbeStep f i p { t with ready := t.ready.erase (.probe f i) } state
      (t.next (.turn (.probe f i))))
    (h : Fared starts p.connection before (t.pool.healthOf p.connection) p.state) :
    Fared (starts ++ t.startsIn (.turn (.probe f i))) p.connection before
      ((t.next (.turn (.probe f i))).pool.healthOf p.connection) state := by
  have hentries := next_entries hready hp hstep
  have hhealth := probe_health hstep p.connection
  generalize t.startsIn (.turn (.probe f i)) = more at hentries ⊢
  generalize t.endsIn (.turn (.probe f i)) = done at hentries hhealth
  generalize (t.next (.turn (.probe f i))).pool.healthOf p.connection = after at hhealth ⊢
  generalize t.next (.turn (.probe f i)) = u at hstep
  have hlast (x : Attempt) : x ∈ starts ++ [x] :=
    List.mem_append_right _ (List.mem_singleton_self x)
  -- a probe that ends has shown its outcome, and that is all that has become known
  have hended {outcome : Probe.Outcome} {starts : List Attempt}
      (h : t.pool.healthOf p.connection = before)
      (hhealth : after = (shownBy p.connection [⟨p.task, p.connection, outcome, t.now⟩]).foldl
        Health.observe (t.pool.healthOf p.connection))
      (hshows : Shows starts p.connection (some outcome)) :
      Fared starts p.connection before after
        (.ended (t.pool.wouldChange p.connection outcome)) := by
    have hshown : shownBy p.connection [⟨p.task, p.connection, outcome, t.now⟩] = [outcome] := by
      simp [shownBy, Ending.shown?]
    rw [hshown, h] at hhealth
    have hafter : after = before.observe outcome := hhealth
    refine ⟨outcome, hshows, hafter, ?_⟩
    rw [hafter, ← h]
    rfl
  cases hstep with
  | breaks _ _ =>
    cases hentries with
    | breaks _ hnone => exact ⟨_, hlast _, rfl, hnone⟩
  | waits hqueued _ =>
    rw [hqueued] at h
    cases hentries with
    | waits _ houtcome => exact ⟨hhealth.trans h, _, hlast _, rfl, houtcome⟩
  | @answers outcome hqueued houtcome _ =>
    rw [hqueued] at h
    cases hentries with
    | answers _ _ houtcome' _ =>
      cases houtcome.symm.trans houtcome'
      exact hended h hhealth ⟨_, hlast _, rfl, houtcome'⟩
    | ends _ hwaiting => exact absurd (hqueued.symm.trans hwaiting) (by simp)
  | @ends outcome hwaiting =>
    rw [hwaiting] at h
    obtain ⟨h, hshows⟩ := h
    cases hentries with
    | answers _ hqueued _ _ => exact absurd (hwaiting.symm.trans hqueued) (by simp)
    | ends _ hwaiting' =>
      cases hwaiting.symm.trans hwaiting'
      exact hended h hhealth (hshows.append _)

/-- The turn of a probe changes nothing that is known of another connection. -/
theorem ProbeStep.elsewhere {id : InstanceId} (hready : .probe f i ∈ t.ready)
    (hp : t.probe? f i = some p)
    (hstep : ProbeStep f i p { t with ready := t.ready.erase (.probe f i) } state
      (t.next (.turn (.probe f i)))) (hid : p.connection.id ≠ id) :
    (t.next (.turn (.probe f i))).pool.health.get id = t.pool.health.get id := by
  have hhealth := probe_health hstep ⟨id, p.connection.endpoint⟩
  have hnone : shownBy ⟨id, p.connection.endpoint⟩ (t.endsIn (.turn (.probe f i))) = [] := by
    have hentries := next_entries hready hp hstep
    generalize t.endsIn (.turn (.probe f i)) = done at hentries
    generalize t.startsIn (.turn (.probe f i)) = more at hentries
    cases hentries <;> simp [shownBy, Ending.shown?, hid]
  rw [hnone] at hhealth
  exact hhealth

/-- A batch after the turn of one of its probes. -/
theorem Batching.turned (h : Batching options conns a starts t probes)
    (hprobe : t.probe? f i = some p) (hp : probes[i]? = some p) (hopen : p.state.isOver = false)
    (hready : .probe f i ∈ t.ready)
    (hstep : ProbeStep f i p { t with ready := t.ready.erase (.probe f i) } state
      (t.next (.turn (.probe f i)))) :
    Batching options conns a (starts ++ t.startsIn (.turn (.probe f i)))
      (t.next (.turn (.probe f i))) (probes.modify i fun p => { p with state := state }) := by
  have hentries := next_entries hready hprobe hstep
  have hturned := hstep.turned hprobe hopen
  have hconn {k : Nat} {q : BatchProbe} (hk : probes[k]? = some q) :
      conns[k]? = some q.connection := by
    rw [← h.connections, List.getElem?_map, hk]
    rfl
  obtain ⟨_, _, _, probes', hflight, _⟩ := probe?_some hprobe
  have herased : Aside t { t with ready := t.ready.erase (.probe f i) } := { Alike.refl t with }
  refine ⟨h.apart, (fixed_modify probes i state).trans h.fixed,
    h.aside.trans (herased.trans hstep.aside),
    (hstep.stepped hflight).registry.trans h.registry, ?_, fun id hid => ?_, fun q hq => ?_⟩
  · have hbegun : state.begun = true := by
      cases state with
      | queued => exact absurd rfl hentries.state_ne
      | _ => rfl
    have hkey : BatchProbe.call { p with state := state } = p.call := rfl
    have hperm := filter_modify_perm hkey hp (fun _ => hbegun) h.begun
    rw [List.map_append]
    rcases hturned.open with hqueued | ⟨outcome, hwaiting⟩
    · rw [(hentries.start hqueued).1]
      rw [hbegun, hqueued] at hperm
      exact hperm
    · rw [(hentries.finish hwaiting).1]
      rw [hbegun, hwaiting] at hperm
      exact hperm
  · have hne : p.connection.id ≠ id := hid p.connection (List.mem_of_getElem? (hconn hp))
    exact (ProbeStep.elsewhere hready hprobe hstep hne).trans (h.others id hid)
  · obtain ⟨k, hk⟩ := List.mem_iff_getElem?.mp hq
    rw [List.getElem?_modify] at hk
    by_cases hik : i = k
    · subst hik
      rw [hp] at hk
      simp only [if_true, Option.map_eq_map, Option.map_some, Option.some.injEq] at hk
      subst hk
      have hfared := ProbeStep.fared hready hprobe hstep (h.fared p (List.mem_of_getElem? hp))
      exact hfared
    · have hold : probes[k]? = some q := by simpa [hik] using hk
      have hne : p.connection.id ≠ q.connection.id := fun hid =>
        hik (h.apart.eq_of_id (hconn hp) (hconn hold) hid)
      have hsame : (t.next (.turn (.probe f i))).pool.healthOf q.connection =
          t.pool.healthOf q.connection := ProbeStep.elsewhere hready hprobe hstep hne
      rw [hsame]
      exact (h.fared q (List.mem_of_getElem? hold)).append _

/-! ## The end of a batch -/

/-- A batch that was opened in `a` has been joined in `j`: what it has come to is said by what each
of its probes has shown. -/
structure Joined (options : CheckOptions) (conns : List Connection) (a : Manager)
    (starts : List Attempt) (j : Manager) (probed : List (Connection × Bool)) : Prop where
  aside : Aside a j
  registry : j.pool.registry = a.pool.registry
  calls : (starts.map (·.call)).Perm ((a.opened options conns).map (·.call))
  others : ∀ id, (∀ d ∈ conns, d.id ≠ id) → j.pool.health.get id = a.pool.health.get id
  shown : ∀ c ∈ conns, ∃ outcome, Shows starts c (some outcome) ∧
    j.pool.healthOf c = (a.pool.healthOf c).observe outcome
  verdicts : probed =
    conns.map fun c => (c, (a.pool.healthOf c).status != (j.pool.healthOf c).status)

theorem Batching.joined {probed : List (Connection × Bool)}
    (h : Batching options conns a starts t probes) (hchanges : changes probes = .ok probed)
    (ready : List Task) :
    Joined options conns a starts { t with ready := ready } probed := by
  have hended := changes_ended hchanges
  have hbegun (p : BatchProbe) (hp : p ∈ probes) : p.state.begun = true := by
    obtain ⟨changed, hstate⟩ := hended p hp
    rw [hstate]
    rfl
  have hcalls := h.begun
  rw [List.filter_eq_self.mpr hbegun, h.calls] at hcalls
  have herased : Aside t { t with ready := ready } := { Alike.refl t with }
  refine ⟨h.aside.trans herased, h.registry, hcalls, h.others, fun c hc => ?_, ?_⟩
  · rw [← h.connections] at hc
    obtain ⟨p, hp, rfl⟩ := List.mem_map.mp hc
    obtain ⟨changed, hstate⟩ := hended p hp
    have hfared := h.fared p hp
    rw [hstate] at hfared
    obtain ⟨outcome, hshows, hafter, _⟩ := hfared
    exact ⟨outcome, hshows, hafter⟩
  · rw [changes_eq hchanges, ← h.connections, List.map_map]
    refine List.map_congr_left fun p hp => ?_
    obtain ⟨changed, hstate⟩ := hended p hp
    have hfared := h.fared p hp
    rw [hstate] at hfared
    obtain ⟨_, _, _, hchanged⟩ := hfared
    unfold reported
    rw [hstate]
    exact congrArg (Prod.mk p.connection) hchanged

/-- With one of its moves, an operation has gone on from the batch that it waited for. -/
def GoesOn (f : FlightId) (owner : Owner) (options : CheckOptions) (stage : Stage)
    (conns : List Connection) (a : Manager) (starts : List Attempt) (t : Manager)
    (moves : List Move) : Prop :=
  ∃ before after j probed, moves = before ++ Move.turn (.flight f) :: after ∧
    Joined options conns a (starts ++ t.attempts before) j probed ∧
    t.attempts moves = t.attempts before ++
      ((before ++ [Move.turn (.flight f)]).foldl next t).attempts after ∧
    (before ++ [Move.turn (.flight f)]).foldl next t =
      (j.resume options stage probed).1.proceed f owner (j.resume options stage probed).2

/-- An operation that ends without a break has first gone on from the batch that it waits for. -/
theorem Batching.ends (h : Batching options conns a starts t probes)
    (hflight : t.flights.lookup f = some ⟨owner, .batch options stage probes⟩) (ht : t.Tended)
    (hmoves : ∀ m ∈ moves, m.within f) (hended : (moves.foldl next t).flights.lookup f = none)
    (hcalm : ∀ x ∈ starts ++ t.attempts moves, x.outcome? ≠ none) :
    GoesOn f owner options stage conns a starts t moves := by
  induction moves generalizing t starts probes with
  | nil => exact absurd (hended.symm.trans hflight) (by simp)
  | cons m rest ih =>
    have hsplit : t.attempts (m :: rest) = t.startsIn m ++ (t.next m).attempts rest := rfl
    rw [hsplit, ← List.append_assoc] at hcalm
    -- the batch is still waited for after this move
    have hlater {probes' : List BatchProbe}
        (h' : Batching options conns a (starts ++ t.startsIn m) (t.next m) probes')
        (hflight' : (t.next m).flights.lookup f = some ⟨owner, .batch options stage probes'⟩) :
        GoesOn f owner options stage conns a starts t (m :: rest) := by
      obtain ⟨before, after, j, probed, rfl, hjoined, hattempts, hgo⟩ := ih h' hflight' (ht.next m)
        (fun k hk => hmoves k (List.mem_cons_of_mem _ hk)) hended hcalm
      refine ⟨m :: before, after, j, probed, rfl, ?_, ?_, hgo⟩
      · rw [List.append_assoc] at hjoined
        exact hjoined
      · rw [hsplit, hattempts, ← List.append_assoc]
        rfl
    have halone := ht.alone hflight (hmoves m List.mem_cons_self)
    generalize hnext : t.next m = u at halone
    cases halone with
    | rests hturning =>
      have hsame : Batching options conns a (starts ++ t.startsIn m) (t.next m) probes := by
        rw [startsIn_none hturning, List.append_nil, hnext]
        exact ⟨h.apart, h.fixed, h.aside.trans { Alike.refl t with }, h.registry, h.begun,
          h.others, h.fared⟩
      exact hlater hsame (by rw [hnext]; exact hflight)
    | @probes i p state _ hready hp hopen hstep =>
      subst hnext
      exact hlater (h.turned ((probe?_batch hflight i).trans hp) hp hopen hready hstep)
        (hstep.stepped hflight).lookup
    | @breaks task _ hready hjoined hchanges hland =>
      obtain ⟨p, hp, _, hunended⟩ := changes_error hchanges
      have hfared := h.fared p hp
      rcases over_cases (List.all_eq_true.mp hjoined p hp) with hpanicked | ⟨changed, hended⟩
      · rw [hpanicked] at hfared
        obtain ⟨x, hx, _, hnone⟩ := hfared
        exact absurd hnone (hcalm x (List.mem_append_left _ (List.mem_append_left _ hx)))
      · exact absurd hended (hunended changed)
    | @goesOn probed j _ _ _ hchanges hj hgoes =>
      have hnone : t.startsIn (.turn (.flight f)) = [] := startsIn_none rfl
      refine ⟨[], rest, j, probed, rfl, ?_, ?_, hnext.trans hgoes⟩
      · rw [hj]
        exact (List.append_nil starts).symm ▸ h.joined hchanges _
      · rw [hsplit, hnone]
        rfl

end Manager

end RpcPool

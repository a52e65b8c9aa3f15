import RpcPool.Proofs.Unasked
import RpcPool.Proofs.Undisturbed

/-!
# What listeners are told in an undisturbed run

In an undisturbed run the calls of listeners are determined by two things: how the current pointer
moves, and which batches report a change of the connection that is current when they end. Every
listener is called once for each of these, and for nothing else.

How the pointer moves is said by the states that a run leads through, section by section. The pool is
also kept with every event, so the moves can be read off the history, and none is missed that way.

Results:
1. `announceWith_round`: a round calls the registered listeners one after the other and changes
   nothing.
2. `FollowStretch.accounted`, `next_accounted`: what is told in automatic moves, and in any move of
   a run.
3. `Pointed.visible`, `pointerMoves_iff`: the history shows every move of the pointer.
4. `due_iff`, `notified_exactly`: what is told in a run, as a list.
-/

namespace RpcPool

/-- The values that a pointer comes to take, given the values it is seen with and the first. -/
def shifts (k : Option Connection) : List (Option Connection) → List (Option Connection)
  | [] => []
  | x :: rest => if x = k then shifts k rest else x :: shifts x rest

/-- The current connections that some events have seen. -/
def seen (ms : List Moment) : List (Option Connection) := ms.map (·.pool.registry.current)

theorem shifts_append (k : Option Connection) (xs ys : List (Option Connection)) :
    shifts k (xs ++ ys) = shifts k xs ++ shifts (xs.getLastD k) ys := by
  induction xs generalizing k with
  | nil => rfl
  | cons x rest ih =>
    rw [List.cons_append, List.getLastD_cons]
    by_cases hx : x = k
    · subst hx
      simp only [shifts, if_true]
      exact ih x
    · simp only [shifts, hx, if_false, List.cons_append]
      rw [ih x]

theorem shifts_still {k : Option Connection} {xs : List (Option Connection)}
    (h : ∀ x ∈ xs, x = k) : shifts k xs = [] := by
  induction xs with
  | nil => rfl
  | cons x rest ih =>
    rw [shifts, if_pos (h x List.mem_cons_self)]
    exact ih fun y hy => h y (List.mem_cons_of_mem _ hy)

theorem shifts_once {j k : Option Connection} {xs : List (Option Connection)} (hne : xs ≠ [])
    (hjk : j ≠ k) (h : ∀ x ∈ xs, x = k) : shifts j xs = [k] := by
  cases xs with
  | nil => exact absurd rfl hne
  | cons x rest =>
    have hx : x = k := h x List.mem_cons_self
    subst hx
    rw [shifts, if_neg (Ne.symm hjk)]
    rw [shifts_still fun y hy => h y (List.mem_cons_of_mem _ hy)]

theorem getLastD_still {k : Option Connection} {xs : List (Option Connection)}
    (h : ∀ x ∈ xs, x = k) : xs.getLastD k = k := by
  induction xs with
  | nil => rfl
  | cons x rest ih =>
    rw [List.getLastD_cons, h x List.mem_cons_self]
    exact ih fun y hy => h y (List.mem_cons_of_mem _ hy)

theorem getLastD_once {j k : Option Connection} {xs : List (Option Connection)} (hne : xs ≠ [])
    (h : ∀ x ∈ xs, x = k) : xs.getLastD j = k := by
  cases xs with
  | nil => exact absurd rfl hne
  | cons x rest =>
    rw [List.getLastD_cons, h x List.mem_cons_self]
    exact getLastD_still fun y hy => h y (List.mem_cons_of_mem _ hy)

theorem seen_append (ms ms' : List Moment) : seen (ms ++ ms') = seen ms ++ seen ms' :=
  List.map_append

theorem mem_callbacks {ms : List Moment} {m : Moment} {name : String} {k : Option Connection}
    (hm : m ∈ ms) (h : m.event.told? = some (name, k)) : (name, k) ∈ callbacks ms :=
  List.mem_filterMap.mpr ⟨m, hm, h⟩

namespace Manager

open Relation

variable {s t u : Manager} {names : List String} {k : Option Connection}
  {rs : List (Option Connection)}

/-- How the current pointer has moved since an earlier state, as the history shows it. -/
def moved (s t : Manager) : List (Option Connection) :=
  shifts s.current (seen (since s t) ++ [t.current])

/-- The report that is due at the end of a batch: the current connection, if a probe of it has
changed its state. -/
def reports (s : Manager) (m : Move) : List (Option Connection) :=
  match s.current with
  | none => []
  | some c =>
    if (s.batchEnd m).any fun p => reported p && p.connection.same c then [some c] else []

/-- How the current pointer moves from one state to another, if nobody asks for it: section by
section, with answers of listeners in between. Two states of the run are compared each time, so a
move counts whether or not anybody is told of it. -/
inductive Pointed (s : Manager) : List (Option Connection) → Manager → Prop
  | start : Pointed s [] s
  | next {ks : List (Option Connection)} {t u : Manager} : Pointed s ks t →
      Unasked t u ∨ Replied t u → Pointed s (ks ++ shifts t.current [u.current]) u

/-- How the current pointer moves in one move of a run. An explicit call moves it at most once. -/
inductive PointerMoves (s : Manager) (m : Move) : List (Option Connection) → Prop
  | automatic {ks : List (Option Connection)} : m.automatic = true → Pointed s ks (s.next m) →
      PointerMoves s m ks
  | explicit : m.automatic = false → PointerMoves s m (shifts s.current [(s.next m).current])

/-- What listeners are to be told in a run: each of them, in order of registration, of every report
and of every move of the current pointer. -/
inductive Due : Manager → List Move → List (String × Option Connection) → Prop
  | nil (s : Manager) : Due s [] []
  | cons {s : Manager} {m : Move} {rest : List Move} {ks : List (Option Connection)}
      {later : List (String × Option Connection)} :
      PointerMoves s m ks → Due (s.next m) rest later →
      Due s (m :: rest) (((s.reports m ++ ks).flatMap fun k =>
        (s.next m).subscribers.map fun name => (name, k)) ++ later)

/-! ## Rounds -/

/-- Some listeners are called one after the other, with one connection, and nothing else changes. -/
structure Round (names : List String) (k : Option Connection) (s t : Manager) : Prop where
  later : s.trace <:+ t.trace
  outline : t.outline = s.outline
  callbacks : callbacks (since s t) = names.map fun name => (name, k)
  pools : ∀ m ∈ since s t, m.pool = s.pool

theorem Round.refl (k : Option Connection) (s : Manager) : Round [] k s s where
  later := List.suffix_rfl
  outline := rfl
  callbacks := by
    rw [since_same rfl]
    rfl
  pools := by
    rw [since_same rfl]
    exact fun m hm => absurd hm List.not_mem_nil

theorem Round.trans {names' : List String} (h : Round names k s t) (h' : Round names' k t u) :
    Round (names ++ names') k s u where
  later := h.later.trans h'.later
  outline := h'.outline.trans h.outline
  callbacks := by
    rw [since_append h.later h'.later, callbacks_append, h.callbacks, h'.callbacks,
      List.map_append]
  pools m hm := by
    rw [since_append h.later h'.later] at hm
    exact (List.mem_append.mp hm).elim (h.pools m)
      fun hm => (h'.pools m hm).trans (outline_pool h.outline)

theorem Round.note {e : Event} (he : e.told? = none) (k : Option Connection) (s : Manager) :
    Round [] k s (s.record e) where
  later := later_record s e
  outline := rfl
  callbacks := (Still.record he s).callbacks
  pools m hm := by
    rw [since_record, List.mem_singleton] at hm
    rw [hm]

theorem Round.call (name : String) (k : Option Connection) (s : Manager) :
    Round [name] k s (s.record (.notified name k)) where
  later := later_record s _
  outline := rfl
  callbacks := by
    rw [since_record]
    rfl
  pools m hm := by
    rw [since_record, List.mem_singleton] at hm
    rw [hm]

/-- What listeners will answer another time is of no account. -/
theorem Round.listeners (listeners : List (String × Listener)) (k : Option Connection)
    (s : Manager) : Round [] k s { s with listeners := listeners } :=
  ⟨List.suffix_rfl, rfl, (Round.refl k s).callbacks, (Round.refl k s).pools⟩

/-- What a listener asks when it is called is answered, and nothing comes of it. -/
theorem foldl_reactWith_round {calls : List Call} (h : ∀ c ∈ calls, c.observes = true)
    (k : Option Connection) (s : Manager) : Round [] k s (calls.foldl (reactWith act) s) := by
  induction calls generalizing s with
  | nil => exact .refl k s
  | cons c rest ih =>
    obtain ⟨labels, hcall⟩ := act_observes (h c List.mem_cons_self) s
    have hlabel : Round [] k s (act s c).1 := by
      rw [hcall]
      exact ⟨List.suffix_rfl, rfl, (Round.refl k s).callbacks, (Round.refl k s).pools⟩
    have hreact : Round [] k s (reactWith act s c) := hlabel.trans (.note rfl k _)
    exact hreact.trans (ih (fun d hd => h d (List.mem_cons_of_mem _ hd)) _)

theorem deliverWith_round (h : s.Attentive) (k : Option Connection) (name : String) :
    Round [name] k s (deliverWith act k s name) := by
  have hcalled : Round [name] k s (s.record (.notified name k)) := .call name k s
  unfold deliverWith
  rw [if_pos h.held]
  dsimp only
  split
  · next calls rest hl =>
    have hanswer : Round [] k (s.record (.notified name k))
        { s.record (.notified name k) with listeners := upsert name ⟨rest⟩ s.listeners } :=
      .listeners _ k _
    have hcalls : ∀ c ∈ calls, c.observes = true :=
      h.questions name calls (script_of_lookup (s := s) hl ▸ List.mem_cons_self)
    exact (hcalled.trans hanswer).trans (foldl_reactWith_round hcalls k _)
  · exact hcalled

theorem foldl_deliverWith_round (h : s.Attentive) (k : Option Connection) (names : List String) :
    Round names k s (names.foldl (deliverWith act k) s) := by
  induction names generalizing s with
  | nil => exact .refl k s
  | cons name rest ih =>
    have hsteady := deliverWith_steady act_steady h.sparing k name
    exact (deliverWith_round h k name).trans (ih (hsteady.attentive h))

/-- A round calls the registered listeners one after the other. It leaves an event in the history
even if there are none. -/
theorem announceWith_round (h : s.Attentive) (k : Option Connection) :
    Round s.subscribers k s (announceWith act s k) ∧ since s (announceWith act s k) ≠ [] := by
  let noted : Manager := s.record (.announced k s.subscribers.length)
  have hnote : Round [] k s noted := .note rfl k s
  have hdeliver : Round s.subscribers k noted (announceWith act s k) :=
    foldl_deliverWith_round (s := noted) (h.same rfl rfl) k s.subscribers
  refine ⟨hnote.trans hdeliver, ?_⟩
  rw [since_append hnote.later hdeliver.later, since_record]
  simp

/-! ## What the history shows of the pointer -/

/-- The history leads to where the pointer is: the last event has seen it there. -/
structure Shown (s t : Manager) : Prop where
  later : s.trace <:+ t.trace
  settled : (seen (since s t)).getLastD s.current = t.current

theorem Shown.trans (h : Shown s t) (h' : Shown t u) : Shown s u where
  later := h.later.trans h'.later
  settled := by
    rw [since_append h.later h'.later, seen_append, getLastD_append, h.settled, h'.settled]

/-- No move of the pointer comes after the last event. -/
theorem Shown.moved_eq (h : Shown s t) : moved s t = shifts s.current (seen (since s t)) := by
  unfold moved
  rw [shifts_append, h.settled]
  simp [shifts]

theorem Shown.moved_trans (h : Shown s t) (htu : t.trace <:+ u.trace) :
    moved s u = moved s t ++ moved t u := by
  rw [h.moved_eq]
  unfold moved
  rw [since_append h.later htu, seen_append, List.append_assoc, shifts_append, h.settled]

/-- Nothing has seen the pointer anywhere else. -/
theorem shown_still (later : s.trace <:+ t.trace) (hseen : ∀ x ∈ seen (since s t), x = s.current)
    (hcurrent : t.current = s.current) : Shown s t ∧ moved s t = [] := by
  have hshown : Shown s t := ⟨later, (getLastD_still hseen).trans hcurrent.symm⟩
  exact ⟨hshown, hshown.moved_eq.trans (shifts_still hseen)⟩

theorem Unheard.shown (h : Unheard s t) : Shown s t ∧ moved s t = [] := by
  refine shown_still h.later (fun x hx => ?_) h.current
  obtain ⟨m, hm, rfl⟩ := List.mem_map.mp hx
  exact h.currents m hm

theorem Round.currents (h : Round names k s t) : ∀ x ∈ seen (since s t), x = s.current := by
  intro x hx
  obtain ⟨m, hm, rfl⟩ := List.mem_map.mp hx
  rw [h.pools m hm]

theorem Round.current (h : Round names k s t) : t.current = s.current := by
  have hpool := outline_pool h.outline
  exact congrArg (·.registry.current) hpool

theorem Round.shown (h : Round names k s t) : Shown s t ∧ moved s t = [] :=
  shown_still h.later h.currents h.current

/-- In a move that a round makes known the pointer moves once. -/
theorem Shifted.shown (h : Shifted s u k) (hround : Round names k u t) (hne : since u t ≠ []) :
    (∀ x ∈ seen (since s t), x = k) ∧ t.current = k ∧ Shown s t ∧ moved s t = [k] := by
  have hcurrents : ∀ x ∈ seen (since s t), x = k := by
    intro x hx
    rw [since_append h.later hround.later, seen_append] at hx
    rcases List.mem_append.mp hx with hx | hx
    · obtain ⟨m, hm, rfl⟩ := List.mem_map.mp hx
      exact h.currents m hm
    · exact (hround.currents x hx).trans h.current
  have hsince : seen (since s t) ≠ [] := by
    rw [since_append h.later hround.later, seen_append]
    simp [seen, hne]
  have hreached : t.current = k := hround.current.trans h.current
  have hshown : Shown s t :=
    ⟨h.later.trans hround.later, (getLastD_once hsince hcurrents).trans hreached.symm⟩
  exact ⟨hcurrents, hreached, hshown, hshown.moved_eq.trans (shifts_once hsince h.fresh hcurrents)⟩

/-! ## What is told from one state to another -/

/-- Some listeners were told of some reports, then of every move of the current pointer, and of
nothing else; whenever one was called, it was told what was current. -/
structure Accounted (names : List String) (rs : List (Option Connection)) (s t : Manager) :
    Prop extends Shown s t where
  callbacks : callbacks (since s t) =
    (rs ++ moved s t).flatMap fun k => names.map fun name => (name, k)
  truthful : ∀ m ∈ since s t, ∀ name k, m.event.told? = some (name, k) →
    m.pool.registry.current = k

theorem Accounted.trans (h : Accounted names rs s t) (h' : Accounted names [] t u) :
    Accounted names rs s u where
  toShown := h.toShown.trans h'.toShown
  callbacks := by
    rw [since_append h.later h'.later, callbacks_append, h.callbacks, h'.callbacks,
      h.moved_trans h'.later, List.nil_append, ← List.flatMap_append, List.append_assoc]
  truthful m hm := by
    rw [since_append h.later h'.later] at hm
    exact (List.mem_append.mp hm).elim (h.truthful m) (h'.truthful m)

theorem Unheard.accounted (h : Unheard s t) (names : List String) : Accounted names [] s t where
  toShown := h.shown.1
  callbacks := by
    rw [h.callbacks, h.shown.2]
    rfl
  truthful m hm name k htold := by
    rw [h.told m hm] at htold
    exact absurd htold (by simp)

/-- Before a report nothing may have been told. -/
theorem Unheard.accounted_trans (h : Unheard s t) (h' : Accounted names rs t u) :
    Accounted names rs s u where
  toShown := h.shown.1.trans h'.toShown
  callbacks := by
    rw [since_append h.later h'.later, callbacks_append, h.callbacks, h'.callbacks,
      h.shown.1.moved_trans h'.later, h.shown.2, List.nil_append, List.nil_append]
  truthful m hm := by
    rw [since_append h.later h'.later] at hm
    exact (List.mem_append.mp hm).elim ((h.accounted names).truthful m) (h'.truthful m)

theorem Round.told (h : Round names k s t) {m : Moment} (hm : m ∈ since s t) {name : String}
    {j : Option Connection} (htold : m.event.told? = some (name, j)) : j = k := by
  have hmem := mem_callbacks hm htold
  rw [h.callbacks] at hmem
  obtain ⟨name', _, heq⟩ := List.mem_map.mp hmem
  cases heq
  rfl

/-- A round with the current connection is a report. -/
theorem Round.report (h : Round names s.current s t) : Accounted names [s.current] s t where
  toShown := h.shown.1
  callbacks := by
    rw [h.callbacks, h.shown.2]
    simp
  truthful m hm name j htold := by
    rw [h.pools m hm]
    exact (h.told hm htold).symm

/-- A move of the current pointer is made known by the round that follows it. -/
theorem Shifted.round (h : Shifted s u k) (hround : Round names k u t) (hne : since u t ≠ []) :
    Accounted names [] s t := by
  obtain ⟨hcurrents, _, hshown, hmoved⟩ := h.shown hround hne
  refine ⟨hshown, ?_, fun m hm name j htold => ?_⟩
  · rw [since_append h.later hround.later, callbacks_append, h.callbacks, hround.callbacks, hmoved]
    simp
  · have hj : j = k := by
      rw [since_append h.later hround.later] at hm
      rcases List.mem_append.mp hm with hm | hm
      · rw [h.told m hm] at htold
        exact absurd htold (by simp)
      · exact hround.told hm htold
    rw [hj]
    exact hcurrents _ (List.mem_map_of_mem hm)

/-! ## Operations -/

/-- Each automatic move is made known to all, before the next one. -/
theorem FollowStretch.accounted (h : s.Attentive) (hst : FollowStretch s t) :
    Accounted s.subscribers [] s t := by
  induction hst with
  | refl => exact (Unheard.same rfl rfl).accounted _
  | @tail a b hsa hmove ih =>
    have hsteady := FollowStretch.steady hsa h.sparing
    have ha := hsteady.attentive h
    obtain ⟨q, w, hmoved, rfl⟩ := hmove
    have hshift := shifted_of_moved hmoved
    obtain ⟨hround, hne⟩ := announceWith_round
      (s := ({ a with pool := q } : Manager).record (.switched w)) (ha.same rfl rfl) (some w.target)
    rw [← hsteady.subscribers] at ih ⊢
    exact ih.trans (hshift.round hround hne)

/-- What is to be reported of a batch. -/
def reportOf (k : Option Connection) (probed : List (Connection × Bool)) :
    List (Option Connection) :=
  match k with
  | none => []
  | some c => if probed.any fun p => p.2 && p.1.same c then [some c] else []

theorem publishStatus_accounted (h : s.Attentive) (probed : List (Connection × Bool)) :
    Accounted s.subscribers (reportOf s.current probed) s (s.publishStatus probed) := by
  have hquiet : Accounted s.subscribers [] s s := (Unheard.same rfl rfl).accounted _
  cases hcurrent : s.current with
  | none =>
    have hsilent : s.publishStatus probed = s := by
      unfold publishStatus
      rw [show s.pool.registry.current = none from hcurrent]
    rw [hsilent]
    exact hquiet
  | some c =>
    unfold publishStatus
    rw [show s.pool.registry.current = some c from hcurrent]
    dsimp only [reportOf]
    split
    · rw [announce_eq]
      obtain ⟨hround, _⟩ := announceWith_round h (some c)
      rw [← hcurrent] at hround ⊢
      exact hround.report
    · exact hquiet

/-- What is told in a move that is no call: the report of a batch, then each automatic move. -/
theorem Course.accounted {probed : List (Connection × Bool)} (h : s.Attentive)
    (hcourse : Course probed s t) :
    Accounted s.subscribers (reportOf s.current probed) s t := by
  obtain ⟨a, b, hbefore, hfollow, hafter⟩ := hcourse
  have hstill := hbefore.still
  have ha : a.Attentive := h.same hstill.held hstill.listeners
  have hreport := publishStatus_accounted ha probed
  have hsteady := publishStatus_steady ha.sparing probed
  have hmoves := FollowStretch.accounted (hsteady.attentive ha) hfollow
  rw [hstill.subscribers, hstill.current] at hreport
  rw [hsteady.subscribers, hstill.subscribers] at hmoves
  have hend : Accounted s.subscribers [] b t := hafter.still.accounted _
  exact hstill.accounted_trans ((hreport.trans hmoves).trans hend)

/-! ## Moves of a run -/

/-- A batch of which no probe has broken says of each probe whether it has changed anything. -/
theorem results_joined {probes : List BatchProbe} (hover : joined probes = true)
    (hunbroken : ∀ p ∈ probes, p.state ≠ .panicked) :
    results probes = probes.map fun p => (p.connection, reported p) := by
  obtain ⟨probed, hprobed⟩ := changes_joined hover hunbroken
  rw [results_ok hprobed]
  exact changes_eq hprobed

theorem results_batchEnd (h : s.Undisturbed) (m : Move) :
    results (s.batchEnd m) = (s.batchEnd m).map fun p => (p.connection, reported p) := by
  have hjoined (id : FlightId) :
      results (s.joinedBatch id) = (s.joinedBatch id).map fun p => (p.connection, reported p) := by
    unfold joinedBatch
    split
    · next owner options stage probes hf =>
      split
      · next hover =>
        exact results_joined hover (h.unbroken _ (mem_of_lookup hf))
      · rfl
    · rfl
  unfold batchEnd
  split
  · split
    · exact hjoined _
    · rfl
  · rfl

theorem reportOf_batchEnd (h : s.Undisturbed) (m : Move) :
    reportOf s.current (results (s.batchEnd m)) = s.reports m := by
  rw [results_batchEnd h]
  unfold reportOf reports
  cases s.current with
  | none => rfl
  | some c => simp only [List.any_map, Function.comp_def]

/-- A call makes known how it has moved the current pointer, to those that are registered after
it. -/
theorem act_accounted (h : s.Attentive) (c : Call) :
    Accounted (act s c).1.subscribers [] s (act s c).1 := by
  rw [act_eq]
  cases performWith_outcome act s c with
  | unheard hunheard _ _ _ => exact hunheard.accounted _
  | @moved u k _ hshift _ _ ht =>
    have hu : u.Attentive := h.same hshift.held hshift.listeners
    obtain ⟨hround, hne⟩ := announceWith_round hu k
    have hsubscribers := (announceWith_steady act_steady hu.sparing k).subscribers
    rw [ht, hsubscribers]
    exact hshift.round hround hne

/-- In any move listeners are told of the batch that it ends, if there is something to report, and
of every move of the current pointer. -/
theorem next_accounted (h : s.Undisturbed) (m : Move) :
    Accounted (s.next m).subscribers (s.reports m) s (s.next m) := by
  rw [← reportOf_batchEnd h]
  cases hm : m with
  | call c =>
    have hnone : reportOf s.current (results (s.batchEnd (.call c))) = [] := by
      cases hcurrent : s.current <;> rfl
    rw [hnone]
    dsimp only [next]
    rw [perform_eq h.held]
    exact act_accounted h.toAttentive c
  | _ =>
    have hcourse := next_course (s := s) (m := m) (by simp [hm])
    rw [← hm, (hcourse.steady h.sparing).subscribers]
    exact hcourse.accounted h.toAttentive

/-! ## How the pointer moves -/

/-- The pointer has moved in this way, and the history shows it. -/
structure Visible (ks : List (Option Connection)) (s t : Manager) : Prop extends Shown s t where
  moves : moved s t = ks

theorem Visible.trans {ks ks' : List (Option Connection)} (h : Visible ks s t)
    (h' : Visible ks' t u) : Visible (ks ++ ks') s u where
  toShown := h.toShown.trans h'.toShown
  moves := by rw [h.moved_trans h'.later, h.moves, h'.moves]

theorem Visible.still (h : Shown s t ∧ moved s t = []) (hcurrent : t.current = s.current) :
    Visible (shifts s.current [t.current]) s t where
  toShown := h.1
  moves := by
    rw [h.2, hcurrent]
    simp [shifts]

/-- The last event is kept with the pool that there is now. -/
theorem Visible.record {e : Event} (h : t.trace = ⟨t.now, t.pool, e⟩ :: s.trace) :
    Visible (shifts s.current [t.current]) s t := by
  have hsince : since s t = [⟨t.now, t.pool, e⟩] := since_of_trace h
  have hshown : Shown s t := ⟨h ▸ List.suffix_cons _ _, by rw [hsince]; rfl⟩
  exact ⟨hshown, hshown.moved_eq.trans (by rw [hsince]; rfl)⟩

/-- A section that moves the pointer leaves an event. -/
theorem Unasked.visible (h : Unasked s t) : Visible (shifts s.current [t.current]) s t := by
  cases h with
  | work hkept =>
    have hwork : Frame (· ∈ t.instances) s t := ⟨hkept, fun _ hc => Or.inr hc⟩
    exact .still hwork.still.shown hwork.still.current
  | note _ => exact .record rfl
  | probe _ _ => exact .record rfl
  | switch _ => exact .record rfl

/-- A listener that only observes changes nothing by its answer. -/
theorem Replied.round (h : s.Attentive) (hst : Replied s t) :
    t.Attentive ∧ Round [] s.current s t := by
  obtain ⟨name, calls, rest, hl, rfl⟩ := hst
  have hcalls : ∀ c ∈ calls, c.observes = true :=
    h.questions name calls (script_of_lookup (s := s) hl ▸ List.mem_cons_self)
  have hround := (Round.listeners (upsert name ⟨rest⟩ s.listeners) s.current s).trans
    (foldl_reactWith_round hcalls s.current _)
  have htaken := steady_taken hl
  have hsteady := foldl_reactWith_steady act_steady
    (fun c hc => Call.observes_sparesListeners (hcalls c hc)) (htaken.sparing h.sparing)
  exact ⟨(htaken.trans hsteady).attentive h, hround⟩

/-- While listeners only observe, every move of the pointer is seen in the history. -/
theorem Pointed.visible {ks : List (Option Connection)} (h : s.Attentive) (hst : Pointed s ks t) :
    t.Attentive ∧ Visible ks s t := by
  induction hst with
  | start =>
    have hnothing : Unheard s s := .same rfl rfl
    exact ⟨h, hnothing.shown.1, hnothing.shown.2⟩
  | next _ link ih =>
    obtain ⟨ht, hvisible⟩ := ih
    rcases link with hunasked | hreplied
    · obtain ⟨hheld, hlisteners⟩ := hunasked.listens
      exact ⟨ht.same hheld hlisteners, hvisible.trans hunasked.visible⟩
    · obtain ⟨hu, hround⟩ := hreplied.round ht
      exact ⟨hu, hvisible.trans (.still hround.shown hround.current)⟩

theorem UnaskedRun.pointed (h : UnaskedRun s t) : ∃ ks, Pointed s ks t := by
  induction h with
  | refl => exact ⟨_, .start⟩
  | tail _ link ih =>
    obtain ⟨ks, hks⟩ := ih
    exact ⟨_, hks.next link⟩

/-- An explicit call moves the pointer at most once. -/
theorem moved_act (h : s.Attentive) (c : Call) :
    moved s (act s c).1 = shifts s.current [(act s c).1.current] := by
  rw [act_eq]
  cases performWith_outcome act s c with
  | unheard hunheard _ _ _ =>
    rw [hunheard.shown.2, hunheard.current]
    simp [shifts]
  | @moved u k _ hshift _ _ ht =>
    have hu : u.Attentive := h.same hshift.held hshift.listeners
    obtain ⟨hround, hne⟩ := announceWith_round hu k
    obtain ⟨_, hreached, _, hmoved⟩ := hshift.shown hround hne
    rw [ht, hmoved, hreached]
    simp [shifts, Ne.symm hshift.fresh]

/-- In any move the history shows how the pointer moves. -/
theorem pointerMoves_iff (h : s.Attentive) {m : Move} {ks : List (Option Connection)} :
    PointerMoves s m ks ↔ ks = moved s (s.next m) := by
  have explicit (hm : m.automatic = false) :
      moved s (s.next m) = shifts s.current [(s.next m).current] := by
    cases m with
    | call c =>
      dsimp only [next]
      rw [perform_eq h.held]
      exact moved_act h c
    | _ => exact absurd hm (by simp [Move.automatic])
  constructor
  · intro hmoves
    cases hmoves with
    | automatic _ hpointed => exact (hpointed.visible h).2.moves.symm
    | explicit hm => exact (explicit hm).symm
  · rintro rfl
    cases hm : m.automatic with
    | true =>
      obtain ⟨ks, hpointed⟩ := (next_unasked s hm).pointed
      rw [(hpointed.visible h).2.moves]
      exact .automatic hm hpointed
    | false =>
      rw [explicit hm]
      exact .explicit hm

/-! ## Runs -/

/-- Every move of a run accounts for its own part of the history. -/
theorem due_iff (h : s.Undisturbed) {moves : List Move} (hmoves : ∀ m ∈ moves, m.Benign) :
    s.trace <:+ (moves.foldl next s).trace ∧
      ∀ told, Due s moves told ↔ told = callbacks (since s (moves.foldl next s)) := by
  induction moves generalizing s with
  | nil =>
    have hnothing : callbacks (since s s) = [] := (Unheard.same (s := s) rfl rfl).callbacks
    refine ⟨List.suffix_rfl, fun told => ⟨fun hdue => ?_, fun htold => ?_⟩⟩
    · cases hdue
      exact hnothing.symm
    · rw [htold, List.foldl_nil, hnothing]
      exact .nil s
  | cons m rest ih =>
    have hfirst := next_accounted h m
    obtain ⟨hlater, hrest⟩ := ih (h.next (hmoves m List.mem_cons_self))
      fun m hm => hmoves m (List.mem_cons_of_mem _ hm)
    rw [List.foldl_cons]
    refine ⟨hfirst.later.trans hlater, fun told => ?_⟩
    rw [since_append hfirst.later hlater, callbacks_append, hfirst.callbacks]
    constructor
    · intro hdue
      cases hdue with
      | cons hpointer hdue =>
        rw [(pointerMoves_iff h.toAttentive).mp hpointer, (hrest _).mp hdue]
    · rintro rfl
      exact .cons ((pointerMoves_iff h.toAttentive).mpr rfl) ((hrest _).mpr rfl)

/-- Whenever a listener is called, it is told what is current. -/
theorem run_truthful (h : s.Undisturbed) {moves : List Move} (hmoves : ∀ m ∈ moves, m.Benign) :
    ∀ m ∈ since s (moves.foldl next s), ∀ name k, m.event.told? = some (name, k) →
      m.pool.registry.current = k := by
  induction moves generalizing s with
  | nil => exact ((Unheard.same (s := s) rfl rfl).accounted []).truthful
  | cons m rest ih =>
    have hfirst := next_accounted h m
    have hnext := h.next (hmoves m List.mem_cons_self)
    have hbenign (m : Move) (hm : m ∈ rest) : m.Benign := hmoves m (List.mem_cons_of_mem _ hm)
    rw [List.foldl_cons, since_append hfirst.later (due_iff hnext hbenign).1]
    intro n hn
    exact (List.mem_append.mp hn).elim (hfirst.truthful n) (ih hnext hbenign n)

/-- Every listener that is registered is called, in order of registration, exactly once for each
move of the current pointer, in whichever section it moves, and for each batch that reports a change
of the connection that is current when it ends, and never else. When it is called it is told what is
current. -/
theorem notified_exactly (h : s.Undisturbed) {moves : List Move}
    (hmoves : ∀ m ∈ moves, m.Benign) :
    (∀ told, Due s moves told ↔ told = callbacks (since s (moves.foldl next s))) ∧
      ∀ m ∈ since s (moves.foldl next s), ∀ name k, m.event = .notified name k →
        m.pool.registry.current = k := by
  refine ⟨(due_iff h hmoves).2, fun m hm name k hevent => ?_⟩
  refine run_truthful h hmoves m hm name k ?_
  rw [hevent]
  rfl

/-- Of two listeners one asks a question. The current connection A is found to be lost, which leads
to B; then the user disconnects twice and resets the manager. -/
def watched : List Move :=
  [.call (.selectUri "A"), .call (.addUri "B" none), .call (.addListener "log" [.has "A"] 1),
    .call (.addListener "view" [] 0), .await .checkConnection, .turn (.probe 0 0),
    .turn (.flight 0), .turn (.probe 0 0), .turn (.flight 0), .call .disconnect,
    .call .disconnect, .call (.selectUri "A"), .call .reset]

theorem watched_notified :
    let start := idle ⟨[("B", ⟨[], some (.reply 0 (.ok ⟨true, .ofMillis 5⟩))⟩)]⟩ true
    let a : Connection := ⟨0, { uri := "A" }⟩
    let b : Connection := ⟨1, { uri := "B" }⟩
    Due start watched
      [("log", some a), ("view", some a), ("log", some b), ("view", some b), ("log", none),
        ("view", none), ("log", some a), ("view", some a)] := by
  intro start a b
  have calm : start.network.Calm := by
    intro e he
    rcases List.mem_singleton.mp he with rfl
    simp [Route.Calm]
  have benign : ∀ m ∈ watched, m.Benign := by
    simp [watched, Move.Benign, Call.Benign, Call.observes]
  have undisturbed : start.Undisturbed := .idle calm true
  obtain ⟨hdue, _⟩ := notified_exactly undisturbed benign
  refine (hdue _).mpr ?_
  decide +kernel

end Manager

end RpcPool

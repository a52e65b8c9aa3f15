import RpcPool.Proofs.Callbacks

/-!
# What a history says about probes

The history of a run says which probes of operations have started and ended, and what every probe
has shown. Calls and notifications have no part in the former, and the latter is all that health
comes from.

Results:
1. `announceWith_probeless`, `FollowStretch.probeless`: no probe of an operation starts or ends
   while listeners are called, or when the current pointer moves on its own.
2. `rank_probeless`: the end of a check never moves the current pointer for the reason that a
   connection was lost.
3. `Flat.recalls`: at any moment, the health of a connection is what the outcomes noted since an
   earlier state have made of the health that it had then.
-/

namespace RpcPool

/-- The connection of a probe that starts. -/
def Event.started? : Event → Option Connection
  | .probeStarted c _ => some c
  | _ => none

/-- The connection of a probe that ends. -/
def Event.ended? : Event → Option Connection
  | .probeEnded c _ => some c
  | _ => none

/-- The automatic move of the current pointer that is told of. -/
def Event.switched? : Event → Option Switch
  | .switched w => some w
  | _ => none

/-- What a probe, of an operation or made elsewhere, has shown about a connection. -/
def Event.outcome? (c : Connection) : Event → Option Probe.Outcome
  | .probeEnded d outcome => if d.id = c.id then some outcome else none
  | .observed d outcome => if d.id = c.id then some outcome else none
  | _ => none

/-- Whether an event can come from a call or a notification: it is not about a probe of an
operation, and a move of the current pointer has one of some reasons. -/
def Event.Probeless (P : SwitchReason → Prop) : Event → Prop
  | .probeStarted .. => False
  | .probeEnded .. => False
  | .switched w => P w.reason
  | _ => True

/-- The connections of the probes that start, in order. -/
def starts (ms : List Moment) : List Connection := ms.filterMap (·.event.started?)

/-- The connections of the probes that end, in order. -/
def ends (ms : List Moment) : List Connection := ms.filterMap (·.event.ended?)

/-- The connections of the probes that start or end, in order. -/
def touched (ms : List Moment) : List Connection :=
  ms.filterMap fun m => m.event.started?.or m.event.ended?

/-- The automatic moves of the current pointer, in order. -/
def switches (ms : List Moment) : List Switch := ms.filterMap (·.event.switched?)

/-- What is noted of a connection, in order. -/
def outcomes (c : Connection) (ms : List Moment) : List Probe.Outcome :=
  ms.filterMap (·.event.outcome? c)

theorem starts_append (ms ms' : List Moment) : starts (ms ++ ms') = starts ms ++ starts ms' :=
  List.filterMap_append

theorem ends_append (ms ms' : List Moment) : ends (ms ++ ms') = ends ms ++ ends ms' :=
  List.filterMap_append

theorem touched_append (ms ms' : List Moment) :
    touched (ms ++ ms') = touched ms ++ touched ms' :=
  List.filterMap_append

theorem switches_append (ms ms' : List Moment) :
    switches (ms ++ ms') = switches ms ++ switches ms' :=
  List.filterMap_append

theorem outcomes_append (c : Connection) (ms ms' : List Moment) :
    outcomes c (ms ++ ms') = outcomes c ms ++ outcomes c ms' :=
  List.filterMap_append

/-- A probe that is heard of has started or ended. -/
theorem mem_touched {c : Connection} {ms : List Moment} (h : c ∈ touched ms) :
    c ∈ starts ms ∨ c ∈ ends ms := by
  obtain ⟨m, hm, hc⟩ := List.mem_filterMap.mp h
  rcases Option.or_eq_some_iff.mp hc with hc | ⟨_, hc⟩
  · exact Or.inl (List.mem_filterMap.mpr ⟨m, hm, hc⟩)
  · exact Or.inr (List.mem_filterMap.mpr ⟨m, hm, hc⟩)

namespace Event

variable {P : SwitchReason → Prop} {e : Event}

theorem Probeless.mono {Q : SwitchReason → Prop} (h : e.Probeless P) (hPQ : ∀ r, P r → Q r) :
    e.Probeless Q := by
  cases e with
  | switched w => exact hPQ w.reason h
  | _ => exact h

theorem Probeless.started? (h : e.Probeless P) : e.started? = none := by
  cases e with
  | probeStarted c timeoutMs => exact h.elim
  | _ => rfl

theorem Probeless.ended? (h : e.Probeless P) : e.ended? = none := by
  cases e with
  | probeEnded c outcome => exact h.elim
  | _ => rfl

end Event

namespace Manager

open Relation

variable {P : SwitchReason → Prop} {K : Connection → Prop} {inner : Performer}
  {s t u : Manager}

/-! ## Calls and notifications -/

/-- No probe of an operation has started or ended, and the current pointer has moved on its own for
some reasons only. -/
structure Probeless (P : SwitchReason → Prop) (s t : Manager) : Prop where
  later : s.trace <:+ t.trace
  events : ∀ m ∈ since s t, m.event.Probeless P

theorem Probeless.same (h : t.trace = s.trace) : Probeless P s t where
  later := h ▸ List.suffix_rfl
  events m hm := by
    rw [since_same h] at hm
    exact absurd hm List.not_mem_nil

theorem Probeless.refl (s : Manager) : Probeless P s s := .same rfl

theorem Probeless.trans (h : Probeless P s t) (h' : Probeless P t u) : Probeless P s u where
  later := h.later.trans h'.later
  events m hm := by
    rw [since_append h.later h'.later] at hm
    exact (List.mem_append.mp hm).elim (h.events m) (h'.events m)

theorem Probeless.mono {Q : SwitchReason → Prop} (h : Probeless P s t) (hPQ : ∀ r, P r → Q r) :
    Probeless Q s t :=
  ⟨h.later, fun m hm => (h.events m hm).mono hPQ⟩

theorem since_of_cons {m : Moment} (h : t.trace = m :: s.trace) : since s t = [m] := by
  have htrace : t.trace = [m].reverse ++ s.trace := h
  exact since_of_trace htrace

theorem Probeless.noted {m : Moment} (htrace : t.trace = m :: s.trace)
    (h : m.event.Probeless P) : Probeless P s t where
  later := htrace ▸ List.suffix_cons m s.trace
  events k hk := by
    rw [since_of_cons htrace] at hk
    rw [List.mem_singleton.mp hk]
    exact h

theorem Probeless.starts (h : Probeless P s t) : starts (since s t) = [] :=
  List.filterMap_eq_nil_iff.mpr fun m hm => (h.events m hm).started?

theorem Probeless.ends (h : Probeless P s t) : ends (since s t) = [] :=
  List.filterMap_eq_nil_iff.mpr fun m hm => (h.events m hm).ended?

theorem Probeless.touched (h : Probeless P s t) : touched (since s t) = [] :=
  List.filterMap_eq_nil_iff.mpr fun m hm => by
    rw [(h.events m hm).started?, (h.events m hm).ended?]
    rfl

theorem Frame.probeless (h : Frame K s t) : Probeless P s t := .same h.trace

theorem foldl_reactWith_probeless (hinner : ∀ s c, Probeless P s (inner s c).1)
    (calls : List Call) (s : Manager) : Probeless P s (calls.foldl (reactWith inner) s) := by
  induction calls generalizing s with
  | nil => exact .refl s
  | cons c rest ih =>
    have hcall : Probeless P s (reactWith inner s c) := (hinner s c).trans (.noted rfl trivial)
    exact hcall.trans (ih _)

theorem deliverWith_probeless (hinner : ∀ s c, Probeless P s (inner s c).1)
    (k : Option Connection) (s : Manager) (name : String) :
    Probeless P s (deliverWith inner k s name) := by
  unfold deliverWith
  split
  · dsimp only
    split
    · next calls rest _ =>
      have hanswer : Probeless P s { s.record (.notified name k) with
          listeners := upsert name ⟨rest⟩ (s.record (.notified name k)).listeners } :=
        .noted rfl trivial
      exact hanswer.trans (foldl_reactWith_probeless hinner calls _)
    · exact .noted rfl trivial
  · exact .refl s

theorem announceWith_probeless (hinner : ∀ s c, Probeless P s (inner s c).1) (s : Manager)
    (k : Option Connection) : Probeless P s (announceWith inner s k) := by
  have hdeliver (names : List String) (t : Manager) :
      Probeless P t (names.foldl (deliverWith inner k) t) := by
    induction names generalizing t with
    | nil => exact .refl t
    | cons name rest ih => exact (deliverWith_probeless hinner k t name).trans (ih _)
  have hnote : Probeless P s (s.record (.announced k s.subscribers.length)) := .noted rfl trivial
  exact hnote.trans (hdeliver s.subscribers _)

theorem applyWith_probeless (hinner : ∀ s c, Probeless P s (inner s c).1) (s : Manager)
    (r : Registry × Change) : Probeless P s (applyWith inner s r) := by
  obtain ⟨registry, change⟩ := r
  have hset : Probeless P s (s.setRegistry registry) := .same rfl
  cases change with
  | unchanged => exact hset
  | changed k => exact hset.trans (announceWith_probeless hinner _ k)

theorem settleWith_probeless (hinner : ∀ s c, Probeless P s (inner s c).1) (s : Manager)
    (r : Except PoolError (Registry × Change)) : Probeless P s (settleWith inner s r).1 := by
  cases r with
  | error e => exact .refl s
  | ok r => exact applyWith_probeless hinner s r

theorem followWith_probeless (hinner : ∀ s c, Probeless P s (inner s c).1) (s : Manager)
    {r : Pool × Option Switch} (hr : ∀ q w, r = (q, some w) → P w.reason) :
    Probeless P s (followWith inner s r) := by
  obtain ⟨q, w⟩ := r
  cases w with
  | none => exact .refl s
  | some w =>
    have hswitch : Probeless P s (({ s with pool := q } : Manager).record (.switched w)) :=
      .noted rfl (hr q w rfl)
    exact hswitch.trans (announceWith_probeless hinner _ _)

theorem register_probeless (s : Manager) (e : Endpoint) (label : Option String) :
    Probeless P s (s.register e label).1 := by
  obtain ⟨made, connections, labels, hregister⟩ := register_eq s e label
  rw [hregister]
  exact .same rfl

theorem label_probeless (s : Manager) (label : Option String) (c : Connection) :
    Probeless P s (s.label label c) := by
  obtain ⟨labels, hlabel⟩ := label_eq s label c
  rw [hlabel]
  exact .same rfl

theorem startPolling_probeless {o : PollOptions} (h : s.startPolling o = .ok t) :
    Probeless P s t := by
  obtain ⟨poller, loops, timers, ready, nextId, started, _, rfl⟩ := startPolling_eq h
  exact .noted rfl trivial

theorem performWith_probeless (hP : P .better) (hinner : ∀ s c, Probeless P s (inner s c).1)
    (s : Manager) (c : Call) : Probeless P s (performWith inner s c).1 := by
  cases c with
  | make e label =>
    have hmade : Probeless P s (s.instantiate e).1 := .same rfl
    exact hmade.trans (label_probeless _ label _)
  | add e label => exact register_probeless s e label
  | addUri uri label => exact register_probeless s { uri } label
  | remove uri => exact settleWith_probeless hinner s _
  | select name =>
    dsimp only [performWith]
    split
    · exact applyWith_probeless hinner s _
    · exact settleWith_probeless hinner s _
  | selectUri uri =>
    have hmade : Probeless P s { s with made := s.made ++ [{ uri }] } := .same rfl
    exact hmade.trans (settleWith_probeless hinner _ _)
  | disconnect => exact applyWith_probeless hinner s _
  | clear => exact applyWith_probeless hinner s _
  | reset =>
    have hstop : Probeless P s { s.stopPolling with subscribers := [] } :=
      .same (stopPolling_frame (K := fun _ => True) s).trace
    exact hstop.trans (applyWith_probeless hinner _ _)
  | setAutoSwitch on => exact .same rfl
  | setTimeout ms =>
    dsimp only [performWith]
    split
    · exact .refl s
    · exact .same rfl
  | get uri label =>
    dsimp only [performWith]
    split
    · exact .refl s
    · exact label_probeless s label _
  | has uri => exact .refl s
  | observe name outcome =>
    dsimp only [performWith]
    split
    · exact .refl s
    · exact .noted rfl trivial
  | improve =>
    exact followWith_probeless hinner s fun q w h => (Pool.improve_reason h).symm ▸ hP
  | script uri fallback queue => exact .same rfl
  | addListener name reaction times => exact .same rfl
  | removeListener name =>
    dsimp only [performWith]
    split
    · exact .same rfl
    · exact .refl s
  | removeListeners => exact .same rfl
  | startPolling options excluded =>
    dsimp only [performWith]
    split
    · exact .refl s
    · next t ht => exact startPolling_probeless ht
  | startConfigured polling =>
    dsimp only [performWith]
    split
    · exact .refl s
    · next t ht => exact startPolling_probeless ht
  | stopPolling => exact (stopPolling_frame (K := fun _ => True) s).probeless
  | spawn name request => exact .same (wake_frame (K := fun _ => True) _ _).trace
  | drop => exact .same (release_frame (K := fun _ => True) _).trace

theorem act_probeless (hP : P .better) (s : Manager) (c : Call) : Probeless P s (act s c).1 := by
  have hdepth (depth : Nat) (s : Manager) (c : Call) : Probeless P s (performTo depth s c).1 := by
    induction depth generalizing s c with
    | zero => exact .refl s
    | succ depth ih => exact performWith_probeless hP ih s c
  exact hdepth _ s c

/-! ## Operations between two batches -/

theorem publishStatus_probeless (hP : P .better) (s : Manager)
    (probed : List (Connection × Bool)) : Probeless P s (s.publishStatus probed) := by
  unfold publishStatus
  split
  · exact .refl s
  · split
    · rw [announce_eq]
      exact announceWith_probeless (act_probeless hP) s _
    · exact .refl s

theorem follow_probeless (hP : P .better) (s : Manager) {r : Pool × Option Switch}
    (hr : ∀ q w, r = (q, some w) → P w.reason) : Probeless P s (s.follow r) := by
  rw [follow_eq]
  exact followWith_probeless (act_probeless hP) s hr

theorem FollowStretch.probeless (h : FollowStretch s t) : Probeless (fun _ => True) s t := by
  induction h with
  | refl => exact .refl s
  | @tail a _ _ hmove ih =>
    obtain ⟨q, w, _, rfl⟩ := hmove
    have hswitch : Probeless (fun _ => True) a
        (({ a with pool := q } : Manager).record (.switched w)) := .noted rfl trivial
    exact (ih.trans hswitch).trans (announceWith_probeless (act_probeless trivial) _ _)

/-- The end of a check leaves no connection because it was lost. -/
theorem rank_probeless (s : Manager) (options : CheckOptions) (probed : List (Connection × Bool)) :
    Probeless (· ≠ .lost) s (s.rank options probed).1 := by
  have hbetter : SwitchReason.better ≠ .lost := by decide
  have hpublish : Probeless (· ≠ .lost) s (s.publishStatus probed) :=
    publishStatus_probeless hbetter s probed
  have himprove (t : Manager) : Probeless (· ≠ .lost) t (t.follow t.pool.improve) :=
    follow_probeless hbetter t fun q w h => (Pool.improve_reason h).symm ▸ hbetter
  unfold rank
  dsimp only
  split
  · split
    · next c _ =>
      refine (hpublish.trans (follow_probeless hbetter _ fun q w h => ?_)).trans (himprove _)
      have hreason := Pool.switch_reason (Pool.reconnect_some h).2
      rw [hreason]
      decide
    · exact hpublish.trans (himprove _)
  · exact hpublish

theorem land_probeless (s : Manager) (id : FlightId) (owner : Owner) (reply : Reply) :
    Probeless P s (s.land id owner reply) := by
  have hrelease (t : Manager) : t.release.trace = t.trace :=
    (release_frame (K := fun _ => True) t).trace
  unfold land
  cases owner with
  | caller => exact .same (hrelease _)
  | task => exact .same (hrelease _)
  | loop loop =>
    dsimp only
    split
    · exact .same (hrelease _)
    · split
      · exact .noted (hrelease _) trivial
      · exact .noted (hrelease _) trivial

/-! ## Health and the outcomes that it comes from -/

/-- What is known of a connection, now and at every moment since, comes from what was known before
and from the outcomes that were noted since. -/
structure Recalls (s t : Manager) : Prop where
  later : s.trace <:+ t.trace
  health : ∀ c, t.pool.healthOf c =
    (outcomes c (since s t)).foldl Health.observe (s.pool.healthOf c)
  moments : ∀ c i m, (since s t)[i]? = some m → m.pool.healthOf c =
    (outcomes c ((since s t).take (i + 1))).foldl Health.observe (s.pool.healthOf c)

theorem Recalls.same (htrace : t.trace = s.trace) (hhealth : t.pool.health = s.pool.health) :
    Recalls s t where
  later := htrace ▸ List.suffix_rfl
  health c := by
    rw [since_same htrace]
    exact congrArg (·.get c.id) hhealth
  moments c i m hm := by
    rw [since_same htrace] at hm
    exact absurd hm (by simp)

/-- One event has been noted. -/
theorem Recalls.noted {now : Nat} {e : Event} (htrace : t.trace = ⟨now, t.pool, e⟩ :: s.trace)
    (h : ∀ c, t.pool.healthOf c =
      (e.outcome? c).toList.foldl Health.observe (s.pool.healthOf c)) : Recalls s t := by
  have hsince : since s t = [⟨now, t.pool, e⟩] := since_of_cons htrace
  have houtcomes (c : Connection) : outcomes c [⟨now, t.pool, e⟩] = (e.outcome? c).toList := by
    unfold outcomes
    rw [List.filterMap_cons]
    cases Event.outcome? c e <;> rfl
  refine ⟨htrace ▸ List.suffix_cons _ _, fun c => ?_, fun c i m hm => ?_⟩
  · rw [hsince, houtcomes]
    exact h c
  · rw [hsince] at hm ⊢
    cases i with
    | zero =>
      cases hm
      rw [List.take_succ_cons, List.take_nil, houtcomes]
      exact h c
    | succ i => exact absurd hm (by simp)

theorem Recalls.refl (s : Manager) : Recalls s s := .same rfl rfl

theorem Recalls.trans (h : Recalls s t) (h' : Recalls t u) : Recalls s u where
  later := h.later.trans h'.later
  health c := by
    rw [h'.health, h.health, since_append h.later h'.later, outcomes_append, List.foldl_append]
  moments c i m hm := by
    rw [since_append h.later h'.later] at hm ⊢
    by_cases hi : i < (since s t).length
    · rw [List.getElem?_append_left hi] at hm
      rw [List.take_append_of_le_length hi]
      exact h.moments c i m hm
    · have hle : (since s t).length ≤ i := Nat.le_of_not_lt hi
      rw [List.getElem?_append_right hle] at hm
      rw [List.take_append, List.take_of_length_le (Nat.le_succ_of_le hle), outcomes_append,
        List.foldl_append, ← h.health, Nat.sub_add_comm hle]
      exact h'.moments c _ m hm

/-- The outcome of a probe is taken note of. -/
theorem Recalls.observed {c : Connection} {outcome : Probe.Outcome} {e : Event}
    (h : ∀ d, e.outcome? d = if c.id = d.id then some outcome else none) :
    Recalls s ({ s with pool := s.pool.observe c outcome }.record e) := by
  refine .noted rfl fun d => ?_
  rw [h]
  show (s.pool.observe c outcome).healthOf d = _
  by_cases hid : c.id = d.id
  · rw [if_pos hid]
    exact Pool.healthOf_observe_self _ _ hid.symm
  · rw [if_neg hid]
    exact Pool.healthOf_observe_ne _ _ (Ne.symm hid)

theorem Own.recalls (h : Own K s t) : Recalls s t := by
  cases h with
  | work hf => exact .same hf.trace (congrArg Pool.health hf.pool)
  | @note e hplain =>
    refine .noted rfl fun c => ?_
    cases e with
    | probeEnded d outcome => exact absurd hplain (by simp [Event.plain])
    | observed d outcome => exact absurd hplain (by simp [Event.plain])
    | _ => rfl
  | probe c outcome => exact .observed fun d => rfl
  | switch hauto =>
    have hq := hauto.moved.pool
    subst hq
    exact .noted rfl fun c => rfl

theorem Explicit.recalls (h : Explicit s t) : Recalls s t := by
  have hlabel (a : Manager) (label : Option String) (c : Connection) :
      Recalls a (a.label label c) := by
    obtain ⟨labels, hlabel⟩ := label_eq a label c
    rw [hlabel]
    exact .same rfl rfl
  have hset (a : Manager) (r : Registry) : Recalls a (a.setRegistry r) := .same rfl rfl
  cases h with
  | make e label =>
    have hmade : Recalls s (s.instantiate e).1 := .same rfl rfl
    exact hmade.trans (hlabel _ label _)
  | @register e r label _ =>
    have hmade : Recalls s ((s.instantiate e).1.setRegistry r) := .same rfl rfl
    exact hmade.trans (hlabel _ label _)
  | selectUri _ => exact .same rfl rfl
  | observe c outcome => exact .observed fun d => rfl
  | label label _ => exact hlabel s label _
  | arrange hpool htrace _ _ => exact .same htrace (congrArg Pool.health hpool)
  | _ => exact hset s _

/-- However a run goes on, health comes from the outcomes that its history tells of. -/
theorem Flat.recalls (h : Flat K s t) : Recalls s t := by
  induction h with
  | refl => exact .refl s
  | tail _ hsection ih =>
    rcases hsection with hown | hexplicit
    · exact ih.trans hown.recalls
    · exact ih.trans hexplicit.recalls

end Manager

end RpcPool

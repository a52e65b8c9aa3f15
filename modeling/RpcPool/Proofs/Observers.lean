import RpcPool.Proofs.Turns

/-!
# Listeners that only observe

A listener that answers notifications only with questions changes nothing but the names it gives to
connections and the history of the run. Between such listeners an operation goes its way
undisturbed, and what it does to the pool at the end of a batch is one function of the pool.

Results:
1. `announceWith_observes`: notifying listeners that only observe changes nothing.
2. `rank_outline`: with such listeners the end of a check is the function `settle` on the pool.
-/

namespace RpcPool

/-- Whether a call only asks. -/
def Call.observes : Call → Bool
  | .get .. => true
  | .has _ => true
  | _ => false

namespace Manager

/-- All that the listeners to notify still have to say are questions. -/
def Observing (s : Manager) : Prop :=
  ∀ name ∈ s.subscribers, ∀ l, s.listeners.lookup name = some l →
    ∀ calls ∈ l.script, ∀ c ∈ calls, c.observes = true

instance (s : Manager) : Decidable s.Observing :=
  inferInstanceAs (Decidable (∀ name ∈ s.subscribers, ∀ l ∈ s.listeners.lookup name,
    ∀ calls ∈ l.script, ∀ c ∈ calls, c.observes = true))

/-- A manager without its history, its names and what its listeners have to say. -/
def outline (s : Manager) : Manager := { s with trace := [], labels := [], listeners := [] }

variable {s t : Manager}

theorem outline_pool (h : t.outline = s.outline) : t.pool = s.pool := by
  have hpool := congrArg pool h
  exact hpool

theorem outline_withPool (h : t.outline = s.outline) (q : Pool) :
    ({ t with pool := q } : Manager).outline = ({ s with pool := q } : Manager).outline :=
  congrArg (fun a : Manager => { a with pool := q }) h

/-! ## Notifications -/

/-- A question changes at most the names of connections. -/
theorem act_observes {c : Call} (h : c.observes = true) (s : Manager) :
    ∃ labels, (act s c).1 = { s with labels := labels } := by
  rw [act_eq]
  cases c with
  | get uri label =>
    dsimp only [performWith]
    split
    · exact ⟨s.labels, rfl⟩
    · next k _ => exact label_eq s label k
  | has uri => exact ⟨s.labels, rfl⟩
  | _ => exact absurd h (by simp [Call.observes])

theorem foldl_reactWith_observes {calls : List Call} (h : ∀ c ∈ calls, c.observes = true)
    (s : Manager) :
    (calls.foldl (reactWith act) s).outline = s.outline ∧
      (calls.foldl (reactWith act) s).listeners = s.listeners := by
  induction calls generalizing s with
  | nil => exact ⟨rfl, rfl⟩
  | cons c rest ih =>
    obtain ⟨labels, hcall⟩ := act_observes (h c List.mem_cons_self) s
    have hreact : (reactWith act s c).outline = s.outline ∧
        (reactWith act s c).listeners = s.listeners := by
      unfold reactWith
      dsimp only
      rw [hcall]
      exact ⟨rfl, rfl⟩
    obtain ⟨hrest, hsame⟩ := ih (fun d hd => h d (List.mem_cons_of_mem _ hd)) (reactWith act s c)
    exact ⟨hrest.trans hreact.1, hsame.trans hreact.2⟩

theorem deliverWith_observes (hs : s.Observing) {name : String} (hname : name ∈ s.subscribers)
    (current : Option Connection) :
    (deliverWith act current s name).outline = s.outline ∧
      (deliverWith act current s name).Observing := by
  unfold deliverWith
  split
  · dsimp only
    split
    · next calls rest hl =>
      have hscript := hs name hname _ hl
      obtain ⟨houtline, hlisteners⟩ := foldl_reactWith_observes (hscript calls List.mem_cons_self)
        { s.record (.notified name current) with listeners := upsert name ⟨rest⟩ s.listeners }
      have hsubscribers := congrArg subscribers houtline
      refine ⟨houtline, fun other hother l hl' => ?_⟩
      have hlookup : (upsert name ⟨rest⟩ s.listeners).lookup other = some l :=
        (congrArg (List.lookup other) hlisteners).symm.trans hl'
      by_cases hsame : other = name
      · rw [hsame, lookup_upsert_self] at hlookup
        cases hlookup
        exact fun calls' hcalls' => hscript calls' (List.mem_cons_of_mem _ hcalls')
      · rw [lookup_upsert_ne _ _ hsame] at hlookup
        exact hs other (hsubscribers ▸ hother) l hlookup
    · exact ⟨rfl, hs⟩
  · exact ⟨rfl, hs⟩

theorem announceWith_observes (hs : s.Observing) (current : Option Connection) :
    (announceWith act s current).outline = s.outline ∧ (announceWith act s current).Observing := by
  have hdeliver (names : List String) (t : Manager) (ht : t.Observing)
      (hnames : ∀ name ∈ names, name ∈ t.subscribers) :
      (names.foldl (deliverWith act current) t).outline = t.outline ∧
        (names.foldl (deliverWith act current) t).Observing := by
    induction names generalizing t with
    | nil => exact ⟨rfl, ht⟩
    | cons name rest ih =>
      obtain ⟨houtline, hobserving⟩ :=
        deliverWith_observes ht (hnames name List.mem_cons_self) current
      have hsubscribers := congrArg subscribers houtline
      obtain ⟨hrest, hlast⟩ := ih _ hobserving fun other hother =>
        hsubscribers ▸ hnames other (List.mem_cons_of_mem _ hother)
      exact ⟨hrest.trans houtline, hlast⟩
  exact hdeliver s.subscribers _ hs fun _ h => h

/-! ## The end of a batch -/

theorem publishStatus_outline (hs : s.Observing) (probed : List (Connection × Bool)) :
    (s.publishStatus probed).outline = s.outline ∧ (s.publishStatus probed).Observing := by
  unfold publishStatus
  split
  · exact ⟨rfl, hs⟩
  · split
    · rw [announce_eq]
      exact announceWith_observes hs _
    · exact ⟨rfl, hs⟩

/-- A move of the current pointer is followed by nothing else. -/
theorem follow_outline (hs : s.Observing) {r : Pool × Option Switch}
    (hr : r.2 = none → r.1 = s.pool) :
    (s.follow r).outline = ({ s with pool := r.1 } : Manager).outline ∧ (s.follow r).Observing := by
  obtain ⟨q, w⟩ := r
  rw [follow_eq]
  cases w with
  | none =>
    have hq : q = s.pool := hr rfl
    subst hq
    exact ⟨rfl, hs⟩
  | some w =>
    have hs' : (({ s with pool := q } : Manager).record (.switched w)).Observing := hs
    exact announceWith_observes hs' _

/-- With listeners that only observe, the end of a check is one function of the pool. -/
theorem rank_outline (hs : s.Observing) {options : CheckOptions} (on : options.autoSwitch = true)
    (probed : List (Connection × Bool)) :
    (s.rank options probed).1.outline =
        ({ s with
          pool := s.pool.settle
            (Selection.firstConnected s.pool.health.get (probed.map (·.1))) } : Manager).outline ∧
      (s.rank options probed).2 =
        (Selection.firstConnected s.pool.health.get (probed.map (·.1))).isSome := by
  obtain ⟨hpublish, hobserving⟩ := publishStatus_outline hs probed
  have hpool := outline_pool hpublish
  have himprove (t : Manager) (ht : t.Observing) :
      (t.follow t.pool.improve).outline = ({ t with pool := t.pool.improve.1 } : Manager).outline :=
    (follow_outline ht Pool.improve_none).1
  unfold rank
  dsimp only
  rw [if_pos on, hpool]
  refine ⟨?_, rfl⟩
  cases Selection.firstConnected s.pool.health.get (probed.map (·.1)) with
  | none =>
    rw [himprove _ hobserving, hpool]
    exact outline_withPool hpublish _
  | some c =>
    have hreconnect := follow_outline hobserving (r := s.pool.reconnect c)
      (hpool ▸ Pool.reconnect_none)
    have hmoved := outline_pool hreconnect.1
    rw [himprove _ hreconnect.2, hmoved]
    exact (outline_withPool hreconnect.1 _).trans (outline_withPool hpublish _)

end Manager

end RpcPool

import RpcPool.Manager.Schedule

/-!
# Instances in a run

A run makes instances of endpoints and numbers them. Everything in a manager that names a connection
(the registry, labels, operations under way, the options of poll loops) names one that was made in
the run, so the number of a connection tells which one it is.

Results:
1. `Genuine.eq`: two connections that were made in one run and have one number are the same.
2. `mem_instances_setFlight`, `mem_instances_resolve` and the like: what a small change of a manager
   can add to the connections it names.
-/

namespace RpcPool

/-! ## The connections that a part of a manager names -/

def Search.instances (q : Search) : List Connection := q.excluded ++ q.later.flatten

def Stage.instances : Stage → List Connection
  | .status watched => [watched]
  | .failover watched _ q => watched :: q.instances
  | .search q => q.instances
  | .ranking => []
  | .sweep q => q.instances

def Operation.instances : Operation → List Connection
  | .checkConnection => []
  | .checkConnections conns excluded => conns ++ excluded
  | .bestAvailable excluded => excluded
  | .poll o => o.excluded

def Work.instances : Work → List Connection
  | .queued op => op.instances
  | .batch _ stage probes => stage.instances ++ probes.map (·.connection)

def Progress.instances : Progress → List Connection
  | .await _ stage conns => stage.instances ++ conns
  | .done _ => []

namespace Manager

variable {s : Manager} {c d : Connection}

/-- Every connection that a manager names. -/
def instances (s : Manager) : List Connection :=
  s.pool.registry.connections ++ s.pool.registry.current.toList ++ s.labels.map (·.2) ++
    s.flights.flatMap (·.2.work.instances) ++ s.loops.flatMap (·.2.options.excluded)

theorem mem_instances :
    c ∈ s.instances ↔
      c ∈ s.pool.registry.connections ∨ s.pool.registry.current = some c ∨
        (∃ e ∈ s.labels, e.2 = c) ∨ (∃ e ∈ s.flights, c ∈ e.2.work.instances) ∨
        ∃ e ∈ s.loops, c ∈ e.2.options.excluded := by
  simp only [instances, List.mem_append, Option.mem_toList, List.mem_map,
    List.mem_flatMap, or_assoc]

theorem mem_instances_of_registered (h : c ∈ s.pool.registry.connections) : c ∈ s.instances :=
  mem_instances.mpr (Or.inl h)

theorem mem_instances_of_current (h : s.pool.registry.current = some c) : c ∈ s.instances :=
  mem_instances.mpr (Or.inr (Or.inl h))

/-! ## Keyed lists -/

theorem mem_of_lookup {α β : Type} [BEq α] [LawfulBEq α] {key : α} {value : β}
    {entries : List (α × β)} (h : entries.lookup key = some value) : (key, value) ∈ entries := by
  obtain ⟨before, after, rfl, _⟩ := List.lookup_eq_some_iff.mp h
  simp

theorem mem_upsert {α β : Type} [BEq α] {key : α} {value : β} {entries : List (α × β)} {e : α × β}
    (h : e ∈ upsert key value entries) : e = (key, value) ∨ e ∈ entries := by
  rcases List.mem_cons.mp h with h | h
  · exact Or.inl h
  · exact Or.inr (List.mem_filter.mp h).1

theorem lookup_without_self {α β : Type} [BEq α] [LawfulBEq α] (key : α) (entries : List (α × β)) :
    (without key entries).lookup key = none := by
  refine List.lookup_eq_none_iff.mpr fun e he => ?_
  have hne := (List.mem_filter.mp he).2
  simp only [Bool.not_eq_true', beq_eq_false_iff_ne, ne_eq] at hne
  simpa using fun h => hne h.symm

theorem lookup_without_ne {α β : Type} [BEq α] [LawfulBEq α] {key other : α}
    (entries : List (α × β)) (h : other ≠ key) :
    (without key entries).lookup other = entries.lookup other := by
  induction entries with
  | nil => rfl
  | cons e rest ih =>
    obtain ⟨k, v⟩ := e
    unfold without at ih ⊢
    by_cases hk : k = key
    · have hother : (other == k) = false := beq_false_of_ne (hk ▸ h)
      simp only [List.filter_cons, hk, beq_self_eq_true, Bool.not_true, if_false,
        Bool.false_eq_true, ih]
      rw [List.lookup_cons, ← hk, hother]
    · have hkey : (k == key) = false := beq_false_of_ne hk
      simp only [List.filter_cons, hkey, Bool.not_false, if_true, List.lookup_cons, ih]

theorem lookup_upsert_self {α β : Type} [BEq α] [LawfulBEq α] (key : α) (value : β)
    (entries : List (α × β)) : (upsert key value entries).lookup key = some value :=
  List.lookup_cons_self

theorem lookup_upsert_ne {α β : Type} [BEq α] [LawfulBEq α] {key other : α} (value : β)
    (entries : List (α × β)) (h : other ≠ key) :
    (upsert key value entries).lookup other = entries.lookup other := by
  have hother : (other == key) = false := beq_false_of_ne h
  unfold upsert
  rw [List.lookup_cons, hother]
  exact lookup_without_ne entries h

theorem mem_without {α β : Type} [BEq α] {key : α} {entries : List (α × β)} {e : α × β}
    (h : e ∈ without key entries) : e ∈ entries :=
  (List.mem_filter.mp h).1

theorem mem_instances_flight {id : FlightId} {f : Flight} (h : s.flights.lookup id = some f)
    (hc : c ∈ f.work.instances) : c ∈ s.instances :=
  mem_instances.mpr (Or.inr (Or.inr (Or.inr (Or.inl ⟨_, mem_of_lookup h, hc⟩))))

theorem mem_instances_loop {id : LoopId} {l : PollLoop} (h : s.loops.lookup id = some l)
    (hc : c ∈ l.options.excluded) : c ∈ s.instances :=
  mem_instances.mpr (Or.inr (Or.inr (Or.inr (Or.inr ⟨_, mem_of_lookup h, hc⟩))))

/-! ## Changes -/

theorem mem_instances_setFlight {id : FlightId} {f : Flight}
    (h : c ∈ (s.setFlight id f).instances) : c ∈ s.instances ∨ c ∈ f.work.instances := by
  simp only [mem_instances, setFlight] at h ⊢
  rcases h with h | h | h | ⟨e, he, hc⟩ | h
  · exact Or.inl (Or.inl h)
  · exact Or.inl (Or.inr (Or.inl h))
  · exact Or.inl (Or.inr (Or.inr (Or.inl h)))
  · rcases mem_upsert he with rfl | he
    · exact Or.inr hc
    · exact Or.inl (Or.inr (Or.inr (Or.inr (Or.inl ⟨e, he, hc⟩))))
  · exact Or.inl (Or.inr (Or.inr (Or.inr (Or.inr h))))

theorem mem_instances_setLoop {id : LoopId} {l : PollLoop} (h : c ∈ (s.setLoop id l).instances) :
    c ∈ s.instances ∨ c ∈ l.options.excluded := by
  simp only [mem_instances, setLoop] at h ⊢
  rcases h with h | h | h | h | ⟨e, he, hc⟩
  · exact Or.inl (Or.inl h)
  · exact Or.inl (Or.inr (Or.inl h))
  · exact Or.inl (Or.inr (Or.inr (Or.inl h)))
  · exact Or.inl (Or.inr (Or.inr (Or.inr (Or.inl h))))
  · rcases mem_upsert he with rfl | he
    · exact Or.inr hc
    · exact Or.inl (Or.inr (Or.inr (Or.inr (Or.inr ⟨e, he, hc⟩))))

theorem label_eq (s : Manager) (label : Option String) (c : Connection) :
    ∃ labels, s.label label c = { s with labels := labels } := by
  cases label with
  | none => exact ⟨s.labels, rfl⟩
  | some l => exact ⟨upsert l c s.labels, rfl⟩

theorem mem_instances_label {label : Option String} (h : c ∈ (s.label label d).instances) :
    c ∈ s.instances ∨ c = d := by
  cases label with
  | none => exact Or.inl h
  | some l =>
    simp only [mem_instances, Manager.label] at h ⊢
    rcases h with h | h | ⟨e, he, hc⟩ | h | h
    · exact Or.inl (Or.inl h)
    · exact Or.inl (Or.inr (Or.inl h))
    · rcases mem_upsert he with rfl | he
      · exact Or.inr hc.symm
      · exact Or.inl (Or.inr (Or.inr (Or.inl ⟨e, he, hc⟩)))
    · exact Or.inl (Or.inr (Or.inr (Or.inr (Or.inl h))))
    · exact Or.inl (Or.inr (Or.inr (Or.inr (Or.inr h))))

theorem mem_instances_setRegistry {r : Registry} (h : c ∈ (s.setRegistry r).instances) :
    c ∈ s.instances ∨ c ∈ r.connections ∨ r.current = some c := by
  simp only [mem_instances, setRegistry] at h ⊢
  rcases h with h | h | h
  · exact Or.inr (Or.inl h)
  · exact Or.inr (Or.inr h)
  · exact Or.inl (Or.inr (Or.inr h))

/-! ## Names -/

theorem mem_instances_resolve {name : String} (h : s.resolve name = some c) : c ∈ s.instances := by
  unfold resolve at h
  rcases Option.or_eq_some_iff.mp h with h | ⟨_, h⟩
  · exact mem_instances.mpr (Or.inr (Or.inr (Or.inl ⟨_, mem_of_lookup h, rfl⟩)))
  · exact mem_instances_of_registered (List.mem_of_find?_eq_some h)

theorem mem_instances_resolveAll {names : List String} (h : c ∈ s.resolveAll names) :
    c ∈ s.instances := by
  obtain ⟨name, _, hname⟩ := List.mem_filterMap.mp h
  exact mem_instances_resolve hname

theorem mem_listing {p : Pool} : c ∈ p.listing ↔ c ∈ p.registry.connections :=
  List.mem_mergeSort

theorem mem_instances_operation {r : Request} (h : c ∈ (s.operation r).instances) :
    c ∈ s.instances := by
  cases r with
  | checkConnection => exact absurd h List.not_mem_nil
  | checkConnections conns excluded =>
    rcases List.mem_append.mp h with h | h
    · cases conns with
      | none => exact mem_instances_of_registered (mem_listing.mp h)
      | some names => exact mem_instances_resolveAll h
    · exact mem_instances_resolveAll h
  | bestAvailable excluded => exact mem_instances_resolveAll h

/-! ## Genuine connections -/

/-- The connection is an instance that was made in the run. -/
def Genuine (s : Manager) (c : Connection) : Prop := s.made[c.id]? = some c.endpoint

instance : Decidable (s.Genuine c) := inferInstanceAs (Decidable (_ = _))

theorem Genuine.eq (hc : s.Genuine c) (hd : s.Genuine d) (id : c.id = d.id) : c = d := by
  obtain ⟨i, e⟩ := c
  obtain ⟨j, f⟩ := d
  unfold Genuine at hc hd
  simp only at id hc hd
  subst id
  rw [hc] at hd
  cases hd
  rfl

theorem Genuine.mono {t : Manager} (hc : s.Genuine c) (h : s.made <+: t.made) : t.Genuine c := by
  obtain ⟨more, hmore⟩ := h
  unfold Genuine at hc ⊢
  rw [← hmore, List.getElem?_append_left (List.getElem?_eq_some_iff.mp hc).1]
  exact hc

/-- A new instance is genuine. -/
theorem genuine_new {t : Manager} (s : Manager) (e : Endpoint) (h : t.made = s.made ++ [e]) :
    t.Genuine ⟨s.made.length, e⟩ := by
  unfold Genuine
  rw [h]
  exact List.getElem?_concat_length

end Manager

end RpcPool

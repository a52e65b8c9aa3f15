import Mathlib.Data.List.Nodup
import RpcPool.Registry

/-!
# Well-formed registries

A registry keeps two things apart: the list of its connections and the current one. It is well
formed when they fit together: every URI names at most one connection, no URI is empty, the current
connection is one of the list, and the timeout is not zero.

Results:
1. `WellFormed.add` to `WellFormed.reset`: every explicit change keeps a registry well formed, also
   when an instance takes the place of the current one under the same URI.
2. `WellFormed.switchTo`: so does an automatic change, provided that instances are told apart by
   their numbers.
3. `switchTo_eq`: an automatic change takes place exactly when its target is registered and not
   current.
4. `disconnect_faithful` to `reset_faithful`: what an explicit change reports is what has become of
   the current connection.
-/

namespace RpcPool

/-- A change as it is reported, against the current connection before and after: it is said to have
changed only if it is another one now. -/
def Change.Faithful (before after : Option Connection) : Change → Prop
  | .unchanged => after = before
  | .changed current => after = current ∧ before ≠ current

namespace Registry

/-- The list and the current connection fit together. -/
structure WellFormed (r : Registry) : Prop where
  distinct : (r.connections.map (·.uri)).Nodup
  named : ∀ c ∈ r.connections, c.uri ≠ ""
  current_mem : ∀ c, r.current = some c → c ∈ r.connections
  timeout_ne : r.timeoutMs ≠ 0

/-! ## Lookups -/

theorem get?_mem {r : Registry} {uri : String} {c : Connection} (h : r.get? uri = some c) :
    c ∈ r.connections :=
  List.mem_of_find?_eq_some h

theorem get?_uri {r : Registry} {uri : String} {c : Connection} (h : r.get? uri = some c) :
    c.uri = uri := by
  have found := List.find?_some h
  exact eq_of_beq found

theorem has_iff {r : Registry} {uri : String} :
    r.has uri = true ↔ uri ∈ r.connections.map (·.uri) := by
  simp [has]

theorem contains_iff {r : Registry} {c : Connection} :
    r.contains c = true ↔ ∃ k ∈ r.connections, k.id = c.id := by
  simp [contains, Connection.same]

theorem isCurrent_iff {r : Registry} {c : Connection} :
    r.isCurrent c = true ↔ ∃ k, r.current = some k ∧ k.id = c.id := by
  cases h : r.current <;> simp [isCurrent, Connection.same, h]

theorem WellFormed.eq_of_uri {r : Registry} (h : r.WellFormed) {c d : Connection}
    (hc : c ∈ r.connections) (hd : d ∈ r.connections) (uris : c.uri = d.uri) : c = d :=
  List.inj_on_of_nodup_map h.distinct hc hd uris

/-! ## Placing an instance -/

theorem mem_place {c k : Connection} {cs : List Connection} (h : k ∈ place c cs) :
    k = c ∨ k ∈ cs := by
  induction cs with
  | nil => exact Or.inl (List.mem_singleton.mp h)
  | cons d rest ih =>
    by_cases hd : d.uri = c.uri
    · rw [place, if_pos hd] at h
      rcases List.mem_cons.mp h with hk | hk
      · exact Or.inl hk
      · exact Or.inr (List.mem_cons_of_mem _ hk)
    · rw [place, if_neg hd] at h
      rcases List.mem_cons.mp h with hk | hk
      · exact Or.inr (hk ▸ List.mem_cons_self)
      · exact (ih hk).imp_right (List.mem_cons_of_mem _)

theorem self_mem_place (c : Connection) (cs : List Connection) : c ∈ place c cs := by
  induction cs with
  | nil => exact List.mem_singleton_self c
  | cons d rest ih =>
    by_cases hd : d.uri = c.uri
    · rw [place, if_pos hd]
      exact List.mem_cons_self
    · rw [place, if_neg hd]
      exact List.mem_cons_of_mem _ ih

/-- Placing an instance leaves the URIs as they are, or adds its own at the end. -/
theorem map_uri_place (c : Connection) (cs : List Connection) :
    (place c cs).map (·.uri) =
      if c.uri ∈ cs.map (·.uri) then cs.map (·.uri) else cs.map (·.uri) ++ [c.uri] := by
  induction cs with
  | nil => simp [place]
  | cons d rest ih =>
    by_cases hd : d.uri = c.uri
    · simp [place, hd]
    · have hne : ¬ c.uri = d.uri := fun h => hd h.symm
      rw [place, if_neg hd, List.map_cons, ih]
      by_cases hr : c.uri ∈ rest.map (·.uri)
      · simp [hr]
      · simp only [List.map_cons, List.mem_cons, hne, hr, or_self, if_false, List.cons_append]

theorem nodup_place {c : Connection} {cs : List Connection} (h : (cs.map (·.uri)).Nodup) :
    ((place c cs).map (·.uri)).Nodup := by
  rw [map_uri_place]
  split
  · exact h
  · next hc => exact List.nodup_append.mpr ⟨h, List.nodup_singleton _, by
      rintro a ha b hb rfl
      exact hc (List.mem_singleton.mp hb ▸ ha)⟩

/-! ## Explicit changes -/

theorem WellFormed.empty : Registry.empty.WellFormed :=
  ⟨List.nodup_nil, fun _ h => absurd h List.not_mem_nil, fun _ h => (nomatch h), by decide⟩

theorem add_ok {r r' : Registry} {c : Connection} (h : r.add c = .ok r') :
    c.uri ≠ "" ∧ c.uri ∉ r.connections.map (·.uri) ∧
      r' = { r with connections := r.connections ++ [c] } := by
  unfold add at h
  split at h
  · exact absurd h (by simp)
  · next hne =>
    split at h
    · exact absurd h (by simp)
    · next hnew =>
      rw [has_iff] at hnew
      exact ⟨hne, hnew, (Except.ok.inj h).symm⟩

theorem WellFormed.add {r r' : Registry} {c : Connection} (h : r.WellFormed)
    (hr : r.add c = .ok r') : r'.WellFormed := by
  obtain ⟨hne, hnew, rfl⟩ := add_ok hr
  refine ⟨?_, ?_, ?_, h.timeout_ne⟩
  · rw [List.map_append]
    refine List.nodup_append.mpr ⟨h.distinct, List.nodup_singleton _, ?_⟩
    rintro a ha b hb rfl
    rw [List.mem_singleton.mp hb] at ha
    exact hnew ha
  · intro k hk
    rcases List.mem_append.mp hk with hk | hk
    · exact h.named k hk
    · exact List.mem_singleton.mp hk ▸ hne
  · exact fun k hk => List.mem_append_left _ (h.current_mem k hk)

theorem WellFormed.disconnect {r : Registry} (h : r.WellFormed) : r.disconnect.1.WellFormed :=
  ⟨h.distinct, h.named, fun _ hk => (nomatch hk), h.timeout_ne⟩

/-- What is left of a registry by `remove`. -/
theorem remove_ok {r r' : Registry} {uri : String} {change : Change}
    (h : r.remove uri = .ok (r', change)) :
    ∃ c, r.get? uri = some c ∧
      r' = { r with
        connections := r.connections.eraseP fun k => k.uri == uri
        current := if r.isCurrent c then none else r.current } := by
  unfold remove at h
  split at h
  · exact absurd h (by simp)
  · next c hc =>
    refine ⟨c, hc, ?_⟩
    cases hcur : r.isCurrent c <;>
      simp only [hcur, if_true, if_false, Bool.false_eq_true, Registry.disconnect, Except.ok.injEq,
        Prod.mk.injEq] at h ⊢ <;>
      exact h.1.symm

theorem WellFormed.remove {r r' : Registry} {uri : String} {change : Change} (h : r.WellFormed)
    (hr : r.remove uri = .ok (r', change)) : r'.WellFormed := by
  obtain ⟨c, hc, rfl⟩ := remove_ok hr
  have hsub : (r.connections.eraseP fun k => k.uri == uri).Sublist r.connections :=
    List.eraseP_sublist
  refine ⟨(hsub.map _).nodup h.distinct, fun k hk => h.named k (hsub.subset hk), ?_, h.timeout_ne⟩
  intro k hk
  by_cases hcur : r.isCurrent c = true
  · simp [hcur] at hk
  · simp only [hcur, if_false, Bool.false_eq_true] at hk
    -- a current connection with the URI would be the one that is removed
    have huri : ¬ (k.uri == uri) = true := by
      intro hu
      have hkc : k = c := h.eq_of_uri (h.current_mem k hk) (get?_mem hc)
        ((eq_of_beq hu).trans (get?_uri hc).symm)
      exact hcur (isCurrent_iff.mpr ⟨k, hk, by rw [hkc]⟩)
    exact (List.mem_eraseP_of_neg (p := fun k => k.uri == uri) (a := k) huri).mpr
      (h.current_mem k hk)

/-- What `select` makes of a registry: nothing new if the instance is current, else it is in the
list and current. -/
theorem select_ok {r r' : Registry} {c : Connection} {change : Change}
    (h : r.select c = .ok (r', change)) :
    (r.isCurrent c = true ∧ r' = r) ∨
      (r.isCurrent c = false ∧ c.uri ≠ "" ∧
        r' = { r with connections := place c r.connections, current := some c }) := by
  unfold select at h
  split at h
  · next hcur =>
    simp only [Except.ok.injEq, Prod.mk.injEq] at h
    exact Or.inl ⟨hcur, h.1.symm⟩
  · next hcur =>
    split at h
    · exact absurd h (by simp)
    · next hne =>
      simp only [Except.ok.injEq, Prod.mk.injEq] at h
      exact Or.inr ⟨Bool.not_eq_true _ ▸ hcur, hne, h.1.symm⟩

theorem WellFormed.select {r r' : Registry} {c : Connection} {change : Change} (h : r.WellFormed)
    (hr : r.select c = .ok (r', change)) : r'.WellFormed := by
  rcases select_ok hr with ⟨_, rfl⟩ | ⟨_, hne, rfl⟩
  · exact h
  · refine ⟨nodup_place h.distinct, ?_, ?_, h.timeout_ne⟩
    · intro k hk
      rcases mem_place hk with rfl | hk
      · exact hne
      · exact h.named k hk
    · intro k hk
      cases hk
      exact self_mem_place c r.connections

theorem selectUri_ok {r r' : Registry} {uri : String} {fresh : InstanceId} {change : Change}
    (h : r.selectUri uri fresh = .ok (r', change)) :
    r.select ((r.get? uri).getD ⟨fresh, { uri }⟩) = .ok (r', change) := by
  unfold selectUri at h
  split at h
  · exact absurd h (by simp)
  · exact h

theorem WellFormed.clear {r : Registry} (h : r.WellFormed) : r.clear.1.WellFormed :=
  ⟨List.nodup_nil, fun _ hk => absurd hk List.not_mem_nil, fun _ hk => (nomatch hk), h.timeout_ne⟩

theorem WellFormed.reset (r : Registry) : r.reset.1.WellFormed :=
  ⟨List.nodup_nil, fun _ hk => absurd hk List.not_mem_nil, fun _ hk => (nomatch hk), by
    show defaultTimeoutMs ≠ 0
    decide⟩

/-! ## What is reported -/

theorem disconnect_faithful (r : Registry) :
    r.disconnect.2.Faithful r.current r.disconnect.1.current := by
  cases hcur : r.current with
  | none => simp [disconnect, Change.Faithful, hcur]
  | some k => simp [disconnect, Change.Faithful, hcur]

theorem remove_faithful {r r' : Registry} {uri : String} {change : Change}
    (h : r.remove uri = .ok (r', change)) : change.Faithful r.current r'.current := by
  unfold remove at h
  split at h
  · exact absurd h (by simp)
  · next c _ =>
    simp only [Except.ok.injEq] at h
    split at h
    · cases h
      exact disconnect_faithful { r with connections := r.connections.eraseP fun k => k.uri == uri }
    · cases h
      rfl

theorem select_faithful {r r' : Registry} {c : Connection} {change : Change}
    (h : r.select c = .ok (r', change)) : change.Faithful r.current r'.current := by
  unfold select at h
  split at h
  · cases h
    rfl
  · next hcur =>
    split at h
    · exact absurd h (by simp)
    · cases h
      exact ⟨rfl, fun hc => hcur (isCurrent_iff.mpr ⟨c, hc, rfl⟩)⟩

theorem selectUri_faithful {r r' : Registry} {uri : String} {fresh : InstanceId} {change : Change}
    (h : r.selectUri uri fresh = .ok (r', change)) : change.Faithful r.current r'.current :=
  select_faithful (selectUri_ok h)

theorem clear_faithful (r : Registry) : r.clear.2.Faithful r.current r.clear.1.current :=
  disconnect_faithful { r with connections := [] }

theorem reset_faithful (r : Registry) : r.reset.2.Faithful r.current r.reset.1.current :=
  clear_faithful { r with autoSwitch := defaultAutoSwitch, timeoutMs := defaultTimeoutMs }

/-! ## Automatic changes -/

/-- An automatic change takes place exactly when its target is registered and not current yet. -/
theorem switchTo_eq (r : Registry) (c : Connection) :
    (r.isCurrent c = false ∧ r.contains c = true ∧
        r.switchTo c = ({ r with current := some c }, .changed (some c))) ∨
      ((r.isCurrent c = true ∨ r.contains c = false) ∧ r.switchTo c = (r, .unchanged)) := by
  unfold switchTo
  cases hcur : r.isCurrent c <;> cases hin : r.contains c <;> simp

theorem WellFormed.switchTo {r : Registry} {c : Connection} (h : r.WellFormed)
    (apart : ∀ k ∈ r.connections, k.id = c.id → k = c) : (r.switchTo c).1.WellFormed := by
  rcases switchTo_eq r c with ⟨_, hin, heq⟩ | ⟨_, heq⟩
  · rw [heq]
    refine ⟨h.distinct, h.named, ?_, h.timeout_ne⟩
    intro k hk
    cases hk
    obtain ⟨d, hd, hid⟩ := contains_iff.mp hin
    exact apart d hd hid ▸ hd
  · rw [heq]
    exact h

end Registry

end RpcPool

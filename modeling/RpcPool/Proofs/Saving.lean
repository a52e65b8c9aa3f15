import Mathlib.Data.List.Forall2
import RpcPool.Config.Text
import RpcPool.Proofs.Documents

/-!
# Saving configurations

A configuration is written as a document of three levels: its settings, its poll loop and its entries,
and the attributes of an entry. It is read from sorted data, so it does not matter where a document has
its sections, and the attributes that are read are in order. Hence what was loaded comes back.

Results:
1. `record_keeps`: a record that is read from sorted data has what every field keeps.
2. `read_polling`, `read_entry`, `read_toData`: what is written is read as what it was.
3. `ofToml_toToml`, `ofToml_toToml_of_loaded`: the text of a configuration holds the configuration.
-/

namespace RpcPool

open Toml

namespace Data

/-! ## Sorted tables -/

/-- The keys of a table in strictly ascending order. -/
abbrev Ascending {α : Type} (entries : List (String × α)) : Prop :=
  entries.Pairwise fun e e' => e.1 < e'.1

theorem mem_insertSorted {α : Type} {k : String} {a : α} {l : List (String × α)} {e : String × α}
    (h : e ∈ insertSorted k a l) : e = (k, a) ∨ e ∈ l := by
  induction l with
  | nil => grind [insertSorted]
  | cons e' rest ih => grind [insertSorted]

theorem ascending_insertSorted {α : Type} (k : String) (a : α) {l : List (String × α)}
    (h : Ascending l) : Ascending (insertSorted k a l) := by
  induction l with
  | nil => exact List.pairwise_singleton _ _
  | cons e rest ih =>
    obtain ⟨hhead, hrest⟩ := List.pairwise_cons.mp h
    unfold insertSorted
    split
    · next hlt =>
      refine List.pairwise_cons.mpr ⟨fun e' he' => ?_, h⟩
      rcases List.mem_cons.mp he' with rfl | he'
      · exact hlt
      · exact String.lt_trans hlt (hhead e' he')
    · split
      · next heq => exact List.pairwise_cons.mpr ⟨fun e' he' => heq ▸ hhead e' he', hrest⟩
      · refine List.pairwise_cons.mpr ⟨fun e' he' => ?_, ih hrest⟩
        rcases mem_insertSorted he' with rfl | he'
        · grind
        · exact hhead e' he'

theorem insertSorted_last {α : Type} {k : String} (a : α) {l : List (String × α)}
    (h : ∀ e ∈ l, e.1 < k) : insertSorted k a l = l ++ [(k, a)] := by
  induction l with
  | nil => rfl
  | cons e rest ih => grind [insertSorted]

theorem ascending_sortedTable {done : List (String × Data)} (h : Ascending done)
    (entries : List (String × Data)) : Ascending (sortedTable done entries) := by
  induction entries generalizing done with
  | nil => exact h
  | cons e rest ih => exact ih (ascending_insertSorted _ _ h)

theorem mem_sortedTable {done entries : List (String × Data)} {e : String × Data}
    (h : e ∈ sortedTable done entries) : e ∈ done ∨ ∃ d, e.2 = sorted d := by
  induction entries generalizing done with
  | nil => exact Or.inl h
  | cons e' rest ih =>
    rcases ih h with h | h
    · rcases mem_insertSorted h with rfl | h
      · exact Or.inr ⟨_, rfl⟩
      · exact Or.inl h
    · exact Or.inr h

/-- A table that is in order already stays as it is. -/
theorem sortedTable_of_ascending {done entries : List (String × Data)}
    (h : Ascending (done ++ entries)) :
    sortedTable done entries = done ++ entries.map fun e => (e.1, e.2.sorted) := by
  induction entries generalizing done with
  | nil => simp [sortedTable]
  | cons e rest ih =>
    have hlast : ∀ e' ∈ done, e'.1 < e.1 := fun e' he' =>
      (List.pairwise_append.mp h).2.2 e' he' e List.mem_cons_self
    have hrest : Ascending (done ++ [(e.1, e.2.sorted)] ++ rest) := by
      have hkeys : (done ++ [(e.1, e.2.sorted)] ++ rest).map (·.1) =
          (done ++ e :: rest).map (·.1) := by simp
      exact List.pairwise_map.mp (hkeys ▸ List.pairwise_map.mpr h)
    unfold sortedTable
    rw [insertSorted_last _ hlast, ih hrest]
    simp

theorem nodup_keys {α : Type} {l : List (String × α)} (h : Ascending l) : (l.map (·.1)).Nodup := by
  refine List.pairwise_map.mpr (h.imp fun {e e'} hlt heq => ?_)
  rw [heq] at hlt
  exact String.lt_irrefl _ hlt

/-! ## Reading lists -/

theorem forall₂_of_mapM {ε α β : Type} {f : α → Except ε β} {l : List α} {l' : List β}
    (h : l.mapM f = .ok l') : List.Forall₂ (fun a b => f a = .ok b) l l' := by
  induction l generalizing l' with
  | nil =>
    cases h
    exact .nil
  | cons a rest ih =>
    rw [List.mapM_cons] at h
    cases ha : f a with
    | error e => simp [ha, bind, Except.bind] at h
    | ok b =>
      cases hrest : rest.mapM f with
      | error e => simp [ha, hrest, bind, Except.bind] at h
      | ok bs =>
        simp only [ha, hrest, bind, Except.bind, pure, Except.pure, Except.ok.injEq] at h
        exact h ▸ .cons ha (ih hrest)

/-- What stands in a list that is read from sorted data is read from sorted data itself. -/
theorem exists_of_listOf {α : Type} {f : Read α} {d : Data} {l : List α} {a : α}
    (h : listOf f d.sorted = .ok l) (ha : a ∈ l) : ∃ y : Data, f y.sorted = .ok a := by
  cases d with
  | list elements =>
    have hread := forall₂_of_mapM h
    rw [sortedList_eq_map, List.forall₂_map_left_iff] at hread
    clear h
    induction hread with
    | nil => exact absurd ha List.not_mem_nil
    | @cons y b _ _ hy _ ih =>
      rcases List.mem_cons.mp ha with rfl | ha
      · exact ⟨y, hy⟩
      · exact ih ha
  | outOfRange => cases h
  | null | bool _ | integer _ | float _ | text _ | table _ => cases h

theorem map_eq_ok {ε α β : Type} {f : α → β} {x : Except ε α} {b : β} (h : x.map f = .ok b) :
    ∃ a, x = .ok a ∧ f a = b := by
  cases x with
  | error e => cases h
  | ok a => exact ⟨a, rfl, Except.ok.inj h⟩

theorem mapM_map {ε α β : Type} {f : α → Except ε β} {g : β → α} {l : List β}
    (h : ∀ b ∈ l, f (g b) = .ok b) : (l.map g).mapM f = .ok l := by
  induction l with
  | nil => rfl
  | cons b rest ih =>
    have hb := h b List.mem_cons_self
    have hrest := ih fun b hb => h b (List.mem_cons_of_mem _ hb)
    simp [hb, hrest, bind, Except.bind, pure, Except.pure]

/-! ## Reading sorted records -/

/-- What every field that is taken over keeps, a record that is read from sorted data has. -/
theorem setFields_keeps {σ : Type} {r : RecordShape σ} {I : σ → Prop}
    (hset : ∀ name d acc acc', I acc → r.set name (sorted d) acc = .ok acc' → I acc')
    {entries : List (String × Data)} (hentries : ∀ e ∈ entries, ∃ d, e.2 = sorted d) {acc acc' : σ}
    (hacc : I acc) (h : setFields r entries acc = .ok acc') : I acc' := by
  induction entries generalizing acc with
  | nil =>
    cases h
    exact hacc
  | cons e rest ih =>
    have hrest : ∀ e ∈ rest, ∃ d, e.2 = sorted d := fun e he => hentries e (List.mem_cons_of_mem _ he)
    obtain ⟨d, hd⟩ := hentries e List.mem_cons_self
    simp only [setFields, hd] at h
    split at h
    · split at h
      · cases h
      · next hnext => exact ih hrest (hset _ _ _ _ hacc hnext) h
    · split at h
      · cases h
      · exact ih hrest hacc h

theorem record_keeps {σ : Type} {dialect : Dialect} {r : RecordShape σ} {I : σ → Prop}
    (hset : ∀ name d acc acc', I acc → r.set name (sorted d) acc = .ok acc' → I acc')
    {start acc : σ} (hstart : I start) {d : Data} (h : record dialect r start d.sorted = .ok acc) :
    I acc := by
  cases d with
  | table entries =>
    have hvalues : ∀ e ∈ sortedTable [] entries, ∃ d, e.2 = sorted d := fun e he =>
      (mem_sortedTable he).resolve_left List.not_mem_nil
    exact setFields_keeps hset hvalues hstart h
  | list elements =>
    have hvalues : ∀ e ∈ r.fields.zip (sortedList elements), ∃ d, e.2 = sorted d := by
      intro e he
      have hmem := (List.of_mem_zip he).2
      rw [sortedList_eq_map] at hmem
      exact (List.mem_map.mp hmem).imp fun _ h => h.2.symm
    simp only [sorted, record] at h
    split at h
    · cases h
    · next hread =>
      have hacc := setFields_keeps hset hvalues hstart hread
      split at h
      · cases h
      · split at h
        · cases h
        · cases h
          exact hacc
  | outOfRange => cases h
  | null | bool _ | integer _ | float _ | text _ => cases h

end Data

namespace Config

/-- An entry as it is loaded, with its attributes in order. -/
def Entry.Orderly (e : Entry) : Prop := Data.Ascending e.attributes

/-- Pairs in order are a map as they are. -/
theorem ofPairs_of_ascending {m : Attributes} (h : Data.Ascending m) : Attributes.ofPairs m = m :=
  Attributes.ofPairs_of_nodup (Data.nodup_keys h)

theorem keys_of_mapM {α : Type} {f : Data.Read α} {entries : List (String × Data)}
    {m : List (String × α)}
    (h : entries.mapM (fun e => (f e.2).map fun a => (e.1, a)) = .ok m) :
    entries.map (·.1) = m.map (·.1) := by
  have hread := Data.forall₂_of_mapM h
  clear h
  induction hread with
  | nil => rfl
  | cons hfirst _ ih =>
    obtain ⟨a, _, rfl⟩ := Data.map_eq_ok hfirst
    simp [ih]

/-- A map that is read from sorted data is in order. -/
theorem ascending_tableOf {α : Type} {f : Data.Read α} {d : Data} {m : List (String × α)}
    (h : Data.tableOf f d.sorted = .ok m) : Data.Ascending m := by
  cases d with
  | table entries =>
    have hkeys := keys_of_mapM h
    have hnil : Data.Ascending ([] : List (String × Data)) := List.Pairwise.nil
    have hsorted := Data.ascending_sortedTable hnil entries
    exact List.pairwise_map.mp (hkeys ▸ List.pairwise_map.mpr hsorted)
  | outOfRange => cases h
  | null | bool _ | integer _ | float _ | text _ | list _ => cases h

theorem orderly_entry {d : Data} {e : Entry} (h : readEntry dialect d.sorted = .ok e) : e.Orderly := by
  unfold readEntry at h
  split at h
  · cases h
  · cases h
  · next uri e' hread =>
    have horderly : e'.Orderly := by
      refine Data.record_keeps (I := fun acc => acc.2.Orderly) ?_ List.Pairwise.nil hread
      intro name d acc acc' hacc hset
      obtain ⟨uri, e⟩ := acc
      simp only [entryShape] at hset
      split at hset
      case h_6 =>
        obtain ⟨m, hm, rfl⟩ := Data.map_eq_ok hset
        have hascending := ascending_tableOf hm
        rw [ofPairs_of_ascending hascending]
        exact hascending
      case h_7 =>
        cases hset
        exact hacc
      all_goals
        obtain ⟨_, _, rfl⟩ := Data.map_eq_ok hset
        exact hacc
    cases h
    exact horderly

theorem orderly_read {d : Data} {c : Config} (h : read dialect d = .ok c) :
    ∀ e ∈ c.connections, e.Orderly := by
  have hset : ∀ (name : String) (d : Data) (acc acc' : Config), (∀ e ∈ acc.connections, e.Orderly) →
      (shape dialect).set name d.sorted acc = .ok acc' → ∀ e ∈ acc'.connections, e.Orderly := by
    intro name d acc acc' hacc hset
    simp only [shape] at hset
    split at hset
    case h_4 =>
      obtain ⟨entries, hentries, rfl⟩ := Data.map_eq_ok hset
      intro e he
      obtain ⟨y, hy⟩ := Data.exists_of_listOf hentries he
      exact orderly_entry hy
    case h_5 =>
      cases hset
      exact hacc
    all_goals
      obtain ⟨_, _, rfl⟩ := Data.map_eq_ok hset
      exact hacc
  exact Data.record_keeps hset (fun e he => absurd he List.not_mem_nil) h

/-! ## Writing -/

theorem writable_plain (depth : Nat) {entries : List (String × Data)}
    (hkeys : (entries.map (·.1)).Nodup) (h : ∀ e ∈ entries, Plain e.2) :
    Writable (depth + 1) entries :=
  ⟨hkeys, fun e he => .plain (h e he)⟩

theorem plain_texts (l : List String) : Plain (.list (l.map .text)) := by
  refine .list fun d hd => ?_
  obtain ⟨s, _, rfl⟩ := List.mem_map.mp hd
  exact .text s

theorem plain_optional {α : Type} {name : String} {f : α → Data} (hf : ∀ a, Plain (f a)) {o : Option α}
    {e : String × Data} (h : e ∈ optionalField name f o) : Plain e.2 := by
  cases o with
  | none => exact absurd h List.not_mem_nil
  | some a => exact List.mem_singleton.mp h ▸ hf a

theorem writable_entry (depth : Nat) (e : Entry) (h : (e.attributes.map (·.1)).Nodup) :
    ∃ entries, e.toData = .table entries ∧ Writable (depth + 2) entries := by
  refine ⟨_, rfl, ?_, fun x hx => ?_⟩
  · obtain ⟨uri, username, password, priority, timeout, attributes⟩ := e
    cases username <;> cases password <;> cases timeout <;> cases attributes <;>
      simp [optionalField]
  · simp only [List.mem_append, List.mem_singleton] at hx
    rcases hx with ((((rfl | hx) | hx) | rfl) | hx) | hx
    · exact .plain (.scalar (.text _))
    · exact .plain (plain_optional (fun s => .scalar (.text s)) hx)
    · exact .plain (plain_optional (fun s => .scalar (.text s)) hx)
    · exact .plain (.scalar (.natural _))
    · exact .plain (plain_optional (fun ms => .scalar (.natural _)) hx)
    · split at hx
      · exact absurd hx List.not_mem_nil
      · rw [List.mem_singleton.mp hx]
        refine .table (writable_plain depth (by simpa [Function.comp_def] using h) fun a ha => ?_)
        obtain ⟨a, _, rfl⟩ := List.mem_map.mp ha
        exact .scalar (.text _)

theorem writable_polling (depth : Nat) (p : Polling) :
    ∃ entries, p.toData = .table entries ∧ Writable (depth + 1) entries := by
  refine ⟨_, rfl, writable_plain depth (by simp) fun x hx => ?_⟩
  simp only [List.mem_cons, List.not_mem_nil, or_false] at hx
  rcases hx with rfl | rfl | rfl | rfl
  · exact .scalar (.bool _)
  · exact .scalar (.natural _)
  · exact .scalar (.text _)
  · exact plain_texts _

theorem writable_config (depth : Nat) (c : Config)
    (h : ∀ e ∈ c.connections, (e.attributes.map (·.1)).Nodup) :
    ∃ entries, c.toData = .table entries ∧ Writable (depth + 3) entries ∧
      ∃ e ∈ entries, isSection e.2 = false := by
  refine ⟨_, rfl, ⟨by simp, fun x hx => ?_⟩, _, List.mem_cons_self, rfl⟩
  simp only [List.mem_cons, List.not_mem_nil, or_false] at hx
  rcases hx with rfl | rfl | rfl | rfl
  · exact .plain (.scalar (.natural _))
  · exact .plain (.scalar (.bool _))
  · obtain ⟨entries, hdata, hentries⟩ := writable_polling (depth + 1) c.polling
    exact hdata ▸ .table hentries
  · by_cases hnone : c.connections = []
    · exact .plain (by simpa [hnone] using plain_texts [])
    · refine .tables (by simpa using hnone) fun x hx => ?_
      obtain ⟨e, he, rfl⟩ := List.mem_map.mp hx
      exact writable_entry depth e (h e he)

/-! ## Reading back -/

theorem natural_of_lt {bound n : Nat} (h : n < bound) (expected : String) :
    Data.natural bound expected (.integer n) = .ok n := by
  have hfits : (0 ≤ (n : Int) && (n : Int) < bound) = true := by simp [h]
  simp only [Data.natural]
  rw [if_pos hfits]
  rfl

theorem uint32_toNat (n : UInt32) : Data.uint32 (.integer n.toNat) = .ok n := by
  have hlt : n.toNat < Nat.pow 2 32 := n.toNat_lt
  unfold Data.uint32
  rw [natural_of_lt hlt, Except.map, UInt32.ofNat_toNat]

theorem uint64_toNat (n : UInt64) : Data.uint64 (.integer n.toNat) = .ok n := by
  have hlt : n.toNat < Nat.pow 2 64 := n.toNat_lt
  unfold Data.uint64
  rw [natural_of_lt hlt, Except.map, UInt64.ofNat_toNat]

theorem listOf_texts (l : List String) : Data.listOf Data.string (.list (l.map .text)) = .ok l :=
  Data.mapM_map fun _ _ => rfl

theorem readPollType_name (t : PollType) : readPollType dialect (.text t.name) = .ok t := by
  cases t <;> rfl

theorem sorted_texts (l : List String) : (Data.list (l.map .text)).sorted = .list (l.map .text) := by
  simp [Data.sorted, sortedList_eq_map, Function.comp_def]

theorem setFields_known {σ : Type} {r : Data.RecordShape σ} {name : String} {d : Data} {acc acc' : σ}
    (hname : r.fields.contains name = true) (hset : r.set name d acc = .ok acc')
    (rest : List (String × Data)) :
    Data.setFields r ((name, d) :: rest) acc = Data.setFields r rest acc' := by
  simp only [Data.setFields, hname, if_true, hset]

theorem setFields_optional {σ α : Type} {r : Data.RecordShape σ} {name : String} {f : α → Data}
    (hname : r.fields.contains name = true) (put : Option α → σ) {o : Option α}
    (hset : ∀ a, o = some a → r.set name (f a) (put none) = .ok (put (some a)))
    (rest : List (String × Data)) :
    Data.setFields r (optionalField name f o ++ rest) (put none) = Data.setFields r rest (put o) := by
  cases o with
  | none => rfl
  | some a => exact setFields_known hname (hset a rfl) rest

theorem read_polling (p : Polling) :
    Data.record dialect (pollingShape dialect) {} p.toData.sorted = .ok p := by
  have hsorted : p.toData.sorted = .table
      [("enabled", .bool p.enabled), ("excluded", .list (p.excluded.map .text)),
        ("period_ms", .integer p.periodMs.toNat), ("poll_type", .text p.pollType.name)] := by
    rw [← sorted_texts]
    simp only [Polling.toData, Data.sorted, Data.sortedTable, Data.insertSorted, String.reduceLT,
      String.reduceEq, if_true, if_false]
  have henabled (q : Polling) : (pollingShape dialect).set "enabled" (.bool p.enabled) q =
      .ok { q with enabled := p.enabled } := rfl
  have hexcluded (q : Polling) : (pollingShape dialect).set "excluded" (.list (p.excluded.map .text)) q =
      .ok { q with excluded := p.excluded } := by
    simp only [pollingShape, listOf_texts, Except.map]
  have hperiod (d : Data) (hd : d.uint64 = .ok p.periodMs) (q : Polling) :
      (pollingShape dialect).set "period_ms" d q = .ok { q with periodMs := p.periodMs } := by
    simp only [pollingShape, hd, Except.map]
  have htype (q : Polling) : (pollingShape dialect).set "poll_type" (.text p.pollType.name) q =
      .ok { q with pollType := p.pollType } := by
    simp only [pollingShape, readPollType_name, Except.map]
  rw [hsorted]
  exact (setFields_known rfl (henabled _) _).trans ((setFields_known rfl (hexcluded _) _).trans
    ((setFields_known rfl (hperiod _ (uint64_toNat _) _) _).trans
      ((setFields_known rfl (htype _) _).trans rfl)))

theorem read_attributes {m : Attributes} (h : Data.Ascending m) :
    Data.tableOf Data.string (Data.table (m.map fun a => (a.1, .text a.2))).sorted = .ok m := by
  have hsorted : (Data.table (m.map fun a => (a.1, .text a.2))).sorted =
      .table (m.map fun a => (a.1, .text a.2)) := by
    have hascending : Data.Ascending ([] ++ m.map fun a => (a.1, Data.text a.2)) :=
      List.pairwise_map.mpr h
    simp only [Data.sorted, Data.sortedTable_of_ascending hascending, List.nil_append, List.map_map]
    rfl
  rw [hsorted]
  exact Data.mapM_map fun _ _ => rfl

/-- The entries that an entry is written as, in the order of their keys. -/
theorem sorted_entry (e : Entry) : e.toData.sorted = .table
    (optionalField "attributes" (fun m => (Data.table (m.map fun a => (a.1, .text a.2))).sorted)
        (if e.attributes.isEmpty then none else some e.attributes)
      ++ (optionalField "password" .text e.password
      ++ (("priority", .integer e.priority.toNat)
      :: (optionalField "timeout_ms" (fun ms => .integer ms.toNat) e.timeoutMs
      ++ (("uri", .text e.uri)
      :: (optionalField "username" .text e.username ++ [])))))) := by
  obtain ⟨uri, username, password, priority, timeout, attributes⟩ := e
  cases username <;> cases password <;> cases timeout <;> cases attributes <;>
    simp only [Entry.toData, optionalField, Data.sorted, Data.sortedTable, Data.insertSorted,
      String.reduceLT, String.reduceEq, if_true, if_false, List.isEmpty_nil, List.isEmpty_cons,
      List.nil_append, List.cons_append, List.append_nil, Bool.false_eq_true]

theorem set_attributes {d : Data} {m : Attributes} (hd : Data.tableOf Data.string d = .ok m)
    (hm : Data.Ascending m) : entryShape.set "attributes" d (none, { uri := "" }) =
      .ok (none, { uri := "", attributes := m }) := by
  simp only [entryShape, hd, Except.map, ofPairs_of_ascending hm]

theorem set_priority {d : Data} {n : UInt32} (hd : d.uint32 = .ok n) (uri : Option String) (e : Entry) :
    entryShape.set "priority" d (uri, e) = .ok (uri, { e with priority := n }) := by
  simp only [entryShape, hd, Except.map]

theorem optional_integer {α : Type} {f : Data.Read α} {n : Int} {a : α}
    (h : f (.integer n) = .ok a) : Data.optional f (.integer n) = .ok (some a) := by
  simp only [Data.optional, h, Except.map]

theorem set_timeout {d : Data} {n : UInt32} (hd : Data.optional Data.uint32 d = .ok (some n))
    (uri : Option String) (e : Entry) :
    entryShape.set "timeout_ms" d (uri, e) = .ok (uri, { e with timeoutMs := some n }) := by
  simp only [entryShape, hd, Except.map]

theorem read_entry {e : Entry} (h : e.Orderly) : readEntry dialect e.toData.sorted = .ok e := by
  have hattributes (rest : List (String × Data)) :
      Data.setFields entryShape (optionalField "attributes"
          (fun m => (Data.table (m.map fun a => (a.1, .text a.2))).sorted)
          (if e.attributes.isEmpty then none else some e.attributes) ++ rest) (none, { uri := "" }) =
        Data.setFields entryShape rest (none, { uri := "", attributes := e.attributes }) := by
    cases hnil : e.attributes with
    | nil => rfl
    | cons a more =>
      have hascending : Data.Ascending (a :: more) := hnil ▸ h
      exact setFields_known rfl (set_attributes (read_attributes hascending) hascending) rest
  have hpassword (rest : List (String × Data)) :
      Data.setFields entryShape (optionalField "password" .text e.password ++ rest)
          (none, { uri := "", attributes := e.attributes }) =
        Data.setFields entryShape rest
          (none, { e with uri := "", username := none, priority := 0, timeoutMs := none }) :=
    setFields_optional rfl
      (fun o => (none, ({ uri := "", password := o, attributes := e.attributes } : Entry)))
      (fun _ _ => rfl) rest
  have hpriority (rest : List (String × Data)) :
      Data.setFields entryShape (("priority", .integer e.priority.toNat) :: rest)
          (none, { e with uri := "", username := none, priority := 0, timeoutMs := none }) =
        Data.setFields entryShape rest
          (none, { e with uri := "", username := none, timeoutMs := none }) :=
    setFields_known rfl (set_priority (uint32_toNat e.priority) _ _) rest
  have htimeout (rest : List (String × Data)) :
      Data.setFields entryShape
          (optionalField "timeout_ms" (fun ms => .integer ms.toNat) e.timeoutMs ++ rest)
          (none, { e with uri := "", username := none, timeoutMs := none }) =
        Data.setFields entryShape rest (none, { e with uri := "", username := none }) :=
    setFields_optional rfl (fun o => (none, { e with uri := "", username := none, timeoutMs := o }))
      (fun n _ => set_timeout (optional_integer (uint32_toNat n)) _ _) rest
  have huri (rest : List (String × Data)) :
      Data.setFields entryShape (("uri", .text e.uri) :: rest)
          (none, { e with uri := "", username := none }) =
        Data.setFields entryShape rest (some e.uri, { e with uri := "", username := none }) :=
    setFields_known rfl rfl rest
  have husername (rest : List (String × Data)) :
      Data.setFields entryShape (optionalField "username" .text e.username ++ rest)
          (some e.uri, { e with uri := "", username := none }) =
        Data.setFields entryShape rest (some e.uri, { e with uri := "" }) :=
    setFields_optional rfl (fun o => (some e.uri, { e with uri := "", username := o }))
      (fun _ _ => rfl) rest
  have hread : Data.record dialect entryShape (none, { uri := "" }) e.toData.sorted =
      .ok (some e.uri, { e with uri := "" }) := by
    rw [sorted_entry]
    exact (hattributes _).trans ((hpassword _).trans ((hpriority _).trans ((htimeout _).trans
      ((huri _).trans (husername [])))))
  rw [readEntry, hread]

/-- What a configuration is written as, in the order of keys. -/
theorem sorted_toData (c : Config) : c.toData.sorted = .table
    [("auto_switch", .bool c.autoSwitch),
      ("connections", .list (c.connections.map fun e => e.toData.sorted)),
      ("polling", c.polling.toData.sorted), ("timeout_ms", .integer c.timeoutMs.toNat)] := by
  simp only [toData, Data.sorted, Data.sortedTable, Data.insertSorted, sortedList_eq_map,
    List.map_map, Function.comp_def, String.reduceLT, String.reduceEq, if_true, if_false]

theorem read_toData {c : Config} (h : ∀ e ∈ c.connections, e.Orderly) :
    Data.record dialect (shape dialect) {} c.toData.sorted = .ok c := by
  have hswitch (c' : Config) : (shape dialect).set "auto_switch" (.bool c.autoSwitch) c' =
      .ok { c' with autoSwitch := c.autoSwitch } := rfl
  have hconnections (c' : Config) : (shape dialect).set "connections"
      (.list (c.connections.map fun e => e.toData.sorted)) c' =
      .ok { c' with connections := c.connections } := by
    have hread : Data.listOf (readEntry dialect)
        (.list (c.connections.map fun e => e.toData.sorted)) = .ok c.connections :=
      Data.mapM_map fun e he => read_entry (h e he)
    simp only [shape, hread, Except.map]
  have hpolling (c' : Config) : (shape dialect).set "polling" c.polling.toData.sorted c' =
      .ok { c' with polling := c.polling } := by
    simp only [shape, read_polling, Except.map]
  have htimeout (d : Data) (hd : d.uint32 = .ok c.timeoutMs) (c' : Config) :
      (shape dialect).set "timeout_ms" d c' = .ok { c' with timeoutMs := c.timeoutMs } := by
    simp only [shape, hd, Except.map]
  rw [sorted_toData]
  exact (setFields_known rfl (hswitch _) _).trans ((setFields_known rfl (hconnections _) _).trans
    ((setFields_known rfl (hpolling _) _).trans
      ((setFields_known rfl (htimeout _ (uint32_toNat _) _) _).trans rfl)))

/-! ## Saving and loading -/

/-- Two entries that differ in nothing but the order of their attributes. -/
structure Entry.Reordered (e e' : Entry) : Prop where
  fields : e' = { e with attributes := e'.attributes }
  attributes : e'.attributes.Perm e.attributes

/-- Two configurations that differ in nothing but the order of the attributes of their entries. -/
structure Reordered (c c' : Config) : Prop where
  settings : c' = { c with connections := c'.connections }
  entries : List.Forall₂ Entry.Reordered c.connections c'.connections

theorem Entry.Reordered.refl (e : Entry) : e.Reordered e := ⟨rfl, .refl _⟩

theorem Reordered.refl (c : Config) : c.Reordered c :=
  ⟨rfl, List.forall₂_same.mpr fun _ _ => .refl _⟩

theorem Entry.Reordered.nodup {e e' : Entry} (h : e.Reordered e') (he : e.Orderly) :
    (e'.attributes.map (·.1)).Nodup :=
  (h.attributes.map _).nodup_iff.mpr (Data.nodup_keys he)

/-- The order of attributes is lost in sorted data. -/
theorem Entry.Reordered.sorted_eq {e e' : Entry} (h : e.Reordered e') (he : e.Orderly) :
    e'.toData.sorted = e.toData.sorted := by
  have htable : (Data.table (e'.attributes.map fun a => (a.1, .text a.2))).sorted =
      (Data.table (e.attributes.map fun a => (a.1, .text a.2))).sorted := by
    refine sorted_eq_of_perm ((h.attributes.map _).map _) ?_
    simpa [Function.comp_def] using Data.nodup_keys he
  have hlist : optionalField "attributes"
      (fun m => (Data.table (m.map fun a => (a.1, .text a.2))).sorted)
      (if e'.attributes.isEmpty then none else some e'.attributes) =
      optionalField "attributes"
      (fun m => (Data.table (m.map fun a => (a.1, .text a.2))).sorted)
      (if e.attributes.isEmpty then none else some e.attributes) := by
    rw [h.attributes.isEmpty_eq]
    cases e.attributes.isEmpty with
    | true => rfl
    | false => simp [optionalField, htable]
  rw [sorted_entry, sorted_entry, hlist, h.fields]

theorem Reordered.sorted_eq {c c' : Config} (h : c.Reordered c')
    (horderly : ∀ e ∈ c.connections, e.Orderly) : c'.toData.sorted = c.toData.sorted := by
  have hentries {l l' : List Entry} (h : List.Forall₂ Entry.Reordered l l')
      (horderly : ∀ e ∈ l, e.Orderly) :
      l'.map (fun e => e.toData.sorted) = l.map fun e => e.toData.sorted := by
    induction h with
    | nil => rfl
    | cons hfirst _ ih =>
      have hrest := ih fun e he => horderly e (List.mem_cons_of_mem _ he)
      rw [List.map_cons, List.map_cons, hfirst.sorted_eq (horderly _ List.mem_cons_self), hrest]
  rw [sorted_toData, sorted_toData, hentries h.entries horderly, h.settings]

theorem Reordered.nodup {c c' : Config} (h : c.Reordered c')
    (horderly : ∀ e ∈ c.connections, e.Orderly) :
    ∀ e ∈ c'.connections, (e.attributes.map (·.1)).Nodup := by
  have hentries {l l' : List Entry} (h : List.Forall₂ Entry.Reordered l l')
      (horderly : ∀ e ∈ l, e.Orderly) : ∀ e ∈ l', (e.attributes.map (·.1)).Nodup := by
    induction h with
    | nil => exact fun _ he => absurd he List.not_mem_nil
    | cons hfirst _ ih =>
      intro e he
      rcases List.mem_cons.mp he with rfl | he
      · exact hfirst.nodup (horderly _ List.mem_cons_self)
      · exact ih (fun e he => horderly e (List.mem_cons_of_mem _ he)) e he
  exact hentries h.entries horderly

/-- A configuration with its attributes in order is what its text says, in whatever order they are
written. -/
theorem ofToml_toToml {c c' : Config} (horderly : ∀ e ∈ c.connections, e.Orderly)
    (h : c.Reordered c') : ofToml c'.toToml = .ok c := by
  obtain ⟨entries, hdata, hwritable, hplain⟩ := writable_config 62 c' (h.nodup horderly)
  obtain ⟨d, hparse, hsorted⟩ := parse?_print hwritable hplain
  have hread : read dialect d = .ok c := by
    rw [read, hsorted, ← hdata, h.sorted_eq horderly, read_toData horderly]
  simp only [ofToml, toToml, hdata, hparse, hread]

theorem orderly_of_ofToml {text : String} {c : Config} (h : ofToml text = .ok c) :
    ∀ e ∈ c.connections, e.Orderly := by
  unfold ofToml at h
  split at h
  · cases h
  · split at h
    · cases h
    · next hread =>
      cases h
      exact orderly_read hread

/-- What was loaded can be saved and loaded again, in whatever order its attributes are written. -/
theorem ofToml_toToml_of_loaded {text : String} {c : Config} (h : ofToml text = .ok c) :
    ofToml c.toToml = .ok c ∧ ∀ c', c.Reordered c' → ofToml c'.toToml = .ok c :=
  ⟨ofToml_toToml (orderly_of_ofToml h) (.refl c), fun _ => ofToml_toToml (orderly_of_ofToml h)⟩

/-- A text with settings of every kind, some of them missing or at the limit of their range. -/
def handwritten : String :=
  "timeout_ms = 0\n[polling]\nperiod_ms = 18446744073709551615\nexcluded = ['a', 'b']\n" ++
  "[[connections]]\nuri = ''\npassword = \"\\u00e9\"\n[connections.attributes]\nb = 'x'\na = ''\n"

def handwrittenConfig : Config where
  timeoutMs := 0
  polling := { periodMs := 18446744073709551615, excluded := ["a", "b"] }
  connections := [{ uri := "", password := some "é", attributes := [("a", ""), ("b", "x")] }]

theorem handwritten_comes_back :
    ofToml handwritten = .ok handwrittenConfig ∧
      ofToml handwrittenConfig.toToml = .ok handwrittenConfig ∧
      ∀ c', handwrittenConfig.Reordered c' → ofToml c'.toToml = .ok handwrittenConfig := by
  have hload : ofToml handwritten = .ok handwrittenConfig := by decide +kernel
  exact ⟨hload, ofToml_toToml_of_loaded hload⟩

end Config

end RpcPool

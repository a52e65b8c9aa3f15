import RpcPool.Proofs.Health
import RpcPool.Proofs.Typed
import RpcPool.Snapshot

/-!
# Snapshots and back

A snapshot is read from its JSON text as it was, whatever its texts, numbers and attributes are and
whichever of its fields are absent. A reader does not mind how an absent field is spelled: it may be
left out, or written as null.

Results:
1. `sets_members`: the members of a snapshot, in any spelling, set its fields.
2. `decode_spelling`: a snapshot in any spelling is read back.
3. `snapshot_roundtrip`: the snapshot of a connection after any probes is read back.
-/

namespace RpcPool

namespace Snapshot

open Json (Reads Sets)

/-! ## Spellings -/

/-- A member that is null or left out when the value is absent. -/
def spelledMember {α : Type} (spelt : String → Bool) (name : String) (f : α → Json) :
    Option α → List (String × Json)
  | none => if spelt name then [(name, .null)] else []
  | some a => [(name, f a)]

/-- The members of a snapshot. An absent field is null if it is to be spelled out, and else left out;
so are the attributes if there are none, which are spelled out as an empty object. -/
def members (spelt : String → Bool) (s : Snapshot) : List (String × Json) :=
  [("uri", .string s.uri)]
  ++ spelledMember spelt "username" .string s.username
  ++ [("priority", .natural s.priority.toUInt64)]
  ++ spelledMember spelt "timeout_ms" (fun ms => .natural ms.toUInt64) s.timeoutMs
  ++ spelledMember spelt "is_online" .bool s.isOnline
  ++ spelledMember spelt "is_authenticated" .bool s.isAuthenticated
  ++ [("is_connected", .bool s.isConnected)]
  ++ spelledMember spelt "last_response_time" .natural s.lastResponseTime
  ++ (if s.attributes.isEmpty && !spelt "attributes" then []
      else [("attributes", .object (Json.stringsOf s.attributes))])

/-- The fields that are spelled out in the stored form. -/
def stored (name : String) : Bool :=
  ["is_online", "is_authenticated", "last_response_time"].contains name

theorem toJson_eq (s : Snapshot) : s.toJson = .object (s.members stored) := by
  have hnull {α : Type} {name : String} (h : stored name = true) (f : α → Json) (o : Option α) :
      spelledMember stored name f o = [(name, nullable f o)] := by
    cases o with
    | none => exact if_pos h
    | some a => rfl
  have habsent {α : Type} {name : String} (h : stored name = false) (f : α → Json) (o : Option α) :
      spelledMember stored name f o = optionalMember name f o := by
    cases o with
    | none => simp [spelledMember, optionalMember, h]
    | some a => rfl
  have hattributes : stored "attributes" = false := by decide
  unfold toJson members
  rw [habsent (by decide), habsent (by decide), hnull (by decide), hnull (by decide),
    hnull (by decide), hattributes]
  simp [Json.stringsOf]

/-! ## Names -/

theorem names_spelledMember {α : Type} (spelt : String → Bool) (name : String) (f : α → Json)
    (o : Option α) : ((spelledMember spelt name f o).map (·.1)).Sublist [name] := by
  cases o with
  | none =>
    show ((if spelt name then [(name, Json.null)] else []).map (·.1)).Sublist [name]
    split
    · exact List.Sublist.refl _
    · exact List.nil_sublist _
  | some a => exact List.Sublist.refl _

/-- The members stand in the order of the fields. -/
theorem names_members (spelt : String → Bool) (s : Snapshot) :
    ((s.members spelt).map (·.1)).Sublist (reader.fields.map (·.1)) := by
  have hattributes : ((if s.attributes.isEmpty && !spelt "attributes" then []
      else [("attributes", Json.object (Json.stringsOf s.attributes))]).map (·.1)).Sublist
        ["attributes"] := by
    split
    · exact List.nil_sublist _
    · exact List.Sublist.refl _
  unfold members
  simp only [List.map_append]
  have huri : ([("uri", Json.string s.uri)].map (·.1)).Sublist ["uri"] := List.Sublist.refl _
  have hpriority : ([("priority", Json.natural s.priority.toUInt64)].map (·.1)).Sublist
      ["priority"] := List.Sublist.refl _
  have hconnected : ([("is_connected", Json.bool s.isConnected)].map (·.1)).Sublist
      ["is_connected"] := List.Sublist.refl _
  exact (((((((huri.append (names_spelledMember ..)).append hpriority).append
    (names_spelledMember ..)).append (names_spelledMember ..)).append
    (names_spelledMember ..)).append hconnected).append (names_spelledMember ..)).append hattributes

theorem finish_members (spelt : String → Bool) (s t : Snapshot) :
    reader.finish ((s.members spelt).map (·.1)).reverse t = .ok t := by
  have hrequired : (["uri", "priority", "is_connected"].find? fun name =>
      !((s.members spelt).map (·.1)).reverse.contains name) = none := by
    simp [members]
  simp only [reader, hrequired]

/-! ## Fields -/

/-- A field that may be absent: reading null for it and passing it over come to the same. -/
theorem sets_spelledMember {α : Type} {read : Json.Typed α} {f : α → Json} {name : String}
    {acc : Snapshot} (put : Option α → Snapshot)
    (hset : reader.set name acc = fun c =>
      (Json.typedOption read c).map fun x => (put x.1, x.2))
    (hread : ∀ a, Reads read (f a) a) (hpresent : ∀ a, Json.Present (f a)) (hacc : put none = acc)
    (spelt : String → Bool) (o : Option α) :
    Sets reader (spelledMember spelt name f o) acc (put o) := by
  cases o with
  | none =>
    show Sets reader (if spelt name then [(name, Json.null)] else []) acc (put none)
    split
    · exact .field put hset (Json.reads_null read)
    · rw [hacc]
      exact .nil
  | some a => exact .field put hset ((hread a).option (hpresent a))

/-- The members of a snapshot, in any spelling, set its fields. -/
theorem sets_members (spelt : String → Bool) {s : Snapshot}
    (hkeys : (s.attributes.map (·.1)).Nodup) : Sets reader (s.members spelt) blank s := by
  let s₁ : Snapshot := { blank with uri := s.uri }
  let s₂ : Snapshot := { s₁ with username := s.username }
  let s₃ : Snapshot := { s₂ with priority := s.priority }
  let s₄ : Snapshot := { s₃ with timeoutMs := s.timeoutMs }
  let s₅ : Snapshot := { s₄ with isOnline := s.isOnline }
  let s₆ : Snapshot := { s₅ with isAuthenticated := s.isAuthenticated }
  let s₇ : Snapshot := { s₆ with isConnected := s.isConnected }
  let s₈ : Snapshot := { s₇ with lastResponseTime := s.lastResponseTime }
  have huri : Sets reader [("uri", .string s.uri)] blank s₁ :=
    .field (fun uri => { blank with uri }) rfl (Json.reads_string s.uri)
  have husername : Sets reader (spelledMember spelt "username" .string s.username) s₁ s₂ :=
    sets_spelledMember (fun username => { s₁ with username }) rfl Json.reads_string
      Json.present_string rfl spelt s.username
  have hpriority : Sets reader [("priority", .natural s.priority.toUInt64)] s₂ s₃ :=
    .field (fun priority => { s₂ with priority }) rfl (Json.reads_uint32 s.priority)
  have htimeout : Sets reader
      (spelledMember spelt "timeout_ms" (fun ms => .natural ms.toUInt64) s.timeoutMs) s₃ s₄ :=
    sets_spelledMember (fun timeoutMs => { s₃ with timeoutMs }) rfl Json.reads_uint32
      (fun ms => Json.present_natural ms.toUInt64) rfl spelt s.timeoutMs
  have honline : Sets reader (spelledMember spelt "is_online" .bool s.isOnline) s₄ s₅ :=
    sets_spelledMember (fun isOnline => { s₄ with isOnline }) rfl Json.reads_bool
      Json.present_bool rfl spelt s.isOnline
  have hauthenticated : Sets reader
      (spelledMember spelt "is_authenticated" .bool s.isAuthenticated) s₅ s₆ :=
    sets_spelledMember (fun isAuthenticated => { s₅ with isAuthenticated }) rfl Json.reads_bool
      Json.present_bool rfl spelt s.isAuthenticated
  have hconnected : Sets reader [("is_connected", .bool s.isConnected)] s₆ s₇ :=
    .field (fun isConnected => { s₆ with isConnected }) rfl (Json.reads_bool s.isConnected)
  have htime : Sets reader
      (spelledMember spelt "last_response_time" .natural s.lastResponseTime) s₇ s₈ :=
    sets_spelledMember (fun lastResponseTime => { s₇ with lastResponseTime }) rfl Json.reads_uint64
      Json.present_natural rfl spelt s.lastResponseTime
  have hattributes : Sets reader (if s.attributes.isEmpty && !spelt "attributes" then []
      else [("attributes", .object (Json.stringsOf s.attributes))]) s₈ s := by
    split
    · next hempty =>
      have hs : s₈ = s := by
        have hnone : s.attributes = [] := by
          simp only [Bool.and_eq_true, List.isEmpty_iff] at hempty
          exact hempty.1
        show { s with attributes := [] } = s
        rw [← hnone]
      rw [hs]
      exact .nil
    · have hfield : Sets reader [("attributes", .object (Json.stringsOf s.attributes))] s₈
          { s with attributes := Attributes.ofPairs s.attributes } :=
        .field (fun pairs => { s with attributes := Attributes.ofPairs pairs }) rfl
          (Json.reads_map s.attributes)
      rw [Attributes.ofPairs_of_nodup hkeys] at hfield
      exact hfield
  exact (((((((huri.append husername).append hpriority).append htimeout).append honline).append
    hauthenticated).append hconnected).append htime).append hattributes

/-! ## Whole snapshots -/

/-- A snapshot in any spelling is read back. -/
theorem decode_spelling (spelt : String → Bool) {s : Snapshot}
    (hkeys : (s.attributes.map (·.1)).Nodup) :
    decode (Json.object (s.members spelt)).render = .ok s := by
  have hknown : ∀ name ∈ reader.fields.map (·.1), (reader.fields.lookup name).isSome = true := by
    decide
  have hnames := names_members spelt s
  refine (Json.reads_record (sets_members spelt hkeys) (fun m hm => ?_) ?_ ?_).text
  · exact hknown m.1 (hnames.subset (List.mem_map_of_mem hm))
  · exact hnames.nodup (by decide)
  · exact finish_members spelt s s

/-- The snapshot of a connection comes back from its JSON text, whatever the texts and numbers in it
are, whatever probes have shown and in whatever order the attributes, which are a map, are written.
It does so in each spelling of the fields that are absent. -/
theorem snapshot_roundtrip {e : Endpoint} (hkeys : (e.attributes.map (·.1)).Nodup)
    (outcomes : List Probe.Outcome) {order : Attributes} (horder : order.Perm e.attributes) :
    let s : Snapshot :=
      { Snapshot.of e (outcomes.foldl Health.observe .unprobed) with attributes := order }
    decode s.encode = .ok s ∧
      ∀ spelt : String → Bool, decode (Json.object (s.members spelt)).render = .ok s := by
  intro s
  have hdistinct : (s.attributes.map (·.1)).Nodup := (horder.map _).nodup_iff.mpr hkeys
  refine ⟨?_, fun spelt => decode_spelling spelt hdistinct⟩
  unfold encode
  rw [toJson_eq]
  exact decode_spelling stored hdistinct

/-- A rejected connection whose texts have to be escaped, with the largest numbers. -/
def rejected : Endpoint where
  uri := "http://[::1]:8332/\\\"\x01ä𝄞"
  credentials := some ⟨"\n", "secret"⟩
  priority := 4294967295
  attributes := Attributes.ofPairs [("b", "1"), ("", "\x7f"), ("b", "2")]

theorem rejected_roundtrip :
    let s := Snapshot.of rejected (Health.unprobed.observe (.ok ⟨false, ⟨0, 0⟩⟩))
    s.attributes = [("b", "2"), ("", "\x7f")] ∧ s.isAuthenticated = some false ∧
      decode s.encode = .ok s := by
  intro s
  have hkeys : (rejected.attributes.map (·.1)).Nodup := Attributes.nodup_ofPairs _
  obtain ⟨hback, _⟩ := snapshot_roundtrip hkeys [.ok ⟨false, ⟨0, 0⟩⟩] (List.Perm.refl _)
  exact ⟨by decide +kernel, by decide +kernel, hback⟩

end Snapshot

end RpcPool

import RpcPool.Proofs.Registry

/-!
# A registry is an ordered map

What a registry does can be said without lists of instances and comparisons of instances: it is a
map from URIs to instances that remembers the order in which its keys came, and at most one of its
keys is current. `Directory` is that map, with the operations of a registry said anew in its terms.
Both carry out the same actions, and nothing that can be asked tells them apart.

Instances are compared by number in a registry and as they are in a directory. The two agree as long
as a number stands for one instance, whatever endpoint another instance has.

Results:
1. `tracks_act`: an action leads a registry and a directory that go together to ones that go
   together, and both give the same answer.
2. `acts_mirror`: so do all sequences of actions, and after each of them every lookup gives the
   same.
-/

namespace RpcPool

/-- What can be done to a registry. Where an action may have to make an instance, `fresh` is the
number set aside for it. -/
inductive Action
  | add (c : Connection)
  | addUri (uri : String) (fresh : InstanceId)
  | remove (uri : String)
  /-- Makes a connection current, or none. -/
  | select (target : Option Connection)
  | selectUri (uri : String) (fresh : InstanceId)
  /-- An automatic change. -/
  | switchTo (c : Connection)
  | clear
  | reset
  | setAutoSwitch (on : Bool)
  | setTimeout (ms : UInt32)
  deriving DecidableEq, Repr

/-- What an action gives back. -/
inductive Answer
  | registered (c : Connection)
  | change (c : Change)
  | refused (e : PoolError)
  | done
  deriving DecidableEq, Repr

namespace Action

/-- The instances that an action names or may make. -/
def instances : Action → List Connection
  | add c => [c]
  | addUri uri fresh => [⟨fresh, { uri }⟩]
  | select target => target.toList
  | selectUri uri fresh => [⟨fresh, { uri }⟩]
  | switchTo c => [c]
  | remove _ | clear | reset | setAutoSwitch _ | setTimeout _ => []

/-- Every instance is the one made from the endpoint that its number stands for. -/
def Genuine (made : InstanceId → Endpoint) (a : Action) : Prop :=
  ∀ c ∈ a.instances, c.endpoint = made c.id

instance (made : InstanceId → Endpoint) (a : Action) : Decidable (a.Genuine made) :=
  inferInstanceAs (Decidable (∀ c ∈ a.instances, c.endpoint = made c.id))

end Action

/-- Carries out actions one after the other and collects the answers. -/
def acts {σ : Type} (act : σ → Action → σ × Answer) (s : σ) : List Action → σ × List Answer
  | [] => (s, [])
  | a :: rest =>
    let (t, answer) := act s a
    let (u, answers) := acts act t rest
    (u, answer :: answers)

namespace Registry

/-- Registers an instance. -/
def register (r : Registry) (c : Connection) : Registry × Answer :=
  match r.add c with
  | .error e => (r, .refused e)
  | .ok r => (r, .registered c)

/-- Takes over a change, or reports why there was none. -/
def settle (r : Registry) : Except PoolError (Registry × Change) → Registry × Answer
  | .error e => (r, .refused e)
  | .ok (r, change) => (r, .change change)

def act (r : Registry) : Action → Registry × Answer
  | .add c => r.register c
  | .addUri uri fresh => r.register ⟨fresh, { uri }⟩
  | .remove uri => r.settle (r.remove uri)
  | .select none => (r.disconnect.1, .change r.disconnect.2)
  | .select (some c) => r.settle (r.select c)
  | .selectUri uri fresh => r.settle (r.selectUri uri fresh)
  | .switchTo c => ((r.switchTo c).1, .change (r.switchTo c).2)
  | .clear => (r.clear.1, .change r.clear.2)
  | .reset => (r.reset.1, .change r.reset.2)
  | .setAutoSwitch on => ({ r with autoSwitch := on }, .done)
  | .setTimeout ms => ({ r with timeoutMs := ms }, .done)

end Registry

/-! ## The ordered map -/

/-- A map from URI to instance that remembers insertion order, and a URI that is current. -/
structure Directory where
  entries : List (String × Connection)
  current : Option String
  autoSwitch : Bool
  timeoutMs : UInt32
  deriving DecidableEq, Repr

namespace Directory

def empty : Directory := ⟨[], none, true, 5000⟩

def lookup (d : Directory) (uri : String) : Option Connection := d.entries.lookup uri

/-- Maps a new URI, behind all others. -/
def append (d : Directory) (c : Connection) : Directory :=
  { d with entries := d.entries ++ [(c.uri, c)] }

/-- Maps a known URI to another instance, in the same place. -/
def replace (d : Directory) (c : Connection) : Directory :=
  { d with entries := d.entries.map fun e => if e.1 = c.uri then (e.1, c) else e }

/-- Deletes a key; the others keep their order. -/
def delete (d : Directory) (uri : String) : Directory :=
  { d with entries := d.entries.filter fun e => e.1 ≠ uri }

/-- Makes a URI current, or none. -/
def point (d : Directory) (uri : Option String) : Directory × Answer :=
  ({ d with current := uri },
    .change (if d.current = uri then .unchanged else .changed (uri.bind d.lookup)))

def register (d : Directory) (c : Connection) : Directory × Answer :=
  if c.uri = "" then (d, .refused .missingUri)
  else if (d.lookup c.uri).isSome then (d, .refused (.duplicateEndpoint c.uri))
  else (d.append c, .registered c)

def remove (d : Directory) (uri : String) : Directory × Answer :=
  if (d.lookup uri).isNone then (d, .refused (.notFound uri))
  else if d.current = some uri then ({ d.delete uri with current := none }, .change (.changed none))
  else (d.delete uri, .change .unchanged)

/-- Makes an instance current: the one that its URI is mapped to as it stands, another one in its
place, and one of an unknown URI behind all others. -/
def select (d : Directory) (c : Connection) : Directory × Answer :=
  if c.uri = "" then (d, .refused .missingUri)
  else if d.lookup c.uri = some c then d.point (some c.uri)
  else
    let placed := if (d.lookup c.uri).isSome then d.replace c else d.append c
    ({ placed with current := some c.uri }, .change (.changed (some c)))

/-- Makes a URI current, which is mapped to a new instance if it is unknown. -/
def selectUri (d : Directory) (uri : String) (fresh : InstanceId) : Directory × Answer :=
  if uri = "" then (d, .refused .missingUri)
  else if (d.lookup uri).isSome then d.point (some uri)
  else
    let c : Connection := ⟨fresh, { uri }⟩
    ({ d.append c with current := some uri }, .change (.changed (some c)))

/-- Makes an instance current only if its URI is mapped to that very instance. -/
def switchTo (d : Directory) (c : Connection) : Directory × Answer :=
  if d.lookup c.uri = some c then d.point (some c.uri) else (d, .change .unchanged)

def clear (d : Directory) : Directory × Answer :=
  ({ d with entries := [], current := none },
    .change (if d.current.isSome then .changed none else .unchanged))

def act (d : Directory) : Action → Directory × Answer
  | .add c => d.register c
  | .addUri uri fresh => d.register ⟨fresh, { uri }⟩
  | .remove uri => d.remove uri
  | .select none => d.point none
  | .select (some c) => d.select c
  | .selectUri uri fresh => d.selectUri uri fresh
  | .switchTo c => d.switchTo c
  | .clear => d.clear
  | .reset => { d with autoSwitch := true, timeoutMs := 5000 }.clear
  | .setAutoSwitch on => ({ d with autoSwitch := on }, .done)
  | .setTimeout ms => ({ d with timeoutMs := ms }, .done)

end Directory

/-! ## Going together -/

namespace Registry

variable {made : InstanceId → Endpoint} {r : Registry} {d : Directory} {c : Connection}
  {cs : List Connection} {uri : String}

/-- Whatever is asked of a registry, the directory says the same; and the directory is a map. -/
structure Mirrors (made : InstanceId → Endpoint) (r : Registry) (d : Directory) : Prop where
  list : r.connections = d.entries.map (·.2)
  length : r.connections.length = d.entries.length
  get : ∀ uri, r.get? uri = d.lookup uri
  has : ∀ uri, r.has uri = (d.lookup uri).isSome
  current : r.current = d.current.bind d.lookup
  currentUri : r.current.map (·.uri) = d.current
  isCurrent : ∀ c : Connection, c.endpoint = made c.id →
    (r.isCurrent c = true ↔ d.current = some c.uri ∧ d.lookup c.uri = some c)
  contains : ∀ c : Connection, c.endpoint = made c.id →
    (r.contains c = true ↔ d.lookup c.uri = some c)
  autoSwitch : r.autoSwitch = d.autoSwitch
  timeoutMs : r.timeoutMs = d.timeoutMs
  keys : (d.entries.map (·.1)).Nodup
  keyed : ∀ e ∈ d.entries, e.1 = e.2.uri

/-- The entries of a directory are the connections of the registry under their URIs, and the current
URI is that of the current connection, which is registered. -/
structure Tracks (made : InstanceId → Endpoint) (r : Registry) (d : Directory) : Prop where
  entries : d.entries = r.connections.map fun c => (c.uri, c)
  current : d.current = r.current.map (·.uri)
  autoSwitch : r.autoSwitch = d.autoSwitch
  timeoutMs : r.timeoutMs = d.timeoutMs
  distinct : (r.connections.map (·.uri)).Nodup
  named : ∀ c ∈ r.connections, c.uri ≠ ""
  current_mem : ∀ c, r.current = some c → c ∈ r.connections
  genuine : ∀ c ∈ r.connections, c.endpoint = made c.id

/-! ### Lists under their keys -/

theorem lookup_keyed (cs : List Connection) (uri : String) :
    (cs.map fun c => (c.uri, c)).lookup uri = cs.find? fun c => c.uri == uri := by
  induction cs with
  | nil => rfl
  | cons c rest ih =>
    by_cases h : c.uri = uri
    · simp [h]
    · have h' : (uri == c.uri) = false := by simpa using Ne.symm h
      simp [List.lookup_cons, h, h', ih]

theorem uri_ne_of_nodup {k x : Connection} (nd : ((k :: cs).map (·.uri)).Nodup) (hx : x ∈ cs) :
    x.uri ≠ k.uri := by
  intro uris
  exact (List.nodup_cons.mp nd).1 (List.mem_map.mpr ⟨x, hx, uris⟩)

/-- An instance of a URI that no other has is placed at the end. -/
theorem place_of_unknown (h : c.uri ∉ cs.map (·.uri)) : place c cs = cs ++ [c] := by
  induction cs with
  | nil => rfl
  | cons k rest ih =>
    simp only [List.map_cons, List.mem_cons, not_or] at h
    rw [place, if_neg (Ne.symm h.1), ih h.2, List.cons_append]

/-- An instance of a known URI takes the place of the one that had it. -/
theorem place_of_known (nd : (cs.map (·.uri)).Nodup) (h : c.uri ∈ cs.map (·.uri)) :
    place c cs = cs.map fun k => if k.uri = c.uri then c else k := by
  induction cs with
  | nil => simp at h
  | cons k rest ih =>
    by_cases hu : k.uri = c.uri
    · -- no other connection has this URI, so that the rest of the map changes nothing
      have others : (rest.map fun k => if k.uri = c.uri then c else k) = rest :=
        (List.map_congr_left fun x hx => if_neg (hu ▸ uri_ne_of_nodup nd hx)).trans
          (List.map_id rest)
      rw [place, if_pos hu, List.map_cons, if_pos hu, others]
    · have later : c.uri ∈ rest.map (·.uri) :=
        (List.mem_cons.mp h).resolve_left fun hck => hu hck.symm
      rw [place, if_neg hu, ih (List.nodup_cons.mp nd).2 later, List.map_cons, if_neg hu]

/-- A registered instance is already in its place. -/
theorem place_of_mem (nd : (cs.map (·.uri)).Nodup) (h : c ∈ cs) : place c cs = cs := by
  rw [place_of_known nd (List.mem_map_of_mem h)]
  refine (List.map_congr_left fun k hk => ?_).trans (List.map_id cs)
  split
  · next hu => exact List.inj_on_of_nodup_map nd h hk hu.symm
  · rfl

theorem eraseP_uri (nd : (cs.map (·.uri)).Nodup) (uri : String) :
    (cs.eraseP fun k => k.uri == uri) = cs.filter fun k => k.uri ≠ uri := by
  induction cs with
  | nil => rfl
  | cons k rest ih =>
    by_cases hu : k.uri = uri
    · have others : (rest.filter fun k => k.uri ≠ uri) = rest :=
        List.filter_eq_self.mpr fun x hx => decide_eq_true (hu ▸ uri_ne_of_nodup nd hx)
      rw [List.eraseP_cons_of_pos (by simpa using hu), List.filter_cons_of_neg (by simpa using hu),
        others]
    · rw [List.eraseP_cons_of_neg (by simpa using hu), List.filter_cons_of_pos (by simpa using hu),
        ih (List.nodup_cons.mp nd).2]

/-! ### What is asked -/

theorem Tracks.lookup (h : Tracks made r d) (uri : String) : d.lookup uri = r.get? uri := by
  rw [Directory.lookup, h.entries, lookup_keyed]
  rfl

theorem Tracks.lookup_none (h : Tracks made r d) :
    d.lookup uri = none ↔ uri ∉ r.connections.map (·.uri) := by
  rw [h.lookup, get?, List.find?_eq_none]
  simp

theorem Tracks.lookup_iff (h : Tracks made r d) :
    d.lookup c.uri = some c ↔ c ∈ r.connections := by
  rw [h.lookup]
  constructor
  · exact get?_mem
  · intro hc
    cases found : r.get? c.uri with
    | none => exact absurd (List.mem_map_of_mem hc) (h.lookup_none.mp (h.lookup c.uri ▸ found))
    | some k =>
      exact congrArg some
        (List.inj_on_of_nodup_map h.distinct (get?_mem found) hc (get?_uri found))

theorem Tracks.has (h : Tracks made r d) (uri : String) : r.has uri = (d.lookup uri).isSome := by
  rw [Bool.eq_iff_iff, has_iff, Option.isSome_iff_ne_none, ne_eq, h.lookup_none, not_not]

theorem Tracks.eq_of_id (h : Tracks made r d) {k : Connection} (hk : k ∈ r.connections)
    (hc : c.endpoint = made c.id) (id : k.id = c.id) : k = c := by
  have endpoints : k.endpoint = c.endpoint := by rw [h.genuine k hk, hc, id]
  cases k; cases c
  simp_all

theorem Tracks.contains (h : Tracks made r d) (hc : c.endpoint = made c.id) :
    r.contains c = true ↔ d.lookup c.uri = some c := by
  rw [contains_iff, h.lookup_iff]
  constructor
  · rintro ⟨k, hk, id⟩
    exact h.eq_of_id hk hc id ▸ hk
  · exact fun hin => ⟨c, hin, rfl⟩

theorem Tracks.isCurrent (h : Tracks made r d) (hc : c.endpoint = made c.id) :
    r.isCurrent c = true ↔ d.current = some c.uri ∧ d.lookup c.uri = some c := by
  rw [isCurrent_iff, h.lookup_iff, h.current, Option.map_eq_some_iff]
  constructor
  · rintro ⟨k, hk, id⟩
    have same : k = c := h.eq_of_id (h.current_mem k hk) hc id
    exact ⟨⟨k, hk, congrArg Connection.uri same⟩, same ▸ h.current_mem k hk⟩
  · rintro ⟨⟨k, hk, uris⟩, hin⟩
    have same : k = c := List.inj_on_of_nodup_map h.distinct (h.current_mem k hk) hin uris
    exact ⟨k, hk, by rw [same]⟩

theorem Tracks.current_eq (h : Tracks made r d) : r.current = d.current.bind d.lookup := by
  rw [h.current]
  cases cur : r.current with
  | none => rfl
  | some k => exact (h.lookup_iff.mpr (h.current_mem k cur)).symm

theorem Tracks.mirrors (h : Tracks made r d) : Mirrors made r d where
  list := by simp [h.entries, Function.comp_def]
  length := by simp [h.entries]
  get uri := (h.lookup uri).symm
  has := h.has
  current := h.current_eq
  currentUri := h.current.symm
  isCurrent _ := h.isCurrent
  contains _ := h.contains
  autoSwitch := h.autoSwitch
  timeoutMs := h.timeoutMs
  keys := by simpa [h.entries, Function.comp_def] using h.distinct
  keyed := by
    intro e he
    rw [h.entries] at he
    obtain ⟨c, -, rfl⟩ := List.mem_map.mp he
    rfl

/-! ### What is done -/

/-- Both sides of an action: the states still go together, and the answers are equal. -/
def Agree (made : InstanceId → Endpoint) (x : Registry × Answer) (y : Directory × Answer) : Prop :=
  Tracks made x.1 y.1 ∧ x.2 = y.2

theorem Tracks.register (h : Tracks made r d) (hc : c.endpoint = made c.id) :
    Agree made (r.register c) (d.register c) := by
  unfold Registry.register add Directory.register
  rw [h.has]
  by_cases blank : c.uri = ""
  · simp only [if_pos blank]
    exact ⟨h, rfl⟩
  · by_cases known : (d.lookup c.uri).isSome = true
    · simp only [if_neg blank, if_pos known]
      exact ⟨h, rfl⟩
    · simp only [if_neg blank, if_neg known]
      have unknown : c.uri ∉ r.connections.map (·.uri) := h.lookup_none.mp (by simpa using known)
      refine ⟨
        { h with entries := ?_, distinct := ?_, named := ?_, current_mem := ?_, genuine := ?_ },
        rfl⟩
      · simp [Directory.append, h.entries]
      · rw [← place_of_unknown unknown]
        exact nodup_place h.distinct
      · exact List.forall_mem_append.mpr ⟨h.named, by simpa using blank⟩
      · exact fun k hk => List.mem_append_left _ (h.current_mem k hk)
      · exact List.forall_mem_append.mpr ⟨h.genuine, by simpa using hc⟩

/-- Taking the current pointer away. -/
theorem Tracks.disconnect (h : Tracks made r d) :
    Tracks made r.disconnect.1 { d with current := none } :=
  { h with current := rfl, current_mem := fun _ hk => nomatch hk }

theorem Tracks.delete (h : Tracks made r d) (uri : String) (away : d.current ≠ some uri) :
    Tracks made { r with connections := r.connections.eraseP fun k => k.uri == uri }
      (d.delete uri) := by
  rw [eraseP_uri h.distinct]
  have kept : ∀ {c}, c ∈ r.connections.filter (fun k => k.uri ≠ uri) → c ∈ r.connections :=
    fun hk => (List.mem_filter.mp hk).1
  refine { h with
    entries := ?_
    distinct := (List.filter_sublist.map _).nodup h.distinct
    named := fun c hc => h.named c (kept hc)
    current_mem := fun c hc => List.mem_filter.mpr ⟨h.current_mem c hc, ?_⟩
    genuine := fun c hc => h.genuine c (kept hc) }
  · simp [Directory.delete, h.entries, List.filter_map, Function.comp_def]
  · rw [h.current, hc] at away
    simpa using away

theorem Tracks.remove (h : Tracks made r d) (uri : String) :
    Agree made (r.settle (r.remove uri)) (d.remove uri) := by
  unfold Registry.remove Directory.remove
  rw [h.lookup]
  cases found : r.get? uri with
  | none => exact ⟨h, rfl⟩
  | some c =>
    have hc : c ∈ r.connections := get?_mem found
    have current : r.isCurrent c = true ↔ d.current = some uri := by
      rw [h.isCurrent (h.genuine c hc), h.lookup_iff, get?_uri found]
      exact and_iff_left hc
    simp only [Option.isNone_some, Bool.false_eq_true, if_false]
    by_cases hcur : r.isCurrent c = true
    · obtain ⟨k, hk, -⟩ := isCurrent_iff.mp hcur
      rw [if_pos hcur, if_pos (current.mp hcur)]
      exact ⟨(h.disconnect.delete uri nofun).disconnect,
        by simp [settle, Registry.disconnect, hk]⟩
    · rw [if_neg hcur, if_neg (mt current.mpr hcur)]
      exact ⟨h.delete uri (mt current.mpr hcur), rfl⟩

/-- Nothing is made current. -/
theorem Tracks.point_none (h : Tracks made r d) :
    Agree made (r.disconnect.1, .change r.disconnect.2) (d.point none) := by
  refine ⟨h.disconnect, ?_⟩
  rw [Directory.point, h.current]
  cases cur : r.current <;> simp [Registry.disconnect, cur]

/-- A registered connection is made current. -/
theorem Tracks.point_some (h : Tracks made r d) (hc : c ∈ r.connections) :
    Agree made
      (if r.isCurrent c then (r, .change .unchanged)
        else ({ r with current := some c }, .change (.changed (some c))))
      (d.point (some c.uri)) := by
  have current : r.isCurrent c = true ↔ d.current = some c.uri := by
    rw [h.isCurrent (h.genuine c hc), h.lookup_iff]
    exact and_iff_left hc
  by_cases hcur : r.isCurrent c = true
  · have uris := current.mp hcur
    rw [if_pos hcur, Directory.point, if_pos uris, ← uris]
    exact ⟨h, rfl⟩
  · rw [if_neg hcur, Directory.point, if_neg (mt current.mpr hcur), Option.bind_some,
      h.lookup_iff.mpr hc]
    exact ⟨{ h with current := rfl, current_mem := fun k hk => Option.some.inj hk ▸ hc }, rfl⟩

/-- Another instance is placed and made current. -/
theorem Tracks.placed (h : Tracks made r d) (hc : c.endpoint = made c.id) (blank : c.uri ≠ "")
    {entries : List (String × Connection)}
    (placed : entries = (place c r.connections).map fun k => (k.uri, k)) :
    Tracks made { r with connections := place c r.connections, current := some c }
      { d with entries, current := some c.uri } where
  entries := placed
  current := rfl
  autoSwitch := h.autoSwitch
  timeoutMs := h.timeoutMs
  distinct := nodup_place h.distinct
  named k hk := by
    rcases mem_place hk with rfl | hk
    · exact blank
    · exact h.named k hk
  current_mem k hk := Option.some.inj hk ▸ self_mem_place c r.connections
  genuine k hk := by
    rcases mem_place hk with rfl | hk
    · exact hc
    · exact h.genuine k hk

theorem Tracks.select (h : Tracks made r d) (hc : c.endpoint = made c.id) :
    Agree made (r.settle (r.select c)) (d.select c) := by
  unfold Registry.select Directory.select
  by_cases blank : c.uri = ""
  · -- a registry looks first whether it is current, which it cannot be without a URI
    have apart : ¬ r.isCurrent c = true := fun hcur =>
      h.named c (h.lookup_iff.mp ((h.isCurrent hc).mp hcur).2) blank
    rw [if_neg apart, if_pos blank, if_pos blank]
    exact ⟨h, rfl⟩
  · rw [if_neg blank, if_neg blank]
    by_cases known : d.lookup c.uri = some c
    · have hin := h.lookup_iff.mp known
      rw [if_pos known, place_of_mem h.distinct hin]
      have pointed := h.point_some hin
      by_cases hcur : r.isCurrent c = true
      · rwa [if_pos hcur] at pointed ⊢
      · rwa [if_neg hcur] at pointed ⊢
    · have apart : ¬ r.isCurrent c = true := fun hcur => known ((h.isCurrent hc).mp hcur).2
      rw [if_neg apart, if_neg known]
      refine ⟨?_, rfl⟩
      by_cases other : (d.lookup c.uri).isSome = true
      · have huri : c.uri ∈ r.connections.map (·.uri) := by
          rw [← has_iff, h.has, other]
        rw [if_pos other]
        refine h.placed hc blank ?_
        rw [place_of_known h.distinct huri, Directory.replace, h.entries, List.map_map,
          List.map_map]
        refine List.map_congr_left fun k _ => ?_
        by_cases uris : k.uri = c.uri <;> simp [uris]
      · have huri : c.uri ∉ r.connections.map (·.uri) := h.lookup_none.mp (by simpa using other)
        rw [if_neg other]
        refine h.placed hc blank ?_
        rw [place_of_unknown huri, Directory.append, h.entries, List.map_append]
        rfl

theorem Tracks.selectUri (h : Tracks made r d) {fresh : InstanceId}
    (hc : { uri := uri } = made fresh) :
    Agree made (r.settle (r.selectUri uri fresh)) (d.selectUri uri fresh) := by
  unfold Registry.selectUri Directory.selectUri
  by_cases blank : uri = ""
  · rw [if_pos blank, if_pos blank]
    exact ⟨h, rfl⟩
  · rw [if_neg blank, if_neg blank, h.lookup]
    cases found : r.get? uri with
    | none =>
      have unknown : d.lookup uri = none := (h.lookup uri).trans found
      have selected := h.select (c := ⟨fresh, { uri }⟩) hc
      simpa [Directory.select, blank, unknown] using selected
    | some k =>
      obtain rfl := get?_uri found
      have known : d.lookup k.uri = some k := h.lookup_iff.mpr (get?_mem found)
      have selected := h.select (h.genuine k (get?_mem found))
      simpa [Directory.select, blank, known] using selected

theorem Tracks.switchTo (h : Tracks made r d) (hc : c.endpoint = made c.id) :
    Agree made ((r.switchTo c).1, .change (r.switchTo c).2) (d.switchTo c) := by
  unfold Directory.switchTo
  by_cases known : d.lookup c.uri = some c
  · have pointed := h.point_some (h.lookup_iff.mp known)
    rw [if_pos known]
    rcases r.switchTo_eq c with ⟨hcur, -, heq⟩ | ⟨hno, heq⟩
    · rw [heq]
      rwa [if_neg (by simp [hcur])] at pointed
    · have hcur := hno.resolve_right (by rw [(h.contains hc).mpr known]; exact nofun)
      rw [heq]
      rwa [if_pos hcur] at pointed
  · rw [if_neg known]
    rcases r.switchTo_eq c with ⟨-, hin, -⟩ | ⟨-, heq⟩
    · exact absurd ((h.contains hc).mp hin) known
    · rw [heq]
      exact ⟨h, rfl⟩

theorem Tracks.clear (h : Tracks made r d) :
    Agree made (r.clear.1, .change r.clear.2) d.clear := by
  refine ⟨⟨rfl, rfl, h.autoSwitch, h.timeoutMs, List.nodup_nil, nofun, nofun, nofun⟩, ?_⟩
  rw [Directory.clear, h.current]
  cases cur : r.current <;> simp [Registry.clear, Registry.disconnect, cur]

/-- One action: the two sides give the same answer and go together afterwards. -/
theorem tracks_act (h : Tracks made r d) {a : Action} (ha : a.Genuine made) :
    Agree made (r.act a) (d.act a) := by
  cases a with
  | add c => exact h.register (ha c List.mem_cons_self)
  | addUri uri fresh => exact h.register (ha _ List.mem_cons_self)
  | remove uri => exact h.remove uri
  | select target =>
    cases target with
    | none => exact h.point_none
    | some c => exact h.select (ha c List.mem_cons_self)
  | selectUri uri fresh => exact h.selectUri (ha _ List.mem_cons_self)
  | switchTo c => exact h.switchTo (ha c List.mem_cons_self)
  | clear => exact h.clear
  | reset =>
    exact Tracks.clear (r := { r with autoSwitch := true, timeoutMs := 5000 })
      { h with autoSwitch := rfl, timeoutMs := rfl }
  | setAutoSwitch on => exact ⟨{ h with autoSwitch := rfl }, rfl⟩
  | setTimeout ms => exact ⟨{ h with timeoutMs := rfl }, rfl⟩

/-- A whole sequence, by induction on it. -/
theorem tracks_acts {actions : List Action} (h : Tracks made r d)
    (genuine : ∀ a ∈ actions, a.Genuine made) :
    Tracks made (acts act r actions).1 (acts Directory.act d actions).1 ∧
      (acts act r actions).2 = (acts Directory.act d actions).2 := by
  induction actions generalizing r d with
  | nil => exact ⟨h, rfl⟩
  | cons a rest ih =>
    obtain ⟨together, answers⟩ := tracks_act h (genuine a List.mem_cons_self)
    obtain ⟨later, rest_eq⟩ := ih together fun b hb => genuine b (List.mem_cons_of_mem a hb)
    exact ⟨later, by simp only [acts, answers, rest_eq]⟩

theorem tracks_empty : Tracks made .empty .empty :=
  ⟨rfl, rfl, rfl, rfl, List.nodup_nil, nofun, nofun, nofun⟩

/-- Whatever is done to an empty registry, an empty directory gives the same answers to it, and
afterwards both say the same to every question. -/
theorem acts_mirror {made : InstanceId → Endpoint} {actions : List Action}
    (genuine : ∀ a ∈ actions, a.Genuine made) :
    (acts act .empty actions).2 = (acts Directory.act .empty actions).2 ∧
      Mirrors made (acts act .empty actions).1 (acts Directory.act .empty actions).1 := by
  obtain ⟨together, answers⟩ := tracks_acts tracks_empty genuine
  exact ⟨answers, together.mirrors⟩

/-- The endpoints of the instances in the sequence below: the first two have one URI. -/
def twins : InstanceId → Endpoint
  | 0 => { uri := "a" }
  | 1 => { uri := "a", priority := 4 }
  | 2 => { uri := "b" }
  | _ => { uri := "c" }

/-- An instance takes the place of its twin while that one is current. The twin can neither be
switched to nor be added; it is switched to once the URI has been removed and it has been brought
back. -/
def substitution : List Action :=
  [.addUri "a" 0, .addUri "b" 2, .select (some ⟨0, twins 0⟩), .select (some ⟨1, twins 1⟩),
    .switchTo ⟨0, twins 0⟩, .add ⟨0, twins 0⟩, .remove "a", .add ⟨0, twins 0⟩,
    .switchTo ⟨1, twins 1⟩, .switchTo ⟨0, twins 0⟩, .selectUri "c" 3]

theorem substitution_mirrors :
    (∀ a ∈ substitution, a.Genuine twins) ∧
      (acts Directory.act .empty substitution).2 =
        [.registered ⟨0, twins 0⟩, .registered ⟨2, twins 2⟩, .change (.changed (some ⟨0, twins 0⟩)),
          .change (.changed (some ⟨1, twins 1⟩)), .change .unchanged,
          .refused (.duplicateEndpoint "a"), .change (.changed none), .registered ⟨0, twins 0⟩,
          .change .unchanged, .change (.changed (some ⟨0, twins 0⟩)),
          .change (.changed (some ⟨3, twins 3⟩))] ∧
      (acts act .empty substitution).2 = (acts Directory.act .empty substitution).2 ∧
      Mirrors twins (acts act .empty substitution).1 (acts Directory.act .empty substitution).1 :=
  ⟨by decide, by decide, acts_mirror (by decide)⟩

end Registry

end RpcPool

/-!
# Attributes

Free-form labels of a connection: a finite map from text to text, kept as pairs with distinct keys in the
order in which the keys were first set.
-/

namespace RpcPool

/-- Pairs of key and value. `insert` keeps the keys distinct. -/
abbrev Attributes := List (String × String)

namespace Attributes

/-- Sets one key. A key that is already there keeps its place and takes the new value. -/
def insert (key value : String) : Attributes → Attributes
  | [] => [(key, value)]
  | (k, v) :: rest => if k = key then (key, value) :: rest else (k, v) :: insert key value rest

/-- The value of a key. -/
def get? (key : String) : Attributes → Option String
  | [] => none
  | (k, v) :: rest => if k = key then some v else get? key rest

/-- Sets the pairs one after the other, so the last value of a key wins. -/
def ofPairs (pairs : List (String × String)) : Attributes :=
  pairs.foldl (fun m p => insert p.1 p.2 m) []

theorem insert_new {key : String} (value : String) {m : Attributes} (h : key ∉ m.map (·.1)) :
    insert key value m = m ++ [(key, value)] := by
  induction m with
  | nil => rfl
  | cons p rest ih => grind [insert]

theorem keys_insert (key value : String) (m : Attributes) :
    (insert key value m).map (·.1) = if key ∈ m.map (·.1) then m.map (·.1) else m.map (·.1) ++ [key] := by
  induction m with
  | nil => rfl
  | cons p rest ih => grind [insert]

theorem nodup_insert (key value : String) {m : Attributes} (h : (m.map (·.1)).Nodup) :
    ((insert key value m).map (·.1)).Nodup := by
  rw [keys_insert]
  split
  · exact h
  · next hnew =>
    refine List.nodup_append.mpr ⟨h, by simp, fun k hk k' hk' => ?_⟩
    obtain rfl := List.mem_singleton.mp hk'
    exact fun heq => hnew (heq ▸ hk)

/-- However often a key is set, it occurs once. -/
theorem nodup_ofPairs (pairs : List (String × String)) : ((ofPairs pairs).map (·.1)).Nodup :=
  List.foldlRecOn (motive := fun m : Attributes => (m.map (·.1)).Nodup) pairs _ (by simp)
    fun _ h p _ => nodup_insert p.1 p.2 h

/-- Pairs with distinct keys are a map as they are. -/
theorem ofPairs_of_nodup {m : Attributes} (h : (m.map (·.1)).Nodup) : ofPairs m = m := by
  have hgo (done pairs : Attributes) (hkeys : ((done ++ pairs).map (·.1)).Nodup) :
      pairs.foldl (fun m p => insert p.1 p.2 m) done = done ++ pairs := by
    induction pairs generalizing done with
    | nil => simp
    | cons p rest ih =>
      have hfresh : p.1 ∉ done.map (·.1) := by
        rw [List.map_append, List.nodup_append] at hkeys
        exact fun hmem => hkeys.2.2 p.1 hmem p.1 (by simp) rfl
      have hrest := ih (done ++ [p]) (by simpa using hkeys)
      simpa [insert_new p.2 hfresh] using hrest
  exact hgo [] m h

/-- Two maps are the same if they have the same size and agree on every key of the first. -/
def same (a b : Attributes) : Bool :=
  a.length == b.length && a.all fun p => get? p.1 b == some p.2

end Attributes

end RpcPool

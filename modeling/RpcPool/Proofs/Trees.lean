import Mathlib.Data.List.Nodup
import Mathlib.Data.List.TakeWhile
import RpcPool.Files.Operation

/-!
# What file operations do

When a file operation succeeds, and what it has done to the tree then. No operation on a file changes
which directories there are, so a path goes on leading to where it led.

Results:
1. `Path.join_parts`, `Path.stemOf_append`: paths made of names.
2. `walk_congr`, `locate_congr`: where a path leads depends on the directories only.
3. `mem_children`: the entries of a directory; `locate_concat`: where paths of names in one directory lead.
4. `update_ok`, `remove_ok`, `rename_ok`, `read_ok`: each operation, as one change of the tree.
5. `update_succeeds`, `remove_succeeds`, `rename_succeeds`, `read_succeeds`: operations where there is room.
-/

namespace RpcPool

namespace Path

/-! ## Paths -/

/-- A name of a path: not silent, and without slashes. -/
def IsName (name : String) : Prop := isSilent name.toList = false ∧ '/' ∉ name.toList

theorem ne_slash {cs : List Char} (h : '/' ∉ cs) : ∀ c ∈ cs, (c == '/') = false := fun _ hc =>
  beq_false_of_ne fun heq => h (heq ▸ hc)

theorem isName_of_mem_parts {text part : String} (h : part ∈ (ofText text).parts) : IsName part := by
  simp only [ofText, List.mem_map, List.mem_filter, Bool.not_eq_true'] at h
  obtain ⟨piece, ⟨hmem, hsilent⟩, rfl⟩ := h
  refine ⟨by rwa [String.toList_ofList], fun hslash => ?_⟩
  rw [String.toList_ofList] at hslash
  have := Text.not_isCut_of_mem_pieces hmem '/' hslash
  simp at this

/-- The characters of pieces are those of the text. -/
theorem mem_of_mem_pieces {isCut : Char → Bool} {cs piece : List Char}
    (h : piece ∈ Text.pieces isCut cs) : ∀ c ∈ piece, c ∈ cs := by
  induction cs generalizing piece with
  | nil =>
    obtain rfl : piece = [] := by simpa [Text.pieces] using h
    exact fun c hc => absurd hc List.not_mem_nil
  | cons d rest ih =>
    simp only [Text.pieces] at h
    split at h
    · rcases List.mem_cons.mp h with rfl | h
      · exact fun c hc => absurd hc List.not_mem_nil
      · exact fun c hc => List.mem_cons_of_mem d (ih h c hc)
    · split at h
      · next hrest => exact absurd hrest (Text.pieces_ne_nil isCut rest)
      · next p more hrest =>
        rcases List.mem_cons.mp h with rfl | h
        · intro c hc
          rcases List.mem_cons.mp hc with rfl | hc
          · exact List.mem_cons_self
          · exact List.mem_cons_of_mem d (ih (hrest ▸ List.mem_cons_self) c hc)
        · exact fun c hc => List.mem_cons_of_mem d (ih (hrest ▸ List.mem_cons_of_mem p h) c hc)

theorem mem_text_of_mem_parts {text part : String} (h : part ∈ (ofText text).parts) {c : Char}
    (hc : c ∈ part.toList) : c ∈ text.toList := by
  simp only [ofText, List.mem_map, List.mem_filter] at h
  obtain ⟨piece, ⟨hmem, -⟩, rfl⟩ := h
  rw [String.toList_ofList] at hc
  exact mem_of_mem_pieces hmem c hc

/-- Names, with a slash after each. -/
def slashed (names : List String) : List Char := names.flatMap fun name => name.toList ++ ['/']

theorem pieces_slashed {names : List String} (h : ∀ name ∈ names, IsName name) {last : String}
    (hlast : IsName last) :
    Text.pieces (· == '/') (slashed names ++ last.toList) = (names ++ [last]).map String.toList := by
  induction names with
  | nil => exact Text.pieces_whole (ne_slash hlast.2)
  | cons name names ih =>
    have hname := (h name List.mem_cons_self).2
    rw [slashed, List.flatMap_cons, List.append_assoc, List.append_assoc, List.singleton_append,
      Text.pieces_append (ne_slash hname) rfl]
    exact congrArg _ (ih fun x hx => h x (List.mem_cons_of_mem name hx))

theorem pieces_root {names : List String} (h : ∀ name ∈ names, IsName name) {last : String}
    (hlast : IsName last) : Text.pieces (· == '/') ('/' :: (slashed names ++ last.toList)) =
      [] :: (names ++ [last]).map String.toList :=
  congrArg _ (pieces_slashed h hlast)

theorem parts_slashed {names : List String} (h : ∀ name ∈ names, IsName name) {last : String}
    (hlast : IsName last) :
    (ofText (String.ofList ('/' :: (slashed names ++ last.toList)))).parts = names ++ [last] := by
  have hall : ∀ name ∈ names ++ [last], isSilent name.toList = false := by
    intro name hmem
    rcases List.mem_append.mp hmem with hmem | hmem
    · exact (h name hmem).1
    · exact (List.mem_singleton.mp hmem) ▸ hlast.1
  have hkept : ((names ++ [last]).map String.toList).filter (fun p => !isSilent p) =
      (names ++ [last]).map String.toList := by
    refine List.filter_eq_self.mpr fun p hp => ?_
    obtain ⟨name, hmem, rfl⟩ := List.mem_map.mp hp
    rw [hall name hmem]
    rfl
  simp only [ofText, String.toList_ofList, pieces_root h hlast]
  rw [List.filter_cons_of_neg (by decide), hkept, List.map_map]
  simp [Function.comp_def, String.ofList_toList]

theorem intercalate_concat (names : List String) (last : String) :
    (String.intercalate "/" (names ++ [last])).toList = slashed names ++ last.toList := by
  induction names with
  | nil => simp [slashed]
  | cons name names ih =>
    obtain ⟨next, more, hcons⟩ := List.exists_cons_of_ne_nil
      (List.append_ne_nil_of_right_ne_nil names (List.cons_ne_nil last []))
    rw [List.cons_append, hcons, String.intercalate_cons_cons, ← hcons, String.toList_append, ih]
    simp [slashed]

/-- The path of a name in a directory, given by the names on the way. -/
theorem join_eq {names : List String} (h : ∀ name ∈ names, IsName name) (last : String) :
    (ofParts names).join last = ofText (String.ofList ('/' :: (slashed names ++ last.toList))) := by
  have htext : ((if (ofParts names).text.toList.getLast?.any (· != '/') then
      (ofParts names).text ++ "/" else (ofParts names).text) ++ last).toList =
      '/' :: (slashed names ++ last.toList) := by
    rcases names.eq_nil_or_concat with rfl | ⟨above, name, rfl⟩
    · simp [ofParts, slashed]
    · rw [List.concat_eq_append] at h ⊢
      have hname := h name (by simp)
      have hend : (ofParts (above ++ [name])).text.toList = '/' :: (slashed above ++ name.toList) := by
        rw [ofParts, String.toList_append, intercalate_concat]
        rfl
      have hslash : (ofParts (above ++ [name])).text.toList.getLast?.any (· != '/') = true := by
        have hne : name.toList ≠ [] := fun hnil => by
          have := hname.1
          rw [hnil] at this
          cases this
        rw [hend, ← List.cons_append, List.getLast?_append, List.getLast?_eq_some_getLast hne,
          Option.some_or, Option.any_some, bne_iff_ne]
        exact fun heq => hname.2 (heq ▸ List.getLast_mem hne)
      rw [if_pos hslash, String.toList_append, String.toList_append, hend]
      simp [slashed]
  rw [← htext, String.ofList_toList]
  rfl

theorem join_parts {names : List String} (h : ∀ name ∈ names, IsName name) {last : String}
    (hlast : IsName last) : ((ofParts names).join last).parts = names ++ [last] := by
  rw [join_eq h, parts_slashed h hlast]

/-- It leads to files as well. -/
theorem join_slash {names : List String} (h : ∀ name ∈ names, IsName name) {last : String}
    (hlast : IsName last) : ((ofParts names).join last).slash = false := by
  rw [join_eq h, ofText, String.toList_ofList, pieces_root h hlast]
  simp only [List.getLast?_cons, List.getLast?_map, List.getLast?_concat, Option.map_some,
    Option.getD_some, Option.any_some]
  exact hlast.1

/-- In a directory without text a name is all of the path. -/
theorem nowhere_join_parts {last : String} (hlast : IsName last) :
    (nowhere.join last).parts = [last] := by
  have hjoin : nowhere.join last = ofText last := by
    unfold join
    exact congrArg ofText String.empty_append
  have hpieces : Text.pieces (· == '/') last.toList = [last.toList] :=
    Text.pieces_whole (ne_slash hlast.2)
  rw [hjoin, ofText]
  simp [hpieces, hlast.1]

/-- The directory of a path of names, unless it is one name alone. -/
theorem parent?_eq {p : Path} {above : List String} {name : String} (hparts : p.parts = above ++ [name])
    (hbare : p.isBare = false) : p.parent? = some (ofParts above) := by
  simp [parent?, hbare, hparts]

theorem parent?_bare {p : Path} (hbare : p.isBare = true) : p.parent? = some nowhere := by
  have hne : p.parts.isEmpty = false := by
    have hone : p.parts.length = 1 := by
      unfold isBare at hbare
      simpa using (Bool.and_eq_true_iff.mp hbare).1
    cases hparts : p.parts with
    | nil =>
      rw [hparts] at hone
      cases hone
    | cons => rfl
  simp [parent?, hbare, hne]

theorem mem_slashed {names : List String} {c : Char} (h : c ∈ slashed names) :
    c = '/' ∨ ∃ name ∈ names, c ∈ name.toList := by
  obtain ⟨name, hname, hc⟩ := List.mem_flatMap.mp h
  rcases List.mem_append.mp hc with hc | hc
  · exact Or.inr ⟨name, hname, hc⟩
  · exact Or.inl (List.mem_singleton.mp hc)

/-- A name is its stem with an extension, which has no dot but the one at its start. -/
theorem stemOf_append (name : List Char) :
    ∃ extension, name = stemOf name ++ extension ∧ ∀ more, extension = '.' :: more → '.' ∉ more := by
  have hall := List.takeWhile_append_dropWhile (p := (· != '.')) (l := name.reverse)
  unfold stemOf
  split
  · next d c rest hdrop =>
    refine ⟨d :: (name.reverse.takeWhile (· != '.')).reverse, ?_, fun more hmore hdot => ?_⟩
    · have hname := congrArg List.reverse hall
      rw [hdrop, List.reverse_reverse] at hname
      exact hname.symm.trans (by simp)
    · rw [← (List.cons.inj hmore).2, List.mem_reverse] at hdot
      simpa using List.mem_takeWhile_imp hdot
  · exact ⟨[], (List.append_nil name).symm, fun more hmore => by cases hmore⟩

/-- A name that a file can have. -/
structure IsFileName (name : String) : Prop where
  is_name : IsName name
  ne_up : name ≠ ".."
  fits : name.utf8ByteSize ≤ FileTree.nameLimit
  no_nul : Char.ofNat 0 ∉ name.toList

instance (name : String) : Decidable (IsName name) := inferInstanceAs (Decidable (_ ∧ _))

instance (name : String) : Decidable (IsFileName name) :=
  decidable_of_iff (IsName name ∧ name ≠ ".." ∧ name.utf8ByteSize ≤ FileTree.nameLimit ∧
    Char.ofNat 0 ∉ name.toList) ⟨fun ⟨h, hup, hfits, hnul⟩ => ⟨h, hup, hfits, hnul⟩,
      fun h => ⟨h.is_name, h.ne_up, h.fits, h.no_nul⟩⟩

theorem mem_of_mem_stemOf {name : List Char} {c : Char} (h : c ∈ stemOf name) : c ∈ name := by
  obtain ⟨extension, heq, -⟩ := stemOf_append name
  rw [heq]
  exact List.mem_append_left extension h

end Path

namespace FileTree

/-! ## Entries -/

theorem lookup_cons_if (l k : Location) (e : Entry) (entries : List (Location × Entry)) :
    ((l, e) :: entries).lookup k = if k = l then some e else entries.lookup k := by
  by_cases h : k = l
  · subst h
    simp
  · rw [List.lookup_cons, beq_eq_false_iff_ne.mpr h, if_neg h]

theorem lookup_filter (entries : List (Location × Entry)) (l k : Location) :
    (entries.filter fun x => x.1 != l).lookup k = if k = l then none else entries.lookup k := by
  induction entries with
  | nil => simp
  | cons x entries ih =>
    obtain ⟨a, e⟩ := x
    by_cases ha : a = l
    · subst ha
      rw [List.filter_cons_of_neg (by simp), ih, lookup_cons_if]
      split <;> rfl
    · rw [List.filter_cons_of_pos (by simpa using ha), lookup_cons_if, lookup_cons_if, ih]
      by_cases hk : k = a
      · subst hk
        simp [ha]
      · simp [hk]

theorem get?_nil (t : FileTree) : t.get? [] = some (.directory 0) := rfl

theorem get?_set (t : FileTree) {l : Location} (hl : l ≠ []) (e : Entry) (k : Location) :
    (t.set l e).get? k = if k = l then some e else t.get? k := by
  by_cases hk : k = []
  · subst hk
    simp [get?, Ne.symm hl]
  · by_cases heq : k = l
    · subst heq
      simp [get?, set, hk]
    · simp [get?, set, hk, heq, lookup_cons_if, lookup_filter]

theorem get?_erase (t : FileTree) {l : Location} (hl : l ≠ []) (k : Location) :
    (t.erase l).get? k = if k = l then none else t.get? k := by
  by_cases hk : k = []
  · subst hk
    simp [get?, Ne.symm hl]
  · simp [get?, erase, hk, lookup_filter]

/-- Whether no location has two entries. -/
def Distinct (t : FileTree) : Prop := (t.entries.map (·.1)).Nodup

theorem Distinct.filter {t : FileTree} (h : t.Distinct) (f : Location × Entry → Bool) :
    ((t.entries.filter f).map (·.1)).Nodup :=
  h.sublist ((List.filter_sublist).map _)

theorem Distinct.set {t : FileTree} (h : t.Distinct) (l : Location) (e : Entry) :
    (t.set l e).Distinct := by
  refine List.nodup_cons.mpr ⟨fun hmem => ?_, h.filter _⟩
  obtain ⟨x, hx, heq⟩ := List.mem_map.mp hmem
  simpa [heq] using (List.mem_filter.mp hx).2

theorem Distinct.erase {t : FileTree} (h : t.Distinct) (l : Location) : (t.erase l).Distinct :=
  h.filter _

theorem lookup_iff {entries : List (Location × Entry)} (h : (entries.map (·.1)).Nodup) {l : Location}
    {e : Entry} : entries.lookup l = some e ↔ (l, e) ∈ entries := by
  induction entries with
  | nil => simp
  | cons x entries ih =>
    obtain ⟨k, e'⟩ := x
    obtain ⟨hk, hrest⟩ := List.nodup_cons.mp h
    rw [lookup_cons_if, List.mem_cons, Prod.mk.injEq]
    split
    · next heq =>
      subst heq
      have hnot : (l, e) ∉ entries := fun hmem => hk (List.mem_map.mpr ⟨_, hmem, rfl⟩)
      simp [hnot, eq_comm]
    · next hne => simp [hne, ih hrest]

/-- The entries of a directory are those whose location is one name longer. -/
theorem mem_children {t : FileTree} (h : t.Distinct) {l : Location} {name : String} {e : Entry} :
    (name, e) ∈ t.children l ↔ t.get? (l ++ [name]) = some e := by
  have hget : t.get? (l ++ [name]) = t.entries.lookup (l ++ [name]) := by simp [get?]
  rw [hget, lookup_iff h, children, List.mem_filterMap]
  constructor
  · rintro ⟨⟨k, e'⟩, hmem, heq⟩
    rcases k.eq_nil_or_concat with rfl | ⟨above, last, rfl⟩
    · cases heq
    · simp only [List.concat_eq_append, List.getLast?_concat, List.dropLast_concat] at heq hmem
      split at heq
      · next hl =>
        cases heq
        exact hl ▸ hmem
      · cases heq
  · intro hmem
    exact ⟨_, hmem, by simp⟩

theorem children_nodup {t : FileTree} (h : t.Distinct) (l : Location) : (t.children l).Nodup := by
  refine List.Nodup.filterMap ?_ (List.Nodup.of_map _ h)
  rintro ⟨k, e⟩ ⟨k', e'⟩ ⟨name, b⟩ hk hk'
  rcases k.eq_nil_or_concat with rfl | ⟨above, last, rfl⟩
  · cases hk
  rcases k'.eq_nil_or_concat with rfl | ⟨above', last', rfl⟩
  · cases hk'
  simp only [List.concat_eq_append, List.getLast?_concat, List.dropLast_concat, Option.mem_def,
    Option.ite_none_right_eq_some, Option.some.injEq, Prod.mk.injEq] at hk hk' ⊢
  obtain ⟨rfl, rfl, rfl⟩ := hk
  obtain ⟨rfl, rfl, rfl⟩ := hk'
  exact ⟨rfl, rfl⟩

/-- The content of the file at a location. Where there is none, it is empty. -/
def contentAt (t : FileTree) (l : Location) : Content :=
  match t.get? l with
  | some (.file c _) => c
  | _ => .empty

theorem contentAt_of_file {t : FileTree} {l : Location} {c : Content} {m : Nat}
    (h : t.get? l = some (.file c m)) : t.contentAt l = c := by
  rw [contentAt, h]

theorem contentAt_of_none {t : FileTree} {l : Location} (h : t.get? l = none) :
    t.contentAt l = .empty := by
  rw [contentAt, h]

theorem contentAt_congr {t u : FileTree} {l : Location} (h : u.get? l = t.get? l) :
    u.contentAt l = t.contentAt l := by
  rw [contentAt, contentAt, h]

/-- The content of the file that a path leads to. Where there is none, it is empty. -/
def contentOf (t : FileTree) (p : Path) : Content :=
  match t.locate p with
  | .ok l => t.contentAt l
  | .error _ => .empty

theorem contentOf_eq {t : FileTree} {p : Path} {l : Location} (h : t.locate p = .ok l) :
    t.contentOf p = t.contentAt l := by
  rw [contentOf, h]

/-! ## Directories -/

/-- Whether two trees have the same directories. -/
def SameDirectories (t u : FileTree) : Prop :=
  ∀ l m, t.get? l = some (.directory m) ↔ u.get? l = some (.directory m)

theorem SameDirectories.refl (t : FileTree) : SameDirectories t t := fun _ _ => Iff.rfl

theorem SameDirectories.symm {t u : FileTree} (h : SameDirectories t u) : SameDirectories u t :=
  fun l m => (h l m).symm

theorem SameDirectories.trans {t u v : FileTree} (h : SameDirectories t u)
    (h' : SameDirectories u v) : SameDirectories t v := fun l m => (h l m).trans (h' l m)

/-- Whether a location can hold a file: there is no directory. -/
def HasRoom (t : FileTree) (l : Location) : Prop := ∀ m, t.get? l ≠ some (.directory m)

theorem HasRoom.ne_nil {t : FileTree} {l : Location} (h : t.HasRoom l) : l ≠ [] := by
  rintro rfl
  exact h 0 t.get?_nil

theorem hasRoom_of_file {t : FileTree} {l : Location} {c : Content} {m : Nat}
    (h : t.get? l = some (.file c m)) : t.HasRoom l := by
  intro n hn
  rw [h] at hn
  cases hn

theorem hasRoom_of_none {t : FileTree} {l : Location} (h : t.get? l = none) : t.HasRoom l := by
  intro n hn
  rw [h] at hn
  cases hn

theorem HasRoom.congr {t u : FileTree} {l : Location} (h : t.HasRoom l)
    (hdirs : SameDirectories t u) : u.HasRoom l := fun m hm => h m ((hdirs l m).mpr hm)

theorem sameDirectories_set {t : FileTree} {l : Location} (h : t.HasRoom l) (c : Content)
    (m : Nat) : SameDirectories t (t.set l (.file c m)) := by
  intro k n
  rw [get?_set t h.ne_nil]
  split
  · next heq =>
    subst heq
    exact ⟨fun hdir => absurd hdir (h n), fun hfile => by cases hfile⟩
  · exact Iff.rfl

theorem sameDirectories_erase {t : FileTree} {l : Location} (h : t.HasRoom l) :
    SameDirectories t (t.erase l) := by
  intro k n
  rw [get?_erase t h.ne_nil]
  split
  · next heq =>
    subst heq
    exact ⟨fun hdir => absurd hdir (h n), fun hnone => by cases hnone⟩
  · exact Iff.rfl

/-! ## Where paths lead -/

theorem walk_up (t : FileTree) (here : Location) (rest : List String) :
    t.walk here (".." :: rest) = t.walk here.dropLast rest := by
  rw [walk]

/-- A name is the last one, or that of a directory which is entered. -/
theorem walk_name {t : FileTree} {here l : Location} {name : String} {rest : List String}
    (hname : name ≠ "..") : t.walk here (name :: rest) = .ok l ↔ ¬ nameLimit < name.utf8ByteSize ∧
      (rest = [] ∧ l = here ++ [name] ∨ rest ≠ [] ∧
        (∃ m, t.get? (here ++ [name]) = some (.directory m)) ∧ t.walk (here ++ [name]) rest = .ok l) := by
  rw [walk]
  · by_cases hlimit : nameLimit < name.utf8ByteSize
    · simp [hlimit]
    · cases rest with
      | nil => simp [hlimit, eq_comm]
      | cons next rest =>
        simp only [hlimit, if_false, List.isEmpty_cons, Bool.false_eq_true, not_false_eq_true,
          true_and, List.cons_ne_nil, false_and, ne_eq, false_or]
        cases hget : t.get? (here ++ [name]) with
        | none => simp
        | some e => cases e <;> simp
  · exact hname

theorem walk_congr {t u : FileTree} (h : SameDirectories t u) {here l : Location}
    {parts : List String} (hwalk : t.walk here parts = .ok l) : u.walk here parts = .ok l := by
  induction parts generalizing here with
  | nil => exact hwalk
  | cons name rest ih =>
    by_cases hname : name = ".."
    · subst hname
      rw [walk_up] at hwalk ⊢
      exact ih hwalk
    · rw [walk_name hname] at hwalk ⊢
      obtain ⟨hlimit, hlast | ⟨hne, ⟨m, hdir⟩, hrest⟩⟩ := hwalk
      · exact ⟨hlimit, Or.inl hlast⟩
      · exact ⟨hlimit, Or.inr ⟨hne, ⟨m, (h _ m).mp hdir⟩, ih hrest⟩⟩

/-- The last name of a path is looked for in a directory, which the names before it lead to. -/
theorem walk_concat {t : FileTree} {here l : Location} {above : List String} {name : String}
    (hname : name ≠ "..") (hhere : ∀ k, k <+: here → ∃ m, t.get? k = some (.directory m)) :
    t.walk here (above ++ [name]) = .ok l ↔ ∃ base, t.walk here above = .ok base ∧
      (∃ m, t.get? base = some (.directory m)) ∧ ¬ nameLimit < name.utf8ByteSize ∧
        l = base ++ [name] := by
  induction above generalizing here with
  | nil =>
    rw [List.nil_append, walk_name hname]
    constructor
    · rintro ⟨hlimit, ⟨-, rfl⟩ | ⟨hne, -⟩⟩
      · exact ⟨here, rfl, hhere here List.prefix_rfl, hlimit, rfl⟩
      · exact absurd rfl hne
    · rintro ⟨base, hbase, -, hlimit, rfl⟩
      cases hbase
      exact ⟨hlimit, Or.inl ⟨rfl, rfl⟩⟩
  | cons first above ih =>
    rw [List.cons_append]
    by_cases hfirst : first = ".."
    · subst hfirst
      rw [walk_up, walk_up]
      exact ih fun k hk => hhere k (hk.trans (List.dropLast_prefix here))
    · have hnext : ∀ m, t.get? (here ++ [first]) = some (.directory m) →
          ∀ k, k <+: here ++ [first] → ∃ m, t.get? k = some (.directory m) := by
        intro m hdir k hk
        rcases List.prefix_concat_iff.mp hk with rfl | hk
        · exact ⟨m, hdir⟩
        · exact hhere k hk
      rw [walk_name hfirst]
      constructor
      · rintro ⟨hlimit, ⟨hnil, -⟩ | ⟨-, ⟨m, hdir⟩, hrest⟩⟩
        · exact absurd hnil (by simp)
        · obtain ⟨base, hbase, hends⟩ := (ih (hnext m hdir)).mp hrest
          refine ⟨base, (walk_name hfirst).mpr ⟨hlimit, ?_⟩, hends⟩
          cases above with
          | nil =>
            cases hbase
            exact Or.inl ⟨rfl, rfl⟩
          | cons => exact Or.inr ⟨List.cons_ne_nil _ _, ⟨m, hdir⟩, hbase⟩
      · rintro ⟨base, hbase, hdir, hends⟩
        obtain ⟨hlimit, ⟨rfl, rfl⟩ | ⟨-, ⟨m, hdir'⟩, hrest⟩⟩ := (walk_name hfirst).mp hbase
        · obtain ⟨m, hdir'⟩ := hdir
          exact ⟨hlimit, Or.inr ⟨by simp, ⟨m, hdir'⟩,
            (ih (hnext m hdir')).mpr ⟨_, rfl, ⟨m, hdir'⟩, hends⟩⟩⟩
        · exact ⟨hlimit, Or.inr ⟨by simp, ⟨m, hdir'⟩,
            (ih (hnext m hdir')).mpr ⟨base, hrest, hdir, hends⟩⟩⟩

/-- A path that ends upwards leads to a directory. -/
theorem walk_upwards {t : FileTree} {here l : Location} {above : List String}
    (hhere : ∀ k, k <+: here → ∃ m, t.get? k = some (.directory m))
    (hl : t.walk here (above ++ [".."]) = .ok l) : ∃ m, t.get? l = some (.directory m) := by
  induction above generalizing here with
  | nil =>
    rw [List.nil_append, walk_up, walk] at hl
    cases hl
    exact hhere _ (List.dropLast_prefix here)
  | cons name above ih =>
    rw [List.cons_append] at hl
    by_cases hname : name = ".."
    · subst hname
      rw [walk_up] at hl
      exact ih (fun k hk => hhere k (hk.trans (List.dropLast_prefix here))) hl
    · rw [walk_name hname] at hl
      obtain ⟨-, ⟨hnil, -⟩ | ⟨-, hdir, hl⟩⟩ := hl
      · exact absurd hnil (by simp)
      · refine ih (fun k hk => ?_) hl
        rcases List.prefix_concat_iff.mp hk with rfl | hk
        · exact hdir
        · exact hhere k hk

theorem locate_eq_walk {t : FileTree} {p : Path} {l : Location} (h : t.locate p = .ok l) :
    t.walk [] p.parts = .ok l := by
  unfold locate at h
  split at h
  · cases h
  · split at h
    · cases h
    · exact h

theorem prefix_root (t : FileTree) : ∀ k, k <+: [] → ∃ m, t.get? k = some (.directory m) := by
  intro k hk
  rw [List.prefix_nil.mp hk]
  exact ⟨0, t.get?_nil⟩

theorem locate_concat {t : FileTree} {p : Path} {l : Location} {above : List String} {name : String}
    (hparts : p.parts = above ++ [name]) (hname : name ≠ "..") :
    t.locate p = .ok l ↔ p.text.toList ≠ [] ∧ Char.ofNat 0 ∉ p.text.toList ∧
      ∃ base, t.walk [] above = .ok base ∧ (∃ m, t.get? base = some (.directory m)) ∧
        ¬ nameLimit < name.utf8ByteSize ∧ l = base ++ [name] := by
  rw [locate, ← walk_concat hname t.prefix_root, ← hparts, List.contains_eq_mem]
  by_cases htext : p.text.toList = []
  · simp [htext]
  · by_cases hnul : Char.ofNat 0 ∈ p.text.toList <;> simp [htext, hnul]

/-- A text that can be followed in one tree can be followed in any. -/
theorem locate_of_walk {t u : FileTree} {p : Path} {l k : Location} (hu : u.locate p = .ok k)
    (hwalk : t.walk [] p.parts = .ok l) : t.locate p = .ok l := by
  unfold locate at hu ⊢
  split at hu
  · cases hu
  · next htext =>
    split at hu
    · cases hu
    · next hnul => rw [if_neg htext, if_neg hnul, hwalk]

theorem locate_congr {t u : FileTree} (h : SameDirectories t u) {p : Path} {l : Location}
    (hl : t.locate p = .ok l) : u.locate p = .ok l :=
  locate_of_walk hl (walk_congr h (locate_eq_walk hl))

theorem locate_unique {t u : FileTree} (h : SameDirectories t u) {p : Path} {l k : Location}
    (hl : t.locate p = .ok l) (hk : u.locate p = .ok k) : k = l := by
  rw [locate_congr h hl] at hk
  exact (Except.ok.inj hk).symm

theorem contentOf_congr {t u : FileTree} (h : SameDirectories t u)
    (hcontent : ∀ l, u.contentAt l = t.contentAt l) (p : Path) : u.contentOf p = t.contentOf p := by
  cases ht : t.locate p with
  | ok l => rw [contentOf_eq ht, contentOf_eq (locate_congr h ht), hcontent]
  | error e =>
    cases hu : u.locate p with
    | ok l =>
      rw [locate_congr h.symm hu] at ht
      cases ht
    | error e' => rw [contentOf, contentOf, ht, hu]

/-- Whether a path leads to a place for a file. -/
def Fits (t : FileTree) (p : Path) : Prop :=
  p.slash = false ∧ ∃ l, t.locate p = .ok l ∧ t.HasRoom l

theorem Fits.congr {t u : FileTree} {p : Path} (h : t.Fits p) (hdirs : SameDirectories t u) :
    u.Fits p := by
  obtain ⟨hslash, l, hlocate, hroom⟩ := h
  exact ⟨hslash, l, locate_congr hdirs hlocate, hroom.congr hdirs⟩

end FileTree

namespace FileM

/-! ## Operations -/

variable {α β : Type} {t u : FileTree} {p : Path} {e : FileError}

theorem bind_ok {x : FileM α} {f : α → FileM β} {b : β} (h : (x >>= f) t = .ok b u) :
    ∃ a v, x t = .ok a v ∧ f a v = .ok b u := by
  simp only [bind, EStateM.bind] at h
  split at h
  · next a v hx => exact ⟨a, v, hx, h⟩
  · cases h

theorem bind_eq {x : FileM α} {f : α → FileM β} {a : α} (h : x t = .ok a u) :
    (x >>= f) t = f a u := by
  simp only [bind, EStateM.bind, h]

theorem bind_error {x : FileM α} {f : α → FileM β} (h : x t = .error e u) :
    (x >>= f) t = .error e u := by
  simp only [bind, EStateM.bind, h]

theorem tryCatch_ok {x : FileM α} {f : FileError → FileM α} {a : α} (h : x t = .ok a u) :
    tryCatch x f t = .ok a u := by
  simp only [tryCatch, tryCatchThe, MonadExceptOf.tryCatch, EStateM.tryCatch, h]

theorem tryCatch_error {x : FileM α} {f : FileError → FileM α} (h : x t = .error e u) :
    tryCatch x f t = f e u := by
  simp only [tryCatch, tryCatchThe, MonadExceptOf.tryCatch, EStateM.tryCatch, h]
  rfl

theorem pure_ok {a b : α} (h : (pure a : FileM α) t = .ok b u) : b = a ∧ u = t := by
  cases h
  exact ⟨rfl, rfl⟩

theorem throw_ne_ok {a : α} : (throw e : FileM α) t ≠ .ok a u := nofun

theorem get_bind_eq (f : FileTree → FileM β) (t : FileTree) : (get >>= f) t = f t t := rfl

theorem get_bind_ok {f : FileTree → FileM β} {b : β} (h : (get >>= f) t = .ok b u) :
    f t t = .ok b u := h

theorem modify_ok {f : FileTree → FileTree} {x : PUnit} (h : (modify f : FileM PUnit) t = .ok x u) :
    u = f t := by
  cases h
  rfl

theorem ask_eq_ok {f : FileTree → Except FileError α} {a : α} (h : f t = .ok a) :
    ask f t = .ok a t := by
  simp only [ask, get_bind_eq, h]
  rfl

theorem ask_eq_error {f : FileTree → Except FileError α} (h : f t = .error e) :
    ask f t = .error e t := by
  simp only [ask, get_bind_eq, h]
  rfl

theorem ask_bind_eq {f : FileTree → Except FileError α} {g : α → FileM β} {a : α} (h : f t = .ok a) :
    (ask f >>= g) t = g a t := bind_eq (ask_eq_ok h)

theorem ask_bind_error {f : FileTree → Except FileError α} {g : α → FileM β} (h : f t = .error e) :
    (ask f >>= g) t = .error e t := bind_error (ask_eq_error h)

theorem ask_bind_ok {f : FileTree → Except FileError α} {g : α → FileM β} {b : β}
    (h : (ask f >>= g) t = .ok b u) : ∃ a, f t = .ok a ∧ g a t = .ok b u := by
  cases hf : f t with
  | error e => rw [ask_bind_error hf] at h; cases h
  | ok a => exact ⟨a, rfl, (ask_bind_eq hf).symm.trans h⟩

theorem find_ok {l : Location} {e : Entry} (h : t.find p = .ok (l, e)) :
    t.locate p = .ok l ∧ t.get? l = some e := by
  unfold FileTree.find at h
  split at h
  · cases h
  · next k hlocate =>
    split at h
    · cases h
    · next c m hget =>
      split at h
      · cases h
      · cases h
        exact ⟨hlocate, hget⟩
    · next m hget =>
      cases h
      exact ⟨hlocate, hget⟩

theorem find_bind_ok {f : Location × Entry → FileM α} {a : α}
    (h : (ask (fun t => t.find p) >>= f) t = .ok a u) :
    ∃ l e, t.locate p = .ok l ∧ t.get? l = some e ∧ f (l, e) t = .ok a u := by
  obtain ⟨⟨l, e⟩, hfind, hrest⟩ := ask_bind_ok h
  obtain ⟨hlocate, hget⟩ := find_ok hfind
  exact ⟨l, e, hlocate, hget, hrest⟩

theorem update_eq {f : Content → Content} {x : Unit} (h : update p f t = .ok x u) :
    ∃ l, t.locate p = .ok l ∧ t.HasRoom l ∧ u = t.set l (.file (f (t.contentAt l)) t.now) := by
  obtain ⟨l, hlocate, hrest⟩ := ask_bind_ok h
  have hlast := get_bind_ok hrest
  refine ⟨l, hlocate, ?_⟩
  cases hget : t.get? l with
  | none =>
    simp only [hget] at hlast
    split at hlast
    · exact absurd hlast throw_ne_ok
    · cases hlast
      exact ⟨FileTree.hasRoom_of_none hget, by rw [FileTree.contentAt_of_none hget]⟩
  | some e =>
    cases e with
    | directory m =>
      simp only [hget] at hlast
      exact absurd hlast throw_ne_ok
    | file c m =>
      simp only [hget] at hlast
      split at hlast
      · exact absurd hlast throw_ne_ok
      · cases hlast
        exact ⟨FileTree.hasRoom_of_file hget, by rw [FileTree.contentAt_of_file hget]⟩

theorem update_ok {f : Content → Content} {x : Unit} (h : update p f t = .ok x u) :
    ∃ l, t.locate p = .ok l ∧ t.HasRoom l ∧ FileTree.SameDirectories t u ∧ ∃ m,
      ∀ k, u.get? k = if k = l then some (.file (f (t.contentAt l)) m) else t.get? k := by
  obtain ⟨l, hlocate, hroom, rfl⟩ := update_eq h
  exact ⟨l, hlocate, hroom, FileTree.sameDirectories_set hroom _ _, t.now,
    FileTree.get?_set t hroom.ne_nil _⟩

/-- An update that fails changes nothing. -/
theorem update_error {f : Content → Content} (h : update p f t = .error e u) : u = t := by
  cases hlocate : t.locate p with
  | error e' =>
    rw [update, ask_bind_error hlocate] at h
    cases h
    rfl
  | ok l =>
    rw [update, ask_bind_eq hlocate, get_bind_eq] at h
    cases hget : t.get? l with
    | none =>
      simp only [hget] at h
      split at h <;> cases h
      rfl
    | some entry =>
      cases entry with
      | directory m =>
        simp only [hget] at h
        cases h
        rfl
      | file c m =>
        simp only [hget] at h
        split at h <;> cases h
        rfl

theorem read_ok {c : Content} (h : read p t = .ok c u) :
    ∃ l m, t.locate p = .ok l ∧ t.get? l = some (.file c m) ∧ u = t := by
  obtain ⟨l, e, hlocate, hget, hrest⟩ := find_bind_ok h
  cases e with
  | directory m => exact absurd hrest throw_ne_ok
  | file c' m =>
    obtain ⟨rfl, rfl⟩ := pure_ok hrest
    exact ⟨l, m, hlocate, hget, rfl⟩

theorem remove_ok {x : Unit} (h : remove p t = .ok x u) :
    ∃ l, t.locate p = .ok l ∧ FileTree.SameDirectories t u ∧
      ∀ k, u.get? k = if k = l then none else t.get? k := by
  obtain ⟨l, e, hlocate, hget, hrest⟩ := find_bind_ok h
  cases e with
  | directory m => exact absurd hrest throw_ne_ok
  | file c m =>
    have hroom := FileTree.hasRoom_of_file hget
    cases modify_ok hrest
    exact ⟨l, hlocate, FileTree.sameDirectories_erase hroom, FileTree.get?_erase t hroom.ne_nil⟩

theorem rename_ok {q : Path} {x : Unit} (h : rename p q t = .ok x u) :
    ∃ l c m target, t.locate p = .ok l ∧ t.get? l = some (.file c m) ∧ t.locate q = .ok target ∧
      FileTree.SameDirectories t u ∧ ∀ k, u.get? k =
        if k = target then some (.file c m) else if k = l then none else t.get? k := by
  obtain ⟨l, e, hlocate, hget, hrest⟩ := find_bind_ok h
  cases e with
  | directory m => exact absurd hrest throw_ne_ok
  | file c m =>
    obtain ⟨target, htarget, hmove⟩ := ask_bind_ok hrest
    have hlast := get_bind_ok hmove
    have hroom : t.HasRoom target := by
      intro n hdir
      simp only [hdir] at hlast
      exact throw_ne_ok hlast
    have hmoved : u = (t.erase l).set target (.file c m) := by
      cases hk : t.get? target with
      | none =>
        simp only [hk] at hlast
        exact modify_ok hlast
      | some e =>
        cases e with
        | directory n => exact absurd hk (hroom n)
        | file c' n =>
          simp only [hk] at hlast
          exact modify_ok hlast
    have hfile := FileTree.hasRoom_of_file hget
    have herase := FileTree.sameDirectories_erase hfile
    refine ⟨l, c, m, target, hlocate, hget, htarget, ?_, fun k => ?_⟩
    · rw [hmoved]
      exact herase.trans (FileTree.sameDirectories_set (hroom.congr herase) c m)
    · rw [hmoved, FileTree.get?_set _ hroom.ne_nil, FileTree.get?_erase _ hfile.ne_nil]

theorem isFree_ok {free : Bool} (h : isFree p t = .ok free u) : u = t := by
  obtain ⟨l, -, hrest⟩ := ask_bind_ok h
  have hlast := get_bind_ok hrest
  exact (pure_ok hlast).2

/-! ## Successes -/

theorem update_succeeds (h : t.Fits p) (f : Content → Content) : ∃ u, update p f t = .ok () u := by
  obtain ⟨hslash, l, hlocate, hroom⟩ := h
  rw [update, ask_bind_eq hlocate, get_bind_eq]
  simp only [hslash, Bool.false_eq_true, if_false]
  cases hget : t.get? l with
  | none => exact ⟨_, rfl⟩
  | some e =>
    cases e with
    | directory m => exact absurd hget (hroom m)
    | file c m => exact ⟨_, rfl⟩

theorem find_file {l : Location} {c : Content} {m : Nat} (h : t.Fits p) (hlocate : t.locate p = .ok l)
    (hget : t.get? l = some (.file c m)) : t.find p = .ok (l, .file c m) := by
  simp [FileTree.find, hlocate, hget, h.1]

theorem read_succeeds {l : Location} {c : Content} {m : Nat} (h : t.Fits p)
    (hlocate : t.locate p = .ok l) (hget : t.get? l = some (.file c m)) : read p t = .ok c t := by
  rw [read, ask_bind_eq (find_file h hlocate hget)]
  rfl

theorem remove_succeeds {l : Location} {c : Content} {m : Nat} (h : t.Fits p)
    (hlocate : t.locate p = .ok l) (hget : t.get? l = some (.file c m)) :
    ∃ u, remove p t = .ok () u := by
  rw [remove, ask_bind_eq (find_file h hlocate hget)]
  exact ⟨_, rfl⟩

theorem rename_succeeds {q : Path} {l : Location} {c : Content} {m : Nat} (h : t.Fits p)
    (hlocate : t.locate p = .ok l) (hget : t.get? l = some (.file c m)) (hq : t.Fits q) :
    ∃ u, rename p q t = .ok () u := by
  obtain ⟨-, target, htarget, hroom⟩ := hq
  rw [rename, ask_bind_eq (find_file h hlocate hget)]
  dsimp only
  rw [ask_bind_eq htarget, get_bind_eq]
  cases hk : t.get? target with
  | none => exact ⟨_, rfl⟩
  | some e =>
    cases e with
    | directory n => exact absurd hk (hroom n)
    | file c' n => exact ⟨_, rfl⟩

theorem isFree_eq {l : Location} (h : t.locate p = .ok l) :
    isFree p t = .ok (!t.locked.contains l) t := by
  rw [isFree, ask_bind_eq h, get_bind_eq]
  rfl

/-! ## Failures that are put up with -/

theorem attempt_eq (op : FileM Unit) (t : FileTree) : attempt op t = .ok () (after op t) := by
  unfold after
  cases hop : op t with
  | ok a v => exact tryCatch_ok hop
  | error e v => exact tryCatch_error hop

theorem attempt_ok {op : FileM Unit} {x : Unit} (h : attempt op t = .ok x u) : u = after op t := by
  rw [attempt_eq] at h
  cases h
  rfl

theorem result_eq_ok {op : FileM α} {a : α} (h : op t = .ok a u) : result op t = .ok (.ok a) u :=
  tryCatch_ok (bind_eq h)

theorem result_ok {op : FileM α} {r : Except FileError α} (h : result op t = .ok r u) :
    u = after op t ∧ ∀ a, r = .ok a → op t = .ok a u := by
  unfold after
  cases hop : op t with
  | ok a v =>
    rw [result_eq_ok hop] at h
    cases h
    exact ⟨rfl, fun b hb => by cases hb; rfl⟩
  | error e v =>
    rw [result, tryCatch_error (bind_error hop)] at h
    cases h
    exact ⟨rfl, fun b hb => by cases hb⟩

/-- Whether a tree has become another by removal of files. -/
def Shrunk (t u : FileTree) : Prop :=
  FileTree.SameDirectories t u ∧ ∀ l e, u.get? l = some e → t.get? l = some e

theorem Shrunk.refl (t : FileTree) : Shrunk t t := ⟨.refl t, fun _ _ h => h⟩

theorem Shrunk.trans {v : FileTree} (h : Shrunk t u) (h' : Shrunk u v) : Shrunk t v :=
  ⟨h.1.trans h'.1, fun l e hl => h.2 l e (h'.2 l e hl)⟩

instance : IsPreorder FileTree Shrunk where
  refl := Shrunk.refl
  trans _ _ _ := Shrunk.trans

theorem Shrunk.none {l : Location} (h : Shrunk t u) (hnone : t.get? l = none) : u.get? l = none := by
  cases hget : u.get? l with
  | none => rfl
  | some e =>
    rw [h.2 l e hget] at hnone
    cases hnone

/-- A removal that fails changes nothing. -/
theorem remove_error (h : remove p t = .error e u) : u = t := by
  cases hfind : t.find p with
  | error e' =>
    rw [remove, ask_bind_error hfind] at h
    cases h
    rfl
  | ok r =>
    obtain ⟨l, entry⟩ := r
    rw [remove, ask_bind_eq hfind] at h
    cases entry with
    | directory m =>
      cases h
      rfl
    | file c m => cases h

theorem remove_shrinks (p : Path) (t : FileTree) : Shrunk t (after (remove p) t) := by
  cases hop : remove p t with
  | ok x u =>
    obtain ⟨l, -, hdirs, hget⟩ := remove_ok hop
    simp only [after, hop]
    refine ⟨hdirs, fun k e hk => ?_⟩
    rw [hget] at hk
    split at hk
    · cases hk
    · exact hk
  | error e u => simpa only [after, hop, remove_error hop] using Shrunk.refl t

/-- Nothing is removed but what the path leads to. -/
theorem get?_after_remove {k : Location} (h : t.locate p ≠ .ok k) :
    (after (remove p) t).get? k = t.get? k := by
  cases hop : remove p t with
  | ok x u =>
    obtain ⟨l, hlocate, -, hget⟩ := remove_ok hop
    simp only [after, hop]
    exact (hget k).trans (if_neg fun heq : k = l => h (heq ▸ hlocate))
  | error e u => simp only [after, hop, remove_error hop]

/-- That is removed if it is a file, and stays if it is a directory. -/
theorem get?_after_remove_self {l : Location} {entry : Entry} (hslash : p.slash = false)
    (hlocate : t.locate p = .ok l) (hget : t.get? l = some entry) :
    (after (remove p) t).get? l = if entry.isDirectory then some entry else none := by
  cases entry with
  | directory m =>
    have hfind : t.find p = .ok (l, .directory m) := by simp [FileTree.find, hlocate, hget]
    have hop : remove p t = .error .isDirectory t := by
      rw [remove, ask_bind_eq hfind]
      rfl
    simp only [after, hop]
    exact hget
  | file c m =>
    obtain ⟨u, hop⟩ := remove_succeeds ⟨hslash, l, hlocate, FileTree.hasRoom_of_file hget⟩ hlocate hget
    obtain ⟨k, hk, -, hu⟩ := remove_ok hop
    cases hlocate.symm.trans hk
    simp only [after, hop]
    exact (hu l).trans (if_pos rfl)

/-- A directory is listed. -/
theorem list_eq {l : Location} {m : Nat} (hlocate : t.locate p = .ok l)
    (hget : t.get? l = some (.directory m)) : list p t = .ok (t.children l) t := by
  have hfind : t.find p = .ok (l, .directory m) := by simp [FileTree.find, hlocate, hget]
  rw [list, ask_bind_eq hfind]
  rfl

theorem list_keeps (p : Path) (t : FileTree) : after (list p) t = t := by
  unfold after
  cases hfind : t.find p with
  | error e => rw [list, ask_bind_error hfind]
  | ok r =>
    obtain ⟨l, entry⟩ := r
    rw [list, ask_bind_eq hfind]
    cases entry <;> rfl

theorem size_keeps (p : Path) (t : FileTree) : after (size p) t = t := by
  unfold after
  cases hfind : t.find p with
  | error e => rw [size, ask_bind_error hfind]
  | ok r =>
    obtain ⟨l, entry⟩ := r
    rw [size, ask_bind_eq hfind]
    cases entry <;> rfl

theorem after_bind {x : FileM α} {f : α → FileM β} {a : α} (h : x t = .ok a u) :
    after (x >>= f) t = after (f a) u := by
  simp only [after, bind_eq h]

/-! ## What operations keep -/

variable {R : FileTree → FileTree → Prop}

/-- Whether an operation takes every tree to one that it is related to, also when it fails. -/
def Respects (R : FileTree → FileTree → Prop) (op : FileM α) : Prop := ∀ t, R t (after op t)

theorem Respects.ok {op : FileM α} {a : α} (h : Respects R op) (hop : op t = .ok a u) : R t u := by
  simpa only [after, hop] using h t

theorem Respects.error {op : FileM α} (h : Respects R op) (hop : op t = .error e u) : R t u := by
  simpa only [after, hop] using h t

theorem respects_get_bind {f : FileTree → FileM α} (h : ∀ t, R t (after (f t) t)) :
    Respects R (get >>= f) := h

theorem respects_modify {f : FileTree → FileTree} (h : ∀ t, R t (f t)) :
    Respects R (modify f : FileM PUnit) := h

variable [IsPreorder FileTree R]

theorem Respects.of_after_eq {op : FileM α} (h : ∀ t, after op t = t) : Respects R op :=
  fun t => (h t).symm ▸ refl_of R t

theorem respects_pure (a : α) : Respects R (pure a : FileM α) := .of_after_eq fun _ => rfl

theorem respects_throw (e : FileError) : Respects R (throw e : FileM α) := .of_after_eq fun _ => rfl

theorem respects_ask (f : FileTree → Except FileError α) : Respects R (ask f) := by
  refine .of_after_eq fun t => ?_
  cases hf : f t with
  | ok a => simp only [after, ask_eq_ok hf]
  | error e => simp only [after, ask_eq_error hf]

theorem Respects.bind {x : FileM α} {f : α → FileM β} (hx : Respects R x)
    (hf : ∀ a, Respects R (f a)) : Respects R (x >>= f) := by
  intro t
  cases hop : x t with
  | ok a u =>
    rw [after_bind hop]
    exact trans_of R (hx.ok hop) (hf a u)
  | error e u => simpa only [after, bind_error hop] using hx.error hop

theorem Respects.tryCatch {x : FileM α} {f : FileError → FileM α} (hx : Respects R x)
    (hf : ∀ e, Respects R (f e)) : Respects R (MonadExcept.tryCatch x f) := by
  intro t
  cases hop : x t with
  | ok a u => simpa only [after, tryCatch_ok hop] using hx.ok hop
  | error e u =>
    have hafter : after (MonadExcept.tryCatch x f) t = after (f e) u := by
      simp only [after, tryCatch_error hop]
    rw [hafter]
    exact trans_of R (hx.error hop) (hf e u)

theorem Respects.attempt {op : FileM Unit} (h : Respects R op) : Respects R (attempt op) :=
  h.tryCatch fun _ => respects_pure ()

theorem Respects.result {op : FileM α} (h : Respects R op) : Respects R (result op) :=
  (h.bind fun a => respects_pure (Except.ok a)).tryCatch fun e => respects_pure (Except.error e)

theorem respects_update (hset : ∀ t l c m, R t (t.set l (.file c m))) (p : Path)
    (f : Content → Content) : Respects R (update p f) := by
  refine (respects_ask _).bind fun l => respects_get_bind fun t => ?_
  cases t.get? l with
  | none =>
    cases p.slash with
    | true => exact respects_throw _ t
    | false => exact hset t l _ _
  | some e =>
    cases e with
    | directory m => exact respects_throw _ t
    | file c m =>
      cases p.slash with
      | true => exact respects_throw _ t
      | false => exact hset t l _ _

theorem respects_read (p : Path) : Respects R (read p) := by
  refine (respects_ask _).bind fun ⟨l, e⟩ => ?_
  cases e with
  | directory m => exact respects_throw _
  | file c m => exact respects_pure _

theorem respects_remove (herase : ∀ t l, R t (t.erase l)) (p : Path) : Respects R (remove p) := by
  refine (respects_ask _).bind fun ⟨l, e⟩ => ?_
  cases e with
  | directory m => exact respects_throw _
  | file c m => exact respects_modify fun t => herase t l

theorem respects_rename (hset : ∀ t l c m, R t (t.set l (.file c m)))
    (herase : ∀ t l, R t (t.erase l)) (source target : Path) : Respects R (rename source target) := by
  refine (respects_ask _).bind fun ⟨l, e⟩ => ?_
  cases e with
  | directory m => exact respects_throw _
  | file c m =>
    refine (respects_ask _).bind fun k => respects_get_bind fun t => ?_
    have hmove : R t ((t.erase l).set k (.file c m)) := trans_of R (herase t l) (hset _ k c m)
    cases t.get? k with
    | none => exact hmove
    | some e =>
      cases e with
      | directory n => exact respects_throw _ t
      | file c' n => exact hmove

theorem respects_isFree (p : Path) : Respects R (isFree p) :=
  (respects_ask _).bind fun _ => respects_get_bind fun t => respects_pure _ t

theorem respects_forM {γ : Type} {f : γ → FileM Unit} (h : ∀ x, Respects R (f x)) (xs : List γ) :
    Respects R (xs.forM f) := by
  induction xs with
  | nil => exact respects_pure ()
  | cons x xs ih => exact (h x).bind fun _ => ih

/-- Whether a tree is a later one: the time has not gone back, and if no location had two entries, none
has. -/
def Later (t u : FileTree) : Prop := t.now ≤ u.now ∧ (t.Distinct → u.Distinct)

instance : IsPreorder FileTree Later where
  refl t := ⟨Nat.le_refl t.now, id⟩
  trans _ _ _ h h' := ⟨Nat.le_trans h.1 h'.1, fun ht => h'.2 (h.2 ht)⟩

theorem later_set (t : FileTree) (l : Location) (e : Entry) : Later t (t.set l e) :=
  ⟨Nat.le_succ t.now, fun h => h.set l e⟩

theorem later_erase (t : FileTree) (l : Location) : Later t (t.erase l) :=
  ⟨Nat.le_refl t.now, fun h => h.erase l⟩

end FileM

end RpcPool

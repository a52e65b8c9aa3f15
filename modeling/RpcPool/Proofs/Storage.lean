import Mathlib.Data.List.Induction
import RpcPool.Config.Storage
import RpcPool.Proofs.Saving
import RpcPool.Proofs.Trees

/-!
# What storing a configuration does to the files

Storing a configuration makes the directories that are missing on the way to its file and then replaces
the file, in one step: whatever fails, no file is lost. A standard configuration is stored only where
nothing is found at first. That protects every file, except where a path leads upwards out of a directory
that is missing: then it leads nowhere at first, and to a file once the directory has been made.

Results:
1. `locate_eq_target`: a path that leads anywhere leads to its target.
2. `makeParents_grows`: making directories adds directories and changes nothing else.
3. `saveTo_ok`, `saveTo_error`: what storing does, and what it does when it fails.
4. `exists_orderly`: every configuration has its attributes in order, up to that order.
5. `stored_faithful`: what is stored is loaded again, and which files are kept.
-/

namespace RpcPool

/-- Where a path leads if all directories on the way are there. -/
def Path.target (p : Path) : Location :=
  p.parts.foldl (fun here name => if name = ".." then here.dropLast else here ++ [name]) []

namespace FileTree

/-! ## Targets -/

theorem walk_eq_target {t : FileTree} {here l : Location} {parts : List String}
    (h : t.walk here parts = .ok l) :
    l = parts.foldl (fun here name => if name = ".." then here.dropLast else here ++ [name]) here := by
  induction parts generalizing here with
  | nil =>
    cases h
    rfl
  | cons name rest ih =>
    rw [List.foldl_cons]
    by_cases hname : name = ".."
    · subst hname
      rw [walk_up] at h
      exact ih h
    · rw [if_neg hname]
      rw [walk_name hname] at h
      obtain ⟨-, ⟨rfl, rfl⟩ | ⟨-, -, hrest⟩⟩ := h
      · rfl
      · exact ih hrest

theorem locate_eq_target {t : FileTree} {p : Path} {l : Location} (h : t.locate p = .ok l) :
    l = p.target := walk_eq_target (locate_eq_walk h)

theorem foldl_names {names : List String} (h : ".." ∉ names) (here : Location) :
    names.foldl (fun here name => if name = ".." then here.dropLast else here ++ [name]) here =
      here ++ names := by
  induction names generalizing here with
  | nil => exact (List.append_nil here).symm
  | cons name names ih =>
    simp only [List.mem_cons, not_or] at h
    rw [List.foldl_cons, if_neg (Ne.symm h.1), ih h.2, List.append_assoc]
    rfl

/-- Whether every entry is in a directory. -/
def Rooted (t : FileTree) : Prop :=
  ∀ l name e, t.get? (l ++ [name]) = some e → ∃ m, t.get? l = some (.directory m)

/-- In a rooted tree, all that is above an entry is a directory. -/
theorem Rooted.above {t : FileTree} (h : t.Rooted) {l : Location} {more : List String} {e : Entry}
    (hget : t.get? (l ++ more) = some e) (hmore : more ≠ []) : ∃ m, t.get? l = some (.directory m) := by
  induction more using List.reverseRecOn generalizing e with
  | nil => exact absurd rfl hmore
  | append_singleton more name ih =>
    rw [← List.append_assoc] at hget
    obtain ⟨m, hdir⟩ := h _ _ _ hget
    cases more with
    | nil => exact ⟨m, by rwa [List.append_nil] at hdir⟩
    | cons first rest => exact ih hdir (List.cons_ne_nil first rest)

/-- Without steps upwards, a path leads to an entry of a rooted tree if it leads there in any tree. -/
theorem Rooted.walk {t u : FileTree} (h : t.Rooted) {here l : Location} {parts : List String}
    (hparts : ".." ∉ parts) (hwalk : u.walk here parts = .ok l) {e : Entry} (hget : t.get? l = some e) :
    t.walk here parts = .ok l := by
  induction parts generalizing here with
  | nil => exact hwalk
  | cons name rest ih =>
    simp only [List.mem_cons, not_or] at hparts
    have hname : name ≠ ".." := Ne.symm hparts.1
    rw [walk_name hname] at hwalk ⊢
    obtain ⟨hlimit, hlast | ⟨hne, -, hrest⟩⟩ := hwalk
    · exact ⟨hlimit, Or.inl hlast⟩
    · refine ⟨hlimit, Or.inr ⟨hne, ?_, ih hparts.2 hrest⟩⟩
      rw [walk_eq_target hrest, foldl_names hparts.2] at hget
      exact h.above hget hne

/-! ## Growth -/

/-- Whether a tree has become another by directories that were added. -/
def Grown (t u : FileTree) : Prop :=
  ∀ l, u.get? l = t.get? l ∨ t.get? l = none ∧ ∃ m, u.get? l = some (.directory m)

instance : IsPreorder FileTree Grown where
  refl _ _ := Or.inl rfl
  trans t u v h h' l := by
    rcases h' l with heq | ⟨hnone, hdir⟩
    · rw [heq]
      exact h l
    · rcases h l with heq | ⟨-, m, hsome⟩
      · exact Or.inr ⟨heq ▸ hnone, hdir⟩
      · rw [hsome] at hnone
        cases hnone

/-- Whether two trees have the same file at a location, or none. -/
def SameFileAt (l : Location) (t u : FileTree) : Prop :=
  ∀ c m, u.get? l = some (.file c m) ↔ t.get? l = some (.file c m)

/-- No file is touched. -/
theorem Grown.file {t u : FileTree} (h : Grown t u) (l : Location) : SameFileAt l t u := by
  intro c m
  rcases h l with heq | ⟨hnone, n, hdir⟩
  · rw [heq]
  · rw [hnone, hdir]
    simp

end FileTree

namespace FileM

open FileTree

variable {t u : FileTree} {p : Path}

theorem makeDirectory_grows (p : Path) : Respects Grown (makeDirectory p) := by
  refine (respects_ask _).bind fun l => respects_get_bind fun t => ?_
  cases hget : t.get? l with
  | some e => exact refl_of Grown t
  | none =>
    intro k
    have hne : l ≠ [] := (hasRoom_of_none hget).ne_nil
    have hset := get?_set t hne (.directory t.now) k
    by_cases heq : k = l
    · subst heq
      exact Or.inr ⟨hget, t.now, hset.trans (if_pos rfl)⟩
    · exact Or.inl (hset.trans (if_neg heq))

theorem ensureDirectory_grows (p : Path) : Respects Grown (ensureDirectory p) := by
  refine (makeDirectory_grows p).tryCatch fun e => respects_get_bind fun t => ?_
  by_cases hdir : t.isDirectory p <;> simp only [hdir, if_true] <;> exact refl_of Grown t

theorem makeDirectories_grows (names : List String) : Respects Grown (makeDirectories names) := by
  induction names with
  | nil => exact respects_pure ()
  | cons name above ih =>
    refine (ensureDirectory_grows _).tryCatch fun e => ?_
    by_cases hmissing : e = .notFound
    · rw [if_pos hmissing]
      exact ih.bind fun _ => ensureDirectory_grows _
    · rw [if_neg hmissing]
      exact respects_throw e

theorem makeParents_grows (p : Path) : Respects Grown (makeParents p) := by
  unfold makeParents
  split
  · exact respects_pure ()
  · exact makeDirectories_grows _

/-- Only a path without a slash at its end leads to a file. -/
theorem update_slash {f : Content → Content} {x : Unit} (h : update p f t = .ok x u) :
    p.slash = false := by
  obtain ⟨l, -, hrest⟩ := ask_bind_ok h
  have hlast := get_bind_ok hrest
  rw [Bool.eq_false_iff]
  intro hslash
  cases hget : t.get? l with
  | none => simp only [hget, hslash, if_true] at hlast; cases hlast
  | some e =>
    cases e with
    | directory m => simp only [hget] at hlast; cases hlast
    | file c m => simp only [hget, hslash, if_true] at hlast; cases hlast

end FileM

namespace Config

open FileTree FileM

variable {t u : FileTree} {path : Path}

/-! ## Storing -/

theorem onFile_ok {α : Type} {op : FileM α} {a : α} (h : onFile path op t = .ok a u) :
    op t = .ok a u := by
  unfold onFile at h
  split at h
  · next hop =>
    cases h
    exact hop
  · cases h

theorem onFile_error {α : Type} {op : FileM α} {e : ConfigError} (h : onFile path op t = .error e u) :
    ∃ cause, e = .file path cause ∧ op t = .error cause u := by
  unfold onFile at h
  split at h
  · cases h
  · next cause _ hop =>
    cases h
    exact ⟨cause, rfl, hop⟩

/-- Storing a configuration makes directories and then puts its text into the file that the path leads to
by then. -/
theorem saveTo_ok {c : Config} {x : Unit} (h : c.saveTo path t = .ok x u) :
    path.slash = false ∧ ∃ v m, Grown t v ∧ v.locate path = .ok path.target ∧
      SameDirectories v u ∧ ∀ k, u.get? k =
        if k = path.target then some (.file (.ofText c.toToml) m) else v.get? k := by
  obtain ⟨_, v, hparents, hwrite⟩ := bind_ok (onFile_ok h)
  have hgrown := (makeParents_grows path).ok hparents
  obtain ⟨l, hplace, -, hdirs, m, hget⟩ := update_ok hwrite
  obtain rfl := locate_eq_target hplace
  exact ⟨update_slash hwrite, v, m, hgrown, hplace, hdirs, hget⟩

/-- Where storing fails, that is because of the files, and only directories have been added. -/
theorem saveTo_error {c : Config} {e : ConfigError} (h : c.saveTo path t = .error e u) :
    (∃ cause, e = .file path cause) ∧ Grown t u := by
  obtain ⟨cause, rfl, hop⟩ := onFile_error h
  refine ⟨⟨cause, rfl⟩, ?_⟩
  cases hparents : makeParents path t with
  | error e v =>
    rw [bind_error hparents] at hop
    cases hop
    exact (makeParents_grows path).error hparents
  | ok x v =>
    rw [bind_eq hparents] at hop
    cases update_error hop
    exact (makeParents_grows path).ok hparents

/-! ## Loading what is stored -/

theorem text?_ofText (text : String) : (Content.ofText text).text? = some text := by
  rw [Content.text?, Content.ofText, Content.ofBytes, Content.bytes, List.foldr_cons, List.foldr_nil,
    ByteArray.empty_append]
  exact dif_pos text.isValidUTF8

theorem loadFrom_eq {text : String} {c : Config} {l : Location} {m : Nat} (hfits : t.Fits path)
    (hplace : t.locate path = .ok l) (hget : t.get? l = some (.file (.ofText text) m))
    (hc : ofToml text = .ok c) : loadFrom path t = .ok c t := by
  have hread : FileM.readText path t = .ok text t := by
    rw [FileM.readText, bind_eq (read_succeeds hfits hplace hget)]
    simp only [text?_ofText]
    rfl
  simp only [loadFrom, bind, EStateM.bind, onFile, hread, hc]
  rfl

theorem loadFrom_saveTo {c c' : Config} {x : Unit} (h : c'.saveTo path t = .ok x u)
    (hc : ofToml c'.toToml = .ok c) : loadFrom path u = .ok c u := by
  obtain ⟨hslash, v, m, -, hplace, hdirs, hget⟩ := saveTo_ok h
  have hplace' := locate_congr hdirs hplace
  have hfile := (hget path.target).trans (if_pos rfl)
  exact loadFrom_eq ⟨hslash, path.target, hplace', hasRoom_of_file hfile⟩ hplace' hfile hc

/-- The entry with its attributes in order. -/
def Entry.ordered (e : Entry) : Entry :=
  { e with attributes := e.attributes.mergeSort fun a b => a.1 ≤ b.1 }

theorem Entry.ordered_reordered (e : Entry) : e.ordered.Reordered e :=
  ⟨rfl, (List.mergeSort_perm e.attributes _).symm⟩

theorem Entry.orderly_ordered {e : Entry} (h : (e.attributes.map (·.1)).Nodup) : e.ordered.Orderly := by
  have hsorted : e.ordered.attributes.Pairwise fun a b => decide (a.1 ≤ b.1) = true :=
    List.pairwise_mergeSort
      (fun a b c hab hbc => by
        simp only [decide_eq_true_eq] at hab hbc ⊢
        exact String.le_trans hab hbc)
      (fun a b => by
        simp only [Bool.or_eq_true, decide_eq_true_eq]
        exact String.le_total a.1 b.1) e.attributes
  have hdistinct : e.ordered.attributes.Pairwise fun a b => a.1 ≠ b.1 :=
    List.pairwise_map.mp ((e.ordered_reordered.attributes.map _).nodup_iff.mp h)
  exact (hsorted.and hdistinct).imp fun hab => Std.lt_of_le_of_ne (of_decide_eq_true hab.1) hab.2

/-- A configuration whose attributes have distinct keys has them in order, up to that order. -/
theorem exists_orderly {c : Config} (h : ∀ e ∈ c.connections, (e.attributes.map (·.1)).Nodup) :
    ∃ c' : Config, (∀ e ∈ c'.connections, e.Orderly) ∧ c'.Reordered c := by
  refine ⟨{ c with connections := c.connections.map Entry.ordered }, fun e he => ?_, rfl, ?_⟩
  · obtain ⟨e', he', rfl⟩ := List.mem_map.mp he
    exact Entry.orderly_ordered (h e' he')
  · exact List.forall₂_map_left_iff.mpr (List.forall₂_same.mpr fun e _ => e.ordered_reordered)

/-! ## Which files are kept -/

theorem initAt_eq (path : Path) (t : FileTree) : initAt path t =
    if t.exists? path then .ok false t
    else match standard.saveTo path t with
      | .ok _ u => .ok true u
      | .error e u => .error e u := by
  have hget : initAt path t = (if t.exists? path then pure false
      else standard.saveTo path >>= fun _ => pure true : StorageM Bool) t := rfl
  rw [hget]
  cases t.exists? path with
  | true => rfl
  | false =>
    simp only [Bool.false_eq_true, if_false, bind, EStateM.bind]
    cases standard.saveTo path t <;> rfl

theorem initAt_false (h : initAt path t = .ok false u) : u = t := by
  rw [initAt_eq] at h
  split at h
  · cases h
    rfl
  · split at h <;> cases h

theorem initAt_true (h : initAt path t = .ok true u) :
    t.exists? path = false ∧ standard.saveTo path t = .ok () u := by
  rw [initAt_eq] at h
  split at h
  · cases h
  · next hfound =>
    split at h
    · next hsave =>
      cases h
      exact ⟨Bool.eq_false_iff.mpr hfound, hsave⟩
    · cases h

theorem initAt_error {e : ConfigError} (h : initAt path t = .error e u) :
    standard.saveTo path t = .error e u := by
  rw [initAt_eq] at h
  split at h
  · cases h
  · split at h
    · cases h
    · next hsave =>
      cases h
      exact hsave

theorem saveTo_keeps {c : Config} {x : Unit} (h : c.saveTo path t = .ok x u) {l : Location}
    (hl : l ≠ path.target) : SameFileAt l t u := by
  obtain ⟨-, v, m, hgrown, -, -, hget⟩ := saveTo_ok h
  intro content n
  rw [hget l, if_neg hl]
  exact hgrown.file l content n

/-- A file that a standard configuration replaces is one that the path does not lead to at first. In a
rooted tree, the path has steps upwards then. -/
theorem initAt_replaces (h : initAt path t = .ok true u) {content : Content} {m : Nat}
    (hget : t.get? path.target = some (.file content m)) :
    (∃ e, t.locate path = .error e) ∧ (t.Rooted → ".." ∈ path.parts) := by
  obtain ⟨hmissing, hsave⟩ := initAt_true h
  obtain ⟨hslash, v, -, -, hplace, -⟩ := saveTo_ok hsave
  have hnowhere {l : Location} (hl : t.locate path = .ok l) : False := by
    obtain rfl := locate_eq_target hl
    have hfind := find_file ⟨hslash, path.target, hl, hasRoom_of_file hget⟩ hl hget
    rw [FileTree.exists?, hfind] at hmissing
    cases hmissing
  constructor
  · cases hl : t.locate path with
    | ok l => exact (hnowhere hl).elim
    | error e => exact ⟨e, rfl⟩
  · intro hrooted
    by_contra hnames
    exact hnowhere (locate_of_walk hplace (hrooted.walk hnames (locate_eq_walk hplace) hget))

/-- What storing a configuration does. Where it succeeds, the same configuration is loaded again, up to the
order of attributes, and every other file is kept. Where it fails, that is because of the files, never
because of the configuration, and every file is kept. A standard configuration leaves everything as it is
where something is found at the path, and is loaded again where it is stored. It replaces a file only if
the path did not lead anywhere at first, and in a rooted tree only if it has steps upwards. -/
theorem stored_faithful (t : FileTree) (path : Path) :
    (∀ (c : Config) u, (∀ e ∈ c.connections, (e.attributes.map (·.1)).Nodup) →
      c.saveTo path t = .ok () u →
        (∃ c', loadFrom path u = .ok c' u ∧ c'.Reordered c) ∧
          ∀ l ≠ path.target, SameFileAt l t u) ∧
    (∀ (c : Config) e u, c.saveTo path t = .error e u →
      (∃ cause, e = .file path cause) ∧ ∀ l, SameFileAt l t u) ∧
    (∀ u, initAt path t = .ok false u → u = t) ∧
    (∀ e u, initAt path t = .error e u → ∀ l, SameFileAt l t u) ∧
    ∀ u, initAt path t = .ok true u →
      loadFrom path u = .ok standard u ∧ (∀ l ≠ path.target, SameFileAt l t u) ∧
        ∀ content m, t.get? path.target = some (.file content m) →
          (∃ e, t.locate path = .error e) ∧ (t.Rooted → ".." ∈ path.parts) := by
  refine ⟨fun c u hkeys hsave => ⟨?_, fun l hl => saveTo_keeps hsave hl⟩,
    fun c e u hsave => ⟨(saveTo_error hsave).1, (saveTo_error hsave).2.file⟩,
    fun u h => initAt_false h, fun e u h => (saveTo_error (initAt_error h)).2.file,
    fun u h => ⟨?_, fun l hl => saveTo_keeps (initAt_true h).2 hl,
      fun content m hget => initAt_replaces h hget⟩⟩
  · obtain ⟨c', horderly, hreordered⟩ := exists_orderly hkeys
    exact ⟨c', loadFrom_saveTo hsave (ofToml_toToml horderly hreordered), hreordered⟩
  · have hstandard : ∀ e ∈ standard.connections, e.Orderly := by
      simp [standard, Entry.Orderly, Data.Ascending]
    exact loadFrom_saveTo (initAt_true h).2 (ofToml_toToml hstandard (.refl standard))

/-- One file, and nothing else. -/
def lonelyFile : FileTree := ⟨[(["f"], .file (.ofText "x") 0)], [], 1⟩

theorem lonelyFile_rooted : lonelyFile.Rooted := by
  intro l name e hget
  cases l with
  | nil => exact ⟨0, lonelyFile.get?_nil⟩
  | cons first rest => simp [lonelyFile, FileTree.get?, lookup_cons_if] at hget

/-- A file is found, one is in the way, one is made in a directory that is missing, and one is replaced by
way of a directory that is missing. -/
theorem lonelyFile_replaced :
    (∃ u, standard.saveTo (.ofText "d/c") lonelyFile = .ok () u ∧
      ∃ c', loadFrom (.ofText "d/c") u = .ok c' u ∧ c'.Reordered standard) ∧
    (∃ e u, standard.saveTo (.ofText "f/g") lonelyFile = .error e u ∧ SameFileAt ["f"] lonelyFile u) ∧
    initAt (.ofText "f") lonelyFile = .ok false lonelyFile ∧ lonelyFile.Rooted ∧
    lonelyFile.get? ["f"] = some (.file (.ofText "x") 0) ∧
    ∃ u, initAt (.ofText "missing/../f") lonelyFile = .ok true u ∧
      loadFrom (.ofText "missing/../f") u = .ok standard u ∧
      u.get? ["f"] = some (.file (.ofText standard.toToml) 2) ∧
      ".." ∈ (Path.ofText "missing/../f").parts := by
  have hkeys : ∀ e ∈ standard.connections, (e.attributes.map (·.1)).Nodup := by
    simp [standard]
  obtain ⟨u, hsave⟩ : ∃ u, standard.saveTo (.ofText "d/c") lonelyFile = .ok () u := ⟨_, rfl⟩
  obtain ⟨e, v, hfail⟩ : ∃ e v, standard.saveTo (.ofText "f/g") lonelyFile = .error e v :=
    ⟨_, _, rfl⟩
  obtain ⟨w, hinit, hfile⟩ : ∃ w, initAt (.ofText "missing/../f") lonelyFile = .ok true w ∧
      w.get? ["f"] = some (.file (.ofText standard.toToml) 2) := ⟨_, rfl, rfl⟩
  have hsaved := ((stored_faithful lonelyFile (.ofText "d/c")).1 standard u hkeys hsave).1
  have hkept := ((stored_faithful lonelyFile (.ofText "f/g")).2.1 standard e v hfail).2 ["f"]
  obtain ⟨hload, -, hreplaced⟩ :=
    (stored_faithful lonelyFile (.ofText "missing/../f")).2.2.2.2 w hinit
  exact ⟨⟨u, hsave, hsaved⟩, ⟨e, v, hfail, hkept⟩, rfl, lonelyFile_rooted, rfl,
    w, hinit, hload, hfile, (hreplaced _ _ rfl).2 lonelyFile_rooted⟩

end Config

end RpcPool

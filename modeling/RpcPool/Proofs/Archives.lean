import Mathlib.Data.List.Perm.Subperm
import RpcPool.Proofs.Rotation

/-!
# Which archives are kept

After a rotation the logger removes what goes beyond the newest archives. It tells archives by their
names, so a directory of such a name counts among them, but it cannot be removed; and of entries with
the same time it is the listing that decides. What is left is nevertheless bounded, and the newest,
provided that the path of the log file says in which directory it is. If the path is a name alone, no
directory is listed and nothing is ever removed.

Results:
1. `exists_kept`: what is outdated is no newer than the rest, of which there is a bounded number.
2. `removals_self`, `removals_others`: removing entries of a directory removes its files among them.
3. `rotate_leaves`: the archives after a rotation, as those that were kept and directories.
4. `rotate_bare_keeps`: with a name alone, all archives stay.
5. `rotate_keeps_newest`: how many there are, which have gone, and that nothing else has changed.
-/

namespace RpcPool

namespace Logger

open Log

variable {l : Logger} {t u v w : FileTree} {time name : String} {base place archive : Location} {n : Nat}

/-! ## What is outdated -/

/-- The entries that are not outdated: of what there is they are the newest, as many as are kept. -/
theorem exists_kept (archives : List (String × Entry)) :
    ∃ kept, (outdated archives ++ kept).Perm archives ∧ kept.length ≤ archivesKept ∧
      (outdated archives ≠ [] → kept.length = archivesKept) ∧
      ∀ a ∈ outdated archives, ∀ b ∈ kept, a.2.modified ≤ b.2.modified := by
  let sorted := archives.mergeSort fun a b => a.2.modified ≤ b.2.modified
  have hperm : sorted.Perm archives := List.mergeSort_perm archives _
  have hlength : sorted.length = archives.length := hperm.length_eq
  have hout : outdated archives = sorted.take (archives.length - archivesKept) := rfl
  have hsorted : sorted.Pairwise fun a b => a.2.modified ≤ b.2.modified := by
    have hpairwise : sorted.Pairwise fun a b => decide (a.2.modified ≤ b.2.modified) = true :=
      List.pairwise_mergeSort
        (fun a b c hab hbc => by simp only [decide_eq_true_eq] at *; omega)
        (fun a b => by simp only [Bool.or_eq_true, decide_eq_true_eq]; omega) archives
    exact hpairwise.imp of_decide_eq_true
  refine ⟨sorted.drop (archives.length - archivesKept), ?_, ?_, fun hsome => ?_, ?_⟩
  · rw [hout, List.take_append_drop]
    exact hperm
  · rw [List.length_drop, hlength]
    omega
  · have hpos : archives.length - archivesKept ≠ 0 := fun hzero => hsome (by rw [hout, hzero]; rfl)
    rw [List.length_drop, hlength]
    omega
  · rw [← List.take_append_drop (archives.length - archivesKept) sorted, List.pairwise_append] at hsorted
    exact hsorted.2.2

/-! ## The directory of the log file -/

/-- The entries of a directory that have the name of an archive. -/
def archivesIn (l : Logger) (base : Location) (t : FileTree) : List (String × Entry) :=
  (t.children base).filter fun e => isArchive l.stem e.1

theorem mem_archivesIn (h : t.Distinct) {e : String × Entry} :
    e ∈ l.archivesIn base t ↔ isArchive l.stem e.1 = true ∧ t.get? (base ++ [e.1]) = some e.2 := by
  rw [archivesIn, List.mem_filter, FileTree.mem_children h, and_comm]

theorem archivesIn_nodup (h : t.Distinct) : (l.archivesIn base t).Nodup :=
  (FileTree.children_nodup h base).filter _

theorem isArchive_last {stem name : String} (h : isArchive stem name = true) :
    name.toList.getLast? = some 'z' := by
  obtain ⟨before, hsuffix⟩ := List.isSuffixOf_iff_suffix.mp (Bool.and_eq_true_iff.mp h).2
  rw [← hsuffix, List.getLast?_append]
  rfl

theorem isArchive_archiveName {above : List String} (h : l.IsAt above name) (time : String) :
    isArchive l.stem (archiveName name time) = true := by
  rw [isArchive, stem_of_isAt h, Bool.and_eq_true]
  refine ⟨List.isPrefixOf_iff_prefix.mpr ⟨time.toList ++ ['.', 'g', 'z'], ?_⟩,
    List.isSuffixOf_iff_suffix.mpr ⟨Path.stemOf name.toList ++ '.' :: time.toList, ?_⟩⟩
  · simp [archiveName_toList]
  · simp [archiveName_toList]

/-- What is known of a logger whose log file is called `name` in the directory at `base`. -/
structure Lies (l : Logger) (above : List String) (name : String) (base : Location) (t : FileTree) :
    Prop extends IsAt l above name where
  no_nul : ∀ part ∈ above, Char.ofNat 0 ∉ part.toList
  walk : t.walk [] above = .ok base
  directory : ∃ m, t.get? base = some (.directory m)

theorem exists_lies {text : String} (hpath : l.path = .ofText text)
    (hat : t.locate l.path = .ok (base ++ [name])) (hroom : t.HasRoom (base ++ [name])) :
    ∃ above, l.Lies above name base t := by
  obtain ⟨above, last, h⟩ := isAt_of_locate hpath hat hroom
  obtain ⟨-, hnul, base', hwalk, hdir, -, heq⟩ := (FileTree.locate_concat h.parts h.ne_up).mp hat
  obtain ⟨rfl, hlast⟩ := List.append_inj' heq rfl
  cases hlast
  refine ⟨above, h, fun part hpart hc => ?_, hwalk, hdir⟩
  have hparts : part ∈ (Path.ofText text).parts := by simp [← hpath, h.parts, hpart]
  rw [hpath] at hnul
  exact hnul (Path.mem_text_of_mem_parts hparts hc)

theorem Lies.congr {above : List String} (h : l.Lies above name base t)
    (hdirs : FileTree.SameDirectories t u) : l.Lies above name base u := by
  obtain ⟨m, hdir⟩ := h.directory
  exact ⟨h.toIsAt, h.no_nul, FileTree.walk_congr hdirs h.walk, m, (hdirs _ m).mp hdir⟩

theorem Lies.nul_notMem {above : List String} (h : l.Lies above name base t) :
    Char.ofNat 0 ∉ Path.slashed above := by
  intro hmem
  rcases Path.mem_slashed hmem with hslash | ⟨part, hpart, hc⟩
  · exact absurd hslash (by decide)
  · exact h.no_nul part hpart hc

theorem Lies.locate_directory {above : List String} (h : l.Lies above name base t)
    (hbare : l.path.isBare = false) : t.locate l.directory = .ok base := by
  have hne : ¬ (Path.ofParts above).text.toList.isEmpty = true := by
    simp [Path.ofParts]
  have htext : Char.ofNat 0 ∉ (Path.ofParts above).text.toList := by
    intro hmem
    rcases above.eq_nil_or_concat with rfl | ⟨before, last, rfl⟩
    · exact absurd hmem (by decide)
    · rw [List.concat_eq_append] at h hmem
      rw [Path.ofParts, String.toList_append, Path.intercalate_concat] at hmem
      have hnul := h.nul_notMem
      simp only [Path.slashed, List.flatMap_append, List.mem_append, List.flatMap_singleton] at hnul hmem
      rcases hmem with hmem | hmem | hmem
      · exact absurd hmem (by decide)
      · exact hnul (Or.inl hmem)
      · exact hnul (Or.inr (Or.inl hmem))
  rw [directory_eq h.toIsAt hbare, FileTree.locate, if_neg hne, if_neg (by simpa using htext)]
  exact h.walk

/-- A name in the directory leads to its place. -/
theorem Lies.locate_join {above : List String} (h : l.Lies above name base t)
    (hbare : l.path.isBare = false) {b : String} (hb : Path.IsFileName b) :
    (l.directory.join b).slash = false ∧ t.locate (l.directory.join b) = .ok (base ++ [b]) := by
  rw [directory_eq h.toIsAt hbare]
  refine ⟨Path.join_slash h.above_names hb.is_name, ?_⟩
  refine (FileTree.locate_concat (Path.join_parts h.above_names hb.is_name) hb.ne_up).mpr
    ⟨?_, ?_, base, h.walk, h.directory, Nat.not_lt.mpr hb.fits, rfl⟩
  · rw [Path.join_eq h.above_names, Path.ofText, String.toList_ofList]
    exact List.cons_ne_nil _ _
  · rw [Path.join_eq h.above_names, Path.ofText, String.toList_ofList, List.mem_cons,
      List.mem_append, not_or, not_or]
    exact ⟨by decide, h.nul_notMem, hb.no_nul⟩

/-- Other files of the logger are beside the log file. -/
theorem Lies.locate_beside {above : List String} (h : l.Lies above name base t) {extension : String}
    {c : Char} (hlast : extension.toList.getLast? = some c) (hc : c ≠ '.') {k : Location}
    (hk : t.locate (l.path.withExtension extension) = .ok k) : k = base ++ [besideName name extension] := by
  obtain ⟨-, -, base', hwalk, -, -, rfl⟩ := (FileTree.locate_concat (withExtension_parts h.toIsAt extension)
    (besideName_ne_up name hlast hc)).mp hk
  cases h.walk.symm.trans hwalk
  rfl

/-! ## Removals -/

/-- Entries of the directory that can be told to be removed. -/
def Removable (l : Logger) (base : Location) (t : FileTree) (entries : List (String × Entry)) : Prop :=
  ∀ e ∈ entries, (l.directory.join e.1).slash = false ∧
    t.locate (l.directory.join e.1) = .ok (base ++ [e.1]) ∧ t.get? (base ++ [e.1]) = some e.2

theorem Removable.functional {entries : List (String × Entry)} (h : l.Removable base t entries)
    {e k : String × Entry} (he : e ∈ entries) (hk : k ∈ entries) (heq : e.1 = k.1) : e = k := by
  have hget := (h e he).2.2
  rw [heq, (h k hk).2.2] at hget
  exact Prod.ext heq (Option.some.inj hget).symm

/-- Removes entries of the directory. What cannot be removed stays. -/
def removals (l : Logger) (entries : List (String × Entry)) : FileM Unit :=
  entries.forM fun e => FileM.attempt (FileM.remove (l.directory.join e.1))

theorem after_removals_cons (e : String × Entry) (entries : List (String × Entry)) (t : FileTree) :
    FileM.after (l.removals (e :: entries)) t =
      FileM.after (l.removals entries) (FileM.after (FileM.remove (l.directory.join e.1)) t) :=
  FileM.after_bind (FileM.attempt_eq _ t)

theorem Removable.others {e : String × Entry} {entries : List (String × Entry)}
    (h : l.Removable base t (e :: entries)) (hnodup : (e :: entries).Nodup) {k : String × Entry}
    (hk : k ∈ entries) : base ++ [k.1] ≠ base ++ [e.1] := by
  intro heq
  have hname : k.1 = e.1 := (List.cons.inj (List.append_cancel_left heq)).1
  have hsame := h.functional (List.mem_cons_of_mem e hk) List.mem_cons_self hname
  exact (List.nodup_cons.mp hnodup).1 (hsame ▸ hk)

/-- One removal leaves the other entries where they are. -/
theorem Removable.tail {e : String × Entry} {entries : List (String × Entry)}
    (h : l.Removable base t (e :: entries)) (hnodup : (e :: entries).Nodup) :
    l.Removable base (FileM.after (FileM.remove (l.directory.join e.1)) t) entries := by
  intro k hk
  obtain ⟨hslash, hlocate, hget⟩ := h k (List.mem_cons_of_mem e hk)
  have hdirs := (FileM.remove_shrinks (l.directory.join e.1) t).1
  refine ⟨hslash, FileTree.locate_congr hdirs hlocate, ?_⟩
  rw [FileM.get?_after_remove, hget]
  rw [(h e List.mem_cons_self).2.1]
  exact fun heq => h.others hnodup hk (Except.ok.inj heq).symm

/-- Nothing but these entries is removed. -/
theorem removals_others {entries : List (String × Entry)} (h : l.Removable base t entries)
    (hnodup : entries.Nodup) {k : Location} (hk : ∀ e ∈ entries, k ≠ base ++ [e.1]) :
    (FileM.after (l.removals entries) t).get? k = t.get? k := by
  induction entries generalizing t with
  | nil => rfl
  | cons e entries ih =>
    rw [after_removals_cons, ih (h.tail hnodup) (List.nodup_cons.mp hnodup).2
      fun x hx => hk x (List.mem_cons_of_mem e hx), FileM.get?_after_remove]
    rw [(h e List.mem_cons_self).2.1]
    exact fun heq => hk e List.mem_cons_self (Except.ok.inj heq).symm

/-- Of these, files are removed and directories stay. -/
theorem removals_self {entries : List (String × Entry)} (h : l.Removable base t entries)
    (hnodup : entries.Nodup) {e : String × Entry} (he : e ∈ entries) :
    (FileM.after (l.removals entries) t).get? (base ++ [e.1]) =
      if e.2.isDirectory then some e.2 else none := by
  induction entries generalizing t with
  | nil => cases he
  | cons first entries ih =>
    rw [after_removals_cons]
    rcases List.mem_cons.mp he with rfl | he
    · obtain ⟨hslash, hlocate, hget⟩ := h e List.mem_cons_self
      rw [removals_others (h.tail hnodup) (List.nodup_cons.mp hnodup).2
        fun x hx => Ne.symm (h.others hnodup hx)]
      exact FileM.get?_after_remove_self hslash hlocate hget
    · exact ih (h.tail hnodup) (List.nodup_cons.mp hnodup).2 he

/-- The logger removes what is outdated among its archives. -/
theorem after_prune {above : List String} (h : l.Lies above name base t)
    (hbare : l.path.isBare = false) :
    FileM.after l.prune t = FileM.after (l.removals (outdated (l.archivesIn base t))) t := by
  obtain ⟨m, hdir⟩ := h.directory
  rw [prune, FileM.after_bind (FileM.list_eq (h.locate_directory hbare) hdir)]
  rfl

/-- If the path of the log file is a name alone, it does not know where its archives are. -/
theorem after_prune_bare (hbare : l.path.isBare = true) (t : FileTree) :
    FileM.after l.prune t = t := by
  unfold prune
  rw [directory_bare hbare]
  rfl

/-! ## What storing adds -/

/-- The archives there were before a rotation: all entries with the name of an archive, but for the log
file, which is moved, and for one with the name of the new archive, which is replaced. -/
def older (l : Logger) (base : Location) (name time : String) (t : FileTree) : List (String × Entry) :=
  (l.archivesIn base t).filter fun e => e.1 != name && e.1 != archiveName name time

theorem mem_older (h : t.Distinct) {e : String × Entry} :
    e ∈ l.older base name time t ↔ isArchive l.stem e.1 = true ∧ t.get? (base ++ [e.1]) = some e.2 ∧
      e.1 ≠ name ∧ e.1 ≠ archiveName name time := by
  rw [older, List.mem_filter, mem_archivesIn h, Bool.and_eq_true, bne_iff_ne, bne_iff_ne, and_assoc]

theorem isArchive_apart {b extension : String} {c : Char} (hb : isArchive l.stem b = true)
    (hlast : extension.toList.getLast? = some c) (hc : c ≠ 'z') :
    base ++ [b] ≠ base ++ [besideName name extension] := by
  intro heq
  have hname : b = besideName name extension := (List.cons.inj (List.append_cancel_left heq)).1
  have hz := isArchive_last hb
  rw [hname, besideName_last name hlast] at hz
  exact hc (Option.some.inj hz)

/-- Storing touches the log file, the archive and the files that come and go with them, and nothing
else. -/
theorem stored_others {above : List String} (h : l.Lies above name base t)
    (hclaims : l.claims t = .ok true v) (hmoved : l.Moved time v w (base ++ [name]) archive n)
    {k : Location} (harchive : k ≠ archive) (hlog : k ≠ base ++ [name])
    (hlock : k ≠ base ++ [besideName name "lock"])
    (hrotating : k ≠ base ++ [besideName name "rotating"]) : w.get? k = t.get? k := by
  obtain ⟨lock, hat, hframe⟩ := claims_frame hclaims
  have hlies := h.congr (claims_ok hclaims).1
  rw [hmoved.others k harchive hlog fun heq =>
    hrotating (hlies.locate_beside (c := 'g') rfl (by decide) heq)]
  refine hframe k fun heq => hlock ?_
  rw [heq]
  exact h.locate_beside (c := 'k') rfl (by decide) hat

/-- Then there are the older archives and the new one. -/
theorem mem_stored {above : List String} (h : l.Lies above name base t) (ht : t.Distinct)
    (hw : w.Distinct) (hclaims : l.claims t = .ok true v)
    (hmoved : l.Moved time v w (base ++ [name]) (base ++ [archiveName name time]) n)
    {e : String × Entry} : e ∈ l.archivesIn base w ↔
      e = (archiveName name time, .file (l.pack (v.contentAt (base ++ [name]))) n) ∨
        e ∈ l.older base name time t := by
  obtain ⟨b, entry⟩ := e
  rw [mem_archivesIn hw, mem_older ht]
  by_cases hnew : b = archiveName name time
  · subst hnew
    simp only [hmoved.made, isArchive_archiveName h.toIsAt, Prod.mk.injEq, true_and, ne_eq,
      not_true_eq_false, and_false, or_false, Option.some.injEq]
    exact eq_comm
  · have hb : base ++ [b] ≠ base ++ [archiveName name time] := fun heq =>
      hnew (List.cons.inj (List.append_cancel_left heq)).1
    by_cases hlog : b = name
    · subst hlog
      simp [hmoved.gone, hnew]
    · have hlog' : base ++ [b] ≠ base ++ [name] := fun heq =>
        hlog (List.cons.inj (List.append_cancel_left heq)).1
      simp only [Prod.mk.injEq, hnew, false_and, false_or, ne_eq, hlog, not_false_eq_true, and_true]
      refine and_congr_right fun harchive => ?_
      rw [stored_others h hclaims hmoved hb hlog'
        (isArchive_apart (c := 'k') harchive rfl (by decide))
        (isArchive_apart (c := 'g') harchive rfl (by decide))]

/-- The logger finds every one of these archives under its name. -/
theorem removable_stored {above : List String} (h : l.Lies above name base t)
    (hbare : l.path.isBare = false) (htime : '/' ∉ time.toList) (ht : t.Distinct) (hw : w.Distinct)
    (hnames : ∀ e ∈ t.children base, Path.IsFileName e.1) (hclaims : l.claims t = .ok true v)
    (hmoved : l.Moved time v w (base ++ [name]) (base ++ [archiveName name time]) n) :
    l.Removable base w (l.archivesIn base w) := by
  intro e he
  have hdirs := (claims_ok hclaims).1.trans hmoved.directories
  have hget := ((mem_archivesIn hw).mp he).2
  rcases (mem_stored h ht hw hclaims hmoved).mp he with rfl | hold
  · have hpath : l.directory.join (archiveName name time) = l.archivePath time := by
      rw [archivePath_eq h.toIsAt hbare, directory_eq h.toIsAt hbare]
    rw [hpath]
    refine ⟨?_, FileTree.locate_congr hmoved.directories hmoved.target, hget⟩
    rw [archivePath_eq h.toIsAt hbare]
    exact Path.join_slash h.above_names (archiveName_isName h.toIsAt htime)
  · have hchild := (FileTree.mem_children ht).mpr ((mem_older ht).mp hold).2.1
    obtain ⟨hslash, hlocate⟩ := (h.congr hdirs).locate_join hbare (hnames e hchild)
    exact ⟨hslash, hlocate, hget⟩

/-- Once some of the archives were told to be removed, there are the others, and directories. -/
theorem removals_leave (hw : w.Distinct) (hall : l.Removable base w (l.archivesIn base w))
    {out kept : List (String × Entry)} (hperm : (out ++ kept).Perm (l.archivesIn base w))
    {e : String × Entry} (harchive : isArchive l.stem e.1 = true) :
    (FileM.after (l.removals out) w).get? (base ++ [e.1]) = some e.2 ↔
      e ∈ kept ∨ e ∈ out ∧ e.2.isDirectory = true := by
  have hnodup : (out ++ kept).Nodup := hperm.nodup_iff.mpr (archivesIn_nodup hw)
  have hin {x : String × Entry} (hx : x ∈ out ++ kept) : x ∈ l.archivesIn base w := hperm.mem_iff.mp hx
  have hout : l.Removable base w out := fun x hx => hall x (hin (List.mem_append_left kept hx))
  have hdisjoint {x : String × Entry} (hx : x ∈ out) : x ∉ kept :=
    (List.disjoint_of_nodup_append hnodup) hx
  by_cases htold : ∃ a ∈ out, a.1 = e.1
  · obtain ⟨a, ha, hname⟩ := htold
    have hsame {x : String × Entry} (hx : x ∈ out ++ kept) (heq : x.1 = e.1) : x = a :=
      hall.functional (hin hx) (hin (List.mem_append_left kept ha)) (heq.trans hname.symm)
    have hself := removals_self hout hnodup.of_append_left ha
    rw [hname] at hself
    rw [hself]
    constructor
    · intro hget
      split at hget
      · next hdir =>
        obtain rfl : a = e := Prod.ext hname (Option.some.inj hget)
        exact Or.inr ⟨ha, hdir⟩
      · cases hget
    · rintro (hkept | ⟨he, hdir⟩)
      · cases hsame (List.mem_append_right out hkept) rfl
        exact absurd hkept (hdisjoint ha)
      · cases hsame (List.mem_append_left kept he) rfl
        exact if_pos hdir
  · have hothers := removals_others hout hnodup.of_append_left (k := base ++ [e.1])
      fun a ha heq => htold ⟨a, ha, (List.cons.inj (List.append_cancel_left heq)).1.symm⟩
    have hnot : e ∉ out := fun he => htold ⟨e, he, rfl⟩
    rw [hothers]
    constructor
    · intro hget
      have hmem := hperm.mem_iff.mpr ((mem_archivesIn hw).mpr ⟨harchive, hget⟩)
      exact Or.inl ((List.mem_append.mp hmem).resolve_left hnot)
    · rintro (hkept | ⟨he, -⟩)
      · exact ((mem_archivesIn hw).mp (hin (List.mem_append_right out hkept))).2
      · exact absurd he hnot

/-! ## A rotation -/

/-- The older archives and the new one, made at a time. -/
def atHand (l : Logger) (base : Location) (name time : String) (t : FileTree) (n : Nat) :
    List (String × Entry) :=
  (archiveName name time, .file (l.pack (t.contentOf l.path)) n) :: l.older base name time t

theorem atHand_functional (ht : t.Distinct) {a b : String × Entry}
    (ha : a ∈ l.atHand base name time t n) (hb : b ∈ l.atHand base name time t n) (heq : a.1 = b.1) :
    a = b := by
  rcases List.mem_cons.mp ha with rfl | ha
  · rcases List.mem_cons.mp hb with rfl | hb
    · rfl
    · exact absurd heq.symm ((mem_older ht).mp hb).2.2.2
  · rcases List.mem_cons.mp hb with rfl | hb
    · exact absurd heq ((mem_older ht).mp ha).2.2.2
    · have hget := ((mem_older ht).mp ha).2.1
      rw [heq, ((mem_older ht).mp hb).2.1] at hget
      exact Prod.ext heq (Option.some.inj hget).symm

theorem atHand_nodup (ht : t.Distinct) : (l.atHand base name time t n).Nodup :=
  List.nodup_cons.mpr ⟨fun hmem => ((mem_older ht).mp hmem).2.2.2 rfl, (archivesIn_nodup ht).filter _⟩

/-- What a rotation leaves of the archives at hand: those that are not outdated, and directories. -/
structure Leaves (l : Logger) (base : Location) (name time : String) (t u : FileTree) (n : Nat)
    (out kept : List (String × Entry)) : Prop where
  time_le : t.now ≤ n
  named : isArchive l.stem (archiveName name time) = true
  perm : (out ++ kept).Perm (l.atHand base name time t n)
  few : kept.length ≤ archivesKept
  full : out ≠ [] → kept.length = archivesKept
  sorted : ∀ a ∈ out, ∀ b ∈ kept, a.2.modified ≤ b.2.modified
  entries : ∀ e : String × Entry, isArchive l.stem e.1 = true →
    (u.get? (base ++ [e.1]) = some e.2 ↔ e ∈ kept ∨ e ∈ out ∧ e.2.isDirectory = true)
  others : ∀ k, k ≠ base ++ [name] → k ≠ base ++ [besideName name "lock"] →
    k ≠ base ++ [besideName name "rotating"] → (∀ b, isArchive l.stem b = true → k ≠ base ++ [b]) →
    u.get? k = t.get? k

/-- A rotation moves the log file into an archive; then the archives are pruned, and last the file of
the lock goes. -/
theorem rotate_moved {text : String} (hpath : l.path = .ofText text) (htime : '/' ∉ time.toList)
    (hat : t.locate l.path = .ok (base ++ [name])) (hmade : l.stored time t ≠ none)
    (h : l.rotate time t = .ok () u) : ∃ above v w n, l.Lies above name base t ∧
      l.claims t = .ok true v ∧
      l.Moved time v w (base ++ [name]) (base ++ [archiveName name time]) n ∧
      FileM.Later t v ∧ FileM.Later v w ∧
      ∀ k, k ≠ base ++ [besideName name "lock"] → u.get? k = (FileM.after l.prune w).get? k := by
  obtain ⟨v, hclaims⟩ := claims_of_stored hmade
  have hdirs := (claims_ok hclaims).1
  obtain ⟨w, hstore, -, hu⟩ := store_of_rotate hclaims h
  obtain ⟨place, archive, n, hmoved⟩ := store_moved hpath htime hstore
  cases FileTree.locate_unique hdirs hat hmoved.source
  obtain ⟨above, hlies⟩ := exists_lies hpath hat (hmoved.room.congr hdirs.symm)
  obtain ⟨-, -, base', hwalk, -, -, rfl⟩ :=
    (FileTree.locate_concat (archivePath_parts hlies.toIsAt htime)
      (archiveName_ne (by decide))).mp hmoved.target
  cases (hlies.congr hdirs).walk.symm.trans hwalk
  have hset (t : FileTree) (l : Location) (c : Content) (m : Nat) : FileM.Later t (t.set l (.file c m)) :=
    FileM.later_set t l _
  refine ⟨above, v, w, n, hlies, hclaims, hmoved, (claims_respects hset l).ok hclaims,
    (store_respects hset FileM.later_erase l time).ok hstore, fun k hk => ?_⟩
  have hliesw := hlies.congr (hdirs.trans hmoved.directories)
  rw [hu, FileM.get?_after_remove]
  exact fun heq => hk ((hliesw.congr (prune_shrinks l w).1).locate_beside (c := 'k') rfl (by decide) heq)

theorem rotate_leaves {text : String} (hpath : l.path = .ofText text) (hbare : l.path.isBare = false)
    (htime : '/' ∉ time.toList) (hat : t.locate l.path = .ok (base ++ [name])) (ht : t.Distinct)
    (hnames : ∀ e ∈ t.children base, Path.IsFileName e.1) (hmade : l.stored time t ≠ none)
    (h : l.rotate time t = .ok () u) : ∃ n out kept, l.Leaves base name time t u n out kept := by
  obtain ⟨above, v, w, n, hlies, hclaims, hmoved, hclaimed, hstored, hlast⟩ :=
    rotate_moved hpath htime hat hmade h
  obtain ⟨hdirs, hcontent⟩ := claims_ok hclaims
  have hw : w.Distinct := hstored.2 (hclaimed.2 ht)
  have hliesw := hlies.congr (hdirs.trans hmoved.directories)
  obtain ⟨kept, hperm, hfew, hfull, hsorted⟩ := exists_kept (l.archivesIn base w)
  generalize hout : outdated (l.archivesIn base w) = out at hperm hfull hsorted
  have hall := removable_stored hlies hbare htime ht hw hnames hclaims hmoved
  have hin {e : String × Entry} (he : e ∈ out) : e ∈ l.archivesIn base w :=
    hperm.mem_iff.mp (List.mem_append_left kept he)
  have hunlock (k : Location) (hk : k ≠ base ++ [besideName name "lock"]) :
      u.get? k = (FileM.after (l.removals out) w).get? k := by
    rw [hlast k hk, after_prune hliesw hbare, hout]
  have hnamed : isArchive l.stem (archiveName name time) = true :=
    isArchive_archiveName hlies.toIsAt time
  refine ⟨n, out, kept, Nat.le_trans hclaimed.1 hmoved.time_le, hnamed, ?_, hfew, hfull, hsorted,
    fun e harchive => ?_, fun k hlog hlock hrotating harchives => ?_⟩
  · refine hperm.trans ((List.perm_ext_iff_of_nodup (archivesIn_nodup hw) (atHand_nodup ht)).mpr
      fun e => ?_)
    rw [mem_stored hlies ht hw hclaims hmoved, atHand, List.mem_cons, FileTree.contentOf_eq hat, hcontent]
  · rw [hunlock _ (isArchive_apart (c := 'k') harchive rfl (by decide))]
    exact removals_leave hw hall hperm harchive
  · have hnodup : out.Nodup := (hperm.nodup_iff.mpr (archivesIn_nodup hw)).of_append_left
    rw [hunlock k hlock, removals_others (fun e he => hall e (hin he)) hnodup fun e he =>
      harchives e.1 ((mem_archivesIn hw).mp (hin he)).1]
    exact stored_others hlies hclaims hmoved (harchives _ hnamed) hlog hlock hrotating

/-- If the path of the log file is a name alone, no archive is ever removed: after a rotation everything
else is as it was, however many archives there are. -/
theorem rotate_bare_keeps {text : String} (hpath : l.path = .ofText text)
    (hbare : l.path.isBare = true) (htime : '/' ∉ time.toList)
    (hat : t.locate l.path = .ok (base ++ [name])) (hmade : l.stored time t ≠ none)
    (h : l.rotate time t = .ok () u) {k : Location} (hlog : k ≠ base ++ [name])
    (hnew : k ≠ base ++ [archiveName name time]) (hlock : k ≠ base ++ [besideName name "lock"])
    (hrotating : k ≠ base ++ [besideName name "rotating"]) : u.get? k = t.get? k := by
  obtain ⟨above, v, w, n, hlies, hclaims, hmoved, -, -, hlast⟩ := rotate_moved hpath htime hat hmade h
  rw [hlast k hlock, after_prune_bare hbare]
  exact stored_others hlies hclaims hmoved hnew hlog hlock hrotating

example : (Path.ofText "debug.log").isBare = true ∧ (Path.ofText "./debug.log").isBare = false := by
  decide

variable {out kept : List (String × Entry)}

/-- Every file that has the name of an archive then is one of those that were kept. -/
theorem Leaves.mem_kept (h : l.Leaves base name time t u n out kept) (hu : u.Distinct)
    {e : String × Entry} (he : e ∈ l.archivesIn base u) (hfile : e.2.isDirectory = false) : e ∈ kept := by
  obtain ⟨harchive, hget⟩ := (mem_archivesIn hu).mp he
  rcases (h.entries e harchive).mp hget with hkept | ⟨-, hdir⟩
  · exact hkept
  · exact absurd (hdir.symm.trans hfile) (by simp)

theorem Leaves.few_files (h : l.Leaves base name time t u n out kept) (hu : u.Distinct) :
    ((l.archivesIn base u).filter fun e => !e.2.isDirectory).length ≤ archivesKept := by
  refine Nat.le_trans ?_ h.few
  refine (List.Nodup.subperm ((archivesIn_nodup hu).filter _) fun e he => ?_).length_le
  obtain ⟨he, hfile⟩ := List.mem_filter.mp he
  exact h.mem_kept hu he (by simpa using hfile)

theorem Leaves.mem_split (h : l.Leaves base name time t u n out kept) {e : String × Entry} :
    e ∈ l.atHand base name time t n ↔ e ∈ out ∨ e ∈ kept := by
  rw [← h.perm.mem_iff, List.mem_append]

/-- The new archive is outdated only if as many as are kept are at least as new. -/
theorem Leaves.new_kept (h : l.Leaves base name time t u n out kept) (ht : t.Distinct)
    (hnewest : ((l.older base name time t).filter fun e => n ≤ e.2.modified).length < archivesKept) :
    u.get? (base ++ [archiveName name time]) = some (.file (l.pack (t.contentOf l.path)) n) := by
  refine (h.entries (archiveName name time, .file (l.pack (t.contentOf l.path)) n) h.named).mpr
    (Or.inl ?_)
  rcases h.mem_split.mp List.mem_cons_self with hout | hkept
  · have hnodup : (out ++ kept).Nodup := h.perm.nodup_iff.mpr (atHand_nodup ht)
    have hsubset : kept ⊆ (l.older base name time t).filter fun e => n ≤ e.2.modified := by
      intro e he
      refine List.mem_filter.mpr ⟨?_, decide_eq_true (h.sorted _ hout e he)⟩
      rcases List.mem_cons.mp (h.mem_split.mpr (Or.inr he)) with rfl | hold
      · exact absurd he (List.disjoint_of_nodup_append hnodup hout)
      · exact hold
    have hlength := (List.Nodup.subperm hnodup.of_append_right hsubset).length_le
    rw [h.full (List.ne_nil_of_mem hout)] at hlength
    exact absurd hnewest (Nat.not_lt.mpr hlength)
  · exact hkept

/-- An older archive stays, or it is a file that is gone and no newer than any file that is left. -/
theorem Leaves.stays_or_gone (h : l.Leaves base name time t u n out kept) (ht : t.Distinct)
    (hu : u.Distinct) {e : String × Entry} (he : e ∈ l.older base name time t) :
    u.get? (base ++ [e.1]) = some e.2 ∨ u.get? (base ++ [e.1]) = none ∧ e.2.isDirectory = false ∧
      ∀ k ∈ l.archivesIn base u, k.2.isDirectory = false → e.2.modified ≤ k.2.modified := by
  have harchive := ((mem_older ht).mp he).1
  have hmem : e ∈ l.atHand base name time t n := List.mem_cons_of_mem _ he
  rcases h.mem_split.mp hmem with hout | hkept
  · cases hdir : e.2.isDirectory with
    | true => exact Or.inl ((h.entries e harchive).mpr (Or.inr ⟨hout, hdir⟩))
    | false =>
      refine Or.inr ⟨?_, rfl, fun k hk hfile => h.sorted e hout k (h.mem_kept hu hk hfile)⟩
      cases hget : u.get? (base ++ [e.1]) with
      | none => rfl
      | some entry =>
        -- what is there would be the same archive, but that is neither kept nor a directory
        have hthere := (h.entries (e.1, entry) harchive).mp hget
        have hsame : (e.1, entry) = e :=
          atHand_functional ht (h.mem_split.mpr (hthere.symm.imp And.left id)) hmem rfl
        rw [hsame, hdir] at hthere
        have hdisjoint := List.disjoint_of_nodup_append (h.perm.nodup_iff.mpr (atHand_nodup ht)) hout
        rcases hthere with hkept | ⟨-, hfalse⟩
        · exact absurd hkept hdisjoint
        · cases hfalse
  · exact Or.inl ((h.entries e harchive).mpr (Or.inl hkept))

/-- While there is room for all of them, all stay. -/
theorem Leaves.all_stay (h : l.Leaves base name time t u n out kept) (ht : t.Distinct)
    (hroom : (l.older base name time t).length + 1 ≤ archivesKept) {e : String × Entry}
    (he : e ∈ l.older base name time t) : u.get? (base ++ [e.1]) = some e.2 := by
  refine (h.entries e ((mem_older ht).mp he).1).mpr ?_
  rcases h.mem_split.mp (List.mem_cons_of_mem _ he) with hout | hkept
  · have hlength := h.perm.length_eq
    rw [List.length_append, h.full (List.ne_nil_of_mem hout), atHand, List.length_cons] at hlength
    have hpos := List.length_pos_of_mem hout
    omega
  · exact Or.inl hkept

/-- After a rotation that has moved the log file into an archive, in any directory that the path of the
log file names and whose entries have names that files can have: there is at most the fixed number of
files with the name of an archive; the new one is among them unless as many others are at least as new;
every older one is as it was, or it was a file, is gone, and is no newer than any file that is left; all
are as they were if they were few enough; and besides archives nothing has changed but the log file and
the two files that come and go with it. -/
theorem rotate_keeps_newest {text : String} (hpath : l.path = .ofText text)
    (hbare : l.path.isBare = false) (htime : '/' ∉ time.toList)
    (hat : t.locate l.path = .ok (base ++ [name])) (ht : t.Distinct)
    (hnames : ∀ e ∈ t.children base, Path.IsFileName e.1) (hmade : l.stored time t ≠ none)
    (h : l.rotate time t = .ok () u) :
    ∃ n, t.now ≤ n ∧
      ((l.archivesIn base u).filter fun e => !e.2.isDirectory).length ≤ archivesKept ∧
      (((l.older base name time t).filter fun e => n ≤ e.2.modified).length < archivesKept →
        u.get? (base ++ [archiveName name time]) = some (.file (l.pack (t.contentOf l.path)) n)) ∧
      (∀ e ∈ l.older base name time t, u.get? (base ++ [e.1]) = some e.2 ∨
        u.get? (base ++ [e.1]) = none ∧ e.2.isDirectory = false ∧
          ∀ k ∈ l.archivesIn base u, k.2.isDirectory = false → e.2.modified ≤ k.2.modified) ∧
      ((l.older base name time t).length + 1 ≤ archivesKept →
        ∀ e ∈ l.older base name time t, u.get? (base ++ [e.1]) = some e.2) ∧
      ∀ k, k ≠ base ++ [name] → k ≠ base ++ [besideName name "lock"] →
        k ≠ base ++ [besideName name "rotating"] →
        (∀ b, isArchive l.stem b = true → k ≠ base ++ [b]) → u.get? k = t.get? k := by
  obtain ⟨n, out, kept, hleaves⟩ := rotate_leaves hpath hbare htime hat ht hnames hmade h
  have hu : u.Distinct :=
    ((rotate_respects (fun t l c m => FileM.later_set t l _) FileM.later_erase l time).ok h).2 ht
  exact ⟨n, hleaves.time_le, hleaves.few_files hu, hleaves.new_kept ht,
    fun e he => hleaves.stays_or_gone ht hu he, fun hroom e he => hleaves.all_stay ht hroom he,
    hleaves.others⟩

/-- A full log file among other files: five archives, a directory called like one, and notes. -/
def crowdedFiles : FileTree where
  entries := [
    (["debug.log"], .file (repeated sizeLimit 10) 9),
    (["debug.old.gz"], .directory 0),
    (["debug.20240101_000000.gz"], .file .empty 1),
    (["debug.20240102_000000.gz"], .file .empty 2),
    (["debug.20240103_000000.gz"], .file .empty 3),
    (["debug.20240104_000000.gz"], .file .empty 3),
    (["debug.20240105_000000.gz"], .file .empty 3),
    (["notes.txt"], .file .empty 4)]
  locked := []
  now := 10

theorem crowdedFiles_ready : gzipLogger.Ready "20250101_000000" crowdedFiles :=
  ⟨⟨rfl, ["debug.log"], rfl, FileTree.hasRoom_of_file rfl⟩,
    ⟨rfl, ["debug.rotating"], rfl, FileTree.hasRoom_of_none rfl⟩,
    ⟨rfl, ["debug.lock"], rfl, FileTree.hasRoom_of_none rfl⟩,
    ⟨rfl, ["debug.20250101_000000.gz"], rfl, FileTree.hasRoom_of_none rfl⟩⟩

/-- The new archive is kept, and there is room for four of the older ones. -/
theorem crowdedFiles_rotated : ∃ u, gzipLogger.rotate "20250101_000000" crowdedFiles = .ok () u ∧
    ((gzipLogger.archivesIn [] u).filter fun e => !e.2.isDirectory).length ≤ 5 ∧
    (∃ n, u.get? ["debug.20250101_000000.gz"] =
      some (.file (gzip (crowdedFiles.contentOf gzipLogger.path)) n)) ∧
    u.get? ["notes.txt"] = some (.file .empty 4) := by
  have htime : '/' ∉ "20250101_000000".toList := by decide
  have hplace : crowdedFiles.locate gzipLogger.path = .ok ([] ++ ["debug.log"]) := rfl
  have hfull : sizeLimit ≤ (repeated sizeLimit 10).size := Nat.le_of_eq (size_repeated sizeLimit 10).symm
  have hmade := stored_of_full rfl htime crowdedFiles_ready hplace rfl hfull rfl
  have hdistinct : crowdedFiles.Distinct := by
    unfold FileTree.Distinct
    decide
  have hnames : ∀ e ∈ crowdedFiles.children [], Path.IsFileName e.1 := by decide
  have htimes : ∀ e ∈ crowdedFiles.children [], e.2.modified < 10 := by decide
  obtain ⟨u, hrotate⟩ := rotate_succeeds rfl htime crowdedFiles_ready
  obtain ⟨n, hn, hfew, hnew, -, -, hothers⟩ :=
    rotate_keeps_newest rfl rfl htime hplace hdistinct hnames hmade hrotate
  have hnewest : ((gzipLogger.older [] "debug.log" "20250101_000000" crowdedFiles).filter
      fun e => n ≤ e.2.modified) = [] := by
    refine List.filter_eq_nil_iff.mpr fun e he => ?_
    have hchild := (FileTree.mem_children hdistinct).mpr ((mem_older hdistinct).mp he).2.1
    have hearlier : e.2.modified < n := Nat.lt_of_lt_of_le (htimes e hchild) hn
    simpa using hearlier
  have hnotes : ∀ b, isArchive gzipLogger.stem b = true → ["notes.txt"] ≠ [b] := by
    intro b hb heq
    cases heq
    exact absurd hb (by decide)
  refine ⟨u, hrotate, hfew, ⟨n, hnew (by rw [hnewest]; decide)⟩, ?_⟩
  exact hothers ["notes.txt"] (by decide) (by decide) (by decide) hnotes

end Logger

end RpcPool

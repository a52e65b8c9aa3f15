import RpcPool.Log.Logger
import RpcPool.Proofs.Rendering
import RpcPool.Proofs.Trees

/-!
# What a log file holds

A log file that nobody else writes to holds its lines in the order of the calls, whatever they say and
however often it has been rotated in between: what has gone into archives, together with what is in the
file, is what was in the file at first and one line for each call.

Results:
1. `Line.ofBytes?_render`: a line is read back.
2. `archivePath_parts`, `archive_apart`: an archive is beside the log file, and is another file.
3. `store_ok`, `rotate_ok`: a rotation moves the whole content of the log file into an archive.
4. `stored_of_full`, `succeeds_of_ready`: where there is room, a full log file is rotated and nothing fails.
5. `logAll_faithful`: all lines, over any calls.
-/

namespace RpcPool

namespace Log

/-! ## Lines -/

theorem Note.fields_exact (n : Note) (depth : Nat) : ∀ m ∈ n.entry.fields, Json.Exact depth m.2 := by
  have hredacted (s : Option String) : Json.Exact depth (redacted? s) := by
    cases s with
    | none => exact .null
    | some s => exact .string _
  have htext (s : String) : Json.Exact depth (redacted s) := .string _
  cases n with
  | error => simp [Note.entry, Note.rawEntry]
  | probeStart => simp [Note.entry, Note.rawEntry, htext, Json.Exact.natural]
  | probeEnd uri connected responseMs failure =>
    cases responseMs <;> cases failure <;>
      simp [Note.entry, Note.rawEntry, htext, Json.Exact.natural, Json.Exact.bool]
  | connectionChanged => simp [Note.entry, Note.rawEntry, hredacted, Json.Exact.natural]
  | autoSwitch => simp [Note.entry, Note.rawEntry, hredacted, htext, Json.Exact.string]
  | pollerStarted => simp [Note.entry, Note.rawEntry, Json.Exact.natural, Json.Exact.string]
  | pollerStopped => simp [Note.entry, Note.rawEntry, Json.Exact.natural]
  | pollIteration => simp [Note.entry, Note.rawEntry, Json.Exact.natural, Json.Exact.bool]
  | pollError => simp [Note.entry, Note.rawEntry, Json.Exact.natural]

namespace Line

theorem toJson_exact {l : Line} {depth : Nat} (h : ∀ m ∈ l.entry.fields, Json.Exact depth m.2) :
    Json.Exact (depth + 2) l.toJson := by
  have hfields : Json.Exact (depth + 1) (.object l.entry.fields) := .object h
  refine .object fun m hm => ?_
  simp only [List.mem_cons, List.not_mem_nil, or_false] at hm
  rcases hm with rfl | rfl | rfl | rfl | rfl | rfl | rfl
  · exact .string _
  · exact .string _
  · exact .string _
  · exact .string _
  · exact .string _
  · exact .string _
  · exact hfields

theorem ofJson?_toJson (l : Line) : ofJson? l.toJson = some l := rfl

/-- A line is read back from its text. -/
theorem ofBytes?_render {l : Line} {depth : Nat} (h : ∀ m ∈ l.entry.fields, Json.Exact depth m.2)
    (hdepth : depth + 2 = Json.depthLimit) : ofBytes? l.toJson.render.toUTF8 = some l := by
  have hexact : Json.Exact Json.depthLimit l.toJson := hdepth ▸ toJson_exact h
  rw [ofBytes?, Json.parse_render hexact]
  exact ofJson?_toJson l

theorem bytes_eq (l : Line) : l.bytes = l.toJson.render.toUTF8 ++ "\n".toUTF8 :=
  String.toByteArray_append

end Line

end Log

namespace Logger

open Log

variable {l : Logger} {t u : FileTree} {time : String} {place : Location}

/-! ## The files of a logger -/

/-- The path of the archive that is made at a time. -/
def archivePath (l : Logger) (time : String) : Path :=
  l.directory.join (l.stem ++ "." ++ time ++ ".gz")

/-- A logger whose log file is called `name`, in the directory that `above` leads to. -/
structure IsAt (l : Logger) (above : List String) (name : String) : Prop where
  parts : l.path.parts = above ++ [name]
  above_names : ∀ n ∈ above, Path.IsName n
  is_name : Path.IsName name
  ne_up : name ≠ ".."

theorem stem_eq {above : List String} {name : String} (h : l.IsAt above name) :
    l.path.stem? = some (String.ofList (Path.stemOf name.toList)) := by
  have hlast : l.path.parts.getLast? = some name := by simp [h.parts]
  have hname : l.path.fileName? = some name := by
    unfold Path.fileName?
    split
    · next hup => exact absurd (Option.some.inj (hlast.symm.trans hup)) h.ne_up
    · exact hlast
  rw [Path.stem?, hname]
  rfl

/-- The name of a log file with another extension. -/
def besideName (name extension : String) : String :=
  String.ofList (Path.stemOf name.toList) ++ "." ++ extension

theorem besideName_last (name : String) {extension : String} {c : Char}
    (h : extension.toList.getLast? = some c) : (besideName name extension).toList.getLast? = some c := by
  rw [besideName, String.toList_append, List.getLast?_append, h]
  rfl

theorem besideName_ne_up (name : String) {extension : String} {c : Char}
    (h : extension.toList.getLast? = some c) (hc : c ≠ '.') : besideName name extension ≠ ".." := by
  intro heq
  have hlast := besideName_last name h
  rw [heq] at hlast
  exact hc (Option.some.inj hlast).symm

theorem withExtension_parts {above : List String} {name : String} (h : l.IsAt above name)
    (extension : String) :
    (l.path.withExtension extension).parts = above ++ [besideName name extension] := by
  rw [Path.withExtension, stem_eq h, h.parts]
  simp [Path.ofParts, besideName]

/-- The name of the archive of a log file that is made at a time. -/
def archiveName (name time : String) : String :=
  String.ofList (Path.stemOf name.toList) ++ "." ++ time ++ ".gz"

theorem archiveName_toList (name time : String) : (archiveName name time).toList =
    Path.stemOf name.toList ++ '.' :: (time.toList ++ ['.', 'g', 'z']) := by
  simp [archiveName]

theorem archiveName_last (name time : String) :
    (archiveName name time).toList.getLast? = some 'z' := by
  have hlast : Path.stemOf name.toList ++ '.' :: (time.toList ++ ['.', 'g', 'z']) =
      (Path.stemOf name.toList ++ '.' :: (time.toList ++ ['.', 'g'])) ++ ['z'] := by simp
  rw [archiveName_toList, hlast, List.getLast?_concat]

theorem archiveName_ne {name time other : String} (h : other.toList.getLast? ≠ some 'z') :
    archiveName name time ≠ other :=
  fun heq => h (heq ▸ archiveName_last name time)

/-- Unlike the extension of the log file, what an archive has after the stem has two dots. -/
theorem archiveName_ne_self (name time : String) : archiveName name time ≠ name := by
  intro heq
  obtain ⟨extension, hextension, hdot⟩ := Path.stemOf_append name.toList
  have hchars := congrArg String.toList heq
  rw [archiveName_toList] at hchars
  have hmore := List.append_cancel_left (hchars.trans hextension)
  exact hdot _ hmore.symm (by simp)

theorem archiveName_isName {above : List String} {name : String} (h : l.IsAt above name)
    (htime : '/' ∉ time.toList) : Path.IsName (archiveName name time) := by
  have hstem : '/' ∉ Path.stemOf name.toList := fun hmem =>
    h.is_name.2 (Path.mem_of_mem_stemOf hmem)
  constructor
  · have hlast := archiveName_last name time
    simp only [Path.isSilent, Bool.or_eq_false_iff, beq_eq_false_iff_ne]
    constructor
    · intro hnil
      rw [hnil] at hlast
      exact absurd hlast (by decide)
    · intro hdot
      rw [hdot] at hlast
      exact absurd hlast (by decide)
  · rw [archiveName_toList]
    simp [hstem, htime]

theorem directory_eq {above : List String} {name : String} (h : l.IsAt above name)
    (hbare : l.path.isBare = false) : l.directory = Path.ofParts above := by
  rw [directory, Path.parent?_eq h.parts hbare, Option.getD_some]

theorem directory_bare (hbare : l.path.isBare = true) : l.directory = .nowhere := by
  rw [directory, Path.parent?_bare hbare, Option.getD_some]

theorem stem_of_isAt {above : List String} {name : String} (h : l.IsAt above name) :
    l.stem = String.ofList (Path.stemOf name.toList) := by
  rw [stem, stem_eq h]
  rfl

theorem archivePath_eq {above : List String} {name : String} (h : l.IsAt above name)
    (hbare : l.path.isBare = false) :
    l.archivePath time = (Path.ofParts above).join (archiveName name time) := by
  rw [archivePath, directory_eq h hbare, stem_of_isAt h]
  rfl

/-- The archive that is made at a time is where the log file is. -/
theorem archivePath_parts {above : List String} {name : String} (h : l.IsAt above name)
    (htime : '/' ∉ time.toList) : (l.archivePath time).parts = above ++ [archiveName name time] := by
  have hname := archiveName_isName h htime
  cases hbare : l.path.isBare with
  | false =>
    rw [archivePath_eq h hbare]
    exact Path.join_parts h.above_names hname
  | true =>
    have habove : above = [] := by
      have hone := (Bool.and_eq_true_iff.mp hbare).1
      simpa [h.parts] using hone
    rw [habove, archivePath, directory_bare hbare, stem_of_isAt h]
    exact Path.nowhere_join_parts hname

/-- A path to a place for a file ends in a name. -/
theorem isAt_of_locate {text : String} (hpath : l.path = .ofText text)
    (hat : t.locate l.path = .ok place) (hroom : t.HasRoom place) : ∃ above name, l.IsAt above name := by
  have hwalk := FileTree.locate_eq_walk hat
  rcases l.path.parts.eq_nil_or_concat with hnil | ⟨above, name, hconcat⟩
  · rw [hnil, FileTree.walk] at hwalk
    cases hwalk
    exact absurd rfl hroom.ne_nil
  · rw [List.concat_eq_append] at hconcat
    have hname (n : String) (hn : n ∈ l.path.parts) : Path.IsName n := by
      rw [hpath] at hn
      exact Path.isName_of_mem_parts hn
    refine ⟨above, name, hconcat, fun n hn => hname n (by simp [hconcat, hn]),
      hname name (by simp [hconcat]), fun hup => ?_⟩
    · rw [hconcat, hup] at hwalk
      obtain ⟨m, hdir⟩ := FileTree.walk_upwards t.prefix_root hwalk
      exact hroom m hdir

/-- An archive is neither the log file nor the file that it is made from. -/
theorem archive_apart {text : String} (hpath : l.path = .ofText text) (htime : '/' ∉ time.toList)
    (hat : t.locate l.path = .ok place) (hroom : t.HasRoom place) {rotating archive : Location}
    (hrotating : t.locate (l.path.withExtension "rotating") = .ok rotating)
    (harchive : t.locate (l.archivePath time) = .ok archive) :
    archive ≠ place ∧ archive ≠ rotating := by
  obtain ⟨above, name, h⟩ := isAt_of_locate hpath hat hroom
  obtain ⟨-, -, base, hbase, -, -, rfl⟩ := (FileTree.locate_concat h.parts h.ne_up).mp hat
  obtain ⟨-, -, base', hbase', -, -, rfl⟩ :=
    (FileTree.locate_concat (withExtension_parts h "rotating")
      (besideName_ne_up name (c := 'g') rfl (by decide))).mp hrotating
  obtain ⟨-, -, base'', hbase'', -, -, rfl⟩ :=
    (FileTree.locate_concat (archivePath_parts h htime) (archiveName_ne (by decide))).mp harchive
  cases hbase.symm.trans hbase'
  cases hbase.symm.trans hbase''
  have hne : archiveName name time ≠ besideName name "rotating" :=
    archiveName_ne (by rw [besideName_last name (c := 'g') rfl]; decide)
  exact ⟨fun heq => archiveName_ne_self name time (List.cons.inj (List.append_cancel_left heq)).1,
    fun heq => hne (List.cons.inj (List.append_cancel_left heq)).1⟩

/-! ## Rotation -/

/-- Moves the content of the log file into an archive, and leaves older archives alone. -/
def store (l : Logger) (time : String) : FileM Unit := do
  let rotating := l.path.withExtension "rotating"
  FileM.rename l.path rotating
  FileM.write (l.archivePath time) .empty
  FileM.write (l.archivePath time) (l.pack (← FileM.read rotating))
  FileM.remove rotating

theorem archive_eq (l : Logger) (time : String) :
    l.archive time = (do
      l.store time
      FileM.attempt l.prune) := by
  simp [archive, store, archivePath, bind_assoc]

/-- Whether it is up to the logger to rotate: the log file has reached its limit, and nobody else is
about to. -/
def claims (l : Logger) : FileM Bool := do
  if ← l.overLimit then
    FileM.touch (l.path.withExtension "lock")
    FileM.isFree (l.path.withExtension "lock")
  else return false

theorem rotate_eq (l : Logger) (time : String) :
    l.rotate time = (do
      if ← l.claims then
        let result ← FileM.result (l.archive time)
        FileM.attempt (FileM.remove (l.path.withExtension "lock"))
        match result with
        | .ok () => return
        | .error e => throw e) := by
  rw [rotate, claims, bind_assoc]
  refine bind_congr fun full => ?_
  cases full with
  | false => simp
  | true => exact (bind_assoc (FileM.touch _) _ _).symm

theorem overLimit_of_size {n : Nat} (h : FileM.size l.path t = .ok n u) :
    l.overLimit t = .ok (decide (sizeLimit ≤ n)) u :=
  FileM.tryCatch_ok ((FileM.bind_eq h).trans rfl)

theorem overLimit_of_error {e : FileError} (h : FileM.size l.path t = .error e u) :
    l.overLimit t = (if e = .notFound then pure false else throw e : FileM Bool) u :=
  FileM.tryCatch_error (FileM.bind_error h)

theorem overLimit_ok {full : Bool} (h : l.overLimit t = .ok full u) : u = t := by
  have hkeeps := FileM.size_keeps l.path t
  unfold FileM.after at hkeeps
  cases hsize : FileM.size l.path t with
  | ok n v =>
    rw [overLimit_of_size hsize] at h
    rw [hsize] at hkeeps
    cases h
    exact hkeeps
  | error e v =>
    rw [overLimit_of_error hsize] at h
    rw [hsize] at hkeeps
    split at h
    · cases h
      exact hkeeps
    · exact absurd h FileM.throw_ne_ok

/-- Two trees with the same directories and the same content at every location. -/
def SameContent (t u : FileTree) : Prop :=
  FileTree.SameDirectories t u ∧ ∀ k, u.contentAt k = t.contentAt k

theorem touch_ok {p : Path} {x : Unit} (h : FileM.touch p t = .ok x u) : SameContent t u := by
  obtain ⟨touched, -, -, hdirs, m, hget⟩ := FileM.update_ok h
  refine ⟨hdirs, fun k => ?_⟩
  by_cases heq : k = touched
  · subst heq
    exact FileTree.contentAt_of_file ((hget k).trans (if_pos rfl))
  · exact FileTree.contentAt_congr ((hget k).trans (if_neg heq))

theorem claims_ok {claimed : Bool} (h : l.claims t = .ok claimed u) : SameContent t u := by
  obtain ⟨full, v, hfull, hrest⟩ := FileM.bind_ok h
  cases overLimit_ok hfull
  cases full with
  | false =>
    obtain ⟨-, rfl⟩ := FileM.pure_ok hrest
    exact ⟨.refl u, fun _ => rfl⟩
  | true =>
    obtain ⟨x, w, htouch, hfree⟩ := FileM.bind_ok hrest
    cases FileM.isFree_ok hfree
    exact touch_ok htouch

/-- Taking the lock touches nothing but the file of the lock. -/
theorem claims_frame (h : l.claims t = .ok true u) :
    ∃ lock, t.locate (l.path.withExtension "lock") = .ok lock ∧ ∀ k, k ≠ lock → u.get? k = t.get? k := by
  obtain ⟨full, v, hfull, hrest⟩ := FileM.bind_ok h
  cases overLimit_ok hfull
  cases full with
  | false => cases (FileM.pure_ok hrest).1
  | true =>
    obtain ⟨x, w, htouch, hfree⟩ := FileM.bind_ok hrest
    cases FileM.isFree_ok hfree
    obtain ⟨lock, hlock, -, -, m, hget⟩ := FileM.update_ok htouch
    exact ⟨lock, hlock, fun k hk => (hget k).trans (if_neg hk)⟩

/-- What has become of the files when the log file at `place` was moved into an archive: the archive is
there, with its time, the log file is gone, and all else is as it was. -/
structure Moved (l : Logger) (time : String) (t u : FileTree) (place archive : Location) (n : Nat) :
    Prop where
  source : t.locate l.path = .ok place
  target : t.locate (l.archivePath time) = .ok archive
  room : t.HasRoom place
  directories : FileTree.SameDirectories t u
  time_le : t.now ≤ n
  made : u.get? archive = some (.file (l.pack (t.contentAt place)) n)
  gone : u.get? place = none
  others : ∀ k, k ≠ archive → k ≠ place → t.locate (l.path.withExtension "rotating") ≠ .ok k →
    u.get? k = t.get? k

theorem store_moved {text : String} (hpath : l.path = .ofText text) (htime : '/' ∉ time.toList)
    {x : Unit} (h : l.store time t = .ok x u) : ∃ place archive n, l.Moved time t u place archive n := by
  obtain ⟨_, t₁, hrename, h₁⟩ := FileM.bind_ok h
  obtain ⟨_, t₂, hempty, h₂⟩ := FileM.bind_ok h₁
  obtain ⟨content, t₃, hread, h₃⟩ := FileM.bind_ok h₂
  obtain ⟨_, t₄, hwrite, hremove⟩ := FileM.bind_ok h₃
  obtain ⟨place, c, m, rotating, hplace, hfile, hrotating, hdirs₁, hget₁⟩ := FileM.rename_ok hrename
  obtain ⟨archive, harchive, -, hdirs₂, _, hget₂⟩ := FileM.update_ok hempty
  replace harchive := FileTree.locate_congr hdirs₁.symm harchive
  obtain ⟨hlogApart, hrotatingApart⟩ :=
    archive_apart hpath htime hplace (FileTree.hasRoom_of_file hfile) hrotating harchive
  replace hdirs₂ := hdirs₁.trans hdirs₂
  -- What is read is what the log file held.
  obtain ⟨k, n, hk, hread', rfl⟩ := FileM.read_ok hread
  cases FileTree.locate_unique hdirs₂ hrotating hk
  rw [hget₂, if_neg (Ne.symm hrotatingApart), hget₁, if_pos rfl] at hread'
  cases hread'
  obtain ⟨k, hk, hroom, rfl⟩ := FileM.update_eq hwrite
  cases FileTree.locate_unique hdirs₂ harchive hk
  have hget₄ := FileTree.get?_set t₃ hroom.ne_nil (.file (l.pack content) t₃.now)
  have hdirs₄ := hdirs₂.trans (FileTree.sameDirectories_set hroom (l.pack content) t₃.now)
  obtain ⟨k, hk, hdirs₅, hget₅⟩ := FileM.remove_ok hremove
  cases FileTree.locate_unique hdirs₄ hrotating hk
  have hlater : FileM.Later t t₃ := trans_of FileM.Later
    ((FileM.respects_rename (fun t l c m => FileM.later_set t l _) FileM.later_erase _ _).ok hrename)
    ((FileM.respects_update (fun t l c m => FileM.later_set t l _) _ _).ok hempty)
  refine ⟨place, archive, t₃.now, hplace, harchive, FileTree.hasRoom_of_file hfile,
    hdirs₄.trans hdirs₅, hlater.1, ?_, ?_, fun k hk hlog hrot => ?_⟩
  · rw [hget₅, if_neg hrotatingApart, FileTree.contentAt_of_file hfile]
    exact (hget₄ archive).trans (if_pos rfl)
  · by_cases heq : place = rotating
    · rw [hget₅, if_pos heq]
    · rw [hget₅, if_neg heq]
      refine (hget₄ place).trans ?_
      rw [if_neg (Ne.symm hlogApart), hget₂, if_neg (Ne.symm hlogApart), hget₁, if_neg heq, if_pos rfl]
  · have hne : k ≠ rotating := fun heq => hrot (heq ▸ hrotating)
    rw [hget₅, if_neg hne]
    refine (hget₄ k).trans ?_
    rw [if_neg hk, hget₂, if_neg hk, hget₁, if_neg hne, if_neg hlog]

/-- The content of the log file goes into the archive, and the log file is gone. -/
theorem store_ok {text : String} (hpath : l.path = .ofText text) (htime : '/' ∉ time.toList)
    {x : Unit} (h : l.store time t = .ok x u) :
    FileTree.SameDirectories t u ∧ u.contentOf (l.archivePath time) = l.pack (t.contentOf l.path) ∧
      ∃ place, t.locate l.path = .ok place ∧ u.get? place = none := by
  obtain ⟨place, archive, n, hmoved⟩ := store_moved hpath htime h
  refine ⟨hmoved.directories, ?_, place, hmoved.source, hmoved.gone⟩
  rw [FileTree.contentOf_eq (FileTree.locate_congr hmoved.directories hmoved.target),
    FileTree.contentOf_eq hmoved.source]
  exact FileTree.contentAt_of_file hmoved.made

section

variable {R : FileTree → FileTree → Prop} [IsPreorder FileTree R]
  (hset : ∀ t l c m, R t (t.set l (.file c m))) (herase : ∀ t l, R t (t.erase l))
include hset

/-! What a logger does to the files, it does by putting files in place and taking files away. -/

theorem claims_respects (l : Logger) : FileM.Respects R l.claims := by
  refine .bind ?_ fun full => ?_
  · refine .tryCatch (.bind (.of_after_eq (FileM.size_keeps l.path)) fun _ => FileM.respects_pure _)
      fun e => ?_
    split
    · exact FileM.respects_pure false
    · exact FileM.respects_throw e
  · cases full with
    | false => exact FileM.respects_pure false
    | true => exact (FileM.respects_update hset _ _).bind fun _ => FileM.respects_isFree _

include herase

theorem store_respects (l : Logger) (time : String) : FileM.Respects R (l.store time) :=
  (FileM.respects_rename hset herase _ _).bind fun _ => (FileM.respects_update hset _ _).bind fun _ =>
    (FileM.respects_read _).bind fun _ => (FileM.respects_update hset _ _).bind fun _ =>
      FileM.respects_remove herase _

theorem rotate_respects (l : Logger) (time : String) : FileM.Respects R (l.rotate time) := by
  have hprune : FileM.Respects R l.prune :=
    .bind (.of_after_eq (FileM.list_keeps l.directory)) fun _ =>
      FileM.respects_forM (fun _ => (FileM.respects_remove herase _).attempt) _
  have harchive : FileM.Respects R (l.archive time) := by
    rw [archive_eq]
    exact (store_respects hset herase l time).bind fun _ => hprune.attempt
  rw [rotate_eq]
  refine (claims_respects hset l).bind fun claimed => ?_
  cases claimed with
  | false => exact FileM.respects_pure ()
  | true =>
    refine harchive.result.bind fun r => (FileM.respects_remove herase _).attempt.bind fun _ => ?_
    cases r with
    | ok x => exact FileM.respects_pure ()
    | error e => exact FileM.respects_throw e

end

theorem prune_shrinks (l : Logger) : FileM.Respects FileM.Shrunk l.prune :=
  (FileM.Respects.of_after_eq (FileM.list_keeps l.directory)).bind fun _ =>
    FileM.respects_forM (fun _ => FileM.Respects.attempt (FileM.remove_shrinks _)) _

/-- The archive that a rotation makes if there is one, as it is before older archives are removed. -/
def stored (l : Logger) (time : String) (files : FileTree) : Option Content :=
  let made : FileM Bool := do
    if ← l.claims then
      l.store time
      return true
    else return false
  match made files with
  | .ok true files => some (files.contentOf (l.archivePath time))
  | _ => none

theorem claims_of_stored (h : l.stored time t ≠ none) : ∃ u, l.claims t = .ok true u := by
  cases hclaims : l.claims t with
  | error e u => exact absurd (by simp only [stored, bind, EStateM.bind, hclaims]) h
  | ok claimed u =>
    cases claimed with
    | true => exact ⟨u, rfl⟩
    | false => exact absurd (by simp only [stored, bind, EStateM.bind, hclaims]; rfl) h

/-- A rotation that is up to the logger moves the log file into an archive. Then it only removes files:
old archives, and that of the lock. -/
theorem store_of_rotate (hclaims : l.claims t = .ok true u) {v : FileTree} {x : Unit}
    (h : l.rotate time t = .ok x v) : ∃ w, l.store time u = .ok () w ∧ FileM.Shrunk w v ∧
      v = FileM.after (FileM.remove (l.path.withExtension "lock")) (FileM.after l.prune w) := by
  rw [rotate_eq, FileM.bind_eq hclaims] at h
  obtain ⟨r, t₁, hresult, h₁⟩ := FileM.bind_ok h
  obtain ⟨_, t₂, hunlock, hlast⟩ := FileM.bind_ok h₁
  obtain ⟨-, hok⟩ := FileM.result_ok hresult
  cases r with
  | error e => exact absurd hlast FileM.throw_ne_ok
  | ok y =>
    obtain ⟨-, rfl⟩ := FileM.pure_ok hlast
    have harchive := hok y rfl
    rw [archive_eq] at harchive
    obtain ⟨_, w, hstore, hprune⟩ := FileM.bind_ok harchive
    have hremoved := FileM.attempt_ok hunlock
    rw [FileM.attempt_ok hprune] at hremoved
    refine ⟨w, hstore, ?_, hremoved⟩
    rw [hremoved]
    exact (prune_shrinks l w).trans (FileM.remove_shrinks _ _)

/-- A rotation either leaves the log file as it is, or moves all that it holds into an archive. -/
theorem rotate_ok {text : String} (hpath : l.path = .ofText text) (htime : '/' ∉ time.toList)
    {x : Unit} (h : l.rotate time t = .ok x u) :
    FileTree.SameDirectories t u ∧
      (l.stored time t = none ∧ u.contentOf l.path = t.contentOf l.path ∨
        l.stored time t = some (l.pack (t.contentOf l.path)) ∧ u.contentOf l.path = .empty) := by
  have hwhole := h
  rw [rotate_eq] at hwhole
  obtain ⟨claimed, t₁, hclaims, hrest⟩ := FileM.bind_ok hwhole
  obtain ⟨hdirs₁, hcontent₁⟩ := claims_ok hclaims
  have hlog₁ := FileTree.contentOf_congr hdirs₁ hcontent₁ l.path
  cases claimed with
  | false =>
    obtain ⟨-, rfl⟩ := FileM.pure_ok hrest
    refine ⟨hdirs₁, Or.inl ⟨?_, hlog₁⟩⟩
    simp only [stored, bind, EStateM.bind, hclaims]
    rfl
  | true =>
    obtain ⟨t₂, hstore, hshrunk, -⟩ := store_of_rotate hclaims h
    obtain ⟨hdirs₂, hstored, place, hplace, hnone⟩ := store_ok hpath htime hstore
    replace hdirs₂ := hdirs₂.trans hshrunk.1
    refine ⟨hdirs₁.trans hdirs₂, Or.inr ⟨?_, ?_⟩⟩
    · simp only [stored, bind, EStateM.bind, hclaims, if_true, hstore]
      rw [← hlog₁, ← hstored]
      rfl
    · rw [FileTree.contentOf_eq (FileTree.locate_congr hdirs₂ hplace)]
      exact FileTree.contentAt_of_none (hshrunk.none hnone)

/-! ## Calls -/

/-- The line of a call. -/
def line (l : Logger) (stamp : Stamp) (n : Note) : ByteArray :=
  Line.bytes ⟨stamp.line, l.session, n.entry⟩

/-- Adds a line, with a rotation before it if one is due. It fails as soon as something goes wrong. -/
def addLine (l : Logger) (time : String) (line : ByteArray) : FileM Unit := do
  if l.writes % checkInterval = 0 then l.rotate time
  FileM.append l.path line

/-- The logger and the files after calls. -/
def logAll (l : Logger) : List (Stamp × Note) → FileTree → Logger × FileTree
  | [], files => (l, files)
  | (stamp, n) :: calls, files =>
    let (l, files) := l.log stamp n files
    l.logAll calls files

/-- The archive that is made before a line is added, if there is one. -/
def archived (l : Logger) (time : String) (files : FileTree) : Option Content :=
  if l.writes % checkInterval = 0 then l.stored time files else none

/-- The archives that calls make, each as it is before older archives are removed. -/
def archives (l : Logger) : List (Stamp × Note) → FileTree → List Content
  | [], _ => []
  | (stamp, n) :: calls, files =>
    let (l', files') := l.log stamp n files
    (l.archived stamp.archive files).toList ++ l'.archives calls files'

theorem archives_cons (l : Logger) (stamp : Stamp) (n : Note) (calls : List (Stamp × Note))
    (files : FileTree) : l.archives ((stamp, n) :: calls) files =
      (l.archived stamp.archive files).toList ++
        (l.log stamp n files).1.archives calls (l.log stamp n files).2 := rfl

/-- Whether all goes well with the files while calls are made. -/
def Succeeds (l : Logger) : List (Stamp × Note) → FileTree → Prop
  | [], _ => True
  | (stamp, n) :: calls, files =>
    ∃ files', l.addLine stamp.archive (l.line stamp n) files = .ok () files' ∧
      Succeeds { l with writes := l.writes + 1 } calls files'

theorem append_ok {p : Path} {bytes : ByteArray} {x : Unit} (h : FileM.append p bytes t = .ok x u) :
    u.contentOf p = (t.contentOf p).append bytes := by
  obtain ⟨place, hplace, -, hdirs, m, hget⟩ := FileM.update_ok h
  rw [FileTree.contentOf_eq hplace, FileTree.contentOf_eq (FileTree.locate_congr hdirs hplace)]
  exact FileTree.contentAt_of_file ((hget place).trans (if_pos rfl))

theorem addLine_ok {text : String} (hpath : l.path = .ofText text) (htime : '/' ∉ time.toList)
    {line : ByteArray} {x : Unit} (h : l.addLine time line t = .ok x u) :
    (l.append time line t).2 = u ∧
      (l.archived time t = none ∧ u.contentOf l.path = (t.contentOf l.path).append line ∨
        l.archived time t = some (l.pack (t.contentOf l.path)) ∧
          u.contentOf l.path = Content.empty.append line) := by
  by_cases hdue : l.writes % checkInterval = 0
  · rw [addLine, if_pos hdue] at h
    obtain ⟨_, v, hrotate, happend⟩ := FileM.bind_ok h
    refine ⟨by simp only [append, if_pos hdue, FileM.after, hrotate, happend], ?_⟩
    rw [archived, if_pos hdue, append_ok happend]
    obtain ⟨-, ⟨hnone, hsame⟩ | ⟨hsome, hempty⟩⟩ := rotate_ok hpath htime hrotate
    · exact Or.inl ⟨hnone, by rw [hsame]⟩
    · exact Or.inr ⟨hsome, by rw [hempty]⟩
  · rw [addLine, if_neg hdue] at h
    refine ⟨by simp only [append, if_neg hdue, FileM.after, h], ?_⟩
    rw [archived, if_neg hdue]
    exact Or.inl ⟨rfl, append_ok h⟩

/-! ## Where all goes well -/

/-- Whether there is room for the log file and for the files that come with it. -/
structure Ready (l : Logger) (time : String) (t : FileTree) : Prop where
  log : t.Fits l.path
  rotating : t.Fits (l.path.withExtension "rotating")
  lock : t.Fits (l.path.withExtension "lock")
  archive : t.Fits (l.archivePath time)

theorem Ready.congr (h : l.Ready time t) (hdirs : FileTree.SameDirectories t u) :
    l.Ready time u :=
  ⟨h.log.congr hdirs, h.rotating.congr hdirs, h.lock.congr hdirs, h.archive.congr hdirs⟩

/-- Whether there is a log file. -/
def Exists (l : Logger) (t : FileTree) : Prop :=
  ∃ place c m, t.locate l.path = .ok place ∧ t.get? place = some (.file c m)

theorem overLimit_file (h : t.Fits l.path) {c : Content} {m : Nat} (hplace : t.locate l.path = .ok place)
    (hfile : t.get? place = some (.file c m)) :
    l.overLimit t = .ok (decide (sizeLimit ≤ c.size)) t := by
  refine overLimit_of_size ?_
  rw [FileM.size, FileM.ask_bind_eq (FileM.find_file h hplace hfile)]
  rfl

theorem overLimit_none (hplace : t.locate l.path = .ok place) (hnone : t.get? place = none) :
    l.overLimit t = .ok false t := by
  have hfind : t.find l.path = .error .notFound := by simp [FileTree.find, hplace, hnone]
  rw [overLimit_of_error (FileM.ask_bind_error hfind)]
  rfl

theorem overLimit_succeeds (h : t.Fits l.path) :
    ∃ full, l.overLimit t = .ok full t ∧ (full = true → l.Exists t) := by
  obtain ⟨-, place, hplace, hroom⟩ := id h
  cases hget : t.get? place with
  | none => exact ⟨false, overLimit_none hplace hget, nofun⟩
  | some e =>
    cases e with
    | directory m => exact absurd hget (hroom m)
    | file c m => exact ⟨_, overLimit_file h hplace hget, fun _ => ⟨place, c, m, hplace, hget⟩⟩

theorem exists_of_touch {p : Path} {x : Unit} (h : FileM.touch p t = .ok x u) (hexists : l.Exists t) :
    l.Exists u := by
  obtain ⟨touched, -, -, hdirs, m, hget⟩ := FileM.update_ok h
  obtain ⟨place, c, n, hplace, hfile⟩ := hexists
  replace hplace := FileTree.locate_congr hdirs hplace
  by_cases heq : place = touched
  · exact ⟨place, _, m, hplace, (hget place).trans (if_pos heq)⟩
  · exact ⟨place, c, n, hplace, ((hget place).trans (if_neg heq)).trans hfile⟩

/-- The logger takes the lock of a full log file if it is free. -/
theorem claims_full (h : l.Ready time t) (hfull : l.overLimit t = .ok true t) (hexists : l.Exists t) :
    ∃ claimed u, l.claims t = .ok claimed u ∧ l.Exists u ∧ (t.locked = [] → claimed = true) := by
  obtain ⟨u, htouch⟩ := FileM.update_succeeds h.lock id
  obtain ⟨touched, -, -, hu⟩ := FileM.update_eq htouch
  obtain ⟨-, k, hk, -⟩ := h.lock.congr (touch_ok htouch).1
  refine ⟨!u.locked.contains k, u, ?_, exists_of_touch htouch hexists, fun hfree => ?_⟩
  · rw [claims, FileM.bind_eq hfull]
    exact (FileM.bind_eq htouch).trans (FileM.isFree_eq hk)
  · have hlocked : u.locked = t.locked := by
      rw [hu]
      rfl
    rw [hlocked, hfree]
    rfl

theorem claims_succeeds (h : l.Ready time t) :
    ∃ claimed u, l.claims t = .ok claimed u ∧ (claimed = true → l.Exists u) := by
  obtain ⟨full, hfull, hexists⟩ := overLimit_succeeds h.log
  cases full with
  | false => exact ⟨false, t, by rw [claims, FileM.bind_eq hfull]; rfl, nofun⟩
  | true =>
    obtain ⟨claimed, u, hclaims, hkept, -⟩ := claims_full h hfull (hexists rfl)
    exact ⟨claimed, u, hclaims, fun _ => hkept⟩

theorem store_succeeds {text : String} (hpath : l.path = .ofText text) (htime : '/' ∉ time.toList)
    (h : l.Ready time t) (hexists : l.Exists t) : ∃ u, l.store time t = .ok () u := by
  obtain ⟨place, c, m, hplace, hfile⟩ := hexists
  obtain ⟨t₁, hrename⟩ := FileM.rename_succeeds h.log hplace hfile h.rotating
  obtain ⟨_, c₁, m₁, rotating, -, -, hrotating, hdirs₁, hget₁⟩ := FileM.rename_ok hrename
  obtain ⟨t₂, hempty⟩ := FileM.update_succeeds (h.archive.congr hdirs₁) fun _ => .empty
  obtain ⟨archive, harchive, -, hdirs₂, _, hget₂⟩ := FileM.update_ok hempty
  have harchive' := FileTree.locate_congr hdirs₁.symm harchive
  have hapart : rotating ≠ archive :=
    Ne.symm (archive_apart hpath htime hplace (FileTree.hasRoom_of_file hfile) hrotating harchive').2
  replace hdirs₂ := hdirs₁.trans hdirs₂
  have hmoved : t₂.get? rotating = some (.file c₁ m₁) := by
    rw [hget₂, if_neg hapart, hget₁, if_pos rfl]
  have hread := FileM.read_succeeds (h.rotating.congr hdirs₂) (FileTree.locate_congr hdirs₂ hrotating)
    hmoved
  obtain ⟨t₃, hwrite⟩ := FileM.update_succeeds (h.archive.congr hdirs₂) fun _ => l.pack c₁
  obtain ⟨k, hk, -, hdirs₃, _, hget₃⟩ := FileM.update_ok hwrite
  cases FileTree.locate_unique hdirs₂ harchive' hk
  replace hdirs₃ := hdirs₂.trans hdirs₃
  have hkept : t₃.get? rotating = some (.file c₁ m₁) := by rw [hget₃, if_neg hapart, hmoved]
  obtain ⟨t₄, hremove⟩ := FileM.remove_succeeds (h.rotating.congr hdirs₃)
    (FileTree.locate_congr hdirs₃ hrotating) hkept
  refine ⟨t₄, ?_⟩
  have hwrite' : FileM.write (l.archivePath time) (l.pack c₁) t₂ = .ok () t₃ := hwrite
  have hempty' : FileM.write (l.archivePath time) .empty t₁ = .ok () t₂ := hempty
  rw [store, FileM.bind_eq hrename, FileM.bind_eq hempty', FileM.bind_eq hread,
    FileM.bind_eq hwrite', hremove]

/-- A full log file is rotated. -/
theorem stored_of_full {text : String} (hpath : l.path = .ofText text) (htime : '/' ∉ time.toList)
    (h : l.Ready time t) {c : Content} {m : Nat} (hplace : t.locate l.path = .ok place)
    (hfile : t.get? place = some (.file c m)) (hfull : sizeLimit ≤ c.size) (hfree : t.locked = []) :
    l.stored time t ≠ none := by
  have hover : l.overLimit t = .ok true t := by
    rw [overLimit_file h.log hplace hfile, decide_eq_true hfull]
  obtain ⟨claimed, u, hclaims, hexists, hclaimed⟩ :=
    claims_full h hover ⟨place, c, m, hplace, hfile⟩
  cases hclaimed hfree
  obtain ⟨v, hstore⟩ := store_succeeds hpath htime (h.congr (claims_ok hclaims).1) hexists
  simp only [stored, bind, EStateM.bind, hclaims, if_true, hstore]
  exact nofun

theorem rotate_succeeds {text : String} (hpath : l.path = .ofText text) (htime : '/' ∉ time.toList)
    (h : l.Ready time t) : ∃ u, l.rotate time t = .ok () u := by
  obtain ⟨claimed, t₁, hclaims, hexists⟩ := claims_succeeds h
  rw [rotate_eq, FileM.bind_eq hclaims]
  cases claimed with
  | false => exact ⟨t₁, rfl⟩
  | true =>
    obtain ⟨t₂, hstore⟩ := store_succeeds hpath htime (h.congr (claims_ok hclaims).1) (hexists rfl)
    have harchive : l.archive time t₁ = .ok () (FileM.after l.prune t₂) := by
      rw [archive_eq, FileM.bind_eq hstore, FileM.attempt_eq]
    have hresult := FileM.result_eq_ok harchive
    exact ⟨_, by rw [if_pos rfl, FileM.bind_eq hresult, FileM.bind_eq (FileM.attempt_eq _ _)]; rfl⟩

/-- Where there is room for its files, a logger has no trouble with them. -/
theorem succeeds_of_ready {text : String} (hpath : l.path = .ofText text)
    {calls : List (Stamp × Note)} (htimes : ∀ call ∈ calls, '/' ∉ call.1.archive.toList)
    (h : ∀ call ∈ calls, l.Ready call.1.archive t) : l.Succeeds calls t := by
  induction calls generalizing l t with
  | nil => trivial
  | cons call calls ih =>
    obtain ⟨stamp, n⟩ := call
    have htime := htimes (stamp, n) List.mem_cons_self
    have hready := h (stamp, n) List.mem_cons_self
    have hadd : ∃ u, l.addLine stamp.archive (l.line stamp n) t = .ok () u ∧
        FileTree.SameDirectories t u := by
      by_cases hdue : l.writes % checkInterval = 0
      · obtain ⟨v, hrotate⟩ := rotate_succeeds hpath htime hready
        have hdirs := (rotate_ok hpath htime hrotate).1
        obtain ⟨u, happend⟩ := FileM.update_succeeds (hready.log.congr hdirs)
          fun c => c.append (l.line stamp n)
        obtain ⟨-, -, -, hdirs', -⟩ := FileM.update_ok happend
        exact ⟨u, by rw [addLine, if_pos hdue, FileM.bind_eq hrotate]; exact happend,
          hdirs.trans hdirs'⟩
      · obtain ⟨u, happend⟩ := FileM.update_succeeds hready.log fun c => c.append (l.line stamp n)
        obtain ⟨-, -, -, hdirs, -⟩ := FileM.update_ok happend
        exact ⟨u, by rw [addLine, if_neg hdue]; exact happend, hdirs⟩
    obtain ⟨u, hline, hdirs⟩ := hadd
    refine ⟨u, hline, ih (l := { l with writes := l.writes + 1 }) hpath
      (fun c hc => htimes c (List.mem_cons_of_mem _ hc)) fun c hc => ?_⟩
    have hlater := (h c (List.mem_cons_of_mem _ hc)).congr hdirs
    exact ⟨hlater.log, hlater.rotating, hlater.lock, hlater.archive⟩

/-! ## All lines -/

/-- Pieces of bytes, put together. -/
def joined (pieces : List ByteArray) : ByteArray := pieces.foldr (· ++ ·) .empty

theorem joined_cons (piece : ByteArray) (pieces : List ByteArray) :
    joined (piece :: pieces) = piece ++ joined pieces := rfl

theorem joined_append (before after : List ByteArray) :
    joined (before ++ after) = joined before ++ joined after := by
  induction before with
  | nil => simp [joined]
  | cons piece before ih => rw [List.cons_append, joined_cons, joined_cons, ih, ByteArray.append_assoc]

theorem joined_flatten (groups : List (List ByteArray)) :
    joined groups.flatten = joined (groups.map joined) := by
  induction groups with
  | nil => rfl
  | cons group groups ih => rw [List.flatten_cons, joined_append, ih, List.map_cons, joined_cons]

/-- What has gone into archives, each unpacked, and what is in the log file at last. -/
def pieces (l : Logger) (unpack : Content → ByteArray) (calls : List (Stamp × Note))
    (files : FileTree) : List ByteArray :=
  (l.archives calls files).map unpack ++ [((l.logAll calls files).2.contentOf l.path).bytes]

/-- The lines of calls. -/
def lines (l : Logger) (calls : List (Stamp × Note)) : List ByteArray :=
  calls.map fun call => l.line call.1 call.2

/-- The lines of calls are spread over the archives and the log file as whole lines. -/
theorem pieces_eq {text : String} (hpath : l.path = .ofText text) {unpack : Content → ByteArray}
    (hpack : ∀ c, unpack (l.pack c) = c.bytes) {calls : List (Stamp × Note)}
    (htimes : ∀ call ∈ calls, '/' ∉ call.1.archive.toList) {files : FileTree}
    (hok : l.Succeeds calls files) :
    ∃ (first : List ByteArray) (rest : List (List ByteArray)),
      l.lines calls = first ++ rest.flatten ∧ l.pieces unpack calls files =
        ((files.contentOf l.path).bytes ++ joined first) :: rest.map joined := by
  induction calls generalizing l files with
  | nil => exact ⟨[], [], rfl, by simp [pieces, archives, logAll, joined]⟩
  | cons call calls ih =>
    obtain ⟨stamp, n⟩ := call
    obtain ⟨files', hadd, hrest⟩ := hok
    have htime := htimes (stamp, n) List.mem_cons_self
    obtain ⟨hfiles, hcontent⟩ := addLine_ok hpath htime hadd
    have hlog : l.log stamp n files = ({ l with writes := l.writes + 1 }, files') :=
      Prod.ext rfl hfiles
    obtain ⟨first, rest, hlines, hpieces⟩ := ih (l := { l with writes := l.writes + 1 }) hpath hpack
      (fun c hc => htimes c (List.mem_cons_of_mem _ hc)) hrest
    have hcons : l.lines ((stamp, n) :: calls) = l.line stamp n :: l.lines calls := rfl
    have hstep : l.pieces unpack ((stamp, n) :: calls) files =
        (l.archived stamp.archive files).toList.map unpack ++
          ({ l with writes := l.writes + 1 } : Logger).pieces unpack calls files' := by
      simp only [pieces, archives_cons, logAll, hlog, List.map_append, List.append_assoc]
    rw [hstep, hpieces, hcons]
    rcases hcontent with ⟨hnone, hcontent⟩ | ⟨hsome, hcontent⟩
    · refine ⟨l.line stamp n :: first, rest, ?_, ?_⟩
      · rw [List.cons_append, ← hlines]
        rfl
      · rw [hnone, hcontent, joined_cons, ← ByteArray.append_assoc]
        rfl
    · refine ⟨[], (l.line stamp n :: first) :: rest, ?_, ?_⟩
      · rw [List.nil_append, List.flatten_cons, List.cons_append, ← hlines]
        rfl
      · rw [hsome, hcontent, List.map_cons, joined_cons]
        simp [hpack, joined, Content.bytes, Content.append, Content.empty]

/-- Over any calls, the archives and the log file hold what was in the log file at first and then one line
for each call, in order. No line is split, and each is read back as the entry of its call. -/
theorem logAll_faithful {text : String} (hpath : l.path = .ofText text)
    {unpack : Content → ByteArray} (hpack : ∀ c, unpack (l.pack c) = c.bytes)
    {calls : List (Stamp × Note)} (htimes : ∀ call ∈ calls, '/' ∉ call.1.archive.toList)
    {files : FileTree} (hok : l.Succeeds calls files) :
    joined (l.pieces unpack calls files) =
        (files.contentOf l.path).bytes ++ joined (l.lines calls) ∧
      (∃ (first : List ByteArray) (rest : List (List ByteArray)),
        l.lines calls = first ++ rest.flatten ∧ l.pieces unpack calls files =
          ((files.contentOf l.path).bytes ++ joined first) :: rest.map joined) ∧
      ∀ call ∈ calls, ∃ json : ByteArray, l.line call.1 call.2 = json ++ "\n".toUTF8 ∧
        10 ∉ json.toList ∧ Line.ofBytes? json = some ⟨call.1.line, l.session,
          { call.2.rawEntry with message := redact call.2.rawEntry.message }⟩ := by
  obtain ⟨first, rest, hlines, hpieces⟩ := pieces_eq hpath hpack htimes hok
  refine ⟨?_, ⟨first, rest, hlines, hpieces⟩, fun call _ => ?_⟩
  · rw [hpieces, hlines, joined_cons, ByteArray.append_assoc, joined_append, joined_flatten]
  · have hexact := call.2.fields_exact 125
    exact ⟨_, Line.bytes_eq _, Json.newline_not_mem_render (Line.toJson_exact hexact),
      Line.ofBytes?_render hexact rfl⟩

/-! ### A run -/

/-- One more byte in the checksum of a gzip file. -/
def checksumStep (sum : UInt32) (b : UInt8) : UInt32 :=
  (List.range 8).foldl (fun s _ => if s &&& 1 = 1 then (s >>> 1) ^^^ 0xEDB88320 else s >>> 1)
    (sum ^^^ b.toUInt32)

/-- A number as four bytes, the lowest first. -/
def littleEndian (n : UInt32) : List UInt8 :=
  [n.toUInt8, (n >>> 8).toUInt8, (n >>> 16).toUInt8, (n >>> 24).toUInt8]

/-- A gzip file in which nothing is compressed: every byte is a block of its own. -/
def gzip (c : Content) : Content :=
  let bytes := c.bytes.data.toList
  let header := [31, 139, 8, 0, 0, 0, 0, 0, 0, 255]
  let blocks := bytes.flatMap fun b => [0, 1, 0, 254, 255, b]
  let sum := bytes.foldl checksumStep 0xFFFFFFFF ^^^ 0xFFFFFFFF
  .ofBytes ⟨(header ++ (blocks ++ [1, 0, 0, 255, 255] ++ littleEndian sum ++
    littleEndian (UInt32.ofNat bytes.length))).toArray⟩

/-- The bytes of blocks of one byte each. -/
def inflate : List UInt8 → List UInt8
  | 0 :: 1 :: 0 :: 254 :: 255 :: b :: rest => b :: inflate rest
  | _ => []

def gunzip (c : Content) : ByteArray := ⟨(inflate (c.bytes.data.toList.drop 10)).toArray⟩

theorem gunzip_gzip (c : Content) : gunzip (gzip c) = c.bytes := by
  have hblocks (bytes rest : List UInt8) :
      inflate (bytes.flatMap (fun b => [0, 1, 0, 254, 255, b]) ++ 1 :: rest) = bytes := by
    induction bytes with
    | nil => rfl
    | cons b bytes ih => exact congrArg (b :: ·) ih
  have hbytes (bytes : List UInt8) : (Content.ofBytes ⟨bytes.toArray⟩).bytes.data.toList = bytes := by
    simp [Content.ofBytes, Content.bytes]
  rw [gunzip, gzip, hbytes]
  simp only [List.append_assoc, List.cons_append, List.nil_append]
  simp [hblocks]

/-- A file of one byte, repeated. -/
def repeated (n : Nat) (b : UInt8) : Content := .ofBytes ⟨Array.replicate n b⟩

theorem size_repeated (n : Nat) (b : UInt8) : (repeated n b).size = n := by
  have hsize : (⟨Array.replicate n b⟩ : ByteArray).size = n := Array.size_replicate
  simp only [repeated, Content.ofBytes, Content.size, List.foldr_cons, List.foldr_nil, hsize,
    Nat.add_zero]

/-- A log file that has reached its limit. -/
def fullFiles : FileTree := ⟨[(["debug.log"], .file (repeated sizeLimit 10) 0)], [], 1⟩

def gzipLogger : Logger := ⟨.ofText "/debug.log", "1a2b3c4d", gzip, 0⟩

/-- A call with a secret, quotes and a line break in its text, and another. -/
def twoCalls : List (Stamp × Note) :=
  [(⟨"2025-01-01T00:00:00+00:00", "20250101_000000"⟩, .error "Storage" "load" "password: x\n\"y\""),
    (⟨"2025-01-01T00:00:01+00:00", "20250101_000001"⟩, .pollerStopped 7)]

theorem twoCalls_ready : ∀ call ∈ twoCalls, gzipLogger.Ready call.1.archive fullFiles := by
  have hlog : fullFiles.Fits gzipLogger.path :=
    ⟨rfl, ["debug.log"], rfl, FileTree.hasRoom_of_file rfl⟩
  have hrotating : fullFiles.Fits (gzipLogger.path.withExtension "rotating") :=
    ⟨rfl, ["debug.rotating"], rfl, FileTree.hasRoom_of_none rfl⟩
  have hlock : fullFiles.Fits (gzipLogger.path.withExtension "lock") :=
    ⟨rfl, ["debug.lock"], rfl, FileTree.hasRoom_of_none rfl⟩
  intro call hcall
  simp only [twoCalls, List.mem_cons, List.not_mem_nil, or_false] at hcall
  rcases hcall with rfl | rfl
  · exact ⟨hlog, hrotating, hlock, rfl, ["debug.20250101_000000.gz"], rfl,
      FileTree.hasRoom_of_none rfl⟩
  · exact ⟨hlog, hrotating, hlock, rfl, ["debug.20250101_000001.gz"], rfl,
      FileTree.hasRoom_of_none rfl⟩

theorem twoCalls_archived : gzipLogger.archives twoCalls fullFiles ≠ [] := by
  have hfull : sizeLimit ≤ (repeated sizeLimit 10).size := Nat.le_of_eq (size_repeated sizeLimit 10).symm
  have hready : gzipLogger.Ready "20250101_000000" fullFiles := twoCalls_ready _ List.mem_cons_self
  have hplace : fullFiles.locate gzipLogger.path = .ok ["debug.log"] := rfl
  have hfile : fullFiles.get? ["debug.log"] = some (.file (repeated sizeLimit 10) 0) := rfl
  have hmade := stored_of_full rfl (by decide) hready hplace hfile hfull rfl
  obtain ⟨c, hc⟩ := Option.ne_none_iff_exists'.mp hmade
  have hdue : gzipLogger.writes % checkInterval = 0 := by decide
  have harchived : gzipLogger.archived "20250101_000000" fullFiles = some c := by
    rw [archived, if_pos hdue, hc]
  rw [twoCalls, archives_cons, harchived]
  exact List.append_ne_nil_of_left_ne_nil (List.cons_ne_nil c []) _

theorem twoCalls_faithful :
    (∀ call ∈ twoCalls, '/' ∉ call.1.archive.toList) ∧ gzipLogger.Succeeds twoCalls fullFiles ∧
      gzipLogger.archives twoCalls fullFiles ≠ [] ∧
      joined (gzipLogger.pieces gunzip twoCalls fullFiles) =
        (fullFiles.contentOf gzipLogger.path).bytes ++ joined (gzipLogger.lines twoCalls) :=
  have htimes : ∀ call ∈ twoCalls, '/' ∉ call.1.archive.toList := by decide
  have hok := succeeds_of_ready rfl htimes twoCalls_ready
  ⟨htimes, hok, twoCalls_archived, (logAll_faithful rfl gunzip_gzip htimes hok).1⟩

end Logger

end RpcPool

import Mathlib.Algebra.GroupWithZero.Nat
import Mathlib.Data.List.DropRight
import RpcPool.Proofs.Rotation

/-!
# How large a log file gets

A new logger looks at the size of its file before the first line, and from then on at least once for every
`checkInterval` lines, also when its counter of 32 bits starts over: that makes the way to the next look
shorter, never longer. While its rotations succeed and nobody else holds the lock, the file is below the
limit after each look, so it never holds more than the limit and the lines that were added since, whatever
was in it at first.

Results:
1. `rotate_sameLocks`: no operation of the logger takes or frees the locks of others.
2. `rotate_small`: after a rotation that succeeds, the log file is below the limit.
3. `exists_due`: the counter reaches a multiple of the interval within the interval, past its wrap too.
4. `log_since`, `logAll_since`: what one call and a run of calls preserve.
5. `logAll_bounded`: the size of the log file after each of any number of calls.
-/

namespace RpcPool

/-! ## Locks -/

namespace FileM

/-- Two trees in which others hold the same locks. -/
def SameLocks (t u : FileTree) : Prop := u.locked = t.locked

instance : IsPreorder FileTree SameLocks where
  refl _ := rfl
  trans _ _ _ h h' := Eq.trans h' h

end FileM

namespace Logger

open Log FileM

variable {l : Logger} {t u : FileTree} {time : String}

theorem rotate_sameLocks (l : Logger) (time : String) : Respects SameLocks (l.rotate time) :=
  rotate_respects (fun _ _ _ _ => rfl) (fun _ _ => rfl) l time

theorem update_sameLocks (p : Path) (f : Content → Content) : Respects SameLocks (update p f) :=
  respects_update (fun _ _ _ _ => rfl) p f

/-! ## After a rotation -/

/-- Whether nobody else holds the lock of a logger. -/
def Alone (l : Logger) (t : FileTree) : Prop :=
  ∀ place, t.locate (l.path.withExtension "lock") = .ok place → place ∉ t.locked

theorem Alone.congr (h : l.Alone t) (hdirs : FileTree.SameDirectories t u)
    (hlocks : SameLocks t u) : l.Alone u :=
  fun place hplace => hlocks ▸ h place (FileTree.locate_congr hdirs.symm hplace)

/-- A log file that has reached its limit is there, and so it is noticed. -/
theorem overLimit_of_full {full : Bool} (h : l.overLimit t = .ok full u)
    (hfull : sizeLimit ≤ (t.contentOf l.path).size) : full = true := by
  have hnonempty : t.contentOf l.path ≠ .empty := fun hempty => by
    rw [hempty] at hfull
    exact absurd hfull (by decide)
  cases hplace : t.locate l.path with
  | error e => exact absurd (by rw [FileTree.contentOf, hplace]) hnonempty
  | ok place =>
    rw [FileTree.contentOf_eq hplace] at hfull hnonempty
    cases hget : t.get? place with
    | none => exact absurd (FileTree.contentAt_of_none hget) hnonempty
    | some e =>
      cases e with
      | directory m => exact absurd (by rw [FileTree.contentAt, hget]) hnonempty
      | file c m =>
        rw [FileTree.contentAt_of_file hget] at hfull
        by_cases hslash : l.path.slash = true
        · have hfind : t.find l.path = .error .notDirectory := by
            simp [FileTree.find, hplace, hget, hslash]
          rw [overLimit_of_error (ask_bind_error hfind), if_neg (by decide)] at h
          exact absurd h throw_ne_ok
        · have hfits : t.Fits l.path :=
            ⟨Bool.eq_false_iff.mpr hslash, place, hplace, FileTree.hasRoom_of_file hget⟩
          rw [overLimit_file hfits hplace hget, decide_eq_true hfull] at h
          cases h
          rfl

theorem claims_of_full {claimed : Bool} (h : l.claims t = .ok claimed u) (halone : l.Alone t)
    (hfull : sizeLimit ≤ (t.contentOf l.path).size) : claimed = true := by
  obtain ⟨full, v, hover, hrest⟩ := bind_ok h
  cases overLimit_of_full hover hfull
  obtain rfl := overLimit_ok hover
  obtain ⟨_, w, htouch, hfree⟩ := bind_ok hrest
  obtain ⟨place, hplace, -⟩ := ask_bind_ok hfree
  have hlocks : SameLocks v w := (update_sameLocks _ id).ok htouch
  have hfree' := halone.congr (touch_ok htouch).1 hlocks place hplace
  rw [isFree_eq hplace] at hfree
  cases hfree
  simpa using hfree'

/-- After a rotation that succeeds, the log file is below the limit: if it had reached it, it is empty. -/
theorem rotate_small {text : String} (hpath : l.path = .ofText text) (htime : '/' ∉ time.toList)
    (halone : l.Alone t) {x : Unit} (h : l.rotate time t = .ok x u) :
    (u.contentOf l.path).size < sizeLimit := by
  have hwhole := h
  rw [rotate_eq] at hwhole
  obtain ⟨claimed, v, hclaims, -⟩ := bind_ok hwhole
  obtain ⟨-, ⟨hnone, hsame⟩ | ⟨-, hempty⟩⟩ := rotate_ok hpath htime h
  · rw [hsame]
    by_contra hfull
    cases claims_of_full hclaims halone (Nat.le_of_not_lt hfull)
    obtain ⟨w, hstore, -⟩ := store_of_rotate hclaims h
    simp only [stored, bind, EStateM.bind, hclaims, if_true, hstore] at hnone
    cases hnone
  · rw [hempty]
    decide

/-! ## The counter -/

/-- Whether a logger looks at the size of its file before the next line. -/
def IsDue (l : Logger) : Prop := l.writes % checkInterval = 0

instance (l : Logger) : Decidable l.IsDue := inferInstanceAs (Decidable (_ = _))

theorem isDue_iff : l.IsDue ↔ l.writes.toNat % checkInterval.toNat = 0 := by
  rw [IsDue, ← UInt32.toNat_inj, UInt32.toNat_mod]
  rfl

theorem logAll_append (l : Logger) (before more : List (Stamp × Note)) (files : FileTree) :
    l.logAll (before ++ more) files =
      (l.logAll before files).1.logAll more (l.logAll before files).2 := by
  induction before generalizing l files with
  | nil => rfl
  | cons call before ih => exact ih (l.log call.1 call.2 files).1 (l.log call.1 call.2 files).2

theorem logAll_logger (l : Logger) (calls : List (Stamp × Note)) (files : FileTree) :
    (l.logAll calls files).1 = { l with writes := l.writes + UInt32.ofNat calls.length } := by
  induction calls generalizing l files with
  | nil => simp [logAll]
  | cons call calls ih =>
    have hcount : l.writes + 1 + UInt32.ofNat calls.length =
        l.writes + UInt32.ofNat (calls.length + 1) := by
      rw [UInt32.ofNat_add, UInt32.add_assoc, UInt32.add_comm 1]
      rfl
    rw [List.length_cons, ← hcount]
    exact ih (l.log call.1 call.2 files).1 (l.log call.1 call.2 files).2

/-- From any count, a multiple of the interval is less than an interval away. Where the counter starts
over, that is at zero. -/
theorem exists_due (w : UInt32) :
    ∃ k < checkInterval.toNat, (w + UInt32.ofNat k).toNat % checkInterval.toNat = 0 := by
  have hinterval : checkInterval.toNat = 200 := rfl
  have hw : w.toNat < 2 ^ 32 := w.toNat_lt
  have hsum (k : Nat) : (w + UInt32.ofNat k).toNat = (w.toNat + k) % 2 ^ 32 := by
    rw [UInt32.toNat_add, UInt32.toNat_ofNat', Nat.add_mod_mod]
  rw [hinterval]
  by_cases hmultiple : w.toNat % 200 = 0
  · refine ⟨0, by decide, ?_⟩
    rw [hsum, Nat.add_zero, Nat.mod_eq_of_lt hw]
    exact hmultiple
  · obtain ⟨k, hk⟩ : ∃ k, k = 200 - w.toNat % 200 := ⟨_, rfl⟩
    by_cases hwrap : w.toNat + k < 2 ^ 32
    · refine ⟨k, by omega, ?_⟩
      rw [hsum, Nat.mod_eq_of_lt hwrap]
      omega
    · refine ⟨2 ^ 32 - w.toNat, by omega, ?_⟩
      rw [hsum, Nat.add_sub_cancel' (Nat.le_of_lt hw), Nat.mod_self]

theorem count_succ {w : UInt32} (h : (w + 1).toNat % checkInterval.toNat ≠ 0) :
    w.toNat % checkInterval.toNat + 1 = (w + 1).toNat % checkInterval.toNat := by
  have hinterval : checkInterval.toNat = 200 := rfl
  have hone : (1 : UInt32).toNat = 1 := rfl
  have hw : w.toNat < 2 ^ 32 := w.toNat_lt
  rw [UInt32.toNat_add, hone, hinterval] at h ⊢
  rcases Nat.lt_or_eq_of_le (Nat.add_one_le_of_lt hw) with hlt | hwrap
  · rw [Nat.mod_eq_of_lt hlt] at h ⊢
    omega
  · rw [hwrap, Nat.mod_self] at h
    exact absurd rfl h

/-- Among as many consecutive calls as the interval says, the size is looked at before one of them. -/
theorem due_in_window (l : Logger) (files : FileTree) {window : List (Stamp × Note)}
    (h : window.length = checkInterval.toNat) :
    ∃ first call rest, window = first ++ call :: rest ∧ (l.logAll first files).1.IsDue := by
  obtain ⟨k, hk, hdue⟩ := exists_due l.writes
  have hlt : k < window.length := h ▸ hk
  refine ⟨window.take k, window[k], window.drop (k + 1), ?_, ?_⟩
  · rw [List.getElem_cons_drop, List.take_append_drop]
  · rw [isDue_iff, logAll_logger, List.length_take, Nat.min_eq_left (Nat.le_of_lt hlt)]
    exact hdue

/-! ## Since the last look -/

/-- How many bytes lines have. -/
def total (lines : List ByteArray) : Nat := (lines.map ByteArray.size).sum

theorem total_append (before after : List ByteArray) :
    total (before ++ after) = total before + total after := by
  simp [total]

theorem total_le_of_suffix {some all : List ByteArray} (h : some <:+ all) : total some ≤ total all := by
  obtain ⟨before, rfl⟩ := h
  rw [total_append]
  exact Nat.le_add_left _ _

/-- What holds after a line: the log file was below the limit at the last look at its size, and `recent`
are the lines since. -/
structure Since (l : Logger) (files : FileTree) (recent : List ByteArray) : Prop where
  size : (files.contentOf l.path).size < sizeLimit + total recent
  length : recent.length ≤ checkInterval.toNat
  count : ¬ l.IsDue → recent.length = l.writes.toNat % checkInterval.toNat

/-- Whether all rotations that are due while calls are made succeed. -/
def Rotates (l : Logger) : List (Stamp × Note) → FileTree → Prop
  | [], _ => True
  | (stamp, n) :: calls, files =>
    (l.IsDue → ∃ files', l.rotate stamp.archive files = .ok () files') ∧
      Rotates (l.log stamp n files).1 calls (l.log stamp n files).2

theorem Rotates.left {before more : List (Stamp × Note)} {files : FileTree}
    (h : l.Rotates (before ++ more) files) : l.Rotates before files := by
  induction before generalizing l files with
  | nil => trivial
  | cons call before ih => exact ⟨h.1, ih h.2⟩

theorem Content.size_append (c : Content) (bytes : ByteArray) :
    (c.append bytes).size = c.size + bytes.size := Nat.add_comm _ _

/-- A line that cannot be added leaves the log file as it is. -/
theorem append_size (p : Path) (bytes : ByteArray) (t : FileTree) :
    FileTree.SameDirectories t (after (FileM.append p bytes) t) ∧
      ((after (FileM.append p bytes) t).contentOf p).size ≤ (t.contentOf p).size + bytes.size := by
  cases hop : FileM.append p bytes t with
  | ok x u =>
    obtain ⟨-, -, -, hdirs, -⟩ := update_ok hop
    simp only [after, hop]
    exact ⟨hdirs, Nat.le_of_eq (by rw [append_ok hop, Content.size_append])⟩
  | error e u =>
    cases update_error hop
    simp only [after, hop]
    exact ⟨.refl _, Nat.le_add_right _ _⟩

/-- One call: a look at the size if one is due, and then the line. -/
theorem log_since {text : String} (hpath : l.path = .ofText text) {stamp : Stamp}
    (htime : '/' ∉ stamp.archive.toList) (n : Note) (halone : l.Alone t)
    (hrotate : l.IsDue → ∃ v, l.rotate stamp.archive t = .ok () v) {recent : List ByteArray}
    (h : ¬ l.IsDue → Since l t recent) :
    (l.log stamp n t).1.Alone (l.log stamp n t).2 ∧ Since (l.log stamp n t).1 (l.log stamp n t).2
      ((if l.IsDue then [] else recent) ++ [l.line stamp n]) := by
  obtain ⟨v, hv⟩ : ∃ v, v = if l.IsDue then after (l.rotate stamp.archive) t else t := ⟨_, rfl⟩
  obtain ⟨kept, hkept⟩ : ∃ kept, kept = if l.IsDue then [] else recent := ⟨_, rfl⟩
  have hlog : l.log stamp n t =
      ({ l with writes := l.writes + 1 }, after (FileM.append l.path (l.line stamp n)) v) := by
    rw [hv]
    rfl
  have hlook : l.Alone v ∧ (v.contentOf l.path).size < sizeLimit + total kept ∧
      kept.length = l.writes.toNat % checkInterval.toNat := by
    by_cases hdue : l.IsDue
    · obtain ⟨w, hw⟩ := hrotate hdue
      have hwv : v = w := by rw [hv, if_pos hdue, after, hw]
      have hlocks := (rotate_sameLocks l stamp.archive).ok hw
      rw [hwv, hkept, if_pos hdue]
      exact ⟨halone.congr (rotate_ok hpath htime hw).1 hlocks,
        rotate_small hpath htime halone hw, (isDue_iff.mp hdue).symm⟩
    · rw [hv, if_neg hdue, hkept, if_neg hdue]
      exact ⟨halone, (h hdue).size, (h hdue).count hdue⟩
  obtain ⟨halone', hsize, hcount⟩ := hlook
  obtain ⟨hdirs, hadded⟩ := append_size l.path (l.line stamp n) v
  have hlocks : SameLocks v (after (FileM.append l.path (l.line stamp n)) v) := update_sameLocks _ _ v
  rw [hlog, ← hkept]
  refine ⟨halone'.congr hdirs hlocks, ?_, ?_, fun hlater => ?_⟩
  · have htotal : total (kept ++ [l.line stamp n]) = total kept + (l.line stamp n).size := by
      simp [total]
    rw [htotal]
    exact lt_of_le_of_lt hadded (by omega)
  · rw [List.length_append, List.length_singleton, hcount]
    exact Nat.mod_lt _ (by decide)
  · rw [List.length_append, List.length_singleton, hcount]
    rw [isDue_iff] at hlater
    exact count_succ hlater

/-- A run of calls, after the lines `earlier`. -/
theorem logAll_since {text : String} (hpath : l.path = .ofText text) {calls : List (Stamp × Note)}
    (htimes : ∀ call ∈ calls, '/' ∉ call.1.archive.toList) {files : FileTree}
    (halone : l.Alone files) (hok : l.Rotates calls files) {earlier recent : List ByteArray}
    (hrecent : recent <:+ earlier) (h : Since l files recent) :
    ∃ last, last <:+ earlier ++ l.lines calls ∧
      Since (l.logAll calls files).1 (l.logAll calls files).2 last := by
  induction calls generalizing l files earlier recent with
  | nil => exact ⟨recent, by rwa [lines, List.map_nil, List.append_nil], h⟩
  | cons call calls ih =>
    obtain ⟨hrotate, hrest⟩ := hok
    obtain ⟨halone', hsince⟩ := log_since hpath (htimes call List.mem_cons_self) call.2 halone
      hrotate fun _ => h
    have hkept : (if l.IsDue then [] else recent) <:+ earlier := by
      split
      · exact List.nil_suffix
      · exact hrecent
    have hadded : (if l.IsDue then [] else recent) ++ [l.line call.1 call.2] <:+
        earlier ++ [l.line call.1 call.2] := by
      obtain ⟨before, hbefore⟩ := hkept
      exact ⟨before, by rw [← List.append_assoc, hbefore]⟩
    obtain ⟨last, hlast, hsince'⟩ := ih (l := (l.log call.1 call.2 files).1) hpath
      (fun c hc => htimes c (List.mem_cons_of_mem _ hc)) halone' hrest hadded hsince
    refine ⟨last, ?_, hsince'⟩
    rw [List.append_assoc] at hlast
    exact hlast

theorem total_le_of_recent {recent all : List ByteArray} (hsuffix : recent <:+ all) {n : Nat}
    (h : recent.length ≤ n) : total recent ≤ total (all.rtake n) := by
  refine total_le_of_suffix ?_
  rw [List.rtake]
  obtain ⟨before, rfl⟩ := hsuffix
  refine ⟨before.drop ((before ++ recent).length - n), ?_⟩
  rw [List.drop_append_of_le_length (by rw [List.length_append]; omega)]

/-- Over any calls of a new logger whose rotations succeed and whose lock nobody else holds, whatever the
log file holds at first: among as many consecutive calls as the interval says, the size is looked at before
one of them, and after each call the file is smaller than the limit and that many of the last lines. -/
theorem logAll_bounded {text : String} (hpath : l.path = .ofText text) (hnew : l.writes = 0)
    {calls : List (Stamp × Note)} (htimes : ∀ call ∈ calls, '/' ∉ call.1.archive.toList)
    {files : FileTree} (halone : l.Alone files) (hok : l.Rotates calls files) :
    (∀ before window rest, calls = before ++ window ++ rest → window.length = checkInterval.toNat →
      ∃ first call more, window = first ++ call :: more ∧
        (l.logAll (before ++ first) files).1.IsDue) ∧
    ∀ done rest, calls = done ++ rest → done ≠ [] →
      ((l.logAll done files).2.contentOf l.path).size <
        sizeLimit + total ((l.lines done).rtake checkInterval.toNat) := by
  refine ⟨fun before window rest _ hlength => ?_, fun done rest hcalls hne => ?_⟩
  · obtain ⟨first, call, more, hwindow, hdue⟩ :=
      due_in_window (l.logAll before files).1 (l.logAll before files).2 hlength
    exact ⟨first, call, more, hwindow, by rwa [logAll_append]⟩
  · subst hcalls
    obtain ⟨call, more, rfl⟩ := List.exists_cons_of_ne_nil hne
    obtain ⟨hrotate, hmore⟩ := hok.left
    have hdue : l.IsDue := by
      rw [IsDue, hnew]
      rfl
    obtain ⟨halone', hsince⟩ := log_since hpath (htimes call (by simp)) call.2 halone
      hrotate (fun h => absurd hdue h : ¬ l.IsDue → Since l files [])
    rw [if_pos hdue] at hsince
    obtain ⟨last, hlast, hsince'⟩ := logAll_since (l := (l.log call.1 call.2 files).1) hpath
      (fun c hc => htimes c (by simp [hc])) halone' hmore List.suffix_rfl hsince
    have hlines : l.lines (call :: more) = [] ++ [l.line call.1 call.2] ++ l.lines more := rfl
    have htotal := total_le_of_recent hlast hsince'.length
    have hsize := hsince'.size
    rw [logAll_logger] at hsize
    rw [hlines]
    exact lt_of_lt_of_le hsize (Nat.add_le_add_left htotal _)

/-! ### A run -/

/-- Where nothing fails, no rotation does. -/
theorem rotates_of_succeeds {text : String} (hpath : l.path = .ofText text)
    {calls : List (Stamp × Note)} (htimes : ∀ call ∈ calls, '/' ∉ call.1.archive.toList)
    {files : FileTree} (h : l.Succeeds calls files) : l.Rotates calls files := by
  induction calls generalizing l files with
  | nil => trivial
  | cons call calls ih =>
    obtain ⟨files', hadd, hrest⟩ := h
    constructor
    · intro hdue
      rw [addLine, if_pos (show l.writes % checkInterval = 0 from hdue)] at hadd
      obtain ⟨_, v, hrotate, -⟩ := bind_ok hadd
      exact ⟨v, hrotate⟩
    · have hlog : l.log call.1 call.2 files = ({ l with writes := l.writes + 1 }, files') :=
        Prod.ext rfl (addLine_ok hpath (htimes call List.mem_cons_self) hadd).1
      rw [hlog]
      exact ih (l := { l with writes := l.writes + 1 }) hpath
        (fun c hc => htimes c (List.mem_cons_of_mem _ hc)) hrest

/-- The first of two calls finds a log file that has reached its limit. -/
theorem twoCalls_bounded :
    (∀ call ∈ twoCalls, '/' ∉ call.1.archive.toList) ∧ gzipLogger.Alone fullFiles ∧
      gzipLogger.Rotates twoCalls fullFiles ∧
      sizeLimit ≤ (fullFiles.contentOf gzipLogger.path).size ∧
      ((gzipLogger.logAll twoCalls fullFiles).2.contentOf gzipLogger.path).size <
        sizeLimit + total ((gzipLogger.lines twoCalls).rtake checkInterval.toNat) :=
  have htimes : ∀ call ∈ twoCalls, '/' ∉ call.1.archive.toList := by decide
  have halone : gzipLogger.Alone fullFiles := fun _ _ => List.not_mem_nil
  have hok : gzipLogger.Rotates twoCalls fullFiles :=
    rotates_of_succeeds rfl htimes (succeeds_of_ready rfl htimes twoCalls_ready)
  have hfull : sizeLimit ≤ (fullFiles.contentOf gzipLogger.path).size :=
    Nat.le_of_eq (size_repeated sizeLimit 10).symm
  have hbounded := logAll_bounded rfl rfl htimes halone hok
  ⟨htimes, halone, hok, hfull, hbounded.2 twoCalls [] (List.append_nil twoCalls).symm nofun⟩

end Logger

end RpcPool

import Mathlib.Data.List.DropRight
import RpcPool.Proofs.Rereading
import RpcPool.Rpc.Address

/-!
# The addresses of probes

A probe is sent to the text of a URL with `/json_rpc` added to it, in place of the slashes at its end. What
is extended in this way is the last part of the URL: its fragment or its query, if it has one. Only without
them is it the path, and the probe goes below it.

The address is read as what the text of the URL is read as, extended. For the path of a file this holds
since slashes at the end of it, which are empty segments, do not change the segments in front of them.

Results:
1. `withoutSlashes_pathText`: slashes at the end of a path are empty segments.
2. `fileSegments_extended`: a segment more at the end of a file path stays there.
3. `Settled.chars_extended`: an address is the text of the extended URL.
4. `Settled.parse_extended`: and it is read as such.
5. `Rpc.address_extends`: what an address keeps of a URI, and when a probe goes below its path.
-/

namespace RpcPool

open Rpc (withoutSlashes interface)

/-! ## What is left out at the end -/

/-- Segments without the empty ones at their end. -/
def withoutEmpty (ss : List (List Char)) : List (List Char) := ss.rdropWhile (·.isEmpty)

theorem withoutEmpty_concat_nil (ss : List (List Char)) : withoutEmpty (ss ++ [[]]) = withoutEmpty ss :=
  List.rdropWhile_concat_pos _ _ _ rfl

theorem withoutEmpty_concat {s : List Char} (h : s ≠ []) (ss : List (List Char)) :
    withoutEmpty (ss ++ [s]) = ss ++ [s] :=
  List.rdropWhile_concat_neg _ _ _ (by simpa using h)

theorem withoutEmpty_padded (ss : List (List Char)) (n : Nat) :
    withoutEmpty (ss ++ List.replicate n []) = withoutEmpty ss := by
  induction n with
  | zero => rw [List.replicate_zero, List.append_nil]
  | succ n ih => rw [List.replicate_succ', ← List.append_assoc, withoutEmpty_concat_nil, ih]

theorem withoutEmpty_append (ss : List (List Char)) :
    ∃ n, ss = withoutEmpty ss ++ List.replicate n [] := by
  induction ss using List.reverseRecOn with
  | nil => exact ⟨0, rfl⟩
  | append_singleton ss s ih =>
    cases s with
    | nil =>
      obtain ⟨n, hn⟩ := ih
      refine ⟨n + 1, ?_⟩
      rw [withoutEmpty_concat_nil, List.replicate_succ', ← List.append_assoc, ← hn]
    | cons c s => exact ⟨0, by simp [withoutEmpty_concat (List.cons_ne_nil c s)]⟩

theorem withoutEmpty_subset (ss : List (List Char)) : withoutEmpty ss ⊆ ss :=
  (List.rdropWhile_prefix _ _).subset

theorem withoutEmpty_last {ss before : List (List Char)} {s : List Char}
    (h : withoutEmpty ss = before ++ [s]) : s ≠ [] := by
  rintro rfl
  have hsame : withoutEmpty (withoutEmpty ss) = withoutEmpty ss := List.rdropWhile_idempotent _ _
  rw [h, withoutEmpty_concat_nil] at hsame
  have hlength := (List.rdropWhile_prefix (·.isEmpty) before).length_le
  rw [show before.rdropWhile (·.isEmpty) = before ++ [[]] from hsame, List.length_append] at hlength
  exact absurd hlength (Nat.not_succ_le_self _)

theorem withoutSlashes_concat {c : Char} (h : c ≠ '/') (cs : List Char) :
    withoutSlashes (cs ++ [c]) = cs ++ [c] :=
  List.rdropWhile_concat_neg _ _ _ (by simpa using h)

theorem withoutSlashes_slash (cs : List Char) : withoutSlashes (cs ++ ['/']) = withoutSlashes cs :=
  List.rdropWhile_concat_pos _ _ _ rfl

/-- Nothing is left out in front of another character. -/
theorem withoutSlashes_cons {c : Char} (h : c ≠ '/') (before cs : List Char) :
    withoutSlashes (before ++ c :: cs) = before ++ c :: withoutSlashes cs := by
  induction cs using List.reverseRecOn with
  | nil => exact withoutSlashes_concat h before
  | append_singleton cs d ih =>
    have hassoc : before ++ c :: (cs ++ [d]) = before ++ c :: cs ++ [d] := by simp
    by_cases hd : d = '/'
    · subst hd
      rw [hassoc, withoutSlashes_slash, ih, withoutSlashes_slash]
    · rw [hassoc, withoutSlashes_concat hd, withoutSlashes_concat hd, hassoc]

namespace Url

/-- Slashes at the end of a path are empty segments. -/
theorem withoutSlashes_pathText {before : List Char} (hbefore : withoutSlashes before = before)
    {ss : List (List Char)} (h : ∀ s ∈ ss, '/' ∉ s) :
    withoutSlashes (before ++ pathText ss) = before ++ pathText (withoutEmpty ss) := by
  induction ss using List.reverseRecOn with
  | nil => simpa [pathText, withoutEmpty] using hbefore
  | append_singleton ss s ih =>
    have hconcat : pathText (ss ++ [s]) = pathText ss ++ '/' :: s := by simp [pathText]
    rcases s.eq_nil_or_concat with rfl | ⟨start, c, rfl⟩
    · rw [withoutEmpty_concat_nil, hconcat, ← List.append_assoc, withoutSlashes_slash,
        ih fun s hs => h s (List.mem_append_left _ hs)]
    · have hc : c ≠ '/' := fun heq => h _ (List.mem_append_right _ List.mem_cons_self) (by simp [heq])
      have hassoc : before ++ (pathText ss ++ '/' :: start.concat c) =
          before ++ pathText ss ++ '/' :: start ++ [c] := by simp
      rw [withoutEmpty_concat (by simp), hconcat, hassoc, withoutSlashes_concat hc, ← hassoc]

/-! ## File paths -/

namespace FilePath

/-- One step along the path of a file. -/
def step (p : FilePath) (s : List Char) : FilePath :=
  if isDoubleDot s then p.back else if isDot s then p else p.forward s

def steps (p : FilePath) (ss : List (List Char)) : FilePath := ss.foldl step p

/-- A path with empty segments at its end. -/
def padded (p : FilePath) (n : Nat) : FilePath := { p with done := List.replicate n [] ++ p.done }

theorem padded_padded (p : FilePath) (m n : Nat) : (p.padded m).padded n = p.padded (m + n) := by
  simp only [padded, ← List.append_assoc, List.replicate_append_replicate, Nat.add_comm]

/-- The segments of a path without empty ones at its start. -/
def kept (p : FilePath) : List (List Char) := p.done.reverse.dropWhile (·.isEmpty)

/-- What a path comes to, and whether it begins with a drive. -/
def parts (p : FilePath) : List (List Char) × Bool :=
  match p.kept with
  | [] => ([[]], p.hasDrive)
  | ss => (ss, p.hasDrive)

theorem step_plain (p : FilePath) {s : List Char} (h : isDotted s = false) : p.step s = p.forward s := by
  simp only [isDotted, Bool.or_eq_false_iff] at h
  rw [step, if_neg (Bool.eq_false_iff.mp h.2), if_neg (Bool.eq_false_iff.mp h.1)]

theorem forward_nil (p : FilePath) : p.forward [] = p.padded 1 := by
  obtain ⟨done, hasDrive⟩ := p
  cases done <;> rfl

theorem steps_replicate (p : FilePath) (n : Nat) : p.steps (List.replicate n []) = p.padded n := by
  induction n generalizing p with
  | zero => rfl
  | succ n ih =>
    have hcons : p.steps (List.replicate (n + 1) []) = (p.step []).steps (List.replicate n []) := rfl
    rw [hcons, step_plain p (by decide), forward_nil, ih, padded_padded, Nat.add_comm]

/-- Only at its end does a path differ from its steps: one that ends in dots ends in an empty segment. -/
theorem walkFile_eq_padded (p : FilePath) (ss : List (List Char)) :
    ∃ n, walkFile p ss = (p.steps ss).padded n := by
  induction ss generalizing p with
  | nil => exact ⟨0, rfl⟩
  | cons s ss ih =>
    have hcons : p.steps (s :: ss) = (p.step s).steps ss := rfl
    rw [hcons, walkFile, step]
    cases ss with
    | nil =>
      split
      · exact ⟨1, rfl⟩
      · split
        · exact ⟨1, rfl⟩
        · exact ⟨0, rfl⟩
    | cons t ss =>
      split
      · exact ih p.back
      · split
        · exact ih p
        · exact ih (p.forward s)

theorem walkFile_concat (p : FilePath) (ss : List (List Char)) {s : List Char} (h : isDotted s = false) :
    walkFile p (ss ++ [s]) = (p.steps ss).forward s := by
  induction ss generalizing p with
  | nil =>
    have hplain := step_plain p h
    simp only [step] at hplain
    simp only [isDotted, Bool.or_eq_false_iff] at h
    rw [List.nil_append, walkFile, if_neg (Bool.eq_false_iff.mp h.2), if_neg (Bool.eq_false_iff.mp h.1)]
    rfl
  | cons t ss ih =>
    have hcons : p.steps (t :: ss) = (p.step t).steps ss := rfl
    have hmore : (ss ++ [s]).isEmpty = false := by simp
    rw [hcons, List.cons_append, walkFile, step]
    simp only [hmore, Bool.false_eq_true, if_false]
    split
    · exact ih p.back
    · split
      · exact ih p
      · exact ih (p.forward t)

theorem encode_ne_nil {s : List Char} (h : s ≠ []) : Percent.encode Percent.path s ≠ [] :=
  fun hnil => h (Percent.eq_nil_of_encode hnil (by decide))

/-- A step to a segment ends in one. -/
theorem forward_head (p : FilePath) {s : List Char} (h : s ≠ []) :
    (p.forward s).done.head? ≠ some [] := by
  have hencode := encode_ne_nil h
  obtain ⟨done, hasDrive⟩ := p
  unfold forward
  split
  · split
    · simpa using encode_ne_nil (List.cons_ne_nil _ _)
    · simpa using hencode
  · split
    · simp
    · simpa using hencode
  · simpa using hencode

theorem steps_append (p : FilePath) (ss ts : List (List Char)) :
    p.steps (ss ++ ts) = (p.steps ss).steps ts :=
  List.foldl_append

end FilePath

/-- A dotted segment of a file path stands right after a drive. -/
theorem FileTidy.after_drive {before more : List (List Char)} {s : List Char}
    (h : FileTidy (before ++ s :: more)) (hs : isDotted s = true) :
    ∃ c, c.isAlpha = true ∧ before = [[c, ':']] := by
  have hnot (hplain : isDotted s = false) : False := by
    rw [hs] at hplain
    cases hplain
  rcases h with hplain | ⟨c, t, rest, hc, heq, hrest⟩
  · exact (hnot (hplain s (List.mem_append_right _ List.mem_cons_self))).elim
  · rcases before with _ | ⟨first, _ | ⟨second, before⟩⟩
    · obtain ⟨rfl, -⟩ := List.cons.inj heq
      exact (hnot (isDotted_drive c)).elim
    · exact ⟨c, hc, by rw [(List.cons.inj heq).1]⟩
    · obtain ⟨-, htail⟩ := List.cons.inj (List.cons.inj heq).2
      exact (hnot (hrest s (htail ▸ List.mem_append_right _ List.mem_cons_self))).elim

namespace FilePath

/-- Dots after a drive lead back to it. -/
theorem step_drive {c : Char} (hc : c.isAlpha = true) {s : List Char} (hs : isDotted s = true) :
    (⟨[[c, ':']], true⟩ : FilePath).step s = ⟨[[c, ':']], true⟩ := by
  have hback : (⟨[[c, ':']], true⟩ : FilePath).back = ⟨[[c, ':']], true⟩ :=
    if_pos (by simp [isDrive, hc])
  rw [step, hback]
  split
  · rfl
  · next hdouble =>
    simp only [isDotted, Bool.or_eq_true, hdouble, or_false, Bool.false_eq_true] at hs
    rw [if_pos hs]

/-- The path of a file without empty segments at its end takes steps to a last segment. -/
theorem steps_head {ss : List (List Char)} (h : FileTidy ss) :
    ((⟨[], false⟩ : FilePath).steps (withoutEmpty ss)).done.head? ≠ some [] := by
  obtain ⟨n, hend⟩ := withoutEmpty_append ss
  rcases (withoutEmpty ss).eq_nil_or_concat' with hnil | ⟨before, s, hconcat⟩
  · rw [hnil]
    exact nofun
  · have hsingle (p : FilePath) : p.steps [s] = p.step s := rfl
    rw [hconcat, steps_append, hsingle]
    cases hs : isDotted s with
    | false =>
      rw [step_plain _ hs]
      exact forward_head _ (withoutEmpty_last hconcat)
    | true =>
      rw [hend, hconcat, List.append_assoc] at h
      obtain ⟨c, hc, rfl⟩ := h.after_drive hs
      have hdrive : (⟨[], false⟩ : FilePath).steps [[c, ':']] = ⟨[[c, ':']], true⟩ := by
        have hforward : (⟨[], false⟩ : FilePath).forward [c, ':'] = ⟨[[c, ':']], true⟩ :=
          if_pos (by simp [isDrive, hc])
        rw [← hforward, ← step_plain _ (isDotted_drive c)]
        rfl
      rw [hdrive, step_drive hc hs]
      simp

theorem kept_cons (p : FilePath) {s : List Char} (hs : s ≠ []) :
    kept { p with done := s :: p.done } = p.kept ++ [s] := by
  have hpos : ([s] : List (List Char)).dropWhile (·.isEmpty) = [s] :=
    List.dropWhile_cons_of_neg (by simpa using hs)
  simp only [kept, List.reverse_cons, List.dropWhile_append, hpos]
  split
  · next hnil => rw [List.isEmpty_iff.mp hnil, List.nil_append]
  · rfl

theorem parts_eq {p : FilePath} (h : p.kept ≠ []) : p.parts = (p.kept, p.hasDrive) := by
  unfold parts
  split
  · next hnil => exact absurd hnil h
  · rfl

theorem kept_padded {p : FilePath} (h : p.kept ≠ []) (n : Nat) :
    (p.padded n).kept = p.kept ++ List.replicate n [] := by
  have hne : p.kept.isEmpty = false := by simpa using h
  simp only [kept] at hne
  simp [kept, padded, List.dropWhile_append, hne]

/-- Empty segments at the end of a path are left out, and all others stay. -/
theorem parts_padded {p : FilePath} (h : p.done.head? ≠ some []) (n : Nat) :
    withoutEmpty (p.padded n).parts.1 = p.kept ∧ (p.padded n).parts.2 = p.hasDrive := by
  obtain ⟨done, hasDrive⟩ := p
  cases done with
  | nil =>
    have hnone : (List.replicate n ([] : List Char)).dropWhile (·.isEmpty) = [] :=
      List.dropWhile_eq_nil_iff.mpr fun s hs => (List.eq_of_mem_replicate hs) ▸ rfl
    simp [parts, padded, kept, hnone, withoutEmpty]
  | cons s done =>
    have hs : s ≠ [] := fun hnil => h (congrArg some hnil)
    have hkept := kept_cons ⟨done, hasDrive⟩ hs
    have hne : kept ⟨s :: done, hasDrive⟩ ≠ [] := by simp [hkept]
    have hpadded := kept_padded hne n
    rw [parts_eq (by simp [hpadded, hne]), hpadded]
    refine ⟨?_, rfl⟩
    rw [withoutEmpty_padded, hkept, withoutEmpty_concat hs]

end FilePath

/-! ## The path of the interface -/

/-- The last segment of an address. -/
def interfaceName : List Char := "json_rpc".toList

theorem segment_interface (kind : SchemeKind) : Segment kind interfaceName := by
  have hslash : ∀ c ∈ interfaceName, c ≠ '/' ∧ c ≠ '\\' := Text.forall_of_all (by decide)
  exact ⟨by decide, fun c hc => by simp [isSlash, hslash c hc]⟩

theorem segments_extended {kind : SchemeKind} {ss : List (List Char)} (h : ∀ s ∈ ss, Segment kind s) :
    ∀ s ∈ withoutEmpty ss ++ [interfaceName], Segment kind s := fun s hs =>
  (List.mem_append.mp hs).elim (fun hs => h s (withoutEmpty_subset ss hs)) fun hs =>
    List.mem_singleton.mp hs ▸ segment_interface kind

theorem forward_interface (p : FilePath) :
    p.forward interfaceName = { p with done := interfaceName :: p.done } := by
  obtain ⟨done, hasDrive⟩ := p
  have hencode : Percent.encode Percent.path interfaceName = interfaceName := by decide
  cases done with
  | nil => exact congrArg (fun s => (⟨[s], hasDrive⟩ : FilePath)) hencode
  | cons s done => exact congrArg (fun t => (⟨t :: s :: done, hasDrive⟩ : FilePath)) hencode

theorem fileSegments_eq {ss : List (List Char)} (hne : ss ≠ []) (h : ∀ s ∈ ss, Segment .file s) :
    fileSegments (afterSlash .file (pathText ss)) = (walkFile ⟨[], false⟩ ss).parts := by
  cases ss with
  | nil => exact absurd rfl hne
  | cons s ss =>
    have hcons : afterSlash .file (pathText (s :: ss)) = s ++ pathText ss := rfl
    have hpieces := pieces_pathText fun t ht => (h t ht).whole
    rw [hcons, ← hpieces]
    rfl

/-- A segment more at the end of a file path stays there. -/
theorem fileSegments_extended {ss : List (List Char)} (hne : ss ≠ []) (htidy : FileTidy ss)
    (h : ∀ s ∈ ss, Segment .file s) :
    fileSegments (afterSlash .file (pathText (withoutEmpty ss ++ [interfaceName]))) =
      let path := fileSegments (afterSlash .file (pathText ss))
      (withoutEmpty path.1 ++ [interfaceName], path.2) := by
  let p : FilePath := (⟨[], false⟩ : FilePath).steps (withoutEmpty ss)
  have hlong : fileSegments (afterSlash .file (pathText (withoutEmpty ss ++ [interfaceName]))) =
      (p.kept ++ [interfaceName], p.hasDrive) := by
    have hkept := FilePath.kept_cons p (s := interfaceName) (by decide)
    rw [fileSegments_eq (by simp) (segments_extended h), FilePath.walkFile_concat _ _ (by decide),
      forward_interface, FilePath.parts_eq (by rw [hkept]; simp), hkept]
  have hshort : ∃ n, walkFile ⟨[], false⟩ ss = p.padded n := by
    obtain ⟨m, hm⟩ := FilePath.walkFile_eq_padded ⟨[], false⟩ ss
    obtain ⟨n, hn⟩ := withoutEmpty_append ss
    have hsteps : (⟨[], false⟩ : FilePath).steps ss = p.padded n := by
      rw [hn, FilePath.steps_append, FilePath.steps_replicate]
    exact ⟨n + m, by rw [hm, hsteps, FilePath.padded_padded]⟩
  obtain ⟨n, hn⟩ := hshort
  obtain ⟨hparts, hdrive⟩ := FilePath.parts_padded (FilePath.steps_head htidy) n
  rw [hlong, fileSegments_eq hne h, hn]
  exact congrArg₂ Prod.mk (congrArg (· ++ _) hparts.symm) hdrive.symm

/-- A path with the one of the interface at its end, in place of slashes. -/
def extendedPath : UrlPath → UrlPath
  | .segments ss => .segments (withoutEmpty ss ++ [interfaceName])
  | .opaqueText cs => .opaqueText (withoutSlashes cs ++ interface)

/-- A URL with the path of the interface at the end of its text, where the last part is its fragment, its
query or its path. -/
def extended (u : Url) : Url :=
  match u.fragment, u.query with
  | some f, _ => { u with fragment := some (withoutSlashes f ++ interface) }
  | none, some q => { u with query := some (withoutSlashes q ++ interface) }
  | none, none => { u with path := extendedPath u.path }

theorem extended_cases (u : Url) :
    (∃ f, u.fragment = some f ∧
      u.extended = { u with fragment := some (withoutSlashes f ++ interface) }) ∨
    (u.fragment = none ∧ ∃ q, u.query = some q ∧
      u.extended = { u with query := some (withoutSlashes q ++ interface) }) ∨
    (u.fragment = none ∧ u.query = none ∧ u.extended = { u with path := extendedPath u.path }) := by
  obtain ⟨scheme, username, password, host, port, path, query, fragment⟩ := u
  cases fragment with
  | some f => exact Or.inl ⟨f, rfl, rfl⟩
  | none =>
    cases query with
    | some q => exact Or.inr (Or.inl ⟨rfl, q, rfl, rfl⟩)
    | none => exact Or.inr (Or.inr ⟨rfl, rfl, rfl⟩)

/-- Only what follows the host is extended. -/
theorem extended_start (u : Url) : u.extended.scheme = u.scheme ∧ u.extended.username = u.username ∧
    u.extended.password = u.password ∧ u.extended.host = u.host ∧ u.extended.port = u.port := by
  unfold extended
  split <;> exact ⟨rfl, rfl, rfl, rfl, rfl⟩

theorem authorityText_extended (u : Url) (h : Host) :
    u.extended.authorityText h = u.authorityText h := by
  obtain ⟨-, husername, hpassword, -, hport⟩ := u.extended_start
  simp only [authorityText, userInfo, portText, husername, hpassword, hport]

theorem clear_interface {e : Percent.Escapes} (he : Percent.Clear e interface) {cs : List Char}
    (h : Percent.Clear e cs) : Percent.Clear e (withoutSlashes cs ++ interface) := by
  have hsub : withoutSlashes cs ⊆ cs := (List.rdropWhile_prefix _ _).subset
  exact Percent.Clear.append (fun c hc => h c (hsub hc)) he

theorem FileTidy.withoutEmpty {ss : List (List Char)} (h : FileTidy ss) : FileTidy (withoutEmpty ss) := by
  induction ss using List.reverseRecOn with
  | nil => exact h
  | append_singleton ss s ih =>
    cases s with
    | nil =>
      rw [withoutEmpty_concat_nil]
      exact ih (by simpa using h.dropLast)
    | cons c s => rwa [withoutEmpty_concat (List.cons_ne_nil c s)]

/-- A path without the empty segments at its end and with one of the interface is one of its kind. -/
theorem Along.extended {kind : SchemeKind} {ss : List (List Char)} (h : Along kind ss) :
    Along kind (withoutEmpty ss ++ [interfaceName]) := by
  obtain ⟨hsegments, -, hplain⟩ := h
  have hname : isDotted interfaceName = false := by decide
  refine ⟨segments_extended hsegments, fun _ => by simp, ?_⟩
  split
  · next hkind =>
    rw [if_pos hkind] at hplain
    exact hplain.withoutEmpty.concat hname
  · next hkind =>
    rw [if_neg hkind] at hplain
    intro s hs
    rcases List.mem_append.mp hs with hs | hs
    · exact hplain s (withoutEmpty_subset ss hs)
    · exact List.mem_singleton.mp hs ▸ hname

namespace Settled

variable {u : Url} {h : Host} {ss : List (List Char)}

theorem extended (hu : u.Settled h ss) : ∃ ss', u.extended.Settled h ss' := by
  have hquery : Percent.Clear (querySet (SchemeKind.ofScheme u.scheme)) interface := by
    cases SchemeKind.ofScheme u.scheme <;> decide
  rcases u.extended_cases with ⟨f, hf, heq⟩ | ⟨-, q, hq, heq⟩ | ⟨-, -, heq⟩
  · refine ⟨ss, heq ▸ { hu with fragment := fun g hg => ?_ }⟩
    cases hg
    exact clear_interface (by decide) (hu.fragment f hf)
  · refine ⟨ss, heq ▸ { hu with query := fun r hr => ?_ }⟩
    cases hr
    exact clear_interface hquery (hu.query q hq)
  · refine ⟨withoutEmpty ss ++ [interfaceName],
      heq ▸ { hu with path := ?_, segments := hu.segments.extended }⟩
    exact congrArg extendedPath hu.path

theorem no_slash (hu : u.Settled h ss) : ∀ s ∈ ss, '/' ∉ s := fun s hs hmem => by
  have hslash := (hu.segments.1 s hs).whole '/' hmem
  simp [isSlash] at hslash

theorem path_extended (hu : u.Settled h ss) (before : List Char)
    (hbefore : withoutSlashes before = before) :
    before ++ (extendedPath u.path).text = withoutSlashes (before ++ u.path.text) ++ interface := by
  have hconcat : (extendedPath u.path).text = pathText (withoutEmpty ss) ++ interface := by
    rw [hu.path]
    exact List.flatMap_append
  rw [hu.path_text, withoutSlashes_pathText hbefore hu.no_slash, hconcat, List.append_assoc]

/-- No slash is taken from what stands in front of the path. -/
theorem authority_kept (hu : u.Settled h ss) (before : List Char) :
    withoutSlashes (before ++ u.authorityText h) = before ++ u.authorityText h := by
  obtain ⟨start, c, heq⟩ :=
    (List.eq_nil_or_concat' (u.authorityText h)).resolve_left hu.authority.nonempty
  have hc : c ≠ '/' := (isBare_iff.mp (hu.authorityText_bare c (by simp [heq]))).2.1
  rw [heq, ← List.append_assoc, withoutSlashes_concat hc]

/-- An address is the text of the extended URL. -/
theorem chars_extended (hu : u.Settled h ss) :
    u.extended.chars = withoutSlashes u.chars ++ interface := by
  have hmark (mark : Char) (hmark : mark ≠ '/') (before cs : List Char) :
      before ++ mark :: (withoutSlashes cs ++ interface) =
        withoutSlashes (before ++ mark :: cs) ++ interface := by
    rw [withoutSlashes_cons hmark, List.append_assoc, List.cons_append]
  obtain ⟨ss', hu'⟩ := hu.extended
  rw [chars_eq hu'.host, chars_eq hu.host, u.extended_start.1, u.authorityText_extended]
  rcases u.extended_cases with ⟨f, hf, heq⟩ | ⟨hf, q, hq, heq⟩ | ⟨hf, hq, heq⟩
  · have hend := hmark '#' (by decide)
      (assembled u.scheme (u.authorityText h) (tailText u.path.text u.query none)) f
    rw [heq, hf]
    simpa [assembled, tailText] using hend
  · have hend := hmark '?' (by decide)
      (assembled u.scheme (u.authorityText h) (tailText u.path.text none none)) q
    rw [heq, hf, hq]
    simpa [assembled, tailText] using hend
  · have hend := hu.path_extended _ (hu.authority_kept (u.scheme ++ "://".toList))
    rw [heq, hf, hq]
    simpa [assembled, tailText] using hend

theorem parse_extended_web (hu : u.Settled h ss) (hkind : SchemeKind.ofScheme u.scheme ≠ .file) :
    parse u.extended.text = (parse u.text).map Url.extended := by
  obtain ⟨ss', hu'⟩ := hu.extended
  obtain ⟨hscheme, -, -, -, hport⟩ := u.extended_start
  have hsame : readHost (SchemeKind.ofScheme u.extended.scheme) h.text u.extended.port.isSome =
      readHost (SchemeKind.ofScheme u.scheme) h.text u.port.isSome := by
    rw [hscheme, hport]
  rw [hu.parse_text_web hkind, hu'.parse_text_web (hscheme ▸ hkind), hsame]
  cases readHost (SchemeKind.ofScheme u.scheme) h.text u.port.isSome with
  | error e => rfl
  | ok host =>
    have hextended : { u.extended with host } = Url.extended { u with host } := by
      rcases u.extended_cases with ⟨f, hf, heq⟩ | ⟨hf, q, hq, heq⟩ | ⟨hf, hq, heq⟩
      · rw [heq, Url.extended, hf]
      · rw [heq, Url.extended, hf, hq]
      · rw [heq, Url.extended, hf, hq]
    exact congrArg Except.ok hextended

theorem parse_extended_file (hu : u.Settled h ss) (hkind : SchemeKind.ofScheme u.scheme = .file) :
    parse u.extended.text = (parse u.text).map Url.extended := by
  obtain ⟨ss', hu'⟩ := hu.extended
  obtain ⟨hscheme, -⟩ := u.extended_start
  obtain ⟨hsegments, hne, htidy⟩ := hu.segments
  rw [hkind] at hsegments
  rw [if_pos hkind] at htidy
  have hlong := fileSegments_extended (hne (by rw [hkind]; rfl)) htidy hsegments
  have hpath := hu'.path
  rw [hu.parse_text_file hkind, hu'.parse_text_file (hscheme ▸ hkind), hscheme]
  cases Host.ofText h.text with
  | error e => rfl
  | ok host =>
    rcases u.extended_cases with ⟨f, hf, heq⟩ | ⟨hf, q, hq, heq⟩ | ⟨hf, hq, heq⟩
    · rw [heq, hu.path] at hpath
      cases hpath
      simp only [Except.map, heq, hf]
      rfl
    · rw [heq, hu.path] at hpath
      cases hpath
      simp only [Except.map, heq, hf, hq]
      rfl
    · rw [heq, hu.path] at hpath
      cases hpath
      simp only [Except.map, heq, hf, hq, hlong]
      rfl

/-- The text of an extended URL is read as what the URL itself is read as, extended. -/
theorem parse_extended (hu : u.Settled h ss) :
    parse u.extended.text = (parse u.text).map Url.extended := by
  by_cases hkind : SchemeKind.ofScheme u.scheme = .file
  · exact hu.parse_extended_file hkind
  · exact hu.parse_extended_web hkind

end Settled

end Url

namespace Rpc

theorem withoutSlashes_ne (cs : List Char) : withoutSlashes cs ++ interface ≠ cs := by
  have hslash : interface = "/json_rp".toList ++ ['c'] := rfl
  intro heq
  have hend : withoutSlashes cs = cs := by
    rw [← heq, hslash, ← List.append_assoc, withoutSlashes_concat (by decide)]
  rw [hend] at heq
  exact List.cons_ne_nil _ _ (List.append_right_eq_self.mp heq)

theorem address_ok {uri a : String} (h : address uri = .ok a) :
    ∃ u host, Url.parse (normalize uri) = .ok u ∧ u.host = some host ∧
      a = String.ofList (withoutSlashes u.chars ++ interface) := by
  unfold address at h
  split at h
  · cases h
  · next u hread =>
    cases hhost : u.host with
    | none =>
      rw [hhost] at h
      cases h
    | some host =>
      rw [hhost] at h
      cases h
      exact ⟨u, host, hread, hhost, rfl⟩

/-- Only the path is extended, and in place of its slashes, exactly if there is neither query nor
fragment. -/
theorem extended_path_iff {u : Url} {h : Host} {ss : List (List Char)} (hu : u.Settled h ss) :
    u.extended.query = u.query ∧ u.extended.path.text = withoutSlashes u.path.text ++ interface ↔
      u.query = none ∧ u.fragment = none := by
  rcases u.extended_cases with ⟨f, hf, heq⟩ | ⟨hf, q, hq, heq⟩ | ⟨hf, hq, heq⟩
  · simp [heq, hf, (withoutSlashes_ne u.path.text).symm]
  · simp [heq, hq, withoutSlashes_ne]
  · have hpath := hu.path_extended [] rfl
    simp only [List.nil_append] at hpath
    simp [heq, hf, hq, hpath]

/-- An address is read as the text of the URL of its URI is, extended. If this text is read as the URL
itself, which outside of files is only a matter of its host, then the address keeps scheme, user, host and
port. It keeps the query and leads to the interface below the path exactly if the URI has neither a query
nor a fragment. -/
theorem address_extends {uri a : String} (h : address uri = .ok a) :
    ∃ u host, Url.parse (normalize uri) = .ok u ∧ u.host = some host ∧
      Url.parse a = (Url.parse u.text).map Url.extended ∧
      (SchemeKind.ofScheme u.scheme ≠ .file → Url.parse u.text =
        (Url.readHost (SchemeKind.ofScheme u.scheme) host.text u.port.isSome).map fun host =>
          { u with host }) ∧
      (Url.parse u.text = .ok u → ∃ v, Url.parse a = .ok v ∧
        v.scheme = u.scheme ∧ v.username = u.username ∧ v.password = u.password ∧ v.host = u.host ∧
        v.port = u.port ∧
        (v.query = u.query ∧ v.path.text = withoutSlashes u.path.text ++ interface ↔
          u.query = none ∧ u.fragment = none)) := by
  obtain ⟨u, host, hread, hhost, rfl⟩ := address_ok h
  obtain ⟨ss, hu⟩ := Url.parse_settled hread hhost
  have hparse : Url.parse (String.ofList (withoutSlashes u.chars ++ interface)) =
      (Url.parse u.text).map Url.extended := by
    rw [← hu.chars_extended]
    exact hu.parse_extended
  obtain ⟨hscheme, husername, hpassword, hhost', hport⟩ := u.extended_start
  refine ⟨u, host, hread, hhost, hparse, hu.parse_text_web, fun hsame => ?_⟩
  rw [hsame] at hparse
  exact ⟨u.extended, hparse, hscheme, husername, hpassword, hhost', hport, extended_path_iff hu⟩

/-- The URL of a path of this host. -/
def loopback (path : List (List Char)) (query : Option (List Char)) : Url :=
  ⟨"http".toList, [], [], some (.ipv6 ⟨[0, 0, 0, 0, 0, 0, 0, 1]⟩), none, .segments path, query, none⟩

/-- A path alone is extended, and beside a query it is not. -/
theorem loopback_extended :
    address "[::1]/a//" = .ok "http://[::1]/a/json_rpc" ∧
      address "[::1]/a/?b" = .ok "http://[::1]/a/?b/json_rpc" ∧
      (∃ v, Url.parse "http://[::1]/a/json_rpc" = .ok v ∧
        v.query = none ∧ v.path.text = "/a/json_rpc".toList) ∧
      ∃ v, Url.parse "http://[::1]/a/?b/json_rpc" = .ok v ∧
        ¬ (v.query = some "b".toList ∧ v.path.text = "/a/json_rpc".toList) := by
  have hpath : address "[::1]/a//" = .ok "http://[::1]/a/json_rpc" := by decide +kernel
  have hquery : address "[::1]/a/?b" = .ok "http://[::1]/a/?b/json_rpc" := by decide +kernel
  refine ⟨hpath, hquery, ?_, ?_⟩
  · obtain ⟨u, -, hread, -, -, -, hextends⟩ := address_extends hpath
    have hu : Url.parse (normalize "[::1]/a//") = .ok (loopback ["a".toList, [], []] none) := by
      decide +kernel
    obtain rfl : loopback ["a".toList, [], []] none = u := Except.ok.inj (hu.symm.trans hread)
    obtain ⟨v, hv, -, -, -, -, -, hiff⟩ := hextends (by decide +kernel)
    exact ⟨v, hv, hiff.mpr ⟨rfl, rfl⟩⟩
  · obtain ⟨u, -, hread, -, -, -, hextends⟩ := address_extends hquery
    have hu : Url.parse (normalize "[::1]/a/?b") = .ok (loopback ["a".toList, []] (some "b".toList)) := by
      decide +kernel
    obtain rfl : loopback ["a".toList, []] (some "b".toList) = u :=
      Except.ok.inj (hu.symm.trans hread)
    obtain ⟨v, hv, -, -, -, -, -, hiff⟩ := hextends (by decide +kernel)
    exact ⟨v, hv, fun heq => absurd (hiff.mp heq).1 (Option.some_ne_none _)⟩

end Rpc

end RpcPool

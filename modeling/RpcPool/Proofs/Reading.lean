import Mathlib.Data.List.TakeWhile
import RpcPool.Proofs.Encoding

/-!
# URLs as they are read

What is known of a URL with a host once it was read. Its scheme is in small letters, its host can stand in
a text, and its port is not the standard one. User, path, query and fragment hold nothing that has to be
encoded. No dots are left in the path, but for one case: a file path that begins with a drive and goes on
without a slash, as in `c:..`, is split there, and the rest is kept as it is.

Results:
1. `segments_settled`, `fileSegments_settled`: the segments of a path.
2. `splitTail_clear`: query and fragment.
3. `readAuthority_ok`, `port?_ok`: user, host and port.
4. `parse_settled`: everything that is known of a URL with a host.
-/

namespace RpcPool

namespace Url

/-! ## Schemes -/

/-- Whether a text is a scheme, in small letters. -/
structure IsScheme (scheme : List Char) : Prop where
  chars : ∀ c ∈ scheme, isSchemeChar c = true
  letter : scheme.head?.any Char.isAlpha = true
  small : scheme.map Char.toLower = scheme

theorem isScheme_lower {cs : List Char} (h : ∀ c ∈ cs, isSchemeChar c = true)
    (hletter : cs.head?.any Char.isAlpha = true) : IsScheme (cs.map Char.toLower) := by
  have hcapitals : ∀ c ∈ Text.capitals, isSchemeChar c.toLower = true ∧
      c.toLower.isAlpha = true ∧ c.toLower.toLower = c.toLower := Text.forall_of_all (by decide)
  have hlower (c : Char) : (isSchemeChar c = true → isSchemeChar c.toLower = true) ∧
      (c.isAlpha = true → c.toLower.isAlpha = true) ∧ c.toLower.toLower = c.toLower := by
    rcases Text.toLower_cases c with hsame | hcapital
    · exact ⟨fun h => hsame.symm ▸ h, fun h => hsame.symm ▸ h, by rw [hsame, hsame]⟩
    · obtain ⟨hchar, halpha, hsmall⟩ := hcapitals c hcapital
      exact ⟨fun _ => hchar, fun _ => halpha, hsmall⟩
  refine ⟨fun c hc => ?_, ?_, ?_⟩
  · obtain ⟨d, hd, rfl⟩ := List.mem_map.mp hc
    exact (hlower d).1 (h d hd)
  · cases cs with
    | nil => cases hletter
    | cons c cs => exact (hlower c).2.1 hletter
  · rw [List.map_map]
    exact List.map_congr_left fun c _ => (hlower c).2.2

theorem scheme?_ok {cs scheme rest : List Char} (h : scheme? cs = some (scheme, rest)) :
    IsScheme scheme := by
  unfold scheme? at h
  dsimp only at h
  split at h
  · split at h
    · next hletter =>
      cases h
      exact isScheme_lower (fun c hc => List.mem_takeWhile_imp hc) hletter
    · cases h
  · cases h

/-! ## Authorities -/

/-- What stands before and after the at sign of an authority. -/
def splitUser (cs : List Char) (isLast : Bool) : Except UrlError (List Char × List Char) :=
  match atLast cs with
  | none => .ok ([], cs)
  | some (user, rest) =>
    if user.isEmpty && rest.isEmpty && !isLast then .error .emptyHost else .ok (user, rest)

/-- Reads host and port, given what stands before the at sign and after it. -/
def readAfterUser (scheme user cs : List Char) : Except UrlError Authority := do
  let (username, password) := credentials user
  let (hostText, afterHost) := splitHost false cs
  let host ← readHost (SchemeKind.ofScheme scheme) hostText (afterHost.head? = some ':')
  let (port, rest) ← port? scheme afterHost
  if host.isNone && !(username.isEmpty && password.isEmpty) then throw .emptyHost
  return ⟨username, password, host, port, rest⟩

theorem readAuthority_eq (scheme cs : List Char) (isLast : Bool) : readAuthority scheme cs isLast =
    (splitUser cs isLast).bind fun r => readAfterUser scheme r.1 r.2 := by
  unfold readAuthority splitUser
  cases atLast cs with
  | none => rfl
  | some r =>
    obtain ⟨user, rest⟩ := r
    by_cases hempty : (user.isEmpty && rest.isEmpty && !isLast) = true
    · simp only [hempty, if_true]
      rfl
    · simp only [hempty]
      rfl

variable {scheme user cs : List Char} {a : Authority}

theorem readAfterUser_ok (h : readAfterUser scheme user cs = .ok a) :
    ∃ host, readHost (SchemeKind.ofScheme scheme) (splitHost false cs).1
        ((splitHost false cs).2.head? = some ':') = .ok host ∧
      ∃ port rest, port? scheme (splitHost false cs).2 = .ok (port, rest) ∧
        a = ⟨(credentials user).1, (credentials user).2, host, port, rest⟩ := by
  simp only [readAfterUser, bind, Except.bind] at h
  split at h
  · cases h
  · next host hhost =>
    split at h
    · cases h
    · next r hport =>
      split at h
      · cases h
      · cases h
        exact ⟨host, hhost, _, _, hport, rfl⟩

theorem readAuthority_ok {isLast : Bool} (h : readAuthority scheme cs isLast = .ok a) :
    ∃ user rest, splitUser cs isLast = .ok (user, rest) ∧ readAfterUser scheme user rest = .ok a := by
  rw [readAuthority_eq] at h
  cases hsplit : splitUser cs isLast with
  | error e => rw [hsplit] at h; cases h
  | ok r => exact ⟨r.1, r.2, rfl, by rwa [hsplit] at h⟩

/-- A port that is kept is one, and not the standard one. -/
theorem port?_ok {port : Option Nat} {rest : List Char} (h : port? scheme cs = .ok (port, rest)) :
    ∀ p ∈ port, p ≤ portLimit ∧ standardPort? scheme ≠ some p := by
  unfold port? at h
  split at h
  · dsimp only at h
    split at h
    · cases h
    · next hlimit =>
      cases h
      intro p hp
      simp only [Bool.or_eq_true, decide_eq_true_eq, not_or, Nat.not_lt] at hlimit
      split at hp
      · cases hp
      · next hstandard =>
        cases hp
        simp only [Bool.or_eq_true, decide_eq_true_eq, not_or] at hstandard
        exact ⟨hlimit.1, hstandard.2⟩
  · cases h
    exact nofun

theorem hostText_readHost {kind : SchemeKind} {isPortNext : Bool} {h : Host}
    (hread : readHost kind cs isPortNext = .ok (some h)) : HostText h.text := by
  unfold readHost at hread
  split at hread
  · cases hread
  · split at hread
    · cases htext : Host.ofText cs with
      | error e =>
        rw [htext] at hread
        cases hread
      | ok h' =>
        rw [htext] at hread
        cases hread
        exact hostText_ofText htext
    · exact hostText_ofOpaque hread

/-! ## Segments -/

/-- Whether a segment is a step that stays or goes back. -/
def isDotted (s : List Char) : Bool := isDot s || isDoubleDot s

/-- A segment as it is kept: encoded, and without slashes. -/
structure Segment (kind : SchemeKind) (s : List Char) : Prop where
  clear : Percent.Clear Percent.path s
  whole : ∀ c ∈ s, isSlash kind c = false

variable {kind : SchemeKind}

theorem segment_nil (kind : SchemeKind) : Segment kind [] := ⟨nofun, nofun⟩

theorem isSlash_marks : ∀ c ∈ Percent.marks, isSlash kind c = false := by
  have hmarks : ∀ c ∈ Percent.marks, c ≠ '/' ∧ c ≠ '\\' := Text.forall_of_all (by decide)
  intro c hc
  simp [isSlash, hmarks c hc]

theorem segment_encode {s : List Char} (h : ∀ c ∈ s, isSlash kind c = false) :
    Segment kind (Percent.encode Percent.path s) :=
  ⟨Percent.clear_encode (by decide) s, fun c hc =>
    (Percent.mem_encode_cases hc).elim (isSlash_marks c) fun hmem => h c hmem.1⟩

theorem isDotted_encode {s : List Char} (h : isDotted s = false) :
    isDotted (Percent.encode Percent.path s) = false := by
  simp only [isDotted, Bool.or_eq_false_iff] at h ⊢
  have hdot : Percent.isEscaped Percent.path '.' = false := by decide
  constructor
  · exact Bool.eq_false_iff.mpr fun h' => Bool.eq_false_iff.mp h.1 (Percent.isDot_encode hdot h')
  · exact Bool.eq_false_iff.mpr fun h' => Bool.eq_false_iff.mp h.2 (Percent.isDoubleDot_encode hdot h')

theorem mem_ended {done : List (List Char)} {isLast : Prop} [Decidable isLast] {s : List Char}
    (h : s ∈ if isLast then [] :: done else done) : s ∈ done ∨ s = [] := by
  split at h
  · exact (List.mem_cons.mp h).symm
  · exact Or.inl h

/-- What stays of a path: its segments, encoded, and empty ones. -/
theorem mem_walk {done rest : List (List Char)} {s : List Char} (h : s ∈ walk done rest) :
    s ∈ done ∨ s = [] ∨ ∃ p ∈ rest, isDotted p = false ∧ s = Percent.encode Percent.path p := by
  induction rest generalizing done with
  | nil => exact Or.inl (List.mem_reverse.mp h)
  | cons p rest ih =>
    have hmore {done' : List (List Char)} (hdone : s ∈ done' → s ∈ done ∨ s = [])
        (h : s ∈ walk done' rest) : s ∈ done ∨ s = [] ∨
          ∃ q ∈ p :: rest, isDotted q = false ∧ s = Percent.encode Percent.path q := by
      rcases ih h with h | hnil | ⟨q, hq, hs⟩
      · exact (hdone h).imp_right Or.inl
      · exact Or.inr (Or.inl hnil)
      · exact Or.inr (Or.inr ⟨q, List.mem_cons_of_mem p hq, hs⟩)
    unfold walk at h
    split at h
    · exact hmore (fun h => (mem_ended h).imp_left List.mem_of_mem_drop) h
    · next hdouble =>
      split at h
      · exact hmore mem_ended h
      · next hdot =>
        by_cases hs : s = Percent.encode Percent.path p
        · exact Or.inr (Or.inr ⟨p, List.mem_cons_self, by simp [isDotted, hdot, hdouble], hs⟩)
        · exact hmore (fun h => Or.inl (List.mem_of_ne_of_mem hs h)) h

theorem walk_ne_nil {done rest : List (List Char)} (h : done ≠ [] ∨ rest ≠ []) : walk done rest ≠ [] := by
  induction rest generalizing done with
  | nil =>
    rw [walk]
    exact fun hnil => h.elim (absurd (List.reverse_eq_nil_iff.mp hnil)) (absurd rfl)
  | cons p rest ih =>
    have hended (done : List (List Char)) :
        (if rest.isEmpty then [] :: done else done) ≠ [] ∨ rest ≠ [] := by
      cases rest with
      | nil => exact Or.inl (List.cons_ne_nil _ _)
      | cons q rest => exact Or.inr (List.cons_ne_nil q rest)
    unfold walk
    split
    · exact ih (hended (done.drop 1))
    · split
      · exact ih (hended done)
      · exact ih (Or.inl (List.cons_ne_nil _ _))

/-- The segments of a path of a scheme that is not for files. -/
theorem segments_settled {cs : List Char} {s : List Char} (h : s ∈ segments kind cs) :
    Segment kind s ∧ isDotted s = false := by
  rcases mem_walk h with hnil | rfl | ⟨p, hp, hplain, rfl⟩
  · cases hnil
  · exact ⟨segment_nil kind, by decide⟩
  · exact ⟨segment_encode (Text.not_isCut_of_mem_pieces hp), isDotted_encode hplain⟩

theorem hostPath_settled (kind : SchemeKind) (cs : List Char) : ∃ ss, hostPath kind cs = .segments ss ∧
    (kind.isKnown = true → ss ≠ []) ∧ ∀ s ∈ ss, Segment kind s ∧ isDotted s = false := by
  cases cs with
  | nil =>
    refine ⟨_, rfl, fun hknown => by rw [if_pos hknown]; exact List.cons_ne_nil _ _, fun s hs => ?_⟩
    split at hs
    · cases List.mem_singleton.mp hs
      exact ⟨segment_nil kind, by decide⟩
    · cases hs
  | cons c cs =>
    have hne (cs : List Char) : segments kind cs ≠ [] := walk_ne_nil (Or.inr (Text.pieces_ne_nil _ cs))
    refine ⟨_, rfl, fun _ => ?_, fun s hs => ?_⟩
    · split
      · exact hne cs
      · exact hne (c :: cs)
    · split at hs
      · exact segments_settled hs
      · exact segments_settled hs

/-! ## Query and fragment -/

theorem splitTail_clear (kind : SchemeKind) (cs : List Char) :
    (∀ q ∈ (splitTail kind cs).query, Percent.Clear (querySet kind) q) ∧
      ∀ f ∈ (splitTail kind cs).fragment, Percent.Clear Percent.fragment f := by
  have hproper : Percent.Proper (querySet kind) := by cases kind <;> decide
  constructor
  · intro q hq
    obtain ⟨text, -, rfl⟩ := Option.map_eq_some_iff.mp hq
    exact Percent.clear_encode hproper text
  · intro f hf
    obtain ⟨text, -, rfl⟩ := Option.map_eq_some_iff.mp hf
    exact Percent.clear_encode (by decide) text

/-! ## Files -/

theorem mem_of_isDotted {s : List Char} (h : isDotted s = true) : ∀ c ∈ s, c ∈ ".%2eE".toList := by
  have hdots : ∀ d ∈ Percent.dots, (d.all fun c => c ∈ ".%2eE".toList) = true := by decide
  rw [isDotted, Bool.or_eq_true, Percent.isDot_iff, Percent.isDoubleDot_iff] at h
  rcases h with h | ⟨a, ha, b, hb, rfl⟩
  · exact Text.forall_of_all (hdots s h)
  · intro c hc
    rcases List.mem_append.mp hc with hc | hc
    · exact Text.forall_of_all (hdots a ha) c hc
    · exact Text.forall_of_all (hdots b hb) c hc

theorem isDotted_drive (c : Char) : isDotted [c, ':'] = false :=
  Bool.eq_false_iff.mpr fun h => absurd (mem_of_isDotted h ':' (by simp)) (by decide)

theorem segment_drive {c : Char} (h : c.isAlpha = true) : Segment .file [c, ':'] := by
  have hrange : 0x20 ≤ c.toNat ∧ c.toNat ≤ 0x7E := by
    change (decide ('A'.val ≤ c.val ∧ c.val ≤ 'Z'.val) ||
      decide ('a'.val ≤ c.val) && decide (c.val ≤ 'z'.val)) = true at h
    simp only [Bool.or_eq_true, Bool.and_eq_true, decide_eq_true_eq] at h
    have hletter : 65 ≤ c.toNat ∧ c.toNat ≤ 90 ∨ 97 ≤ c.toNat ∧ c.toNat ≤ 122 := h
    omega
  have hplain : ∀ d ∈ ['/', '\\'] ++ Percent.path, d.isAlpha = false := Text.forall_of_all (by decide)
  have hc (d : Char) (hd : d ∈ ['/', '\\'] ++ Percent.path) : c ≠ d := fun heq => by
    rw [heq, hplain d hd] at h
    cases h
  constructor
  · intro d hd
    rcases List.mem_cons.mp hd with rfl | hd
    · exact Percent.isEscaped_iff.mpr ⟨hrange.1, hrange.2,
        fun hmem => hc _ (List.mem_append_right _ hmem) rfl⟩
    · exact List.mem_singleton.mp hd ▸ (by decide)
  · intro d hd
    rcases List.mem_cons.mp hd with rfl | hd
    · simp [isSlash, hc '/' (by decide), hc '\\' (by decide)]
    · exact List.mem_singleton.mp hd ▸ (by decide)

/-- The segments of a file path. Right after a drive that was written together with what follows it, there
may be a dotted one. -/
def FileTidy (ss : List (List Char)) : Prop :=
  (∀ s ∈ ss, isDotted s = false) ∨
    ∃ c s rest, c.isAlpha = true ∧ ss = [c, ':'] :: s :: rest ∧ ∀ r ∈ rest, isDotted r = false

theorem FileTidy.concat {ss : List (List Char)} (h : FileTidy ss) {s : List Char}
    (hs : isDotted s = false) : FileTidy (ss ++ [s]) := by
  have hadd {rest : List (List Char)} (hrest : ∀ r ∈ rest, isDotted r = false) :
      ∀ r ∈ rest ++ [s], isDotted r = false := fun r hr =>
    (List.mem_append.mp hr).elim (hrest r) fun hr => List.mem_singleton.mp hr ▸ hs
  rcases h with hplain | ⟨c, t, rest, hc, rfl, hrest⟩
  · exact Or.inl (hadd hplain)
  · exact Or.inr ⟨c, t, rest ++ [s], hc, rfl, hadd hrest⟩

theorem FileTidy.dropLast {ss : List (List Char)} (h : FileTidy ss) : FileTidy ss.dropLast := by
  rcases h with hplain | ⟨c, t, rest, hc, rfl, hrest⟩
  · exact Or.inl fun s hs => hplain s (List.dropLast_subset ss hs)
  · cases rest with
    | nil => exact Or.inl fun s hs => List.mem_singleton.mp hs ▸ isDotted_drive c
    | cons r rest =>
      exact Or.inr ⟨c, t, (r :: rest).dropLast, hc, rfl, fun s hs =>
        hrest s (List.dropLast_subset (r :: rest) hs)⟩

/-- A file path on the way. -/
structure FilePath.Settled (p : FilePath) : Prop where
  segments : ∀ s ∈ p.done, Segment .file s
  tidy : FileTidy p.done.reverse

theorem FilePath.settled_start : FilePath.Settled ⟨[], false⟩ :=
  ⟨fun _ hs => absurd hs List.not_mem_nil, Or.inl fun _ hs => absurd hs List.not_mem_nil⟩

theorem FilePath.Settled.push {p : FilePath} (h : p.Settled) {s : List Char} (hs : Segment .file s)
    (hplain : isDotted s = false) : FilePath.Settled { p with done := s :: p.done } := by
  refine ⟨fun t ht => (List.mem_cons.mp ht).elim (fun heq => heq ▸ hs) (h.segments t), ?_⟩
  rw [List.reverse_cons]
  exact h.tidy.concat hplain

theorem FilePath.Settled.back {p : FilePath} (h : p.Settled) : p.back.Settled := by
  obtain ⟨done, hasDrive⟩ := p
  unfold FilePath.back
  split
  · split
    · exact h
    · exact ⟨nofun, Or.inl nofun⟩
  · refine ⟨fun s hs => h.segments s (List.mem_of_mem_drop hs), ?_⟩
    dsimp only
    rw [List.drop_one, ← List.dropLast_reverse]
    exact h.tidy.dropLast

theorem FilePath.Settled.forward {p : FilePath} (h : p.Settled) {s : List Char}
    (hwhole : ∀ c ∈ s, isSlash .file c = false) (hplain : isDotted s = false) :
    (p.forward s).Settled := by
  obtain ⟨done, hasDrive⟩ := p
  have hpush : FilePath.Settled ⟨Percent.encode Percent.path s :: done, hasDrive⟩ :=
    h.push (segment_encode hwhole) (isDotted_encode hplain)
  unfold FilePath.forward
  split
  · next hdone =>
    cases hdone
    split
    · next c d rest halpha =>
      have hmore : Segment .file (Percent.encode Percent.path (d :: rest)) :=
        segment_encode fun x hx => hwhole x (by simp [List.mem_cons.mp hx])
      refine ⟨fun t ht => ?_, Or.inr ⟨c, _, [], halpha, rfl, nofun⟩⟩
      simp only [List.mem_cons, List.not_mem_nil, or_false] at ht
      rcases ht with rfl | rfl
      · exact hmore
      · exact segment_drive halpha
    · exact hpush
  · next hdone =>
    cases hdone
    split
    · next c d hdrive =>
      have halpha : c.isAlpha = true := (Bool.and_eq_true_iff.mp hdrive).1
      refine ⟨fun t ht => List.mem_singleton.mp ht ▸ segment_drive halpha, Or.inl fun t ht => ?_⟩
      exact List.mem_singleton.mp ht ▸ isDotted_drive c
    · exact hpush
  · exact hpush

theorem walkFile_settled {p : FilePath} (h : p.Settled) {rest : List (List Char)}
    (hwhole : ∀ s ∈ rest, ∀ c ∈ s, isSlash .file c = false) : (walkFile p rest).Settled := by
  have hended {p : FilePath} (h : p.Settled) (rest : List (List Char)) :
      (if rest.isEmpty then { p with done := [] :: p.done } else p : FilePath).Settled := by
    split
    · exact h.push (segment_nil .file) (by decide)
    · exact h
  induction rest generalizing p with
  | nil => exact h
  | cons s rest ih =>
    have hrest : ∀ t ∈ rest, ∀ c ∈ t, isSlash .file c = false := fun t ht =>
      hwhole t (List.mem_cons_of_mem s ht)
    unfold walkFile
    dsimp only
    split
    · exact ih (hended h.back rest) hrest
    · next hdouble =>
      split
      · exact ih (hended h rest) hrest
      · next hdot =>
        exact ih (h.forward (hwhole s List.mem_cons_self) (by simp [isDotted, hdot, hdouble])) hrest

theorem FileTidy.dropEmpty {ss : List (List Char)} (h : FileTidy ss) :
    FileTidy (ss.dropWhile (·.isEmpty)) := by
  rcases h with hplain | ⟨c, t, rest, hc, rfl, hrest⟩
  · exact Or.inl fun s hs => hplain s ((List.dropWhile_sublist _).subset hs)
  · exact Or.inr ⟨c, t, rest, hc, rfl, hrest⟩

theorem fileSegments_settled (cs : List Char) : (fileSegments cs).1 ≠ [] ∧
    FileTidy (fileSegments cs).1 ∧ ∀ s ∈ (fileSegments cs).1, Segment .file s := by
  have hwalk : (walkFile ⟨[], false⟩ (Text.pieces (isSlash .file) cs)).Settled :=
    walkFile_settled FilePath.settled_start fun s hs => Text.not_isCut_of_mem_pieces hs
  unfold fileSegments
  dsimp only
  split
  · exact ⟨List.cons_ne_nil _ _, Or.inl fun s hs => List.mem_singleton.mp hs ▸ (by decide),
      fun s hs => List.mem_singleton.mp hs ▸ segment_nil .file⟩
  · next hne =>
    refine ⟨hne, hwalk.tidy.dropEmpty, fun s hs => hwalk.segments s ?_⟩
    exact List.mem_reverse.mp ((List.dropWhile_sublist _).subset hs)

/-! ## URLs -/

/-- The segments that the path of a URL of some kind can have. -/
def Along (kind : SchemeKind) (ss : List (List Char)) : Prop :=
  (∀ s ∈ ss, Segment kind s) ∧ (kind.isKnown = true → ss ≠ []) ∧
    if kind = .file then FileTidy ss else ∀ s ∈ ss, isDotted s = false

/-- What is known of a URL with a host that was read. -/
structure Settled (u : Url) (h : Host) (ss : List (List Char)) : Prop where
  host : u.host = some h
  path : u.path = .segments ss
  scheme : IsScheme u.scheme
  hostText : HostText h.text
  username : Percent.Clear Percent.userInfo u.username
  password : Percent.Clear Percent.userInfo u.password
  port : ∀ p ∈ u.port, p ≤ portLimit ∧ standardPort? u.scheme ≠ some p
  /-- Files need no user and no port. -/
  plain : SchemeKind.ofScheme u.scheme = .file → u.username = [] ∧ u.password = [] ∧ u.port = none
  segments : Along (SchemeKind.ofScheme u.scheme) ss
  query : ∀ q ∈ u.query, Percent.Clear (querySet (SchemeKind.ofScheme u.scheme)) q
  fragment : ∀ f ∈ u.fragment, Percent.Clear Percent.fragment f

theorem readWithAuthority_settled {u : Url} {h : Host} (hscheme : IsScheme scheme)
    (hkind : SchemeKind.ofScheme scheme ≠ .file) (hread : readWithAuthority scheme cs = .ok u)
    (hhost : u.host = some h) : ∃ ss, u.Settled h ss := by
  simp only [readWithAuthority, bind, Except.bind] at hread
  split at hread
  · cases hread
  · next a hauthority =>
    cases hread
    obtain ⟨user, rest, -, hafter⟩ := readAuthority_ok hauthority
    obtain ⟨host, hhostRead, port, more, hport, rfl⟩ := readAfterUser_ok hafter
    dsimp only at hhost
    subst hhost
    have hproper : Percent.Proper Percent.userInfo := by decide
    let after := more ++ cs.dropWhile fun c => !endsAuthority (SchemeKind.ofScheme scheme) c
    obtain ⟨ss, hpath, hne, hss⟩ := hostPath_settled (SchemeKind.ofScheme scheme)
      (splitTail (SchemeKind.ofScheme scheme) after).path
    have htail := splitTail_clear (SchemeKind.ofScheme scheme) after
    refine ⟨ss, rfl, hpath, hscheme, hostText_readHost hhostRead, Percent.clear_encode hproper _,
      Percent.clear_encode hproper _, port?_ok hport, fun hfile => absurd hfile hkind,
      ⟨fun s hs => (hss s hs).1, hne, ?_⟩, htail.1, htail.2⟩
    rw [if_neg hkind]
    exact fun s hs => (hss s hs).2

/-- The host of a file and what follows it. -/
def fileStart (cs : List Char) : Except UrlError (Option Host × List Char) :=
  match cs with
  | a :: b :: rest => if isSlash .file a && isSlash .file b then fileHost rest else .ok (none, cs)
  | _ => .ok (none, cs)

/-- A text without a slash at its start. -/
def afterSlash (kind : SchemeKind) : List Char → List Char
  | [] => []
  | c :: cs => if isSlash kind c then cs else c :: cs

/-- The URL of a file, given its host and what follows it. -/
def fileUrl (scheme : List Char) (host : Option Host) (rest : List Char) : Url :=
  let tail := splitTail .file rest
  let path := fileSegments (afterSlash .file tail.path)
  ⟨scheme, [], [], if path.2 then none else host, none, .segments path.1, tail.query, tail.fragment⟩

theorem readFile_eq (scheme cs : List Char) :
    readFile scheme cs = (fileStart cs).map fun r => fileUrl scheme r.1 r.2 := by
  rcases cs with _ | ⟨a, _ | ⟨b, rest⟩⟩
  · rfl
  · rfl
  · by_cases hslashes : (isSlash .file a && isSlash .file b) = true
    · simp only [readFile, fileStart, hslashes, if_true]
      cases fileHost rest <;> rfl
    · simp only [readFile, fileStart, hslashes]
      rfl

theorem hostText_fileStart {h : Host} {rest : List Char} (hread : fileStart cs = .ok (some h, rest)) :
    HostText h.text := by
  unfold fileStart at hread
  split at hread
  · split at hread
    · unfold fileHost at hread
      dsimp only at hread
      split at hread
      · cases hread
      · split at hread
        · cases hread
        · next htext =>
          split at hread
          · cases hread
          · cases hread
            exact hostText_ofText htext
    · cases hread
  · cases hread

theorem readFile_settled {u : Url} {h : Host} (hscheme : IsScheme scheme)
    (hkind : SchemeKind.ofScheme scheme = .file) (hread : readFile scheme cs = .ok u)
    (hhost : u.host = some h) : ∃ ss, u.Settled h ss := by
  rw [readFile_eq] at hread
  cases hstart : fileStart cs with
  | error e =>
    rw [hstart] at hread
    cases hread
  | ok r =>
    obtain ⟨host, rest⟩ := r
    rw [hstart] at hread
    cases hread
    have hfound : host = some h := by
      dsimp only [fileUrl] at hhost
      split at hhost
      · cases hhost
      · exact hhost
    subst hfound
    obtain ⟨hne, htidy, hsegments⟩ := fileSegments_settled (afterSlash .file (splitTail .file rest).path)
    have halong : Along (SchemeKind.ofScheme scheme)
        (fileSegments (afterSlash .file (splitTail .file rest).path)).1 := by
      rw [hkind]
      exact ⟨hsegments, fun _ => hne, (if_pos rfl).mpr htidy⟩
    have htail := splitTail_clear .file rest
    rw [← hkind] at htail
    exact ⟨_, hhost, rfl, hscheme, hostText_fileStart hstart, nofun, nofun, nofun, fun _ => ⟨rfl, rfl, rfl⟩,
      halong, fun q hq => htail.1 q (hkind.symm ▸ hq), fun f hf => htail.2 f (hkind.symm ▸ hf)⟩

/-- A URL with a host that was read. -/
theorem parse_settled {text : String} {u : Url} {h : Host} (hread : parse text = .ok u)
    (hhost : u.host = some h) : ∃ ss, u.Settled h ss := by
  unfold parse at hread
  split at hread
  · cases hread
  · next scheme rest hsplit =>
    have hscheme := scheme?_ok hsplit
    split at hread
    · next hkind => exact readFile_settled hscheme hkind hread hhost
    · next hkind =>
      exact readWithAuthority_settled hscheme (by rw [hkind]; decide) hread hhost
    · next hkind =>
      exact readWithAuthority_settled hscheme (by rw [hkind]; decide) hread hhost
    · cases hread
      cases hhost

end Url

end RpcPool

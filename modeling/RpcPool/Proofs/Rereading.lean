import RpcPool.Proofs.Reading

/-!
# Reading the text of a URL

A URL that was read is written down, and its text is read. Scheme, user, port, query and fragment come out
as they were, and so does every path that is not one of a file. What becomes of the host depends on how
hosts are read, and the path of a file may be changed once more: where it begins with a drive, its host is
left out.

Results:
1. `readWithAuthority_eq`, `fileStart_eq`: an authority ends where a path, a query or a fragment begins.
2. `splitTail_tailText`, `hostPath_pathText`: path, query and fragment are read as they are written.
3. `Settled.readAuthority_text`: so are user and port.
4. `Settled.parse_text_web`: the text of a URL is read as the URL, but for its host.
5. `Settled.parse_text_file`: the text of a file is read like its host and its segments.
-/

namespace RpcPool

namespace Url

variable {kind : SchemeKind} {scheme cs : List Char}

/-! ## The scheme -/

theorem cleaned_eq (h : ∀ c ∈ cs, 0x20 < c.toNat) : cleaned cs = cs := by
  have hvisible : ∀ c ∈ cs, isControlOrSpace c = false := fun c hc => by
    simpa [isControlOrSpace] using h c hc
  have htrim {ds : List Char} (h : ∀ c ∈ ds, isControlOrSpace c = false) :
      ds.dropWhile isControlOrSpace = ds := by
    cases ds with
    | nil => rfl
    | cons c ds => exact List.dropWhile_cons_of_neg (by simp [h c List.mem_cons_self])
  rw [cleaned, htrim hvisible, htrim fun c hc => hvisible c (List.mem_reverse.mp hc),
    List.reverse_reverse]
  refine List.filter_eq_self.mpr fun c hc => ?_
  have hbreaks : ∀ d ∈ ['\t', '\n', '\r'], d.toNat ≤ 0x20 := Text.forall_of_all (by decide)
  have hne (d : Char) (hd : d ∈ ['\t', '\n', '\r']) : c ≠ d := fun heq =>
    Nat.not_le_of_lt (h c hc) (heq ▸ hbreaks d hd)
  simp [isLineBreak, hne '\t' (by decide), hne '\n' (by decide), hne '\r' (by decide)]

theorem IsScheme.visible (h : IsScheme scheme) : ∀ c ∈ scheme, 0x20 < c.toNat := by
  have hblank : ∀ n ≤ 0x20, isSchemeChar (Char.ofNat n) = false := by decide
  intro c hc
  by_contra hlow
  have hnot := hblank c.toNat (Nat.le_of_not_lt hlow)
  rw [Char.ofNat_toNat, h.chars c hc] at hnot
  cases hnot

theorem IsScheme.scheme?_eq (h : IsScheme scheme) (rest : List Char) :
    scheme? (scheme ++ ':' :: rest) = some (scheme, rest) := by
  have htake : (scheme ++ ':' :: rest).takeWhile isSchemeChar = scheme := by
    rw [List.takeWhile_append_of_pos h.chars]
    simp [isSchemeChar]
  have hdrop : (scheme ++ ':' :: rest).dropWhile isSchemeChar = ':' :: rest := by
    rw [List.dropWhile_append_of_pos h.chars]
    simp [isSchemeChar]
  simp only [scheme?, htake, hdrop, h.letter, if_true, h.small]

theorem isBare_iff {c : Char} :
    isBare c = true ↔ 0x20 < c.toNat ∧ c ≠ '/' ∧ c ≠ '\\' ∧ c ≠ '?' ∧ c ≠ '#' := by
  simp [isBare]

/-! ## The authority -/

/-- A text that is read as one authority. -/
structure AuthorityText (cs : List Char) : Prop where
  bare : ∀ c ∈ cs, isBare c = true
  nonempty : cs ≠ []
  ne_at : cs ≠ ['@']

/-- A text that ends what stands before it. -/
def Ends (cs : List Char) : Prop := ∀ c ∈ cs.head?, c = '/' ∨ c = '?' ∨ c = '#'

theorem endsAuthority_bare {c : Char} (h : isBare c = true) : endsAuthority kind c = false := by
  obtain ⟨-, hslash, hback, hquery, hfragment⟩ := isBare_iff.mp h
  simp [endsAuthority, isSlash, hslash, hback, hquery, hfragment]

theorem split_authority (kind : SchemeKind) (h : ∀ c ∈ cs, isBare c = true) {rest : List Char} (hrest : Ends rest) :
    ((cs ++ rest).takeWhile fun c => !endsAuthority kind c) = cs ∧
      ((cs ++ rest).dropWhile fun c => !endsAuthority kind c) = rest := by
  have hbare : ∀ c ∈ cs, (!endsAuthority kind c) = true := fun c hc => by
    rw [endsAuthority_bare (h c hc)]
    rfl
  rw [List.takeWhile_append_of_pos hbare, List.dropWhile_append_of_pos hbare]
  cases rest with
  | nil => simp
  | cons c rest =>
    have hends : endsAuthority kind c = true := by
      rcases hrest c rfl with rfl | rfl | rfl <;> simp [endsAuthority, isSlash]
    simp [hends]

/-- Only an at sign alone stands between nothing and nothing. -/
theorem atLast_nil (h : atLast cs = some ([], [])) : cs = ['@'] := by
  unfold atLast at h
  split at h
  · cases h
  · next c before hdrop =>
    simp only [Option.some.injEq, Prod.mk.injEq, List.reverse_eq_nil_iff] at h
    obtain ⟨rfl, hrest⟩ := h
    match cs, hdrop, hrest with
    | [x], hdrop, _ =>
      by_cases hx : x = '@'
      · rw [hx]
      · simp [hx] at hdrop

theorem splitUser_eq (h : cs ≠ ['@']) (isLast : Bool) : splitUser cs isLast = splitUser cs true := by
  unfold splitUser
  cases hat : atLast cs with
  | none => rfl
  | some r =>
    obtain ⟨user, rest⟩ := r
    cases user with
    | nil =>
      cases rest with
      | nil => exact absurd (atLast_nil hat) h
      | cons c rest => simp
    | cons c user => simp

/-- What follows a host begins with a colon, if there is anything. -/
theorem splitHost_rest (inBrackets : Bool) (cs : List Char) :
    ((splitHost inBrackets cs).2 = [] ∨ ∃ rest, (splitHost inBrackets cs).2 = ':' :: rest) ∧
      (splitHost inBrackets cs).2 <:+ cs := by
  induction cs generalizing inBrackets with
  | nil => exact ⟨Or.inl rfl, List.suffix_rfl⟩
  | cons c cs ih =>
    unfold splitHost
    split
    · next hcolon =>
      obtain rfl : c = ':' := by simp_all
      exact ⟨Or.inr ⟨cs, rfl⟩, List.suffix_rfl⟩
    · obtain ⟨hcolon, hsuffix⟩ := ih (if c = '[' then true else if c = ']' then false else inBrackets)
      exact ⟨hcolon, hsuffix.trans (List.suffix_cons c cs)⟩

/-- Only a backslash is left of what follows a host. -/
theorem port?_rest {port : Option Nat} {rest : List Char} (h : port? scheme cs = .ok (port, rest))
    (hcolon : cs = [] ∨ ∃ more, cs = ':' :: more) (hback : '\\' ∉ cs) : rest = [] := by
  rcases hcolon with rfl | ⟨more, rfl⟩
  · cases h
    rfl
  · simp only [port?] at h
    split at h
    · cases h
    · next hend =>
      cases h
      simp only [Bool.or_eq_true, Bool.not_eq_true', not_or, Bool.not_eq_false,
        decide_eq_true_eq] at hend
      rcases hend.2 with hnil | hhead
      · exact List.isEmpty_iff.mp hnil
      · have hmem := List.mem_of_mem_head? hhead
        exact absurd (List.mem_cons_of_mem ':' ((List.dropWhile_sublist _).subset hmem)) hback

/-- An authority is read as a whole, whatever follows it. -/
theorem readAuthority_whole (scheme : List Char) (h : AuthorityText cs) (isLast : Bool) :
    readAuthority scheme cs isLast = readAuthority scheme cs true ∧
      ∀ a, readAuthority scheme cs true = .ok a → a.rest = [] := by
  constructor
  · rw [readAuthority_eq, readAuthority_eq, splitUser_eq h.ne_at]
  · intro a ha
    obtain ⟨user, rest, hsplit, hafter⟩ := readAuthority_ok ha
    obtain ⟨host, -, port, left, hport, rfl⟩ := readAfterUser_ok hafter
    obtain ⟨hcolon, hsuffix⟩ := splitHost_rest false rest
    have hrest : ∀ c ∈ rest, c ∈ cs := by
      unfold splitUser at hsplit
      split at hsplit
      · cases hsplit
        exact fun c hc => hc
      · next hat =>
        split at hsplit
        · cases hsplit
        · cases hsplit
          unfold atLast at hat
          split at hat
          · cases hat
          · cases hat
            exact fun c hc => List.mem_of_mem_drop hc
    refine port?_rest hport hcolon fun hback => ?_
    exact (isBare_iff.mp (h.bare _ (hrest _ (hsuffix.subset hback)))).2.2.1 rfl

/-! ## The text after the scheme -/

/-- The URL of an authority with the text after it. -/
def webUrl (scheme rest : List Char) (a : Authority) : Url :=
  let kind := SchemeKind.ofScheme scheme
  let tail := splitTail kind rest
  ⟨scheme, a.username, a.password, a.host, a.port, hostPath kind tail.path, tail.query, tail.fragment⟩

theorem readWithAuthority_eq (h : AuthorityText cs) {rest : List Char} (hrest : Ends rest) :
    readWithAuthority scheme (cs ++ rest) = (readAuthority scheme cs true).map (webUrl scheme rest) := by
  obtain ⟨htake, hdrop⟩ := split_authority (SchemeKind.ofScheme scheme) h.bare hrest
  obtain ⟨hlast, hwhole⟩ := readAuthority_whole scheme h rest.isEmpty
  simp only [readWithAuthority, htake, hdrop, hlast]
  cases ha : readAuthority scheme cs true with
  | error e => rfl
  | ok a =>
    have hnone := hwhole a ha
    simp only [bind, Except.bind, hnone, List.nil_append]
    rfl

/-- The host of a file, which is none if it is this one. -/
def elsewhere (h : Host) : Option Host := if h = .name "localhost".toList then none else some h

theorem fileStart_eq (h : AuthorityText cs) (hdrive : isDrive cs = false) {rest : List Char}
    (hrest : Ends rest) : fileStart ('/' :: '/' :: (cs ++ rest)) =
      (Host.ofText cs).map fun host => (elsewhere host, rest) := by
  obtain ⟨htake, hdrop⟩ := split_authority .file h.bare hrest
  have hnonempty : cs.isEmpty = false := by simpa using h.nonempty
  have hslash : isSlash .file '/' = true := rfl
  simp only [fileStart, hslash, Bool.and_self, if_true, fileHost, htake, hdrop, hnonempty, hdrive,
    Bool.or_self, Bool.false_eq_true, if_false]
  cases Host.ofText cs <;> rfl

/-- A text that is made of a scheme, an authority and what follows it. -/
def assembled (scheme authority rest : List Char) : List Char :=
  scheme ++ ':' :: '/' :: '/' :: (authority ++ rest)

theorem scheme?_assembled (hscheme : IsScheme scheme) {rest : List Char} (h : AuthorityText cs)
    (hvisible : ∀ c ∈ rest, 0x20 < c.toNat) :
    scheme? (cleaned (assembled scheme cs rest)) = some (scheme, '/' :: '/' :: (cs ++ rest)) := by
  have hall : ∀ c ∈ assembled scheme cs rest, 0x20 < c.toNat := by
    intro c hc
    simp only [assembled, List.mem_append, List.mem_cons] at hc
    rcases hc with hc | rfl | rfl | rfl | hc | hc
    · exact hscheme.visible c hc
    · decide
    · decide
    · decide
    · exact (isBare_iff.mp (h.bare c hc)).1
    · exact hvisible c hc
  rw [cleaned_eq hall, assembled, hscheme.scheme?_eq]

theorem parse_file (hscheme : IsScheme scheme) (hkind : SchemeKind.ofScheme scheme = .file)
    (h : AuthorityText cs) (hdrive : isDrive cs = false) {rest : List Char} (hrest : Ends rest)
    (hvisible : ∀ c ∈ rest, 0x20 < c.toNat) : parse (String.ofList (assembled scheme cs rest)) =
      (Host.ofText cs).map fun host => fileUrl scheme (elsewhere host) rest := by
  simp only [parse, String.toList_ofList, scheme?_assembled hscheme h hvisible, hkind, readFile_eq,
    fileStart_eq h hdrive hrest]
  cases Host.ofText cs <;> rfl

theorem parse_web (hscheme : IsScheme scheme) (hkind : SchemeKind.ofScheme scheme ≠ .file)
    (h : AuthorityText cs) {rest : List Char} (hrest : Ends rest)
    (hvisible : ∀ c ∈ rest, 0x20 < c.toNat) : parse (String.ofList (assembled scheme cs rest)) =
      (readAuthority scheme cs true).map (webUrl scheme rest) := by
  rw [← readWithAuthority_eq h hrest]
  simp only [parse, String.toList_ofList, scheme?_assembled hscheme h hvisible]
  cases hk : SchemeKind.ofScheme scheme with
  | file => exact absurd hk hkind
  | other => rfl
  | web =>
    obtain ⟨c, more, rfl⟩ := List.exists_cons_of_ne_nil h.nonempty
    have hc := isBare_iff.mp (h.bare c List.mem_cons_self)
    have hslash : isSlash .web c = false := by simp [isSlash, hc.2.1, hc.2.2.1]
    have hdrop : ('/' :: '/' :: (c :: more ++ rest)).dropWhile (isSlash .web) = c :: more ++ rest := by
      rw [List.dropWhile_cons_of_pos rfl, List.dropWhile_cons_of_pos rfl, List.cons_append,
        List.dropWhile_cons_of_neg (by rw [hslash]; decide)]
    dsimp only
    rw [hdrop]

/-! ## Path, query and fragment -/

/-- A path with a query and a fragment. -/
def tailText (path : List Char) (query fragment : Option (List Char)) : List Char :=
  path ++ (query.elim [] ('?' :: ·)) ++ fragment.elim [] ('#' :: ·)

theorem splitOff_none {mark : Char} (h : mark ∉ cs) : splitOff mark cs = (cs, none) := by
  have hdrop : cs.dropWhile (· != mark) = [] :=
    List.dropWhile_eq_nil_iff.mpr fun c hc => by simpa using fun heq : c = mark => h (heq ▸ hc)
  rw [splitOff, hdrop]

theorem splitOff_some {mark : Char} (h : mark ∉ cs) (rest : List Char) :
    splitOff mark (cs ++ mark :: rest) = (cs, some rest) := by
  have hpass : ∀ c ∈ cs, (c != mark) = true := fun c hc => by
    simpa using fun heq : c = mark => h (heq ▸ hc)
  have hdrop : (cs ++ mark :: rest).dropWhile (· != mark) = mark :: rest := by
    rw [List.dropWhile_append_of_pos hpass, List.dropWhile_cons_of_neg (by simp)]
  have htake : (cs ++ mark :: rest).takeWhile (· != mark) = cs := by
    rw [List.takeWhile_append_of_pos hpass, List.takeWhile_cons_of_neg (by simp), List.append_nil]
  rw [splitOff, hdrop, htake]

theorem splitTail_tailText {path : List Char} {query fragment : Option (List Char)}
    (hpath : '?' ∉ path ∧ '#' ∉ path) (hquery : ∀ q ∈ query, Percent.Clear (querySet kind) q)
    (hfragment : ∀ f ∈ fragment, Percent.Clear Percent.fragment f) :
    splitTail kind (tailText path query fragment) = ⟨path, query, fragment⟩ := by
  have hmark : Percent.isEscaped (querySet kind) '#' = true := by cases kind <;> decide
  have hfirst : '#' ∉ path ++ query.elim [] ('?' :: ·) := by
    rw [List.mem_append, not_or]
    refine ⟨hpath.2, ?_⟩
    cases query with
    | none => exact List.not_mem_nil
    | some q =>
      simp only [Option.elim_some, List.mem_cons, not_or]
      refine ⟨by decide, fun hmem => ?_⟩
      rw [hquery q rfl '#' hmem] at hmark
      cases hmark
  have hfragment' : splitOff '#' (tailText path query fragment) =
      (path ++ query.elim [] ('?' :: ·), fragment) := by
    cases fragment with
    | none => rw [tailText, Option.elim_none, List.append_nil, splitOff_none hfirst]
    | some f => rw [tailText, Option.elim_some, splitOff_some hfirst]
  have hquery' : splitOff '?' (path ++ query.elim [] ('?' :: ·)) = (path, query) := by
    cases query with
    | none => rw [Option.elim_none, List.append_nil, splitOff_none hpath.1]
    | some q => rw [Option.elim_some, splitOff_some hpath.1]
  have hclear {e : Percent.Escapes} {o : Option (List Char)} (h : ∀ cs ∈ o, Percent.Clear e cs) :
      o.map (Percent.encode e) = o := by
    cases o with
    | none => rfl
    | some cs => rw [Option.map_some, Percent.encode_of_clear (h cs rfl)]
  simp only [splitTail, hfragment', hquery', hclear hquery, hclear hfragment]

/-! ## Segments -/

/-- A path as it is written. -/
def pathText (ss : List (List Char)) : List Char := ss.flatMap ('/' :: ·)

theorem pieces_pathText {s : List Char} {ss : List (List Char)}
    (h : ∀ t ∈ s :: ss, ∀ c ∈ t, isSlash kind c = false) :
    Text.pieces (isSlash kind) (s ++ pathText ss) = s :: ss := by
  induction ss generalizing s with
  | nil =>
    rw [pathText, List.flatMap_nil, List.append_nil]
    exact Text.pieces_whole (h s List.mem_cons_self)
  | cons t ss ih =>
    have hcons : pathText (t :: ss) = '/' :: (t ++ pathText ss) := rfl
    rw [hcons, Text.pieces_append (h s List.mem_cons_self) rfl,
      ih fun r hr => h r (List.mem_cons_of_mem s hr)]

/-- Segments that are no dots are kept. -/
theorem walk_plain {done ss : List (List Char)}
    (h : ∀ s ∈ ss, Segment kind s ∧ isDotted s = false) : walk done ss = done.reverse ++ ss := by
  induction ss generalizing done with
  | nil => exact (List.append_nil _).symm
  | cons s ss ih =>
    obtain ⟨hs, hplain⟩ := h s List.mem_cons_self
    simp only [isDotted, Bool.or_eq_false_iff] at hplain
    rw [walk, if_neg (Bool.eq_false_iff.mp hplain.2), if_neg (Bool.eq_false_iff.mp hplain.1),
      Percent.encode_of_clear hs.clear, ih fun t ht => h t (List.mem_cons_of_mem s ht),
      List.reverse_cons, List.append_assoc]
    rfl

theorem hostPath_pathText {ss : List (List Char)} (h : Along kind ss) (hkind : kind ≠ .file) :
    hostPath kind (pathText ss) = .segments ss := by
  obtain ⟨hsegments, hne, hplain⟩ := h
  rw [if_neg hkind] at hplain
  cases ss with
  | nil =>
    have hunknown : kind.isKnown = false := Bool.eq_false_iff.mpr fun hk => hne hk rfl
    simp [pathText, hostPath, hunknown]
  | cons s ss =>
    have hslash : isSlash kind '/' = true := rfl
    have hcons : pathText (s :: ss) = '/' :: (s ++ pathText ss) := rfl
    rw [hcons, hostPath, if_pos hslash, segments,
      pieces_pathText fun t ht => (hsegments t ht).whole,
      walk_plain fun t ht => ⟨hsegments t ht, hplain t ht⟩]
    rfl

/-! ## Users and hosts -/

theorem atLast_of_not_mem (h : '@' ∉ cs) : atLast cs = none := by
  have hdrop : cs.reverse.dropWhile (· != '@') = [] := List.dropWhile_eq_nil_iff.mpr fun c hc => by
    simpa using fun heq : c = '@' => h (heq ▸ List.mem_reverse.mp hc)
  unfold atLast
  rw [hdrop]

theorem atLast_append {rest : List Char} (h : '@' ∉ rest) (user : List Char) :
    atLast (user ++ '@' :: rest) = some (user, rest) := by
  have hpass : ∀ c ∈ rest.reverse, (c != '@') = true := fun c hc => by
    simpa using fun heq : c = '@' => h (heq ▸ List.mem_reverse.mp hc)
  have hdrop : (user ++ '@' :: rest).reverse.dropWhile (· != '@') = '@' :: user.reverse := by
    rw [List.reverse_append, List.reverse_cons, List.append_assoc, List.dropWhile_append_of_pos hpass]
    exact List.dropWhile_cons_of_neg (by simp)
  unfold atLast
  rw [hdrop]
  simp

/-- What stands in front of an at sign is read as the user that was written there. -/
theorem credentials_eq {username password : List Char} (husername : Percent.Clear Percent.userInfo username)
    (hpassword : Percent.Clear Percent.userInfo password) :
    credentials (username ++ if password.isEmpty then [] else ':' :: password) = (username, password) := by
  have hpass : ∀ c ∈ username, (c != ':') = true := fun c hc => by
    have hclear := Percent.isEscaped_iff.mp (husername c hc)
    simpa using fun heq : c = ':' => hclear.2.2 (heq ▸ by decide)
  unfold credentials
  rw [List.takeWhile_append_of_pos hpass, List.dropWhile_append_of_pos hpass]
  cases password with
  | nil => simp [Percent.encode_of_clear husername, Percent.encode_nil]
  | cons c password =>
    simp [Percent.encode_of_clear husername, Percent.encode_of_clear hpassword]

/-- Something that is written is a host, or none that can be read. -/
theorem readHost_ne_none (hne : cs ≠ []) (isPortNext : Bool) : readHost kind cs isPortNext ≠ .ok none := by
  have hempty : cs.isEmpty = false := by simpa using hne
  unfold readHost
  rw [hempty, Bool.false_and, if_neg (by decide)]
  split
  · cases Host.ofText cs <;> exact nofun
  · unfold Host.ofOpaque
    split
    · exact absurd rfl hne
    · next rest =>
      cases Host.ofBrackets rest <;> exact nofun
    · split <;> exact nofun

/-! ## The text of a URL -/

/-- User, host and port of a URL as they stand in its text. -/
def authorityText (u : Url) (h : Host) : List Char := u.userInfo ++ h.text ++ u.portText

theorem chars_eq {u : Url} {h : Host} (hhost : u.host = some h) :
    u.chars = assembled u.scheme (u.authorityText h) (tailText u.path.text u.query u.fragment) := by
  obtain ⟨scheme, username, password, host, port, path, query, fragment⟩ := u
  cases hhost
  cases query <;> cases fragment <;>
    simp [chars, Url.authority, assembled, authorityText, tailText]

theorem visible_of_clear {e : Percent.Escapes} (he : ' ' ∈ e) (h : Percent.Clear e cs) :
    ∀ c ∈ cs, 0x20 < c.toNat := by
  intro c hc
  obtain ⟨hlow, -, hnot⟩ := Percent.isEscaped_iff.mp (h c hc)
  refine Nat.lt_of_le_of_ne hlow fun hspace => hnot ?_
  have heq : c = ' ' := by rw [← Char.ofNat_toNat c, ← hspace]
  exact heq ▸ he

theorem bare_of_clear (h : Percent.Clear Percent.userInfo cs) : ∀ c ∈ cs, isBare c = true := by
  intro c hc
  have hmarks : ∀ d ∈ ['/', '\\', '?', '#'], d ∈ Percent.userInfo := Text.forall_of_all (by decide)
  have hne (d : Char) (hd : d ∈ ['/', '\\', '?', '#']) : c ≠ d := fun heq =>
    (Percent.isEscaped_iff.mp (h c hc)).2.2 (heq ▸ hmarks d hd)
  exact isBare_iff.mpr ⟨visible_of_clear (by decide) h c hc, hne '/' (by decide), hne '\\' (by decide),
    hne '?' (by decide), hne '#' (by decide)⟩

namespace Settled

variable {u : Url} {h : Host} {ss : List (List Char)}

theorem authorityText_bare (hu : u.Settled h ss) : ∀ c ∈ u.authorityText h, isBare c = true := by
  have hdigits : Toml.digits.all isBare = true := by decide
  intro c hc
  simp only [authorityText, List.mem_append] at hc
  rcases hc with (hc | hc) | hc
  · unfold userInfo at hc
    split at hc
    · cases hc
    · simp only [List.mem_append, List.mem_singleton] at hc
      rcases hc with (hc | hc) | rfl
      · exact bare_of_clear hu.username c hc
      · split at hc
        · cases hc
        · rcases List.mem_cons.mp hc with rfl | hc
          · decide
          · exact bare_of_clear hu.password c hc
      · decide
  · exact (hu.hostText.bare c hc).1
  · unfold portText at hc
    split at hc
    · cases hc
    · rcases List.mem_cons.mp hc with rfl | hc
      · decide
      · exact Toml.toDigits_all hdigits hc

theorem authority (hu : u.Settled h ss) : AuthorityText (u.authorityText h) := by
  obtain ⟨c, cs, hhost⟩ := List.exists_cons_of_ne_nil hu.hostText.nonempty
  have hmem : c ∈ u.authorityText h := by simp [authorityText, hhost]
  refine ⟨hu.authorityText_bare, List.ne_nil_of_mem hmem, fun heq => ?_⟩
  rw [heq, List.mem_singleton] at hmem
  exact (hu.hostText.bare c (hhost ▸ List.mem_cons_self)).2 hmem

/-- In the text of a file, the host stands alone. -/
theorem authorityText_file (hu : u.Settled h ss) (hkind : SchemeKind.ofScheme u.scheme = .file) :
    u.authorityText h = h.text := by
  obtain ⟨husername, hpassword, hport⟩ := hu.plain hkind
  simp [authorityText, userInfo, portText, husername, hpassword, hport]

theorem path_text (hu : u.Settled h ss) : u.path.text = pathText ss := by
  rw [hu.path]
  rfl

theorem mem_pathText {c : Char} (hc : c ∈ pathText ss) : c = '/' ∨ ∃ s ∈ ss, c ∈ s := by
  obtain ⟨s, hs, hc⟩ := List.mem_flatMap.mp hc
  rcases List.mem_cons.mp hc with rfl | hc
  · exact Or.inl rfl
  · exact Or.inr ⟨s, hs, hc⟩

theorem path_marks (hu : u.Settled h ss) : '?' ∉ pathText ss ∧ '#' ∉ pathText ss := by
  have hmark (c : Char) (hc : c ∈ Percent.path) (hne : c ≠ '/') : c ∉ pathText ss := fun hmem => by
    rcases mem_pathText hmem with heq | ⟨s, hs, hcs⟩
    · exact hne heq
    · exact (Percent.isEscaped_iff.mp ((hu.segments.1 s hs).clear c hcs)).2.2 hc
  exact ⟨hmark '?' (by decide) (by decide), hmark '#' (by decide) (by decide)⟩

theorem tail_ends (query fragment : Option (List Char)) : Ends (tailText (pathText ss) query fragment) := by
  intro c hc
  cases ss with
  | cons s ss =>
    cases hc
    exact Or.inl rfl
  | nil =>
    cases query with
    | some q =>
      cases hc
      exact Or.inr (Or.inl rfl)
    | none =>
      cases fragment with
      | some f =>
        cases hc
        exact Or.inr (Or.inr rfl)
      | none => cases hc

theorem tail_visible (hu : u.Settled h ss) :
    ∀ c ∈ tailText (pathText ss) u.query u.fragment, 0x20 < c.toNat := by
  have hspace : ' ' ∈ querySet (SchemeKind.ofScheme u.scheme) := by
    cases SchemeKind.ofScheme u.scheme <;> decide
  intro c hc
  simp only [tailText, List.mem_append] at hc
  rcases hc with (hc | hc) | hc
  · rcases mem_pathText hc with rfl | ⟨s, hs, hcs⟩
    · decide
    · exact visible_of_clear (by decide) (hu.segments.1 s hs).clear c hcs
  · cases hquery : u.query with
    | none =>
      rw [hquery] at hc
      cases hc
    | some q =>
      rw [hquery] at hc
      rcases List.mem_cons.mp hc with rfl | hc
      · decide
      · exact visible_of_clear hspace (hu.query q hquery) c hc
  · cases hfragment : u.fragment with
    | none =>
      rw [hfragment] at hc
      cases hc
    | some f =>
      rw [hfragment] at hc
      rcases List.mem_cons.mp hc with rfl | hc
      · decide
      · exact visible_of_clear (by decide) (hu.fragment f hfragment) c hc

theorem splitTail_eq (hu : u.Settled h ss) : splitTail (SchemeKind.ofScheme u.scheme)
    (tailText (pathText ss) u.query u.fragment) = ⟨pathText ss, u.query, u.fragment⟩ :=
  splitTail_tailText hu.path_marks hu.query hu.fragment

theorem splitUser_text (hu : u.Settled h ss) : ∃ user, splitUser (u.authorityText h) true =
    .ok (user, h.text ++ u.portText) ∧ credentials user = (u.username, u.password) := by
  have hport : '@' ∉ u.portText := by
    have hdigits : Toml.digits.all (· != '@') = true := by decide
    unfold portText
    split
    · exact List.not_mem_nil
    · refine fun hmem => (List.mem_cons.mp hmem).elim (by decide) fun hmem => ?_
      simpa using Toml.toDigits_all hdigits hmem
  have hrest : '@' ∉ h.text ++ u.portText := fun hmem => (List.mem_append.mp hmem).elim
    (fun hmem => (hu.hostText.bare _ hmem).2 rfl) hport
  have hauthority : u.authorityText h = u.userInfo ++ (h.text ++ u.portText) := List.append_assoc ..
  rw [hauthority, splitUser]
  by_cases hnone : (u.username.isEmpty && u.password.isEmpty) = true
  · have hinfo : u.userInfo = [] := if_pos hnone
    simp only [Bool.and_eq_true, List.isEmpty_iff] at hnone
    rw [hinfo, List.nil_append, atLast_of_not_mem hrest, hnone.1, hnone.2]
    exact ⟨[], rfl, rfl⟩
  · have hinfo : u.userInfo =
        (u.username ++ if u.password.isEmpty then [] else ':' :: u.password) ++ ['@'] := if_neg hnone
    rw [hinfo, List.append_assoc, List.singleton_append, atLast_append hrest]
    exact ⟨_, by simp, credentials_eq hu.username hu.password⟩

theorem port?_text (hu : u.Settled h ss) : port? u.scheme u.portText = .ok (u.port, []) := by
  unfold portText
  cases hport : u.port with
  | none => rfl
  | some p =>
    obtain ⟨hlimit, hstandard⟩ := hu.port p hport
    have hdigits : ∀ c ∈ Text.decimal p, Text.isDigit 10 c = true := fun c hc =>
      Toml.toDigits_all (by decide) hc
    have htake : (Text.decimal p).takeWhile (Text.isDigit 10) = Text.decimal p :=
      List.takeWhile_eq_self_iff.mpr hdigits
    have hdrop : (Text.decimal p).dropWhile (Text.isDigit 10) = [] :=
      List.dropWhile_eq_nil_iff.mpr hdigits
    have hnumber : Text.numberOf 10 (Text.decimal p) = p := Toml.numberOf_toDigits p
    have hne : (Text.decimal p).isEmpty = false := List.isEmpty_eq_false_iff.mpr Nat.toDigits_ne_nil
    simp [port?, htake, hdrop, hnumber, hne, Nat.not_lt.mpr hlimit, hstandard]

/-- The authority of a URL is read as it is written, but for the host. -/
theorem readAuthority_text (hu : u.Settled h ss) : readAuthority u.scheme (u.authorityText h) true =
    (readHost (SchemeKind.ofScheme u.scheme) h.text u.port.isSome).map fun host =>
      ⟨u.username, u.password, host, u.port, []⟩ := by
  obtain ⟨user, huser, hcredentials⟩ := hu.splitUser_text
  have hnext : u.portText = [] ∨ ∃ more, u.portText = ':' :: more := by
    unfold portText
    split
    · exact Or.inl rfl
    · exact Or.inr ⟨_, rfl⟩
  have hcolon : decide (u.portText.head? = some ':') = u.port.isSome := by
    unfold portText
    cases u.port <;> rfl
  rw [readAuthority_eq, huser]
  simp only [Except.bind, readAfterUser, hcredentials, hu.hostText.apart _ hnext, hcolon, hu.port?_text]
  cases hhost : readHost (SchemeKind.ofScheme u.scheme) h.text u.port.isSome with
  | error e => rfl
  | ok host =>
    cases host with
    | none => exact absurd hhost (readHost_ne_none hu.hostText.nonempty _)
    | some host => rfl

/-- The text of a URL that is no file is read as this URL, but for the host. -/
theorem parse_text_web (hu : u.Settled h ss) (hkind : SchemeKind.ofScheme u.scheme ≠ .file) :
    parse u.text = (readHost (SchemeKind.ofScheme u.scheme) h.text u.port.isSome).map fun host =>
      { u with host } := by
  rw [text, chars_eq hu.host, hu.path_text,
    parse_web hu.scheme hkind hu.authority (tail_ends _ _) hu.tail_visible, hu.readAuthority_text]
  cases readHost (SchemeKind.ofScheme u.scheme) h.text u.port.isSome with
  | error e => rfl
  | ok host =>
    simp only [Except.map, webUrl, hu.splitTail_eq, hostPath_pathText hu.segments hkind, ← hu.path]

/-- The text of a file is read like its segments. -/
theorem parse_text_file (hu : u.Settled h ss) (hkind : SchemeKind.ofScheme u.scheme = .file) :
    parse u.text = (Host.ofText h.text).map fun host =>
      let path := fileSegments (afterSlash .file (pathText ss))
      ⟨u.scheme, [], [], if path.2 then none else elsewhere host, none, .segments path.1, u.query,
        u.fragment⟩ := by
  have hauthority := hu.authorityText_file hkind
  have htail := hu.splitTail_eq
  rw [hkind] at htail
  rw [text, chars_eq hu.host, hu.path_text, hauthority, parse_file hu.scheme hkind
    (hauthority ▸ hu.authority) hu.hostText.notDrive (tail_ends _ _) hu.tail_visible]
  simp only [fileUrl, htail]

end Settled

end Url

end RpcPool

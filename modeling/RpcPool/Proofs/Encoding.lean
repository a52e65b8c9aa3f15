import RpcPool.Proofs.Letters
import RpcPool.Proofs.Rendering
import RpcPool.Url.Parser

/-!
# What stands in a URL

A part of a URL that was read holds only characters that need not be encoded in it. So it is encoded as it
stands, and it holds none of the characters that end it. A host holds none of the characters that end an
authority, however it was written.

Results:
1. `mem_encode`, `encode_of_clear`: an encoded text holds nothing to encode, and such a text stays as it is.
2. `isDot_encode`, `isDoubleDot_encode`: only dots are encoded as dots.
3. `ascii?_allowed`: the ASCII form of a domain name has no forbidden characters.
4. `hostText_ofText`, `hostText_ofOpaque`: the text of a host that was read.
-/

namespace RpcPool

namespace Percent

/-! ## Encoded texts -/

/-- The characters of an encoded byte. -/
def marks : List Char := "%0123456789ABCDEF".toList

/-- Whether a set leaves encoded bytes as they are. -/
def Proper (e : Escapes) : Prop := ∀ c ∈ marks, isEscaped e c = false

instance (e : Escapes) : Decidable (Proper e) := List.decidableBAll _ marks

/-- Whether nothing in a text has to be encoded. -/
def Clear (e : Escapes) (cs : List Char) : Prop := ∀ c ∈ cs, isEscaped e c = false

instance (e : Escapes) (cs : List Char) : Decidable (Clear e cs) := List.decidableBAll _ cs

theorem Clear.append {e : Escapes} {cs ds : List Char} (h : Clear e cs) (h' : Clear e ds) :
    Clear e (cs ++ ds) := fun c hc => (List.mem_append.mp hc).elim (h c) (h' c)

variable {e : Escapes} {c : Char} {cs : List Char}

theorem isEscaped_iff : isEscaped e c = false ↔ 0x20 ≤ c.toNat ∧ c.toNat ≤ 0x7E ∧ c ∉ e := by
  simp [isEscaped, and_assoc]

theorem mem_encodeByte {b : UInt8} (h : c ∈ encodeByte b) : c ∈ marks := by
  have hdigit : ∀ n < 16, Text.upperHex n ∈ marks := by decide
  have hb : b.toNat < 256 := b.toNat_lt
  simp only [encodeByte, List.mem_cons, List.not_mem_nil, or_false] at h
  rcases h with rfl | rfl | rfl
  · decide
  · exact hdigit _ (by omega)
  · exact hdigit _ (by omega)

/-- What is in an encoded text is part of an encoded byte or need not be encoded. -/
theorem mem_encode_cases (h : c ∈ encode e cs) : c ∈ marks ∨ c ∈ cs ∧ isEscaped e c = false := by
  obtain ⟨d, hd, hc⟩ := List.mem_flatMap.mp h
  unfold encodeChar at hc
  split at hc
  · obtain ⟨b, -, hb⟩ := List.mem_flatMap.mp hc
    exact Or.inl (mem_encodeByte hb)
  · next hescaped =>
    cases List.mem_singleton.mp hc
    exact Or.inr ⟨hd, Bool.eq_false_iff.mpr hescaped⟩

theorem clear_encode (he : Proper e) (cs : List Char) : Clear e (encode e cs) := fun c hc =>
  (mem_encode_cases hc).elim (he c) And.right

theorem encode_of_clear (h : Clear e cs) : encode e cs = cs := by
  induction cs with
  | nil => rfl
  | cons c cs ih =>
    have hc : encodeChar e c = [c] := if_neg (Bool.eq_false_iff.mp (h c List.mem_cons_self))
    rw [encode, List.flatMap_cons, hc]
    exact congrArg (c :: ·) (ih fun d hd => h d (List.mem_cons_of_mem c hd))

theorem encode_cons (e : Escapes) (c : Char) (cs : List Char) :
    encode e (c :: cs) = encodeChar e c ++ encode e cs := List.flatMap_cons

theorem encode_nil (e : Escapes) : encode e [] = [] := rfl

/-! ## Dots -/

theorem utf8_ne_nil (c : Char) : Json.utf8 [c] ≠ [] := by
  intro hnil
  have hlength := congrArg List.length hnil
  rw [Json.utf8, List.flatMap_singleton, String.length_utf8EncodeChar] at hlength
  exact absurd hlength (Nat.ne_of_gt c.utf8Size_pos)

/-- A character that has to be encoded begins with an encoded byte, which is not that of a dot. -/
theorem encodeChar_escaped (he : isEscaped e '.' = false) (h : isEscaped e c = true) :
    ∃ b more, encodeChar e c = encodeByte b ++ more ∧ b.toNat ≠ 0x2E := by
  have hbytes : encodeChar e c = (Json.utf8 [c]).flatMap encodeByte := by
    rw [encodeChar, if_pos h, Json.toUTF8_toList, String.toList_ofList]
  obtain ⟨b, bytes, hutf⟩ := List.exists_cons_of_ne_nil (utf8_ne_nil c)
  refine ⟨b, bytes.flatMap encodeByte, by rw [hbytes, hutf, List.flatMap_cons], fun hb => ?_⟩
  have hmem : b ∈ Json.utf8 [c] := hutf ▸ List.mem_cons_self
  have hnat := Json.byte_mem_utf8 hmem (by rw [hb]; decide)
  have hc : c = '.' := by rw [← Char.ofNat_toNat c, hnat, hb]
  rw [hc, he] at h
  cases h

/-- A character that begins no encoded byte stands for itself. -/
theorem encode_eq_cons (he : isEscaped e '.' = false) {x : Char} (hx : x ≠ '%') {rest : List Char}
    (h : encode e cs = x :: rest) : ∃ more, cs = x :: more ∧ encode e more = rest := by
  cases cs with
  | nil => cases h
  | cons c cs =>
    rw [encode_cons] at h
    by_cases hc : isEscaped e c = true
    · obtain ⟨b, more, hb, -⟩ := encodeChar_escaped he hc
      rw [hb] at h
      exact absurd (List.cons.inj h).1.symm hx
    · rw [encodeChar, if_neg hc] at h
      obtain ⟨rfl, hrest⟩ := List.cons.inj h
      exact ⟨cs, rfl, hrest⟩

/-- The ways to write a dot. -/
def dots : List (List Char) := [['.'], ['%', '2', 'e'], ['%', '2', 'E']]

theorem isDot_iff : Url.isDot cs = true ↔ cs ∈ dots := by
  rw [Url.isDot, List.any_eq_true]
  constructor
  · rintro ⟨d, hd, heq⟩
    have hall : ∀ d ∈ [".", "%2e", "%2E"], d.toList ∈ dots := by decide
    exact beq_iff_eq.mp heq ▸ hall d hd
  · intro hcs
    have hall : ∀ d ∈ dots, Url.isDot d = true := by decide
    simpa only [Url.isDot, List.any_eq_true] using hall cs hcs

theorem isDoubleDot_iff : Url.isDoubleDot cs = true ↔ ∃ a ∈ dots, ∃ b ∈ dots, cs = a ++ b := by
  rw [Url.isDoubleDot, List.any_eq_true]
  constructor
  · rintro ⟨d, hd, heq⟩
    have hall : ∀ d ∈ ["..", "%2e.", "%2E.", ".%2e", ".%2E", "%2e%2e", "%2e%2E", "%2E%2e", "%2E%2E"],
        ∃ a ∈ dots, ∃ b ∈ dots, d.toList = a ++ b := by decide
    exact beq_iff_eq.mp heq ▸ hall d hd
  · rintro ⟨a, ha, b, hb, rfl⟩
    have hall : ∀ a ∈ dots, ∀ b ∈ dots, Url.isDoubleDot (a ++ b) = true := by decide
    simpa only [Url.isDoubleDot, List.any_eq_true] using hall a ha b hb

/-- A dot at the start of an encoded text is one at the start of the text. -/
theorem encode_eq_dot (he : isEscaped e '.' = false) {d : List Char} (hd : d ∈ dots) {rest : List Char}
    (h : encode e cs = d ++ rest) : ∃ more, cs = d ++ more ∧ encode e more = rest := by
  have hhex : ∀ x ∈ ['e', 'E'], encode e cs = '%' :: '2' :: x :: rest →
      ∃ more, cs = '%' :: '2' :: x :: more ∧ encode e more = rest := by
    intro x hx h
    have hplain : x ≠ '%' := fun heq => absurd (heq ▸ hx) (by decide)
    cases cs with
    | nil => cases h
    | cons c cs =>
      rw [encode_cons] at h
      by_cases hc : isEscaped e c = true
      · obtain ⟨b, more, hb, hdot⟩ := encodeChar_escaped he hc
        rw [hb, encodeByte] at h
        simp only [List.cons_append, List.nil_append, List.cons.injEq, true_and] at h
        obtain ⟨hhigh, hlow, -⟩ := h
        have htwo : ∀ n < 16, Text.upperHex n = '2' → n = 2 := by decide
        have hfourteen : ∀ n < 16, Text.upperHex n ∈ ['e', 'E'] → n = 14 := by decide
        have hb : b.toNat < 256 := b.toNat_lt
        have := htwo _ (by omega) hhigh
        have := hfourteen _ (by omega) (hlow ▸ hx)
        omega
      · rw [encodeChar, if_neg hc] at h
        obtain ⟨rfl, hrest⟩ := List.cons.inj h
        obtain ⟨more, rfl, hmore⟩ := encode_eq_cons he (by decide) hrest
        obtain ⟨last, rfl, hlast⟩ := encode_eq_cons he hplain hmore
        exact ⟨last, rfl, hlast⟩
  simp only [dots, List.mem_cons, List.not_mem_nil, or_false] at hd
  rcases hd with rfl | rfl | rfl
  · exact encode_eq_cons he (by decide) h
  · exact hhex 'e' (by decide) h
  · exact hhex 'E' (by decide) h

theorem eq_nil_of_encode (h : encode e cs = []) (he : isEscaped e '.' = false) : cs = [] := by
  cases cs with
  | nil => rfl
  | cons c cs =>
    rw [encode_cons] at h
    by_cases hc : isEscaped e c = true
    · obtain ⟨b, more, hb, -⟩ := encodeChar_escaped he hc
      rw [hb] at h
      cases h
    · rw [encodeChar, if_neg hc] at h
      cases h

theorem isDot_encode (he : isEscaped e '.' = false) (h : Url.isDot (encode e cs) = true) :
    Url.isDot cs = true := by
  rw [isDot_iff] at h ⊢
  obtain ⟨more, hcs, hmore⟩ := encode_eq_dot he h (List.append_nil _).symm
  rw [eq_nil_of_encode hmore he, List.append_nil] at hcs
  exact hcs ▸ h

theorem isDoubleDot_encode (he : isEscaped e '.' = false) (h : Url.isDoubleDot (encode e cs) = true) :
    Url.isDoubleDot cs = true := by
  rw [isDoubleDot_iff] at h ⊢
  obtain ⟨a, ha, b, hb, heq⟩ := h
  obtain ⟨more, rfl, hmore⟩ := encode_eq_dot he ha heq
  obtain ⟨last, rfl, hlast⟩ := encode_eq_dot he hb (hmore.trans (List.append_nil b).symm)
  exact ⟨a, ha, b, hb, by rw [eq_nil_of_encode hlast he, List.append_nil]⟩

end Percent

namespace Domain

/-! ## Domain names -/

/-- Whether a text holds only characters that may stand in the name of a host. -/
def Allowed (cs : List Char) : Prop := ∀ c ∈ cs, isForbidden c = false

instance (cs : List Char) : Decidable (Allowed cs) := List.decidableBAll _ cs

theorem Allowed.append {cs ds : List Char} (h : Allowed cs) (h' : Allowed ds) : Allowed (cs ++ ds) :=
  fun c hc => (List.mem_append.mp hc).elim (h c) (h' c)

namespace Punycode

theorem digitChar_allowed : ∀ d < base, isForbidden (digitChar d) = false := by decide

theorem writeNumber_allowed (bias position n : Nat) : Allowed (writeNumber bias position n) := by
  induction n using Nat.strongRecOn generalizing position with
  | _ n ih =>
    obtain ⟨hpos, hlt⟩ := threshold_bounds position bias
    rw [writeNumber]
    split
    · next hlast =>
      intro c hc
      exact List.mem_singleton.mp hc ▸ digitChar_allowed n (Nat.lt_trans hlast hlt)
    · next hmore =>
      have hdigit : threshold position bias + (n - threshold position bias) %
          (base - threshold position bias) < base := by
        have := Nat.mod_lt (n - threshold position bias) (Nat.sub_pos_of_lt hlt)
        omega
      have hsmaller : (n - threshold position bias) / (base - threshold position bias) < n :=
        Nat.lt_of_le_of_lt (Nat.div_le_self _ _) (by omega)
      intro c hc
      rcases List.mem_cons.mp hc with rfl | hc
      · exact digitChar_allowed _ hdigit
      · exact ih _ hsmaller _ c hc

/-- Whether all that has been written is allowed. -/
def Writing.Fine (s : Writing) : Prop := ∀ piece ∈ s.written, Allowed piece

theorem pass_fine (code ascii : Nat) {s : Writing} (h : s.Fine) (c : Char) :
    (pass code ascii s c).Fine := by
  unfold pass
  split
  · exact h
  · split
    · intro piece hpiece
      rcases List.mem_cons.mp hpiece with rfl | hpiece
      · exact writeNumber_allowed _ _ _
      · exact h piece hpiece
    · exact h

theorem writeCodes_fine (label : List Char) (ascii : Nat) (codes : List Nat) (next : Nat) {s : Writing}
    (h : s.Fine) : (writeCodes label ascii codes next s).Fine := by
  induction codes generalizing next s with
  | nil => exact h
  | cons code codes ih =>
    refine ih (code + 1) ?_
    exact List.foldlRecOn (motive := Writing.Fine) label (pass code ascii) (b := _) h
      fun s hs c _ => pass_fine code ascii hs c

theorem write_allowed {label : List Char} (h : Allowed label) : Allowed (write label) := by
  have hascii : Allowed (label.filter isAscii) := fun c hc => h c (List.mem_filter.mp hc).1
  have hhyphen : Allowed (if (label.filter isAscii).isEmpty then [] else ['-']) := by
    intro c hc
    split at hc
    · cases hc
    · exact List.mem_singleton.mp hc ▸ (by decide)
  refine (hascii.append hhyphen).append fun c hc => ?_
  obtain ⟨piece, hpiece, hc⟩ := List.mem_flatten.mp hc
  have hfine := writeCodes_fine label (label.filter isAscii).length (codes label) firstCode
    (s := ⟨[], 0, firstBias, (label.filter isAscii).length⟩) fun piece hpiece => by cases hpiece
  exact hfine piece (List.mem_reverse.mp hpiece) c hc

end Punycode

theorem written?_allowed {label written : List Char} (h : Allowed label)
    (hwritten : written? label = some written) : Allowed written := by
  have hmark : Allowed mark := by decide
  unfold written? at hwritten
  split at hwritten
  · cases hwritten
    exact h
  · split at hwritten
    · cases hwritten
    · cases hwritten
      exact hmark.append (Punycode.write_allowed h)

theorem mem_intercalate {α : Type} {sep : List α} {parts : List (List α)} {a : α}
    (h : a ∈ sep.intercalate parts) : a ∈ sep ∨ ∃ part ∈ parts, a ∈ part := by
  induction parts with
  | nil => simp at h
  | cons part parts ih =>
    cases parts with
    | nil => exact Or.inr ⟨part, List.mem_cons_self, by simpa using h⟩
    | cons next rest =>
      rw [List.intercalate_cons_cons, List.mem_append, List.mem_append] at h
      rcases h with (h | h) | h
      · exact Or.inr ⟨part, List.mem_cons_self, h⟩
      · exact Or.inl h
      · rcases ih h with h | ⟨p, hp, hmem⟩
        · exact Or.inl h
        · exact Or.inr ⟨p, List.mem_cons_of_mem _ hp, hmem⟩

theorem exists_of_mapM {α β : Type} {f : α → Option β} {l : List α} {l' : List β}
    (h : l.mapM f = some l') {b : β} (hb : b ∈ l') : ∃ a ∈ l, f a = some b := by
  induction l generalizing l' with
  | nil =>
    cases h
    cases hb
  | cons a l ih =>
    simp only [List.mapM_cons, Option.bind_eq_bind, Option.bind_eq_some_iff] at h
    obtain ⟨b', hfirst, rest, hrest, heq⟩ := h
    cases heq
    rcases List.mem_cons.mp hb with rfl | hb
    · exact ⟨a, List.mem_cons_self, hfirst⟩
    · obtain ⟨a', ha', hb'⟩ := ih hrest hb
      exact ⟨a', List.mem_cons_of_mem a ha', hb'⟩

/-- The ASCII form of a name has only characters that may stand in the name of a host. -/
theorem ascii?_allowed {name written : List Char} (h : ascii? name = some written) : Allowed written := by
  simp only [ascii?, Option.bind_eq_bind, Option.bind_eq_some_iff] at h
  obtain ⟨labels, -, meanings, -, h⟩ := h
  split at h
  · cases h
  · next hallowed =>
    split at h
    · cases h
    · obtain ⟨parts, hparts, heq⟩ := Option.bind_eq_some_iff.mp h
      cases heq
      have hmeanings : ∀ m ∈ meanings, Allowed m := fun m hm c hc => by
        rw [Bool.not_eq_true, List.any_eq_false] at hallowed
        have hnone := hallowed m hm
        rw [List.any_eq_true, not_exists] at hnone
        exact Bool.eq_false_iff.mpr fun hbad => hnone c ⟨hc, hbad⟩
      intro c hc
      rcases mem_intercalate hc with hdot | ⟨part, hpart, hc⟩
      · exact List.mem_singleton.mp hdot ▸ (by decide)
      · obtain ⟨m, hm, hwritten⟩ := exists_of_mapM hparts hpart
        exact written?_allowed (hmeanings m hm) hwritten c hc

end Domain

namespace Url

/-- Whether a character can stand in an authority: what is not blank and does not end it. -/
def isBare (c : Char) : Bool := 0x20 < c.toNat && !(['/', '\\', '?', '#'].contains c)

/-- Whether a text can stand for a host: no part of it is taken for something else. -/
structure HostText (cs : List Char) : Prop where
  nonempty : cs ≠ []
  bare : ∀ c ∈ cs, isBare c = true ∧ c ≠ '@'
  notDrive : isDrive cs = false
  /-- It ends where a port begins, or with the text. -/
  apart : ∀ rest, (rest = [] ∨ ∃ more, rest = ':' :: more) → splitHost false (cs ++ rest) = (cs, rest)

/-- A host without colons and brackets ends at the first colon. -/
theorem splitHost_plain {cs : List Char} (h : ∀ c ∈ cs, c ≠ ':' ∧ c ≠ '[') {rest : List Char}
    (hrest : rest = [] ∨ ∃ more, rest = ':' :: more) : splitHost false (cs ++ rest) = (cs, rest) := by
  induction cs with
  | nil =>
    rcases hrest with rfl | ⟨more, rfl⟩
    · rfl
    · simp [splitHost]
  | cons c cs ih =>
    obtain ⟨hcolon, hbracket⟩ := h c List.mem_cons_self
    simp [splitHost, hcolon, hbracket, ih fun d hd => h d (List.mem_cons_of_mem c hd)]

/-- Within brackets, colons belong to the host. -/
theorem splitHost_brackets {cs : List Char} (h : ∀ c ∈ cs, c ≠ '[' ∧ c ≠ ']') {rest : List Char}
    (hrest : rest = [] ∨ ∃ more, rest = ':' :: more) :
    splitHost true (cs ++ ']' :: rest) = (cs ++ [']'], rest) := by
  induction cs with
  | nil =>
    have hend : splitHost false ([] ++ rest) = ([], rest) :=
      splitHost_plain (fun _ hc => absurd hc List.not_mem_nil) hrest
    simp only [List.nil_append] at hend
    simp [splitHost, hend]
  | cons c cs ih =>
    obtain ⟨hopen, hclose⟩ := h c List.mem_cons_self
    simp [splitHost, hopen, hclose, ih fun d hd => h d (List.mem_cons_of_mem c hd)]

theorem isDrive_eq_false {cs : List Char} (h : ∀ c ∈ cs, c ≠ ':' ∧ c ≠ '|') : isDrive cs = false := by
  unfold isDrive
  split
  · next c d =>
    obtain ⟨hcolon, hbar⟩ := h d (by simp)
    simp [hcolon, hbar]
  · rfl

theorem hostText_allowed {cs : List Char} (hne : cs ≠ []) (h : Domain.Allowed cs) : HostText cs := by
  have hchar (c : Char) (hc : c ∈ cs) :
      0x20 < c.toNat ∧ ∀ d ∈ "%#/:<>?@[\\]^|".toList, c ≠ d := by
    have hnot := h c hc
    simp only [Domain.isForbidden, Bool.or_eq_false_iff, decide_eq_false_iff_not,
      List.contains_eq_mem] at hnot
    exact ⟨Nat.lt_of_not_le hnot.1.1, fun d hd heq => hnot.2 (heq ▸ hd)⟩
  have hcolon (c : Char) (hc : c ∈ cs) : c ≠ ':' ∧ c ≠ '|' ∧ c ≠ '[' := by
    obtain ⟨-, hmarks⟩ := hchar c hc
    exact ⟨hmarks ':' (by decide), hmarks '|' (by decide), hmarks '[' (by decide)⟩
  refine ⟨hne, fun c hc => ?_, isDrive_eq_false fun c hc => ⟨(hcolon c hc).1, (hcolon c hc).2.1⟩,
    fun rest => splitHost_plain fun c hc => ⟨(hcolon c hc).1, (hcolon c hc).2.2⟩⟩
  · obtain ⟨hlow, hmarks⟩ := hchar c hc
    refine ⟨?_, hmarks '@' (by decide)⟩
    simp [isBare, hlow, hmarks '/' (by decide), hmarks '\\' (by decide), hmarks '?' (by decide),
      hmarks '#' (by decide)]

theorem hostText_ipv4 (a : Ipv4) : HostText a.text := by
  have hdigits : Domain.Allowed Toml.digits := by decide
  refine hostText_allowed ?_ fun c hc => ?_
  · rw [Ipv4.text, Ipv4.bytes, List.map_cons, List.map_cons, List.intercalate_cons_cons]
    simp
  · rcases Domain.mem_intercalate hc with hdot | ⟨part, hpart, hc⟩
    · exact List.mem_singleton.mp hdot ▸ (by decide)
    · obtain ⟨n, -, rfl⟩ := List.mem_map.mp hpart
      exact hdigits c (Toml.digit_of_mem hc)

theorem mem_ipv6 {a : Ipv6} {c : Char} (h : c ∈ a.text) : c = ':' ∨ c ∈ Toml.digits ++ "abcdef".toList := by
  have hdigit : ∀ d < 16, d.digitChar ∈ Toml.digits ++ "abcdef".toList := by decide
  have hjoined {gs : List UInt16} (h : c ∈ Ipv6.joined gs) :
      c = ':' ∨ c ∈ Toml.digits ++ "abcdef".toList := by
    rcases Domain.mem_intercalate h with hcolon | ⟨part, hpart, hc⟩
    · exact Or.inl (List.mem_singleton.mp hcolon)
    · obtain ⟨g, -, rfl⟩ := List.mem_map.mp hpart
      obtain ⟨d, hd, rfl⟩ := Toml.mem_toDigits (by decide) hc
      exact Or.inr (hdigit d hd)
  unfold Ipv6.text at h
  dsimp only at h
  split at h
  · exact hjoined h
  · simp only [List.mem_append, List.mem_cons, List.not_mem_nil, or_false, or_self] at h
    rcases h with (h | h) | h
    · exact hjoined h
    · exact Or.inl h
    · exact hjoined h

theorem hostText_ipv6 (a : Ipv6) : HostText (Host.ipv6 a).text := by
  refine ⟨List.cons_ne_nil _ _, fun c hc => ?_, ?_, fun rest hrest => ?_⟩
  · have hall : ∀ c ∈ ['[', ']', ':'] ++ (Toml.digits ++ "abcdef".toList), isBare c = true ∧ c ≠ '@' :=
      Text.forall_of_all (by decide)
    simp only [Host.text, List.cons_append, List.mem_cons, List.mem_append, List.not_mem_nil,
      or_false] at hc
    rcases hc with rfl | hc | rfl
    · exact hall _ (by decide)
    · rcases mem_ipv6 hc with rfl | hc
      · exact hall _ (by decide)
      · exact hall c (List.mem_append_right _ hc)
    · exact hall _ (by decide)
  · rw [Host.text, List.cons_append]
    unfold isDrive
    split
    · next heq =>
      obtain ⟨rfl, -⟩ := List.cons.inj heq
      rfl
    · rfl
  · have hplain : ∀ d ∈ ':' :: (Toml.digits ++ "abcdef".toList), d ≠ '[' ∧ d ≠ ']' :=
      Text.forall_of_all (by decide)
    have hinside : ∀ d ∈ a.text, d ≠ '[' ∧ d ≠ ']' := fun d hd =>
      hplain d (List.mem_cons.mpr (mem_ipv6 hd))
    simp [Host.text, splitHost, splitHost_brackets hinside hrest]

theorem hostText_ofBrackets {cs : List Char} {h : Host} (hread : Host.ofBrackets cs = .ok h) :
    HostText h.text := by
  unfold Host.ofBrackets at hread
  split at hread
  · split at hread
    · cases hread
      exact hostText_ipv6 _
    · cases hread
  · cases hread

/-- A host that is kept as it is written. -/
theorem hostText_encode {cs : List Char} (hne : cs ≠ []) (h : ¬ cs.any Host.isForbidden = true) :
    HostText (Percent.encode Percent.none cs) := by
  have hmarks : ∀ c ∈ Percent.marks, isBare c = true ∧ c ≠ '@' ∧ c ≠ ':' ∧ c ≠ '|' ∧ c ≠ '[' :=
    Text.forall_of_all (by decide)
  have hchar (c : Char) (hc : c ∈ Percent.encode Percent.none cs) :
      isBare c = true ∧ c ≠ '@' ∧ c ≠ ':' ∧ c ≠ '|' ∧ c ≠ '[' := by
    rcases Percent.mem_encode_cases hc with hc | ⟨hc, hclear⟩
    · exact hmarks c hc
    · rw [Bool.not_eq_true, List.any_eq_false] at h
      have hplain : ∀ d ∈ "\x00\t\n\r #/:<>?@[\\]^|".toList, c ≠ d := fun d hd heq =>
        h c hc (by simpa [Host.isForbidden, heq] using hd)
      have hlow : 0x20 < c.toNat := by
        obtain ⟨hlow, -, -⟩ := Percent.isEscaped_iff.mp hclear
        refine Nat.lt_of_le_of_ne hlow fun hspace => hplain ' ' (by decide) ?_
        rw [← Char.ofNat_toNat c, ← hspace]
      refine ⟨?_, hplain '@' (by decide), hplain ':' (by decide), hplain '|' (by decide),
        hplain '[' (by decide)⟩
      simp [isBare, hlow, hplain '/' (by decide), hplain '\\' (by decide), hplain '?' (by decide),
        hplain '#' (by decide)]
  refine ⟨fun hnil => hne (Percent.eq_nil_of_encode hnil rfl), fun c hc => ?_,
    isDrive_eq_false fun c hc => ?_, fun rest => splitHost_plain fun c hc => ?_⟩
  · exact ⟨(hchar c hc).1, (hchar c hc).2.1⟩
  · exact ⟨(hchar c hc).2.2.1, (hchar c hc).2.2.2.1⟩
  · exact ⟨(hchar c hc).2.2.1, (hchar c hc).2.2.2.2⟩

/-- The host of a known scheme. -/
theorem hostText_ofText {cs : List Char} {h : Host} (hread : Host.ofText cs = .ok h) :
    HostText h.text := by
  unfold Host.ofText at hread
  split at hread
  · exact hostText_ofBrackets hread
  · split at hread
    · cases hread
    · next n hname =>
      obtain ⟨name, -, hascii⟩ := Option.bind_eq_some_iff.mp hname
      unfold Host.ofAscii at hread
      split at hread
      · cases hread
      · next hne =>
        split at hread
        · split at hread
          · cases hread
            exact hostText_ipv4 _
          · cases hread
        · cases hread
          have hname : n ≠ [] := fun hnil => hne (by rw [hnil]; rfl)
          exact hostText_allowed hname (Domain.ascii?_allowed hascii)

/-- The host of any other scheme. -/
theorem hostText_ofOpaque {cs : List Char} {h : Host} (hread : Host.ofOpaque cs = .ok (some h)) :
    HostText h.text := by
  unfold Host.ofOpaque at hread
  split at hread
  · cases hread
  · next cs =>
    cases hbrackets : Host.ofBrackets cs with
    | error e =>
      rw [hbrackets] at hread
      cases hread
    | ok h' =>
      rw [hbrackets] at hread
      cases hread
      exact hostText_ofBrackets hbrackets
  · next hne _ =>
    split at hread
    · cases hread
    · next hforbidden =>
      cases hread
      exact hostText_encode hne hforbidden

end Url

end RpcPool

import RpcPool.Toml.Parser
import RpcPool.Toml.Printer

/-!
# Written strings and keys

A text is written in one of four kinds of strings and a key in one of three. Whatever the text is
made of, the kind chosen for it can hold it, and reading gives the text back.

Results:
1. `basic?_escaped`, `literal?_append`: strings on one line.
2. `multiline?_body`: strings of several lines, in which never more than two quotes stand in a row.
3. `string?_string`, `keyPart?_key`, `key?_path`: all strings, keys and paths of keys.
-/

namespace RpcPool

namespace Toml

/-! ## Characters -/

theorem isPlain_of_not_control {c : Char} (h : isControl c = false) (hc : c ≠ '\n') :
    isPlain c = true := by
  have hspace : (' ' ≤ c) ↔ 32 ≤ c.toNat := UInt32.le_iff_toNat_le
  simp only [isControl, Bool.or_eq_false_iff, Bool.and_eq_false_iff, decide_eq_false_iff_not,
    bne_eq_false_iff_eq, beq_eq_false_iff_ne] at h
  simp only [isPlain, Bool.or_eq_true, beq_iff_eq, Bool.and_eq_true, decide_eq_true_eq, hspace,
    bne_iff_ne]
  obtain ⟨(hlow | htab) | hnewline, hdel⟩ := h
  · exact Or.inr ⟨Nat.le_of_not_lt hlow, hdel⟩
  · exact Or.inl htab
  · exact absurd hnewline hc

theorem toNat_lt_of_control {c : Char} (h : isControl c = true) : c.toNat < 128 := by
  simp only [isControl, Bool.or_eq_true, Bool.and_eq_true, decide_eq_true_eq, beq_iff_eq] at h
  rcases h with ⟨⟨hlow, _⟩, _⟩ | rfl
  · omega
  · decide

/-! ## Escapes -/

theorem hexDigits?_append {count : Nat} {ds : List Char} (h : ds.length = count)
    (rest : List Char) :
    hexDigits? count (ds ++ rest) = (hexDigits? count ds).map fun r => (r.1, rest) := by
  subst h
  unfold hexDigits?
  simp only [List.take_left, List.drop_left, List.take_length]
  split <;> rfl

theorem numbered?_append {count : Nat} {ds : List Char} (h : ds.length = count)
    (rest : List Char) :
    numbered? count (ds ++ rest) = (numbered? count ds).map fun r => (r.1, rest) := by
  unfold numbered?
  rw [hexDigits?_append h]
  cases hexDigits? count ds with
  | none => rfl
  | some r => cases hchar : char? r.1 <;> simp [hchar]

/-- The digits of the escape of a character by its number. -/
def numberDigits (n : Nat) : List Char :=
  [n / 4096 % 16, n / 256 % 16, n / 16 % 16, n % 16].map Text.upperHex

theorem numbered?_digits : ∀ n < 128, numbered? 4 (numberDigits n) = some (Char.ofNat n, []) := by
  decide

/-- How a character may be spelt in a basic string: as it is, or by an escape. -/
inductive Spelt (c : Char) : List Char → Prop
  | plain : isPlain c = true → c ≠ '"' → c ≠ '\\' → Spelt c [c]
  | escape {letter : Char} {x : List Char} : letter ∉ [' ', '\t', '\n', '\r'] →
      (∀ rest, escape? (letter :: x ++ rest) = some (c, rest)) → Spelt c ('\\' :: letter :: x)

theorem spelt_letter {c : Char} (letter : Char) (hletter : letter ∉ [' ', '\t', '\n', '\r'])
    (h : ∀ rest, escape? (letter :: rest) = some (c, rest)) : Spelt c ['\\', letter] :=
  .escape hletter h

theorem spelt_control {c : Char} (h : isControl c = true) : Spelt c (numberEscape c) := by
  have hn := toNat_lt_of_control h
  refine .escape (by decide) fun rest => ?_
  have hread : numbered? 4 (numberDigits c.toNat ++ rest) = some (c, rest) := by
    have hlength : (numberDigits c.toNat).length = 4 := rfl
    rw [numbered?_append hlength, numbered?_digits _ hn, Option.map_some, Char.ofNat_toNat]
  exact hread

/-- The next character of a text is spelt, unless it may stand as it is in a string of several
lines. -/
theorem escaped_cons (multiline : Bool) (run : Nat) (c : Char)
    (hquote : c = '"' → ¬ run < (if multiline then 2 else 0))
    (hnewline : c = '\n' → multiline = false) :
    ∃ x, Spelt c x ∧
      ∀ cs, escaped multiline run (c :: cs) = x ++ escaped multiline 0 cs := by
  by_cases h1 : c = '"'
  · subst h1
    exact ⟨_, spelt_letter '"' (by decide) fun _ => rfl, fun cs => by simp [escaped, hquote rfl]⟩
  by_cases h2 : c = '\x08'
  · subst h2
    exact ⟨_, spelt_letter 'b' (by decide) fun _ => rfl, fun cs => by simp [escaped]⟩
  by_cases h3 : c = '\t'
  · subst h3
    exact ⟨_, spelt_letter 't' (by decide) fun _ => rfl, fun cs => by simp [escaped]⟩
  by_cases h4 : c = '\n'
  · subst h4
    exact ⟨_, spelt_letter 'n' (by decide) fun _ => rfl, fun cs => by
      simp [escaped, hnewline rfl]⟩
  by_cases h5 : c = '\x0c'
  · subst h5
    exact ⟨_, spelt_letter 'f' (by decide) fun _ => rfl, fun cs => by simp [escaped]⟩
  by_cases h6 : c = '\r'
  · subst h6
    exact ⟨_, spelt_letter 'r' (by decide) fun _ => rfl, fun cs => by simp [escaped]⟩
  by_cases h7 : c = '\\'
  · subst h7
    exact ⟨_, spelt_letter '\\' (by decide) fun _ => rfl, fun cs => by simp [escaped]⟩
  by_cases h8 : isControl c = true
  · exact ⟨numberEscape c, spelt_control h8, fun cs => by
      simp [escaped, h1, h2, h3, h4, h5, h6, h7, h8]⟩
  · have hplain := isPlain_of_not_control (by simpa using h8) h4
    exact ⟨[c], .plain hplain h1 h7, fun cs => by
      simp [escaped, h1, h2, h3, h4, h5, h6, h7, h8]⟩

/-! ## Strings on one line -/

theorem basic?_spelt {c : Char} {x : List Char} (h : Spelt c x) (fuel : Nat)
    (rest seen : List Char) :
    basic? (fuel + 1) (x ++ rest) seen = basic? fuel rest (c :: seen) := by
  cases h with
  | plain hplain hquote hslash =>
    simp only [List.singleton_append, basic?, hplain, if_true]
  | escape _ hread =>
    have hread := hread rest
    simp only [List.cons_append] at hread ⊢
    simp only [basic?, hread]

theorem Spelt.length_pos {c : Char} {x : List Char} (h : Spelt c x) : 0 < x.length := by
  cases h <;> simp

/-- Escaped text in double quotes reads as the text. -/
theorem basic?_escaped (cs rest seen : List Char) {fuel : Nat}
    (hfuel : (escaped false 0 cs).length < fuel) :
    basic? fuel (escaped false 0 cs ++ '"' :: rest) seen = some (seen.reverse ++ cs, rest) := by
  induction cs generalizing seen fuel with
  | nil =>
    obtain ⟨fuel, rfl⟩ := Nat.exists_eq_add_one_of_ne_zero (Nat.ne_zero_of_lt hfuel)
    simp [escaped, basic?]
  | cons c cs ih =>
    obtain ⟨fuel, rfl⟩ := Nat.exists_eq_add_one_of_ne_zero (Nat.ne_zero_of_lt hfuel)
    obtain ⟨x, hx, heq⟩ := escaped_cons false 0 c
      (fun _ => by simp) fun _ => rfl
    have hpos := hx.length_pos
    rw [heq, List.length_append] at hfuel
    rw [heq, List.append_assoc, basic?_spelt hx, ih _ (by omega)]
    simp

/-- A run of characters ends where the first other one stands. -/
theorem span_append {p : Char → Bool} {cs rest : List Char} (h : ∀ c ∈ cs, p c = true)
    (hrest : ∀ c, rest.head? = some c → p c = false) :
    (cs ++ rest).takeWhile p = cs ∧ (cs ++ rest).dropWhile p = rest := by
  rw [List.takeWhile_append_of_pos h, List.dropWhile_append_of_pos h]
  cases rest with
  | nil => exact ⟨List.append_nil cs, rfl⟩
  | cons c more =>
    have hstop := hrest c rfl
    rw [List.takeWhile_cons_of_neg (by simp [hstop]), List.dropWhile_cons_of_neg (by simp [hstop])]
    exact ⟨List.append_nil cs, rfl⟩

/-- Text in single quotes reads as it stands. -/
theorem literal?_append {cs : List Char} (h : ∀ c ∈ cs, c ≠ '\'' ∧ isPlain c = true)
    (rest : List Char) : literal? (cs ++ '\'' :: rest) = some (cs, rest) := by
  have hinside : ∀ c ∈ cs, (c != '\'' && isPlain c) = true := fun c hc => by simp [h c hc]
  have hstop : ∀ c, ('\'' :: rest).head? = some c → (c != '\'' && isPlain c) = false := by simp
  obtain ⟨htake, hdrop⟩ := span_append hinside hstop
  simp only [literal?, htake, hdrop]

/-! ## Strings of several lines -/

section

variable {quote : Char} {escapes : Bool}

/-- A piece of text between triple quotes that is read as one character. -/
structure Piece (quote : Char) (escapes : Bool) (c : Char) (x : List Char) : Prop where
  ne_nil : x ≠ []
  head_ne : x.head? ≠ some quote
  read : ∀ fuel rest seen, multiline? quote escapes (fuel + 1) (x ++ rest) seen =
    multiline? quote escapes fuel rest (c :: seen)

/-- A text between triple quotes and what it stands for, given that so many quotes stand right before
it. No more than two of them ever stand in a row. -/
inductive Body (quote : Char) (escapes : Bool) : Nat → List Char → List Char → Prop
  | done {run : Nat} : run ≤ 2 → Body quote escapes run [] []
  | quote {run : Nat} {text cs : List Char} : run < 2 → Body quote escapes (run + 1) text cs →
      Body quote escapes run (quote :: text) (quote :: cs)
  | piece {run : Nat} {c : Char} {x text cs : List Char} : run ≤ 2 → Piece quote escapes c x →
      Body quote escapes 0 text cs → Body quote escapes run (x ++ text) (c :: cs)

theorem multiline?_cons {c : Char} (hnewline : c ≠ '\n') (hreturn : c ≠ '\r') (fuel : Nat)
    (rest seen : List Char) :
    multiline? quote escapes (fuel + 1) (c :: rest) seen =
      if c = quote then
        if 3 ≤ (quotes quote (c :: rest)).1 then
          some ((List.replicate ((quotes quote (c :: rest)).1 - 3) quote ++ seen).reverse,
            (quotes quote (c :: rest)).2)
        else
          multiline? quote escapes fuel (quotes quote (c :: rest)).2
            (List.replicate (quotes quote (c :: rest)).1 quote ++ seen)
      else if escapes && c = '\\' then
        match escapedNewline? rest with
        | some rest => multiline? quote escapes fuel rest seen
        | none =>
          match escape? rest with
          | some (c, rest) => multiline? quote escapes fuel rest (c :: seen)
          | none => none
      else if isPlain c then multiline? quote escapes fuel rest (c :: seen)
      else none := by
  conv => lhs; unfold multiline?
  simp only
  split
  · next heq => exact absurd heq (List.cons_ne_nil c rest)
  · next heq => exact absurd (List.cons.inj heq).1 hnewline
  · next heq => exact absurd (List.cons.inj heq).1 hreturn
  · next heq =>
    obtain ⟨rfl, rfl⟩ := List.cons.inj heq
    rfl

theorem piece_newline (h : quote ≠ '\n') : Piece quote escapes '\n' ['\n'] :=
  ⟨by simp, by simpa using h.symm, fun _ _ _ => rfl⟩

theorem piece_plain {c : Char} (hquote : c ≠ quote) (hplain : isPlain c = true)
    (hslash : escapes = true → c ≠ '\\') : Piece quote escapes c [c] := by
  have hnewline : c ≠ '\n' := fun h => absurd (h ▸ hplain) (by decide)
  have hreturn : c ≠ '\r' := fun h => absurd (h ▸ hplain) (by decide)
  refine ⟨by simp, by simpa using hquote, fun fuel rest seen => ?_⟩
  have hescape : ¬ (escapes = true ∧ c = '\\') := fun h => hslash h.1 h.2
  simp [multiline?_cons hnewline hreturn, hquote, hplain, hescape]

theorem escapedNewline?_letter {letter : Char} (h : letter ∉ [' ', '\t', '\n', '\r'])
    (rest : List Char) : escapedNewline? (letter :: rest) = none := by
  simp only [List.mem_cons, List.not_mem_nil, or_false, not_or] at h
  obtain ⟨hspace, htab, hnewline, hreturn⟩ := h
  have hstop : (letter :: rest).dropWhile (fun c => c == ' ' || c == '\t') = letter :: rest :=
    List.dropWhile_cons_of_neg (by simp [hspace, htab])
  unfold escapedNewline?
  simp only [hstop]
  split
  · next heq => exact absurd (List.cons.inj heq).1 hnewline
  · next heq => exact absurd (List.cons.inj heq).1 hreturn
  · rfl

theorem piece_spelt {c : Char} {x : List Char} (h : Spelt c x) : Piece '"' true c x := by
  cases h with
  | plain hplain hquote hslash => exact piece_plain hquote hplain fun _ => hslash
  | @escape letter x hletter hread =>
    refine ⟨by simp, by simp, fun fuel rest seen => ?_⟩
    have hread := hread rest
    have hline := escapedNewline?_letter hletter (x ++ rest)
    simp only [List.cons_append] at hread ⊢
    simp [multiline?, hline, hread]

theorem quotes_of_ne (run : Nat) {text : List Char} (hrun : run ≤ 5)
    (h : text.head? ≠ some quote) :
    quotes quote (List.replicate run quote ++ text) = (run, text) := by
  have htake : (List.replicate run quote ++ text).takeWhile (fun c => c == quote) =
      List.replicate run quote := by
    rw [List.takeWhile_append_of_pos (by simp)]
    cases text with
    | nil => simp
    | cons c text =>
      rw [List.takeWhile_cons_of_neg (by simpa using h), List.append_nil]
  unfold quotes
  simp only [htake, List.length_replicate, Nat.min_eq_left hrun, List.drop_left']

/-- Fewer than three quotes in a row belong to the text. -/
theorem multiline?_quotes (escapes : Bool) (fuel : Nat) {run : Nat} {text : List Char}
    (hnewline : quote ≠ '\n') (hreturn : quote ≠ '\r') (hrun : run ≤ 2) (h : text.head? ≠ some quote) (seen : List Char) :
    ∃ spent ≤ run, multiline? quote escapes (fuel + 1) (List.replicate run quote ++ text) seen =
      multiline? quote escapes (fuel + 1 - spent) text (List.replicate run quote ++ seen) := by
  cases run with
  | zero => exact ⟨0, Nat.le_refl 0, rfl⟩
  | succ run =>
    refine ⟨1, Nat.le_add_left 1 run, ?_⟩
    have hquotes := quotes_of_ne (run + 1) (by omega) h
    have hshort : ¬ 3 ≤ run + 1 := by omega
    rw [List.replicate_succ, List.cons_append] at hquotes ⊢
    rw [multiline?_cons hnewline hreturn, if_pos rfl, hquotes, if_neg hshort]
    rfl

/-- Three quotes close a text, also right after up to two that belong to it. -/
theorem multiline?_close {run fuel : Nat} {rest : List Char} (hnewline : quote ≠ '\n')
    (hreturn : quote ≠ '\r') (hrun : run ≤ 2) (h : rest.head? ≠ some quote) (seen : List Char) :
    multiline? quote escapes (fuel + 1) (List.replicate (run + 3) quote ++ rest) seen =
      some (seen.reverse ++ List.replicate run quote, rest) := by
  have hquotes := quotes_of_ne (run + 3) (by omega) h
  rw [List.replicate_succ, List.cons_append] at hquotes ⊢
  rw [multiline?_cons hnewline hreturn, if_pos rfl, hquotes, if_pos (Nat.le_add_left 3 run)]
  simp

/-- A text between triple quotes reads as what it stands for. -/
theorem multiline?_body {run fuel : Nat} {text cs rest seen : List Char}
    (hnewline : quote ≠ '\n') (hreturn : quote ≠ '\r') (h : Body quote escapes run text cs)
    (hrest : rest.head? ≠ some quote) (hfuel : run + text.length + 1 < fuel) :
    multiline? quote escapes fuel
        (List.replicate run quote ++ (text ++ (List.replicate 3 quote ++ rest))) seen =
      some (seen.reverse ++ (List.replicate run quote ++ cs), rest) := by
  induction h generalizing seen fuel with
  | @done run hrun =>
    obtain ⟨fuel, rfl⟩ := Nat.exists_eq_add_one_of_ne_zero (Nat.ne_zero_of_lt hfuel)
    rw [List.nil_append, ← List.append_assoc, List.replicate_append_replicate,
      multiline?_close hnewline hreturn hrun hrest, List.append_nil]
  | @quote run text cs hrun _ ih =>
    have hshift (l : List Char) : List.replicate run quote ++ quote :: l =
        List.replicate (run + 1) quote ++ l := by
      rw [List.replicate_succ', List.append_assoc, List.singleton_append]
    rw [List.cons_append, hshift, hshift]
    exact ih (by simp only [List.length_cons] at hfuel; omega)
  | @piece run c x text cs hrun hx _ ih =>
    obtain ⟨fuel, rfl⟩ := Nat.exists_eq_add_one_of_ne_zero (Nat.ne_zero_of_lt hfuel)
    have hlength : 1 ≤ x.length := List.length_pos_iff.mpr hx.ne_nil
    have hhead : (x ++ text ++ (List.replicate 3 quote ++ rest)).head? ≠ some quote := by
      obtain ⟨first, more, rfl⟩ := List.exists_cons_of_ne_nil hx.ne_nil
      exact hx.head_ne
    obtain ⟨spent, hspent, heq⟩ := multiline?_quotes escapes fuel hnewline
      hreturn hrun hhead seen
    rw [List.length_append] at hfuel
    obtain ⟨left, hspend⟩ : ∃ left, fuel + 1 - spent = left + 1 := ⟨fuel - spent, by omega⟩
    rw [heq, hspend, List.append_assoc, hx.read]
    have hleft : 0 + text.length + 1 < left := by omega
    have hread := @ih left (c :: (List.replicate run quote ++ seen)) hleft
    simpa using hread

end

/-! ## What is written between the quotes -/

theorem le_longestRun_go (c : Char) (cs : List Char) (run best : Nat) :
    best ≤ longestRun.go c cs run best := by
  induction cs generalizing run best with
  | nil => exact Nat.le_refl best
  | cons x cs ih =>
    unfold longestRun.go
    split
    · exact Nat.le_trans (Nat.le_max_left _ _) (ih _ _)
    · exact ih _ _

theorem not_mem_of_longestRun {c : Char} {cs : List Char} (h : longestRun c cs = 0) : c ∉ cs := by
  have hgo (cs : List Char) (run best : Nat) (h : longestRun.go c cs run best = 0) : c ∉ cs := by
    induction cs generalizing run best with
    | nil => exact List.not_mem_nil
    | cons x cs ih =>
      unfold longestRun.go at h
      split at h
      · have hle := le_longestRun_go c cs (run + 1) (max best (run + 1))
        omega
      · next hx => exact List.not_mem_cons_of_ne_of_not_mem (fun h => hx h.symm) (ih _ _ h)
  exact hgo cs 0 0 h

/-- Text without controls may stand between triple quotes as it is. -/
theorem body_raw {quote : Char} {cs : List Char} (hquote : quote ≠ '\n') {run best : Nat}
    (hrun : run ≤ 2) (hcontrol : ∀ c ∈ cs, isControl c = false)
    (h : longestRun.go quote cs run best ≤ 2) : Body quote false run cs cs := by
  induction cs generalizing run best with
  | nil => exact .done hrun
  | cons c cs ih =>
    have hcs : ∀ c ∈ cs, isControl c = false := fun d hd => hcontrol d (List.mem_cons_of_mem c hd)
    unfold longestRun.go at h
    split at h
    · next hc =>
      have hle := le_longestRun_go quote cs (run + 1) (max best (run + 1))
      subst hc
      exact .quote (by omega) (ih (by omega) hcs h)
    · next hc =>
      refine Body.piece (x := [c]) hrun ?_ (ih (Nat.zero_le 2) hcs h)
      by_cases hnewline : c = '\n'
      · exact hnewline ▸ piece_newline hquote
      · exact piece_plain hc
          (isPlain_of_not_control (hcontrol c List.mem_cons_self) hnewline) (by simp)

/-- Escaped text may stand between triple quotes. -/
theorem body_escaped (cs : List Char) {run : Nat} (hrun : run ≤ 2) :
    Body '"' true run (escaped true run cs) cs := by
  induction cs generalizing run with
  | nil => exact .done hrun
  | cons c cs ih =>
    by_cases hquote : c = '"' ∧ run < 2
    · obtain ⟨rfl, hlt⟩ := hquote
      simp only [escaped, if_true, if_pos hlt]
      exact .quote hlt (ih hlt)
    by_cases hnewline : c = '\n'
    · subst hnewline
      have heq : escaped true run ('\n' :: cs) = '\n' :: escaped true 0 cs := by simp [escaped]
      rw [heq]
      exact Body.piece (x := ['\n']) hrun (piece_newline (by decide)) (ih (Nat.zero_le 2))
    · obtain ⟨x, hx, heq⟩ := escaped_cons true run c
        (fun hc => by simpa using fun hlt => hquote ⟨hc, hlt⟩) fun hc => absurd hc hnewline
      rw [heq]
      exact .piece hrun (piece_spelt hx) (ih (Nat.zero_le 2))

/-! ## All strings -/

/-- What may follow a value in a document. -/
def Closing (rest : List Char) : Prop :=
  ∃ c more, rest = c :: more ∧ (c = '\n' ∨ c = ',' ∨ c = ']')

theorem Closing.head_ne {rest : List Char} (h : Closing rest) {c : Char}
    (hc : c ∉ ['\n', ',', ']']) : rest.head? ≠ some c := by
  obtain ⟨d, more, rfl, hd⟩ := h
  rintro ⟨⟩
  exact hc (by simpa using hd)

/-- A text does not begin with the end of a line. -/
def StartsInline (text : List Char) : Prop := ∀ c, text.head? = some c → c ≠ '\n' ∧ c ≠ '\r'

theorem startsInline_plain {c : Char} (h : isPlain c = true) (text : List Char) :
    StartsInline (c :: text) := by
  rintro d ⟨⟩
  exact ⟨fun hc => absurd (hc ▸ h) (by decide), fun hc => absurd (hc ▸ h) (by decide)⟩

theorem startsInline_spelt {c : Char} {x : List Char} (h : Spelt c x) (text : List Char) :
    StartsInline (x ++ text) := by
  cases h with
  | plain hplain _ _ => exact startsInline_plain hplain text
  | escape _ _ => exact startsInline_plain (by decide) _

theorem skipNewline_inline {text : List Char} (h : StartsInline text) : skipNewline text = text := by
  unfold skipNewline
  split
  · exact absurd rfl (h '\n' rfl).1
  · exact absurd rfl (h '\r' rfl).2
  · rfl

/-- A text of several lines starts on a line of its own. -/
theorem skipNewline_lead {cs text : List Char} (h : '\n' ∉ cs → StartsInline text) :
    skipNewline ((if cs.contains '\n' then ['\n'] else []) ++ text) = text := by
  by_cases hnewline : '\n' ∈ cs
  · rw [if_pos (by simpa using hnewline)]
    rfl
  · rw [if_neg (by simpa using hnewline)]
    exact skipNewline_inline (h hnewline)

theorem startsInline_escaped {cs : List Char} (h : '\n' ∉ cs) (rest : List Char) :
    StartsInline (escaped true 0 cs ++ '"' :: rest) := by
  cases cs with
  | nil => exact startsInline_plain (by decide) rest
  | cons c cs =>
    by_cases hquote : c = '"'
    · subst hquote
      exact startsInline_plain (by decide) _
    · obtain ⟨x, hx, heq⟩ := escaped_cons true 0 c
        (fun hc => absurd hc hquote) fun hc => absurd (hc ▸ List.mem_cons_self) h
      rw [heq, List.append_assoc]
      exact startsInline_spelt hx _

theorem startsInline_raw {cs : List Char} (h : '\n' ∉ cs) (hcontrol : ∀ c ∈ cs, isControl c = false)
    (rest : List Char) : StartsInline (cs ++ '\'' :: rest) := by
  cases cs with
  | nil => exact startsInline_plain (by decide) rest
  | cons c cs =>
    exact startsInline_plain (isPlain_of_not_control (hcontrol c List.mem_cons_self)
      fun hc => h (hc ▸ List.mem_cons_self)) _

theorem string?_eq_basic {text : List Char} (h : ∀ more, text ≠ '"' :: '"' :: more) :
    string? ('"' :: text) = basic? (text.length + 2) text [] := by
  unfold string?
  split
  · next heq => exact absurd (List.cons.inj heq).2 (h _)
  · next heq => exact absurd (List.cons.inj heq).1 (by decide)
  · next heq => rw [(List.cons.inj heq).2]; rfl
  · next heq => exact absurd (List.cons.inj heq).1 (by decide)
  · next hbasic _ => exact absurd rfl (hbasic text)

theorem string?_eq_literal {text : List Char} (h : ∀ more, text ≠ '\'' :: '\'' :: more) :
    string? ('\'' :: text) = literal? text := by
  unfold string?
  split
  · next heq => exact absurd (List.cons.inj heq).1 (by decide)
  · next heq => exact absurd (List.cons.inj heq).2 (h _)
  · next heq => exact absurd (List.cons.inj heq).1 (by decide)
  · next heq => rw [(List.cons.inj heq).2]
  · next hliteral => exact absurd rfl (hliteral text)

theorem string?_basic (cs : List Char) {rest : List Char} (hrest : Closing rest) :
    string? ('"' :: (escaped false 0 cs ++ '"' :: rest)) = some (cs, rest) := by
  have hshort : ∀ more, escaped false 0 cs ++ '"' :: rest ≠ '"' :: '"' :: more := by
    intro more heq
    cases cs with
    | nil =>
      have hnext : rest = '"' :: more := (List.cons.inj heq).2
      exact hrest.head_ne (show '"' ∉ _ by decide) (by rw [hnext]; rfl)
    | cons c cs =>
      obtain ⟨x, hx, hescaped⟩ := escaped_cons false 0 c
        (fun _ => by simp) fun _ => rfl
      rw [hescaped, List.append_assoc] at heq
      cases hx with
      | plain _ hquote _ => exact hquote (List.cons.inj heq).1
      | escape _ _ => exact absurd (List.cons.inj heq).1 (by decide)
  rw [string?_eq_basic hshort, basic?_escaped cs rest []]
  · rfl
  · simp only [List.length_append, List.length_cons]
    omega

theorem string?_literal {cs : List Char} (h : ∀ c ∈ cs, c ≠ '\'' ∧ isPlain c = true)
    {rest : List Char} (hrest : Closing rest) :
    string? ('\'' :: (cs ++ '\'' :: rest)) = some (cs, rest) := by
  rw [string?_eq_literal, literal?_append h]
  intro more heq
  cases cs with
  | nil =>
    have hnext : rest = '\'' :: more := (List.cons.inj heq).2
    exact hrest.head_ne (show '\'' ∉ _ by decide) (by rw [hnext]; rfl)
  | cons c cs => exact (h c List.mem_cons_self).1 (List.cons.inj heq).1

/-- The quotes of strings of several lines, and whether there are escapes between them. -/
def Triple (quote : Char) (escapes : Bool) : Prop :=
  quote = '"' ∧ escapes = true ∨ quote = '\'' ∧ escapes = false

theorem string?_eq_multiline {quote : Char} {escapes : Bool} (h : Triple quote escapes)
    (text : List Char) :
    string? (List.replicate 3 quote ++ text) =
      multiline? quote escapes (text.length + 4) (skipNewline text) [] := by
  rcases h with ⟨rfl, rfl⟩ | ⟨rfl, rfl⟩
  · rfl
  · rfl

theorem string?_triple {quote : Char} {escapes : Bool} {text cs rest : List Char}
    (h : Triple quote escapes) (hbody : Body quote escapes 0 text cs)
    (hinline : '\n' ∉ cs → ∀ more, StartsInline (text ++ quote :: more)) (hrest : Closing rest) :
    string? (List.replicate 3 quote ++ ((if cs.contains '\n' then ['\n'] else []) ++
      (text ++ (List.replicate 3 quote ++ rest)))) = some (cs, rest) := by
  obtain ⟨hnewline, hreturn, hhead⟩ : quote ≠ '\n' ∧ quote ≠ '\r' ∧ rest.head? ≠ some quote := by
    rcases h with ⟨rfl, _⟩ | ⟨rfl, _⟩
    · exact ⟨by decide, by decide, hrest.head_ne (by decide)⟩
    · exact ⟨by decide, by decide, hrest.head_ne (by decide)⟩
  have hstart : '\n' ∉ cs → StartsInline (text ++ (List.replicate 3 quote ++ rest)) :=
    fun hcs => hinline hcs (List.replicate 2 quote ++ rest)
  have hlead := skipNewline_lead hstart
  rw [string?_eq_multiline h, hlead]
  refine multiline?_body hnewline hreturn hbody hhead ?_
  simp only [List.length_append]
  omega

/-- A written text reads as the text. -/
theorem string?_string (s : String) {rest : List Char} (hrest : Closing rest) :
    string? (string s ++ rest) = some (s.toList, rest) := by
  unfold string
  have hplain (hcontrols : (Traits.of s.toList).controls = false) :
      ∀ c ∈ s.toList, isControl c = false := by simpa [Traits.of] using hcontrols
  cases hstyle : (Traits.of s.toList).style with
  | basic =>
    have hread := string?_basic s.toList hrest
    simpa [writeString] using hread
  | literal =>
    obtain ⟨hcontrols, hsingles, hnewline⟩ : (Traits.of s.toList).controls = false ∧
        (Traits.of s.toList).singles = 0 ∧ (Traits.of s.toList).newline = false := by
      unfold Traits.style at hstyle
      grind
    have hlines : '\n' ∉ s.toList := by simpa [Traits.of] using hnewline
    have hfree : ∀ c ∈ s.toList, c ≠ '\'' ∧ isPlain c = true := fun c hc =>
      ⟨fun h => not_mem_of_longestRun hsingles (h ▸ hc),
        isPlain_of_not_control (hplain hcontrols c hc) fun h => hlines (h ▸ hc)⟩
    have hread := string?_literal hfree hrest
    simpa [writeString] using hread
  | multilineBasic =>
    have hread := string?_triple (Or.inl ⟨rfl, rfl⟩) (body_escaped s.toList (Nat.zero_le 2))
      (fun h more => startsInline_escaped h more) hrest
    simpa [writeString, List.replicate_succ] using hread
  | multilineLiteral =>
    obtain ⟨hcontrols, hsingles⟩ : (Traits.of s.toList).controls = false ∧
        (Traits.of s.toList).singles ≤ 2 := by
      unfold Traits.style at hstyle
      grind
    have hread := string?_triple (Or.inr ⟨rfl, rfl⟩)
      (body_raw (by decide) (Nat.zero_le 2) (hplain hcontrols) hsingles)
      (fun h more => startsInline_raw h (hplain hcontrols) more) hrest
    simpa [writeString, List.replicate_succ] using hread

/-! ## Keys -/

theorem isKeyChar_of_bare {s : String} (h : isBareKey s.toList = true) :
    s.toList ≠ [] ∧ ∀ c ∈ s.toList, isKeyChar c = true := by
  simpa [isBareKey, isKeyChar] using h

/-- A text that begins with no character of a key. -/
def EndsKey (rest : List Char) : Prop := ∀ c, rest.head? = some c → isKeyChar c = false

theorem keyPart?_bare {s : String} (h : isBareKey s.toList = true) {rest : List Char}
    (hrest : EndsKey rest) : keyPart? (s.toList ++ rest) = some (s, rest) := by
  obtain ⟨hne, hchars⟩ := isKeyChar_of_bare h
  obtain ⟨htake, hdrop⟩ := span_append hchars hrest
  obtain ⟨c, more, hcons⟩ := List.exists_cons_of_ne_nil hne
  have hc := hchars c (hcons ▸ List.mem_cons_self)
  unfold keyPart?
  split
  · next heq =>
    rw [hcons] at heq
    exact absurd ((List.cons.inj heq).1 ▸ hc) (by decide)
  · next heq =>
    rw [hcons] at heq
    exact absurd ((List.cons.inj heq).1 ▸ hc) (by decide)
  · rw [htake, hdrop]
    simp [hne]

/-- A written key reads as the key, up to the first character that belongs to no key. -/
theorem keyPart?_key (s : String) {rest : List Char} (hrest : EndsKey rest) :
    keyPart? (key s ++ rest) = some (s, rest) := by
  unfold key
  simp only
  split
  · next hbare => exact keyPart?_bare hbare hrest
  · split
    · next hliteral =>
      simp only [Bool.and_eq_true, Bool.not_eq_true', Traits.of] at hliteral
      obtain ⟨⟨⟨hcontrols, hnewline⟩, hsingles⟩, _⟩ := hliteral
      have hsingles := of_decide_eq_true hsingles
      have hfree : ∀ c ∈ s.toList, c ≠ '\'' ∧ isPlain c = true := fun c hc =>
        ⟨fun h => not_mem_of_longestRun hsingles (h ▸ hc),
          isPlain_of_not_control (by simpa using List.any_eq_false.mp hcontrols c hc)
            fun h => by simp [h ▸ hc] at hnewline⟩
      have hread := literal?_append hfree rest
      simp [writeString, keyPart?, hread]
    · have hfuel : (escaped false 0 s.toList).length <
          (escaped false 0 s.toList ++ '"' :: rest).length + 1 := by
        simp only [List.length_append]
        omega
      have hread := basic?_escaped s.toList rest [] hfuel
      have htext : writeString .basic s.toList ++ rest =
          '"' :: (escaped false 0 s.toList ++ '"' :: rest) := by simp [writeString]
      rw [htext]
      simp only [keyPart?, hread]
      simp

/-- What a written key begins with. -/
theorem head_key (s : String) :
    ∃ c more, key s = c :: more ∧ (isKeyChar c = true ∨ c = '"' ∨ c = '\'') := by
  unfold key
  simp only
  split
  · next hbare =>
    obtain ⟨hne, hchars⟩ := isKeyChar_of_bare hbare
    obtain ⟨c, more, hcons⟩ := List.exists_cons_of_ne_nil hne
    exact ⟨c, more, hcons, Or.inl (hchars c (hcons ▸ List.mem_cons_self))⟩
  · split
    · exact ⟨'\'', _, rfl, Or.inr (Or.inr rfl)⟩
    · exact ⟨'"', _, rfl, Or.inr (Or.inl rfl)⟩

theorem skipSpaces_key (s : String) (rest : List Char) :
    skipSpaces (key s ++ rest) = key s ++ rest := by
  obtain ⟨c, more, hcons, hc⟩ := head_key s
  have hspace : isSpace c = false := by
    rcases hc with hc | rfl | rfl
    · cases hs : isSpace c with
      | false => rfl
      | true =>
        simp only [isSpace, Bool.or_eq_true, beq_iff_eq] at hs
        rcases hs with rfl | rfl <;> exact absurd hc (by decide)
    · decide
    · decide
  rw [hcons, List.cons_append]
  exact List.dropWhile_cons_of_neg (by simp [hspace])

theorem pathText_cons (k : String) {path : List String} (h : path ≠ []) :
    pathText (k :: path) = key k ++ '.' :: pathText path := by
  obtain ⟨j, rest, rfl⟩ := List.exists_cons_of_ne_nil h
  simp [pathText, List.intercalate]

/-- A written path reads as the path. -/
theorem key?_path (path : List String) (k : String) {rest : List Char} (hrest : EndsKey rest)
    (hdot : (skipSpaces rest).head? ≠ some '.') {fuel : Nat} (hfuel : path.length < fuel) :
    key? fuel (pathText (path ++ [k]) ++ rest) = some ((path, k), skipSpaces rest) := by
  induction path generalizing fuel with
  | nil =>
    obtain ⟨fuel, rfl⟩ := Nat.exists_eq_add_one_of_ne_zero (Nat.ne_zero_of_lt hfuel)
    have htext : pathText ([] ++ [k]) = key k := by simp [pathText, List.intercalate]
    rw [htext]
    simp only [key?, skipSpaces_key, keyPart?_key k hrest]
    split
    · next heq => exact absurd (congrArg List.head? heq) hdot
    · rfl
  | cons j path ih =>
    obtain ⟨fuel, rfl⟩ := Nat.exists_eq_add_one_of_ne_zero (Nat.ne_zero_of_lt hfuel)
    have hread := ih (Nat.lt_of_succ_lt_succ hfuel)
    have hends : EndsKey ('.' :: (pathText (path ++ [k]) ++ rest)) := by
      rintro c ⟨⟩
      decide
    rw [List.cons_append, pathText_cons j (by simp), List.append_assoc, List.cons_append]
    simp only [key?, skipSpaces_key, keyPart?_key j hends]
    have hskip : skipSpaces ('.' :: (pathText (path ++ [k]) ++ rest)) =
        '.' :: (pathText (path ++ [k]) ++ rest) := List.dropWhile_cons_of_neg (by decide)
    rw [hskip]
    simp [hread]

end Toml

end RpcPool

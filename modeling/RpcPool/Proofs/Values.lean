import RpcPool.Proofs.Quoting

/-!
# Written values

The values on the right of a key: truth values, numerals, texts, and lists of them. What follows a value
in a document is the end of a line, a comma or a bracket, and the value reads back up to there.

Results:
1. `integer?_toDigits`: the numeral of a number reads as the number.
2. `value?_scalar`: so does every value without brackets.
3. `value?_plain`: so do lists, on one line or with a line for each element.
-/

namespace RpcPool

namespace Toml

open Text (numberOf isDigit)

/-! ## Numerals -/

/-- The characters of numerals. -/
def digits : List Char := ['0', '1', '2', '3', '4', '5', '6', '7', '8', '9']

theorem mem_toDigits {base : Nat} (hbase : 1 < base) {n : Nat} {c : Char}
    (h : c ∈ Nat.toDigits base n) : ∃ d < base, d.digitChar = c := by
  induction n using Nat.strongRecOn with
  | _ n ih =>
    by_cases hn : n < base
    · rw [Nat.toDigits_of_lt_base hn] at h
      exact ⟨n, hn, (List.mem_singleton.mp h).symm⟩
    · have hpos : 0 < n := Nat.lt_of_lt_of_le (Nat.zero_lt_of_lt hbase) (Nat.le_of_not_lt hn)
      rw [Nat.toDigits_of_base_le hbase (Nat.le_of_not_lt hn), List.mem_append] at h
      rcases h with h | h
      · exact ih (n / base) (Nat.div_lt_self hpos hbase) h
      · exact ⟨n % base, Nat.mod_lt n (Nat.zero_lt_of_lt hbase), (List.mem_singleton.mp h).symm⟩

theorem digit_of_mem {n : Nat} {c : Char} (h : c ∈ Nat.toDigits 10 n) : c ∈ digits := by
  have hdigit : ∀ d < 10, d.digitChar ∈ digits := by decide
  obtain ⟨d, hd, rfl⟩ := mem_toDigits (by decide) h
  exact hdigit d hd

/-- What is so of every digit is so of the characters of a numeral. -/
theorem toDigits_all {p : Char → Bool} (h : digits.all p = true) {n : Nat} {c : Char}
    (hc : c ∈ Nat.toDigits 10 n) : p c = true :=
  List.all_eq_true.mp h c (digit_of_mem hc)

theorem numberOf_toDigits (n : Nat) : numberOf 10 (Nat.toDigits 10 n) = n := by
  have hdigit : ∀ d < 10, (Text.digit? 10 d.digitChar).getD 0 = d := by decide
  induction n using Nat.strongRecOn with
  | _ n ih =>
    by_cases hn : n < 10
    · rw [Nat.toDigits_of_lt_base hn]
      simp [numberOf, hdigit n hn]
    · have hread := ih (n / 10) (by omega)
      unfold numberOf at hread ⊢
      rw [Nat.toDigits_of_base_le (by decide) (Nat.le_of_not_lt hn), List.foldl_append, hread]
      simp only [List.foldl_cons, List.foldl_nil, hdigit _ (Nat.mod_lt n (by decide))]
      omega

/-- Only zero is written with a zero in front. -/
theorem toDigits_head {n : Nat} (hn : n ≠ 0) (rest : List Char) :
    Nat.toDigits 10 n ≠ '0' :: rest := by
  induction n using Nat.strongRecOn generalizing rest with
  | _ n ih =>
    by_cases hlt : n < 10
    · have hzero : ∀ d < 10, d ≠ 0 → d.digitChar ≠ '0' := by decide
      rw [Nat.toDigits_of_lt_base hlt]
      exact fun h => hzero n hlt hn (List.cons.inj h).1
    · rw [Nat.toDigits_of_base_le (by decide) (Nat.le_of_not_lt hlt)]
      obtain ⟨c, more, hcons⟩ :=
        List.exists_cons_of_ne_nil (Nat.toDigits_ne_nil (n := n / 10) (b := 10))
      rw [hcons]
      intro h
      exact ih (n / 10) (by omega) (by omega) more (hcons.trans (by rw [(List.cons.inj h).1]))

theorem plainDigits?_digits {cs : List Char} (hne : cs ≠ [])
    (h : ∀ c ∈ cs, isDigit 10 c = true) : plainDigits? 10 cs = some cs := by
  have hgo (last : Char) (cs : List Char) (h : ∀ c ∈ cs, isDigit 10 c = true) :
      plainDigits?.go 10 last cs = some (last :: cs) := by
    induction cs generalizing last with
    | nil => rfl
    | cons c cs ih =>
      have hc := h c List.mem_cons_self
      have hline : c ≠ '_' := fun heq => absurd (heq ▸ hc) (by decide)
      have hread := ih c fun d hd => h d (List.mem_cons_of_mem c hd)
      simp [plainDigits?.go, hc, hline, hread]
  obtain ⟨c, more, rfl⟩ := List.exists_cons_of_ne_nil hne
  have hread := hgo c more fun d hd => h d (List.mem_cons_of_mem c hd)
  simp [plainDigits?, h c List.mem_cons_self, hread]

theorem decimalDigits?_toDigits (n : Nat) :
    decimalDigits? (Nat.toDigits 10 n) = some (Nat.toDigits 10 n) := by
  by_cases hn : n = 0
  · subst hn
    rfl
  · unfold decimalDigits?
    split
    · next heq => exact absurd heq (toDigits_head hn _)
    · next heq => exact absurd heq (toDigits_head hn _)
    · exact plainDigits?_digits Nat.toDigits_ne_nil fun c hc => toDigits_all (by decide) hc

/-- A numeral reads as the number. -/
theorem integer?_toDigits (n : Nat) : integer? (Nat.toDigits 10 n) = some (.integer n) := by
  have hdigits : ∀ c ∈ Nat.toDigits 10 n, c ∈ digits := fun c hc => digit_of_mem hc
  have hsign : splitSign (Nat.toDigits 10 n) = (false, Nat.toDigits 10 n) := by
    unfold splitSign
    split
    · next heq => exact absurd (hdigits '-' (heq ▸ List.mem_cons_self)) (by decide)
    · next heq => exact absurd (hdigits '+' (heq ▸ List.mem_cons_self)) (by decide)
    · rfl
  unfold integer?
  split
  · next heq => exact absurd (hdigits 'x' (by rw [heq]; simp)) (by decide)
  · next heq => exact absurd (hdigits 'o' (by rw [heq]; simp)) (by decide)
  · next heq => exact absurd (hdigits 'b' (by rw [heq]; simp)) (by decide)
  · simp [hsign, decimalDigits?_toDigits, numberOf_toDigits, signed]

/-! ## Plain values -/

/-- A value that is written without brackets. -/
inductive Scalar : Data → Prop
  | bool (b : Bool) : Scalar (.bool b)
  | natural (n : Nat) : Scalar (.integer n)
  | text (s : String) : Scalar (.text s)

/-- A value that stands on the right of a key. -/
inductive Plain : Data → Prop
  | scalar {d : Data} : Scalar d → Plain d
  | list {elements : List Data} : (∀ d ∈ elements, Scalar d) → Plain (.list elements)

/-- What a plain value is read as. -/
def plainNode : Data → Node
  | .list elements => .array (elements.map .scalar)
  | d => .scalar d

theorem toDataList_scalars (elements : List Data) :
    Node.toDataList (elements.map .scalar) = elements := by
  induction elements with
  | nil => rfl
  | cons d rest ih => simp [Node.toDataList, Node.toData, ih]

theorem toData_plainNode (d : Data) : (plainNode d).toData = d := by
  cases d with
  | list elements => simp [plainNode, Node.toData, toDataList_scalars]
  | _ => rfl

/-- A word: one run of characters that begins neither a string nor anything in brackets. -/
structure Word (w : List Char) : Prop where
  ne_nil : w ≠ []
  inside : ∀ c ∈ w, (!isWordEnd c) = true
  start : ∀ c, w.head? = some c → c ∉ ['"', '\'', '[', '\x7b']

theorem splitWord_closing {w rest : List Char} (h : Word w) (hrest : Closing rest) :
    splitWord (w ++ rest) = (w, rest) := by
  have hstop : ∀ c, rest.head? = some c → (!isWordEnd c) = false := by
    obtain ⟨d, more, rfl, hd⟩ := hrest
    rintro c ⟨⟩
    rcases hd with rfl | rfl | rfl <;> decide
  obtain ⟨htake, hdrop⟩ := span_append h.inside hstop
  unfold splitWord
  rw [htake, hdrop]
  obtain ⟨d, more, rfl, hd⟩ := hrest
  rcases hd with rfl | rfl | rfl <;> rfl

theorem value?_word {w rest : List Char} {d : Data} (h : Word w) (hd : scalar? w = some d)
    (hrest : Closing rest) (fuel depth : Nat) :
    value? (fuel + 1) depth (w ++ rest) = some (.scalar d, rest) := by
  obtain ⟨c, more, rfl⟩ := List.exists_cons_of_ne_nil h.ne_nil
  have hstart := h.start c rfl
  simp only [List.mem_cons, List.not_mem_nil, or_false, not_or] at hstart
  obtain ⟨h1, h2, h3, h4⟩ := hstart
  have hsplit := splitWord_closing h hrest
  unfold value?
  split
  · next heq => exact absurd (List.cons.inj heq).1 h1
  · next heq => exact absurd (List.cons.inj heq).1 h2
  · next heq => exact absurd (List.cons.inj heq).1 h3
  · next heq => exact absurd (List.cons.inj heq).1 h4
  · rw [hsplit]
    simp [hd]

theorem word_toDigits (n : Nat) : Word (Nat.toDigits 10 n) where
  ne_nil := Nat.toDigits_ne_nil
  inside c hc := toDigits_all (p := fun c => !isWordEnd c) (by decide) hc
  start c hc := by
    have hall := toDigits_all (p := fun c => c ∉ ['"', '\'', '[', '\x7b']) (by decide)
      (List.mem_of_head? hc)
    exact of_decide_eq_true hall

theorem scalar?_toDigits (n : Nat) : scalar? (Nat.toDigits 10 n) = some (.integer n) := by
  have hne (w : List Char) (c : Char) (hc : c ∈ w)
      (hdigit : c ∉ ['0', '1', '2', '3', '4', '5', '6', '7', '8', '9']) :
      Nat.toDigits 10 n ≠ w := fun h => hdigit (digit_of_mem (h ▸ hc))
  unfold scalar?
  rw [if_neg (hne _ 't' (by decide) (by decide)), if_neg (hne _ 'f' (by decide) (by decide)),
    integer?_toDigits]
  rfl

/-- What a text is written with. -/
theorem head_string (s : String) : ∃ more, string s = '"' :: more ∨ string s = '\'' :: more := by
  unfold string
  cases (Traits.of s.toList).style with
  | basic => exact ⟨_, Or.inl rfl⟩
  | literal => exact ⟨_, Or.inr rfl⟩
  | multilineBasic => exact ⟨_, Or.inl rfl⟩
  | multilineLiteral => exact ⟨_, Or.inr rfl⟩

theorem value?_text (s : String) {rest : List Char} (hrest : Closing rest) (fuel depth : Nat) :
    value? (fuel + 1) depth (string s ++ rest) = some (.scalar (.text s), rest) := by
  have hread := string?_string s hrest
  obtain ⟨more, h | h⟩ := head_string s
  · rw [h] at hread ⊢
    simp only [List.cons_append] at hread ⊢
    simp [value?, hread]
  · rw [h] at hread ⊢
    simp only [List.cons_append] at hread ⊢
    simp [value?, hread]

theorem toList_toString (n : Nat) : (toString (n : Int)).toList = Nat.toDigits 10 n := by
  have hrepr : toString (n : Int) = n.repr := rfl
  rw [hrepr, Nat.repr_eq_ofList_toDigits, String.toList_ofList]

theorem value?_scalar {d : Data} (h : Scalar d) {rest : List Char} (hrest : Closing rest)
    (fuel depth : Nat) : value? (fuel + 1) depth (value d ++ rest) = some (.scalar d, rest) := by
  cases h with
  | bool b =>
    cases b with
    | true =>
      have hword : Word ['t', 'r', 'u', 'e'] :=
        ⟨by simp, List.all_eq_true.mp rfl, by rintro c ⟨⟩; decide⟩
      exact value?_word hword rfl hrest fuel depth
    | false =>
      have hword : Word ['f', 'a', 'l', 's', 'e'] :=
        ⟨by simp, List.all_eq_true.mp rfl, by rintro c ⟨⟩; decide⟩
      exact value?_word hword rfl hrest fuel depth
  | natural n =>
    have htext : value (.integer n) = Nat.toDigits 10 n := by
      simp only [value]
      exact toList_toString n
    rw [htext]
    exact value?_word (word_toDigits n) (scalar?_toDigits n) hrest fuel depth
  | text s =>
    have htext : value (.text s) = string s := by simp only [value]
    rw [htext]
    exact value?_text s hrest fuel depth

/-! ## Lists -/

/-- A text that begins neither with a blank nor with a comment. -/
def Opening (text : List Char) : Prop :=
  ∃ c more, text = c :: more ∧ c ∉ [' ', '\t', '\n', '\r', '#']

theorem Opening.append {text : List Char} (h : Opening text) (rest : List Char) :
    Opening (text ++ rest) := by
  obtain ⟨c, more, rfl, hc⟩ := h
  exact ⟨c, more ++ rest, rfl, hc⟩

theorem skipSpaces_opening {text : List Char} (h : Opening text) : skipSpaces text = text := by
  obtain ⟨c, more, rfl, hc⟩ := h
  simp only [List.mem_cons, List.not_mem_nil, or_false, not_or] at hc
  exact List.dropWhile_cons_of_neg (by simp [isSpace, hc])

theorem skipComment_opening {text : List Char} (h : Opening text) : skipComment text = text := by
  obtain ⟨c, more, rfl, hc⟩ := h
  unfold skipComment
  split
  · next heq => exact absurd ((List.cons.inj heq).1 ▸ hc) (by decide)
  · rfl

theorem skipBlank_opening {text : List Char} (h : Opening text) (before : List Char)
    (hspaces : ∀ c ∈ before, isSpace c = true) (fuel : Nat) :
    skipBlank (fuel + 1) (before ++ text) = text := by
  have hspaces : skipSpaces (before ++ text) = text := by
    have htext := skipSpaces_opening h
    unfold skipSpaces at htext ⊢
    rw [List.dropWhile_append_of_pos hspaces, htext]
  unfold skipBlank
  rw [hspaces, skipComment_opening h]
  obtain ⟨c, more, rfl, hc⟩ := h
  split
  · next heq => exact absurd ((List.cons.inj heq).1 ▸ hc) (by decide)
  · next heq => exact absurd ((List.cons.inj heq).1 ▸ hc) (by decide)
  · rfl

theorem skip_opening {text : List Char} (h : Opening text) : skip text = text :=
  skipBlank_opening h [] (fun _ h => absurd h List.not_mem_nil) text.length

theorem skip_newline {text : List Char} (h : Opening text) (before : List Char)
    (hspaces : ∀ c ∈ before, isSpace c = true) : skip ('\n' :: (before ++ text)) = text := by
  have hblank : skip ('\n' :: (before ++ text)) =
      skipBlank ((before ++ text).length + 1) (before ++ text) := rfl
  rw [hblank, skipBlank_opening h before hspaces]

/-- What a value without brackets begins with. -/
theorem head_scalar {d : Data} (h : Scalar d) :
    ∃ c more, value d = c :: more ∧ c ∉ [' ', '\t', '\n', '\r', '#', ']'] := by
  cases h with
  | bool b => cases b <;> exact ⟨_, _, rfl, by decide⟩
  | natural n =>
    have htext : value (.integer n) = Nat.toDigits 10 n := by
      simp only [value]
      exact toList_toString n
    obtain ⟨c, more, hcons⟩ := List.exists_cons_of_ne_nil
      (Nat.toDigits_ne_nil (n := n) (b := 10))
    have hall := toDigits_all (p := fun c => c ∉ [' ', '\t', '\n', '\r', '#', ']']) (by decide)
      (hcons ▸ List.mem_cons_self : c ∈ Nat.toDigits 10 n)
    exact ⟨c, more, htext.trans hcons, of_decide_eq_true hall⟩
  | text s =>
    have htext : value (.text s) = string s := by simp only [value]
    obtain ⟨more, h | h⟩ := head_string s
    · exact ⟨'"', more, htext.trans h, by decide⟩
    · exact ⟨'\'', more, htext.trans h, by decide⟩

theorem opening_scalar {d : Data} (h : Scalar d) : Opening (value d) := by
  obtain ⟨c, more, heq, hc⟩ := head_scalar h
  exact ⟨c, more, heq, fun hmem => hc (by simp_all)⟩

/-- An element of a list is read, up to what follows it. -/
theorem elements?_cons {d : Data} (h : Scalar d) {stop : Char} (hstop : stop ∈ [',', ']'])
    (rest : List Char) (fuel depth : Nat) (seen : List Node) :
    elements? (fuel + 2) depth (value d ++ stop :: rest) seen =
      if stop = ',' then elements? (fuel + 1) depth (skip rest) (.scalar d :: seen)
      else some (.array (seen.reverse ++ [.scalar d]), rest) := by
  have hclosing : Closing (stop :: rest) :=
    ⟨stop, rest, rfl, Or.inr (by simpa using hstop)⟩
  have hcases : stop = ',' ∨ stop = ']' := by simpa using hstop
  have hskip : skip (stop :: rest) = stop :: rest := by
    refine skip_opening ⟨stop, rest, rfl, ?_⟩
    rcases hcases with rfl | rfl <;> decide
  have hread := value?_scalar h hclosing fuel depth
  obtain ⟨c, more, heq, hc⟩ := head_scalar h
  have hbracket : c ≠ ']' := fun h => absurd (h ▸ hc) (by decide)
  rw [heq] at hread ⊢
  simp only [List.cons_append] at hread ⊢
  conv => lhs; unfold elements?
  rcases hcases with rfl | rfl
  · simp [hbracket, hread, hskip]
  · simp [hbracket, hread, hskip]

theorem elements?_lines {elements : List Data} (h : ∀ d ∈ elements, Scalar d)
    (rest : List Char) (depth : Nat) (seen : List Node) {fuel : Nat} (hfuel : elements.length < fuel) :
    elements? (fuel + 1) depth (skip ('\n' :: (elementLines elements ++ ']' :: rest))) seen =
      some (.array (seen.reverse ++ elements.map .scalar), rest) := by
  induction elements generalizing seen fuel with
  | nil =>
    have hskip : skip ('\n' :: ([] ++ ']' :: rest)) = ']' :: rest :=
      skip_newline ⟨']', rest, rfl, by decide⟩ [] fun _ h => absurd h List.not_mem_nil
    rw [elementLines, hskip]
    simp [elements?]
  | cons d elements ih =>
    obtain ⟨fuel, rfl⟩ := Nat.exists_eq_add_one_of_ne_zero (Nat.ne_zero_of_lt hfuel)
    have hd := h d List.mem_cons_self
    have hskip : skip ('\n' :: (elementLines (d :: elements) ++ ']' :: rest)) =
        value d ++ ',' :: '\n' :: (elementLines elements ++ ']' :: rest) := by
      have hline : elementLines (d :: elements) ++ ']' :: rest = [' ', ' ', ' ', ' '] ++
          (value d ++ ',' :: '\n' :: (elementLines elements ++ ']' :: rest)) := by
        simp [elementLines]
      rw [hline]
      exact skip_newline ((opening_scalar hd).append _) _ (by simp [isSpace])
    have hrest := ih (fun d hd => h d (List.mem_cons_of_mem _ hd)) (.scalar d :: seen)
      (Nat.lt_of_succ_lt_succ hfuel)
    rw [hskip, elements?_cons hd (by decide), if_pos rfl, hrest]
    simp

theorem length_le_elementLines (elements : List Data) :
    elements.length ≤ (elementLines elements).length := by
  induction elements with
  | nil => exact Nat.le_refl 0
  | cons d elements ih =>
    simp only [elementLines, List.length_cons, List.length_append]
    omega

/-- A plain value reads as itself. -/
theorem value?_plain {d : Data} (h : Plain d) {rest : List Char} (hrest : Closing rest)
    (depth : Nat) {fuel : Nat} (hfuel : (value d).length + 1 < fuel) :
    value? fuel (depth + 1) (value d ++ rest) = some (plainNode d, rest) := by
  obtain ⟨fuel, rfl⟩ := Nat.exists_eq_add_one_of_ne_zero (Nat.ne_zero_of_lt hfuel)
  cases h with
  | scalar hd =>
    have hnode : plainNode d = .scalar d := by cases hd <;> rfl
    rw [hnode]
    exact value?_scalar hd hrest fuel (depth + 1)
  | @list elements hscalar =>
    by_cases hlines : 2 ≤ elements.length
    · have htext : value (.list elements) ++ rest =
          '[' :: '\n' :: (elementLines elements ++ ']' :: rest) := by
        simp [value, hlines]
      have hlength := length_le_elementLines elements
      have hshort : elements.length + 1 < fuel := by
        simp [value, hlines] at hfuel
        omega
      obtain ⟨fuel, rfl⟩ := Nat.exists_eq_add_one_of_ne_zero (Nat.ne_zero_of_lt hshort)
      rw [htext]
      simp only [value?]
      rw [elements?_lines hscalar rest depth [] (by omega)]
      rfl
    · have htext : value (.list elements) ++ rest =
          '[' :: (elementsInline elements ++ ']' :: rest) := by
        simp [value, hlines]
      have hshort : 1 < fuel := by
        simp [value, hlines] at hfuel
        omega
      obtain ⟨fuel, rfl⟩ : ∃ more, fuel = more + 2 := ⟨fuel - 2, by omega⟩
      rw [htext]
      simp only [value?]
      match elements, hscalar, hlines with
      | [], _, _ =>
        have hskip : skip (elementsInline [] ++ ']' :: rest) = ']' :: rest :=
          skip_opening ⟨']', rest, by simp [elementsInline], by decide⟩
        rw [hskip]
        simp [elements?, plainNode]
      | [d], hscalar, _ =>
        have hd := hscalar d List.mem_cons_self
        have hskip : skip (elementsInline [d] ++ ']' :: rest) = value d ++ ']' :: rest := by
          simp only [elementsInline, List.append_nil]
          exact skip_opening ((opening_scalar hd).append _)
        rw [hskip, elements?_cons hd (by decide), if_neg (by decide)]
        rfl
      | _ :: _ :: _, _, hlines => exact absurd (by simp) hlines

end Toml

end RpcPool

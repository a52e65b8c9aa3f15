import RpcPool.Json.Parser
import RpcPool.Proofs.Values

/-!
# JSON text and back

The text of a value is read as that value, whatever its strings hold, and stands on one line. Doubles
are left out: what they are written as is not exact.

Results:
1. `readString_quote`, `readNumber_numeral`: the tokens.
2. `Exact.readBack`: a value in front of other text.
3. `parse_render`, `newline_not_mem_render`: a value as a text of its own.
-/

namespace RpcPool

namespace Json

/-! ## Bytes of texts -/

/-- The UTF-8 of characters. -/
def utf8 (cs : List Char) : List UInt8 := cs.flatMap String.utf8EncodeChar

theorem utf8_append (as bs : List Char) : utf8 (as ++ bs) = utf8 as ++ utf8 bs :=
  List.flatMap_append

theorem utf8_cons (c : Char) (cs : List Char) : utf8 (c :: cs) = utf8 [c] ++ utf8 cs :=
  utf8_append [c] cs

theorem toList_loop (b : ByteArray) (i : Nat) (seen : List UInt8) :
    ByteArray.toList.loop b i seen = seen.reverse ++ b.data.toList.drop i := by
  induction h : b.size - i generalizing i seen with
  | zero =>
    have hi : ¬ i < b.size := by omega
    have hdrop : b.data.toList.drop i = [] :=
      List.drop_eq_nil_of_le (by simpa using Nat.le_of_not_lt hi)
    rw [ByteArray.toList.loop, if_neg hi, hdrop, List.append_nil]
  | succ n ih =>
    have hi : i < b.size := by omega
    have hlength : i < b.data.toList.length := by simpa using hi
    have hget : b.get! i = b.data.toList[i] := by simp [ByteArray.get!, hi]
    have hdrop : b.data.toList.drop i = b.data.toList[i] :: b.data.toList.drop (i + 1) :=
      List.drop_eq_getElem_cons hlength
    rw [ByteArray.toList.loop, if_pos hi, ih (i + 1) _ (by omega), hget, hdrop,
      List.reverse_cons, List.append_assoc, List.singleton_append]

theorem toList_eq_data (b : ByteArray) : b.toList = b.data.toList := toList_loop b 0 []

theorem toUTF8_toList (s : String) : s.toUTF8.toList = utf8 s.toList := by
  have h : (String.ofList s.toList).toByteArray = s.toList.utf8Encode := String.toByteArray_ofList
  rw [String.ofList_toList] at h
  rw [toList_eq_data, String.toUTF8, h, List.utf8Encode, List.data_toByteArray]
  rfl

theorem fromUTF8?_utf8 (s : String) : String.fromUTF8? ⟨(utf8 s.toList).toArray⟩ = some s := by
  have hbytes : (⟨(utf8 s.toList).toArray⟩ : ByteArray) = s.toByteArray := by
    rw [← toUTF8_toList, toList_eq_data]
    rfl
  rw [hbytes, String.fromUTF8?, dif_pos s.isValidUTF8]
  rfl

theorem utf8_ascii {c : Char} (h : c.toNat < 128) : utf8 [c] = [UInt8.ofNat c.toNat] := by
  have hle : c.val.toNat ≤ 127 := Nat.le_of_lt_succ h
  simp only [utf8, List.flatMap_cons, List.flatMap_nil, List.append_nil, String.utf8EncodeChar,
    if_pos hle]
  rfl

theorem utf8_cons_ascii {c : Char} (h : c.toNat < 128) (cs : List Char) :
    utf8 (c :: cs) = UInt8.ofNat c.toNat :: utf8 cs := by
  rw [utf8_cons, utf8_ascii h, List.singleton_append]

theorem utf8_map {cs : List Char} (h : ∀ c ∈ cs, c.toNat < 128) :
    utf8 cs = cs.map fun c => UInt8.ofNat c.toNat := by
  induction cs with
  | nil => rfl
  | cons c cs ih =>
    rw [utf8_cons_ascii (h c List.mem_cons_self), ih fun x hx => h x (List.mem_cons_of_mem c hx),
      List.map_cons]

/-- The bytes of a character outside of ASCII are outside of ASCII. -/
theorem le_of_mem_utf8 {c : Char} (h : 128 ≤ c.toNat) {b : UInt8} (hb : b ∈ utf8 [c]) :
    128 ≤ b.toNat := by
  have hle : ¬ c.val.toNat ≤ 127 := Nat.not_le_of_lt h
  have hlead (n low : Nat) (hn : low + n < 256) (hlow : 128 ≤ low) (m : Nat) (hm : m < n + 1) :
      128 ≤ (UInt8.ofNat (m + low)).toNat := by
    rw [UInt8.toNat_ofNat']
    omega
  simp only [utf8, List.flatMap_cons, List.flatMap_nil, List.append_nil, String.utf8EncodeChar,
    if_neg hle] at hb
  split at hb
  · simp only [List.mem_cons, List.not_mem_nil, or_false] at hb
    rcases hb with rfl | rfl
    · exact hlead 31 192 (by omega) (by omega) _ (Nat.mod_lt _ (by omega))
    · exact hlead 63 128 (by omega) (by omega) _ (Nat.mod_lt _ (by omega))
  split at hb
  · simp only [List.mem_cons, List.not_mem_nil, or_false] at hb
    rcases hb with rfl | rfl | rfl
    · exact hlead 15 224 (by omega) (by omega) _ (Nat.mod_lt _ (by omega))
    · exact hlead 63 128 (by omega) (by omega) _ (Nat.mod_lt _ (by omega))
    · exact hlead 63 128 (by omega) (by omega) _ (Nat.mod_lt _ (by omega))
  · simp only [List.mem_cons, List.not_mem_nil, or_false] at hb
    rcases hb with rfl | rfl | rfl | rfl
    · exact hlead 7 240 (by omega) (by omega) _ (Nat.mod_lt _ (by omega))
    · exact hlead 63 128 (by omega) (by omega) _ (Nat.mod_lt _ (by omega))
    · exact hlead 63 128 (by omega) (by omega) _ (Nat.mod_lt _ (by omega))
    · exact hlead 63 128 (by omega) (by omega) _ (Nat.mod_lt _ (by omega))

/-- A byte of ASCII stands for the character with its number only. -/
theorem byte_mem_utf8 {c : Char} {b : UInt8} (hb : b ∈ utf8 [c]) (h : b.toNat < 128) :
    c.toNat = b.toNat := by
  by_cases hc : c.toNat < 128
  · rw [utf8_ascii hc, List.mem_singleton] at hb
    rw [hb, UInt8.toNat_ofNat']
    omega
  · have := le_of_mem_utf8 (Nat.le_of_not_lt hc) hb
    omega

theorem char_mem_of_byte_mem {cs : List Char} {b : UInt8} (hb : b ∈ utf8 cs) (h : b.toNat < 128) :
    Char.ofNat b.toNat ∈ cs := by
  obtain ⟨c, hc, hbc⟩ := List.mem_flatMap.mp hb
  have heq : c.toNat = b.toNat := byte_mem_utf8 (by simpa [utf8] using hbc) h
  rw [← heq, Char.ofNat_toNat]
  exact hc

/-! ## Strings -/

theorem next?_cons (b : UInt8) (rest : List UInt8) (p : Position) :
    Cursor.next? ⟨b :: rest, p⟩ = some (b, ⟨rest, Cursor.advance p b⟩) := rfl

theorem hexValue?_hexDigit :
    ∀ n < 16, (hexDigit n).toNat < 128 ∧ hexValue? (UInt8.ofNat (hexDigit n).toNat) = some n := by
  decide

/-- The escape of a control character by its number. -/
theorem readEscape_number {c : Char} (h : c.toNat < 32) (rest : List UInt8) (p : Position) :
    ∃ q, readEscape
      ⟨utf8 ['u', '0', '0', hexDigit (c.toNat / 16), hexDigit (c.toNat % 16)] ++ rest, p⟩ =
        .ok (utf8 [c], ⟨rest, q⟩) := by
  obtain ⟨hhigh, hhigh'⟩ := hexValue?_hexDigit (c.toNat / 16) (by omega)
  obtain ⟨hlow, hlow'⟩ := hexValue?_hexDigit (c.toNat % 16) (by omega)
  have hbytes : utf8 ['u', '0', '0', hexDigit (c.toNat / 16), hexDigit (c.toNat % 16)] =
      [117, 48, 48, UInt8.ofNat (hexDigit (c.toNat / 16)).toNat,
        UInt8.ofNat (hexDigit (c.toNat % 16)).toNat] := by
    refine utf8_map fun x hx => ?_
    simp only [List.mem_cons, List.not_mem_nil, or_false] at hx
    rcases hx with rfl | rfl | rfl | rfl | rfl
    · decide
    · decide
    · decide
    · exact hhigh
    · exact hlow
  have hchar : charBytes c.toNat = utf8 [c] := by
    rw [charBytes, Char.ofNat_toNat, toUTF8_toList, String.toList_singleton]
  have hzero : hexValue? 48 = some 0 := by decide
  have hsum : ((0 * 16 + 0) * 16 + c.toNat / 16) * 16 + c.toNat % 16 = c.toNat := by omega
  have hhex (q : Position) : ∃ q', readHex ⟨48 :: 48 ::
      UInt8.ofNat (hexDigit (c.toNat / 16)).toNat :: UInt8.ofNat (hexDigit (c.toNat % 16)).toNat ::
        rest, q⟩ = .ok (c.toNat, ⟨rest, q'⟩) := by
    simp only [readHex, hzero, hhigh', hlow', hsum]
    exact ⟨_, rfl⟩
  obtain ⟨q, hq⟩ := hhex (Cursor.advance p 117)
  refine ⟨q, ?_⟩
  have hunit : ¬ (56320 ≤ c.toNat ∧ c.toNat ≤ 57343) ∧ (c.toNat < 55296 ∨ 56319 < c.toNat) := by
    omega
  rw [hbytes]
  simp [readEscape, next?_cons, readUnicodeEscape, hq, hunit, hchar, bind, Except.bind, pure,
    Except.pure]

/-- A character stands in a string as it is, or as an escape. -/
theorem escapeChar_cases (c : Char) :
    (escapeChar c = [c] ∧ 32 ≤ c.toNat ∧ c ≠ '"' ∧ c ≠ '\\') ∨
      ∃ x, escapeChar c = '\\' :: x ∧
        ∀ rest p, ∃ q, readEscape ⟨utf8 x ++ rest, p⟩ = .ok (utf8 [c], ⟨rest, q⟩) := by
  by_cases h1 : c = '"'
  · subst h1
    exact Or.inr ⟨['"'], rfl, fun _ _ => ⟨_, rfl⟩⟩
  by_cases h2 : c = '\\'
  · subst h2
    exact Or.inr ⟨['\\'], rfl, fun _ _ => ⟨_, rfl⟩⟩
  by_cases h3 : c = '\x08'
  · subst h3
    exact Or.inr ⟨['b'], rfl, fun _ _ => ⟨_, rfl⟩⟩
  by_cases h4 : c = '\x0c'
  · subst h4
    exact Or.inr ⟨['f'], rfl, fun _ _ => ⟨_, rfl⟩⟩
  by_cases h5 : c = '\n'
  · subst h5
    exact Or.inr ⟨['n'], rfl, fun _ _ => ⟨_, rfl⟩⟩
  by_cases h6 : c = '\r'
  · subst h6
    exact Or.inr ⟨['r'], rfl, fun _ _ => ⟨_, rfl⟩⟩
  by_cases h7 : c = '\t'
  · subst h7
    exact Or.inr ⟨['t'], rfl, fun _ _ => ⟨_, rfl⟩⟩
  by_cases h8 : c.toNat < 32
  · exact Or.inr ⟨_, by simp [escapeChar, h1, h2, h3, h4, h5, h6, h7, h8], readEscape_number h8⟩
  · exact Or.inl ⟨by simp [escapeChar, h1, h2, h3, h4, h5, h6, h7, h8], Nat.le_of_not_lt h8, h1, h2⟩

/-- Bytes that mean nothing inside of a string are taken one by one. -/
theorem readStringBytes_plain {bytes : List UInt8} (h : ∀ b ∈ bytes, b ≠ 34 ∧ b ≠ 92 ∧ ¬ b < 32)
    (fuel : Nat) (rest : List UInt8) (p : Position) (seen : List UInt8) :
    ∃ q, readStringBytes (fuel + bytes.length) ⟨bytes ++ rest, p⟩ seen =
      readStringBytes fuel ⟨rest, q⟩ (bytes.reverse ++ seen) := by
  induction bytes generalizing p seen with
  | nil => exact ⟨p, rfl⟩
  | cons b bytes ih =>
    obtain ⟨hquote, hslash, hcontrol⟩ := h b List.mem_cons_self
    obtain ⟨q, hq⟩ := ih (fun x hx => h x (List.mem_cons_of_mem b hx)) (Cursor.advance p b) (b :: seen)
    refine ⟨q, ?_⟩
    rw [List.cons_append, List.length_cons, ← Nat.add_assoc, readStringBytes, next?_cons]
    simp only [hquote, hslash, hcontrol, if_false]
    rw [hq, List.reverse_cons, List.append_assoc, List.singleton_append]

theorem plain_byte {c : Char} (hlow : 32 ≤ c.toNat) (hquote : c ≠ '"') (hslash : c ≠ '\\')
    {b : UInt8} (hb : b ∈ utf8 [c]) : b ≠ 34 ∧ b ≠ 92 ∧ ¬ b < 32 := by
  have hchar (n : Nat) (hn : n < 128) (h : b.toNat = n) : c = Char.ofNat n := by
    rw [← h, ← byte_mem_utf8 hb (by omega), Char.ofNat_toNat]
  refine ⟨fun h => hquote (hchar 34 (by omega) (by rw [h]; rfl)),
    fun h => hslash (hchar 92 (by omega) (by rw [h]; rfl)), fun h => ?_⟩
  have hlt : b.toNat < 32 := UInt8.lt_iff_toNat_lt.mp h
  have := byte_mem_utf8 hb (by omega)
  omega

/-- One character of a string is read. -/
theorem readStringBytes_char (c : Char) {fuel : Nat} {rest : List UInt8}
    (hfuel : (utf8 (escapeChar c) ++ rest).length < fuel) (p : Position) (seen : List UInt8) :
    ∃ less q, rest.length < less ∧ readStringBytes fuel ⟨utf8 (escapeChar c) ++ rest, p⟩ seen =
      readStringBytes less ⟨rest, q⟩ ((utf8 [c]).reverse ++ seen) := by
  rw [List.length_append] at hfuel
  rcases escapeChar_cases c with ⟨heq, hlow, hquote, hslash⟩ | ⟨x, heq, hread⟩
  · rw [heq] at hfuel ⊢
    obtain ⟨less, rfl⟩ : ∃ less, fuel = less + (utf8 [c]).length :=
      ⟨fuel - (utf8 [c]).length, by omega⟩
    obtain ⟨q, hq⟩ := readStringBytes_plain (fun b hb => plain_byte hlow hquote hslash hb) less rest
      p seen
    exact ⟨less, q, by omega, hq⟩
  · have hbytes : utf8 ('\\' :: x) = 92 :: utf8 x := utf8_cons '\\' x
    rw [heq, hbytes] at hfuel ⊢
    obtain ⟨less, rfl⟩ : ∃ less, fuel = less + 1 := ⟨fuel - 1, by omega⟩
    obtain ⟨q, hq⟩ := hread rest (Cursor.advance p 92)
    refine ⟨less, q, by simp only [List.length_cons] at hfuel; omega, ?_⟩
    rw [List.cons_append, readStringBytes, next?_cons]
    simp [hq]

theorem readStringBytes_escaped (cs : List Char) {fuel : Nat} {rest : List UInt8}
    (hfuel : (utf8 (cs.flatMap escapeChar) ++ 34 :: rest).length < fuel) (p : Position)
    (seen : List UInt8) :
    ∃ q, readStringBytes fuel ⟨utf8 (cs.flatMap escapeChar) ++ 34 :: rest, p⟩ seen =
      .ok (seen.reverse ++ utf8 cs, ⟨rest, q⟩) := by
  induction cs generalizing fuel p seen with
  | nil =>
    obtain ⟨less, rfl⟩ : ∃ less, fuel = less + 1 := ⟨fuel - 1, by omega⟩
    refine ⟨Cursor.advance p 34, ?_⟩
    simp [utf8, readStringBytes, next?_cons]
  | cons c cs ih =>
    have hbytes : utf8 ((c :: cs).flatMap escapeChar) ++ 34 :: rest =
        utf8 (escapeChar c) ++ (utf8 (cs.flatMap escapeChar) ++ 34 :: rest) := by
      rw [List.flatMap_cons, utf8_append, List.append_assoc]
    rw [hbytes] at hfuel ⊢
    obtain ⟨less, q, hless, hchar⟩ := readStringBytes_char c hfuel p seen
    obtain ⟨q', hrest⟩ := ih hless q ((utf8 [c]).reverse ++ seen)
    refine ⟨q', ?_⟩
    rw [hchar, hrest, List.reverse_append, List.reverse_reverse, List.append_assoc, ← utf8_cons]

theorem utf8_quote (s : String) :
    utf8 (quote s) = 34 :: (utf8 (s.toList.flatMap escapeChar) ++ [34]) := by
  rw [quote, utf8_append, utf8_cons]
  rfl

/-- A quoted string is read back, after its opening quote. -/
theorem readString_quote (s : String) (rest : List UInt8) (p : Position) :
    ∃ q, readString (Cursor.skip ⟨utf8 (quote s) ++ rest, p⟩) = .ok (s, ⟨rest, q⟩) := by
  have hbytes : utf8 (quote s) ++ rest =
      34 :: (utf8 (s.toList.flatMap escapeChar) ++ 34 :: rest) := by
    rw [utf8_quote, List.cons_append, List.append_assoc, List.singleton_append]
  have hfuel : (utf8 (s.toList.flatMap escapeChar) ++ 34 :: rest).length <
      (utf8 (s.toList.flatMap escapeChar) ++ 34 :: rest).length + 1 := Nat.lt_add_one _
  obtain ⟨q, hq⟩ := readStringBytes_escaped s.toList hfuel (Cursor.advance p 34) []
  refine ⟨q, ?_⟩
  rw [hbytes]
  simp only [readString, Cursor.skip, hq, List.reverse_nil, List.nil_append, fromUTF8?_utf8, bind,
    Except.bind, pure, Except.pure]

/-! ## Numbers -/

/-- What may follow a whole number. -/
def Follows (rest : List UInt8) : Prop :=
  ∀ b ∈ rest.head?, digit? b = none ∧ b ≠ 46 ∧ b ≠ 101 ∧ b ≠ 69

theorem digitNext?_follows {rest : List UInt8} (h : Follows rest) (p : Position) :
    digitNext? ⟨rest, p⟩ = none := by
  cases rest with
  | nil => rfl
  | cons b rest => exact (h b rfl).1

theorem numberEnd_follows {rest : List UInt8} (h : Follows rest) (p : Position) (negative : Bool)
    (n : Nat) :
    numberEnd ⟨rest, p⟩ negative n = .ok (wholeNumber negative n, ⟨rest, p⟩) := by
  cases rest with
  | nil => rfl
  | cons b rest =>
    obtain ⟨-, hpoint, he, hE⟩ := h b rfl
    simp [numberEnd, Cursor.peek?, hpoint, he, hE]

theorem digit?_digit {c : Char} (h : c ∈ Toml.digits) :
    c.toNat < 128 ∧ digit? (UInt8.ofNat c.toNat) = some (c.toNat - '0'.toNat) := by
  have hall : Toml.digits.all (fun c =>
      decide (c.toNat < 128 ∧ digit? (UInt8.ofNat c.toNat) = some (c.toNat - '0'.toNat))) = true := by
    decide
  exact of_decide_eq_true (List.all_eq_true.mp hall c h)

theorem eq_zero_digit {c : Char} (h : c ∈ Toml.digits) (hzero : c.toNat - '0'.toNat = 0) :
    c = '0' := by
  have hall : Toml.digits.all (fun c => decide (c.toNat - '0'.toNat = 0 → c = '0')) = true := by
    decide
  exact of_decide_eq_true (List.all_eq_true.mp hall c h) hzero

theorem le_ofDigitChars (cs : List Char) (n : Nat) : n ≤ Nat.ofDigitChars 10 cs n := by
  induction cs generalizing n with
  | nil => exact Nat.le_refl n
  | cons c cs ih =>
    have := ih (10 * n + (c.toNat - '0'.toNat))
    simp only [Nat.ofDigitChars, List.foldl_cons] at this ⊢
    omega

theorem takeDigits_digits {cs : List Char} (h : ∀ c ∈ cs, c ∈ Toml.digits) {rest : List UInt8}
    (hrest : Follows rest) {n : Nat} (hn : Nat.ofDigitChars 10 cs n < Nat.pow 2 64) {fuel : Nat}
    (hfuel : cs.length ≤ fuel) (p : Position) (count : Nat) :
    ∃ q, takeDigits fuel ⟨utf8 cs ++ rest, p⟩ n count =
      ((Nat.ofDigitChars 10 cs n, count + cs.length, false), ⟨rest, q⟩) := by
  induction cs generalizing n fuel p count with
  | nil =>
    refine ⟨p, ?_⟩
    cases fuel with
    | zero => rfl
    | succ fuel =>
      rw [takeDigits]
      simp [utf8, digitNext?_follows hrest, Nat.ofDigitChars]
  | cons c cs ih =>
    obtain ⟨hascii, hdigit⟩ := digit?_digit (h c List.mem_cons_self)
    obtain ⟨less, rfl⟩ : ∃ less, fuel = less + 1 := ⟨fuel - 1, by simp at hfuel; omega⟩
    have hstep : Nat.ofDigitChars 10 (c :: cs) n =
        Nat.ofDigitChars 10 cs (n * 10 + (c.toNat - '0'.toNat)) := by
      rw [Nat.mul_comm n]
      rfl
    rw [hstep] at hn ⊢
    have hgrow : growSignificand? n (c.toNat - '0'.toNat) =
        some (n * 10 + (c.toNat - '0'.toNat)) :=
      if_pos (Nat.lt_of_le_of_lt (le_ofDigitChars cs _) hn)
    obtain ⟨q, hq⟩ := ih (fun x hx => h x (List.mem_cons_of_mem c hx)) hn
      (Nat.le_of_succ_le_succ hfuel) (Cursor.advance p (UInt8.ofNat c.toNat)) (count + 1)
    refine ⟨q, ?_⟩
    rw [utf8_cons_ascii hascii, List.length_cons, Nat.add_comm cs.length, ← Nat.add_assoc, ← hq]
    simp only [takeDigits, List.cons_append, digitNext?, Cursor.peek?, List.head?_cons,
      Option.bind_some, hdigit, hgrow, Cursor.skip]

/-- A numeral is read back, after its sign. -/
theorem readNumber_numeral {n : Nat} (hn : n < Nat.pow 2 64) {rest : List UInt8}
    (hrest : Follows rest) (p : Position) (negative : Bool) :
    ∃ q, readNumber ⟨utf8 (numeral n) ++ rest, p⟩ negative =
      .ok (wholeNumber negative n, ⟨rest, q⟩) := by
  have hall : ∀ c ∈ numeral n, c ∈ Toml.digits := fun c hc => Toml.digit_of_mem hc
  have hvalue : Nat.ofDigitChars 10 (numeral n) 0 = n := Nat.ofDigitChars_ten_toDigits
  by_cases hzero : n = 0
  · subst hzero
    refine ⟨Cursor.advance p 48, ?_⟩
    have hbytes : utf8 (numeral 0) = [48] := by decide
    have hdigit : digit? 48 = some 0 := by decide
    rw [hbytes, List.singleton_append, readNumber, next?_cons]
    simp only [hdigit, digitNext?_follows hrest, Option.isSome_none, Bool.false_eq_true, if_false,
      numberEnd_follows hrest]
  · obtain ⟨c, cs, hcons⟩ := List.exists_cons_of_ne_nil (Nat.toDigits_ne_nil (n := n) (b := 10))
    have hnumeral : numeral n = c :: cs := hcons
    rw [hnumeral] at hall hvalue
    obtain ⟨hascii, hdigit⟩ := digit?_digit (hall c List.mem_cons_self)
    have hvalue' : Nat.ofDigitChars 10 cs (c.toNat - '0'.toNat) = n := by
      simpa [Nat.ofDigitChars] using hvalue
    obtain ⟨d, hd⟩ : ∃ d, c.toNat - '0'.toNat = d + 1 :=
      Nat.exists_eq_succ_of_ne_zero fun h => Toml.toDigits_head hzero cs (by
        rw [hcons, eq_zero_digit (hall c List.mem_cons_self) h])
    rw [hd] at hdigit hvalue'
    have hfuel : cs.length ≤ (utf8 cs ++ rest).length := by
      rw [utf8_map fun x hx => (digit?_digit (hall x (List.mem_cons_of_mem c hx))).1]
      simp
    obtain ⟨q, hq⟩ := takeDigits_digits (fun x hx => hall x (List.mem_cons_of_mem c hx)) hrest
      (hvalue'.symm ▸ hn) hfuel (Cursor.advance p (UInt8.ofNat c.toNat)) 0
    refine ⟨q, ?_⟩
    rw [hnumeral, utf8_cons_ascii hascii, List.cons_append, readNumber, next?_cons]
    simp only [hdigit, hq, hvalue', Bool.false_eq_true, if_false, numberEnd_follows hrest]

/-! ## Values -/

/-- Values without doubles, nested up to a depth. -/
inductive Exact : Nat → Json → Prop
  | null {depth : Nat} : Exact depth .null
  | bool {depth : Nat} (b : Bool) : Exact depth (.bool b)
  | natural {depth : Nat} (n : UInt64) : Exact depth (.natural n)
  | negative {depth n : Nat} (h : n < Nat.pow 2 63) : Exact depth (.negative n)
  | string {depth : Nat} (s : String) : Exact depth (.string s)
  | array {depth : Nat} {elements : List Json} (h : ∀ v ∈ elements, Exact depth v) :
      Exact (depth + 1) (.array elements)
  | object {depth : Nat} {members : List (String × Json)} (h : ∀ m ∈ members, Exact depth m.2) :
      Exact (depth + 1) (.object members)

/-- A value is read from its text, whatever comes after it. -/
structure ReadBack (depth : Nat) (v : Json) : Prop where
  opens : ∃ b more, utf8 v.print = b :: more ∧ Cursor.isBlank b = false ∧ b ≠ 93
  reads : ∀ {fuel : Nat} {rest : List UInt8}, 2 * (utf8 v.print).length ≤ fuel → Follows rest →
    ∀ p, ∃ q, readValue fuel depth ⟨utf8 v.print ++ rest, p⟩ = .ok (v, ⟨rest, q⟩)

theorem skipBlanks_cons {b : UInt8} (h : Cursor.isBlank b = false) (rest : List UInt8)
    (p : Position) : Cursor.skipBlanks ⟨b :: rest, p⟩ = ⟨b :: rest, p⟩ := by
  simp [Cursor.skipBlanks, Cursor.skipBlanks.go, h]

/-- What comes after an element or a member: the next one or a bracket. -/
theorem follows_cons {b : UInt8} (h : b = 44 ∨ b = 93 ∨ b = 125) (rest : List UInt8) :
    Follows (b :: rest) := by
  intro x hx
  cases hx
  rcases h with rfl | rfl | rfl <;> decide

/-- The text of the elements that follow the first. -/
def printMoreElements (elements : List Json) : List Char := elements.flatMap fun v => ',' :: v.print

theorem printElements_cons (v : Json) (rest : List Json) :
    printElements (v :: rest) = v.print ++ printMoreElements rest := by
  induction rest generalizing v with
  | nil => simp [printElements, printMoreElements]
  | cons w rest ih =>
    rw [printElements, ih w]
    · simp [printMoreElements]
    · simp

/-- The text of the members that follow the first. -/
def printMoreMembers (members : List (String × Json)) : List Char :=
  members.flatMap fun m => ',' :: (quote m.1 ++ ':' :: m.2.print)

theorem printMembers_cons (m : String × Json) (rest : List (String × Json)) :
    printMembers (m :: rest) = quote m.1 ++ ':' :: m.2.print ++ printMoreMembers rest := by
  induction rest generalizing m with
  | nil => simp [printMembers, printMoreMembers]
  | cons w rest ih =>
    rw [printMembers, ih w]
    · simp [printMoreMembers]
    · simp

/-! ### Arrays -/

theorem readElements_step {depth fuel : Nat} {v : Json} (h : ReadBack depth v) {rest : List UInt8}
    (hfuel : 2 * (utf8 v.print).length ≤ fuel) (hrest : Follows rest) {c : Cursor}
    {seen : List Json} {p : Position}
    (hnext : nextElement c seen.isEmpty = .ok (true, ⟨utf8 v.print ++ rest, p⟩)) :
    ∃ q, readElements (fuel + 1) depth c seen = readElements fuel depth ⟨rest, q⟩ (v :: seen) := by
  obtain ⟨q, hq⟩ := h.reads hfuel hrest p
  exact ⟨q, by rw [readElements]; simp only [hnext, hq]⟩

/-- The text of the elements that are still to come. -/
def printTail (first : Bool) (elements : List Json) : List Char :=
  if first then printElements elements else printMoreElements elements

/-- A comma stands in front of every element but the first. -/
theorem utf8_printTail (first : Bool) (v : Json) (elements : List Json) (rest : List UInt8) :
    utf8 (printTail first (v :: elements)) ++ rest =
      (if first then [] else [44]) ++ (utf8 v.print ++ (utf8 (printTail false elements) ++ rest)) := by
  cases first with
  | true =>
    show utf8 (printElements (v :: elements)) ++ rest = _
    rw [printElements_cons, utf8_append, List.append_assoc]
    rfl
  | false =>
    show utf8 (printMoreElements (v :: elements)) ++ rest = _
    rw [printMoreElements, List.flatMap_cons, List.cons_append, utf8_cons_ascii (by decide),
      utf8_append, List.cons_append, List.append_assoc]
    rfl

theorem length_printTail (first : Bool) (v : Json) (elements : List Json) :
    (utf8 v.print).length + (utf8 (printTail false elements)).length ≤
      (utf8 (printTail first (v :: elements))).length := by
  have h := congrArg List.length (utf8_printTail first v elements [])
  simp only [List.length_append, List.append_nil] at h
  omega

theorem follows_printTail (elements : List Json) (rest : List UInt8) :
    Follows (utf8 (printTail false elements) ++ 93 :: rest) := by
  cases elements with
  | nil => exact follows_cons (Or.inr (Or.inl rfl)) rest
  | cons v elements =>
    rw [utf8_printTail]
    exact follows_cons (Or.inl rfl) _

theorem nextElement_end (first : Bool) (rest : List UInt8) (p : Position) :
    nextElement ⟨utf8 (printTail first []) ++ 93 :: rest, p⟩ first =
      .ok (false, ⟨93 :: rest, p⟩) := by
  have hblank : Cursor.isBlank 93 = false := by decide
  have hbytes : utf8 (printTail first []) = [] := by cases first <;> rfl
  rw [hbytes]
  simp [nextElement, skipBlanks_cons hblank, Cursor.peek?]

theorem nextElement_element {depth : Nat} {v : Json} (h : ReadBack depth v) (first : Bool)
    (elements : List Json) (rest : List UInt8) (p : Position) :
    ∃ q, nextElement ⟨utf8 (printTail first (v :: elements)) ++ rest, p⟩ first =
      .ok (true, ⟨utf8 v.print ++ (utf8 (printTail false elements) ++ rest), q⟩) := by
  obtain ⟨b, more, hopens, hblank, hb⟩ := h.opens
  have hcomma : Cursor.isBlank 44 = false := by decide
  rw [utf8_printTail, hopens]
  cases first with
  | true => exact ⟨p, by simp [nextElement, skipBlanks_cons hblank, Cursor.peek?]⟩
  | false =>
    refine ⟨Cursor.advance p 44, ?_⟩
    simp [nextElement, skipBlanks_cons hcomma, skipBlanks_cons hblank, Cursor.peek?, Cursor.skip]

theorem readElements_all {depth : Nat} {elements : List Json}
    (h : ∀ v ∈ elements, ReadBack depth v) (seen : List Json) {fuel : Nat}
    (hfuel : 2 * ((utf8 (printTail seen.isEmpty elements)).length + 1) ≤ fuel) (rest : List UInt8)
    (p : Position) :
    ∃ q, readElements fuel depth ⟨utf8 (printTail seen.isEmpty elements) ++ 93 :: rest, p⟩ seen =
      .ok (.array (seen.reverse ++ elements), ⟨rest, q⟩) := by
  induction elements generalizing seen fuel p with
  | nil =>
    obtain ⟨less, rfl⟩ : ∃ less, fuel = less + 1 := ⟨fuel - 1, by omega⟩
    refine ⟨Cursor.advance p 93, ?_⟩
    rw [readElements, nextElement_end]
    simp [Cursor.skip]
  | cons v elements ih =>
    have hv := h v List.mem_cons_self
    have hpos : (utf8 v.print).length ≠ 0 := by
      obtain ⟨b, more, hopens, _⟩ := hv.opens
      simp [hopens]
    have hlength := length_printTail seen.isEmpty v elements
    obtain ⟨less, rfl⟩ : ∃ less, fuel = less + 1 := ⟨fuel - 1, by omega⟩
    obtain ⟨q, hnext⟩ := nextElement_element hv seen.isEmpty elements (93 :: rest) p
    have hvalue : 2 * (utf8 v.print).length ≤ less := by omega
    obtain ⟨q₁, hstep⟩ := readElements_step hv hvalue (follows_printTail elements rest) hnext
    have hmore : 2 * ((utf8 (printTail (v :: seen).isEmpty elements)).length + 1) ≤ less := by
      show 2 * ((utf8 (printTail false elements)).length + 1) ≤ less
      omega
    obtain ⟨q₂, hrest⟩ := ih (fun w hw => h w (List.mem_cons_of_mem v hw)) (v :: seen) hmore q₁
    refine ⟨q₂, ?_⟩
    rw [hstep]
    simpa using hrest

theorem readBack_array {depth : Nat} {elements : List Json}
    (h : ∀ v ∈ elements, ReadBack depth v) : ReadBack (depth + 1) (.array elements) := by
  have hbytes : utf8 (print (.array elements)) = 91 :: (utf8 (printElements elements) ++ [93]) := by
    rw [print, List.cons_append, utf8_cons_ascii (by decide), utf8_append]
    rfl
  refine ⟨⟨91, _, hbytes, by decide, by decide⟩, fun {fuel rest} hfuel _ p => ?_⟩
  rw [hbytes, List.length_cons, List.length_append, List.length_singleton] at hfuel
  obtain ⟨less, rfl⟩ : ∃ less, fuel = less + 1 := ⟨fuel - 1, by omega⟩
  have hless : 2 * ((utf8 (printElements elements)).length + 1) ≤ less := by omega
  obtain ⟨q, hall⟩ := readElements_all h [] hless rest (Cursor.advance p 91)
  have hq : readElements less depth ⟨utf8 (printElements elements) ++ 93 :: rest,
      Cursor.advance p 91⟩ [] = .ok (.array elements, ⟨rest, q⟩) := hall
  refine ⟨q, ?_⟩
  have hopen : Cursor.isBlank 91 = false := by decide
  have hdigit : digit? 91 = none := by decide
  rw [hbytes, ← hq, readValue]
  simp [skipBlanks_cons hopen, Cursor.peek?, Cursor.skip, hdigit]

/-! ### Objects -/

/-- The text of the members that are still to come. -/
def printRest (first : Bool) (members : List (String × Json)) : List Char :=
  if first then printMembers members else printMoreMembers members

theorem utf8_member (m : String × Json) (rest : List UInt8) :
    utf8 (quote m.1 ++ ':' :: m.2.print) ++ rest =
      utf8 (quote m.1) ++ 58 :: (utf8 m.2.print ++ rest) := by
  rw [utf8_append, utf8_cons_ascii (by decide), List.append_assoc]
  rfl

/-- A comma stands in front of every member but the first. -/
theorem utf8_printRest (first : Bool) (m : String × Json) (members : List (String × Json))
    (rest : List UInt8) :
    utf8 (printRest first (m :: members)) ++ rest =
      (if first then [] else [44]) ++ (utf8 (quote m.1) ++
        58 :: (utf8 m.2.print ++ (utf8 (printRest false members) ++ rest))) := by
  cases first with
  | true =>
    show utf8 (printMembers (m :: members)) ++ rest = _
    rw [printMembers_cons, utf8_append, List.append_assoc, utf8_member]
    rfl
  | false =>
    show utf8 (printMoreMembers (m :: members)) ++ rest = _
    rw [printMoreMembers, List.flatMap_cons, List.cons_append, utf8_cons_ascii (by decide),
      utf8_append, List.cons_append, List.append_assoc, utf8_member]
    rfl

theorem length_printRest (first : Bool) (m : String × Json) (members : List (String × Json)) :
    (utf8 m.2.print).length + (utf8 (printRest false members)).length <
      (utf8 (printRest first (m :: members))).length := by
  have h := congrArg List.length (utf8_printRest first m members [])
  simp only [List.length_append, List.length_cons, List.append_nil] at h
  omega

theorem follows_printRest (members : List (String × Json)) (rest : List UInt8) :
    Follows (utf8 (printRest false members) ++ 125 :: rest) := by
  cases members with
  | nil => exact follows_cons (Or.inr (Or.inr rfl)) rest
  | cons m members =>
    rw [utf8_printRest]
    exact follows_cons (Or.inl rfl) _

theorem nextMember_end (first : Bool) (rest : List UInt8) (p : Position) :
    nextMember ⟨utf8 (printRest first []) ++ 125 :: rest, p⟩ first =
      .ok (false, ⟨125 :: rest, p⟩) := by
  have hblank : Cursor.isBlank 125 = false := by decide
  have hbytes : utf8 (printRest first []) = [] := by cases first <;> rfl
  rw [hbytes]
  simp [nextMember, skipBlanks_cons hblank, Cursor.peek?]

theorem nextMember_member (first : Bool) (m : String × Json) (members : List (String × Json))
    (rest : List UInt8) (p : Position) :
    ∃ q, nextMember ⟨utf8 (printRest first (m :: members)) ++ rest, p⟩ first =
      .ok (true, ⟨utf8 (quote m.1) ++
        58 :: (utf8 m.2.print ++ (utf8 (printRest false members) ++ rest)), q⟩) := by
  have hcomma : Cursor.isBlank 44 = false := by decide
  have hquote : Cursor.isBlank 34 = false := by decide
  rw [utf8_printRest, utf8_quote]
  cases first with
  | true => exact ⟨p, by simp [nextMember, skipBlanks_cons hquote, Cursor.peek?]⟩
  | false =>
    refine ⟨Cursor.advance p 44, ?_⟩
    simp [nextMember, skipBlanks_cons hcomma, skipBlanks_cons hquote, Cursor.peek?, Cursor.skip]

/-- A name is read, and the colon after it. -/
theorem readName_quote (name : String) (rest : List UInt8) (p : Position) :
    ∃ c q, readString (Cursor.skip ⟨utf8 (quote name) ++ 58 :: rest, p⟩) = .ok (name, c) ∧
      readColon c = .ok ⟨rest, q⟩ := by
  obtain ⟨q, hq⟩ := readString_quote name (58 :: rest) p
  have hblank : Cursor.isBlank 58 = false := by decide
  exact ⟨_, Cursor.advance q 58, hq, by
    simp [readColon, skipBlanks_cons hblank, Cursor.peek?, Cursor.skip]⟩

theorem readMembers_step {depth fuel : Nat} {m : String × Json} (h : ReadBack depth m.2)
    {rest : List UInt8} (hfuel : 2 * (utf8 m.2.print).length ≤ fuel) (hrest : Follows rest)
    {c : Cursor} {seen : List (String × Json)} {p : Position}
    (hnext : nextMember c seen.isEmpty =
      .ok (true, ⟨utf8 (quote m.1) ++ 58 :: (utf8 m.2.print ++ rest), p⟩)) :
    ∃ q, readMembers (fuel + 1) depth c seen = readMembers fuel depth ⟨rest, q⟩ (m :: seen) := by
  obtain ⟨after, q, hname, hcolon⟩ := readName_quote m.1 (utf8 m.2.print ++ rest) p
  obtain ⟨q', hq'⟩ := h.reads hfuel hrest q
  exact ⟨q', by rw [readMembers]; simp only [hnext, hname, hcolon, hq']⟩

theorem readMembers_all {depth : Nat} {members : List (String × Json)}
    (h : ∀ m ∈ members, ReadBack depth m.2) (seen : List (String × Json)) {fuel : Nat}
    (hfuel : 2 * ((utf8 (printRest seen.isEmpty members)).length + 1) ≤ fuel) (rest : List UInt8)
    (p : Position) :
    ∃ q, readMembers fuel depth ⟨utf8 (printRest seen.isEmpty members) ++ 125 :: rest, p⟩ seen =
      .ok (.object (seen.reverse ++ members), ⟨rest, q⟩) := by
  induction members generalizing seen fuel p with
  | nil =>
    obtain ⟨less, rfl⟩ : ∃ less, fuel = less + 1 := ⟨fuel - 1, by omega⟩
    refine ⟨Cursor.advance p 125, ?_⟩
    rw [readMembers, nextMember_end]
    simp [Cursor.skip]
  | cons m members ih =>
    have hlength := length_printRest seen.isEmpty m members
    obtain ⟨less, rfl⟩ : ∃ less, fuel = less + 1 := ⟨fuel - 1, by omega⟩
    obtain ⟨q, hnext⟩ := nextMember_member seen.isEmpty m members (125 :: rest) p
    have hvalue : 2 * (utf8 m.2.print).length ≤ less := by omega
    obtain ⟨q₁, hstep⟩ := readMembers_step (h m List.mem_cons_self) hvalue
      (follows_printRest members rest) hnext
    have hmore : 2 * ((utf8 (printRest (m :: seen).isEmpty members)).length + 1) ≤ less := by
      show 2 * ((utf8 (printRest false members)).length + 1) ≤ less
      omega
    obtain ⟨q₂, hrest⟩ := ih (fun w hw => h w (List.mem_cons_of_mem m hw)) (m :: seen) hmore q₁
    refine ⟨q₂, ?_⟩
    rw [hstep]
    simpa using hrest

theorem utf8_object (members : List (String × Json)) :
    utf8 (print (.object members)) = 123 :: (utf8 (printRest true members) ++ [125]) := by
  rw [print, List.cons_append, utf8_cons_ascii (by decide), utf8_append]
  rfl

theorem readBack_object {depth : Nat} {members : List (String × Json)}
    (h : ∀ m ∈ members, ReadBack depth m.2) : ReadBack (depth + 1) (.object members) := by
  have hbytes := utf8_object members
  refine ⟨⟨123, _, hbytes, by decide, by decide⟩, fun {fuel rest} hfuel _ p => ?_⟩
  rw [hbytes, List.length_cons, List.length_append, List.length_singleton] at hfuel
  obtain ⟨less, rfl⟩ : ∃ less, fuel = less + 1 := ⟨fuel - 1, by omega⟩
  have hless : 2 * ((utf8 (printRest true members)).length + 1) ≤ less := by omega
  obtain ⟨q, hq⟩ := readMembers_all h [] hless rest (Cursor.advance p 123)
  refine ⟨q, ?_⟩
  have hopen : Cursor.isBlank 123 = false := by decide
  have hdigit : digit? 123 = none := by decide
  rw [hbytes, readValue]
  simpa [skipBlanks_cons hopen, Cursor.peek?, Cursor.skip, hdigit] using hq

/-! ### All values -/

theorem ReadBack.of_scalar {v : Json} {depth : Nat}
    (hopens : ∃ b more, utf8 v.print = b :: more ∧ Cursor.isBlank b = false ∧ b ≠ 93)
    (hreads : ∀ (fuel : Nat) {rest : List UInt8}, Follows rest → ∀ p,
      ∃ q, readValue (fuel + 1) depth ⟨utf8 v.print ++ rest, p⟩ = .ok (v, ⟨rest, q⟩)) :
    ReadBack depth v := by
  refine ⟨hopens, fun {fuel rest} hfuel hrest p => ?_⟩
  obtain ⟨b, more, hcons, -, -⟩ := hopens
  obtain ⟨less, rfl⟩ : ∃ less, fuel = less + 1 := ⟨fuel - 1, by simp [hcons] at hfuel; omega⟩
  exact hreads less hrest p

theorem readBack_null (depth : Nat) : ReadBack depth .null :=
  .of_scalar ⟨110, _, rfl, rfl, by decide⟩ fun _ _ _ _ => ⟨_, rfl⟩

theorem readBack_bool (depth : Nat) (b : Bool) : ReadBack depth (.bool b) := by
  cases b with
  | false => exact .of_scalar ⟨102, _, rfl, rfl, by decide⟩ fun _ _ _ _ => ⟨_, rfl⟩
  | true => exact .of_scalar ⟨116, _, rfl, rfl, by decide⟩ fun _ _ _ _ => ⟨_, rfl⟩

theorem readBack_string (depth : Nat) (s : String) : ReadBack depth (.string s) := by
  obtain ⟨more, hmore⟩ : ∃ more, utf8 (quote s) = 34 :: more := ⟨_, utf8_quote s⟩
  have hbytes : utf8 (print (.string s)) = 34 :: more := hmore
  refine .of_scalar ⟨34, more, hbytes, rfl, by decide⟩ fun fuel rest _ p => ?_
  obtain ⟨q, hq⟩ := readString_quote s rest p
  have hblank : Cursor.isBlank 34 = false := by decide
  have hdigit : digit? 34 = none := by decide
  refine ⟨q, ?_⟩
  rw [hmore, List.cons_append] at hq
  rw [hbytes, List.cons_append, readValue]
  simp [skipBlanks_cons hblank, Cursor.peek?, hdigit, hq, Except.map]

theorem ne_of_digit {b : UInt8} {d : Nat} (h : digit? b = some d) {x : UInt8}
    (hx : digit? x = none) : b ≠ x := by
  rintro rfl
  rw [h] at hx
  cases hx

theorem numeral_opens (n : Nat) :
    ∃ b more d, utf8 (numeral n) = b :: more ∧ digit? b = some d := by
  obtain ⟨c, cs, hcons⟩ := List.exists_cons_of_ne_nil (Nat.toDigits_ne_nil (n := n) (b := 10))
  obtain ⟨hascii, hdigit⟩ := digit?_digit (Toml.digit_of_mem (n := n) (hcons ▸ List.mem_cons_self))
  have hnumeral : numeral n = c :: cs := hcons
  exact ⟨_, _, _, by rw [hnumeral, utf8_cons_ascii hascii], hdigit⟩

theorem blank_of_digit {b : UInt8} {d : Nat} (h : digit? b = some d) : Cursor.isBlank b = false := by
  simp [Cursor.isBlank, ne_of_digit h (x := 32) (by decide), ne_of_digit h (x := 10) (by decide),
    ne_of_digit h (x := 9) (by decide), ne_of_digit h (x := 13) (by decide)]

theorem readBack_natural (depth : Nat) (n : UInt64) : ReadBack depth (.natural n) := by
  obtain ⟨b, more, d, hopens, hdigit⟩ := numeral_opens n.toNat
  have hblank := blank_of_digit hdigit
  have hbytes : utf8 (print (.natural n)) = utf8 (numeral n.toNat) := rfl
  refine .of_scalar ⟨b, more, hopens, hblank, ne_of_digit hdigit (by decide)⟩
    fun fuel rest hrest p => ?_
  obtain ⟨q, hq⟩ := readNumber_numeral n.toNat_lt hrest p false
  refine ⟨q, ?_⟩
  have hwhole : wholeNumber false n.toNat = .natural n := by
    simp [wholeNumber]
  rw [hwhole, hopens, List.cons_append] at hq
  rw [hbytes, hopens, List.cons_append, readValue]
  simp [skipBlanks_cons hblank, Cursor.peek?, hdigit, hq,
    ne_of_digit hdigit (x := 110) (by decide), ne_of_digit hdigit (x := 116) (by decide),
    ne_of_digit hdigit (x := 102) (by decide), ne_of_digit hdigit (x := 45) (by decide)]

theorem readBack_negative (depth : Nat) {n : Nat} (h : n < Nat.pow 2 63) :
    ReadBack depth (.negative n) := by
  have hbytes : utf8 (print (.negative n)) = 45 :: utf8 (numeral (n + 1)) :=
    utf8_cons_ascii (by decide) _
  refine .of_scalar ⟨45, _, hbytes, rfl, by decide⟩ fun fuel rest hrest p => ?_
  have hle : n + 1 < Nat.pow 2 64 := by
    have : Nat.pow 2 64 = 2 * Nat.pow 2 63 := by decide
    omega
  obtain ⟨q, hq⟩ := readNumber_numeral hle hrest (Cursor.advance p 45) true
  have hwhole : wholeNumber true (n + 1) = .negative n := by
    have : ¬ Nat.pow 2 63 < n + 1 := by omega
    simp only [wholeNumber, if_true, Nat.add_one_ne_zero, this, decide_false, Bool.or_self,
      Bool.false_eq_true, if_false, Nat.add_sub_cancel]
  have hblank : Cursor.isBlank 45 = false := by decide
  refine ⟨q, ?_⟩
  rw [hwhole] at hq
  rw [hbytes, List.cons_append, readValue]
  simp [skipBlanks_cons hblank, Cursor.peek?, Cursor.skip, hq]

theorem Exact.readBack {depth : Nat} {v : Json} (h : Exact depth v) : ReadBack depth v := by
  induction h with
  | null => exact readBack_null _
  | bool b => exact readBack_bool _ b
  | natural n => exact readBack_natural _ n
  | negative h => exact readBack_negative _ h
  | string s => exact readBack_string _ s
  | array _ ih => exact readBack_array ih
  | object _ ih => exact readBack_object ih

theorem render_bytes (v : Json) : v.render.toUTF8.toList = utf8 v.print := by
  rw [toUTF8_toList, render, String.toList_ofList]

/-- The text of a value is read as the value. -/
theorem parse_render {v : Json} (h : Exact depthLimit v) :
    parse v.render.toUTF8.toList = .ok v := by
  have hend : Follows [] := by
    intro b hb
    cases hb
  have hfuel : 2 * (utf8 v.print).length ≤ 2 * (utf8 v.print).length + 2 := Nat.le_add_right _ 2
  obtain ⟨q, hq⟩ := h.readBack.reads hfuel hend ⟨1, 0⟩
  rw [List.append_nil] at hq
  rw [render_bytes, parse, Cursor.start, hq]
  rfl

/-! ## Lines -/

theorem newline_not_mem_escapeChar (c : Char) : '\n' ∉ escapeChar c := by
  have hhex : ∀ n < 16, hexDigit n ≠ '\n' := by decide
  have hhigh := hhex (c.toNat / 16)
  have hlow := hhex (c.toNat % 16)
  unfold escapeChar
  grind

theorem newline_not_mem_quote (s : String) : '\n' ∉ quote s := by
  simp [quote, newline_not_mem_escapeChar]

theorem newline_not_mem_numeral (n : Nat) : '\n' ∉ numeral n := fun h => by
  have hdigits : '\n' ∉ Toml.digits := by decide
  exact hdigits (Toml.digit_of_mem h)

theorem newline_not_mem_print {depth : Nat} {v : Json} (h : Exact depth v) : '\n' ∉ v.print := by
  induction h with
  | null => decide
  | bool b => cases b <;> decide
  | natural n => exact newline_not_mem_numeral n.toNat
  | negative => simp [print, newline_not_mem_numeral]
  | string s => exact newline_not_mem_quote s
  | @array _ elements _ ih =>
    cases elements with
    | nil => decide
    | cons v elements =>
      have hmore : '\n' ∉ printMoreElements elements := by
        simp only [printMoreElements, List.mem_flatMap, List.mem_cons, not_exists, not_and, not_or]
        exact fun w hw => ⟨by decide, ih w (List.mem_cons_of_mem v hw)⟩
      simp [print, printElements_cons, ih v List.mem_cons_self, hmore]
  | @object _ members _ ih =>
    cases members with
    | nil => decide
    | cons m members =>
      have hmore : '\n' ∉ printMoreMembers members := by
        simp only [printMoreMembers, List.mem_flatMap, List.mem_cons, List.mem_append, not_exists,
          not_and, not_or]
        exact fun w hw => ⟨by decide, newline_not_mem_quote w.1, by decide,
          ih w (List.mem_cons_of_mem m hw)⟩
      simp [print, printMembers_cons, newline_not_mem_quote, ih m List.mem_cons_self, hmore]

/-- The text of a value is one line. -/
theorem newline_not_mem_render {depth : Nat} {v : Json} (h : Exact depth v) :
    10 ∉ v.render.toUTF8.toList := by
  rw [render_bytes]
  exact fun hmem => newline_not_mem_print h (char_mem_of_byte_mem hmem (by decide))

end Json

end RpcPool

import Mathlib.Data.List.Infix
import RpcPool.Proofs.Letters
import RpcPool.Proofs.Passwords

/-!
# Redacted texts

A redacted text has no secrets any more, although each kind of secret is looked for only once, and masks
are put in after it was. A match of any kind starts with a character that separates nothing and may belong
to a secret, and so does the mask that replaces it. Hence what stands in front of a match is followed by
the same as before, and no keyword begins in a mask.

Results:
1. `span_replaceAll`, `suffix_replaceFrom`: what a text looks like in which matches were replaced.
2. `keyword_replaceAll`, `userInfo_hide`: replacing matches brings about no new secrets.
3. `free_redactChars`, `redact_idempotent`: no secret is left.
-/

namespace RpcPool

namespace Redaction

variable {m : Matcher} {replacement : List Char}

/-! ## Replaced text -/

/-- Whether nothing matches anywhere in a text. -/
def Free (m : Matcher) (cs : List Char) : Prop := ∀ rest, rest <:+ cs → m rest = none

/-- A text in which nothing matches is kept as it is. -/
theorem Free.replaceAll_eq {cs : List Char} (h : Free m cs) (replacement : List Char) :
    replaceAll m replacement cs = cs := by
  have hkept : replaceAll m replacement (cs ++ []) = cs ++ replaceAll m replacement [] := by
    refine replaceAll_append replacement fun before after heq _ => ?_
    rw [List.append_nil]
    exact h after ⟨before, heq.symm⟩
  simpa [replaceAll, replaceFrom] using hkept

/-! ## Firm characters -/

/-- A character that separates nothing and may belong to a secret. -/
def isFirm (c : Char) : Bool := isSecret c && !isSeparator c

/-- Whether no keyword has a character. -/
def IsForeign (c : Char) : Prop := ∀ word ∈ keywords, ∀ l ∈ word, isLetter l c = false

instance (c : Char) : Decidable (IsForeign c) :=
  @List.decidableBAll _ _ (fun word => List.decidableBAll _ word) keywords

/-- What may stand in the place of a secret: it starts with a firm character that no keyword has, and no
keyword begins in it, whatever follows. -/
structure IsMask (replacement : List Char) : Prop where
  start : ∃ d more, replacement = d :: more ∧ isFirm d = true ∧ IsForeign d
  quiet : ∀ word ∈ keywords, ∀ part, part <:+ replacement → part ≠ [] →
    ∀ more, afterKeyword? word (part ++ more) = none

/-- What the kinds of secrets have in common: a match is not empty and starts with a firm character,
and a mask is put in its place. -/
structure Firm (m : Matcher) (replacement : List Char) : Prop where
  nil : m [] = none
  pos : ∀ cs, m cs ≠ some 0
  start : ∀ c cs, m (c :: cs) ≠ none → isFirm c = true
  mask : IsMask replacement

/-- A text ends in a character that no keyword has, and no keyword begins before it: then none begins in
the text, whatever follows. -/
theorem quiet_of_stop (body : List Char) (stop : Char) (hstop : IsForeign stop)
    (hbody : ∀ word ∈ keywords, ∀ cs ∈ body.tails, afterKeyword? word cs = none) :
    ∀ word ∈ keywords, ∀ part, part <:+ body ++ [stop] → part ≠ [] →
      ∀ more, afterKeyword? word (part ++ more) = none := by
  intro word hword part hpart hne more
  rcases List.suffix_concat_iff.mp hpart with hnil | ⟨cs, rfl, hcs⟩
  · exact absurd hnil hne
  · have hafter := afterKeyword?_append (hstop word hword) cs more
    rw [hbody word hword cs ((List.mem_tails cs body).mpr hcs)] at hafter
    simpa using hafter

theorem isMask_mark : IsMask mark :=
  ⟨⟨'[', "REDACTED]".toList, rfl, by decide, by decide⟩,
    quiet_of_stop "[REDACTED".toList ']' (by decide) (by decide)⟩

theorem isMask_userInfo : IsMask ('/' :: '/' :: mark ++ ['@']) :=
  ⟨⟨'/', '/' :: mark ++ ['@'], rfl, by decide, by decide⟩,
    quiet_of_stop ('/' :: '/' :: mark) '@' (by decide) (by decide)⟩

/-- A text either starts with a match or with a character that is kept. -/
theorem Firm.replaceAll_cons (h : Firm m replacement) (c : Char) (cs : List Char) :
    m (c :: cs) = none ∧ replaceAll m replacement (c :: cs) = c :: replaceAll m replacement cs ∨
      ∃ n, m (c :: cs) = some (n + 1) ∧
        replaceAll m replacement (c :: cs) = replacement ++ replaceFrom m replacement n cs := by
  cases hm : m (c :: cs) with
  | none => exact Or.inl ⟨rfl, Redaction.replaceAll_cons replacement hm⟩
  | some k =>
    cases k with
    | zero => exact absurd hm (h.pos _)
    | succ n => exact Or.inr ⟨n, rfl, by simp only [replaceAll, replaceFrom, hm]⟩

/-- A run of characters among which none is firm ends where a match is replaced. -/
theorem span_replaceAll (h : Firm m replacement) {p : Char → Bool}
    (hstart : ∀ c cs, m (c :: cs) ≠ none → p c = false)
    (hreplacement : ∀ d ∈ replacement.head?, p d = false) (cs : List Char) :
    (replaceAll m replacement cs).takeWhile p = cs.takeWhile p ∧
      (replaceAll m replacement cs).dropWhile p = replaceAll m replacement (cs.dropWhile p) := by
  induction cs with
  | nil => exact ⟨rfl, rfl⟩
  | cons c cs ih =>
    rcases h.replaceAll_cons c cs with ⟨-, hkept⟩ | ⟨n, hmatch, hreplaced⟩
    · rw [hkept]
      by_cases hc : p c = true
      · simp [hc, ih]
      · simp [hc, hkept]
    · obtain ⟨d, more, rfl, -⟩ := h.mask.start
      have hc : ¬ p c = true := by simp [hstart c cs (by simp [hmatch])]
      have hd : ¬ p d = true := by simp [hreplacement d rfl]
      rw [List.takeWhile_cons_of_neg hc, List.dropWhile_cons_of_neg hc, hreplaced, List.cons_append,
        List.takeWhile_cons_of_neg hd, List.dropWhile_cons_of_neg hd]
      exact ⟨rfl, rfl⟩

/-- The ends of a text in which matches were replaced: such a text itself, or the end of a replacement in
front of one. -/
theorem suffix_replaceFrom (h : Firm m replacement) {skip : Nat} {cs rest : List Char}
    (hrest : rest <:+ replaceFrom m replacement skip cs) :
    (∃ cs', cs' <:+ cs ∧ rest = replaceAll m replacement cs') ∨
      ∃ part more, part <:+ replacement ∧ part ≠ [] ∧ rest = part ++ more := by
  induction cs generalizing skip with
  | nil =>
    rw [replaceFrom] at hrest
    exact Or.inl ⟨[], List.suffix_refl _, List.suffix_nil.mp hrest⟩
  | cons c cs ih =>
    have hlater {skip : Nat} (hrest : rest <:+ replaceFrom m replacement skip cs) :
        (∃ cs', cs' <:+ c :: cs ∧ rest = replaceAll m replacement cs') ∨
          ∃ part more, part <:+ replacement ∧ part ≠ [] ∧ rest = part ++ more := by
      rcases ih hrest with ⟨cs', hcs', heq⟩ | hreplaced
      · exact Or.inl ⟨cs', hcs'.trans (List.suffix_cons c cs), heq⟩
      · exact Or.inr hreplaced
    cases skip with
    | succ skip => exact hlater hrest
    | zero =>
      change rest <:+ replaceAll m replacement (c :: cs) at hrest
      rcases h.replaceAll_cons c cs with ⟨-, hkept⟩ | ⟨n, -, hreplaced⟩
      · rw [hkept] at hrest
        rcases List.suffix_cons_iff.mp hrest with rfl | hrest
        · exact Or.inl ⟨c :: cs, List.suffix_refl _, hkept.symm⟩
        · exact hlater hrest
      · rw [hreplaced] at hrest
        obtain ⟨before, hbefore⟩ := hrest
        rcases List.append_eq_append_iff.mp hbefore with ⟨part, hpart, heq⟩ | ⟨between, -, heq⟩
        · cases part with
          | nil => exact hlater ⟨[], heq⟩
          | cons d part =>
            exact Or.inr ⟨d :: part, _, ⟨before, hpart.symm⟩, List.cons_ne_nil d part, heq⟩
        · exact hlater ⟨between, heq.symm⟩

/-! ## Keywords -/

theorem isFirm_of_isLetter {word : List Char} (hword : word ∈ keywords) {l : Char} (hl : l ∈ word)
    {c : Char} (h : isLetter l c = true) : isFirm c = true := by
  have hletters : keywords.all (fun word => word.all fun l => isFirm l) = true := by decide
  have hfirm : isFirm l = true := List.all_eq_true.mp (List.all_eq_true.mp hletters word hword) l hl
  have hcapitals : ∀ c ∈ Text.capitals, isFirm c = true := Text.forall_of_all (by decide)
  rcases Bool.or_eq_true_iff.mp h with hlower | hlong
  · rcases Text.toLower_cases c with hsame | hcapital
    · rw [hsame, beq_iff_eq] at hlower
      rwa [hlower]
    · exact hcapitals c hcapital
  · rw [(beq_iff_eq.mp (Bool.and_eq_true_iff.mp hlong).2)]
    decide

/-- A keyword with its secret is not empty and starts with a letter. -/
theorem firm_keyword {word : List Char} (hword : word ∈ keywords) : Firm (keyword word) mark := by
  have hne : ∀ word ∈ keywords, word ≠ [] := by decide
  obtain ⟨l, letters, rfl⟩ := List.exists_cons_of_ne_nil (hne word hword)
  refine ⟨rfl, fun cs hzero => ?_, fun c cs hmatch => ?_, isMask_mark⟩
  · simp only [keyword, Option.bind_eq_some_iff, Option.map_eq_some_iff] at hzero
    obtain ⟨-, -, n, -, hn⟩ := hzero
    simp at hn
  · by_cases hc : isLetter l c = true
    · exact isFirm_of_isLetter hword List.mem_cons_self hc
    · simp [keyword, afterKeyword?, hc] at hmatch

/-- A keyword in a text in which matches were replaced was there before. -/
theorem afterKeyword?_replaceAll (h : Firm m replacement) {word : List Char}
    (hword : ∀ d ∈ replacement.head?, ∀ l ∈ word, isLetter l d = false) {cs rest' : List Char}
    (hafter : afterKeyword? word (replaceAll m replacement cs) = some rest') :
    ∃ rest, afterKeyword? word cs = some rest ∧ rest' = replaceAll m replacement rest := by
  induction word generalizing cs with
  | nil => exact ⟨cs, rfl, (Option.some.inj hafter).symm⟩
  | cons l word ih =>
    cases cs with
    | nil => simp [replaceAll, replaceFrom, afterKeyword?] at hafter
    | cons c cs =>
      rcases h.replaceAll_cons c cs with ⟨-, hkept⟩ | ⟨n, -, hreplaced⟩
      · rw [hkept] at hafter
        by_cases hc : isLetter l c = true
        · simp only [afterKeyword?, hc, if_true] at hafter ⊢
          exact ih (fun d hd l hl => hword d hd l (List.mem_cons_of_mem _ hl)) hafter
        · simp [afterKeyword?, hc] at hafter
      · obtain ⟨d, more, rfl, -⟩ := h.mask.start
        rw [hreplaced] at hafter
        simp [afterKeyword?, hword d rfl l List.mem_cons_self] at hafter

/-- There is a secret behind a keyword exactly if there was one before matches were replaced. -/
theorem secretLength?_replaceAll (h : Firm m replacement) (cs : List Char) :
    (secretLength? (replaceAll m replacement cs)).isSome = (secretLength? cs).isSome := by
  obtain ⟨d, more, rfl, hd, -⟩ := h.mask.start
  have hfirm {c : Char} (hc : isFirm c = true) : isSecret c = true ∧ isSeparator c = false := by
    simpa [isFirm] using hc
  obtain ⟨htake, hdrop⟩ := span_replaceAll h (p := isSeparator)
    (fun c cs hc => (hfirm (h.start c cs hc)).2)
    (fun d' hd' => by cases hd'; exact (hfirm hd).2) cs
  have hsecret (cs : List Char) :
      ((replaceAll m (d :: more) cs).takeWhile isSecret).isEmpty = (cs.takeWhile isSecret).isEmpty := by
    cases cs with
    | nil => rfl
    | cons c cs =>
      rcases h.replaceAll_cons c cs with ⟨-, hkept⟩ | ⟨n, hmatch, hreplaced⟩
      · rw [hkept]
        by_cases hc : isSecret c = true
        · simp [hc]
        · simp [hc]
      · have hc := (hfirm (h.start c cs (by simp [hmatch]))).1
        rw [hreplaced, List.cons_append, List.takeWhile_cons_of_pos (hfirm hd).1,
          List.takeWhile_cons_of_pos hc]
        rfl
  unfold secretLength?
  simp only [htake, hdrop, hsecret]
  split
  · rfl
  · split
    · split <;> rfl
    · rfl

/-- Replacing matches brings about no new keyword with a secret. -/
theorem keyword_replaceAll (h : Firm m replacement) {word : List Char} (hword : word ∈ keywords)
    {cs : List Char} (hcs : keyword word cs = none) :
    keyword word (replaceAll m replacement cs) = none := by
  obtain ⟨d, more, hreplacement, -, hletters⟩ := h.mask.start
  cases hafter : afterKeyword? word (replaceAll m replacement cs) with
  | none => simp [keyword, hafter]
  | some rest' =>
    obtain ⟨rest, hrest, rfl⟩ := afterKeyword?_replaceAll h
      (fun d' hd' => by rw [hreplacement] at hd'; cases hd'; exact hletters word hword) hafter
    have hnone : secretLength? rest = none := by simpa [keyword, hrest] using hcs
    have hlater : secretLength? (replaceAll m replacement rest) = none := by
      rw [← Option.not_isSome_iff_eq_none, secretLength?_replaceAll h, hnone]
      exact Bool.false_ne_true
    simp [keyword, hafter, hlater]

/-! ## User and password -/

/-- What is matched: two slashes, a user, a colon, a password and an `@`. -/
theorem userInfo_eq_some_iff {cs : List Char} {n : Nat} : userInfo cs = some n ↔
    ∃ text rest more, cs = '/' :: '/' :: text ∧ text.dropWhile isUser = ':' :: rest ∧
      rest.dropWhile isPassword = '@' :: more ∧ text.takeWhile isUser ≠ [] ∧
      rest.takeWhile isPassword ≠ [] ∧
      n = (text.takeWhile isUser).length + (rest.takeWhile isPassword).length + 4 := by
  constructor
  · intro h
    unfold userInfo at h
    split at h
    · next text =>
      dsimp only at h
      split at h
      · next rest hrest =>
        split at h
        · next more hmore =>
          split at h
          · cases h
          · next hne =>
            cases h
            simp only [Bool.or_eq_true, List.isEmpty_iff, not_or] at hne
            exact ⟨text, rest, more, rfl, hrest, hmore, hne.1, hne.2, rfl⟩
        · cases h
      · cases h
    · cases h
  · rintro ⟨text, rest, more, rfl, hrest, hmore, huser, hpassword, rfl⟩
    simp [userInfo, hrest, hmore, huser, hpassword]

theorem start_of_userInfo {c : Char} {cs : List Char} (h : userInfo (c :: cs) ≠ none) : c = '/' := by
  obtain ⟨n, hn⟩ := Option.ne_none_iff_exists'.mp h
  obtain ⟨text, -, -, heq, -⟩ := userInfo_eq_some_iff.mp hn
  exact (List.cons.inj heq).1

theorem firm_userInfo : Firm userInfo ('/' :: '/' :: mark ++ ['@']) := by
  refine ⟨rfl, fun cs hzero => ?_, fun c cs hmatch => ?_, isMask_userInfo⟩
  · obtain ⟨text, rest, more, -, -, -, -, -, hn⟩ := userInfo_eq_some_iff.mp hzero
    exact absurd hn.symm (Nat.succ_ne_zero _)
  · rw [start_of_userInfo hmatch]
    decide

/-- A run of characters without slashes is kept where users and passwords are hidden. -/
theorem span_hide {p : Char → Bool} (hp : p '/' = false) (cs : List Char) :
    (hide cs).takeWhile p = cs.takeWhile p ∧ (hide cs).dropWhile p = hide (cs.dropWhile p) :=
  span_replaceAll firm_userInfo (fun _ _ hmatch => by rw [start_of_userInfo hmatch, hp])
    (fun d hd => by cases hd; exact hp) cs

/-- A text in which users and passwords are hidden starts as before or with two slashes. -/
theorem hide_cons (c : Char) (cs : List Char) :
    userInfo (c :: cs) = none ∧ hide (c :: cs) = c :: hide cs ∨
      ∃ more, hide (c :: cs) = '/' :: '/' :: mark ++ '@' :: more := by
  rcases firm_userInfo.replaceAll_cons c cs with hkept | ⟨n, -, hreplaced⟩
  · exact Or.inl hkept
  · exact Or.inr ⟨_, by simpa [hide] using hreplaced⟩

theorem hide_eq_cons {c : Char} (hc : c ≠ '/') {cs rest : List Char} (h : hide cs = c :: rest) :
    ∃ more, cs = c :: more ∧ rest = hide more := by
  cases cs with
  | nil => cases h
  | cons d more =>
    rcases hide_cons d more with ⟨-, hkept⟩ | ⟨more, hreplaced⟩
    · obtain ⟨rfl, rfl⟩ := List.cons.inj (hkept.symm.trans h)
      exact ⟨more, rfl, rfl⟩
    · exact absurd (List.cons.inj (hreplaced.symm.trans h)).1.symm hc

/-- What users and passwords are hidden behind is none. -/
theorem userInfo_mark (more : List Char) : userInfo ('/' :: '/' :: mark ++ '@' :: more) = none := rfl

/-- Hiding users and passwords does not bring about new ones. -/
theorem userInfo_hide (cs : List Char) : userInfo (hide cs) = none := by
  have hslash : isUser '/' = false := by decide
  have hslash' : isPassword '/' = false := by decide
  by_contra hmatch
  obtain ⟨n, hn⟩ := Option.ne_none_iff_exists'.mp hmatch
  obtain ⟨text, rest, more, htext, hrest, hmore, huser, hpassword, -⟩ := userInfo_eq_some_iff.mp hn
  cases cs with
  | nil => cases htext
  | cons c cs =>
    rcases hide_cons c cs with ⟨hnone, hkept⟩ | ⟨more, hreplaced⟩
    · obtain ⟨rfl, hcs⟩ := List.cons.inj (hkept.symm.trans htext)
      cases cs with
      | nil => cases hcs
      | cons d cs =>
        rcases hide_cons d cs with ⟨-, hkept'⟩ | ⟨more, hreplaced⟩
        · -- The slashes are those of the text, so user and password are too.
          obtain ⟨rfl, rfl⟩ := List.cons.inj (hkept'.symm.trans hcs)
          obtain ⟨hsame, hdrop⟩ := span_hide hslash cs
          rw [hdrop] at hrest
          rw [hsame] at huser
          obtain ⟨rest, hrest', rfl⟩ := hide_eq_cons (by decide) hrest
          obtain ⟨hsame', hdrop'⟩ := span_hide hslash' rest
          rw [hdrop'] at hmore
          rw [hsame'] at hpassword
          obtain ⟨more, hmore', rfl⟩ := hide_eq_cons (by decide) hmore
          have hmatched := userInfo_eq_some_iff.mpr
            ⟨cs, rest, more, rfl, hrest', hmore', huser, hpassword, rfl⟩
          rw [hnone] at hmatched
          cases hmatched
        · -- A third slash ends the user.
          obtain ⟨-, rfl⟩ := List.cons.inj (hreplaced.symm.trans hcs)
          exact huser (List.takeWhile_cons_of_neg (by simp [hslash]))
    · rw [hreplaced, userInfo_mark] at hn
      cases hn

/-! ## All secrets -/

/-- A keyword with its secret begins in a text in which matches were replaced only if it does so where the
text before did. -/
theorem free_keyword (h : Firm m replacement) {word : List Char} (hword : word ∈ keywords)
    {cs : List Char} (hcs : ∀ cs', cs' <:+ cs → keyword word (replaceAll m replacement cs') = none) :
    Free (keyword word) (replaceAll m replacement cs) := by
  intro rest hrest
  rcases suffix_replaceFrom h hrest with ⟨cs', hcs', rfl⟩ | ⟨part, more, hpart, hne, rfl⟩
  · exact hcs cs' hcs'
  · simp [keyword, h.mask.quiet word hword part hpart hne more]

/-- After its keywords were looked for, none is left. -/
theorem free_keyword_self {word : List Char} (hword : word ∈ keywords) (cs : List Char) :
    Free (keyword word) (replaceAll (keyword word) mark cs) := by
  refine free_keyword (firm_keyword hword) hword fun cs' _ => ?_
  cases hmatch : keyword word cs' with
  | none => exact keyword_replaceAll (firm_keyword hword) hword hmatch
  | some n =>
    cases cs' with
    | nil => exact (firm_keyword hword).nil
    | cons c cs' =>
      rcases (firm_keyword hword).replaceAll_cons c cs' with ⟨hnone, -⟩ | ⟨k, -, hreplaced⟩
      · rw [hnone] at hmatch
        cases hmatch
      · rw [hreplaced]
        simp [keyword, isMask_mark.quiet word hword mark (List.suffix_refl mark) (by decide)]

/-- Looking for later kinds of secrets leaves none of the keywords that were looked for before. -/
theorem Free.replaceAll (h : Firm m replacement) {word : List Char} (hword : word ∈ keywords)
    {cs : List Char} (hcs : Free (keyword word) cs) :
    Free (keyword word) (Redaction.replaceAll m replacement cs) :=
  free_keyword h hword fun cs' hcs' => keyword_replaceAll h hword (hcs cs' hcs')

theorem free_userInfo (cs : List Char) : Free userInfo (hide cs) := by
  intro rest hrest
  rcases suffix_replaceFrom firm_userInfo hrest with ⟨cs', -, rfl⟩ | ⟨part, more, hpart, hne, rfl⟩
  · exact userInfo_hide cs'
  · rcases List.suffix_cons_iff.mp hpart with rfl | hpart
    · simpa using userInfo_mark more
    · rcases List.suffix_cons_iff.mp hpart with rfl | hpart
      · exact userInfo_slash (by decide) _
      · obtain ⟨c, part, rfl⟩ := List.exists_cons_of_ne_nil hne
        have hplain : '/' ∉ mark ++ ['@'] := by decide
        exact userInfo_ne (fun hc => hplain (hpart.subset (hc ▸ List.mem_cons_self))) _

/-- A redacted text has no secret of any kind. -/
theorem free_redactChars (cs : List Char) : ∀ k ∈ kinds, Free k.1 (redactChars cs) := by
  have hauthorization : "authorization".toList ∈ keywords := by simp [keywords]
  have hpassword : "password".toList ∈ keywords := by simp [keywords]
  have hsecret : "secret".toList ∈ keywords := by simp [keywords]
  intro k hk
  simp only [kinds, List.mem_cons, List.not_mem_nil, or_false] at hk
  rcases hk with rfl | rfl | rfl | rfl
  · have hfirst := free_keyword_self hauthorization cs
    have hsecond := hfirst.replaceAll (firm_keyword hpassword) hauthorization
    have hthird := hsecond.replaceAll (firm_keyword hsecret) hauthorization
    exact hthird.replaceAll firm_userInfo hauthorization
  · have hfirst := free_keyword_self hpassword (replaceAll (keyword "authorization".toList) mark cs)
    exact (hfirst.replaceAll (firm_keyword hsecret) hpassword).replaceAll firm_userInfo hpassword
  · exact (free_keyword_self hsecret _).replaceAll firm_userInfo hsecret
  · exact free_userInfo _

/-- Where no secret is found, none is taken out. -/
theorem foldl_of_free {kinds : List (Matcher × List Char)} {cs : List Char}
    (h : ∀ k ∈ kinds, Free k.1 cs) : kinds.foldl (fun cs k => replaceAll k.1 k.2 cs) cs = cs := by
  induction kinds with
  | nil => rfl
  | cons k kinds ih =>
    rw [List.foldl_cons, (h k List.mem_cons_self).replaceAll_eq]
    exact ih fun k hk => h k (List.mem_cons_of_mem _ hk)

end Redaction

open Redaction

/-- In a redacted text no secret of any kind is found, so redacting it again changes nothing. -/
theorem redact_idempotent (s : String) :
    (∀ k ∈ kinds, ∀ rest, rest <:+ (redact s).toList → k.1 rest = none) ∧
      redact (redact s) = redact s := by
  have hfree : ∀ k ∈ kinds, Free k.1 (redact s).toList := by
    rw [redact, String.toList_ofList]
    exact free_redactChars s.toList
  refine ⟨hfree, ?_⟩
  rw [redact, redactChars, foldl_of_free hfree, String.ofList_toList]

example : redact "passwordsecret: a,//u:p@h" = "password[REDACTED],//[REDACTED]@h" := by decide

end RpcPool

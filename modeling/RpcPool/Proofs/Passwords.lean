import Mathlib.Data.List.TakeWhile
import RpcPool.Log.Redaction
import RpcPool.Rpc.Address

/-!
# Passwords in URIs

What the redaction of a text leaves of the user and the password in a URI. The pattern for them asks for
a user and a password, and for neither `@` nor blanks in them. A URI may have an empty user, and an `@`
or a blank in its password, and then the password, or what follows the first `@` in it, stays in the text.

Results:
1. `redact_credentials`: the redacted text of a URI, whether the pattern applies or not.
2. `redact_credentials_iff`: exactly when two passwords cannot be told apart.
-/

namespace RpcPool

namespace Redaction

/-! ## Texts without matches -/

theorem replaceAll_cons {m : Matcher} (replacement : List Char) {c : Char} {cs : List Char}
    (h : m (c :: cs) = none) :
    replaceAll m replacement (c :: cs) = c :: replaceAll m replacement cs := by
  simp only [replaceAll, replaceFrom, h]

/-- A text in which nothing matches is kept, whatever follows it. -/
theorem replaceAll_append {m : Matcher} (replacement : List Char) {cs rest : List Char}
    (h : ∀ before after, cs = before ++ after → after ≠ [] → m (after ++ rest) = none) :
    replaceAll m replacement (cs ++ rest) = cs ++ replaceAll m replacement rest := by
  induction cs with
  | nil => rfl
  | cons c cs ih =>
    have hnone := h [] (c :: cs) rfl (List.cons_ne_nil c cs)
    have hrest := ih fun before after heq hne => h (c :: before) after (by rw [heq]; rfl) hne
    rw [List.cons_append] at hnone ⊢
    rw [replaceAll_cons replacement hnone, hrest, List.cons_append]

theorem replaceFrom_skip (m : Matcher) (replacement : List Char) (skipped rest : List Char) :
    replaceFrom m replacement skipped.length (skipped ++ rest) = replaceAll m replacement rest := by
  induction skipped with
  | nil => rfl
  | cons c skipped ih => exact ih

/-- A match is replaced, and what comes after it is looked at on its own. -/
theorem replaceAll_match {m : Matcher} (replacement : List Char) {matched rest : List Char}
    (hne : matched ≠ []) (h : m (matched ++ rest) = some matched.length) :
    replaceAll m replacement (matched ++ rest) = replacement ++ replaceAll m replacement rest := by
  obtain ⟨c, more, rfl⟩ := List.exists_cons_of_ne_nil hne
  rw [List.cons_append, List.length_cons] at h
  have hskip := replaceFrom_skip m replacement more rest
  unfold replaceAll at hskip ⊢
  simp only [List.cons_append, replaceFrom, h, hskip]

/-! ## Keywords -/

/-- The keywords in front of secrets. -/
def keywords : List (List Char) := ["authorization".toList, "password".toList, "secret".toList]

/-- Whether a text starts with a keyword and a separator. -/
def startsSecret (cs : List Char) : Bool :=
  keywords.any fun word => (afterKeyword? word cs).any fun rest => rest.head?.any isSeparator

/-- Whether no keyword in a text is followed by a separator. -/
def quiet : List Char → Bool
  | [] => true
  | c :: cs => !startsSecret (c :: cs) && quiet cs

theorem quiet_suffix {before after : List Char} (h : quiet (before ++ after) = true) (hne : after ≠ []) :
    startsSecret after = false := by
  induction before with
  | nil =>
    obtain ⟨c, more, rfl⟩ := List.exists_cons_of_ne_nil hne
    simp only [List.nil_append, quiet, Bool.and_eq_true, Bool.not_eq_true'] at h
    exact h.1
  | cons c before ih =>
    simp only [List.cons_append, quiet, Bool.and_eq_true] at h
    exact ih h.2

/-- A keyword does not reach over a character that is none of its letters. -/
theorem afterKeyword?_append {word : List Char} {stop : Char}
    (hword : ∀ l ∈ word, isLetter l stop = false) (cs rest : List Char) :
    afterKeyword? word (cs ++ stop :: rest) = (afterKeyword? word cs).map (· ++ stop :: rest) := by
  induction word generalizing cs with
  | nil => rfl
  | cons l word ih =>
    cases cs with
    | nil => simp [afterKeyword?, hword l List.mem_cons_self]
    | cons c cs =>
      simp only [List.cons_append, afterKeyword?, ih (fun l hl => hword l (List.mem_cons_of_mem _ hl))]
      split <;> rfl

theorem secretLength?_none {cs : List Char} (h : cs.head?.any isSeparator = false) :
    secretLength? cs = none := by
  have hnone : cs.takeWhile isSeparator = [] := by
    cases cs with
    | nil => rfl
    | cons c cs => exact List.takeWhile_cons_of_neg (by simpa using h)
  simp [secretLength?, hnone]

theorem keyword_quiet {word : List Char} (hmem : word ∈ keywords) {cs : List Char}
    (h : startsSecret cs = false) (rest : List Char) : keyword word (cs ++ '@' :: rest) = none := by
  have hletters : keywords.all (fun word => word.all fun l => !isLetter l '@') = true := by decide
  have hword : ∀ l ∈ word, isLetter l '@' = false := by
    simpa using List.all_eq_true.mp (List.all_eq_true.mp hletters word hmem)
  have hquiet : (afterKeyword? word cs).any (fun rest => rest.head?.any isSeparator) = false := by
    simpa using List.any_eq_false.mp h word hmem
  unfold keyword
  rw [afterKeyword?_append hword]
  cases hafter : afterKeyword? word cs with
  | none => rfl
  | some after =>
    have hnone : secretLength? (after ++ '@' :: rest) = none := by
      refine secretLength?_none ?_
      rw [hafter] at hquiet
      cases after with
      | nil => rfl
      | cons c after => exact hquiet
    simp [hnone]

/-- A quiet text up to an `@` is kept. -/
theorem replaceAll_quiet {word : List Char} (hmem : word ∈ keywords) (replacement : List Char)
    {cs : List Char} (h : quiet cs = true) (rest : List Char) :
    replaceAll (keyword word) replacement (cs ++ '@' :: rest) =
      cs ++ '@' :: replaceAll (keyword word) replacement rest := by
  have hat : keyword word ('@' :: rest) = none := by
    have hstart : startsSecret [] = false := by decide
    exact keyword_quiet hmem hstart rest
  rw [replaceAll_append replacement fun before after heq hne => ?_, replaceAll_cons replacement hat]
  exact keyword_quiet hmem (quiet_suffix (heq ▸ h) hne) rest

/-! ## User and password -/

theorem userInfo_ne {c : Char} (h : c ≠ '/') (cs : List Char) : userInfo (c :: cs) = none := by
  unfold userInfo
  split
  · next heq => exact absurd (List.cons.inj heq).1 h
  · rfl

theorem userInfo_slash {c : Char} (h : c ≠ '/') (cs : List Char) :
    userInfo ('/' :: c :: cs) = none := by
  unfold userInfo
  split
  · next heq => exact absurd (List.cons.inj (List.cons.inj heq).2).1 h
  · rfl

/-- A text without the users and passwords of its URIs. -/
def hide (cs : List Char) : List Char := replaceAll userInfo ('/' :: '/' :: mark ++ ['@']) cs

/-- Text without slashes is kept. -/
theorem hide_append {cs : List Char} (h : '/' ∉ cs) (rest : List Char) :
    hide (cs ++ rest) = cs ++ hide rest := by
  refine replaceAll_append _ fun before after heq hne => ?_
  obtain ⟨c, more, rfl⟩ := List.exists_cons_of_ne_nil hne
  exact userInfo_ne (fun hc => h (by simp [heq, hc])) _

/-- The part of a URI that holds the user and the password. -/
def credentials (user password : List Char) : List Char := '/' :: '/' :: user ++ ':' :: password

/-- What the pattern leaves of a password: what comes after the characters it asks for. -/
def remnant (password : List Char) : List Char := password.dropWhile isPassword

/-- Whether the pattern applies to a user and a password. -/
def covered (user password : List Char) : Bool :=
  !user.isEmpty && user.all isUser && !(password.takeWhile isPassword).isEmpty &&
    ((remnant password).isEmpty || (remnant password).head? == some '@')

/-- A run of characters that ends before a character of another kind ends there in a longer text too. -/
theorem span_stop {p : Char → Bool} (cs : List Char) {c : Char} (hc : p c = false) (rest : List Char) :
    (cs ++ c :: rest).takeWhile p = cs.takeWhile p ∧
      (cs ++ c :: rest).dropWhile p = cs.dropWhile p ++ c :: rest := by
  induction cs with
  | nil => simp [hc]
  | cons d cs ih =>
    by_cases hd : p d = true
    · simp [hd, ih]
    · simp [hd]

theorem userInfo_credentials {user : List Char} (huser : ∀ c ∈ user, isUser c = true)
    (password rest : List Char) :
    userInfo (credentials user password ++ '@' :: rest) =
      if covered user password then
        some (user.length + (password.takeWhile isPassword).length + 4)
      else none := by
  have hcolon : isUser ':' = false := by decide
  have hat : isPassword '@' = false := by decide
  have htake (l : List Char) : (user ++ ':' :: l).takeWhile isUser = user := by
    rw [List.takeWhile_append_of_pos huser, List.takeWhile_cons_of_neg (by simp [hcolon]),
      List.append_nil]
  have hdrop (l : List Char) : (user ++ ':' :: l).dropWhile isUser = ':' :: l := by
    rw [List.dropWhile_append_of_pos huser, List.dropWhile_cons_of_neg (by simp [hcolon])]
  obtain ⟨htake', hdrop'⟩ := span_stop password hat rest
  have hall : user.all isUser = true := List.all_eq_true.mpr huser
  have htext : credentials user password ++ '@' :: rest =
      '/' :: '/' :: (user ++ ':' :: (password ++ '@' :: rest)) := by simp [credentials]
  rw [htext]
  simp only [userInfo, htake, hdrop, htake', hdrop', covered, hall, Bool.and_true]
  cases hleft : remnant password with
  | nil =>
    unfold remnant at hleft
    simp only [hleft, List.nil_append, List.isEmpty_nil, Bool.true_or, Bool.and_true]
    cases user.isEmpty <;> cases (password.takeWhile isPassword).isEmpty <;> rfl
  | cons c more =>
    unfold remnant at hleft
    by_cases hc : c = '@'
    · subst hc
      simp only [hleft, List.cons_append, List.isEmpty_cons, List.head?_cons, BEq.rfl, Bool.false_or,
        Bool.and_true]
      cases user.isEmpty <;> cases (password.takeWhile isPassword).isEmpty <;> rfl
    · simp [hleft, hc]

/-- A pattern that does not apply leaves user and password as they are. -/
theorem userInfo_uncovered {user : List Char} (huser : ∀ c ∈ user, c ≠ '/' ∧ c ≠ ':')
    {password : List Char} (h : covered user password = false) (rest : List Char) :
    userInfo (credentials user password ++ '@' :: rest) = none := by
  by_cases hall : ∀ c ∈ user, isUser c = true
  · simp [userInfo_credentials hall, h]
  · have hne : user.dropWhile isUser ≠ [] := fun hnil => hall (List.dropWhile_eq_nil_iff.mp hnil)
    obtain ⟨d, more, hcons⟩ := List.exists_cons_of_ne_nil hne
    have hd : d ≠ ':' := (huser d ((List.dropWhile_sublist _).subset (hcons ▸ List.mem_cons_self))).2
    have hcolon : isUser ':' = false := by decide
    have hdrop := (span_stop user hcolon (password ++ '@' :: rest)).2
    have htext : credentials user password ++ '@' :: rest =
        '/' :: '/' :: (user ++ ':' :: (password ++ '@' :: rest)) := by simp [credentials]
    rw [hcons, List.cons_append] at hdrop
    rw [htext]
    simp only [userInfo, hdrop]
    split
    · next heq => exact absurd (List.cons.inj heq).1 hd
    · rfl

/-- What is written in the place of user and password, the `@` apart. -/
def disguise (user password : List Char) : List Char :=
  if covered user password then '/' :: '/' :: mark ++ remnant password
  else credentials user password

theorem covered_iff {user password : List Char} : covered user password = true ↔
    user ≠ [] ∧ (∀ c ∈ user, isUser c = true) ∧ password.takeWhile isPassword ≠ [] ∧
      (remnant password = [] ∨ ∃ more, remnant password = '@' :: more) := by
  have hhead : (remnant password).head? = some '@' ↔ ∃ more, remnant password = '@' :: more := by
    cases remnant password <;> simp
  simp [covered, hhead, and_assoc]

theorem noSlash_remnant {password : List Char} (h : '/' ∉ password) : '/' ∉ remnant password :=
  fun hmem => h ((List.dropWhile_sublist _).subset hmem)

theorem hide_covered {user : List Char} (hall : ∀ c ∈ user, isUser c = true)
    {password : List Char} (hpassword : '/' ∉ password) (h : covered user password = true)
    (rest : List Char) :
    hide (credentials user password ++ '@' :: rest) =
      '/' :: '/' :: mark ++ remnant password ++ '@' :: hide rest := by
  -- The match ends with the first `@` after the password.
  obtain ⟨tail, htail⟩ : ∃ tail, remnant password ++ '@' :: rest = '@' :: tail := by
    rcases (covered_iff.mp h).2.2.2 with hnil | ⟨more, hcons⟩
    · exact ⟨rest, by rw [hnil]; rfl⟩
    · exact ⟨more ++ '@' :: rest, by rw [hcons]; rfl⟩
  have hmatch := userInfo_credentials hall password rest
  have htext : credentials user password ++ '@' :: rest =
      (credentials user (password.takeWhile isPassword) ++ ['@']) ++ tail := by
    have hsplit : password ++ '@' :: rest = password.takeWhile isPassword ++ '@' :: tail := by
      rw [← htail, ← List.append_assoc, remnant, List.takeWhile_append_dropWhile]
    simp [credentials, hsplit]
  have hlength : user.length + (password.takeWhile isPassword).length + 4 =
      (credentials user (password.takeWhile isPassword) ++ ['@']).length := by
    simp only [credentials, List.cons_append, List.length_cons, List.length_append, List.length_nil]
    omega
  have hkept := hide_append (noSlash_remnant hpassword) ('@' :: rest)
  have hat (l : List Char) : hide ('@' :: l) = '@' :: hide l :=
    replaceAll_cons _ (userInfo_ne (by decide) l)
  rw [htail, hat, hat] at hkept
  rw [if_pos h, htext, hlength] at hmatch
  have hreplaced : hide (credentials user (password.takeWhile isPassword) ++ ['@'] ++ tail) =
      '/' :: '/' :: mark ++ ['@'] ++ hide tail := replaceAll_match _ (by simp) hmatch
  rw [htext, hreplaced, List.append_assoc, List.append_assoc, List.singleton_append, hkept]

theorem hide_uncovered {user : List Char} (huser : ∀ c ∈ user, c ≠ '/' ∧ c ≠ ':')
    {password : List Char} (hpassword : '/' ∉ password) (h : covered user password = false)
    (rest : List Char) :
    hide (credentials user password ++ '@' :: rest) =
      credentials user password ++ '@' :: hide rest := by
  have hfirst := userInfo_uncovered huser h rest
  have htext : credentials user password ++ '@' :: rest =
      '/' :: '/' :: (user ++ ':' :: (password ++ '@' :: rest)) := by simp [credentials]
  have hsecond : userInfo ('/' :: (user ++ ':' :: (password ++ '@' :: rest))) = none := by
    cases user with
    | nil => rfl
    | cons c user => exact userInfo_slash (huser c List.mem_cons_self).1 _
  have hplain : '/' ∉ user ++ ':' :: password ++ ['@'] := by
    have hslash : '/' ∉ user := fun hmem => (huser '/' hmem).1 rfl
    simp [hslash, hpassword]
  have hkept := hide_append hplain rest
  have hslashes : hide (credentials user password ++ '@' :: rest) =
      '/' :: '/' :: hide (user ++ ':' :: (password ++ '@' :: rest)) := by
    rw [htext] at hfirst ⊢
    unfold hide
    rw [replaceAll_cons _ hfirst, replaceAll_cons _ hsecond]
  simp only [List.append_assoc, List.cons_append, List.nil_append] at hkept
  rw [hslashes, hkept]
  simp [credentials]

theorem hide_credentials {user : List Char} (huser : ∀ c ∈ user, c ≠ '/' ∧ c ≠ ':')
    {password : List Char} (hpassword : '/' ∉ password) (rest : List Char) :
    hide (credentials user password ++ '@' :: rest) =
      disguise user password ++ '@' :: hide rest := by
  unfold disguise
  cases hcovered : covered user password with
  | true => exact hide_covered (covered_iff.mp hcovered).2.1 hpassword hcovered rest
  | false => exact hide_uncovered huser hpassword hcovered rest

/-! ## All secrets -/

/-- The redacted text of a URI with a user and a password, if it has no other secrets: they are
disguised, and what follows them is redacted on its own. -/
theorem redactChars_credentials {scheme user password : List Char} (hscheme : '/' ∉ scheme)
    (huser : ∀ c ∈ user, c ≠ '/' ∧ c ≠ ':') (hpassword : '/' ∉ password)
    (hquiet : quiet (scheme ++ ':' :: credentials user password) = true) (host : List Char) :
    redactChars (scheme ++ ':' :: credentials user password ++ '@' :: host) =
      scheme ++ ':' :: disguise user password ++ '@' :: redactChars host := by
  have hpasses (cs : List Char) : redactChars cs = hide (replaceAll (keyword "secret".toList) mark
      (replaceAll (keyword "password".toList) mark
        (replaceAll (keyword "authorization".toList) mark cs))) := rfl
  have hprefix : '/' ∉ scheme ++ [':'] := by simp [hscheme]
  rw [hpasses, hpasses, replaceAll_quiet (by simp [keywords]) _ hquiet,
    replaceAll_quiet (by simp [keywords]) _ hquiet, replaceAll_quiet (by simp [keywords]) _ hquiet]
  have hkept (rest : List Char) : hide (scheme ++ ':' :: credentials user password ++ '@' :: rest) =
      scheme ++ ':' :: hide (credentials user password ++ '@' :: rest) := by
    have happend := hide_append hprefix (credentials user password ++ '@' :: rest)
    simpa using happend
  rw [hkept, hide_credentials huser hpassword]
  simp

theorem credentials_inj {user p q : List Char} : credentials user p = credentials user q ↔ p = q := by
  simp [credentials]

/-- A password that is covered never looks like one that is not. -/
theorem disguise_ne {user p q : List Char} (hp : covered user p = true) :
    '/' :: '/' :: mark ++ remnant p ≠ credentials user q := by
  intro heq
  obtain ⟨_, hall, _, hleft⟩ := covered_iff.mp hp
  have heq : mark ++ remnant p = user ++ ':' :: q := by simpa [credentials] using heq
  have hmark : ∀ c ∈ mark, isUser c = true := List.all_eq_true.mp rfl
  have hcolon : ¬ isUser ':' = true := by decide
  have hrest : (remnant p).dropWhile isUser = ':' :: q := by
    have hdrop := congrArg (List.dropWhile isUser) heq
    rwa [List.dropWhile_append_of_pos hmark, List.dropWhile_append_of_pos hall,
      List.dropWhile_cons_of_neg hcolon] at hdrop
  rcases hleft with hnil | ⟨more, hcons⟩
  · simp [hnil] at hrest
  · rw [hcons, List.dropWhile_cons_of_neg (by decide)] at hrest
    exact absurd (List.cons.inj hrest).1 (by decide)

/-- Exactly when the disguise of user and password does not tell two passwords apart. -/
theorem disguise_eq_iff (user p q : List Char) : disguise user p = disguise user q ↔
    p = q ∨ covered user p = true ∧ covered user q = true ∧ remnant p = remnant q := by
  unfold disguise
  by_cases heq : p = q
  · simp [heq]
  · cases hp : covered user p <;> cases hq : covered user q
    · simp [credentials_inj, heq]
    · simpa [heq] using (disguise_ne hq).symm
    · simpa [heq] using disguise_ne hp
    · simp [heq]

end Redaction

open Redaction

/-- A URI with a user and a password. -/
def credentialsUri (scheme user password host : String) : String :=
  scheme ++ "://" ++ user ++ ":" ++ password ++ "@" ++ host

theorem toList_credentialsUri (scheme user password host : String) :
    (credentialsUri scheme user password host).toList =
      scheme.toList ++ ':' :: credentials user.toList password.toList ++ '@' :: host.toList := by
  simp [credentialsUri, credentials, String.toList_append]

/-- The redacted text of a URI without other secrets. -/
theorem redact_credentials {scheme user password : String} (hscheme : '/' ∉ scheme.toList)
    (huser : '/' ∉ user.toList ∧ ':' ∉ user.toList) (hpassword : '/' ∉ password.toList)
    (hquiet : quiet (scheme.toList ++ ':' :: credentials user.toList password.toList) = true)
    (host : String) :
    redact (credentialsUri scheme user password host) = String.ofList (scheme.toList ++
      ':' :: disguise user.toList password.toList ++ '@' :: redactChars host.toList) := by
  have hname : ∀ c ∈ user.toList, c ≠ '/' ∧ c ≠ ':' := fun c hc =>
    ⟨fun heq => huser.1 (heq ▸ hc), fun heq => huser.2 (heq ▸ hc)⟩
  rw [redact, toList_credentialsUri, redactChars_credentials hscheme hname hpassword hquiet]

/-- Exactly when the redacted text of a URI does not tell two passwords apart: the pattern applies to both
of them, and leaves the same of both. -/
theorem redact_credentials_iff {scheme user p q : String} (hscheme : '/' ∉ scheme.toList)
    (huser : '/' ∉ user.toList ∧ ':' ∉ user.toList) (hp : '/' ∉ p.toList) (hq : '/' ∉ q.toList)
    (hpQuiet : quiet (scheme.toList ++ ':' :: credentials user.toList p.toList) = true)
    (hqQuiet : quiet (scheme.toList ++ ':' :: credentials user.toList q.toList) = true)
    (host : String) :
    redact (credentialsUri scheme user p host) = redact (credentialsUri scheme user q host) ↔
      p = q ∨ covered user.toList p.toList = true ∧ covered user.toList q.toList = true ∧
        remnant p.toList = remnant q.toList := by
  have hsame : p.toList = q.toList ↔ p = q := String.toList_inj
  rw [← hsame, ← disguise_eq_iff user.toList, redact_credentials hscheme huser hp hpQuiet,
    redact_credentials hscheme huser hq hqQuiet, String.ofList_inj]
  simp

/-- An empty user and an `@` in the password are accepted in the URI of an endpoint, and then passwords
can be told apart. -/
theorem passwords_told_apart :
    ((Rpc.address (credentialsUri "http" "" "hunter2" "[::1]")).toOption.isSome ∧
      (Rpc.address (credentialsUri "http" "" "hunter3" "[::1]")).toOption.isSome ∧
      redact (credentialsUri "http" "" "hunter2" "[::1]") ≠
        redact (credentialsUri "http" "" "hunter3" "[::1]")) ∧
    ((Rpc.address (credentialsUri "http" "alice" "p@ss" "[::1]")).toOption.isSome ∧
      (Rpc.address (credentialsUri "http" "alice" "p@th" "[::1]")).toOption.isSome ∧
      redact (credentialsUri "http" "alice" "p@ss" "[::1]") ≠
        redact (credentialsUri "http" "alice" "p@th" "[::1]")) := by
  have hempty : redact (credentialsUri "http" "" "hunter2" "[::1]") =
      redact (credentialsUri "http" "" "hunter3" "[::1]") ↔ _ :=
    redact_credentials_iff (by decide) (by decide) (by decide) (by decide) (by decide) (by decide) _
  have hat : redact (credentialsUri "http" "alice" "p@ss" "[::1]") =
      redact (credentialsUri "http" "alice" "p@th" "[::1]") ↔ _ :=
    redact_credentials_iff (by decide) (by decide) (by decide) (by decide) (by decide) (by decide) _
  refine ⟨⟨by decide +kernel, by decide +kernel, ?_⟩, by decide +kernel, by decide +kernel, ?_⟩
  · exact fun h => absurd (hempty.mp h) (by decide)
  · exact fun h => absurd (hat.mp h) (by decide)

end RpcPool

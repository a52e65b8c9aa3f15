import RpcPool.Text.Blank

/-!
# Redaction

Before a text goes to the log its secrets are taken out. A secret is what follows one of a few keywords
and a separator, or the user and password in front of the host of a URI. Each kind of secret is looked
for from left to right in the result of the one before it; what was replaced is not looked at again.
-/

namespace RpcPool

namespace Redaction

/-- Looks for a match at the start of a text and tells its length. -/
abbrev Matcher := List Char → Option Nat

/-- Replaces every match in a text, from left to right and without overlap. `skip` characters belong to
the match found last. -/
def replaceFrom (m : Matcher) (replacement : List Char) : Nat → List Char → List Char
  | _, [] => []
  | skip + 1, _ :: rest => replaceFrom m replacement skip rest
  | 0, c :: rest =>
    match m (c :: rest) with
    | some (n + 1) => replacement ++ replaceFrom m replacement n rest
    | _ => c :: replaceFrom m replacement 0 rest

def replaceAll (m : Matcher) (replacement : List Char) (cs : List Char) : List Char :=
  replaceFrom m replacement 0 cs

/-! ## Keywords -/

/-- Whether a character is a letter of a keyword in either case. The long s counts as an s. -/
def isLetter (letter c : Char) : Bool :=
  c.toLower == letter || (letter == 's' && c == 'ſ')

/-- What follows a keyword at the start of a text. -/
def afterKeyword? : List Char → List Char → Option (List Char)
  | [], cs => some cs
  | _ :: _, [] => none
  | letter :: more, c :: cs => if isLetter letter c then afterKeyword? more cs else none

/-- What separates a keyword from its secret. -/
def isSeparator (c : Char) : Bool := c == ':' || c == '=' || Text.isBlank c

/-- What a secret consists of. -/
def isSecret (c : Char) : Bool := !Text.isBlank c && c != ','

/-- The length of separators and secret, given what follows a keyword. The separators reach as far as
they can and the secret after them likewise. If nothing is left for the secret, the last separator that
may be one is taken for it, as long as another stays in front of it. -/
def secretLength? (cs : List Char) : Option Nat :=
  let separators := cs.takeWhile isSeparator
  let secret := (cs.dropWhile isSeparator).takeWhile isSecret
  if separators.isEmpty then none
  else if secret.isEmpty then
    let kept := (separators.reverse.dropWhile fun c => !isSecret c).length
    if 2 ≤ kept then some kept else none
  else some (separators.length + secret.length)

/-- Matches a keyword with its secret. -/
def keyword (word : List Char) : Matcher := fun cs =>
  (afterKeyword? word cs).bind fun rest => (secretLength? rest).map (word.length + ·)

/-! ## User and password in a URI -/

/-- What the user name in front of a host consists of. -/
def isUser (c : Char) : Bool := c != '/' && c != ':' && c != '@' && !Text.isBlank c

/-- What the password in front of a host consists of. -/
def isPassword (c : Char) : Bool := c != '/' && c != '@' && !Text.isBlank c

/-- Matches `//user:password@`, neither of them empty. -/
def userInfo : Matcher
  | '/' :: '/' :: cs =>
    let user := cs.takeWhile isUser
    match cs.dropWhile isUser with
    | ':' :: rest =>
      let password := rest.takeWhile isPassword
      match rest.dropWhile isPassword with
      | '@' :: _ =>
        if user.isEmpty || password.isEmpty then none
        else some (user.length + password.length + 4)
      | _ => none
    | _ => none
  | _ => none

/-! ## All secrets -/

/-- What stands in the place of a secret. -/
def mark : List Char := "[REDACTED]".toList

/-- The kinds of secrets in the order in which they are taken out, with what is put in their place. -/
def kinds : List (Matcher × List Char) :=
  [(keyword "authorization".toList, mark),
   (keyword "password".toList, mark),
   (keyword "secret".toList, mark),
   (userInfo, '/' :: '/' :: mark ++ ['@'])]

def redactChars (cs : List Char) : List Char :=
  kinds.foldl (fun cs k => replaceAll k.1 k.2 cs) cs

end Redaction

/-- A text without its secrets. -/
def redact (s : String) : String := String.ofList (Redaction.redactChars s.toList)

end RpcPool

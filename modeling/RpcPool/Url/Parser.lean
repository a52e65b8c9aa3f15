import RpcPool.Url

/-!
# Reading URLs

A URL is read from left to right: scheme, authority, path, query and fragment. Blanks around it and line
breaks anywhere in it do not count. In the known schemes a backslash is as good as a slash, and any number
of slashes may stand in front of the host.
-/

namespace RpcPool

namespace Url

/-! ## Preparation -/

def isControlOrSpace (c : Char) : Bool := c.toNat ≤ 0x20

def isLineBreak (c : Char) : Bool := c == '\t' || c == '\n' || c == '\r'

/-- The part of a text that counts. -/
def cleaned (cs : List Char) : List Char :=
  (((cs.dropWhile isControlOrSpace).reverse.dropWhile isControlOrSpace).reverse).filter
    fun c => !isLineBreak c

/-! ## Scheme -/

def isSchemeChar (c : Char) : Bool := c.isAlphanum || c == '+' || c == '-' || c == '.'

/-- The scheme of a text and what follows the colon after it. -/
def scheme? (cs : List Char) : Option (List Char × List Char) :=
  let scheme := cs.takeWhile isSchemeChar
  match cs.dropWhile isSchemeChar with
  | ':' :: rest => if scheme.head?.any Char.isAlpha then some (scheme.map Char.toLower, rest) else none
  | _ => none

/-! ## Authority -/

def isSlash (kind : SchemeKind) (c : Char) : Bool := c == '/' || (kind.isKnown && c == '\\')

/-- Whether a character ends the authority. -/
def endsAuthority (kind : SchemeKind) (c : Char) : Bool := isSlash kind c || c == '?' || c == '#'

/-- What stands before and after the last at sign, if there is one. -/
def atLast (cs : List Char) : Option (List Char × List Char) :=
  match cs.reverse.dropWhile (· != '@') with
  | [] => none
  | _ :: before => some (before.reverse, cs.drop (before.length + 1))

/-- User name and password of a text. -/
def credentials (cs : List Char) : List Char × List Char :=
  (Percent.encode Percent.userInfo (cs.takeWhile (· != ':')),
    Percent.encode Percent.userInfo ((cs.dropWhile (· != ':')).drop 1))

/-- The host at the start of a text, and what follows it: everything from the first colon on that is not
in brackets. -/
def splitHost (inBrackets : Bool) : List Char → List Char × List Char
  | [] => ([], [])
  | c :: cs =>
    if c = ':' && !inBrackets then ([], c :: cs)
    else
      let (host, rest) := splitHost (if c = '[' then true else if c = ']' then false else inBrackets) cs
      (c :: host, rest)

/-- The largest port. -/
def portLimit : Nat := 65535

/-- Reads the port that follows a host. The standard port of the scheme is left out. A backslash ends the
port in every scheme. -/
def port? (scheme : List Char) : List Char → Except UrlError (Option Nat × List Char)
  | ':' :: cs =>
    let digits := cs.takeWhile (Text.isDigit 10)
    let port := Text.numberOf 10 digits
    let rest := cs.dropWhile (Text.isDigit 10)
    if portLimit < port || !(rest.isEmpty || rest.head? = some '\\') then .error .invalidPort
    else
      .ok (if digits.isEmpty || standardPort? scheme = some port then none else some port, rest)
  | cs => .ok (none, cs)

/-- An authority, and what of its text belongs to the path. -/
structure Authority where
  username : List Char
  password : List Char
  host : Option Host
  port : Option Nat
  rest : List Char

/-- Reads the host of a scheme that is not for files. -/
def readHost (kind : SchemeKind) (cs : List Char) (isPortNext : Bool) : Except UrlError (Option Host) :=
  if cs.isEmpty && (kind.isKnown || isPortNext) then .error .emptyHost
  else if kind.isKnown then (Host.ofText cs).map some
  else Host.ofOpaque cs

/-- Reads an authority; `isLast` says that nothing follows it. -/
def readAuthority (scheme : List Char) (cs : List Char) (isLast : Bool) : Except UrlError Authority := do
  let kind := SchemeKind.ofScheme scheme
  let (user, cs) ← match atLast cs with
    | none => Except.ok ([], cs)
    | some (user, rest) =>
      if user.isEmpty && rest.isEmpty && !isLast then .error .emptyHost else .ok (user, rest)
  let (username, password) := credentials user
  let (hostText, afterHost) := splitHost false cs
  let host ← readHost kind hostText (afterHost.head? = some ':')
  let (port, rest) ← port? scheme afterHost
  if host.isNone && !(username.isEmpty && password.isEmpty) then throw .emptyHost
  return ⟨username, password, host, port, rest⟩

/-! ## Path -/

/-- A dot in a path, written plainly or encoded. -/
def isDot (cs : List Char) : Bool := [".", "%2e", "%2E"].any fun d => d.toList == cs

def isDoubleDot (cs : List Char) : Bool :=
  ["..", "%2e.", "%2E.", ".%2e", ".%2E", "%2e%2e", "%2e%2E", "%2E%2e", "%2E%2E"].any
    fun d => d.toList == cs

/-- Steps along a path: a dot stays, two dots go back, and anything else goes on. The segments so far are
given in reverse. A path that ends in dots ends in an empty segment. -/
def walk (done : List (List Char)) : List (List Char) → List (List Char)
  | [] => done.reverse
  | s :: rest =>
    if isDoubleDot s then walk (if rest.isEmpty then [] :: done.drop 1 else done.drop 1) rest
    else if isDot s then walk (if rest.isEmpty then [] :: done else done) rest
    else walk (Percent.encode Percent.path s :: done) rest

/-- The segments of what follows the first slash of a path. -/
def segments (kind : SchemeKind) (cs : List Char) : List (List Char) :=
  walk [] (Text.pieces (isSlash kind) cs)

/-- The path of a URL with an authority. In a known scheme it is never empty. -/
def hostPath (kind : SchemeKind) : List Char → UrlPath
  | [] => .segments (if kind.isKnown then [[]] else [])
  | c :: cs => .segments (if isSlash kind c then segments kind cs else segments kind (c :: cs))

/-! ## Query and fragment -/

def querySet (kind : SchemeKind) : Percent.Escapes :=
  if kind.isKnown then Percent.specialQuery else Percent.query

/-- A text with its query and fragment, which are encoded. -/
structure Tail where
  path : List Char
  query : Option (List Char)
  fragment : Option (List Char)

/-- Splits off what follows a mark, if it is there. -/
def splitOff (mark : Char) (cs : List Char) : List Char × Option (List Char) :=
  match cs.dropWhile (· != mark) with
  | [] => (cs, none)
  | _ :: rest => (cs.takeWhile (· != mark), some rest)

def splitTail (kind : SchemeKind) (cs : List Char) : Tail :=
  let (cs, fragment) := splitOff '#' cs
  let (path, query) := splitOff '?' cs
  ⟨path, query.map (Percent.encode (querySet kind)), fragment.map (Percent.encode Percent.fragment)⟩

/-! ## Files -/

def isDrive : List Char → Bool
  | [c, d] => c.isAlpha && (d == ':' || d == '|')
  | _ => false

/-- The path of a file, and whether it begins with a drive. -/
structure FilePath where
  done : List (List Char)
  hasDrive : Bool

/-- Goes back one step, but never out of a drive. -/
def FilePath.back (p : FilePath) : FilePath :=
  match p.done with
  | [s] => if isDrive s && s.getLast? = some ':' then p else { p with done := [] }
  | done => { p with done := done.drop 1 }

/-- Goes on to a segment. A drive at the start of a path is a segment of its own. -/
def FilePath.forward (p : FilePath) (s : List Char) : FilePath :=
  match p.done, s with
  | [], c :: ':' :: d :: rest =>
    if c.isAlpha then { p with done := [Percent.encode Percent.path (d :: rest), [c, ':']] }
    else { p with done := [Percent.encode Percent.path s] }
  | [], [c, d] =>
    if isDrive [c, d] then ⟨[[c, ':']], true⟩ else { p with done := [Percent.encode Percent.path s] }
  | done, s => { p with done := Percent.encode Percent.path s :: done }

/-- Steps along the path of a file. -/
def walkFile (p : FilePath) : List (List Char) → FilePath
  | [] => p
  | s :: rest =>
    let ended (p : FilePath) : FilePath := if rest.isEmpty then { p with done := [] :: p.done } else p
    if isDoubleDot s then walkFile (ended p.back) rest
    else if isDot s then walkFile (ended p) rest
    else walkFile (p.forward s) rest

/-- The segments of a file path, without empty ones at its start, and whether it begins with a drive. -/
def fileSegments (cs : List Char) : List (List Char) × Bool :=
  let p := walkFile ⟨[], false⟩ (Text.pieces (isSlash .file) cs)
  match p.done.reverse.dropWhile (·.isEmpty) with
  | [] => ([[]], p.hasDrive)
  | ss => (ss, p.hasDrive)

/-- The host of files, and what follows it. A drive in its place belongs to the path, and this host is
none. -/
def fileHost (cs : List Char) : Except UrlError (Option Host × List Char) :=
  let host := cs.takeWhile fun c => !endsAuthority .file c
  let rest := cs.dropWhile fun c => !endsAuthority .file c
  if host.isEmpty || isDrive host then .ok (none, cs)
  else
    match Host.ofText host with
    | .error e => .error e
    | .ok h => .ok (if h = .name "localhost".toList then none else some h, rest)

/-- Reads what follows the scheme of a file. A path with a drive is on this host. -/
def readFile (scheme : List Char) (cs : List Char) : Except UrlError Url := do
  let (host, rest) ← match cs with
    | a :: b :: rest =>
      if isSlash .file a && isSlash .file b then fileHost rest else Except.ok (none, cs)
    | _ => .ok (none, cs)
  let tail := splitTail .file rest
  let path := match tail.path with
    | [] => []
    | c :: cs => if isSlash .file c then cs else c :: cs
  let (segments, hasDrive) := fileSegments path
  return ⟨scheme, [], [], if hasDrive then none else host, none, .segments segments, tail.query,
    tail.fragment⟩

/-! ## URLs -/

/-- Reads what follows the slashes in front of an authority. -/
def readWithAuthority (scheme : List Char) (cs : List Char) : Except UrlError Url := do
  let kind := SchemeKind.ofScheme scheme
  let authority := cs.takeWhile fun c => !endsAuthority kind c
  let after := cs.dropWhile fun c => !endsAuthority kind c
  let a ← readAuthority scheme authority after.isEmpty
  let tail := splitTail kind (a.rest ++ after)
  return ⟨scheme, a.username, a.password, a.host, a.port, hostPath kind tail.path, tail.query,
    tail.fragment⟩

/-- Reads what follows the scheme of a URL without an authority. -/
def readWithoutAuthority (scheme : List Char) (cs : List Char) : Url :=
  let tail := splitTail .other cs
  let path := match tail.path with
    | '/' :: rest => .segments (segments .other rest)
    | rest => .opaqueText (Percent.encode Percent.none rest)
  ⟨scheme, [], [], none, none, path, tail.query, tail.fragment⟩

/-- Reads a URL. -/
def parse (text : String) : Except UrlError Url :=
  match scheme? (cleaned text.toList) with
  | none => .error .noScheme
  | some (scheme, rest) =>
    match SchemeKind.ofScheme scheme, rest with
    | .file, _ => readFile scheme rest
    | .web, _ => readWithAuthority scheme (rest.dropWhile (isSlash .web))
    | .other, '/' :: '/' :: rest => readWithAuthority scheme rest
    | .other, _ => .ok (readWithoutAuthority scheme rest)

end Url

end RpcPool

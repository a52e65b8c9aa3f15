import RpcPool.Url.Host

/-!
# URLs

The parts of a URL, each as it is written: what has to be encoded in a part is encoded in it. A URL in
this form has one text.
-/

namespace RpcPool

/-- How URLs of a scheme are read. -/
inductive SchemeKind
  /-- A scheme of the web, with hosts in a network. -/
  | web
  /-- Files, on this host or another one. -/
  | file
  | other
  deriving DecidableEq, Repr

namespace SchemeKind

def ofScheme (scheme : List Char) : SchemeKind :=
  if scheme = "file".toList then file
  else if ["http", "https", "ws", "wss", "ftp"].any fun s => s.toList == scheme then web
  else other

/-- Whether the kind is one that is known. -/
def isKnown : SchemeKind → Bool
  | other => false
  | _ => true

end SchemeKind

/-- The port that need not be written in a URL of a scheme. -/
def standardPort? (scheme : List Char) : Option Nat :=
  [("http".toList, 80), ("https".toList, 443), ("ws".toList, 80), ("wss".toList, 443),
   ("ftp".toList, 21)].lookup scheme

inductive UrlPath
  /-- A path that is no hierarchy. -/
  | opaqueText (cs : List Char)
  | segments (ss : List (List Char))
  deriving DecidableEq, Repr

namespace UrlPath

def text : UrlPath → List Char
  | opaqueText cs => cs
  | segments ss => ss.flatMap ('/' :: ·)

end UrlPath

structure Url where
  scheme : List Char
  username : List Char
  /-- Empty if there is none. -/
  password : List Char
  host : Option Host
  /-- The port, unless it is the standard one of the scheme. -/
  port : Option Nat
  path : UrlPath
  query : Option (List Char)
  fragment : Option (List Char)
  deriving DecidableEq, Repr

namespace Url

/-- User name and password as they stand in front of the host. -/
def userInfo (u : Url) : List Char :=
  if u.username.isEmpty && u.password.isEmpty then []
  else u.username ++ (if u.password.isEmpty then [] else ':' :: u.password) ++ ['@']

def portText (u : Url) : List Char :=
  match u.port with
  | none => []
  | some p => ':' :: Text.decimal p

/-- What stands between the scheme and the path. Without a host, a path that begins like one is kept
apart by a dot. -/
def authority (u : Url) : List Char :=
  match u.host with
  | some h => '/' :: '/' :: u.userInfo ++ h.text ++ u.portText
  | none =>
    if SchemeKind.ofScheme u.scheme = .file then ['/', '/']
    else if ['/', '/'].isPrefixOf u.path.text then ['/', '.']
    else []

/-- The text of a URL. -/
def chars (u : Url) : List Char :=
  u.scheme ++ ':' :: u.authority ++ u.path.text
    ++ (match u.query with
        | none => []
        | some q => '?' :: q)
    ++ (match u.fragment with
        | none => []
        | some f => '#' :: f)

def text (u : Url) : String := String.ofList u.chars

end Url

end RpcPool

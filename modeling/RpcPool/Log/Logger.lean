import RpcPool.Files.Operation
import RpcPool.Log.Line

/-!
# The logger

A logger adds lines to a file. From time to time it looks at the size of the file, and when that has
reached a limit the file is rotated: its content goes into an archive beside it and the file starts anew.
Only the newest archives are kept. Nothing that goes wrong with the log ever stops the program.

What the logger cannot decide on its own is given to it: the time, the name of its session, and how the
content of an archive is packed.
-/

namespace RpcPool

namespace Log

/-! ## Settings -/

/-- Lower case. No letter outside of ASCII has one of the letters below as its lower case. -/
def lower (s : String) : String := String.ofList (s.toList.map Char.toLower)

/-- Whether a setting turns logging on. -/
def isEnabled (setting : Option String) : Bool :=
  setting.any fun s => ["true", "1", "yes", "on"].contains (lower (Text.trimmed s))

/-- Where to log to: the path of the setting unless it is blank, and else a file in the user's home. -/
def pathOf (setting : Option String) (home : Option Path) : Path :=
  match setting.filter fun s => !(Text.trimmed s).isEmpty with
  | some s => .ofText s
  | none => ((home.getD (.ofText ".")).join ".monero-connection-manager").join "debug.log"

/-- The size from which on a log file is rotated. -/
def sizeLimit : Nat := 8 * 1024 * 1024

/-- How many lines are written between two looks at the size. -/
def checkInterval : UInt32 := 200

/-- How many archives are kept. -/
def archivesKept : Nat := 5

/-- The time as it is written in a line and in the name of an archive. -/
structure Stamp where
  line : String
  archive : String

end Log

structure Logger where
  path : Path
  session : String
  /-- How the content of an archive is packed. -/
  pack : Content → Content
  /-- The lines written so far, counted in 32 bits. -/
  writes : UInt32

namespace Logger

open Log

/-! ## Rotation -/

/-- The directory of the log file. -/
def directory (l : Logger) : Path := l.path.parent?.getD (.ofText ".")

/-- The name that the log file shares with its archives. -/
def stem (l : Logger) : String := l.path.stem?.getD "debug"

/-- Whether a name is that of an archive. -/
def isArchive (stem name : String) : Bool :=
  (stem ++ ".").toList.isPrefixOf name.toList && ".gz".toList.isSuffixOf name.toList

/-- Whether the log file has reached its limit. -/
def overLimit (l : Logger) : FileM Bool :=
  tryCatch (do return sizeLimit ≤ (← FileM.size l.path)) fun e =>
    if e = .notFound then return false else throw e

/-- The archives that go, the oldest first, given all that there are. -/
def outdated (archives : List (String × Entry)) : List (String × Entry) :=
  (archives.mergeSort fun a b => a.2.modified ≤ b.2.modified).take (archives.length - archivesKept)

/-- Removes all archives but the newest. What cannot be removed stays. -/
def prune (l : Logger) : FileM Unit := do
  let archives := (← FileM.list l.directory).filter fun e => isArchive l.stem e.1
  (outdated archives).forM fun e => FileM.attempt (FileM.remove (l.directory.join e.1))

/-- Moves the content of the log file into an archive. -/
def archive (l : Logger) (time : String) : FileM Unit := do
  let archive := l.directory.join (l.stem ++ "." ++ time ++ ".gz")
  let rotating := l.path.withExtension "rotating"
  FileM.rename l.path rotating
  FileM.write archive .empty
  FileM.write archive (l.pack (← FileM.read rotating))
  FileM.remove rotating
  FileM.attempt l.prune

/-- Rotates the log file if it has reached its limit, unless somebody else is about to. -/
def rotate (l : Logger) (time : String) : FileM Unit := do
  if ← l.overLimit then
    let lock := l.path.withExtension "lock"
    FileM.touch lock
    if ← FileM.isFree lock then
      let result ← FileM.result (l.archive time)
      FileM.attempt (FileM.remove lock)
      match result with
      | .ok () => return
      | .error e => throw e

/-! ## Writing -/

/-- A new logger on files. The directory of the log file is made if need be. -/
def start (path : Path) (session : String) (pack : Content → Content) (files : FileTree) :
    Logger × FileTree :=
  (⟨path, session, pack, 0⟩, FileM.after (FileM.makeParents path) files)

/-- Adds a line. A failure of the rotation before it does not keep it from being added. -/
def append (l : Logger) (time : String) (line : ByteArray) (files : FileTree) : Logger × FileTree :=
  let files := if l.writes % checkInterval = 0 then FileM.after (l.rotate time) files else files
  ({ l with writes := l.writes + 1 }, FileM.after (FileM.append l.path line) files)

/-- Logs a note. -/
def log (l : Logger) (stamp : Stamp) (n : Note) (files : FileTree) : Logger × FileTree :=
  l.append stamp.archive (Line.bytes ⟨stamp.line, l.session, n.entry⟩) files

end Logger

end RpcPool

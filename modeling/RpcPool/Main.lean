import RpcPool.CommandLine
import RpcPool.Config.Storage
import RpcPool.Report

/-!
The command line: reads the arguments and the configuration, and prints what was asked for. Transports
are not part of this library, so every endpoint counts as one at which nobody listens.
-/

open RpcPool

namespace RpcPool.Main

/-- Ends with a message to the user. -/
def fail (message : String) : IO UInt32 := do
  IO.eprintln message
  return 1

/-! ## Files -/

/-- The path of a text. Its names count from the root, also if the text begins in the working
directory. -/
def pathOf (text : String) : IO Path := do
  let path := Path.ofText text
  if text.isEmpty || text.startsWith "/" then return path
  let directory := (← IO.currentDir).toString
  return { path with parts := (Path.ofText (directory ++ "/" ++ text)).parts }

/-- The name that the operating system has for a location. -/
def place (l : Location) : String := (Path.ofParts l).text

/-- What there is at a location, as far as it can be read. A directory has no content to read. -/
def entry? (l : Location) : IO (Option Entry) := do
  try
    return some (.file (.ofBytes (← IO.FS.readBinFile (place l))) 0)
  catch
    | .inappropriateType .. => return some (.directory 0)
    | _ => return none

/-- The files and directories on the way of a path. -/
def filesOn (p : Path) : IO FileTree := do
  let enter (here : Location) (name : String) : Location :=
    if name = ".." then here.dropLast else here ++ [name]
  let (_, passed) := p.parts.foldl
    (fun (here, passed) name => (enter here name, enter here name :: passed)) ([], [])
  let entries ← passed.eraseDups.filterMapM fun l => return (← entry? l).map fun e => (l, e)
  return { FileTree.empty 1 with entries := entries }

/-- Writes what has changed in a tree since a time, directories before what is in them. -/
def write (since : Nat) (t : FileTree) : IO Unit :=
  (t.entries.filter fun e => since ≤ e.2.modified).reverse.forM fun (l, e) =>
    match e with
    | .directory _ => IO.FS.createDir (place l)
    | .file c _ => IO.FS.writeBinFile (place l) c.bytes

/-- Carries out an operation on the files on the way of a path. -/
def onFiles {α : Type} (p : Path) (op : Config.StorageM α) : IO (Except ConfigError α) := do
  let files ← filesOn p
  match op files with
  | .ok a after =>
    write files.now after
    return .ok a
  | .error e after =>
    write files.now after
    return .error e

/-! ## What the command line asks for -/

/-- Where the configuration is kept: where the user says, or else in the user's home. -/
def configPath (c : CommandLine) (home : Option Path) : IO (Except ConfigError Path) :=
  match c.config with
  | some text => return .ok (← pathOf text)
  | none => onFiles .nowhere (Config.defaultPath home)

/-- Stores the standard configuration where there is none. -/
def storeStandard (path : Path) : IO UInt32 := do
  match ← onFiles path (Config.initAt path) with
  | .error e => fail e.message
  | .ok stored =>
    IO.println ((if stored then "Wrote default config to " else "Config already exists at ") ++ path.text)
    return 0

/-- Loads the configuration. Only the one in the user's home may be missing. -/
def load (c : CommandLine) (home : Option Path) (path : Path) : IO (Except ConfigError Config) :=
  onFiles path (if c.config.isSome then Config.loadFrom path else Config.load home)

/-- Prints what was asked for. -/
def report (c : CommandLine) (config : Config) : IO UInt32 := do
  if c.checkConfig then
    IO.println ("✓ Configuration valid (" ++ toString config.connections.length ++ " connections)")
    return 0
  match Report.lines config ⟨[]⟩ c.watch with
  | .error e => fail e.message
  | .ok lines =>
    lines.forM IO.println
    return 0

/-- Does what the command line asks for. -/
def run (c : CommandLine) : IO UInt32 := do
  let home := ((← IO.getEnv "HOME").filter fun home => !home.isEmpty).map Path.ofText
  match ← configPath c home with
  | .error e => fail e.message
  | .ok path =>
    if c.init then storeStandard path
    else
      match ← load c home path with
      | .error e => fail e.message
      | .ok config =>
        match config.ensureValid with
        | .error e => fail e.message
        | .ok () => report c config

end RpcPool.Main

def main (arguments : List String) : IO UInt32 := do
  match CommandLine.read arguments with
  | .ok c => Main.run c
  | .error .help =>
    IO.print CommandLine.helpText
    return 0
  | .error .version =>
    IO.print CommandLine.versionText
    return 0
  | .error .missingValue => Main.fail "error: a value is required"
  | .error .invalidNumber => Main.fail "error: invalid value"
  | .error .repeated => Main.fail "error: an option cannot be used multiple times"
  | .error .unneededValue => Main.fail "error: unexpected value"
  | .error .unknown => Main.fail "error: unexpected argument"

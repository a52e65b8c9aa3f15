import RpcPool.Config.Check
import RpcPool.Config.Text
import RpcPool.Files.Operation

/-!
# Stored configurations

Where a configuration is kept and how it is loaded and saved. Saving makes the directories that are
missing on the way; nothing but the file itself is ever replaced.
-/

namespace RpcPool

/-- Why there is no configuration to work with. -/
inductive ConfigError
  | homeNotFound
  | file (path : Path) (e : FileError)
  | text (e : Config.TextError)
  | invalid (v : Config.Violation)
  deriving DecidableEq, Repr

namespace Config

/-- The wording of a text that is not a configuration. -/
def TextError.message : TextError → String
  | .notToml => "not a TOML document"
  | .mismatch m => m.message

end Config

/-- The wording of an error. -/
def ConfigError.message : ConfigError → String
  | .homeNotFound => "Home directory not found"
  | .file path e => "Config I/O error at " ++ path.text ++ ": " ++ e.message
  | .text e => "Config parse error: " ++ e.message
  | .invalid v => "Invalid config: " ++ v.message

namespace Config

/-- An operation on stored configurations. -/
abbrev StorageM := EStateM ConfigError FileTree

/-- A file operation on a path that is to be named if it fails. -/
def onFile {α : Type} (path : Path) (op : FileM α) : StorageM α := fun files =>
  match op files with
  | .ok a files => .ok a files
  | .error e files => .error (.file path e) files

/-- The directory in which the program keeps its files, given the user's home. -/
def directory (home : Path) : Path := home.join ".monero-connection-manager"

/-- Where the configuration of a user is kept. -/
def defaultPath (home : Option Path) : StorageM Path :=
  match home with
  | none => throw .homeNotFound
  | some h => return (directory h).join "config.toml"

/-- Loads the configuration that is stored at a path. -/
def loadFrom (path : Path) : StorageM Config := do
  let text ← onFile path (FileM.readText path)
  match ofToml text with
  | .ok c => return c
  | .error e => throw (.text e)

/-- Loads the configuration of a user, which is the standard one if none is stored. -/
def load (home : Option Path) : StorageM Config := do
  let path ← defaultPath home
  if (← get).exists? path then loadFrom path else return standard

/-- Stores a configuration at a path. -/
def saveTo (c : Config) (path : Path) : StorageM Unit :=
  onFile path do
    FileM.makeParents path
    FileM.write path (.ofText c.toToml)

/-- Stores the standard configuration unless there is something at the path. Says whether it did. -/
def initAt (path : Path) : StorageM Bool := do
  if (← get).exists? path then return false
  standard.saveTo path
  return true

/-- Stores the standard configuration for a user who has none, and says where it is kept. -/
def init (home : Option Path) : StorageM Path := do
  let path ← defaultPath home
  let _ ← initAt path
  return path

/-- Checks a configuration before it is put to use. -/
def ensureValid (c : Config) : Except ConfigError Unit :=
  match c.check with
  | .ok () => .ok ()
  | .error v => .error (.invalid v)

end Config

end RpcPool

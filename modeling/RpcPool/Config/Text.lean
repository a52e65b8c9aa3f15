import RpcPool.Config.Reader
import RpcPool.Config.Writer
import RpcPool.Toml.Parser
import RpcPool.Toml.Printer

/-!
# Configurations as text

The text of a configuration is a TOML document.
-/

namespace RpcPool

namespace Config

/-- Why a text is not a configuration. -/
inductive TextError
  /-- It is not a TOML document. -/
  | notToml
  | mismatch (m : Data.Mismatch)
  deriving DecidableEq, Repr

/-- The text of a configuration. -/
def toToml (c : Config) : String := Toml.print c.toData

/-- The configuration that a text holds. -/
def ofToml (text : String) : Except TextError Config :=
  match Toml.parse? text with
  | none => .error .notToml
  | some data =>
    match read Toml.dialect data with
    | .error m => .error (.mismatch m)
    | .ok c => .ok c

end Config

end RpcPool

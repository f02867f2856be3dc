import Moorland.Document.Codec
import Moorland.Document.Toml.Reader
/-!
# Configuration files

A configuration file is a TOML document. Its text is read, merged over the defaults, and checked:
`Moorland.Configuration.ofToml`. Reading a file may fail before that, because there is no text;
`Moorland.FileFault` holds all the reasons, and `Moorland.FileFault.causes` puts each into words
from the outside in.
-/

namespace Moorland

/-- **Why a text does not give a configuration.** -/
inductive TomlFault
  /-- It is not a document, or not one of a configuration. -/
  | malformed
  /-- The configuration has a fault. -/
  | faulty (fault : ConfigurationFault)
deriving DecidableEq

/-- What a fault of a text says. -/
def TomlFault.message : TomlFault → String
  | malformed => "TOML parse error"
  | faulty fault => fault.message

/-- **The configuration that a text gives.** -/
def Configuration.ofToml (text : String) : Except TomlFault Configuration :=
  match (Toml.read? text).bind (Configuration.read? .toml) with
  | none => .error .malformed
  | some c => c.check.mapError .faulty

/-- **What is found under a path.** -/
inductive FileContent
  /-- A text. -/
  | text (s : String)
  /-- Nothing that can be read, and why. -/
  | unreadable (reason : String)
deriving DecidableEq, Repr

/-- The reason why a path that leads nowhere cannot be read. -/
def noSuchFile : String := "No such file or directory (os error 2)"

/-- **Why a file does not give a configuration.** -/
inductive FileFault
  /-- It cannot be read. -/
  | unreadable (path reason : String)
  /-- Its text does not give a configuration. -/
  | unusable (path : String) (fault : TomlFault)
deriving DecidableEq

/-- What a fault of a file says: what was being done, and what came in the way. -/
def FileFault.causes : FileFault → String × String
  | unreadable path reason => (s!"reading {path}", reason)
  | unusable path fault => (s!"parsing {path}", fault.message)

/-- **The configuration that a file gives.** -/
def Configuration.ofFile (path : String) : FileContent → Except FileFault Configuration
  | .unreadable reason => .error (.unreadable path reason)
  | .text s => (ofToml s).mapError (.unusable path)

end Moorland

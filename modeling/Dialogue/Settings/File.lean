import Dialogue.Failure
import Dialogue.Yaml.Document

/-!
# Settings in a file

The settings are read from a YAML file; where there is none they are all defaults.
-/

namespace Dialogue.Settings

/-- The settings in the content of a file. -/
def ofContent (env : Environment) : Content → Except Failure Settings
  | .text s => do
    let v ← (Yaml.read s).mapError .yaml
    (ofValue env v).mapError .settings
  | _ => .error (.yaml .encoding)

/-- The settings in the file of a path. -/
def load (env : Environment) (path : Path) (files : Files) : Except Failure Settings :=
  match files.content? path with
  | .error fault => .error (.files fault)
  | .ok none => .ok {}
  | .ok (some content) => ofContent env content

end Dialogue.Settings

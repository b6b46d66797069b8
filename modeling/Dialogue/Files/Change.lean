import Dialogue.Run

/-!
# Changing files

Making a directory together with those above it, and writing a file into a directory that is made
for it.  A change that fails half-way leaves what it made before.
-/

namespace Dialogue.Files

/-- The files with a change, or the failure that keeps them as they are. -/
def apply (change : Files → Except Fault Files) : Run Files Unit := fun files =>
  match change files with
  | .ok changed => (.ok (), changed)
  | .error fault => (.error (.files fault), files)

/-- Makes a directory unless there is one. -/
def ensureDirectory (path : Path) : Run Files Unit := fun files =>
  match files.makeDirectory path with
  | .ok changed => (.ok (), changed)
  | .error fault =>
    if files.isDirectory path ∧ fault ≠ .nulCharacter then (.ok (), files)
    else (.error (.files fault), files)

/-- Makes a directory and those above it, unless they are there; the last name of the path comes
first. -/
def ensureAll (root : String) : List String → Run Files Unit
  | [] => Run.pure ()
  | name :: above => fun files =>
    let path : Path := ⟨root, (name :: above).reverse⟩
    match files.makeDirectory path with
    | .error .absent =>
      Run.bind (ensureAll root above) (fun _ => ensureDirectory path) files
    | _ => ensureDirectory path files

/-- Makes a directory and those above it, unless they are there. -/
def ensureDirectories (path : Path) : Run Files Unit := ensureAll path.root path.parts.reverse

/-- Writes a file, and the directories above it where they are missing. -/
def writeBelow (path : Path) (content : Content) : Run Files Unit := do
  ensureDirectories path.parent
  apply fun files => files.write path content

end Dialogue.Files

import Dialogue.Database.Tables
import Dialogue.Files.Path

/-!
# Files

The files of an installation form a tree.  A `Place` is where something lies in it, and a path leads
to a place part by part (`Files.place`): every part but the last has to be a directory that is
there, which is why a path may fail to lead anywhere.  Outside the working directory there are only
the directories above it.
-/

namespace Dialogue

/-- What a file holds: text in UTF-8, bytes that are none, or a database. -/
inductive Content where
  | text (s : String)
  | binary (bytes : ByteArray)
  | database (tables : Database.Tables)

/-- Where something lies: the names on the way from the working directory, two points for every
directory above it, or from the root, which is a slash. -/
abbrev Place := List String

/-- What lies at a place. -/
inductive Node where
  | directory
  | file (content : Content)

/-- The tree of files by place. -/
abbrev Files := Keyed Place Node

namespace Files

/-- Why something cannot be done with a path. -/
inductive Fault where
  | absent
  | notDirectory
  | isDirectory
  | occupied
  | nameTooLong
  | nulCharacter
  deriving DecidableEq, Repr

/-- The wording of a fault of the path itself; the others have none. -/
def Fault.message : Fault → String
  | .nulCharacter => "embedded null byte"
  | _ => ""

/-- What lies at a place.  The working directory, those above it and the root are always there. -/
def node? (files : Files) (place : Place) : Option Node :=
  if place.all (· = "..") ∨ place = ["/"] then some .directory else files.get? place

/-- The place that a part of a path leads to from a directory. -/
def step (place : Place) (part : String) : Place :=
  if part = ".." then
    if place = ["/"] then place
    else if place.all (· = "..") then place ++ [".."]
    else place.dropLast
  else place ++ [part]

/-- The greatest number of bytes of a name. -/
def maxName : Nat := 255

/-- The number of bytes from which on a path is too long. -/
def maxPath : Nat := 4096

/-- Follows the parts of a path from a place. -/
def follow (files : Files) : Place → List String → Except Fault Place
  | place, [] => .ok place
  | place, part :: rest =>
    match files.node? place with
    | none => .error .absent
    | some (.file _) => .error .notDirectory
    | some .directory =>
      if maxName < part.utf8ByteSize then .error .nameTooLong
      else follow files (step place part) rest

/-- The place that a path leads to; there need not be anything there. -/
def place (files : Files) (path : Path) : Except Fault Place :=
  let text := path.text
  if text.toList.contains '\x00' then .error .nulCharacter
  else if maxPath ≤ text.utf8ByteSize then .error .nameTooLong
  else files.follow (if path.root.isEmpty then [] else ["/"]) path.parts

/-- What a path leads to, if anything.  Where the way to it breaks off there is nothing; a name that
no file can have is a fault all the same. -/
def find? (files : Files) (path : Path) : Except Fault (Option Node) :=
  match files.place path with
  | .ok place => .ok (files.node? place)
  | .error .nameTooLong => .error .nameTooLong
  | .error _ => .ok none

/-- Whether a path leads to a directory. -/
def isDirectory (files : Files) (path : Path) : Bool :=
  match files.find? path with
  | .ok (some .directory) => true
  | _ => false

/-- The content of the file that a path leads to, if there is one. -/
def content? (files : Files) (path : Path) : Except Fault (Option Content) :=
  match files.find? path with
  | .error fault => .error fault
  | .ok none => .ok none
  | .ok (some .directory) => .error .isDirectory
  | .ok (some (.file content)) => .ok (some content)

/-- The names of what lies in the directory that a path leads to. -/
def names (files : Files) (path : Path) : Except Fault (List String) :=
  match files.find? path, files.place path with
  | .error fault, _ => .error fault
  | .ok (some .directory), .ok place =>
    .ok (files.filterMap fun e => if e.1.dropLast = place then e.1.getLast? else none)
  | .ok _, _ => .ok []

/-- A directory made where the way leads to it and nothing lies. -/
def makeDirectory (files : Files) (path : Path) : Except Fault Files :=
  match files.place path with
  | .error fault => .error fault
  | .ok place =>
    match files.node? place with
    | some _ => .error .occupied
    | none => .ok (files.set place .directory)

/-- A file written where the way leads to it, over a file that lies there. -/
def write (files : Files) (path : Path) (content : Content) : Except Fault Files :=
  match files.place path with
  | .error fault => .error fault
  | .ok place =>
    match files.node? place with
    | some .directory => .error .isDirectory
    | _ => .ok (files.set place (.file content))

end Files

end Dialogue

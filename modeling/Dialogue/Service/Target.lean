import Dialogue.Service.Host
import Dialogue.Text.Blank
import Dialogue.Text.Half

/-!
# Targets of requests

A client asks for a target relative to the service: a path, and perhaps a scheme and an authority
before it and a query behind it.  `Target.path?` is the path that the service sees.  It starts with
a slash, the parts `.` and `..` are followed, and escapes are resolved, so that a slash that is
written as an escape divides the path, too.

Some targets cannot be asked for: those with a control character or half a surrogate pair, those
whose host looks like an address and is none, those whose port is no number, and those in which a
path without scheme and authority starts with two slashes or a colon.
-/

namespace Dialogue.Service

/-- A target, divided; its query is left out. -/
structure Target where
  scheme : List Char
  authority : List Char
  path : List Char
  deriving DecidableEq, Repr

namespace Target

/-- Whether the character may stand in a scheme. -/
def isSchemeChar (c : Char) : Bool := c.isAlphanum || c == '+' || c == '.' || c == '-'

/-- The scheme before a colon, which may be empty, and what follows. -/
def splitScheme (cs : List Char) : List Char × List Char :=
  let scheme := cs.takeWhile isSchemeChar
  match cs.dropWhile isSchemeChar with
  | ':' :: rest => if (scheme.head?.map Char.isAlpha).getD true then (scheme, rest) else ([], cs)
  | _ => ([], cs)

/-- The authority behind two slashes, and what follows. -/
def splitAuthority : List Char → List Char × List Char
  | '/' :: '/' :: rest => (rest.takeWhile (· != '/'), rest.dropWhile (· != '/'))
  | cs => ([], cs)

/-- Divides a target. -/
def ofChars (cs : List Char) : Target :=
  let (scheme, rest) := splitScheme (cs.takeWhile fun c => c != '?' && c != '#')
  let (authority, path) := splitAuthority rest
  ⟨scheme, authority, path⟩

/-- The host at the start of an authority, up to a colon or a further sign of a user, and what
follows. A host may also stand in square brackets. -/
def splitHost (cs : List Char) : List Char × List Char :=
  let bracketed := Text.dropEndWhile (· != ']') cs
  if cs.head? = some '[' ∧ !bracketed.isEmpty then (bracketed, cs.drop bracketed.length)
  else (cs.takeWhile fun c => c != ':' && c != '@', cs.dropWhile fun c => c != ':' && c != '@')

/-- The parts of an authority: the user, the host and the port. -/
def authorityParts (cs : List Char) : List Char × List Char × List Char :=
  let (user, rest) := match Text.splitFirst '@' cs with
    | (user, some rest) => (user, rest)
    | (rest, none) => ([], rest)
  let (host, rest) := splitHost rest
  (user, host, match rest with
    | ':' :: port => port
    | port => port)

/-- Whether a client can ask for the target. -/
def isValid (t : Target) : Bool :=
  let (user, host, port) := authorityParts t.authority
  let free := t.scheme.isEmpty && user.isEmpty && host.isEmpty && port.isEmpty
  Host.isValid host && (port.isEmpty || (Text.integer? (String.ofList port)).isSome) &&
    !(free && ("//".toList.isPrefixOf t.path || ":".toList.isPrefixOf t.path))

/-- The path from the root.  Behind a scheme and a host it is taken as it is. -/
def rooted (t : Target) : List Char :=
  let (_, host, _) := authorityParts t.authority
  if t.scheme.isEmpty || host.isEmpty || t.path.isEmpty then '/' :: t.path.dropWhile (· = '/')
  else t.path

/-- The parts of a path without those that are a point or two; two points take the part before them
away. -/
def dropDots (parts : List (List Char)) : List (List Char) :=
  if parts.contains ['.'] || parts.contains ['.', '.'] then
    parts.foldl (fun acc part =>
      if part = ['.'] then acc
      else if part = ['.', '.'] then (if acc = [] ∨ acc = [[]] then acc else acc.dropLast)
      else acc ++ [part]) []
  else parts

/-- Whether the character is a control character of ASCII. -/
def isControl (c : Char) : Bool := c.toNat < 32 || c.toNat == 127

/-- The greatest number of characters that a target may have. -/
def maxLength : Nat := 65536

/-- The path that the service sees; none for a target that cannot be asked for. -/
def path? (target : String) : Option (List Char) :=
  let cs := target.toList
  let t := ofChars cs
  if maxLength < cs.length || cs.any isControl || cs.any Text.isHalf || !t.isValid then none
  else some (Text.percentDecode (['/'].intercalate (dropDots (Text.splitOn '/' t.rooted))))

end Target

end Dialogue.Service

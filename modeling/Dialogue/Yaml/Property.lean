import Dialogue.Text.Digit
import Dialogue.Yaml.Scalar

/-!
# Anchors, tags and directives

An anchor names a node, a tag says what kind of value it is, and a directive at the start of a
document gives a handle for tags its meaning.  A tag is written as a handle and a suffix, or as a
suffix alone between angle brackets; a lone exclamation mark is a suffix, too.
-/

namespace Dialogue.Yaml

/-- A directive: the version of the language, the meaning of a handle, or one that is not known. -/
inductive Directive where
  | version (major : Nat)
  | handle (name meaning : String)
  | other
  deriving DecidableEq, Repr

/-- A tag as it is written. -/
structure RawTag where
  handle : Option String
  suffix : String
  deriving DecidableEq, Repr

/-- The name after the sign of an anchor or an alias. -/
def anchorName (c : Cursor) : Except Fault (String × Cursor) :=
  let (name, c) := c.advance.takeWhile isNameChar
  let ends := isGap c.peek? || c.peek?.any "?:,]\x7d%@`".toList.contains
  if name.isEmpty ∨ !ends then .error .token else .ok (String.ofList name, c)

/-! ## Tags -/

/-- The characters of a suffix. -/
def isTagChar (c : Char) : Bool := isNameChar c || "-;/?:@&=+$,_.!~*'()[]%".toList.contains c

/-- The bytes that escapes write, and the position after the last one. -/
def tagEscapes : Nat → Cursor → Except Fault (List UInt8 × Cursor)
  | 0, c => .ok ([], c)
  | fuel + 1, c =>
    if c.peek? = some '%' then do
      let (n, c) ← hexNumber 2 c.advance
      let (more, c) ← tagEscapes fuel c
      return (UInt8.ofNat n :: more, c)
    else .ok ([], c)

/-- The characters of a suffix with its escapes resolved. -/
def tagChars : Nat → Cursor → Except Fault (List Char × Cursor)
  | 0, c => .ok ([], c)
  | fuel + 1, c =>
    match c.peek? with
    | some '%' => do
      let (bytes, c) ← tagEscapes (c.rest.length + 1) c
      match String.fromUTF8? ⟨bytes.toArray⟩ with
      | some text => do
        let (more, c) ← tagChars fuel c
        return (text.toList ++ more, c)
      | none => .error .token
    | some x =>
      if isTagChar x then do
        let (more, c) ← tagChars fuel c.advance
        return (x :: more, c)
      else .ok ([], c)
    | none => .ok ([], c)

/-- A suffix that is not empty. -/
def tagSuffix (c : Cursor) : Except Fault (String × Cursor) := do
  let (text, next) ← tagChars (c.rest.length + 1) c
  if next.index = c.index then .error .token else return (String.ofList text, next)

/-- A handle: an exclamation mark, or a name between two. -/
def tagHandle (c : Cursor) : Except Fault (String × Cursor) :=
  if c.peek? ≠ some '!' then .error .token
  else if isBlank c.second? then .ok ("!", c.advance)
  else
    let (name, next) := c.advance.takeWhile isNameChar
    if next.peek? = some '!' then .ok (String.ofList ('!' :: name ++ ['!']), next.advance)
    else .error .token

/-- Whether a second exclamation mark stands in the word. -/
def hasHandle (c : Cursor) : Bool :=
  (c.advance.rest.takeWhile fun x => !isWordEnd (some x)).contains '!'

/-- A tag, at its exclamation mark. -/
def rawTag (c : Cursor) : Except Fault (RawTag × Cursor) := do
  let (tag, c) ←
    if c.second? = some '<' then do
      let (suffix, c) ← tagSuffix (c.advanceBy 2)
      if c.peek? = some '>' then pure (⟨none, suffix⟩, c.advance) else .error .token
    else if isGap c.second? then pure (⟨none, "!"⟩, c.advance)
    else do
      let (handle, c) ← if hasHandle c then tagHandle c else pure ("!", c.advance)
      let (suffix, c) ← tagSuffix c
      pure (⟨some handle, suffix⟩, c)
  if isWordEnd c.peek? then return (tag, c) else .error .token

/-! ## Directives -/

/-- A number in decimal digits. -/
def versionNumber (c : Cursor) : Except Fault (Nat × Cursor) :=
  let (ds, c) := c.takeWhile Char.isDigit
  if ds.isEmpty then .error .token else .ok (Text.ofNumerals ds, c)

/-- Goes on where a word ends. -/
def wordEnd (c : Cursor) : Except Fault Cursor :=
  if isWordEnd c.peek? then .ok c else .error .token

/-- What follows the name of a directive. -/
def directiveBody (name : String) (c : Cursor) : Except Fault (Directive × Cursor) := do
  if name = "YAML" then
    let (major, c) ← versionNumber c.skipBlanks
    if c.peek? = some '.' then
      let (_, c) ← versionNumber c.advance
      return (.version major, ← wordEnd c)
    else .error .token
  else if name = "TAG" then
    let (handle, c) ← tagHandle c.skipBlanks
    if isBlank c.peek? then
      let (meaning, c) ← tagSuffix c.skipBlanks
      return (.handle handle meaning, ← wordEnd c)
    else .error .token
  else return (.other, c.skipWhile fun x => !isBreak x)

/-- A directive, at its percent sign, up to the end of its line. -/
def directive (c : Cursor) : Except Fault (Directive × Cursor) := do
  let (name, c) := c.advance.takeWhile isNameChar
  if name.isEmpty then .error .token
  else
    let (d, c) ← directiveBody (String.ofList name) (← wordEnd c)
    return (d, ← c.endOfLine)

end Dialogue.Yaml

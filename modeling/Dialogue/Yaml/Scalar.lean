import Dialogue.Text.Half
import Dialogue.Yaml.Cursor

/-!
# Scalars

A scalar is written plainly, between quotes, or as a block of lines.  Lines of a plain or quoted
scalar are folded: a single line break reads as a blank, and of several the first one is dropped.
Each reader returns the text of the scalar and the position after it.

The readers go in steps of at least one character; their first argument bounds the steps.
-/

namespace Dialogue.Yaml

/-- What stands for a line break and the empty lines after it in folded text. -/
def fold (x : Char) (breaks : List Char) : List Char :=
  if x ≠ '\n' then x :: breaks else if breaks.isEmpty then [' '] else breaks

/-! ## Plain scalars -/

/-- The number of characters of a plain scalar up to white space or the end of the scalar. -/
def runLength (inFlow : Bool) : List Char → Nat
  | [] => 0
  | x :: rest =>
    let after := rest.head?
    let ends := isGap (some x) ||
      (x == ':' && (isGap after || inFlow && after.any ",[]\x7b\x7d".toList.contains)) ||
      (inFlow && ",?[]\x7b\x7d".toList.contains x)
    if ends then 0 else runLength inFlow rest + 1

/-- Line breaks and blanks between them; none where the start or end of a document follows a break.
-/
def plainBreaks : Nat → Cursor → Option (List Char) × Cursor
  | 0, c => (some [], c)
  | fuel + 1, c =>
    if isBlank c.peek? then plainBreaks fuel c.advance
    else
      match c.lineBreak? with
      | none => (some [], c)
      | some (x, c) =>
        if c.atDocumentMark then (none, c)
        else
          let (more, c) := plainBreaks fuel c
          (more.map (x :: ·), c)

/-- White space in a plain scalar: what it stands for, whether it holds a line break, and the
position after it.  Nothing stands for it where a document ends. -/
def plainSpace (c : Cursor) : List Char × Bool × Cursor :=
  let (blanks, c) := c.takeWhile (· = ' ')
  match c.lineBreak? with
  | none => (blanks, false, c)
  | some (x, c) =>
    if c.atDocumentMark then ([], true, c)
    else
      match plainBreaks c.rest.length c with
      | (none, c) => ([], true, c)
      | (some breaks, c) => (fold x breaks, true, c)

/-- The runs of a plain scalar.  `space` is what stands before the next run, and `crossed` says
whether it holds a line break. -/
def plainRuns (inFlow : Bool) (indent : Int) :
    Nat → List Char → Bool → Cursor → List Char × Bool × Cursor
  | 0, _, crossed, c => ([], crossed, c)
  | fuel + 1, space, crossed, c =>
    let n := runLength inFlow c.rest
    if n = 0 ∨ c.peek? = some '#' then ([], crossed, c)
    else
      let (run, c) := c.take n
      let (next, crossed, c) := plainSpace c
      if next.isEmpty ∨ (!inFlow ∧ (c.column : Int) < indent) then (space ++ run, crossed, c)
      else
        let (more, crossed, c) := plainRuns inFlow indent fuel next crossed c
        (space ++ run ++ more, crossed, c)

/-- A plain scalar: its text, whether a line break comes after it, and the position after that.
Outside of brackets its lines have to be indented by more than the block around it. -/
def plainText (inFlow : Bool) (indent : Int) (c : Cursor) : List Char × Bool × Cursor :=
  plainRuns inFlow (indent + 1) (c.rest.length + 1) [] false c

/-! ## Quoted scalars -/

/-- The escapes of one character. -/
def escapes : List (Char × Char) :=
  [('0', '\x00'), ('a', '\x07'), ('b', '\x08'), ('t', '\t'), ('\t', '\t'), ('n', '\n'),
   ('v', '\x0b'), ('f', '\x0c'), ('r', '\x0d'), ('e', '\x1b'), (' ', ' '), ('"', '"'),
   ('\\', '\\'), ('/', '/'), ('N', '\u0085'), ('_', '\u00a0'), ('L', '\u2028'), ('P', '\u2029')]

/-- The number of hexadecimal digits after an escape for any character. -/
def escapeWidth? (x : Char) : Option Nat :=
  if x = 'x' then some 2 else if x = 'u' then some 4 else if x = 'U' then some 8 else none

/-- The character of a number. -/
def charOf (n : Nat) : Except Fault Char :=
  if n < 0x110000 then .ok (Text.ofCodePoint n)
  else .error (.range "chr() arg not in range(0x110000)")

/-- The number in exactly so many hexadecimal digits, and the position after them. -/
def hexNumber (width : Nat) (c : Cursor) : Except Fault (Nat × Cursor) :=
  let (ds, next) := c.take width
  match ds.mapM Text.hexValue? with
  | some vs =>
    if vs.length = width then .ok (vs.foldl (fun n v => 16 * n + v) 0, next) else .error .token
  | none => .error .token

/-- Line breaks in a quoted scalar with the white space around them.  No document may start or end
there. -/
def quotedBreaks : Nat → Cursor → Except Fault (List Char × Cursor)
  | 0, c => .ok ([], c)
  | fuel + 1, c =>
    if c.atDocumentMark then .error .token
    else
      let c := c.skipSpaces
      match c.lineBreak? with
      | none => .ok ([], c)
      | some (x, c) => do
        let (more, c) ← quotedBreaks fuel c
        return (x :: more, c)

/-- White space in a quoted scalar: what it stands for and the position after it. -/
def quotedSpace (c : Cursor) : Except Fault (List Char × Cursor) := do
  let (spaces, c) := c.takeWhile fun x => isSpace (some x)
  match c.lineBreak? with
  | none => if c.rest.isEmpty then .error .token else return (spaces, c)
  | some (x, c) =>
    let (breaks, c) ← quotedBreaks (c.rest.length + 1) c
    return (fold x breaks, c)

/-- What an escape stands for, at the position after its backslash.  An escaped line break stands
for nothing. -/
def escape (c : Cursor) : Except Fault (List Char × Cursor) :=
  match c.peek? with
  | none => .error .token
  | some x =>
    match escapes.lookup x, escapeWidth? x with
    | some y, _ => .ok ([y], c.advance)
    | none, some width => do
      let (n, c) ← hexNumber width c.advance
      return ([← charOf n], c)
    | none, none =>
      if isBreak x then quotedBreaks c.rest.length c.advance else .error .token

/-- The rest of a quoted scalar, and the position after the closing quote.  Only double quotes know
escapes; in single quotes a quote is written twice. -/
def quotedRest (double : Bool) : Nat → Cursor → Except Fault (List Char × Cursor)
  | 0, _ => .error .token
  | fuel + 1, c => do
    match c.peek? with
    | none => .error .token
    | some x =>
      if isGap (some x) then
        let (text, c) ← quotedSpace c
        let (more, c) ← quotedRest double fuel c
        return (text ++ more, c)
      else if double ∧ x = '\\' then
        let (text, c) ← escape c.advance
        let (more, c) ← quotedRest double fuel c
        return (text ++ more, c)
      else if !double ∧ x = '\'' ∧ c.second? = some '\'' then
        let (more, c) ← quotedRest double fuel (c.advanceBy 2)
        return (x :: more, c)
      else if x = (if double then '"' else '\'') then return ([], c.advance)
      else
        let (more, c) ← quotedRest double fuel c.advance
        return (x :: more, c)

/-- A quoted scalar, at its opening quote. -/
def quotedText (double : Bool) (c : Cursor) : Except Fault (List Char × Cursor) :=
  quotedRest double (c.rest.length + 1) c.advance

/-! ## Blocks of lines -/

/-- What becomes of the line breaks at the end of a block: by default one stays. -/
inductive Chomping where
  | clip
  | strip
  | keep
  deriving DecidableEq, Repr

/-- The chomping that a sign asks for, and the position after it. -/
def chomping? (c : Cursor) : Option (Chomping × Cursor) :=
  match c.peek? with
  | some '+' => some (.keep, c.advance)
  | some '-' => some (.strip, c.advance)
  | _ => none

/-- The indentation that a digit asks for, and the position after it; none without a digit. -/
def increment (c : Cursor) : Except Fault (Option Nat × Cursor) :=
  match c.peek? with
  | some x =>
    if x = '0' then .error .token
    else if x.isDigit then .ok (some (x.toNat - 48), c.advance)
    else .ok (none, c)
  | none => .ok (none, c)

/-- The chomping and the indentation in the header of a block, in either order. -/
def blockHeader (c : Cursor) : Except Fault (Chomping × Option Nat × Cursor) := do
  let (chomping, more, c) ← match chomping? c with
    | some (chomping, c) => do
      let (more, c) ← increment c
      pure (chomping, more, c)
    | none => do
      let (more, c) ← increment c
      match more, chomping? c with
      | some n, some (chomping, c) => pure (chomping, some n, c)
      | more, _ => pure (.clip, more, c)
  if isWordEnd c.peek? then return (chomping, more, ← c.endOfLine) else .error .token

/-- The empty lines at the start of a block, the greatest indentation among them and the first line
that holds something, and the position there. -/
def blockIndent : Nat → Nat → Cursor → List Char × Nat × Cursor
  | 0, most, c => ([], most, c)
  | fuel + 1, most, c =>
    match c.lineBreak? with
    | some (x, c) =>
      let (more, most, c) := blockIndent fuel most c
      (x :: more, most, c)
    | none =>
      if isBlank c.peek? then blockIndent fuel (max most c.advance.column) c.advance
      else ([], most, c)

/-- The position after the blanks of an indentation, as far as they go. -/
def skipIndent (indent : Nat) : Nat → Cursor → Cursor
  | 0, c => c
  | fuel + 1, c =>
    if c.column < indent ∧ isBlank c.peek? then skipIndent indent fuel c.advance else c

/-- The empty lines before the next line of a block, and the position in that line. -/
def blockBreaks (indent : Nat) : Nat → Cursor → List Char × Cursor
  | 0, c => ([], c)
  | fuel + 1, c =>
    let c := skipIndent indent indent c
    match c.lineBreak? with
    | none => ([], c)
    | some (x, c) =>
      let (more, c) := blockBreaks indent fuel c
      (x :: more, c)

/-- The lines of a block: their text, the line break after the last one, the empty lines after that
and the position after them.  In a folded block a line break between two lines that start with no
white space reads as a blank. -/
def blockLines (folded : Bool) (indent : Nat) :
    Nat → List Char → Cursor → List Char × List Char × List Char × Cursor
  | 0, breaks, c => ([], [], breaks, c)
  | fuel + 1, breaks, c =>
    let atLine (c : Cursor) : Bool := c.column == indent && !c.rest.isEmpty
    if atLine c then
      let spaced := isSpace c.peek?
      let (line, c) := c.takeWhile fun x => !isBreak x
      let (last, c) := c.lineBreak
      let (next, c) := blockBreaks indent (c.rest.length + 1) c
      if atLine c then
        let between :=
          if folded ∧ last = ['\n'] ∧ !spaced ∧ !isSpace c.peek? then
            (if next.isEmpty then [' '] else [])
          else last
        let (more, last, next, c) := blockLines folded indent fuel next c
        (breaks ++ line ++ between ++ more, last, next, c)
      else (breaks ++ line, last, next, c)
    else ([], [], breaks, c)

/-- A block of lines, at the sign that announces it, inside a block of the given indentation. -/
def blockText (folded : Bool) (indent : Int) (c : Cursor) : Except Fault (List Char × Cursor) := do
  let (chomping, more, c) ← blockHeader c.advance
  let least := max 1 (indent + 1).toNat
  let (breaks, indent, c) := match more with
    | some n =>
      let (breaks, c) := blockBreaks (least + n - 1) (c.rest.length + 1) c
      (breaks, least + n - 1, c)
    | none =>
      let (breaks, most, c) := blockIndent c.rest.length 0 c
      (breaks, max least most, c)
  let (text, last, breaks, c) := blockLines folded indent (c.rest.length + 1) breaks c
  match chomping with
  | .clip => return (text ++ last, c)
  | .strip => return (text, c)
  | .keep => return (text ++ last ++ breaks, c)

end Dialogue.Yaml

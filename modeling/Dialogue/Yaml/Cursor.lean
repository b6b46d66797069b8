/-!
# Reading positions in a YAML text

A `Cursor` stands before a character of a text and knows its index, its line and its column, by
which YAML tells blocks apart.  The end of the text counts as the end of a line.

Lines end at a line feed or at one of the three line breaks of Unicode; a carriage return never
reaches a cursor.
-/

/-! ## What is wrong with a YAML text

Reading a text goes from characters to tokens, from tokens to nodes and from nodes to values; a
fault tells where the reading ends.
-/

namespace Dialogue.Yaml

/-- What is wrong with a YAML text: its bytes are no text, it holds a character that may not stand
there, it does not divide into tokens, the tokens form no document, references between its nodes do
not fit, a node is no value, or the text of a value is out of range. -/
inductive Fault where
  | encoding
  | character
  | token
  | grammar
  | reference
  | value
  | range (message : String)
  deriving DecidableEq, Repr

/-- The wording of a fault of a value out of range; the others have none. -/
def Fault.message : Fault → String
  | .range message => message
  | _ => ""

/-! ## Positions -/

/-- A position: the text from there on, and where that is. -/
structure Cursor where
  rest : List Char
  index : Nat := 0
  line : Nat := 0
  column : Nat := 0
  deriving Repr

/-- Whether the character ends a line. -/
def isBreak (c : Char) : Bool :=
  c == '\n' || c.toNat == 0x85 || c.toNat == 0x2028 || c.toNat == 0x2029

/-- Whether the character, if there is one, is a blank. -/
def isBlank (c : Option Char) : Bool := c == some ' '

/-- Whether the character, if there is one, is a blank or a tab. -/
def isSpace (c : Option Char) : Bool := c == some ' ' || c == some '\t'

/-- Whether a line ends here. -/
def isLineEnd (c : Option Char) : Bool := c.all isBreak

/-- Whether a line or a word before a blank ends here. -/
def isWordEnd (c : Option Char) : Bool := isLineEnd c || isBlank c

/-- Whether a line or a word before white space ends here. -/
def isGap (c : Option Char) : Bool := isLineEnd c || isSpace c

/-- Whether the character may stand in the name of an anchor. -/
def isNameChar (c : Char) : Bool := c.isAlphanum || c == '-' || c == '_'

namespace Cursor

/-- The next character; none at the end. -/
def peek? (c : Cursor) : Option Char := c.rest.head?

/-- The character after the next one. -/
def second? (c : Cursor) : Option Char := c.rest[1]?

/-- The position after the next character.  The mark of the encoding takes no column. -/
def advance (c : Cursor) : Cursor :=
  match c.rest with
  | [] => c
  | x :: rest =>
    let index := c.index + 1
    if isBreak x then ⟨rest, index, c.line + 1, 0⟩
    else if x.toNat = 0xFEFF then ⟨rest, index, c.line, c.column⟩
    else ⟨rest, index, c.line, c.column + 1⟩

/-- The position a number of characters later. -/
def advanceBy (c : Cursor) : Nat → Cursor
  | 0 => c
  | n + 1 => c.advance.advanceBy n

/-- A number of characters, and the position after them. -/
def take (c : Cursor) (n : Nat) : List Char × Cursor := (c.rest.take n, c.advanceBy n)

/-- The characters up to the first one that is not of a class, and the position there. -/
def takeWhile (c : Cursor) (p : Char → Bool) : List Char × Cursor :=
  c.take (c.rest.takeWhile p).length

/-- The first position whose character is not of a class. -/
def skipWhile (c : Cursor) (p : Char → Bool) : Cursor := (c.takeWhile p).2

/-- The position after blanks. -/
def skipBlanks (c : Cursor) : Cursor := c.skipWhile (· = ' ')

/-- The position after blanks and tabs. -/
def skipSpaces (c : Cursor) : Cursor := c.skipWhile fun x => isSpace (some x)

/-- The end of the line if a comment starts here. -/
def skipComment (c : Cursor) : Cursor :=
  if c.peek? = some '#' then c.skipWhile fun x => !isBreak x else c

/-- A line break and the position after it.  Breaks of lines are read as line feeds, those of longer
parts as themselves. -/
def lineBreak? (c : Cursor) : Option (Char × Cursor) :=
  match c.peek? with
  | some x =>
    if isBreak x then some (if x.toNat < 0x2028 then '\n' else x, c.advance) else none
  | none => none

/-- The line break, if there is one, and the position after it. -/
def lineBreak (c : Cursor) : List Char × Cursor :=
  match c.lineBreak? with
  | some (x, next) => ([x], next)
  | none => ([], c)

/-! ## Marks and ends of lines -/

/-- Whether the line goes on with three of a character and a gap. -/
def atMark (c : Cursor) (x : Char) : Bool := c.rest.take 3 == [x, x, x] && isGap c.rest[3]?

/-- Whether the line goes on with the start or the end of a document. -/
def atDocumentMark (c : Cursor) : Bool := c.atMark '-' || c.atMark '.'

/-- Blanks, a comment and the end of the line have to follow; the position after them. -/
def endOfLine (c : Cursor) : Except Fault Cursor :=
  let c := c.skipBlanks.skipComment
  if isLineEnd c.peek? then .ok c.lineBreak.2 else .error .token

end Cursor

end Dialogue.Yaml

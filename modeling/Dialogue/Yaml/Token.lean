import Dialogue.Yaml.Property

/-!
# Tokens

A YAML text is divided into tokens.  Blocks are told apart by indentation, so the lexer puts in
tokens for the start and the end of a block.  Whether a node is the key of a mapping shows only at
the colon after it: the lexer remembers where a key might have started on the line (`Candidate`),
one place for every level of brackets, and puts the tokens for key and mapping in there when the
colon comes.

A token is settled once no candidate stands before it.  `tokens` gives the tokens that are settled
before the first fault, and that fault: what reads the tokens meets the fault only when it asks for
more than these.
-/

namespace Dialogue.Yaml

/-- A token. -/
inductive Token where
  | directive (d : Directive)
  | documentStart
  | documentEnd
  | blockSequenceStart
  | blockMappingStart
  | blockEnd
  | flowSequenceStart
  | flowSequenceEnd
  | flowMappingStart
  | flowMappingEnd
  | blockEntry
  | flowEntry
  | key
  | value
  | alias (name : String)
  | anchor (name : String)
  | tag (t : RawTag)
  | scalar (plain : Bool) (text : String)
  | streamEnd
  deriving DecidableEq, Repr

/-- Where a key might have started: the number of the token there, whether it has to be a key, and
the position. -/
structure Candidate where
  number : Nat
  required : Bool
  index : Nat
  line : Nat
  column : Nat
  deriving Repr

/-- The state of the lexer.  `level` counts the brackets that are open, `indent` is the indentation
of the block, −1 outside of blocks, and `indents` are those of the blocks around it.  `mayBeKey`
says whether a key may start here.  The tokens are kept with the latest one first. -/
structure Lexer where
  cursor : Cursor
  level : Int := 0
  indent : Int := -1
  indents : List Int := []
  mayBeKey : Bool := true
  candidates : List (Int × Candidate) := []
  found : List Token := []
  count : Nat := 0
  deriving Repr

namespace Lexer

/-- Whether brackets are open. -/
def inFlow (l : Lexer) : Bool := l.level != 0

/-- The column of the next character. -/
def column (l : Lexer) : Int := l.cursor.column

/-- Adds a token. -/
def emit (l : Lexer) (t : Token) : Lexer := { l with found := t :: l.found, count := l.count + 1 }

/-- Puts a token before the one of a number. -/
def insert (l : Lexer) (number : Nat) (t : Token) : Lexer :=
  let after := l.found.take (l.count - number)
  { l with found := after ++ t :: l.found.drop (l.count - number), count := l.count + 1 }

/-- Goes on a number of characters later. -/
def skip (l : Lexer) (n : Nat) : Lexer := { l with cursor := l.cursor.advanceBy n }

/-- The candidate at the level of brackets. -/
def candidate? (l : Lexer) : Option Candidate := l.candidates.lookup l.level

/-- The state without the candidate at the level of brackets. -/
def forget (l : Lexer) : Lexer :=
  { l with candidates := l.candidates.filter fun e => e.1 != l.level }

/-- Drops the candidate at the level of brackets, which must not have to be a key. -/
def dropCandidate (l : Lexer) : Except Fault Lexer :=
  if (l.candidate?.map (·.required)).getD false then .error .token else .ok l.forget

/-- Remembers that a key might start here. -/
def markCandidate (l : Lexer) : Except Fault Lexer :=
  if l.mayBeKey then do
    let c := l.cursor
    let required := !l.inFlow && l.indent == l.column
    let l ← l.dropCandidate
    return { l with
      candidates := (l.level, ⟨l.count, required, c.index, c.line, c.column⟩) :: l.candidates }
  else .ok l

/-- The number of characters up to which a key may reach. -/
def maxKey : Nat := 1024

/-- Drops the candidates that can be no keys any more: a key does not reach over its line. -/
def dropStale (l : Lexer) : Except Fault Lexer :=
  let stale (k : Candidate) : Bool :=
    k.line != l.cursor.line || maxKey < l.cursor.index - k.index
  if l.candidates.any fun e => e.2.required && stale e.2 then .error .token
  else .ok { l with candidates := l.candidates.filter fun e => !stale e.2 }

/-- Ends the blocks that are indented by more than a column. -/
def closeBlocks (l : Lexer) (column : Int) : Lexer :=
  if l.inFlow then l else close l l.indents
where
  /-- Ends blocks inside those of the given indentations. -/
  close (l : Lexer) : List Int → Lexer
    | [] => l
    | outer :: rest =>
      if column < l.indent then
        close ({ l with indent := outer, indents := rest }.emit .blockEnd) rest
      else l

/-- Starts a block where the column is indented by more than the block around it; says whether it
did. -/
def openBlock (l : Lexer) (column : Int) : Bool × Lexer :=
  if l.indent < column then (true, { l with indent := column, indents := l.indent :: l.indents })
  else (false, l)

/-! ## Finding tokens -/

/-- The position of the next token, and whether a line break comes before it. -/
def nextToken : Nat → Bool → Cursor → Bool × Cursor
  | 0, crossed, c => (crossed, c)
  | fuel + 1, crossed, c =>
    let c := c.skipBlanks.skipComment
    match c.lineBreak? with
    | some (_, c) => nextToken fuel true c
    | none => (crossed, c)

/-- Goes to the next token. -/
def seek (l : Lexer) : Lexer :=
  let c := l.cursor
  let c := if c.index = 0 ∧ c.peek?.any (·.toNat = 0xFEFF) then c.advance else c
  let (crossed, c) := nextToken (c.rest.length + 1) false c
  { l with cursor := c, mayBeKey := l.mayBeKey || (crossed && !l.inFlow) }

/-- Outside of all blocks, where no key may start. -/
def leaveBlocks (l : Lexer) : Except Fault Lexer := do
  return { ← (l.closeBlocks (-1)).dropCandidate with mayBeKey := false }

/-- The end of the text. -/
def streamEnd (l : Lexer) : Except Fault Lexer := do
  return { (← l.leaveBlocks) with candidates := [] }.emit .streamEnd

/-- A directive. -/
def directive (l : Lexer) : Except Fault Lexer := do
  let l ← l.leaveBlocks
  let (d, c) ← Yaml.directive l.cursor
  return { l with cursor := c }.emit (.directive d)

/-- The start or the end of a document. -/
def documentMark (l : Lexer) (t : Token) : Except Fault Lexer := do
  return ((← l.leaveBlocks).skip 3).emit t

/-- An opening bracket. -/
def flowStart (l : Lexer) (t : Token) : Except Fault Lexer := do
  let l ← l.markCandidate
  return ({ l with level := l.level + 1, mayBeKey := true }.skip 1).emit t

/-- A closing bracket. -/
def flowEnd (l : Lexer) (t : Token) : Except Fault Lexer := do
  let l ← l.dropCandidate
  return ({ l with level := l.level - 1, mayBeKey := false }.skip 1).emit t

/-- A comma between brackets. -/
def flowEntry (l : Lexer) : Except Fault Lexer := do
  return ({ (← l.dropCandidate) with mayBeKey := true }.skip 1).emit .flowEntry

/-- A sign that starts an item or a key of a block, and the block itself where it is the first one.
-/
def blockSign (l : Lexer) (start : Token) : Except Fault Lexer :=
  if l.inFlow then .ok l
  else if l.mayBeKey then
    let (opened, l) := l.openBlock l.column
    .ok (if opened then l.emit start else l)
  else .error .token

/-- A dash before an item. -/
def blockEntry (l : Lexer) : Except Fault Lexer := do
  let l ← l.blockSign .blockSequenceStart
  return ({ (← l.dropCandidate) with mayBeKey := true }.skip 1).emit .blockEntry

/-- A question mark before a key. -/
def key (l : Lexer) : Except Fault Lexer := do
  let l ← l.blockSign .blockMappingStart
  return ({ (← l.dropCandidate) with mayBeKey := !l.inFlow }.skip 1).emit .key

/-- A colon.  If a key might have started on its line, it did. -/
def value (l : Lexer) : Except Fault Lexer := do
  let l ← match l.candidate? with
    | some k =>
      let l := l.forget.insert k.number .key
      let (opened, l) := if l.inFlow then (false, l) else l.openBlock k.column
      let l := if opened then l.insert k.number .blockMappingStart else l
      pure { l with mayBeKey := false }
    | none =>
      let l ← l.blockSign .blockMappingStart
      pure { (← l.dropCandidate) with mayBeKey := !l.inFlow }
  return (l.skip 1).emit .value

/-- An alias or an anchor. -/
def reference (l : Lexer) (t : String → Token) : Except Fault Lexer := do
  let l ← l.markCandidate
  let (name, c) ← anchorName l.cursor
  return { l with cursor := c, mayBeKey := false }.emit (t name)

/-- A tag. -/
def tag (l : Lexer) : Except Fault Lexer := do
  let l ← l.markCandidate
  let (t, c) ← rawTag l.cursor
  return { l with cursor := c, mayBeKey := false }.emit (.tag t)

/-- A block of lines. -/
def block (l : Lexer) (folded : Bool) : Except Fault Lexer := do
  let l ← l.dropCandidate
  let (text, c) ← blockText folded l.indent l.cursor
  return { l with cursor := c, mayBeKey := true }.emit (.scalar false (String.ofList text))

/-- A quoted scalar. -/
def quoted (l : Lexer) (double : Bool) : Except Fault Lexer := do
  let l ← l.markCandidate
  let (text, c) ← quotedText double l.cursor
  return { l with cursor := c, mayBeKey := false }.emit (.scalar false (String.ofList text))

/-- A plain scalar. -/
def plain (l : Lexer) : Except Fault Lexer := do
  let l ← l.markCandidate
  let (text, crossed, c) := plainText l.inFlow l.indent l.cursor
  return { l with cursor := c, mayBeKey := crossed }.emit (.scalar true (String.ofList text))

/-- Whether a plain scalar can start with a character before another one. -/
def startsPlain (l : Lexer) (x : Char) (second : Option Char) : Bool :=
  !(isGap (some x) || "-?:,[]\x7b\x7d#&*!|>'\"%@`".toList.contains x) ||
    (!isGap second && (x == '-' || (!l.inFlow && (x == '?' || x == ':'))))

/-- The token that starts at the next character. -/
def dispatch (l : Lexer) : Except Fault Lexer :=
  let c := l.cursor
  let second := c.second?
  let gap := isGap second
  match c.peek? with
  | none => l.streamEnd
  | some x =>
    if x = '%' ∧ c.column = 0 then l.directive
    else if c.column = 0 ∧ c.atMark '-' then l.documentMark .documentStart
    else if c.column = 0 ∧ c.atMark '.' then l.documentMark .documentEnd
    else if x = '[' then l.flowStart .flowSequenceStart
    else if x = '\x7b' then l.flowStart .flowMappingStart
    else if x = ']' then l.flowEnd .flowSequenceEnd
    else if x = '\x7d' then l.flowEnd .flowMappingEnd
    else if x = ',' then l.flowEntry
    else if x = '-' ∧ gap then l.blockEntry
    else if x = '?' ∧ (l.inFlow ∨ gap) then l.key
    else if x = ':' ∧ (l.inFlow ∨ gap) then l.value
    else if x = '*' then l.reference .alias
    else if x = '&' then l.reference .anchor
    else if x = '!' then l.tag
    else if x = '|' ∧ !l.inFlow then l.block false
    else if x = '>' ∧ !l.inFlow then l.block true
    else if x = '\'' then l.quoted false
    else if x = '"' then l.quoted true
    else if l.startsPlain x second then l.plain
    else .error .token

/-- Finds the next token, and the ends of blocks before it. -/
def step (l : Lexer) : Except Fault Lexer := do
  let l ← l.seek.dropStale
  (l.closeBlocks l.column).dispatch

/-- Whether the end of the text was found. -/
def isDone (l : Lexer) : Bool := l.found.head? == some .streamEnd

/-- The tokens before the first candidate. -/
def settled (l : Lexer) : List Token :=
  l.found.reverse.take (l.candidates.foldl (fun n e => min n e.2.number) l.count)

/-- Finds tokens up to the end of the text or a fault. -/
def run : Nat → Lexer → List Token × Option Fault
  | 0, l => (l.settled, none)
  | fuel + 1, l =>
    match l.step with
    | .error fault => (l.settled, some fault)
    | .ok next =>
      if next.isDone then (next.settled, none)
      else
        match next.dropStale with
        | .error fault => (l.settled, some fault)
        | .ok next => run fuel next

end Lexer

/-- The tokens of a text that are settled, and the fault after them. -/
def tokens (cs : List Char) : List Token × Option Fault :=
  Lexer.run (cs.length + 1) { cursor := ⟨cs, 0, 0, 0⟩ }

end Dialogue.Yaml

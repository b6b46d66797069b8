import Dialogue.Yaml.Literal
import Dialogue.Yaml.Token

/-!
# Nodes

The tokens of a document form a tree of nodes: scalars, sequences and mappings, each of a kind.
`Node.read` builds the tree by recursive descent.  An anchor names a node from where it starts, and
an alias stands for the node that was named before it; an alias inside the node that it names is
refused.

Tokens are asked for one by one, so a fault in the text counts only when the tree needs a token
beyond it.  Every step down takes a token or ends in an empty scalar; the first argument of the
readers bounds the steps.
-/

namespace Dialogue.Yaml

/-- A node. -/
inductive Node where
  | scalar (kind : Kind) (text : String)
  | sequence (kind : Kind) (items : List Node)
  | mapping (kind : Kind) (entries : List (Node × Node))
  deriving Repr

/-- What a handle of tags stands for: the standard tags, or a text before the suffix. -/
inductive Handle where
  | standard
  | text (s : String)
  deriving DecidableEq, Repr

/-- What handles stand for where no directive says otherwise. -/
def standardHandles : List (String × Handle) := [("!", .text "!"), ("!!", .standard)]

/-- The state of reading: the tokens that are left, the fault after them, the meaning of handles,
and the nodes that have names; a node that is still open is none. -/
structure Reading where
  tokens : List Token
  fault : Option Fault
  handles : List (String × Handle) := standardHandles
  names : List (String × Option Node) := []

/-- Reading ends in a result or a fault. -/
abbrev Reader := StateT Reading (Except Fault)

namespace Node

/-- The empty node. -/
def empty : Node := .scalar .null ""

/-- The next token. -/
def peek : Reader Token := do
  let r ← get
  match r.tokens with
  | t :: _ => return t
  | [] => throw (r.fault.getD .grammar)

/-- Takes the next token. -/
def next : Reader Token := do
  let t ← peek
  modify fun r => { r with tokens := r.tokens.tail }
  return t

/-- Takes the next token if it is the one given. -/
def accept (t : Token) : Reader Bool := do
  if (← peek) = t then
    let _ ← next
    return true
  else return false

/-- Takes the next token, which has to be the one given. -/
def expect (t : Token) : Reader Unit := do
  unless ← accept t do throw .grammar

/-! ## Names and tags -/

/-- The node of a name. -/
def named (name : String) : Reader Node := do
  match (← get).names.lookup name with
  | some (some node) => return node
  | _ => throw .reference

/-- Gives a name to a node that starts here. -/
def openName (name : Option String) : Reader Unit := do
  match name with
  | none => return
  | some name =>
    if ((← get).names.lookup name).isSome then throw .reference
    modify fun r => { r with names := (name, none) :: r.names }

/-- Says which node a name is for. -/
def closeName (name : Option String) (node : Node) : Reader Node := do
  match name with
  | none => return node
  | some name =>
    modify fun r => { r with names := (name, some node) :: r.names }
    return node

/-- The kind that a tag names; none for the tag that leaves it open. -/
def kindOf (t : RawTag) : Reader (Option Kind) := do
  match t.handle with
  | none => return if t.suffix = "!" then none else some .unknown
  | some handle =>
    match (← get).handles.lookup handle with
    | none => throw .grammar
    | some .standard => return some (.ofName t.suffix)
    | some (.text s) => return if s ++ t.suffix = "!" then none else some .unknown

/-- What stands before a node: its anchor, and its tag; the tag counts as missing where it leaves
the kind open. -/
structure Properties where
  name : Option String := none
  tag : Option (Option Kind) := none

namespace Properties

/-- Whether nothing stands before the node. -/
def isEmpty (p : Properties) : Bool := p.name.isNone && p.tag.isNone

/-- The kind that the tag names. -/
def kind? (p : Properties) : Option Kind := p.tag.join

/-- The kind of a scalar. -/
def scalarKind (p : Properties) (plain : Bool) (text : String) : Kind :=
  match p.tag with
  | none => if plain then .ofPlain text else .text
  | some none => .ofPlain text
  | some (some kind) => kind

end Properties

/-- Reads an anchor. -/
def anchor : Reader (Option String) := do
  match ← peek with
  | .anchor name =>
    let _ ← next
    return some name
  | _ => return none

/-- Reads a tag; what it names is settled later. -/
def tag : Reader (Option RawTag) := do
  match ← peek with
  | .tag t =>
    let _ ← next
    return some t
  | _ => return none

/-- Reads an anchor and a tag in either order. -/
def properties : Reader Properties := do
  let name ← anchor
  let raw ← tag
  let name ← if name.isNone && raw.isSome then anchor else pure name
  match raw with
  | none => return { name }
  | some raw => return { name, tag := some (← kindOf raw) }

/-! ## The tree -/

mutual
/-- Reads a node.  `block` says that it may be a block, and `bare` that it may be the items of a
sequence that is not indented. -/
def read (block bare : Bool) : Nat → Reader Node
  | 0 => throw .grammar
  | fuel + 1 => do
    match ← peek with
    | .alias name =>
      let _ ← next
      named name
    | _ =>
      let p ← properties
      match ← peek with
      | .blockEntry =>
        if bare then
          openName p.name
          closeName p.name (.sequence (p.kind?.getD .sequence) (← bareItems fuel))
        else emptyNode p
      | .scalar plain text =>
        let _ ← next
        openName p.name
        closeName p.name (.scalar (p.scalarKind plain text) text)
      | .flowSequenceStart =>
        openName p.name
        let _ ← next
        closeName p.name (.sequence (p.kind?.getD .sequence) (← flowItems true fuel))
      | .flowMappingStart =>
        openName p.name
        let _ ← next
        closeName p.name (.mapping (p.kind?.getD .mapping) (← flowEntries true fuel))
      | .blockSequenceStart =>
        if block then
          openName p.name
          let _ ← next
          closeName p.name (.sequence (p.kind?.getD .sequence) (← blockItems fuel))
        else emptyNode p
      | .blockMappingStart =>
        if block then
          openName p.name
          let _ ← next
          closeName p.name (.mapping (p.kind?.getD .mapping) (← blockEntries fuel))
        else emptyNode p
      | _ => emptyNode p
where
  /-- The empty scalar, which an anchor or a tag has to announce. -/
  emptyNode (p : Properties) : Reader Node := do
    if p.isEmpty then throw .grammar
    openName p.name
    closeName p.name (.scalar (p.kind?.getD .null) "")

/-- Reads a node unless one of the given tokens follows. -/
def readUnless (stops : List Token) (block bare : Bool) : Nat → Reader Node
  | 0 => throw .grammar
  | fuel + 1 => do
    if stops.contains (← peek) then return empty else read block bare fuel

/-- Reads the items of a block sequence and its end. -/
def blockItems : Nat → Reader (List Node)
  | 0 => throw .grammar
  | fuel + 1 => do
    if ← accept .blockEntry then
      let item ← readUnless [.blockEntry, .blockEnd] true false fuel
      return item :: (← blockItems fuel)
    else
      expect .blockEnd
      return []

/-- Reads the items of a sequence that is not indented. -/
def bareItems : Nat → Reader (List Node)
  | 0 => throw .grammar
  | fuel + 1 => do
    if ← accept .blockEntry then
      let item ← readUnless [.blockEntry, .key, .value, .blockEnd] true false fuel
      return item :: (← bareItems fuel)
    else return []

/-- Reads the entries of a block mapping and its end. -/
def blockEntries : Nat → Reader (List (Node × Node))
  | 0 => throw .grammar
  | fuel + 1 => do
    let stops := [.key, .value, .blockEnd]
    if ← accept .key then
      let key ← readUnless stops true true fuel
      let value ← if ← accept .value then readUnless stops true true fuel else pure empty
      return (key, value) :: (← blockEntries fuel)
    else
      expect .blockEnd
      return []

/-- Reads the items of a sequence between brackets and its end.  A key is a mapping of one entry. -/
def flowItems (first : Bool) : Nat → Reader (List Node)
  | 0 => throw .grammar
  | fuel + 1 => do
    if ← accept .flowSequenceEnd then return []
    else
      unless first do expect .flowEntry
      if ← accept .key then
        let key ← readUnless [.value, .flowEntry, .flowSequenceEnd] false false fuel
        let value ← if ← accept .value then
            readUnless [.flowEntry, .flowSequenceEnd] false false fuel
          else pure empty
        return .mapping .mapping [(key, value)] :: (← flowItems false fuel)
      else if ← accept .flowSequenceEnd then return []
      else
        let item ← read false false fuel
        return item :: (← flowItems false fuel)

/-- Reads the entries of a mapping between braces and its end. -/
def flowEntries (first : Bool) : Nat → Reader (List (Node × Node))
  | 0 => throw .grammar
  | fuel + 1 => do
    if ← accept .flowMappingEnd then return []
    else
      unless first do expect .flowEntry
      if ← accept .key then
        let key ← readUnless [.value, .flowEntry, .flowMappingEnd] false false fuel
        let value ← if ← accept .value then
            readUnless [.flowEntry, .flowMappingEnd] false false fuel
          else pure empty
        return (key, value) :: (← flowEntries false fuel)
      else if ← accept .flowMappingEnd then return []
      else
        let key ← read false false fuel
        return (key, empty) :: (← flowEntries false fuel)
end

end Node

end Dialogue.Yaml

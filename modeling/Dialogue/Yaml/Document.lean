import Dialogue.Value.Key
import Dialogue.Yaml.Node

/-!
# Reading YAML

`Yaml.read` reads a text that holds at most one document.  The text is divided into tokens, the
tokens form a tree of nodes (`document`), and every node stands for a value (`Node.value`).  An
empty text is null.

The entries of a mapping may be taken over from other mappings by a merge key; entries that are
written out win over those.  Of several nodes that stand for nothing the one nearest to the root is
at fault, and of those the first one.
-/

namespace Dialogue.Yaml

/-! ## Documents -/

namespace Node

/-- Reads the directives before a document.  `version` says whether the version was given, and
`handles` are those that were given. -/
def directives : Nat → Bool → List (String × Handle) → Reader Unit
  | 0, _, _ => throw .grammar
  | fuel + 1, version, handles => do
    match ← peek with
    | .directive d =>
      let _ ← next
      match d with
      | .version major =>
        if version ∨ major ≠ 1 then throw .grammar
        directives fuel true handles
      | .handle name meaning =>
        if (handles.lookup name).isSome then throw .grammar
        directives fuel version (handles ++ [(name, .text meaning)])
      | .other => directives fuel version handles
    | _ => modify fun r => { r with handles := handles ++ standardHandles }

/-- Reads the start of a document that is marked, directives included. -/
def start (fuel : Nat) : Reader Unit := do
  directives fuel false []
  expect .documentStart

/-- Reads marks of the end of a document. -/
def ends : Nat → Reader Unit
  | 0 => throw .grammar
  | fuel + 1 => do if ← accept .documentEnd then ends fuel

/-- Whether the token stands between documents. -/
def isOutside : Token → Bool
  | .directive _ | .documentStart | .documentEnd | .streamEnd => true
  | _ => false

/-- Reads a text that holds at most one document; none where it is empty. -/
def document (fuel : Nat) : Reader (Option Node) := do
  let root ← match ← peek with
    | .streamEnd => return none
    | .directive _ | .documentStart => do
      start fuel
      if isOutside (← peek) then pure empty else read true false fuel
    | _ => read true false fuel
  ends fuel
  unless ← accept .streamEnd do
    start fuel
    throw .reference
  return root

/-! ## Values -/

/-- A value that is built from nodes, or a fault and how deep it lies. -/
abbrev Built := Except (Nat × Fault)

/-- Two parts; where both have a fault, the one that lies less deep counts, or else the first. -/
def both {α β : Type} : Built α → Built β → Built (α × β)
  | .ok a, .ok b => .ok (a, b)
  | .ok _, .error f => .error f
  | .error e, .ok _ => .error e
  | .error e, .error f => .error (if f.1 < e.1 then f else e)

/-- Whether the key takes entries over from other mappings. -/
def isMerge : Node → Bool
  | .scalar .merge _ => true
  | _ => false

mutual
/-- Entries can be taken over from mappings and from sequences of mappings only. -/
def canMerge : List (Node × Node) → Bool
  | [] => true
  | (key, v) :: rest => (!isMerge key || isSource v) && canMerge rest

/-- Whether entries can be taken over from a node. -/
def isSource : Node → Bool
  | .mapping _ entries => canMerge entries
  | .sequence _ items => areSources items
  | .scalar _ _ => false

/-- Whether entries can be taken over from mappings. -/
def areSources : List Node → Bool
  | [] => true
  | .mapping _ entries :: rest => canMerge entries && areSources rest
  | _ :: _ => false
end

/-- The value of a key, which must be no collection. -/
def key (depth : Nat) : Node → Built Value
  | .scalar .standard text => .ok (.str text)
  | .scalar kind text => (kind.read text).mapError (depth, ·)
  | _ => .error (depth, .value)

mutual
/-- The value of a node at a depth. -/
def value (depth : Nat) : Node → Built Value
  | .scalar kind text => (kind.read text).mapError (depth, ·)
  | .sequence kind items =>
    if kind = .sequence then (values (depth + 1) items).map .list else .error (depth, .value)
  | .mapping kind entries =>
    if kind ≠ .mapping then .error (depth, .value)
    else if canMerge entries then
      (pairs (depth + 1) entries).map fun (merged, own) =>
        .ofEntries (Value.Entries.ofPairs (merged ++ own))
    else .error (depth + 1, .value)

/-- The values of items. -/
def values (depth : Nat) : List Node → Built (List Value)
  | [] => .ok []
  | item :: rest => (both (value depth item) (values depth rest)).map fun (v, vs) => v :: vs

/-- The entries that a mapping takes over, and its own. -/
def pairs (depth : Nat) :
    List (Node × Node) → Built (List (Value × Value) × List (Value × Value))
  | [] => .ok ([], [])
  | (k, v) :: rest =>
    if isMerge k then
      (both (taken depth v) (pairs depth rest)).map fun (more, merged, own) => (more ++ merged, own)
    else
      (both (both (key depth k) (value depth v)) (pairs depth rest)).map
        fun (entry, merged, own) => (merged, entry :: own)

/-- The entries that are taken over from a node. -/
def taken (depth : Nat) : Node → Built (List (Value × Value))
  | .mapping _ entries => (pairs depth entries).map fun (merged, own) => merged ++ own
  | .sequence _ items => takenAll depth items
  | .scalar _ _ => .error (depth, .value)

/-- The entries that are taken over from several nodes; the first node wins, so it comes last. -/
def takenAll (depth : Nat) : List Node → Built (List (Value × Value))
  | [] => .ok []
  | item :: rest =>
    (both (taken depth item) (takenAll depth rest)).map fun (first, later) => later ++ first
end

end Node

/-! ## Texts -/

/-- Whether the character may stand in a YAML text. -/
def isAllowed (c : Char) : Bool :=
  let n := c.toNat
  n = 0x09 || n = 0x0A || n = 0x0D || (0x20 ≤ n && n ≤ 0x7E) || n = 0x85 ||
    (0xA0 ≤ n && n ≤ 0xFFFD) || 0x10000 ≤ n

/-- The text with every carriage return, and a line feed after it, as one line feed. -/
def plainLines : List Char → List Char
  | '\r' :: '\n' :: rest => '\n' :: plainLines rest
  | '\r' :: rest => '\n' :: plainLines rest
  | c :: rest => c :: plainLines rest
  | [] => []

/-- Reads a text that holds at most one document. -/
def read (s : String) : Except Fault Value := do
  let cs := plainLines s.toList
  if cs.all isAllowed then
    let (ts, fault) := tokens cs
    let (root, _) ← (Node.document (3 * ts.length + 3)).run { tokens := ts, fault }
    match root with
    | none => return .null
    | some node => (node.value 0).mapError (·.2)
  else .error .character

end Dialogue.Yaml

import Dialogue.Text.Digit
import Dialogue.Text.Hex
import Dialogue.Text.Split

/-!
# Hosts

The host in an authority is a name or the address of a machine.  A host that looks like an address
has to be one: four numbers below 256 with points between them, or groups of hexadecimal digits
between colons, in square brackets.  Two colons in a row stand once for groups of zeros.
-/

namespace Dialogue.Service.Host

/-- Whether the text is runs of digits, as many as given and one more, with any one character
between two of them. -/
def isDigitRuns (n : Nat) (cs : List Char) : Bool :=
  match cs with
  | [] => false
  | c :: rest =>
    c.isDigit && (isDigitRuns n rest || rest.isEmpty && n = 0 ||
      (match n, rest with
       | n + 1, _ :: after => isDigitRuns n after
       | _, _ => false))
termination_by cs.length

/-- Whether the text is a number below 256 without leading zeros. -/
def isByte (cs : List Char) : Bool :=
  !cs.isEmpty && cs.length ≤ 3 && cs.all Char.isDigit && (cs.length = 1 || cs.head? != some '0') &&
    Text.ofNumerals cs ≤ 255

/-- Whether the text is four numbers below 256 with points between them. -/
def isFourBytes (cs : List Char) : Bool :=
  let parts := Text.splitOn '.' cs
  parts.length = 4 && parts.all isByte

/-- Whether the text is a group of an address. -/
def isGroup (cs : List Char) : Bool := cs.length ≤ 4 && cs.all fun c => (Text.hexValue? c).isSome

/-- The parts of an address, four bytes at its end counted as two groups. -/
def groups? (cs : List Char) : Option (List (List Char)) :=
  let parts := Text.splitOn ':' cs
  match parts.getLast? with
  | some last =>
    if last.contains '.' then
      if isFourBytes last then some (parts.dropLast ++ [['0'], ['0']]) else none
    else some parts
  | none => none

/-- Whether parts with two colons at a place are an address: a part may be missing only next to
those colons, and they stand for at least one group. -/
def isShortened (parts : List (List Char)) (i : Nat) : Bool :=
  let before := parts.take i
  let after := parts.drop (i + 1)
  let sideOk (side : List (List Char)) (edge : Option (List Char)) : Bool :=
    edge != some [] || side.length = 1
  let count (side : List (List Char)) : Nat := (side.filter fun p => !p.isEmpty).length
  sideOk before before.head? && sideOk after after.getLast? && count before + count after < 8

/-- Whether the text is an address of groups, with a zone behind a percent sign or without one. -/
def isGroups (cs : List Char) : Bool :=
  let (address, zone) := Text.splitFirst '%' cs
  let zoneOk := match zone with
    | some z => !z.isEmpty && !z.contains '%'
    | none => true
  match Text.splitOn ':' address, groups? address with
  | written, some parts =>
    let inner := (parts.drop 1).dropLast
    let gaps := (List.range inner.length).filter fun i => inner[i]? = some []
    zoneOk && 3 ≤ written.length && parts.length ≤ 9 && parts.all isGroup &&
      (match gaps with
       | [] => parts.length = 8 && parts.all fun p => !p.isEmpty
       | [i] => isShortened parts (i + 1)
       | _ => false)
  | _, none => false

/-- Whether a host that looks like an address is one. -/
def isValid (cs : List Char) : Bool :=
  if isDigitRuns 3 cs then isFourBytes cs
  else
    match cs with
    | '[' :: rest => if cs.getLast? = some ']' then isGroups rest.dropLast else true
    | _ => true

end Dialogue.Service.Host

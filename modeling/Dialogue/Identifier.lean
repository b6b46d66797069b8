import Dialogue.Keyed
import Dialogue.Text.Blank
import Dialogue.Text.Case
import Dialogue.Text.Digit
import Dialogue.Value.Display

/-!
# Names and numbers as storage keys

Tenants and flows are stored under safe names: lower case letters, digits, points, low lines and
hyphens, with neither a hyphen nor a point at an end.  Counterparties are stored under the digits of
their phone number, and appear in logs only with all but the last four digits masked.
-/

namespace Dialogue.Identifier

/-- Whether the character may stand in a safe name. -/
def isSafe (c : Char) : Bool :=
  ('a' ≤ c && c ≤ 'z') || ('0' ≤ c && c ≤ '9') || c == '.' || c == '_' || c == '-'

/-- Replaces every stretch of characters that are not safe by one hyphen.  `inGap` says that the
hyphen of the current stretch has been written. -/
def replaceUnsafe (inGap : Bool) : List Char → List Char
  | [] => []
  | c :: rest =>
    if isSafe c then c :: replaceUnsafe false rest
    else if inGap then replaceUnsafe true rest
    else '-' :: replaceUnsafe true rest

/-- Whether the character is trimmed from the ends of a safe name. -/
def isTrimmed (c : Char) : Bool := c == '-' || c == '.'

/-- The safe name of a text. -/
def safeText (s : String) : String :=
  let lowered := Text.lowerChars (Text.stripChars s.toList)
  let cs := Text.trimChars isTrimmed (replaceUnsafe false lowered)
  if cs.isEmpty then "default" else String.ofList cs

/-- The storage key of a tenant or flow name; a name that counts as absent is `default`. -/
def safeName (v : Value) : String :=
  if v.isEmpty then "default" else safeText v.display

/-- The ASCII digits of a phone number, everything else left out. -/
def digits (v : Value) : String :=
  String.ofList (v.displayOrEmpty.toList.filter Text.isAsciiDigit)

/-- Masks all but the last four of some digits; up to four digits are masked altogether. -/
def mask (ds : List Char) : List Char :=
  if ds.length ≤ 4 then List.replicate ds.length '*'
  else '+' :: List.replicate (ds.length - 4) '*' ++ ds.drop (ds.length - 4)

/-- The form in which a phone number appears in logs. -/
def redact (v : Value) : String := String.ofList (mask (digits v).toList)

end Dialogue.Identifier

/-! ## Keys of stored documents

Flows and conversations lie under pairs of storage keys: that of a tenant and that of a flow or a
counterparty.  Lists of what a tenant has are sorted by code points.
-/

namespace Dialogue.Store

/-- The storage keys of a tenant and of a flow or a counterparty. -/
abbrev Key := String × String

/-- The storage key of a flow. -/
def flowKey (tenant name : Value) : Key := (Identifier.safeName tenant, Identifier.safeName name)

/-- Sorts texts by code points. -/
def sortTexts (xs : List String) : List String := xs.mergeSort fun a b => !decide (b < a)

/-- The second parts of the keys that have the given first part, sorted. -/
def listUnder {ν : Type} (tenant : String) (entries : Keyed Key ν) : List String :=
  sortTexts ((Keyed.keys entries).filterMap fun k => if k.1 = tenant then some k.2 else none)

end Dialogue.Store

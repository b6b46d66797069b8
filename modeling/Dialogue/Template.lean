import Dialogue.Condition.Parser
import Dialogue.Value.Display

/-!
# Templates

The text of a step may hold placeholders: two opening braces, white space, the name of a field,
white space, two closing braces.  `Template.parse` divides a text into literal stretches and
placeholders in one pass from left to right, and `Template.render` puts the values of the fields in
their places.  What a value puts in is not looked at again, so only the template decides where
placeholders are.
-/

namespace Dialogue.Template

/-- A stretch of a template. -/
inductive Piece where
  | char (c : Char)
  | field (name : String)
  deriving DecidableEq, Repr

/-- The name in a placeholder that starts the text, and the text after the placeholder. -/
def placeholder? : List Char → Option (List Char × List Char)
  | '\x7b' :: '\x7b' :: rest =>
    let body := rest.dropWhile Text.isBlank
    let name := body.takeWhile isFieldChar
    if name.isEmpty then none
    else
      match (body.dropWhile isFieldChar).dropWhile Text.isBlank with
      | '\x7d' :: '\x7d' :: after => some (name, after)
      | _ => none
  | _ => none

theorem length_dropWhile_le (p : Char → Bool) (cs : List Char) :
    (cs.dropWhile p).length ≤ cs.length := (List.dropWhile_sublist p).length_le

theorem length_lt_of_placeholder? {cs name after : List Char}
    (h : placeholder? cs = some (name, after)) : after.length < cs.length := by
  unfold placeholder? at h
  split at h
  · rename_i rest
    simp only at h
    split at h
    · simp at h
    · split at h
      · rename_i tail heq
        simp only [Option.some.injEq, Prod.mk.injEq] at h
        have h1 := length_dropWhile_le Text.isBlank rest
        have h2 := length_dropWhile_le isFieldChar (rest.dropWhile Text.isBlank)
        have h3 := length_dropWhile_le Text.isBlank
          ((rest.dropWhile Text.isBlank).dropWhile isFieldChar)
        rw [heq] at h3
        rw [← h.2]
        simp only [List.length_cons] at h3 ⊢
        omega
      · simp at h
  · simp at h

/-- The pieces of a text. -/
def pieces : List Char → List Piece
  | [] => []
  | c :: rest =>
    match _found : placeholder? (c :: rest) with
    | some (name, after) =>
      .field (String.ofList name) :: pieces after
    | none => .char c :: pieces rest
termination_by cs => cs.length
decreasing_by
  · exact length_lt_of_placeholder? _found
  · exact Nat.lt_succ_self _

/-- Divides a text into its pieces. -/
def parse (s : String) : List Piece := pieces s.toList

/-- The characters that a piece contributes: a field that is missing or null contributes none. -/
def Piece.render (data : Fields) : Piece → List Char
  | .char c => [c]
  | .field name =>
    match Fields.getD data name with
    | .null => []
    | v => v.display.toList

/-- The text with the values of the fields in the places of the placeholders. -/
def render (s : String) (data : Fields) : String :=
  String.ofList ((parse s).flatMap (·.render data))

end Dialogue.Template

/-!
# Dividing a text at a character

`splitOn` gives the parts between the occurrences of a character, one part more than there are
occurrences.  `splitFirst` divides at the first occurrence only.
-/

namespace Dialogue.Text

/-- The parts of a text between the occurrences of a character. -/
def splitOn (sep : Char) : List Char → List (List Char)
  | [] => [[]]
  | c :: rest =>
    match splitOn sep rest with
    | [] => [[c]]
    | part :: parts => if c = sep then [] :: part :: parts else (c :: part) :: parts

/-- What stands before the first occurrence of a character, and what stands after it if it occurs.
-/
def splitFirst (sep : Char) (cs : List Char) : List Char × Option (List Char) :=
  match cs.dropWhile (· != sep) with
  | _ :: after => (cs.takeWhile (· != sep), some after)
  | [] => (cs, none)

end Dialogue.Text

/-!
# White space

The white space of this library is the Unicode property `White_Space` together with the four
information separators `U+001C` to `U+001F`.  `strip` removes it at both ends of a text, and a text
is blank when nothing is left.

The functions work on lists of characters; the versions on `String` wrap them.  The lemmas at the
end say what trimming leaves: nothing of the class at either end (`head?_trimChars`,
`getLast?_dropEndWhile`), and the same text on a second run (`trimChars_trimChars`).  A stretch of a
class ends where a character outside of it comes next (`takeWhile_append_of_ends`,
`dropWhile_append_of_ends`).
-/

namespace Dialogue.Text

/-- White space: `White_Space` of Unicode and the separators `U+001C` to `U+001F`. -/
def isBlank (c : Char) : Bool :=
  let n := c.toNat
  (9 ≤ n && n ≤ 13) || (28 ≤ n && n ≤ 32) || n == 0x85 || n == 0xA0 || n == 0x1680 ||
  (0x2000 ≤ n && n ≤ 0x200A) || n == 0x2028 || n == 0x2029 || n == 0x202F || n == 0x205F ||
  n == 0x3000

/-- White space that may stand around a number written as text: white space without the information
separators. -/
def isPadding (c : Char) : Bool := isBlank c && !(28 ≤ c.toNat && c.toNat ≤ 31)

/-- The characters without those of a class at the end. -/
def dropEndWhile (p : Char → Bool) (cs : List Char) : List Char :=
  (cs.reverse.dropWhile p).reverse

/-- The characters without those of a class at either end. -/
def trimChars (p : Char → Bool) (cs : List Char) : List Char :=
  dropEndWhile p (cs.dropWhile p)

/-- The characters without white space at either end. -/
def stripChars (cs : List Char) : List Char := trimChars isBlank cs

/-- The text without white space at either end. -/
def strip (s : String) : String := String.ofList (stripChars s.toList)

/-- Whether the text holds nothing but white space. -/
def isBlankText (s : String) : Bool := s.toList.all isBlank

@[simp] theorem dropEndWhile_nil (p : Char → Bool) : dropEndWhile p [] = [] := rfl

theorem dropEndWhile_append_singleton {p : Char → Bool} {c : Char} (cs : List Char)
    (h : p c = false) : dropEndWhile p (cs ++ [c]) = cs ++ [c] := by
  simp [dropEndWhile, h]

theorem getLast?_dropEndWhile {p : Char → Bool} {cs : List Char} {c : Char}
    (h : (dropEndWhile p cs).getLast? = some c) : p c = false := by
  rw [dropEndWhile, List.getLast?_reverse] at h
  have houtside := List.head?_dropWhile_not p cs.reverse
  rw [h] at houtside
  exact houtside

theorem dropEndWhile_prefix (p : Char → Bool) (cs : List Char) : dropEndWhile p cs <+: cs := by
  obtain ⟨taken, h⟩ := List.dropWhile_suffix p (l := cs.reverse)
  exact ⟨taken.reverse, by rw [dropEndWhile, ← List.reverse_append, h, List.reverse_reverse]⟩

theorem head?_trimChars {p : Char → Bool} {cs : List Char} {c : Char}
    (h : (trimChars p cs).head? = some c) : p c = false := by
  obtain ⟨rest, hrest⟩ := dropEndWhile_prefix p (cs.dropWhile p)
  have head : (cs.dropWhile p).head? = some c := by
    rw [trimChars] at h
    rw [← hrest, List.head?_append, h, Option.some_or]
  have houtside := List.head?_dropWhile_not p cs
  rw [head] at houtside
  exact houtside

theorem trimChars_eq_self {p : Char → Bool} {cs : List Char}
    (hfirst : ∀ c, cs.head? = some c → p c = false)
    (hlast : ∀ c, cs.getLast? = some c → p c = false) : trimChars p cs = cs := by
  have hfront : cs.dropWhile p = cs := by
    cases cs with
    | nil => rfl
    | cons c rest => simp [hfirst c rfl]
  rw [trimChars, hfront]
  rcases List.eq_nil_or_concat cs with hnil | ⟨init, c, rfl⟩
  · simp [hnil]
  · rw [List.concat_eq_append]
    exact dropEndWhile_append_singleton init (hlast c (by simp))

@[simp] theorem trimChars_trimChars (p : Char → Bool) (cs : List Char) :
    trimChars p (trimChars p cs) = trimChars p cs :=
  trimChars_eq_self (fun _ h => head?_trimChars h) (fun _ h => getLast?_dropEndWhile h)

theorem takeWhile_append_of_ends {p : Char → Bool} {cs rest : List Char}
    (hinside : ∀ c ∈ cs, p c = true) (hends : ∀ c, rest.head? = some c → p c = false) :
    (cs ++ rest).takeWhile p = cs := by
  rw [List.takeWhile_append_of_pos hinside]
  cases rest with
  | nil => simp
  | cons c rest => simp [hends c rfl]

theorem dropWhile_append_of_ends {p : Char → Bool} {cs rest : List Char}
    (hinside : ∀ c ∈ cs, p c = true) (hends : ∀ c, rest.head? = some c → p c = false) :
    (cs ++ rest).dropWhile p = rest := by
  rw [List.dropWhile_append_of_pos hinside]
  cases rest with
  | nil => rfl
  | cons c rest => simp [hends c rfl]

end Dialogue.Text

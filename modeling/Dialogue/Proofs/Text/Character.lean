import Dialogue.Text.Blank
import Dialogue.Text.Case
import Dialogue.Text.Digit
import Mathlib.Data.List.Induction
import Mathlib.Data.Nat.Digits.Lemmas

/-!
# Digits, white space and letter case

The number that a list of digits writes is that of `Nat.ofDigits` (`ofDigits_eq`), so it has no more
places than there are digits (`ofDigits_digits_lt`).

White space and the digits of all scripts are told apart by their ranges, and they have no other
case (`lowerChar_of_isBlank`, `lowerChar_of_isDigit`); no letter has a digit or a sign for its lower
case (`le_toNat_of_mem_lowerChar`).  All of this is read off the tables (`tables`).

The lower case of a text depends on more than its characters in one place only: what follows a
capital sigma decides which of two small ones it becomes.  With both taken for one (`plainSigma`),
the lower case of a text is that of its characters one by one (`map_lowerFrom`).
-/

namespace Dialogue.Text

variable {c : Char} {cs : List Char}

/-! ## Digits -/

theorem ofDigits_eq (ks : List Nat) : ofDigits ks = Nat.ofDigits 10 ks.reverse := by
  induction ks using List.reverseRec with
  | nil => rfl
  | append_singleton ks k ih =>
    rw [ofDigits, List.foldl_append, ← ofDigits, ih]
    simp [Nat.ofDigits_cons]
    omega

theorem digit?_lt_ten {k : Nat} (hdigit : digit? c = some k) : k < 10 := by
  obtain ⟨r, -, rfl⟩ := Option.map_eq_some_iff.1 hdigit
  exact Nat.mod_lt _ (by decide)

theorem ofDigits_digits_lt (cs : List Char) : ofDigits (cs.filterMap digit?) < 10 ^ cs.length := by
  have hsmall : ∀ k ∈ (cs.filterMap digit?).reverse, k < 10 := by
    intro k hmem
    obtain ⟨c, -, hdigit⟩ := List.mem_filterMap.1 (List.mem_reverse.1 hmem)
    exact digit?_lt_ten hdigit
  rw [ofDigits_eq]
  calc Nat.ofDigits 10 (cs.filterMap digit?).reverse
      < 10 ^ (cs.filterMap digit?).reverse.length :=
        Nat.ofDigits_lt_base_pow_length (by decide) hsmall
    _ ≤ 10 ^ cs.length := by
      refine Nat.pow_le_pow_right (by decide) ?_
      rw [List.length_reverse]
      exact List.length_filterMap_le _ _

theorem isDigit_iff_covers : isDigit c = true ↔ covers digitRanges c.toNat = true := by
  rw [isDigit, digit?, Option.isSome_map, List.find?_isSome, covers, List.any_eq_true]

/-! ## The tables -/

/-- The white space as ranges of code points. -/
def blankRanges : List (Nat × Nat) :=
  [(9, 13), (28, 32), (0x85, 0x85), (0xA0, 0xA0), (0x1680, 0x1680), (0x2000, 0x200A),
   (0x2028, 0x2028), (0x2029, 0x2029), (0x202F, 0x202F), (0x205F, 0x205F), (0x3000, 0x3000)]

theorem isBlank_iff_covers : isBlank c = true ↔ covers blankRanges c.toNat = true := by
  simp only [isBlank, covers, blankRanges, List.any_cons, List.any_nil, Bool.or_eq_true,
    Bool.and_eq_true, decide_eq_true_eq, beq_iff_eq]
  simp
  omega

/-- The runs of a table move none of the code points in some ranges. -/
def LeaveAlone (runs : List Run) (table : List (Nat × Nat)) : Prop :=
  ∀ r ∈ runs, ∀ t ∈ table, r.last < t.1 ∨ t.2 < r.first

instance (runs : List Run) (table : List (Nat × Nat)) : Decidable (LeaveAlone runs table) :=
  decidable_of_iff
    (runs.all fun r => table.all fun t => Nat.blt r.last t.1 || Nat.blt t.2 r.first) (by
      simp [LeaveAlone, Nat.blt_eq])

theorem LeaveAlone.mapRuns_eq {runs : List Run} {table : List (Nat × Nat)}
    (hapart : LeaveAlone runs table) (hcovered : covers table c.toNat = true) :
    mapRuns runs c = c := by
  obtain ⟨t, hmem, hlow, high⟩ := covers_eq_true_iff.1 hcovered
  have hunmoved : runs.findSome? (·.image? c.toNat) = none := by
    rw [List.findSome?_eq_none_iff]
    intro r hrun
    have := hapart r hrun t hmem
    exact if_neg (by omega)
  rw [mapRuns, hunmoved]

/-- What is read off the tables: white space and digits have no other case, no white space is a
digit, the digits `0` to `9` come before those of other scripts, small letters stand behind the
digits, the points and the capital letters of ASCII, and inside a word there is one small sigma. -/
theorem tables :
    LeaveAlone lowerRuns blankRanges ∧ LeaveAlone lowerRuns digitRanges ∧
      (∀ t ∈ digitRanges, ∀ u ∈ blankRanges, t.2 < u.1 ∨ u.2 < t.1) ∧
      ((0x30, 0x39) ∈ digitRanges ∧ ∀ t ∈ digitRanges, t = (0x30, 0x39) ∨ 0x660 ≤ t.1) ∧
      (∀ r ∈ lowerRuns, 0x61 ≤ r.first + r.shift ∧
        (r.last + r.shift < 0xD800 ∨
          0xDFFF < r.first + r.shift ∧ r.last + r.shift < 0x110000)) ∧
      mapRuns lowerRuns 'Σ' = 'σ' := by
  decide +kernel

theorem isDigit_of_isAsciiDigit (hdigit : isAsciiDigit c = true) : isDigit c = true := by
  obtain ⟨-, -, -, ⟨hmem, -⟩, -⟩ := tables
  simp only [isAsciiDigit, Bool.and_eq_true, decide_eq_true_eq] at hdigit
  exact isDigit_iff_covers.2 (covers_eq_true_iff.2 ⟨(0x30, 0x39), hmem, hdigit⟩)

theorem isDigit_eq_isAsciiDigit (hlow : c.toNat < 0x660) : isDigit c = isAsciiDigit c := by
  obtain ⟨-, -, -, ⟨-, horder⟩, -⟩ := tables
  refine Bool.eq_iff_iff.2 ⟨fun hdigit => ?_, isDigit_of_isAsciiDigit⟩
  obtain ⟨t, hmem, hfirst, hlast⟩ := covers_eq_true_iff.1 (isDigit_iff_covers.1 hdigit)
  rcases horder t hmem with rfl | hother
  · simp only [isAsciiDigit, Bool.and_eq_true, decide_eq_true_eq]
    exact ⟨hfirst, hlast⟩
  · omega

theorem isBlank_of_isDigit (hdigit : isDigit c = true) : isBlank c = false := by
  obtain ⟨-, -, hapart, -⟩ := tables
  refine Bool.eq_false_iff.2 fun hblank => ?_
  obtain ⟨t, hmem, hlow, high⟩ := covers_eq_true_iff.1 (isDigit_iff_covers.1 hdigit)
  obtain ⟨u, hmem', hlow', high'⟩ := covers_eq_true_iff.1 (isBlank_iff_covers.1 hblank)
  have := hapart t hmem u hmem'
  omega

/-! ## Lower case, character by character -/

theorem toNat_ofNat {n : Nat} (hvalid : n.isValidChar) : (Char.ofNat n).toNat = n := by
  rw [Char.ofNat, dif_pos hvalid]
  rfl

theorem toNat_toLower (c : Char) : c.toLower.toNat =
    if 0x41 ≤ c.toNat ∧ c.toNat ≤ 0x5A then c.toNat + 32 else c.toNat := by
  have hcapital : (c.val ≥ 'A'.val ∧ c.val ≤ 'Z'.val) ↔ 0x41 ≤ c.toNat ∧ c.toNat ≤ 0x5A := by
    rw [ge_iff_le, UInt32.le_iff_toNat_le, UInt32.le_iff_toNat_le]
    rfl
  unfold Char.toLower
  split
  · rename_i hletter
    have hbounds := hcapital.1 hletter
    rw [if_pos hbounds]
    show (c.val + ('a'.val - 'A'.val)).toNat = c.val.toNat + 32
    rw [UInt32.toNat_add]
    refine Nat.mod_eq_of_lt ?_
    have hbelow : c.val.toNat ≤ 0x5A := hbounds.2
    have hdistance : ('a'.val - 'A'.val).toNat = 32 := rfl
    omega
  · rename_i hother
    rw [if_neg fun hbounds => hother (hcapital.2 hbounds)]

theorem lowerChar_of_ascii (hascii : c.toNat < 0x80) : lowerChar c = [c.toLower] := by
  rw [lowerChar, if_pos hascii, List.singleton_inj, ← Char.toNat_inj, toNat_toLower]
  have hcapital : 'A' ≤ c ∧ c ≤ 'Z' ↔ 0x41 ≤ c.toNat ∧ c.toNat ≤ 0x5A := Iff.rfl
  by_cases hletter : 'A' ≤ c ∧ c ≤ 'Z'
  · rw [if_pos hletter, if_pos (hcapital.1 hletter), toNat_ofNat (.inl (by omega))]
  · rw [if_neg hletter, if_neg fun hbounds => hletter (hcapital.2 hbounds)]

theorem lowerChar_toLower (c : Char) : lowerChar c.toLower = lowerChar c := by
  have hlower := toNat_toLower c
  have hlower' := toNat_toLower c.toLower
  by_cases hascii : c.toNat < 0x80
  · have hagain : c.toLower.toLower = c.toLower := by
      rw [← Char.toNat_inj, hlower', if_neg]
      split at hlower <;> omega
    rw [lowerChar_of_ascii hascii, lowerChar_of_ascii (by split at hlower <;> omega), hagain]
  · have hother : c.toLower = c := by
      rw [← Char.toNat_inj, hlower, if_neg (by omega)]
    rw [hother]

/-- A character that no run moves is its own lower case. -/
theorem LeaveAlone.lowerChar_eq {table : List (Nat × Nat)} (hapart : LeaveAlone lowerRuns table)
    (hdotted : covers table ('İ').toNat = false) (hcovered : covers table c.toNat = true) :
    lowerChar c = [c] := by
  unfold lowerChar
  split
  · obtain ⟨t, hmem, hlow, high⟩ := covers_eq_true_iff.1 hcovered
    have hcapitals : 0x5A < t.1 ∨ t.2 < 0x41 :=
      hapart ⟨0x41, 0x5A, 1, 32⟩ (by unfold lowerRuns; exact List.mem_cons_self) t hmem
    have hsmall : ¬ ('A' ≤ c ∧ c ≤ 'Z') := by
      intro ⟨hfirst, hlast⟩
      have hfirst' : 0x41 ≤ c.toNat := hfirst
      have hlast' : c.toNat ≤ 0x5A := hlast
      omega
    rw [if_neg hsmall]
  · split
    · rename_i hsame
      rw [hsame, hdotted] at hcovered
      cases hcovered
    · rw [hapart.mapRuns_eq hcovered]

theorem lowerChar_of_isBlank (hblank : isBlank c = true) : lowerChar c = [c] :=
  tables.1.lowerChar_eq (by decide) (isBlank_iff_covers.1 hblank)

theorem lowerChar_of_isDigit (hdigit : isDigit c = true) : lowerChar c = [c] :=
  tables.2.1.lowerChar_eq (by decide) (isDigit_iff_covers.1 hdigit)

theorem le_of_image? {r : Run} {n m : Nat} (hrun : r ∈ lowerRuns) (himage : r.image? n = some m) :
    0x61 ≤ m ∧ m.isValidChar := by
  obtain ⟨-, -, -, -, hsmall, -⟩ := tables
  obtain ⟨hlow, hvalid⟩ := hsmall r hrun
  unfold Run.image? at himage
  split at himage
  · rename_i hinside
    obtain rfl := Option.some.inj himage
    unfold Nat.isValidChar
    omega
  · cases himage

theorem le_toNat_of_mem_lowerChar {d : Char} (hbeyond : 0x80 ≤ c.toNat) (hmem : d ∈ lowerChar c) :
    0x61 ≤ d.toNat := by
  unfold lowerChar at hmem
  rw [if_neg (by omega)] at hmem
  split at hmem
  · rcases List.mem_cons.1 hmem with rfl | hmem
    · decide
    · rw [List.mem_singleton.1 hmem]
      decide
  · obtain rfl := List.mem_singleton.1 hmem
    unfold mapRuns
    split
    · rename_i n himage
      obtain ⟨r, hrun, himage⟩ := List.exists_of_findSome?_eq_some himage
      obtain ⟨hlow, hvalid⟩ := le_of_image? hrun himage
      rw [toNat_ofNat hvalid]
      exact hlow
    · exact Nat.le_trans (by decide) hbeyond

/-! ## The final sigma

What follows a capital sigma decides which small one it becomes.  But for that, lower case goes
character by character.
-/

/-- The final sigma as any other. -/
def plainSigma (c : Char) : Char := if c = 'ς' then 'σ' else c

theorem plainSigma_eq_iff {d : Char} (hnoSigma : d ≠ 'σ') (hnoFinal : d ≠ 'ς') :
    plainSigma c = d ↔ c = d := by
  unfold plainSigma
  split
  · rename_i hsame
    subst hsame
    exact ⟨fun h => absurd h.symm hnoSigma, fun h => absurd h.symm hnoFinal⟩
  · rfl

/-- But for the final sigma, the lower case of a text is that of its characters. -/
theorem map_lowerFrom (inWord : Bool) (cs : List Char) :
    (lowerFrom inWord cs).map plainSigma = cs.flatMap fun c => (lowerChar c).map plainSigma := by
  induction cs generalizing inWord with
  | nil => rfl
  | cons c cs ih =>
    rw [lowerFrom, List.flatMap_cons]
    split
    · rename_i hsigma
      have hsmall : (lowerChar c).map plainSigma = ['σ'] := by
        obtain ⟨-, -, -, -, -, hmoved⟩ := tables
        rw [hsigma, lowerChar, if_neg (by decide), if_neg (by decide), hmoved]
        rfl
      rw [List.map_cons, ih, hsmall, List.singleton_append]
      congr 1
      split <;> rfl
    · rw [List.map_append, ih]

end Dialogue.Text

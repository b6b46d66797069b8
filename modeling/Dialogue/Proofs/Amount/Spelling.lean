import Dialogue.Amount
import Dialogue.Proofs.Text.Character
import Mathlib.Data.List.TakeWhile

/-!
# Spellings of amounts

A text is reduced as a whole: the small letter of a capital sigma depends on the letters around it,
and these may stand behind commas and white space that are taken out afterwards.  The rules of
amounts do not tell the two small letters apart (`ofReduced_map`).  So what is read of a text is
read of its characters one by one (`read?_eq`), where commas and white space leave nothing and both
cases of a letter leave the same.  Two texts of one spelling therefore name the same amount
(`read?_eq_of_spelling_eq`).
-/

namespace Dialogue.Amount

open Text (plainSigma plainSigma_eq_iff)

variable {c : Char} {cs : List Char} {s t : String}

/-! ## From a reduced text on -/

/-- The amount that a reduced text names behind its sign and its currency. -/
def ofBody (body : List Char) : Option Double :=
  (match withUnit? body with
    | some n => some n
    | none => plain? body).filter (·.isPositive)

/-- The amount that a reduced text names. -/
def ofReduced (cs : List Char) : Option Double :=
  if cs.head? = some '-' then none else ofBody (dropCurrency cs)

theorem read?_eq_ofReduced (s : String) : read? s = ofReduced (reduce s) := by
  unfold read? ofReduced
  split
  · rename_i hminus
    rw [hminus]
    rfl
  · rename_i hplus
    have hnoMinus : (reduce s).head? ≠ some '-' := fun hminus => by
      obtain ⟨rest, hstarts⟩ := List.head?_eq_some_iff.1 hminus
      exact hplus rest hstarts
    rw [if_neg hnoMinus]
    rfl

/-! ## The final sigma does not matter -/

theorem not_isDigit_sigma : Text.isDigit 'σ' = false ∧ Text.isDigit 'ς' = false :=
  ⟨Text.isDigit_eq_isAsciiDigit (by decide), Text.isDigit_eq_isAsciiDigit (by decide)⟩

theorem plainSigma_of_isDigit (hdigit : Text.isDigit c = true) : plainSigma c = c := by
  refine if_neg fun hsame => ?_
  rw [hsame, not_isDigit_sigma.2] at hdigit
  cases hdigit

theorem isDigit_plainSigma (c : Char) : Text.isDigit (plainSigma c) = Text.isDigit c := by
  unfold plainSigma
  split
  · rename_i hsame
    rw [hsame, not_isDigit_sigma.1, not_isDigit_sigma.2]
  · rfl

theorem takeWhile_isDigit_map (cs : List Char) :
    (cs.map plainSigma).takeWhile Text.isDigit = cs.takeWhile Text.isDigit := by
  rw [List.takeWhile_map,
    show Text.isDigit ∘ plainSigma = Text.isDigit from funext isDigit_plainSigma]
  exact (List.map_congr_left fun c hmem =>
    plainSigma_of_isDigit (List.mem_takeWhile_imp hmem)).trans (List.map_id _)

theorem dropWhile_isDigit_map (cs : List Char) :
    (cs.map plainSigma).dropWhile Text.isDigit = (cs.dropWhile Text.isDigit).map plainSigma := by
  rw [List.dropWhile_map,
    show Text.isDigit ∘ plainSigma = Text.isDigit from funext isDigit_plainSigma]

theorem splitDecimal_map (cs : List Char) : splitDecimal (cs.map plainSigma) =
    ((splitDecimal cs).1, (splitDecimal cs).2.1, (splitDecimal cs).2.2.map plainSigma) := by
  unfold splitDecimal
  rw [takeWhile_isDigit_map, dropWhile_isDigit_map]
  cases cs.dropWhile Text.isDigit with
  | nil => rfl
  | cons c rest =>
    by_cases hpoint : c = '.'
    · subst hpoint
      have hpoint : plainSigma '.' = '.' := rfl
      simp only [List.map_cons, hpoint, takeWhile_isDigit_map, dropWhile_isDigit_map]
      split <;> simp [hpoint]
    · have hpoint' : plainSigma c ≠ '.' := fun h =>
        hpoint ((plainSigma_eq_iff (by decide) (by decide)).1 h)
      simp [hpoint, hpoint']

theorem map_plainSigma_eq_iff {w : List Char} (hplain : 'σ' ∉ w ∧ 'ς' ∉ w) :
    cs.map plainSigma = w ↔ cs = w := by
  induction w generalizing cs with
  | nil => simp
  | cons d w ih =>
    simp only [List.mem_cons, not_or] at hplain
    obtain ⟨⟨hnoSigma, hothers⟩, hnoFinal, hothers'⟩ := hplain
    cases cs with
    | nil => simp
    | cons c cs =>
      simp only [List.map_cons, List.cons.injEq, ih ⟨hothers, hothers'⟩,
        plainSigma_eq_iff (Ne.symm hnoSigma) (Ne.symm hnoFinal)]

theorem lookup_congr {words : List (String × Nat)} {a b : String}
    (hsame : ∀ word ∈ words, (a == word.1) = (b == word.1)) : words.lookup a = words.lookup b := by
  induction words with
  | nil => rfl
  | cons word words ih =>
    obtain ⟨hfirst, hothers⟩ := List.forall_mem_cons.1 hsame
    rw [List.lookup_cons, List.lookup_cons, hfirst, ih hothers]

theorem unitFactor?_map (cs : List Char) :
    unitFactor? (cs.map plainSigma) = unitFactor? cs := by
  have hplain : ∀ unit ∈ units, 'σ' ∉ unit.1.toList ∧ 'ς' ∉ unit.1.toList := by decide
  refine lookup_congr fun unit hmem => ?_
  rw [Bool.eq_iff_iff, beq_iff_eq, beq_iff_eq, ← String.toList_inj, ← String.toList_inj,
    String.toList_ofList, String.toList_ofList, map_plainSigma_eq_iff (hplain unit hmem)]

theorem withUnit?_map (cs : List Char) : withUnit? (cs.map plainSigma) = withUnit? cs := by
  simp only [withUnit?, splitDecimal_map, unitFactor?_map]

theorem plain?_map (cs : List Char) : plain? (cs.map plainSigma) = plain? cs := by
  have hkept : (cs.map plainSigma).filter (fun c => Text.isAsciiDigit c || c == '.') =
      cs.filter fun c => Text.isAsciiDigit c || c == '.' := by
    induction cs with
    | nil => rfl
    | cons c cs ih =>
      by_cases hfinal : c = 'ς'
      · subst hfinal
        exact ih
      · rw [List.map_cons, show plainSigma c = c from if_neg hfinal, List.filter_cons, ih,
          List.filter_cons]
  unfold plain?
  rw [hkept]

theorem ofBody_map (cs : List Char) : ofBody (cs.map plainSigma) = ofBody cs := by
  rw [ofBody, withUnit?_map, plain?_map, ofBody]

theorem exists_of_map_eq_append {w ds : List Char} (hplain : 'σ' ∉ w ∧ 'ς' ∉ w)
    (hstarts : cs.map plainSigma = w ++ ds) : ∃ rest, cs = w ++ rest := by
  obtain ⟨front, rest, rfl, hfront_eq, -⟩ := List.map_eq_append_iff.1 hstarts
  rw [(map_plainSigma_eq_iff hplain).1 hfront_eq]
  exact ⟨rest, rfl⟩

theorem dropCurrency_map (cs : List Char) :
    dropCurrency (cs.map plainSigma) = (dropCurrency cs).map plainSigma := by
  fun_cases dropCurrency cs with
  | case1 rest => exact dropCurrency.eq_1 _
  | case2 rest hnoPoint =>
    refine dropCurrency.eq_2 _ fun behind hstarts => ?_
    obtain ⟨rest', rfl⟩ := exists_of_map_eq_append (w := ['.']) (by decide) hstarts
    exact hnoPoint rest' rfl
  | case3 rest => exact dropCurrency.eq_3 _
  | case4 rest => exact dropCurrency.eq_4 _
  | case5 cs hpoint hrs hinr hsign =>
    refine dropCurrency.eq_5 _ (fun behind hstarts => ?_) (fun behind hstarts => ?_)
      (fun behind hstarts => ?_) fun behind hstarts => ?_
    · obtain ⟨rest, hsame⟩ := exists_of_map_eq_append (w := ['r', 's', '.']) (by decide) hstarts
      exact hpoint rest hsame
    · obtain ⟨rest, hsame⟩ := exists_of_map_eq_append (w := ['r', 's']) (by decide) hstarts
      exact hrs rest hsame
    · obtain ⟨rest, hsame⟩ := exists_of_map_eq_append (w := ['i', 'n', 'r']) (by decide) hstarts
      exact hinr rest hsame
    · obtain ⟨rest, hsame⟩ := exists_of_map_eq_append (w := ['₹']) (by decide) hstarts
      exact hsign rest hsame

theorem ofReduced_map (cs : List Char) : ofReduced (cs.map plainSigma) = ofReduced cs := by
  have hminus : (cs.map plainSigma).head? = some '-' ↔ cs.head? = some '-' := by
    cases cs with
    | nil => rfl
    | cons c cs => simp [plainSigma_eq_iff]
  rw [ofReduced, ofReduced, dropCurrency_map, ofBody_map]
  simp only [hminus]

/-! ## The spelling of a text -/

/-- Whether an amount is read from the character: it is neither a comma nor white space. -/
def isRead (c : Char) : Bool := c != ',' && !Text.isBlank c

/-- What is read from a character. -/
def readAs (c : Char) : List Char := ((Text.lowerChar c).map plainSigma).filter isRead

/-- What is read from a text. -/
def readings (s : String) : List Char := s.toList.flatMap readAs

theorem readAs_of_not_isRead (hunread : isRead c = false) : readAs c = [] := by
  have hsingle : Text.lowerChar c = [c] := by
    by_cases hcomma : c = ','
    · rw [hcomma]
      exact Text.lowerChar_of_ascii (by decide)
    · exact Text.lowerChar_of_isBlank (by simpa [isRead, hcomma] using hunread)
  have hnoSigma : plainSigma c = c := if_neg fun hsame => by
    rw [hsame] at hunread
    revert hunread
    decide
  rw [readAs, hsingle, List.map_singleton, hnoSigma]
  simp [hunread]

/-- A character of ASCII that is read as it is. -/
def isFixed (c : Char) : Bool :=
  decide (c.toNat < 0x80) && isRead c && !(decide (0x41 ≤ c.toNat) && decide (c.toNat ≤ 0x5A))

theorem readAs_of_isFixed (hfixed : isFixed c = true) : readAs c = [c] := by
  simp only [isFixed, Bool.and_eq_true, decide_eq_true_eq, Bool.not_eq_true',
    Bool.and_eq_false_iff, decide_eq_false_iff_not] at hfixed
  obtain ⟨⟨hascii, hread⟩, hnoCapital⟩ := hfixed
  have hsmall : c.toLower = c := by
    rw [← Char.toNat_inj, Text.toNat_toLower, if_neg]
    omega
  have hnoSigma : plainSigma c = c := if_neg fun hsame => by
    rw [hsame] at hascii
    exact absurd hascii (by decide)
  rw [readAs, Text.lowerChar_of_ascii hascii, hsmall, List.map_singleton, hnoSigma,
    List.filter_cons_of_pos hread, List.filter_nil]

theorem flatMap_readAs_of_isFixed (hfixed : cs.all isFixed = true) : cs.flatMap readAs = cs := by
  rw [List.flatMap_congr fun c hmem => readAs_of_isFixed (List.all_eq_true.1 hfixed c hmem),
    List.flatMap_singleton']

theorem readAs_toLower (c : Char) : readAs c.toLower = readAs c := by
  rw [readAs, Text.lowerChar_toLower, readAs]

/-- A part of a text that contributes nothing may be trimmed. -/
theorem flatMap_trimChars {p : Char → Bool} {f : Char → List Char}
    (hnone : ∀ c, p c = true → f c = []) (cs : List Char) :
    (Text.trimChars p cs).flatMap f = cs.flatMap f := by
  have hdropped (cs : List Char) : (cs.takeWhile p).flatMap f = [] :=
    List.flatMap_eq_nil_iff.2 fun c hmem => hnone c (List.mem_takeWhile_imp hmem)
  have hfront (cs : List Char) : (cs.dropWhile p).flatMap f = cs.flatMap f := by
    conv =>
      rhs
      rw [← List.takeWhile_append_dropWhile (p := p) (l := cs), List.flatMap_append, hdropped]
    rfl
  have hback (cs : List Char) : (Text.dropEndWhile p cs).flatMap f = cs.flatMap f := by
    have hwhole : Text.dropEndWhile p cs ++ (cs.reverse.takeWhile p).reverse = cs := by
      rw [Text.dropEndWhile, ← List.reverse_append, List.takeWhile_append_dropWhile,
        List.reverse_reverse]
    have hend : ((cs.reverse.takeWhile p).reverse).flatMap f = [] :=
      List.flatMap_eq_nil_iff.2 fun c hmem =>
        hnone c (List.mem_takeWhile_imp (List.mem_reverse.1 hmem))
    conv => rhs; rw [← hwhole, List.flatMap_append, hend, List.append_nil]
  rw [Text.trimChars, hback, hfront]

theorem map_reduce (s : String) : (reduce s).map plainSigma = readings s := by
  have hread : isRead ∘ plainSigma = isRead := by
    funext c
    rw [Function.comp_apply, plainSigma]
    split
    · rename_i hsame
      rw [hsame]
      decide
    · rfl
  have hblank (c : Char) (h : Text.isBlank c = true) : readAs c = [] :=
    readAs_of_not_isRead (by simp [isRead, h])
  calc (reduce s).map plainSigma
      = ((Text.lowerChars (Text.stripChars s.toList)).map plainSigma).filter isRead := by
        rw [List.filter_map, hread]
        rfl
    _ = (Text.stripChars s.toList).flatMap readAs := by
        rw [Text.lowerChars, Text.map_lowerFrom, List.filter_flatMap]
        rfl
    _ = readings s := flatMap_trimChars hblank _

theorem read?_eq (s : String) : read? s = ofReduced (readings s) := by
  rw [← map_reduce, ofReduced_map, read?_eq_ofReduced]

theorem readings_append (s t : String) : readings (s ++ t) = readings s ++ readings t := by
  rw [readings, String.toList_append, List.flatMap_append, readings, readings]

/-- A text without commas and white space, its letters of ASCII in lower case. -/
def spelling (s : String) : List Char :=
  (s.toList.filter isRead).map Char.toLower

theorem flatMap_spelling (s : String) : (spelling s).flatMap readAs = readings s := by
  rw [spelling, List.flatMap_map, readings]
  induction s.toList with
  | nil => rfl
  | cons c cs ih =>
    cases hread : isRead c with
    | true =>
      rw [List.filter_cons_of_pos hread, List.flatMap_cons, List.flatMap_cons, ih, readAs_toLower]
    | false =>
      rw [List.filter_cons_of_neg (by simp [hread]), List.flatMap_cons, ih,
        readAs_of_not_isRead hread, List.nil_append]

/-- Texts that differ only in commas, white space and the case of ASCII letters name the same
amount. -/
theorem read?_eq_of_spelling_eq {s t : String} (hsame : spelling s = spelling t) :
    read? s = read? t := by
  rw [read?_eq, read?_eq, ← flatMap_spelling, hsame, flatMap_spelling]

/-- The first sigma stands at the end of a word only as long as the white space is there. -/
theorem read?_eq_of_spelling_eq_sigma :
    spelling "ΑΣ Β 5, 0 L" = spelling "ΑΣΒ50l" ∧ read? "ΑΣ Β 5, 0 L" = read? "ΑΣΒ50l" := by
  have hsame : spelling "ΑΣ Β 5, 0 L" = spelling "ΑΣΒ50l" := by decide
  exact ⟨hsame, read?_eq_of_spelling_eq hsame⟩

end Dialogue.Amount

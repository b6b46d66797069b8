import Dialogue.Proofs.Amount.Spelling

/-!
# Amounts with a currency

A currency in front of a text that starts with a digit makes no difference
(`read?_currency_of_digit`).  The sign of an amount is looked for in front of the currency alone, so
a minus sign behind it does not make the amount negative: it keeps the amount from having a unit and
is then passed over, with everything else that is no figure (`read?_currency_of_isNegative`).  So a
currency keeps an amount as it is exactly if no amount of figures hides behind a minus sign
(`keepsAmount_iff`).
-/

namespace Dialogue.Amount

open Text (plainSigma)

variable {c : Char} {cs tail : List Char} {p w t : String}

/-! ## Figures -/

/-- The digits `0` to `9` and the point. -/
def isFigure (c : Char) : Bool := Text.isAsciiDigit c || c == '.'

theorem isFigure_iff : isFigure c = true ↔ 48 ≤ c.toNat ∧ c.toNat ≤ 57 ∨ c.toNat = 46 := by
  have hle (a b : Char) : a ≤ b ↔ a.toNat ≤ b.toNat := UInt32.le_iff_toNat_le
  simp only [isFigure, Text.isAsciiDigit, Bool.or_eq_true, Bool.and_eq_true, decide_eq_true_eq,
    beq_iff_eq, ← Char.toNat_inj, hle]
  rfl

theorem isFixed_of_isFigure (hfigure : isFigure c = true) : isFixed c = true := by
  have hcode := isFigure_iff.1 hfigure
  have hnoComma : c ≠ ',' := by
    rintro rfl
    exact absurd hcode (by decide)
  have hnoBlank : Text.isBlank c = false := Bool.eq_false_iff.2 fun hblank => by
    simp only [Text.isBlank, Bool.or_eq_true, Bool.and_eq_true, decide_eq_true_eq,
      beq_iff_eq] at hblank
    omega
  have hnoCapital : ¬ (0x41 ≤ c.toNat ∧ c.toNat ≤ 0x5A) := by omega
  have hascii : c.toNat < 0x80 := by omega
  simp only [isFixed, isRead, hnoBlank, bne_iff_ne.2 hnoComma, hascii, ← Bool.decide_and,
    hnoCapital, Bool.and_true, Bool.not_false, decide_true, decide_false]

theorem not_isFigure_of_mem_readAs {d : Char} (hother : ¬ isFigure c = true) (hmem : d ∈ readAs c) :
    ¬ isFigure d = true := by
  obtain ⟨e, hsmall, rfl⟩ := List.mem_map.1 (List.mem_of_mem_filter hmem)
  -- a small letter, or the character itself
  have hlow : 0x61 ≤ e.toNat ∨ e = c := by
    by_cases hascii : c.toNat < 0x80
    · rw [Text.lowerChar_of_ascii hascii, List.mem_singleton] at hsmall
      have hcode := Text.toNat_toLower c
      rw [← hsmall] at hcode
      split at hcode
      · omega
      · exact .inr (Char.toNat_inj.1 hcode)
    · exact .inl (Text.le_toNat_of_mem_lowerChar (Nat.le_of_not_lt hascii) hsmall)
  intro hfigure
  unfold plainSigma at hfigure
  split at hfigure
  · exact absurd hfigure (by decide)
  · rcases hlow with hlow | rfl
    · have := isFigure_iff.1 hfigure
      omega
    · exact hother hfigure

theorem filter_readAs (c : Char) : (readAs c).filter isFigure = [c].filter isFigure := by
  by_cases hfigure : isFigure c = true
  · rw [readAs_of_isFixed (isFixed_of_isFigure hfigure)]
  · rw [List.filter_eq_nil_iff.2 fun d hmem => not_isFigure_of_mem_readAs hfigure hmem,
      List.filter_cons_of_neg hfigure, List.filter_nil]

theorem filter_readings (s : String) : (readings s).filter isFigure = s.toList.filter isFigure := by
  rw [readings, List.filter_flatMap]
  simp only [filter_readAs]
  induction s.toList with
  | nil => rfl
  | cons c cs ih => rw [List.flatMap_cons, ih, ← List.filter_append, List.singleton_append]

/-- The figures of a text. -/
def figures (s : String) : String := String.ofList (s.toList.filter isFigure)

theorem readings_figures (s : String) : readings (figures s) = s.toList.filter isFigure := by
  rw [readings, figures, String.toList_ofList]
  exact flatMap_readAs_of_isFixed (List.all_eq_true.2 fun c hmem =>
    isFixed_of_isFigure (List.mem_filter.1 hmem).2)

/-! ## Bodies of amounts -/

theorem splitDecimal_suffix (cs : List Char) : (splitDecimal cs).2.2 <:+ cs := by
  have hbehind := List.dropWhile_suffix Text.isDigit (l := cs)
  unfold splitDecimal
  simp only
  split
  · rename_i rest hpoint
    rw [hpoint] at hbehind
    split
    · exact hbehind
    · exact ((List.dropWhile_suffix _).trans (List.suffix_cons '.' rest)).trans hbehind
  · exact hbehind

theorem unitFactor?_of_figures (hfigures : ∀ c ∈ cs, isFigure c = true) :
    unitFactor? cs = none := by
  have hletters : ∀ unit ∈ units, unit.1.toList.all isFigure = false := by decide
  refine List.lookup_eq_none_iff.2 fun unit hmem => bne_iff_ne.2 fun hsame => ?_
  have hletter := hletters unit hmem
  rw [← hsame, String.toList_ofList, List.all_eq_true.2 hfigures] at hletter
  cases hletter

theorem withUnit?_of_figures (hfigures : ∀ c ∈ cs, isFigure c = true) : withUnit? cs = none := by
  have hnone : unitFactor? (splitDecimal cs).2.2 = none :=
    unitFactor?_of_figures fun c hmem => hfigures c ((splitDecimal_suffix cs).subset hmem)
  simp only [withUnit?, hnone, Option.map_none, ite_self]

theorem ofBody_of_figures (hfigures : ∀ c ∈ cs, isFigure c = true) :
    ofBody cs = (plain? cs).filter (·.isPositive) := by
  rw [ofBody, withUnit?_of_figures hfigures]

theorem plain?_filter (cs : List Char) : plain? (cs.filter isFigure) = plain? cs := by
  have hkept : (cs.filter isFigure).filter (fun c => Text.isAsciiDigit c || c == '.') =
      cs.filter fun c => Text.isAsciiDigit c || c == '.' := by
    rw [List.filter_filter]
    exact List.filter_congr fun c _ => Bool.and_self _
  unfold plain?
  rw [hkept]

theorem ofBody_minus (tail : List Char) :
    ofBody ('-' :: tail) = (plain? tail).filter (·.isPositive) := rfl

theorem dropCurrency_of_head? (hfirst : ∀ c, cs.head? = some c → c ∉ ['r', 'i', '₹']) :
    dropCurrency cs = cs := by
  refine dropCurrency.eq_5 _ (fun rest hstarts => ?_) (fun rest hstarts => ?_)
    (fun rest hstarts => ?_) fun rest hstarts => ?_ <;>
  · rw [hstarts] at hfirst
    exact absurd (hfirst _ rfl) (by decide)

theorem ofReduced_of_head? (hfirst : ∀ c, cs.head? = some c → c ∉ ['-', 'r', 'i', '₹']) :
    ofReduced cs = ofBody cs := by
  have hnoMinus : cs.head? ≠ some '-' := fun hminus => hfirst '-' hminus List.mem_cons_self
  have hnoCurrency : dropCurrency cs = cs :=
    dropCurrency_of_head? fun c hstarts hmem => hfirst c hstarts (List.mem_cons_of_mem _ hmem)
  rw [ofReduced, if_neg hnoMinus, hnoCurrency]

theorem not_isDigit_rupee : Text.isDigit '₹' = false ∧ readAs '₹' = ['₹'] := by decide +kernel

theorem ofReduced_of_isDigit (hdigit : Text.isDigit c = true) (tail : List Char) :
    ofReduced (c :: tail) = ofBody (c :: tail) := by
  have hother : ∀ d ∈ ['-', 'r', 'i', '₹'], Text.isDigit d = false := by
    simp [Text.isDigit_eq_isAsciiDigit, Text.isAsciiDigit, not_isDigit_rupee.1]
  refine ofReduced_of_head? fun d hfirst hmem => ?_
  obtain rfl : c = d := by simpa using hfirst
  simp [hother c hmem] at hdigit

theorem read?_figures (s : String) :
    read? (figures s) = (plain? (readings s)).filter (·.isPositive) := by
  have hall : ∀ c ∈ s.toList.filter isFigure, isFigure c = true := fun c hmem =>
    (List.mem_filter.1 hmem).2
  have hother : ∀ d ∈ ['-', 'r', 'i', '₹'], isFigure d = false := by
    simp [isFigure, Text.isAsciiDigit]
  have hfront : ofReduced (s.toList.filter isFigure) = ofBody (s.toList.filter isFigure) :=
    ofReduced_of_head? fun c hfirst hmem => by
      simpa [hall c (List.mem_of_mem_head? hfirst)] using hother c hmem
  rw [read?_eq, readings_figures, hfront, ofBody_of_figures hall, ← filter_readings, plain?_filter]

/-! ## Behind a currency -/

/-- The words and the sign for a currency, in any letter case. -/
def IsCurrency (p : String) : Prop :=
  ∃ word ∈ ["rs", "rs.", "inr", "₹"], p.toList.map Char.toLower = word.toList

instance (p : String) : Decidable (IsCurrency p) := by
  unfold IsCurrency
  infer_instance

/-- The first character of a text that is neither a comma nor white space. -/
def first? (t : String) : Option Char := t.toList.find? isRead

/-- A text that starts with a digit from `0` to `9`. -/
def StartsWithDigit (t : String) : Prop := ∃ c, first? t = some c ∧ Text.isAsciiDigit c = true

/-- A text that starts with a minus sign. -/
def IsNegative (t : String) : Prop := first? t = some '-'

instance (t : String) : Decidable (IsNegative t) := by
  unfold IsNegative
  infer_instance

theorem readings_currency (hcurrency : IsCurrency p) :
    ∃ word ∈ ["rs", "rs.", "inr", "₹"], readings p = word.toList := by
  obtain ⟨word, hmem, hsame⟩ := hcurrency
  have heach : ∀ word ∈ ["rs", "rs.", "inr", "₹"], word.toList.flatMap readAs = word.toList := by
    simp only [List.forall_mem_cons]
    exact ⟨flatMap_readAs_of_isFixed (by decide), flatMap_readAs_of_isFixed (by decide),
      flatMap_readAs_of_isFixed (by decide), by simp [not_isDigit_rupee.2], by simp⟩
  refine ⟨word, hmem, ?_⟩
  rw [← heach word hmem, ← hsame, List.flatMap_map, readings]
  exact List.flatMap_congr fun c _ => (readAs_toLower c).symm

theorem exists_readings_of_first? (hstarts : first? t = some c) (halone : readAs c = [c]) :
    ∃ tail, readings t = c :: tail := by
  obtain ⟨-, front, behind, hsplit, hunread⟩ := List.find?_eq_some_iff_append.1 hstarts
  have hnothing : front.flatMap readAs = [] :=
    List.flatMap_eq_nil_iff.2 fun d hmem => readAs_of_not_isRead (by simpa using hunread d hmem)
  refine ⟨behind.flatMap readAs, ?_⟩
  rw [readings, hsplit, List.flatMap_append, hnothing, List.flatMap_cons, halone]
  rfl

theorem ofReduced_currency {word : String} (hmem : word ∈ ["rs", "rs.", "inr", "₹"])
    (hnoPoint : c ≠ '.') : ofReduced (word.toList ++ c :: tail) = ofBody (c :: tail) := by
  simp only [List.mem_cons, List.not_mem_nil, or_false] at hmem
  rcases hmem with rfl | rfl | rfl | rfl
  · have hdropped : dropCurrency ('r' :: 's' :: c :: tail) = c :: tail :=
      dropCurrency.eq_2 _ fun rest hstarts => hnoPoint (List.cons.inj hstarts).1
    exact congrArg ofBody hdropped
  · rfl
  · rfl
  · rfl

theorem readings_blank {w : String} (hblank : ∀ c ∈ w.toList, Text.isBlank c = true) :
    readings w = [] :=
  List.flatMap_eq_nil_iff.2 fun c hmem => readAs_of_not_isRead (by simp [isRead, hblank c hmem])

theorem read?_currency (hcurrency : IsCurrency p) (hblank : ∀ c ∈ w.toList, Text.isBlank c = true)
    (hstarts : readings t = c :: tail) (hnoPoint : c ≠ '.') :
    read? (p ++ w ++ t) = ofBody (c :: tail) := by
  obtain ⟨word, hmem, hsame⟩ := readings_currency hcurrency
  rw [read?_eq, readings_append, readings_append, hsame, readings_blank hblank, List.append_nil,
    hstarts, ofReduced_currency hmem hnoPoint]

theorem read?_currency_of_digit (hcurrency : IsCurrency p)
    (hblank : ∀ c ∈ w.toList, Text.isBlank c = true) (hdigit : StartsWithDigit t) :
    read? (p ++ w ++ t) = read? t := by
  obtain ⟨c, hfirst, hdigit⟩ := hdigit
  have hfigure : isFigure c = true := by simp [isFigure, hdigit]
  obtain ⟨tail, hstarts⟩ :=
    exists_readings_of_first? hfirst (readAs_of_isFixed (isFixed_of_isFigure hfigure))
  have hnoPoint : c ≠ '.' := by
    rintro rfl
    exact absurd hdigit (by decide)
  rw [read?_currency hcurrency hblank hstarts hnoPoint, read?_eq, hstarts,
    ofReduced_of_isDigit (Text.isDigit_of_isAsciiDigit hdigit)]

theorem readAs_minus : readAs '-' = ['-'] := readAs_of_isFixed (by decide)

/-- A text with a minus sign in front names no amount. -/
theorem read?_of_isNegative (hnegative : IsNegative t) : read? t = none := by
  obtain ⟨tail, hstarts⟩ := exists_readings_of_first? hnegative readAs_minus
  rw [read?_eq, hstarts]
  rfl

/-- Behind a currency, a text with a minus sign in front names the amount of its figures. -/
theorem read?_currency_of_isNegative (hcurrency : IsCurrency p)
    (hblank : ∀ c ∈ w.toList, Text.isBlank c = true) (hnegative : IsNegative t) :
    read? (p ++ w ++ t) = read? (figures t) := by
  obtain ⟨tail, hstarts⟩ := exists_readings_of_first? hnegative readAs_minus
  rw [read?_currency hcurrency hblank hstarts (by decide), read?_figures, hstarts, ofBody_minus]
  rfl

/-- A currency in front of a text does not change the amount, and with or without it a negative
amount is none. -/
structure KeepsAmount (p w t : String) : Prop where
  same : read? (p ++ w ++ t) = read? t
  negative : IsNegative t → read? (p ++ w ++ t) = none ∧ read? t = none

/-- A currency in front of a text changes the amount exactly if the text has a minus sign in front
and its figures alone name an amount.  This is then the amount that is read. -/
theorem keepsAmount_iff (hcurrency : IsCurrency p) (hblank : ∀ c ∈ w.toList, Text.isBlank c = true)
    (hstarts : StartsWithDigit t ∨ IsNegative t) :
    (KeepsAmount p w t ↔ (IsNegative t → read? (figures t) = none)) ∧
      (IsNegative t → read? (p ++ w ++ t) = read? (figures t)) := by
  refine ⟨⟨fun hkeeps hnegative => ?_, fun hunread => ?_⟩,
    read?_currency_of_isNegative hcurrency hblank⟩
  · rw [← read?_currency_of_isNegative hcurrency hblank hnegative]
    exact (hkeeps.negative hnegative).1
  · have hnone (hnegative : IsNegative t) : read? (p ++ w ++ t) = none ∧ read? t = none := by
      rw [read?_currency_of_isNegative hcurrency hblank hnegative]
      exact ⟨hunread hnegative, read?_of_isNegative hnegative⟩
    refine ⟨?_, hnone⟩
    rcases hstarts with hdigit | hnegative
    · exact read?_currency_of_digit hcurrency hblank hdigit
    · rw [(hnone hnegative).1, (hnone hnegative).2]

/-- Ten lakhs below zero become ten. -/
theorem keepsAmount_iff_minus :
    IsCurrency "Rs" ∧ (∀ c ∈ " ".toList, Text.isBlank c = true) ∧ IsNegative "-10L" ∧
      (KeepsAmount "Rs" " " "-10L" ↔ (IsNegative "-10L" → read? (figures "-10L") = none)) ∧
      read? ("Rs" ++ " " ++ "-10L") = read? (figures "-10L") := by
  have hcurrency : IsCurrency "Rs" := by decide
  have hblank : ∀ c ∈ " ".toList, Text.isBlank c = true := List.all_eq_true.1 (by decide)
  have hnegative : IsNegative "-10L" := by decide
  obtain ⟨hiff, hread⟩ := keepsAmount_iff hcurrency hblank (.inr hnegative)
  exact ⟨hcurrency, hblank, hnegative, hiff, hread hnegative⟩

/-- A currency in front of a negative amount makes an amount of it. -/
theorem not_keepsAmount :
    ¬ ∀ p w t : String, IsCurrency p → (∀ c ∈ w.toList, Text.isBlank c = true) →
      StartsWithDigit t ∨ IsNegative t → KeepsAmount p w t := by
  intro halways
  have hblank : ∀ c ∈ " ".toList, Text.isBlank c = true := List.all_eq_true.1 (by decide)
  have hkeeps := halways "Rs" " " "-5" (by decide) hblank (.inr (by decide))
  have hamount : read? ("Rs" ++ " " ++ "-5") ≠ none := by decide +kernel
  exact hamount (hkeeps.negative (by decide)).1

end Dialogue.Amount

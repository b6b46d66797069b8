import Dialogue.Proofs.Amount.Currency
import Dialogue.Proofs.Double.Order
import Mathlib.Algebra.Order.Field.Rat

/-!
# Amounts with a unit

The decimal in front of a unit may have digits of any script, and all of them are read
(`read?_append_unit`).  Without a unit, the digits `0` to `9` alone are read (`read?_of_isDecimal`,
`plain?_of_isDecimal`).  So a text with a unit is the multiple of the text without one exactly if
its digits from `0` to `9` write the same number as all of them (`unitsAgree_iff`).

That they must is seen from the products.  A decimal is rounded once when it is read and once more
when it is multiplied, but between two decimals of nine digits lie two binary fractions that are not
rounded at all, and neither are their products (`exists_binary_between`).  So different decimals
have different products (`eq_of_product_eq`).
-/

namespace Dialogue.Amount

open Double (ofMagnitude roundMagnitude mulMagnitude unitsOf infinityMagnitude)

variable {c : Char} {cs rest whole fraction : List Char} {d u : String}

/-! ## Decimals -/

/-- One or more digits of any script. -/
def IsNumeral (cs : List Char) : Prop := cs ≠ [] ∧ ∀ c ∈ cs, Text.isDigit c = true

instance (cs : List Char) : Decidable (IsNumeral cs) :=
  decidable_of_iff (cs ≠ [] ∧ cs.all Text.isDigit = true) (and_congr_right' List.all_eq_true)

/-- A decimal as it may stand in front of a unit, with the digits before its point and those behind
it. -/
inductive IsDecimal : List Char → List Char → List Char → Prop where
  | whole {whole : List Char} (numeral : IsNumeral whole) : IsDecimal whole whole []
  | point {whole fraction : List Char} (numeral : IsNumeral whole) (numeral' : IsNumeral fraction) :
    IsDecimal (whole ++ '.' :: fraction) whole fraction

theorem IsDecimal.numeral (hdecimal : IsDecimal cs whole fraction) : IsNumeral whole := by
  cases hdecimal with
  | whole hnumeral => exact hnumeral
  | point hnumeral _ => exact hnumeral

theorem IsDecimal.fraction_eq_nil (hdecimal : IsDecimal cs whole fraction) (hnoPoint : '.' ∉ cs) :
    fraction = [] := by
  cases hdecimal with
  | whole _ => rfl
  | point _ _ => simp at hnoPoint

theorem isDigit_point : Text.isDigit '.' = false := Text.isDigit_eq_isAsciiDigit (by decide)

/-- A decimal is taken apart in front of anything that does not go on with it. -/
theorem splitDecimal_append (hdecimal : IsDecimal cs whole fraction)
    (hends : ∀ c, rest.head? = some c → Text.isDigit c = false ∧ c ≠ '.') :
    splitDecimal (cs ++ rest) = (whole, fraction, rest) := by
  have hends' (c : Char) (hfirst : rest.head? = some c) : Text.isDigit c = false :=
    (hends c hfirst).1
  cases hdecimal with
  | whole hnumeral =>
    unfold splitDecimal
    rw [Text.takeWhile_append_of_ends hnumeral.2 hends',
      Text.dropWhile_append_of_ends hnumeral.2 hends']
    split
    · exact absurd rfl (hends '.' rfl).2
    · rfl
  | point hnumeral hnumeral' =>
    have hstops (c : Char) (hfirst : ('.' :: (fraction ++ rest)).head? = some c) :
        Text.isDigit c = false := by
      obtain rfl : '.' = c := by simpa using hfirst
      exact isDigit_point
    unfold splitDecimal
    rw [List.append_assoc, List.cons_append, Text.takeWhile_append_of_ends hnumeral.2 hstops,
      Text.dropWhile_append_of_ends hnumeral.2 hstops]
    simp only [Text.takeWhile_append_of_ends hnumeral'.2 hends',
      Text.dropWhile_append_of_ends hnumeral'.2 hends', List.isEmpty_iff, hnumeral'.1, if_false]

/-! ## What is read of a decimal -/

theorem readAs_of_isDigit (hdigit : Text.isDigit c = true) : readAs c = [c] := by
  have hread : isRead c = true := by
    have hnoComma : c ≠ ',' := by
      rintro rfl
      rw [Text.isDigit_eq_isAsciiDigit (by decide)] at hdigit
      exact absurd hdigit (by decide)
    simp [isRead, hnoComma, Text.isBlank_of_isDigit hdigit]
  rw [readAs, Text.lowerChar_of_isDigit hdigit, List.map_singleton, plainSigma_of_isDigit hdigit,
    List.filter_cons_of_pos hread, List.filter_nil]

theorem IsDecimal.flatMap_readAs (hdecimal : IsDecimal cs whole fraction) :
    cs.flatMap readAs = cs := by
  have halone {cs : List Char} (hdigits : ∀ c ∈ cs, Text.isDigit c = true) :
      cs.flatMap readAs = cs := by
    rw [List.flatMap_congr fun c hmem => readAs_of_isDigit (hdigits c hmem),
      List.flatMap_singleton']
  have hpoint : readAs '.' = ['.'] := readAs_of_isFixed (by decide)
  cases hdecimal with
  | whole hnumeral => exact halone hnumeral.2
  | point hnumeral hnumeral' =>
    rw [List.flatMap_append, List.flatMap_cons, halone hnumeral.2, halone hnumeral'.2, hpoint]
    rfl

theorem readings_of_isDecimal (hdecimal : IsDecimal d.toList whole fraction) :
    readings d = d.toList := hdecimal.flatMap_readAs

theorem ofReduced_append (hdecimal : IsDecimal cs whole fraction) (rest : List Char) :
    ofReduced (cs ++ rest) = ofBody (cs ++ rest) := by
  obtain ⟨hnonempty, hdigits⟩ := hdecimal.numeral
  obtain ⟨c, tail, hstarts⟩ := List.exists_cons_of_ne_nil hnonempty
  have hdigit := hdigits c (by simp [hstarts])
  cases hdecimal with
  | whole _ => rw [hstarts, List.cons_append, ofReduced_of_isDigit hdigit]
  | point _ _ => rw [hstarts, List.cons_append, List.cons_append, ofReduced_of_isDigit hdigit]

theorem read?_append_unit (hwritten : IsDecimal d.toList whole fraction) {k : Nat}
    (hunit : (u, k) ∈ units) :
    read? (d ++ u) = (some ((decimal whole fraction).mulNat k)).filter (·.isPositive) := by
  have heach : ∀ unit ∈ units, unit.1.toList.all isFixed = true ∧
      unitFactor? unit.1.toList = some unit.2 ∧ unit.1.toList.head?.all
        (fun c => decide (c.toNat < 0x660) && !Text.isAsciiDigit c && c != '.') = true := by
    decide
  obtain ⟨hfixed, hfactor, hletter⟩ := heach _ hunit
  have hread : readings u = u.toList := flatMap_readAs_of_isFixed hfixed
  have hends (c : Char) (hfirst : u.toList.head? = some c) : Text.isDigit c = false ∧ c ≠ '.' := by
    simp only [hfirst, Option.all_some, Bool.and_eq_true, decide_eq_true_eq, Bool.not_eq_true',
      bne_iff_ne] at hletter
    exact ⟨(Text.isDigit_eq_isAsciiDigit hletter.1.1).trans hletter.1.2, hletter.2⟩
  have hnonempty : whole.isEmpty = false := by simpa using hwritten.numeral.1
  have hunit? : withUnit? (d.toList ++ u.toList) = some ((decimal whole fraction).mulNat k) := by
    simp only [withUnit?, splitDecimal_append hwritten hends, hfactor, hnonempty, Option.map_some,
      Bool.false_eq_true, if_false]
  rw [read?_eq, readings_append, readings_of_isDecimal hwritten,
    hread, ofReduced_append hwritten, ofBody, hunit?]

/-- The digits `0` to `9` among others. -/
def ascii (cs : List Char) : List Char := cs.filter Text.isAsciiDigit

theorem filter_isFigure_of_isDigit (hdigits : ∀ c ∈ cs, Text.isDigit c = true) :
    cs.filter isFigure = ascii cs := by
  refine List.filter_congr fun c hmem => ?_
  have hnoPoint : c ≠ '.' := by
    rintro rfl
    simpa [isDigit_point] using hdigits _ hmem
  simp [isFigure, hnoPoint]

theorem plain?_of_isDecimal (hwritten : IsDecimal cs whole fraction) :
    plain? cs = if (ascii whole ++ ascii fraction).isEmpty then none
      else some (decimal (ascii whole) (ascii fraction)) := by
  have hinside (cs : List Char) (c : Char) (hmem : c ∈ ascii cs) : Text.isAsciiDigit c = true :=
    (List.mem_filter.1 hmem).2
  cases hwritten with
  | whole hnumeral =>
    have hkept : cs.filter (fun c => Text.isAsciiDigit c || c == '.') = ascii cs :=
      filter_isFigure_of_isDigit hnumeral.2
    have htaken : (ascii cs).takeWhile Text.isAsciiDigit = ascii cs :=
      List.takeWhile_eq_self_iff.2 (hinside cs)
    have hleft : (ascii cs).dropWhile Text.isAsciiDigit = [] :=
      List.dropWhile_eq_nil_iff.2 (hinside cs)
    simp only [plain?, hkept, htaken, hleft]
    rfl
  | point hnumeral hnumeral' =>
    have hkept : (whole ++ '.' :: fraction).filter (fun c => Text.isAsciiDigit c || c == '.') =
        ascii whole ++ '.' :: ascii fraction := by
      rw [← filter_isFigure_of_isDigit hnumeral.2, ← filter_isFigure_of_isDigit hnumeral'.2,
        List.filter_append]
      rfl
    have hends (c : Char) (hfirst : ('.' :: ascii fraction).head? = some c) :
        Text.isAsciiDigit c = false := by
      obtain rfl : '.' = c := by simpa using hfirst
      decide
    have hnoPoint : (ascii fraction).contains '.' = false := by
      rw [List.contains_eq_mem, decide_eq_false_iff_not]
      intro hmem
      exact absurd (hinside fraction _ hmem) (by decide)
    simp only [plain?, hkept, Text.takeWhile_append_of_ends (hinside whole) hends,
      Text.dropWhile_append_of_ends (hinside whole) hends, List.drop_succ_cons, List.drop_zero,
      hnoPoint, Bool.false_or]

theorem read?_of_isDecimal (hwritten : IsDecimal d.toList whole fraction) :
    read? d = (plain? d.toList).filter (·.isPositive) := by
  have hunit? : withUnit? d.toList = none := by
    have hsplit : splitDecimal (d.toList ++ []) = (whole, fraction, []) :=
      splitDecimal_append hwritten (by simp)
    rw [List.append_nil] at hsplit
    simp only [withUnit?, hsplit]
    split <;> rfl
  have hbody := ofReduced_append hwritten []
  rw [List.append_nil] at hbody
  rw [read?_eq, readings_of_isDecimal hwritten, hbody, ofBody, hunit?]

/-! ## The numbers that are written -/

/-- The digits of a decimal as one natural number. -/
def digitsOf (whole fraction : List Char) : Nat :=
  Text.ofDigits ((whole ++ fraction).filterMap Text.digit?)

/-- The number that a decimal writes. -/
def number (whole fraction : List Char) : ℚ := (digitsOf whole fraction : ℚ) / 10 ^ fraction.length

/-- The digits of a decimal with zeros behind them, up to a number of places. -/
def digitsAt (places : Nat) (whole fraction : List Char) : Nat :=
  digitsOf whole fraction * 10 ^ (places - fraction.length)

theorem digitsAt_length : digitsAt fraction.length whole fraction = digitsOf whole fraction := by
  rw [digitsAt, Nat.sub_self, Nat.pow_zero, Nat.mul_one]

theorem number_eq {places : Nat} (henough : fraction.length ≤ places) :
    number whole fraction = (digitsAt places whole fraction : ℚ) / 10 ^ places := by
  rw [number, digitsAt, div_eq_div_iff (by positivity) (by positivity), Nat.cast_mul, Nat.cast_pow,
    mul_assoc, Nat.cast_ofNat, ← pow_add, Nat.sub_add_cancel henough]

theorem decimal_eq {places : Nat} (henough : fraction.length ≤ places) :
    decimal whole fraction =
      ofMagnitude false (roundMagnitude (digitsAt places whole fraction) (10 ^ places)) := by
  rw [decimal, Double.ofDecimal_eq, Double.decimalMagnitude, digitsAt, digitsOf]
  congr 1
  refine Double.roundMagnitude_congr (Nat.pow_pos (by decide)) (Nat.pow_pos (by decide)) ?_
  rw [show (-(fraction.length : Int)).toNat = 0 by omega,
    show (- -(fraction.length : Int)).toNat = fraction.length by omega, Nat.pow_zero, Nat.mul_one,
    Nat.mul_assoc, ← Nat.pow_add, Nat.sub_add_cancel henough]

theorem decimal_eq_digitsOf : decimal whole fraction =
    ofMagnitude false (roundMagnitude (digitsOf whole fraction) (10 ^ fraction.length)) := by
  rw [decimal_eq le_rfl, digitsAt_length]

theorem digitsAt_lt {places : Nat} (henough : fraction.length ≤ places) :
    digitsAt places whole fraction < 10 ^ (whole.length + places) := by
  have hsmall := Text.ofDigits_digits_lt (whole ++ fraction)
  calc digitsAt places whole fraction
      < 10 ^ (whole ++ fraction).length * 10 ^ (places - fraction.length) :=
        Nat.mul_lt_mul_of_pos_right hsmall (Nat.pow_pos (by decide))
    _ = 10 ^ (whole.length + places) := by
      rw [← Nat.pow_add, List.length_append]
      congr 1
      omega

/-- Nine characters leave seven places behind the point. -/
theorem IsDecimal.length_le (hdecimal : IsDecimal cs whole fraction) (hshort : cs.length ≤ 9) :
    whole.length + fraction.length ≤ 9 ∧ fraction.length ≤ 7 := by
  have hnonempty := List.length_pos_of_ne_nil hdecimal.numeral.1
  cases hdecimal with
  | whole _ => exact ⟨hshort, Nat.zero_le _⟩
  | point _ _ =>
    rw [List.length_append, List.length_cons] at hshort
    omega

/-! ## Products -/

/-- Between decimals of nine digits lie two binary fractions that stay numbers when multiplied. -/
theorem exists_binary_between {a b places : Nat} (hless : a < b) (hbound : b < 10 ^ 9)
    (hfew : places ≤ 7) :
    ∃ n, a * 2 ^ (4 * places + 1) ≤ n * 10 ^ places ∧
      (n + 1) * 10 ^ places ≤ b * 2 ^ (4 * places + 1) ∧ (n + 1) * 100000 < 2 ^ 53 := by
  refine ⟨b * 2 ^ (4 * places + 1) / 10 ^ places - 1, ?_⟩
  interval_cases places <;> simp only [Nat.reducePow, Nat.reduceMul, Nat.reduceAdd] at * <;> omega

/-- Rounded twice, the products of different decimals are still different. -/
theorem unitsOf_product_lt {a b places : Nat} (hless : a < b) (hbound : b < 10 ^ 9)
    (hfew : places ≤ 7) :
    unitsOf (mulMagnitude (roundMagnitude a (10 ^ places)) 100000) <
      unitsOf (mulMagnitude (roundMagnitude b (10 ^ places)) 100000) := by
  obtain ⟨n, hbelow, habove, hbits⟩ := exists_binary_between hless hbound hfew
  have hstep : n * 100000 < (n + 1) * 100000 :=
    Nat.mul_lt_mul_of_pos_right (Nat.lt_succ_self n) (by decide)
  have hd : 0 < 10 ^ places := Nat.pow_pos (by decide)
  have hbinary := Double.two_pow_mul_eq_unitsOfOne (s := 4 * places + 1) (by omega)
  have hfits : 1074 - (4 * places + 1) ≤ 2000 := by omega
  generalize 2 ^ (4 * places + 1) = scale, 1074 - (4 * places + 1) = e at *
  have hlower : unitsOf (roundMagnitude a (10 ^ places)) ≤ n * 2 ^ e := by
    refine (Double.unitsOf_roundMagnitude_le hd (by omega) hfits ?_).2
    rw [← hbinary, ← Nat.mul_assoc, Nat.mul_right_comm n]
    exact Nat.mul_le_mul_right _ hbelow
  have hupper : (n + 1) * 2 ^ e ≤ unitsOf (roundMagnitude b (10 ^ places)) := by
    refine Double.le_unitsOf_roundMagnitude hd (by omega) hfits ?_
    rw [← hbinary, ← Nat.mul_assoc, Nat.mul_right_comm (n + 1)]
    exact Nat.mul_le_mul_right _ habove
  calc unitsOf (mulMagnitude (roundMagnitude a (10 ^ places)) 100000)
      ≤ n * 100000 * 2 ^ e :=
        (Double.unitsOf_mulMagnitude_le (Nat.lt_trans hstep hbits) hfits hlower).2
    _ < (n + 1) * 100000 * 2 ^ e := Nat.mul_lt_mul_of_pos_right hstep (Nat.two_pow_pos e)
    _ ≤ unitsOf (mulMagnitude (roundMagnitude b (10 ^ places)) 100000) :=
        Double.le_unitsOf_mulMagnitude hbits hfits hupper

/-- A decimal of seven places is far from the least number. -/
theorem exists_two_pow_le {digits places : Nat} (hpositive : 0 < digits) (hfew : places ≤ 7) :
    ∃ e ≤ 2000, 1 * 2 ^ e ≤ unitsOf (roundMagnitude digits (10 ^ places)) := by
  have hpowers : 10 ^ places ≤ 10 ^ 7 := Nat.pow_le_pow_right (by decide) hfew
  refine ⟨1074 - 24, by decide, ?_⟩
  refine Double.le_unitsOf_roundMagnitude (Nat.pow_pos (by decide)) (by decide) (by decide) ?_
  rw [← Double.two_pow_mul_eq_unitsOfOne (s := 24) (by decide), ← Nat.mul_assoc,
    Nat.mul_right_comm]
  refine Nat.mul_le_mul_right _ ?_
  omega

/-- A decimal of nine digits is far from the greatest number. -/
theorem exists_le_two_pow {digits : Nat} (hbound : digits < 10 ^ 9) (places : Nat) :
    ∃ e ≤ 2000, roundMagnitude digits (10 ^ places) < infinityMagnitude ∧
      unitsOf (roundMagnitude digits (10 ^ places)) ≤ 500000000 * 2 ^ e := by
  have hone : 0 < 10 ^ places := Nat.pow_pos (by decide)
  refine ⟨1074 + 1, by decide, ?_⟩
  refine Double.unitsOf_roundMagnitude_le hone (by decide) (by decide) ?_
  rw [← Double.unitsOfOne_mul_two_pow, Nat.mul_comm Double.unitsOfOne, ← Nat.mul_assoc,
    Nat.mul_right_comm]
  refine Nat.mul_le_mul_right _ ?_
  omega

theorem finite_of_decimal {digits places : Nat} (hbound : digits < 10 ^ 9) :
    roundMagnitude digits (10 ^ places) < infinityMagnitude := by
  obtain ⟨e, -, hfinite, -⟩ := exists_le_two_pow hbound places
  exact hfinite

theorem isPositive_decimal {digits places : Nat} (hpositive : 0 < digits) (hbound : digits < 10 ^ 9)
    (hfew : places ≤ 7) :
    (ofMagnitude false (roundMagnitude digits (10 ^ places))).isPositive = true := by
  obtain ⟨e, -, hlow⟩ := exists_two_pow_le hpositive hfew
  exact Double.isPositive_ofMagnitude Nat.one_pos hlow (finite_of_decimal hbound)

theorem isPositive_product {digits places k : Nat} (hpositive : 0 < digits)
    (hbound : digits < 10 ^ 9) (hfew : places ≤ 7) (hfactor : 0 < k) (hsmall : k ≤ 10000000) :
    ((ofMagnitude false (roundMagnitude digits (10 ^ places))).mulNat k).isPositive = true := by
  obtain ⟨e, hfits, hlow⟩ := exists_two_pow_le hpositive hfew
  obtain ⟨e', hfits', hfinite, high⟩ := exists_le_two_pow hbound places
  rw [Double.mulNat_ofMagnitude hfinite]
  exact Double.isPositive_ofMagnitude (by omega)
    (Double.le_unitsOf_mulMagnitude (by omega) hfits hlow)
    (Double.unitsOf_mulMagnitude_le (by omega) hfits' high).1

/-- Different decimals have different products. -/
theorem eq_of_product_eq {a b places : Nat} (hbound : a < 10 ^ 9) (hbound' : b < 10 ^ 9)
    (hfew : places ≤ 7)
    (hsame : (ofMagnitude false (roundMagnitude a (10 ^ places))).mulNat 100000 =
      (ofMagnitude false (roundMagnitude b (10 ^ places))).mulNat 100000) : a = b := by
  rw [Double.mulNat_ofMagnitude (finite_of_decimal hbound),
    Double.mulNat_ofMagnitude (finite_of_decimal hbound')] at hsame
  have hmagnitudes := congrArg Double.magnitude hsame
  rw [mulMagnitude, mulMagnitude, Double.magnitude_ofMagnitude false (Double.roundMagnitude_lt _ _),
    Double.magnitude_ofMagnitude false (Double.roundMagnitude_lt _ _)] at hmagnitudes
  rcases Nat.lt_trichotomy a b with hless | hequal | hgreater
  · exact absurd (congrArg unitsOf hmagnitudes) (unitsOf_product_lt hless hbound' hfew).ne
  · exact hequal
  · exact absurd (congrArg unitsOf hmagnitudes) (unitsOf_product_lt hgreater hbound hfew).ne'

/-! ## Units and figures -/

/-- The words for a lakh. -/
def lakhs : List String := ["l", "lac", "lacs", "lakh", "lakhs"]

/-- The words for a crore. -/
def crores : List String := ["cr", "crore", "crores"]

/-- With a unit, a text is the unit's multiple of the amount that it is without one; without a point
nothing is rounded. -/
def UnitsAgree (d : String) : Prop :=
  ∃ x, read? d = some x ∧ (∀ u ∈ lakhs, read? (d ++ u) = some (x.mulNat 100000)) ∧
    (∀ u ∈ crores, read? (d ++ u) = some (x.mulNat 10000000)) ∧
    ('.' ∉ d.toList → ∃ n : Nat, x.integer? = some (n : Int) ∧
      (x.mulNat 100000).integer? = some (100000 * n : Int) ∧
      (x.mulNat 10000000).integer? = some (10000000 * n : Int))

/-- A decimal of at most nine characters, not zero. -/
structure Ordinary (d : String) (whole fraction : List Char) : Prop where
  written : IsDecimal d.toList whole fraction
  short : d.length ≤ 9
  nonzero : number whole fraction ≠ 0

namespace Ordinary

variable (hordinary : Ordinary d whole fraction)

include hordinary

theorem length_le : whole.length + fraction.length ≤ 9 ∧ fraction.length ≤ 7 :=
  hordinary.written.length_le (by rw [String.length_toList]; exact hordinary.short)

theorem digitsOf_pos : 0 < digitsOf whole fraction :=
  Nat.pos_of_ne_zero fun hzero => hordinary.nonzero (by rw [number, hzero, Nat.cast_zero, zero_div])

theorem digitsOf_lt : digitsOf whole fraction < 10 ^ 9 := by
  rw [← digitsAt_length]
  exact Nat.lt_of_lt_of_le (digitsAt_lt le_rfl)
    (Nat.pow_le_pow_right (by decide) hordinary.length_le.1)

theorem isPositive : (decimal whole fraction).isPositive = true := by
  rw [decimal_eq_digitsOf]
  exact isPositive_decimal hordinary.digitsOf_pos hordinary.digitsOf_lt hordinary.length_le.2

theorem read?_append_unit {k : Nat} (hunit : (u, k) ∈ units) :
    read? (d ++ u) = some ((decimal whole fraction).mulNat k) := by
  have hfactor : 0 < k ∧ k ≤ 10000000 := by
    have hall : ∀ unit ∈ units, 0 < unit.2 ∧ unit.2 ≤ 10000000 := by decide
    exact hall _ hunit
  have hpositive : ((decimal whole fraction).mulNat k).isPositive = true := by
    rw [decimal_eq_digitsOf]
    exact isPositive_product hordinary.digitsOf_pos hordinary.digitsOf_lt hordinary.length_le.2
      hfactor.1 hfactor.2
  rw [Amount.read?_append_unit hordinary.written hunit, Option.filter, if_pos hpositive]

theorem read?_lakh :
    ∀ u ∈ lakhs, read? (d ++ u) = some ((decimal whole fraction).mulNat 100000) := by
  have hall : ∀ u ∈ lakhs, (u, 100000) ∈ units := by decide
  exact fun u hmem => hordinary.read?_append_unit (hall u hmem)

theorem read?_crore :
    ∀ u ∈ crores, read? (d ++ u) = some ((decimal whole fraction).mulNat 10000000) := by
  have hall : ∀ u ∈ crores, (u, 10000000) ∈ units := by decide
  exact fun u hmem => hordinary.read?_append_unit (hall u hmem)

theorem length_ascii_le : (ascii whole).length + fraction.length ≤ 9 ∧
    (ascii fraction).length ≤ fraction.length := by
  have hwhole : (ascii whole).length ≤ whole.length := List.length_filter_le _ _
  have hsizes := hordinary.length_le
  exact ⟨by omega, List.length_filter_le _ _⟩

/-- The digits `0` to `9` have the product of all the digits only if they write the same number. -/
theorem number_eq_of_product_eq
    (hsame : (decimal (ascii whole) (ascii fraction)).mulNat 100000 =
      (decimal whole fraction).mulNat 100000) :
    number (ascii whole) (ascii fraction) = number whole fraction := by
  obtain ⟨hplaces, hfewer⟩ := hordinary.length_ascii_le
  have hbound : digitsAt fraction.length (ascii whole) (ascii fraction) < 10 ^ 9 :=
    Nat.lt_of_lt_of_le (digitsAt_lt hfewer) (Nat.pow_le_pow_right (by decide) hplaces)
  rw [decimal_eq hfewer, decimal_eq_digitsOf] at hsame
  rw [number_eq hfewer, number,
    eq_of_product_eq hbound hordinary.digitsOf_lt hordinary.length_le.2 hsame]

theorem read?_of_number_eq (hsame : number (ascii whole) (ascii fraction) = number whole fraction) :
    read? d = some (decimal whole fraction) := by
  have hfewer := hordinary.length_ascii_le.2
  have hdigits :
      digitsAt fraction.length (ascii whole) (ascii fraction) = digitsOf whole fraction := by
    rw [number_eq hfewer, number, div_left_inj' (by positivity)] at hsame
    exact_mod_cast hsame
  have hnonempty : ¬ (ascii whole ++ ascii fraction).isEmpty = true := by
    intro hempty
    refine hordinary.nonzero (hsame.symm.trans ?_)
    rw [number, digitsOf, List.isEmpty_iff.1 hempty]
    simp [Text.ofDigits]
  have hdecimals : decimal (ascii whole) (ascii fraction) = decimal whole fraction := by
    rw [decimal_eq hfewer, decimal_eq_digitsOf, hdigits]
  rw [read?_of_isDecimal hordinary.written, plain?_of_isDecimal hordinary.written, if_neg hnonempty,
    hdecimals, Option.filter, if_pos hordinary.isPositive]

/-- Without a point nothing is rounded. -/
theorem integers (hnoPoint : '.' ∉ d.toList) :
    ∃ n : Nat, (decimal whole fraction).integer? = some (n : Int) ∧
      ((decimal whole fraction).mulNat 100000).integer? = some (100000 * n : Int) ∧
      ((decimal whole fraction).mulNat 10000000).integer? = some (10000000 * n : Int) := by
  have hnone := hordinary.written.fraction_eq_nil hnoPoint
  have hbound := hordinary.digitsOf_lt
  rw [decimal_eq_digitsOf, hnone, List.length_nil, Nat.pow_zero]
  rw [hnone] at hbound
  generalize digitsOf whole [] = n at *
  obtain ⟨hwhole, hlakh⟩ := Double.integer?_mulNat (n := n) (k := 100000) (a := n * 100000) (e := 0)
    (by omega) (by omega) (by omega) (by decide)
  obtain ⟨-, hcrore⟩ := Double.integer?_mulNat (n := n) (k := 10000000) (a := n * 78125) (e := 7)
    (by omega) (by omega) (by omega) (by decide)
  exact ⟨n, hwhole, hlakh, hcrore⟩

end Ordinary

/-- With a unit, all the digits of a decimal are read, and without one the digits `0` to `9` alone.
So the two agree exactly if these write the same number. -/
theorem unitsAgree_iff (hordinary : Ordinary d whole fraction) :
    ((∀ u ∈ lakhs, read? (d ++ u) = some ((decimal whole fraction).mulNat 100000)) ∧
      ∀ u ∈ crores, read? (d ++ u) = some ((decimal whole fraction).mulNat 10000000)) ∧
      (UnitsAgree d ↔ number (ascii whole) (ascii fraction) = number whole fraction) := by
  refine ⟨⟨hordinary.read?_lakh, hordinary.read?_crore⟩, fun hagree => ?_, fun hsame => ?_⟩
  · obtain ⟨x, hplain, hlakh, -⟩ := hagree
    have hproduct := hlakh "l" (by decide)
    rw [hordinary.read?_lakh "l" (by decide)] at hproduct
    rw [read?_of_isDecimal hordinary.written, plain?_of_isDecimal hordinary.written] at hplain
    obtain ⟨hkept, -⟩ := Option.filter_eq_some_iff.1 hplain
    split at hkept
    · cases hkept
    · obtain rfl := Option.some.inj hkept
      exact hordinary.number_eq_of_product_eq (Option.some.inj hproduct).symm
  · exact ⟨_, hordinary.read?_of_number_eq hsame, hordinary.read?_lakh, hordinary.read?_crore,
      hordinary.integers⟩

/-- One and a half lakhs, one and a half crores. -/
theorem unitsAgree_iff_half :
    Ordinary "1.5" ['1'] ['5'] ∧
      ((∀ u ∈ lakhs, read? ("1.5" ++ u) = some ((decimal ['1'] ['5']).mulNat 100000)) ∧
        ∀ u ∈ crores, read? ("1.5" ++ u) = some ((decimal ['1'] ['5']).mulNat 10000000)) ∧
      UnitsAgree "1.5" := by
  have hfifteen : digitsOf ['1'] ['5'] = 15 := by decide
  have hordinary : Ordinary "1.5" ['1'] ['5'] :=
    ⟨.point (show IsNumeral ['1'] by decide) (show IsNumeral ['5'] by decide), by decide,
      by simp [number, hfifteen]⟩
  obtain ⟨hunits, hiff⟩ := unitsAgree_iff hordinary
  exact ⟨hordinary, hunits, hiff.2 rfl⟩

/-- Twelve in digits of another script is an amount with a unit alone. -/
theorem not_unitsAgree :
    ¬ ∀ (d : String) (whole fraction : List Char), Ordinary d whole fraction → UnitsAgree d := by
  intro halways
  have htwelve : digitsOf ['१', '२'] [] = 12 := by decide
  have hwritten : IsDecimal "१२".toList ['१', '२'] [] := .whole (by decide)
  obtain ⟨x, hamount, -⟩ := halways _ _ _ ⟨hwritten, by decide, by simp [number, htwelve]⟩
  rw [read?_of_isDecimal hwritten, plain?_of_isDecimal hwritten] at hamount
  cases hamount

end Dialogue.Amount

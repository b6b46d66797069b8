import Dialogue.Json.Printer
import Dialogue.Json.Reader
import Dialogue.Proofs.Double.Decimal

/-!
# Numbers in JSON text read back

An integer is written by its digits, and a finite double by the shortest digits that read back, laid
out with a point or an exponent.  Whatever the layout, the digits and the exponent that the reader
finds stand for the same decimal number (`unsigned?_decimalText`), and so the double that was
written is read again (`atom?_number`).  An infinity and the one NaN are written as words
(`atom?_number_of_isNaN`).

What follows a value in JSON text is nothing, a comma or a line break (`Ends`), none of which can go
on with a number.
-/

namespace Dialogue.Json

open Text (isAsciiDigit ofNumerals)

/-! ## Runs of digits -/

/-- What follows a value in the text of a longer one. -/
def Ends (rest : List Char) : Prop := ∀ c, rest.head? = some c → c = ',' ∨ c = '\n'

/-- All characters are digits. -/
def Digits (ds : List Char) : Prop := ∀ c ∈ ds, isAsciiDigit c = true

/-- The text does not start with a digit. -/
def NoDigit (rest : List Char) : Prop := ∀ c, rest.head? = some c → isAsciiDigit c = false

theorem Ends.noDigit {rest : List Char} (hends : Ends rest) : NoDigit rest := by
  intro c hc
  rcases hends c hc with rfl | rfl <;> rfl

theorem noDigit_cons {c : Char} {rest : List Char} (h : isAsciiDigit c = false) :
    NoDigit (c :: rest) := by
  intro d hd
  cases hd
  exact h

theorem takeWhile_digits {ds rest : List Char} (hdigits : Digits ds) (hnext : NoDigit rest) :
    (ds ++ rest).takeWhile isAsciiDigit = ds ∧ (ds ++ rest).dropWhile isAsciiDigit = rest := by
  induction ds with
  | nil =>
    cases rest with
    | nil => exact ⟨rfl, rfl⟩
    | cons c rest => simp [hnext c rfl]
  | cons d ds ih =>
    have hdigit : isAsciiDigit d = true := hdigits d List.mem_cons_self
    obtain ⟨htaken, hdropped⟩ := ih fun c hc => hdigits c (List.mem_cons_of_mem d hc)
    simp [hdigit, htaken, hdropped]

theorem digits_append {xs ys : List Char} (hx : Digits xs) (hy : Digits ys) : Digits (xs ++ ys) :=
  fun c hc => (List.mem_append.1 hc).elim (hx c) (hy c)

theorem digits_replicate_zero (n : Nat) : Digits (List.replicate n '0') := by
  intro c hc
  rw [List.eq_of_mem_replicate hc]
  rfl

theorem digits_toDigits (n : Nat) : Digits (Nat.toDigits 10 n) := by
  intro c hc
  have hdigit := Nat.isDigit_of_mem_toDigits (by decide) (by decide) hc
  simpa [Char.isDigit, isAsciiDigit, Char.le_def] using hdigit

theorem ofNumerals_eq (cs : List Char) : ofNumerals cs = Nat.ofDigitChars 10 cs 0 := rfl

@[simp] theorem ofNumerals_toDigits (n : Nat) : ofNumerals (Nat.toDigits 10 n) = n :=
  Nat.ofDigitChars_ten_toDigits

theorem head?_toDigits_ne_zero {n : Nat} (h : 0 < n) : (Nat.toDigits 10 n).head? ≠ some '0' := by
  induction n using Nat.strongRecOn with
  | _ n ih =>
    rw [Nat.toDigits_eq_if (by decide)]
    split
    · rename_i hsmall
      have : ∀ k < 10, 0 < k → (some (Nat.digitChar k)) ≠ some '0' := by decide
      exact this n hsmall h
    · rw [List.head?_append, Option.or_of_isSome (by simp)]
      exact ih (n / 10) (by omega) (by omega)

/-! ## The parts of a number -/

theorem fraction?_cons {ds rest : List Char} (hdigits : Digits ds) (hnonempty : ds ≠ [])
    (hnext : NoDigit rest) : fraction? ('.' :: (ds ++ rest)) = some (ds, rest) := by
  obtain ⟨htaken, hdropped⟩ := takeWhile_digits hdigits hnext
  simp [fraction?, htaken, hdropped, hnonempty]

theorem fraction?_eq_none {rest : List Char} (h : rest.head? ≠ some '.') :
    fraction? rest = none := by
  cases rest with
  | nil => rfl
  | cons c rest =>
    unfold fraction?
    split
    · rename_i hpoint
      exact absurd (by rw [hpoint]; rfl) h
    · rfl

theorem exponent?_cons (negative : Bool) {ds rest : List Char} (hdigits : Digits ds)
    (hnonempty : ds ≠ []) (hnext : NoDigit rest) :
    Text.exponent? ('e' :: (if negative then '-' else '+') :: (ds ++ rest)) =
      some (Text.signed negative (ofNumerals ds), rest) := by
  obtain ⟨htaken, hdropped⟩ := takeWhile_digits hdigits hnext
  cases negative <;> simp [Text.exponent?, Text.splitSign, htaken, hdropped, hnonempty]

theorem exponent?_eq_none {rest : List Char} (hends : Ends rest) : Text.exponent? rest = none := by
  cases rest with
  | nil => rfl
  | cons c rest => rcases hends c rfl with rfl | rfl <;> rfl

/-- Digits before the point: one zero alone, or digits that do not start with one. -/
structure IsWhole (whole : List Char) : Prop where
  digits : Digits whole
  nonempty : whole ≠ []
  noZero : whole = ['0'] ∨ whole.head? ≠ some '0'

/-- The reader takes exactly the digits before the point. -/
theorem unsigned?_of_whole (negative : Bool) {whole rest : List Char} (hwhole : IsWhole whole)
    (hnext : NoDigit rest) :
    unsigned? negative (whole ++ rest) =
      let fraction := fraction? rest
      let rest := (fraction.map (·.2)).getD rest
      let exponent := Text.exponent? rest
      let left := (exponent.map (·.2)).getD rest
      if fraction.isNone && exponent.isNone then
        some (.int (if negative then -(ofNumerals whole : Int) else ofNumerals whole), left)
      else
        let ds := (fraction.map (·.1)).getD []
        some (.double (Double.ofDecimal negative (ofNumerals (whole ++ ds))
          ((exponent.map (·.1)).getD 0 - ds.length)), left) := by
  obtain ⟨hdigits, hnonempty, rfl | hnoZero⟩ := hwhole
  · simp [unsigned?]
  · obtain ⟨htaken, -⟩ := takeWhile_digits hdigits hnext
    rw [unsigned?]
    · simp [htaken, hnonempty]
    · intro tail h
      cases whole with
      | nil => exact hnonempty rfl
      | cons c whole =>
        simp only [List.cons_append, List.cons.injEq] at h
        exact hnoZero (by rw [h.1]; rfl)

/-! ## Written numbers -/

theorem ofNumerals_zero_cons (cs : List Char) : ofNumerals ('0' :: cs) = ofNumerals cs := rfl

theorem ofNumerals_zeros_append (n : Nat) (cs : List Char) :
    ofNumerals (List.replicate n '0' ++ cs) = ofNumerals cs := by
  rw [ofNumerals_eq, Nat.ofDigitChars_append, Nat.ofDigitChars_replicate_zero, Nat.mul_zero]
  rfl

theorem ofNumerals_append_zeros (cs : List Char) (n : Nat) :
    ofNumerals (cs ++ List.replicate n '0') = ofNumerals cs * 10 ^ n := by
  rw [ofNumerals_eq, Nat.ofDigitChars_append, Nat.ofDigitChars_replicate_zero, Nat.mul_comm]
  rfl

theorem isWhole_of_append {n : Nat} (h : 0 < n) {whole rest : List Char} (hnonempty : whole ≠ [])
    (hsplit : whole ++ rest = Nat.toDigits 10 n) : IsWhole whole where
  digits c hc := digits_toDigits n c (hsplit ▸ List.mem_append_left rest hc)
  nonempty := hnonempty
  noZero := by
    have hnoZero := head?_toDigits_ne_zero h
    rw [← hsplit, List.head?_append] at hnoZero
    refine .inr fun hzero => hnoZero ?_
    rw [hzero]
    rfl

/-- A number with a point and no exponent. -/
theorem unsigned?_point (negative : Bool) (whole ds : List Char) {rest : List Char}
    (hwhole : IsWhole whole) (hdigits : Digits ds) (hnonempty : ds ≠ []) (hends : Ends rest) :
    unsigned? negative (whole ++ '.' :: (ds ++ rest)) =
      some (.double (Double.ofDecimal negative (ofNumerals (whole ++ ds)) (-(ds.length : Int))),
        rest) := by
  rw [unsigned?_of_whole negative hwhole (noDigit_cons rfl)]
  simp [fraction?_cons hdigits hnonempty hends.noDigit, exponent?_eq_none hends]

/-- Digits that follow a point and zeros: `0.00ddd`. -/
theorem unsigned?_zeros_toDigits (negative : Bool) (n zeros : Nat) {rest : List Char}
    (hends : Ends rest) :
    unsigned? negative ('0' :: '.' :: (List.replicate zeros '0' ++ (Nat.toDigits 10 n ++ rest))) =
      some (.double (Double.ofDecimal negative n
        (-((zeros + (Nat.toDigits 10 n).length : Nat) : Int))), rest) := by
  have hread := unsigned?_point negative ['0'] (List.replicate zeros '0' ++ Nat.toDigits 10 n)
    ⟨digits_replicate_zero 1, by simp, .inl rfl⟩
    (digits_append (digits_replicate_zero _) (digits_toDigits n))
    (List.append_ne_nil_of_right_ne_nil _ Nat.toDigits_ne_nil) hends
  have hvalue : ofNumerals (['0'] ++ (List.replicate zeros '0' ++ Nat.toDigits 10 n)) = n := by
    rw [List.singleton_append, ofNumerals_zero_cons, ofNumerals_zeros_append, ofNumerals_toDigits]
  rw [hvalue, List.append_assoc, List.length_append, List.length_replicate] at hread
  exact hread

/-- Digits that a point stands among: `dd.d`. -/
theorem unsigned?_take_drop (negative : Bool) {n point : Nat} (h : 0 < n) (hpositive : 0 < point)
    (hinside : point < (Nat.toDigits 10 n).length) {rest : List Char} (hends : Ends rest) :
    unsigned? negative ((Nat.toDigits 10 n).take point ++
        '.' :: ((Nat.toDigits 10 n).drop point ++ rest)) =
      some (.double (Double.ofDecimal negative n
        (-(((Nat.toDigits 10 n).length - point : Nat) : Int))), rest) := by
  have hwhole' : (Nat.toDigits 10 n).take point ≠ [] := by
    rw [Ne, List.take_eq_nil_iff, not_or]
    exact ⟨Nat.ne_of_gt hpositive, Nat.toDigits_ne_nil⟩
  have hfraction : (Nat.toDigits 10 n).drop point ≠ [] := by
    rw [Ne, List.drop_eq_nil_iff]
    exact Nat.not_le_of_lt hinside
  have hread := unsigned?_point negative _ _
    (isWhole_of_append h hwhole' (List.take_append_drop point _))
    (fun k hk => digits_toDigits n k (List.mem_of_mem_drop hk)) hfraction hends
  rw [List.take_append_drop, ofNumerals_toDigits, List.length_drop] at hread
  exact hread

/-- Digits that zeros and a point follow: `ddd00.0`. -/
theorem unsigned?_toDigits_zeros (negative : Bool) {n : Nat} (h : 0 < n) (zeros : Nat)
    {rest : List Char} (hends : Ends rest) :
    unsigned? negative (Nat.toDigits 10 n ++ (List.replicate zeros '0' ++ '.' :: '0' :: rest)) =
      some (.double (Double.ofDecimal negative (n * 10 ^ (zeros + 1)) (-1)), rest) := by
  have hwhole : IsWhole (Nat.toDigits 10 n ++ List.replicate zeros '0') :=
    { digits := digits_append (digits_toDigits n) (digits_replicate_zero _)
      nonempty := List.append_ne_nil_of_left_ne_nil Nat.toDigits_ne_nil _
      noZero := .inr (by
        rw [List.head?_append, List.head?_eq_some_head Nat.toDigits_ne_nil, Option.some_or,
          ← List.head?_eq_some_head]
        exact head?_toDigits_ne_zero h) }
  have hread := unsigned?_point negative _ ['0'] hwhole (digits_replicate_zero 1) (by simp) hends
  have hvalue : ofNumerals (Nat.toDigits 10 n ++ List.replicate zeros '0' ++ ['0']) =
      n * 10 ^ (zeros + 1) := by
    rw [List.append_assoc, ← List.replicate_succ', ofNumerals_append_zeros, ofNumerals_toDigits]
  rw [hvalue, List.append_assoc, List.length_singleton] at hread
  exact hread

/-- The exponent of a number as it is written. -/
def exponentText (e : Int) : List Char :=
  let size := Nat.toDigits 10 e.natAbs
  'e' :: (if e < 0 then '-' else '+') :: if size.length < 2 then '0' :: size else size

theorem exponent?_exponentText (e : Int) {rest : List Char} (hends : Ends rest) :
    Text.exponent? (exponentText e ++ rest) = some (e, rest) := by
  let size := Nat.toDigits 10 e.natAbs
  obtain ⟨shown, hshown, hdigits, hnonempty, hvalue⟩ : ∃ shown,
      (if size.length < 2 then '0' :: size else size) = shown ∧ Digits shown ∧ shown ≠ [] ∧
        ofNumerals shown = e.natAbs := by
    refine ⟨_, rfl, ?_⟩
    split
    · refine ⟨digits_append (digits_replicate_zero 1) (digits_toDigits _), by simp, ?_⟩
      rw [ofNumerals_zero_cons, ofNumerals_toDigits]
    · exact ⟨digits_toDigits _, Nat.toDigits_ne_nil, ofNumerals_toDigits _⟩
  have hread := exponent?_cons (decide (e < 0)) hdigits hnonempty hends.noDigit
  have hsigned : Text.signed (decide (e < 0)) e.natAbs = e := by
    simp only [Text.signed, decide_eq_true_eq]
    split <;> omega
  rw [hvalue, hsigned] at hread
  rw [← hread, exponentText]
  simp [size, ← hshown]

/-- The first digit of a number, and a point if others follow. -/
def leadText (c : Char) : List Char → List Char
  | [] => [c]
  | more => c :: '.' :: more

/-- A number with an exponent. -/
theorem unsigned?_exponent (negative : Bool) {c : Char} {more rest : List Char} {n : Nat}
    (h : 0 < n) (hsplit : c :: more = Nat.toDigits 10 n) (e : Int) (hends : Ends rest) :
    unsigned? negative (leadText c more ++ (exponentText e ++ rest)) =
      some (.double (Double.ofDecimal negative n (e - more.length)), rest) := by
  have hwhole : IsWhole [c] := isWhole_of_append h (by simp) hsplit
  have hnoDigit : NoDigit (exponentText e ++ rest) := noDigit_cons rfl
  have hvalue : ofNumerals (c :: more) = n := by rw [hsplit, ofNumerals_toDigits]
  cases more with
  | nil =>
    rw [leadText, unsigned?_of_whole negative hwhole hnoDigit,
      fraction?_eq_none (by simp [exponentText])]
    simp [exponent?_exponentText e hends, hvalue]
  | cons d more =>
    have hdigits : Digits (d :: more) := fun k hk =>
      digits_toDigits n k (hsplit ▸ List.mem_cons_of_mem c hk)
    have hpoint : NoDigit ('.' :: ((d :: more) ++ (exponentText e ++ rest))) := noDigit_cons rfl
    have hread := unsigned?_of_whole negative hwhole hpoint
    rw [fraction?_cons hdigits (by simp) hnoDigit] at hread
    simpa [leadText, exponent?_exponentText e hends, hvalue] using hread

/-- Whatever the layout of a decimal number, what is read is the same decimal number. -/
theorem unsigned?_decimalText (negative : Bool) {n : Nat} (h : 0 < n) (e : Int)
    {rest : List Char} (hends : Ends rest) :
    ∃ digits exponent,
      unsigned? negative ((Double.decimalText n e).toList ++ rest) =
        some (.double (Double.ofDecimal negative digits exponent), rest) ∧
      Double.decimalMagnitude digits exponent = Double.decimalMagnitude n e := by
  let point : Int := (Nat.toDigits 10 n).length + e
  simp only [Double.decimalText, Nat.toList_repr]
  by_cases hpositional : -4 < point ∧ point ≤ 16
  · rw [if_pos hpositional]
    by_cases hsmall : point ≤ 0
    · have hexponent : -(((-point).toNat + (Nat.toDigits 10 n).length : Nat) : Int) = e := by
        omega
      have hread := unsigned?_zeros_toDigits negative n (-point).toNat hends
      rw [hexponent] at hread
      refine ⟨n, e, ?_, rfl⟩
      rw [if_pos hsmall, ← hread]
      simp [point]
    · rw [if_neg hsmall]
      by_cases hfractional : e < 0
      · have hpositive : 0 < point.toNat := by omega
        have hinside : point.toNat < (Nat.toDigits 10 n).length := by omega
        have hexponent : -(((Nat.toDigits 10 n).length - point.toNat : Nat) : Int) = e := by
          omega
        have hread := unsigned?_take_drop negative h hpositive hinside hends
        rw [hexponent] at hread
        refine ⟨n, e, ?_, rfl⟩
        rw [if_pos hfractional, ← hread]
        simp [point]
      · refine ⟨n * 10 ^ (e.toNat + 1), -1, ?_, ?_⟩
        · rw [if_neg hfractional, ← unsigned?_toDigits_zeros negative h e.toNat hends]
          simp
        · rw [Double.decimalMagnitude_mul_pow]
          congr 1
          omega
  · obtain ⟨c, more, hsplit⟩ := List.exists_cons_of_ne_nil (Nat.toDigits_ne_nil (n := n) (b := 10))
    have hread := unsigned?_exponent negative h hsplit.symm (point - 1) hends
    have hexponent : point - 1 - more.length = e := by
      simp only [point, hsplit, List.length_cons]
      omega
    rw [hexponent] at hread
    refine ⟨n, e, ?_, rfl⟩
    rw [if_neg hpositional, ← hread]
    simp only [point, hsplit]
    cases more <;> simp [exponentText, leadText]

/-! ## Numbers among the words -/

theorem exists_digit_of_unsigned? {negative : Bool} {cs : List Char} {r : Value × List Char}
    (hread : unsigned? negative cs = some r) :
      ∃ c rest, cs = c :: rest ∧ isAsciiDigit c = true := by
  cases cs with
  | nil => simp [unsigned?] at hread
  | cons c rest =>
    refine ⟨c, rest, rfl, Decidable.by_contra fun hother => ?_⟩
    have hnoZero : c ≠ '0' := by
      rintro rfl
      exact hother rfl
    rw [unsigned?] at hread
    · simp [hother] at hread
    · intro tail h
      exact hnoZero (List.cons.inj h).1

theorem atom?_of_unsigned? {cs : List Char} {r : Value × List Char}
    (hread : unsigned? false cs = some r) : atom? cs = some r := by
  obtain ⟨c, rest, rfl, hdigit⟩ := exists_digit_of_unsigned? hread
  rw [← hread]
  unfold atom?
  split <;> first | rfl | (rename_i h; cases h; exact absurd hdigit (by decide))

theorem atom?_neg_of_unsigned? {cs : List Char} {r : Value × List Char}
    (hread : unsigned? true cs = some r) : atom? ('-' :: cs) = some r := by
  obtain ⟨c, rest, rfl, hdigit⟩ := exists_digit_of_unsigned? hread
  rw [← hread]
  unfold atom?
  split <;> rename_i h
  all_goals first
    | exact absurd rfl (h (c :: rest))
    | cases h <;> first | rfl | exact absurd hdigit (by decide)

theorem atom?_int (n : Int) {rest : List Char} (hends : Ends rest) :
    atom? ((toString n).toList ++ rest) = some (.int n, rest) := by
  have hwhole' : ∀ (negative : Bool) (m : Nat), unsigned? negative (Nat.toDigits 10 m ++ rest) =
      some (.int (if negative then -(m : Int) else m), rest) := by
    intro negative m
    have hwhole : IsWhole (Nat.toDigits 10 m) := by
      rcases Nat.eq_zero_or_pos m with rfl | hpositive
      · exact ⟨digits_toDigits 0, Nat.toDigits_ne_nil, .inl (Nat.toDigits_zero 10)⟩
      · exact isWhole_of_append hpositive Nat.toDigits_ne_nil (List.append_nil _)
    have hnoPoint : rest.head? ≠ some '.' := fun h => by
      rcases hends '.' h with h | h <;> exact absurd h (by decide)
    rw [unsigned?_of_whole negative hwhole hends.noDigit, fraction?_eq_none hnoPoint]
    simp [exponent?_eq_none hends]
  rw [Int.toString_eq_repr, Int.repr_eq_if]
  split
  · rename_i hnonneg
    rw [Nat.toList_repr]
    refine atom?_of_unsigned? ((hwhole' false n.toNat).trans ?_)
    simp [Int.toNat_of_nonneg hnonneg]
  · rename_i hnegative
    rw [String.toList_append, Nat.toList_repr]
    refine atom?_neg_of_unsigned? ((hwhole' true (-n).toNat).trans ?_)
    have hsize : -((-n).toNat : Int) = n := by omega
    rw [if_pos rfl, hsize]

theorem atom?_number {d : Double} (hfinite : d.isFinite = true) {rest : List Char}
    (hends : Ends rest) : atom? ((number d).toList ++ rest) = some (.double d, rest) := by
  have hnumber : d.isNaN = false ∧ d.isInfinite = false := by
    simp only [Double.isFinite, decide_eq_true_eq] at hfinite
    simp only [Double.isNaN, Double.isInfinite, decide_eq_false_iff_not, beq_eq_false_iff_ne]
    omega
  have hexact := Double.decimalMagnitude_shortest hfinite
  have hread : unsigned? d.negative (d.magnitudeText.toList ++ rest) = some (.double d, rest) := by
    rw [Double.magnitudeText]
    by_cases hzero : d.shortest.1 = 0
    · rw [hzero] at hexact
      have hpoint := unsigned?_point d.negative ['0'] ['0']
        ⟨digits_replicate_zero 1, by simp, .inl rfl⟩ (digits_replicate_zero 1) (by simp) hends
      have hsame : Double.ofDecimal d.negative 0 (-1) = d := by
        refine Double.ofDecimal_of_magnitude (Eq.trans ?_ hexact)
        simp [Double.decimalMagnitude, Double.roundMagnitude]
      simp only [if_pos hzero]
      refine hpoint.trans ?_
      rw [show (ofNumerals (['0'] ++ ['0'])) = 0 from rfl]
      exact congrArg (fun d => some (Value.double d, rest)) hsame
    · obtain ⟨digits, exponent, hread, hsame⟩ := unsigned?_decimalText d.negative
        (Nat.pos_of_ne_zero hzero) d.shortest.2 hends
      simp only [if_neg hzero]
      rw [hread, Double.ofDecimal_of_magnitude (hsame.trans hexact)]
  have htext : number d = (if d.negative then "-" else "") ++ d.magnitudeText := by
    simp [number, Double.textWith, hnumber]
  rw [htext]
  cases hsign : d.negative with
  | false =>
    rw [hsign] at hread
    simpa using atom?_of_unsigned? hread
  | true =>
    rw [hsign] at hread
    simpa using atom?_neg_of_unsigned? hread

/-- A double is read again, bit for bit, where the only NaN is the one that stands for all. -/
theorem atom?_number_of_isNaN {d : Double} (hjson : d.isNaN = true → d = Double.nan)
    {rest : List Char} (hends : Ends rest) :
    atom? ((number d).toList ++ rest) = some (.double d, rest) := by
  cases hfinite : d.isFinite with
  | true => exact atom?_number hfinite hends
  | false =>
    cases hnan : d.isNaN with
    | true =>
      obtain rfl := hjson hnan
      rfl
    | false =>
      have hinfinite : d.magnitude = Double.infinityMagnitude := by
        simp only [Double.isFinite, Double.isNaN, decide_eq_false_iff_not] at hfinite hnan
        omega
      have htext : number d = (if d.negative then "-" else "") ++ "Infinity" := by
        simp [number, Double.textWith, hnan, Double.isInfinite, hinfinite]
      have hsame := Double.ofMagnitude_magnitude d
      rw [hinfinite] at hsame
      rw [htext]
      cases hnegative : d.negative with
      | true =>
        rw [hnegative] at hsame
        rw [← hsame]
        rfl
      | false =>
        rw [hnegative] at hsame
        rw [← hsame]
        rfl

end Dialogue.Json

import Dialogue.Double.Shortest
import Dialogue.Proofs.Double.Rounding

/-!
# Decimal numbers read back

`Double.ofDecimal` does not expand exponents far outside the range of doubles.  The cut-offs are
right: what it gives is always the rounded quotient (`ofDecimal_eq`), so a zero may move from the
digits to the exponent (`decimalMagnitude_mul_ten`).  From this follows that the digits and the
exponent of `Double.shortest` read back as the number that they were made from
(`decimalMagnitude_shortest`).
-/

namespace Dialogue.Double

theorem ofMagnitude_magnitude (d : Double) : ofMagnitude d.negative d.magnitude = d := by
  obtain ⟨bits⟩ := d
  have hbelow := bits.toNat_lt
  simp only [ofMagnitude, magnitude, negative, Nat.pow_eq]
  congr 1
  rw [← UInt64.toNat_inj, UInt64.toNat_ofNat']
  by_cases high : 2 ^ 63 ≤ bits.toNat
  · simp only [decide_eq_true high, if_true]
    omega
  · simp only [decide_eq_false high, Bool.false_eq_true, if_false]
    omega

theorem magnitude_ofMagnitude (negative : Bool) {m : Nat} (h : m < 2 ^ 63) :
    (ofMagnitude negative m).magnitude = m := by
  simp only [ofMagnitude, magnitude, Nat.pow_eq, UInt64.toNat_ofNat']
  cases negative
  · simp only [Bool.false_eq_true, if_false]
    omega
  · simp only [if_true]
    omega

theorem roundMagnitude_le (num den : Nat) : roundMagnitude num den ≤ infinityMagnitude := by
  rw [roundMagnitude]
  split
  · exact Nat.zero_le _
  · exact Nat.min_le_right _ _

theorem roundMagnitude_lt (num den : Nat) : roundMagnitude num den < 2 ^ 63 :=
  Nat.lt_of_le_of_lt (roundMagnitude_le num den) (by decide)

/-- The magnitude nearest to `digits · 10 ^ exponent`. -/
def decimalMagnitude (digits : Nat) (exponent : Int) : Nat :=
  roundMagnitude (digits * 10 ^ exponent.toNat) (10 ^ (-exponent).toNat)

/-- Digits are fewer than a third of the bits, and one. -/
theorem lt_ten_pow (digits : Nat) : digits < 10 ^ (digits.log2 / 3 + 1) := by
  have henough : digits.log2 + 1 ≤ 3 * (digits.log2 / 3 + 1) := by omega
  calc digits < 2 ^ (digits.log2 + 1) := Nat.lt_log2_self
    _ ≤ 2 ^ (3 * (digits.log2 / 3 + 1)) := Nat.pow_le_pow_right (by decide) henough
    _ = 8 ^ (digits.log2 / 3 + 1) := by rw [Nat.pow_mul]
    _ ≤ 10 ^ (digits.log2 / 3 + 1) := Nat.pow_le_pow_left (by decide) _

theorem mul_two_pow_lt (digits : Nat) {m k n : Nat} (hm : 2 ^ m ≤ 10 ^ k)
    (hn : digits.log2 / 3 + 1 + k ≤ n) : digits * 2 ^ m < 10 ^ n :=
  calc digits * 2 ^ m < 10 ^ (digits.log2 / 3 + 1) * 2 ^ m :=
        Nat.mul_lt_mul_of_pos_right (lt_ten_pow digits) (Nat.two_pow_pos m)
    _ ≤ 10 ^ (digits.log2 / 3 + 1) * 10 ^ k := Nat.mul_le_mul_left _ hm
    _ = 10 ^ (digits.log2 / 3 + 1 + k) := (Nat.pow_add _ _ _).symm
    _ ≤ 10 ^ n := Nat.pow_le_pow_right (by decide) hn

/-- What is read from digits and an exponent is the rounded quotient, whatever the exponent. -/
theorem ofDecimal_eq (negative : Bool) (digits : Nat) (exponent : Int) :
    ofDecimal negative digits exponent =
      ofMagnitude negative (decimalMagnitude digits exponent) := by
  rw [ofDecimal, decimalMagnitude]
  by_cases hzero : digits = 0
  · rw [if_pos hzero, hzero, Nat.zero_mul, roundMagnitude, if_pos (.inl rfl)]
  · rw [if_neg hzero]
    have hpositive : 1 ≤ digits := Nat.pos_of_ne_zero hzero
    by_cases hlarge : 400 < exponent
    · have hden : (-exponent).toNat = 0 := by omega
      have hnum : 1 * 2 ^ 1024 ≤ digits * 10 ^ exponent.toNat := by
        refine Nat.mul_le_mul hpositive ?_
        calc 2 ^ 1024 ≤ 10 ^ 400 := by decide +kernel
          _ ≤ 10 ^ exponent.toNat := Nat.pow_le_pow_right (by decide) (by omega)
      rw [if_pos hlarge, hden, Nat.pow_zero, roundMagnitude_of_large Nat.one_pos hnum]
    · rw [if_neg hlarge]
      by_cases hwhole : 0 ≤ exponent
      · have hden : (-exponent).toNat = 0 := by omega
        rw [if_pos hwhole, hden, Nat.pow_zero, ofRatio, Nat.pow_eq]
      · have hnum : exponent.toNat = 0 := by omega
        rw [if_neg hwhole, hnum, Nat.pow_zero, Nat.mul_one]
        by_cases hsmall : exponent + ((digits.log2 / 3 + 1 : Nat) : Int) < -400
        · have htiny : digits * 2 ^ 1075 < 10 ^ (-exponent).toNat := by
            have halves : 2 ^ 1075 ≤ 10 ^ 400 := by decide +kernel
            exact mul_two_pow_lt digits halves (by omega)
          rw [roundMagnitude_of_small htiny]
          exact if_pos hsmall
        · exact if_neg hsmall

theorem decimalMagnitude_mul_ten (digits : Nat) (exponent : Int) :
    decimalMagnitude (digits * 10) exponent = decimalMagnitude digits (exponent + 1) := by
  by_cases hwhole : 0 ≤ exponent
  · have hnum : (exponent + 1).toNat = exponent.toNat + 1 := by omega
    have hden : (-(exponent + 1)).toNat = 0 := by omega
    have hden' : (-exponent).toNat = 0 := by omega
    rw [decimalMagnitude, decimalMagnitude, hnum, hden, hden', Nat.pow_succ, Nat.mul_assoc,
      Nat.mul_comm 10]
  · have hnum : exponent.toNat = 0 := by omega
    have hnum' : (exponent + 1).toNat = 0 := by omega
    have hden : (-exponent).toNat = (-(exponent + 1)).toNat + 1 := by omega
    rw [decimalMagnitude, decimalMagnitude, hnum, hnum', hden, Nat.pow_zero, Nat.mul_one,
      Nat.mul_one, Nat.pow_succ, Nat.mul_comm digits, Nat.mul_comm (10 ^ _)]
    exact roundMagnitude_mul_left (by decide) _ _

theorem decimalMagnitude_mul_pow (digits n : Nat) (exponent : Int) :
    decimalMagnitude (digits * 10 ^ n) exponent = decimalMagnitude digits (exponent + n) := by
  induction n generalizing exponent with
  | zero => simp
  | succ n ih =>
    rw [Nat.pow_succ, ← Nat.mul_assoc, decimalMagnitude_mul_ten, ih]
    congr 1
    omega

theorem decimalMagnitude_dropZeros (fuel digits : Nat) (exponent : Int) :
    decimalMagnitude (dropZeros fuel digits exponent).1 (dropZeros fuel digits exponent).2 =
      decimalMagnitude digits exponent := by
  induction fuel generalizing digits exponent with
  | zero => rfl
  | succ fuel ih =>
    rw [dropZeros]
    split
    · rename_i htens
      rw [ih, ← decimalMagnitude_mul_ten, Nat.div_mul_cancel (Nat.dvd_of_mod_eq_zero htens.2)]
    · rfl

/-! ## The shortest digits -/

theorem ratio_den (d : Double) : d.ratio.2 = 2 ^ d.ratio.2.log2 := by
  simp only [ratio, Nat.pow_eq]
  split
  · rfl
  · rw [Nat.log2_two_pow]

/-- The exact expansion of a finite number reads back as it. -/
theorem decimalMagnitude_exactDecimal {d : Double} (hfinite : d.isFinite = true) :
    decimalMagnitude (exactDecimal d.ratio.1 d.ratio.2).1 (exactDecimal d.ratio.1 d.ratio.2).2 =
      d.magnitude := by
  rw [exactDecimal, decimalMagnitude_dropZeros, decimalMagnitude]
  generalize hk : d.ratio.2.log2 = k
  have hden : d.ratio.2 = 2 ^ k := hk ▸ ratio_den d
  have hnum : (-(k : Int)).toNat = 0 := by omega
  have hexponent : (-(-(k : Int))).toNat = k := by omega
  rw [hnum, hexponent, Nat.pow_zero, Nat.mul_one, Nat.mul_comm, show (10 : Nat) = 5 * 2 from rfl,
    Nat.mul_pow, ← hden, Nat.pow_eq, roundMagnitude_mul_left (Nat.pow_pos (by decide)),
    roundMagnitude_ratio hfinite]

theorem decimalMagnitude_shortest {d : Double} (hfinite : d.isFinite = true) :
    decimalMagnitude d.shortest.1 d.shortest.2 = d.magnitude := by
  rw [shortest]
  by_cases hnothing : d.ratio.1 = 0
  · have hzero : d.magnitude = 0 := Nat.eq_zero_of_not_pos fun hpositive => by
      have := (ratio_pos hpositive).1
      omega
    simp only [if_pos hnothing, hzero, decimalMagnitude, Nat.zero_mul, roundMagnitude, true_or,
      if_true]
  · simp only [if_neg hnothing]
    split
    · rename_i digits exponent hit
      obtain ⟨n, -, hfound⟩ := List.exists_of_findSome?_eq_some hit
      obtain ⟨candidate, -, hreads⟩ := List.exists_of_findSome?_eq_some hfound
      rw [decimalMagnitude_dropZeros]
      split at hreads
      · rename_i hsame
        simp only [Option.some.injEq, Prod.mk.injEq] at hreads
        rw [hreads.1, hreads.2, ofDecimal_eq, decimalMagnitude,
          magnitude_ofMagnitude _ (roundMagnitude_lt _ _)] at hsame
        exact hsame
      · exact absurd hreads (by simp)
    · exact decimalMagnitude_exactDecimal hfinite

theorem isNaN_ofDecimal (negative : Bool) (digits : Nat) (exponent : Int) :
    (ofDecimal negative digits exponent).isNaN = false := by
  rw [ofDecimal_eq, isNaN, decimalMagnitude, magnitude_ofMagnitude _ (roundMagnitude_lt _ _)]
  simpa using roundMagnitude_le _ _

/-- Digits that read back as the magnitude of a finite number read back as the number. -/
theorem ofDecimal_of_magnitude {d : Double} {digits : Nat} {exponent : Int}
    (h : decimalMagnitude digits exponent = d.magnitude) :
    ofDecimal d.negative digits exponent = d := by
  rw [ofDecimal_eq, h, ofMagnitude_magnitude]

end Dialogue.Double

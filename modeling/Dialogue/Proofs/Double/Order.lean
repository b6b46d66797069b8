import Dialogue.Proofs.Double.Decimal
import Mathlib.Order.Monotone.Basic
import Mathlib.Tactic.Ring

/-!
# The order of numbers, and what is rounded to itself

Every finite number is a multiple of the least one above zero (`unitsOf`), and the multiples are
ordered as the magnitudes are (`strictMono_unitsOf`).  Rounding keeps the order of quotients
(`roundMagnitude_mono`).  Fifty-three bits times a power of two are a number (`exists_number`), and
what is not above it or not below it is rounded to nothing above or below it
(`unitsOf_roundMagnitude_le`, `le_unitsOf_roundMagnitude`).
-/

namespace Dialogue.Double

/-! ## Numbers as multiples of the least one -/

/-- The finite number of a magnitude as a multiple of the least number above zero, which is
`2 ^ (-1074)`. -/
def unitsOf (m : Nat) : Nat :=
  if m < 2 ^ 52 then m else (m % 2 ^ 52 + 2 ^ 52) * 2 ^ (m / 2 ^ 52 - 1)

/-- One as a multiple of the least number above zero. -/
def unitsOfOne : Nat := 2 ^ 1074

theorem unitsOfOne_pos : 0 < unitsOfOne := by
  unfold unitsOfOne
  generalize 1074 = bias
  exact Nat.two_pow_pos bias

theorem two_pow_mul_eq_unitsOfOne {s : Nat} (h : s ≤ 1074) :
    2 ^ s * 2 ^ (1074 - s) = unitsOfOne := by
  unfold unitsOfOne
  generalize 1074 = bias at *
  rw [← Nat.pow_add, Nat.add_sub_of_le h]

theorem unitsOfOne_mul_two_pow (e : Nat) : unitsOfOne * 2 ^ e = 2 ^ (1074 + e) := by
  unfold unitsOfOne
  generalize 1074 = bias
  rw [← Nat.pow_add]

theorem mantissa_mul_scale (d : Double) : d.mantissa * 2 ^ d.scale = unitsOf d.magnitude := by
  simp only [mantissa, scale, unitsOf, Nat.pow_eq]
  split
  · rename_i hsubnormal
    rw [show d.magnitude / 2 ^ 52 - 1 = 0 by omega, Nat.pow_zero, Nat.mul_one]
  · rfl

theorem ratio_units (d : Double) : d.ratio.1 * unitsOfOne = unitsOf d.magnitude * d.ratio.2 := by
  rw [← mantissa_mul_scale, unitsOfOne]
  simp only [ratio, Nat.pow_eq]
  generalize 1074 = bias
  split
  · rename_i hlarge
    rw [Nat.mul_one, Nat.mul_assoc, ← Nat.pow_add, Nat.sub_add_cancel hlarge]
  · rename_i hsmall
    rw [Nat.mul_assoc, ← Nat.pow_add, Nat.add_sub_of_le (by omega)]

theorem ratio_den_pos (d : Double) : 0 < d.ratio.2 := by
  rw [ratio_den]
  exact Nat.two_pow_pos _

theorem unitsOf_of_lt {m : Nat} (hsubnormal : m < 2 ^ 52) : unitsOf m = m := if_pos hsubnormal

theorem unitsOf_of_le {m : Nat} (hnormal : 2 ^ 52 ≤ m) :
    unitsOf m = (m % 2 ^ 52 + 2 ^ 52) * 2 ^ (m / 2 ^ 52 - 1) := if_neg (Nat.not_lt.2 hnormal)

theorem unitsOf_lt_succ (m : Nat) : unitsOf m < unitsOf (m + 1) := by
  rcases Nat.lt_trichotomy (m + 1) (2 ^ 52) with hsubnormal | hfirst | hnormal
  · rw [unitsOf_of_lt hsubnormal, unitsOf_of_lt (Nat.lt_of_succ_lt hsubnormal)]
    exact Nat.lt_succ_self m
  · rw [unitsOf_of_lt (m := m) (by omega), unitsOf_of_le (Nat.le_of_eq hfirst.symm),
      show (m + 1) / 2 ^ 52 - 1 = 0 by omega]
    omega
  · have horder : 2 ^ ((m + 1) / 2 ^ 52 - 1) = 2 ^ (m / 2 ^ 52 - 1) ∧
          (m + 1) % 2 ^ 52 = m % 2 ^ 52 + 1 ∨
        2 ^ ((m + 1) / 2 ^ 52 - 1) = 2 * 2 ^ (m / 2 ^ 52 - 1) := by
      by_cases hlast : (m + 1) % 2 ^ 52 = 0
      · refine .inr ?_
        rw [← Nat.pow_succ']
        congr 1
        omega
      · refine .inl ⟨?_, by omega⟩
        congr 1
        omega
    rw [unitsOf_of_le (m := m) (by omega), unitsOf_of_le (m := m + 1) (by omega)]
    have hpositive := Nat.two_pow_pos (m / 2 ^ 52 - 1)
    rcases horder with ⟨hsame, hnext⟩ | hdouble
    · rw [hsame, hnext]
      exact Nat.mul_lt_mul_of_pos_right (by omega) hpositive
    · rw [hdouble, ← Nat.mul_assoc]
      exact Nat.mul_lt_mul_of_pos_right (by omega) hpositive

theorem strictMono_unitsOf : StrictMono unitsOf := strictMono_nat_of_lt_succ unitsOf_lt_succ

theorem exists_unitsOf_two_mul (m : Nat) :
    ∃ n ≤ max (2 ^ 53) (m + 2 ^ 52), unitsOf n = 2 * unitsOf m := by
  by_cases hsubnormal : m < 2 ^ 52
  · refine ⟨2 * m, by omega, ?_⟩
    simp only [unitsOf, if_pos hsubnormal]
    split
    · rfl
    · rw [show 2 * m / 2 ^ 52 - 1 = 0 by omega, Nat.pow_zero]
      omega
  · refine ⟨m + 2 ^ 52, by omega, ?_⟩
    simp only [unitsOf, if_neg hsubnormal, if_neg (show ¬ m + 2 ^ 52 < 2 ^ 52 by omega)]
    rw [show (m + 2 ^ 52) / 2 ^ 52 - 1 = m / 2 ^ 52 - 1 + 1 by omega,
      show (m + 2 ^ 52) % 2 ^ 52 = m % 2 ^ 52 by omega, Nat.pow_succ]
    ring

theorem exists_unitsOf {a : Nat} (hbits : a < 2 ^ 53) (e : Nat) :
    ∃ m ≤ (e + 2) * 2 ^ 52, unitsOf m = a * 2 ^ e := by
  induction e with
  | zero =>
    refine ⟨a, by omega, ?_⟩
    unfold unitsOf
    split
    · omega
    · rw [show a / 2 ^ 52 - 1 = 0 by omega]
      omega
  | succ e ih =>
    obtain ⟨m, hsmall, hunits⟩ := ih
    obtain ⟨n, hsmall', hunits'⟩ := exists_unitsOf_two_mul m
    refine ⟨n, by omega, ?_⟩
    rw [hunits', hunits, Nat.pow_succ]
    ring

/-! ## Rounding keeps the order -/

theorem roundDiv_le_succ (num den : Nat) : roundDiv num den ≤ num / den + 1 := by
  simp only [roundDiv]
  grind

theorem roundDiv_mono {a b den : Nat} (hd : 0 < den) (h : a ≤ b) :
    roundDiv a den ≤ roundDiv b den := by
  by_cases hsame : a / den = b / den
  · have hremainder : a % den ≤ b % den := by
      have hwhole := Nat.div_add_mod a den
      have hwhole' := Nat.div_add_mod b den
      rw [hsame] at hwhole
      omega
    simp only [roundDiv, hsame]
    grind
  · have hbelow : a / den + 1 ≤ b / den := by
      have := Nat.div_le_div_right (c := den) h
      omega
    calc roundDiv a den ≤ a / den + 1 := roundDiv_le_succ a den
      _ ≤ b / den := hbelow
      _ ≤ roundDiv b den := le_roundDiv hd (Nat.div_mul_le_self b den)

theorem floorLog2_mono {a b den : Nat} (ha : 0 < a) (hd : 0 < den) (h : a ≤ b) :
    floorLog2 a den ≤ floorLog2 b den := by
  obtain ⟨hreaches, -⟩ := floorLog2_spec ha hd
  obtain ⟨-, hbeyond⟩ := floorLog2_spec (Nat.lt_of_lt_of_le ha h) hd
  refine Int.not_lt.1 fun hless => hbeyond (Reaches.mono (j := floorLog2 b den + 1) ?_ hless)
  unfold Reaches at hreaches ⊢
  split
  · rename_i hnonneg
    rw [if_pos hnonneg] at hreaches
    exact Nat.le_trans hreaches h
  · rename_i hnegative
    rw [if_neg hnegative] at hreaches
    exact Nat.le_trans hreaches (Nat.mul_le_mul_right _ h)

/-- The place of the last bit that is kept, above `2 ^ (-1074)`. -/
def lastPlace (num den : Nat) : Nat := (floorLog2 num den - 52 + 1074).toNat

/-- A quotient rounded to a whole number of units in a place. -/
def roundTo (place num den : Nat) : Nat :=
  roundDiv (num * 2 ^ (1074 - place)) (den * 2 ^ (place - 1074))

theorem roundMagnitude_eq {num den : Nat} (hn : 0 < num) (hd : 0 < den) :
    roundMagnitude num den =
      min (lastPlace num den * 2 ^ 52 + roundTo (lastPlace num den) num den) infinityMagnitude := by
  rw [roundMagnitude, if_neg (by omega), roundTo, lastPlace]
  generalize 1074 = bias, (floorLog2 num den - 52 + 1074).toNat = place
  simp only [Nat.pow_eq]
  split
  · rw [show bias - place = 0 by omega, Nat.pow_zero, Nat.mul_one]
  · rw [show place - bias = 0 by omega, Nat.pow_zero, Nat.mul_one]

theorem roundTo_mono {a b den : Nat} (hd : 0 < den) (h : a ≤ b) (place : Nat) :
    roundTo place a den ≤ roundTo place b den :=
  roundDiv_mono (Nat.mul_pos hd (Nat.two_pow_pos _)) (Nat.mul_le_mul_right _ h)

theorem roundTo_lastPlace_le {num den : Nat} (hn : 0 < num) (hd : 0 < den) :
    roundTo (lastPlace num den) num den ≤ 2 ^ 53 := by
  obtain ⟨-, hbeyond⟩ := floorLog2_spec hn hd
  have hplace : floorLog2 num den + 1 ≤ (lastPlace num den : Int) - 1074 + 53 := by
    unfold lastPlace
    omega
  have hunreached := mt (fun hreached => Reaches.mono hreached hplace) hbeyond
  rw [reaches_iff (n := 1074 - lastPlace num den) (m := lastPlace num den - 1074 + 53) (by omega),
    Nat.not_le, Nat.pow_add, ← Nat.mul_assoc, Nat.mul_comm _ (2 ^ 53)] at hunreached
  have hd' := Nat.mul_pos hd (Nat.two_pow_pos (lastPlace num den - 1074))
  calc roundTo (lastPlace num den) num den
      ≤ roundDiv (2 ^ 53 * (den * 2 ^ (lastPlace num den - 1074)))
          (den * 2 ^ (lastPlace num den - 1074)) := roundDiv_mono hd' (Nat.le_of_lt hunreached)
    _ = 2 ^ 53 := roundDiv_mul_self hd' _

theorem le_roundTo_lastPlace {num den : Nat} (hn : 0 < num) (hd : 0 < den)
    (hnormal : 0 < lastPlace num den) : 2 ^ 52 ≤ roundTo (lastPlace num den) num den := by
  obtain ⟨hreached, -⟩ := floorLog2_spec hn hd
  have hplace : floorLog2 num den = (lastPlace num den : Int) - 1074 + 52 := by
    unfold lastPlace at *
    omega
  rw [hplace, reaches_iff (n := 1074 - lastPlace num den) (m := lastPlace num den - 1074 + 52)
    (by omega), Nat.pow_add, ← Nat.mul_assoc, Nat.mul_comm _ (2 ^ 52)] at hreached
  exact le_roundDiv (Nat.mul_pos hd (Nat.two_pow_pos _)) hreached

theorem roundMagnitude_mono_left {a b den : Nat} (hd : 0 < den) (h : a ≤ b) :
    roundMagnitude a den ≤ roundMagnitude b den := by
  by_cases hzero : a = 0
  · rw [hzero, roundMagnitude, if_pos (.inl rfl)]
    exact Nat.zero_le _
  · have ha : 0 < a := Nat.pos_of_ne_zero hzero
    have hb : 0 < b := Nat.lt_of_lt_of_le ha h
    rw [roundMagnitude_eq ha hd, roundMagnitude_eq hb hd]
    have hplaces : lastPlace a den ≤ lastPlace b den := by
      have := floorLog2_mono ha hd h
      unfold lastPlace
      omega
    refine min_le_min_right _ ?_
    rcases Nat.eq_or_lt_of_le hplaces with hsame | hless
    · rw [hsame]
      exact Nat.add_le_add_left (roundTo_mono hd h _) _
    · have hupper := roundTo_lastPlace_le ha hd
      have hlower := le_roundTo_lastPlace hb hd (Nat.lt_of_le_of_lt (Nat.zero_le _) hless)
      omega

/-- A greater quotient is not rounded to a smaller number. -/
theorem roundMagnitude_mono {a b c d : Nat} (hb : 0 < b) (hd : 0 < d) (h : a * d ≤ c * b) :
    roundMagnitude a b ≤ roundMagnitude c d := by
  calc roundMagnitude a b = roundMagnitude (d * a) (d * b) := (roundMagnitude_mul_left hd a b).symm
    _ ≤ roundMagnitude (b * c) (d * b) :=
        roundMagnitude_mono_left (Nat.mul_pos hd hb) (by rwa [Nat.mul_comm d, Nat.mul_comm b])
    _ = roundMagnitude (b * c) (b * d) := by rw [Nat.mul_comm d]
    _ = roundMagnitude c d := roundMagnitude_mul_left hb c d

theorem roundMagnitude_congr {a b c d : Nat} (hb : 0 < b) (hd : 0 < d) (h : a * d = c * b) :
    roundMagnitude a b = roundMagnitude c d :=
  Nat.le_antisymm (roundMagnitude_mono hb hd (Nat.le_of_eq h))
    (roundMagnitude_mono hd hb (Nat.le_of_eq h.symm))

/-! ## Quotients that are numbers -/

theorem ratio_units_ofMagnitude {m : Nat} (hfinite : m < infinityMagnitude) :
    (ofMagnitude false m).ratio.1 * unitsOfOne = unitsOf m * (ofMagnitude false m).ratio.2 := by
  rw [ratio_units, magnitude_ofMagnitude false (Nat.lt_trans hfinite (by decide))]

theorem isFinite_ofMagnitude {m : Nat} (hfinite : m < infinityMagnitude) :
    (ofMagnitude false m).isFinite = true := by
  simpa [isFinite, magnitude_ofMagnitude false (Nat.lt_trans hfinite (by decide))] using hfinite

theorem negative_ofMagnitude {m : Nat} (hfinite : m < infinityMagnitude) :
    (ofMagnitude false m).negative = false := by
  have hbelow : m < 2 ^ 63 := Nat.lt_trans hfinite (by decide)
  simp only [ofMagnitude, negative, Nat.pow_eq, UInt64.toNat_ofNat', Bool.false_eq_true, if_false,
    decide_eq_false_iff_not]
  omega

theorem roundMagnitude_of_units {num den m : Nat} (hd : 0 < den) (hfinite : m < infinityMagnitude)
    (hexact : num * unitsOfOne = unitsOf m * den) : roundMagnitude num den = m := by
  have hrounded := roundMagnitude_ratio (isFinite_ofMagnitude hfinite)
  rw [magnitude_ofMagnitude false (Nat.lt_trans hfinite (by decide))] at hrounded
  have hunits := ratio_units_ofMagnitude hfinite
  have hd' := ratio_den_pos (ofMagnitude false m)
  generalize (ofMagnitude false m).ratio = r at *
  have hcross : num * r.2 = r.1 * den := by
    refine Nat.eq_of_mul_eq_mul_right unitsOfOne_pos ?_
    calc num * r.2 * unitsOfOne = num * unitsOfOne * r.2 := Nat.mul_right_comm _ _ _
      _ = unitsOf m * r.2 * den := by rw [hexact, Nat.mul_right_comm]
      _ = r.1 * den * unitsOfOne := by rw [← hunits, Nat.mul_right_comm]
  rw [roundMagnitude_congr hd hd' hcross, hrounded]

theorem exists_number {a e : Nat} (hbits : a < 2 ^ 53) (hlow : e ≤ 2000) :
    ∃ m < infinityMagnitude, unitsOf m = a * 2 ^ e := by
  obtain ⟨m, hsmall, hunits⟩ := exists_unitsOf hbits e
  refine ⟨m, ?_, hunits⟩
  simp only [infinityMagnitude, Nat.pow_eq]
  omega

/-- What is not above a number is rounded to nothing above it. -/
theorem unitsOf_roundMagnitude_le {num den a e : Nat} (hd : 0 < den) (hbits : a < 2 ^ 53)
    (hfits : e ≤ 2000) (hbelow : num * unitsOfOne ≤ a * 2 ^ e * den) :
    roundMagnitude num den < infinityMagnitude ∧ unitsOf (roundMagnitude num den) ≤ a * 2 ^ e := by
  obtain ⟨m, hfinite, hunits⟩ := exists_number hbits hfits
  have hpositive := unitsOfOne_pos
  have hupper : roundMagnitude num den ≤ m := by
    rw [← roundMagnitude_of_units hpositive hfinite (by rw [hunits])]
    exact roundMagnitude_mono hd hpositive hbelow
  refine ⟨Nat.lt_of_le_of_lt hupper hfinite, ?_⟩
  rw [← hunits]
  exact strictMono_unitsOf.monotone hupper

/-- What is not below a number is rounded to nothing below it. -/
theorem le_unitsOf_roundMagnitude {num den a e : Nat} (hd : 0 < den) (hbits : a < 2 ^ 53)
    (hfits : e ≤ 2000) (habove : a * 2 ^ e * den ≤ num * unitsOfOne) :
    a * 2 ^ e ≤ unitsOf (roundMagnitude num den) := by
  obtain ⟨m, hfinite, hunits⟩ := exists_number hbits hfits
  have hpositive := unitsOfOne_pos
  have hlower : m ≤ roundMagnitude num den := by
    rw [← roundMagnitude_of_units hpositive hfinite (by rw [hunits])]
    exact roundMagnitude_mono hpositive hd habove
  rw [← hunits]
  exact strictMono_unitsOf.monotone hlower

/-- A whole number of fifty-three bits times a power of two is not rounded. -/
theorem unitsOf_roundMagnitude {num den a e : Nat} (hd : 0 < den) (hbits : a < 2 ^ 53)
    (hfits : e ≤ 900) (hexact : num = a * 2 ^ e * den) :
    roundMagnitude num den < infinityMagnitude ∧
      unitsOf (roundMagnitude num den) = a * 2 ^ e * unitsOfOne := by
  have hunits : a * 2 ^ e * unitsOfOne = a * 2 ^ (1074 + e) := by
    rw [← unitsOfOne_mul_two_pow, Nat.mul_assoc, Nat.mul_comm unitsOfOne]
  have hcross : num * unitsOfOne = a * 2 ^ (1074 + e) * den := by
    rw [← hunits, hexact, Nat.mul_right_comm]
  have hfits' : 1074 + e ≤ 2000 := by omega
  obtain ⟨hfinite, hupper⟩ := unitsOf_roundMagnitude_le hd hbits hfits' (Nat.le_of_eq hcross)
  rw [hunits]
  exact ⟨hfinite, Nat.le_antisymm hupper
    (le_unitsOf_roundMagnitude hd hbits hfits' (Nat.le_of_eq hcross.symm))⟩

/-! ## Products -/

/-- The magnitude of a finite number times a natural number. -/
def mulMagnitude (m k : Nat) : Nat := roundMagnitude (unitsOf m * k) unitsOfOne

/-- The product with nothing above a number is rounded to nothing above the number's product. -/
theorem unitsOf_mulMagnitude_le {m k a e : Nat} (hbits : a * k < 2 ^ 53) (hfits : e ≤ 2000)
    (hbelow : unitsOf m ≤ a * 2 ^ e) :
    mulMagnitude m k < infinityMagnitude ∧ unitsOf (mulMagnitude m k) ≤ a * k * 2 ^ e := by
  refine unitsOf_roundMagnitude_le unitsOfOne_pos hbits hfits ?_
  rw [Nat.mul_right_comm a]
  exact Nat.mul_le_mul_right _ (Nat.mul_le_mul_right _ hbelow)

theorem le_unitsOf_mulMagnitude {m k a e : Nat} (hbits : a * k < 2 ^ 53) (hfits : e ≤ 2000)
    (habove : a * 2 ^ e ≤ unitsOf m) : a * k * 2 ^ e ≤ unitsOf (mulMagnitude m k) := by
  refine le_unitsOf_roundMagnitude unitsOfOne_pos hbits hfits ?_
  rw [Nat.mul_right_comm a]
  exact Nat.mul_le_mul_right _ (Nat.mul_le_mul_right _ habove)

theorem mulNat_ofMagnitude {m : Nat} (hfinite : m < infinityMagnitude) (k : Nat) :
    (ofMagnitude false m).mulNat k = ofMagnitude false (mulMagnitude m k) := by
  have hmagnitude := magnitude_ofMagnitude false (m := m) (Nat.lt_trans hfinite (by decide))
  have hnumber : (ofMagnitude false m).isNaN = false := by
    simpa [isNaN, hmagnitude] using Nat.le_of_lt hfinite
  have hbounded : (ofMagnitude false m).isInfinite = false := by
    simpa [isInfinite, hmagnitude] using Nat.ne_of_lt hfinite
  have hcross : (ofMagnitude false m).ratio.1 * k * unitsOfOne =
      unitsOf m * k * (ofMagnitude false m).ratio.2 := by
    rw [Nat.mul_right_comm, ratio_units_ofMagnitude hfinite, Nat.mul_right_comm]
  simp only [mulNat, hnumber, hbounded, negative_ofMagnitude hfinite, Bool.false_eq_true, if_false,
    ofRatio]
  rw [roundMagnitude_congr (ratio_den_pos _) unitsOfOne_pos hcross, mulMagnitude]

/-! ## Positive numbers and whole numbers -/

theorem isPositive_ofMagnitude {m a e : Nat} (hpositive : 0 < a) (habove : a * 2 ^ e ≤ unitsOf m)
    (hfinite : m < infinityMagnitude) : (ofMagnitude false m).isPositive = true := by
  have hnonzero : m ≠ 0 := by
    rintro rfl
    exact absurd habove (Nat.not_le.2 (Nat.mul_pos hpositive (Nat.two_pow_pos e)))
  rw [isPositive, isFinite_ofMagnitude hfinite, negative_ofMagnitude hfinite,
    magnitude_ofMagnitude false (Nat.lt_trans hfinite (by decide))]
  simpa using hnonzero

theorem integer?_ofMagnitude {m n : Nat} (hfinite : m < infinityMagnitude)
    (hwhole : unitsOf m = n * unitsOfOne) : (ofMagnitude false m).integer? = some (n : Int) := by
  have hunits := ratio_units_ofMagnitude hfinite
  have hd := ratio_den_pos (ofMagnitude false m)
  have hnum : (ofMagnitude false m).ratio.1 = n * (ofMagnitude false m).ratio.2 := by
    refine Nat.eq_of_mul_eq_mul_right unitsOfOne_pos ?_
    rw [hunits, hwhole, Nat.mul_right_comm]
  simp only [integer?, isFinite_ofMagnitude hfinite, if_true, hnum, Nat.mul_mod_left,
    Nat.mul_div_cancel _ hd, negative_ofMagnitude hfinite, Bool.false_eq_true, if_false]

/-- A whole number and its product are not rounded while fifty-three bits hold them. -/
theorem integer?_mulNat {n k a e : Nat} (hbits : n < 2 ^ 53) (hproduct : n * k = a * 2 ^ e)
    (hbits' : a < 2 ^ 53) (hfits : e ≤ 900) :
    (ofMagnitude false (roundMagnitude n 1)).integer? = some (n : Int) ∧
      ((ofMagnitude false (roundMagnitude n 1)).mulNat k).integer? = some (k * n : Int) := by
  have hwhole : n = n * 2 ^ 0 * 1 := by simp
  have hexact : n * unitsOfOne * k = a * 2 ^ e * unitsOfOne := by
    rw [Nat.mul_right_comm, hproduct]
  obtain ⟨hfinite, hunits⟩ := unitsOf_roundMagnitude Nat.one_pos hbits (by decide) hwhole
  obtain ⟨hfinite', hunits'⟩ := unitsOf_roundMagnitude unitsOfOne_pos hbits' hfits hexact
  rw [Nat.pow_zero, Nat.mul_one] at hunits
  refine ⟨integer?_ofMagnitude hfinite hunits, ?_⟩
  rw [mulNat_ofMagnitude hfinite, mulMagnitude, hunits,
    integer?_ofMagnitude (n := k * n) hfinite' ?_]
  · rw [Nat.cast_mul]
  · rw [hunits', Nat.mul_comm k, hproduct]

end Dialogue.Double

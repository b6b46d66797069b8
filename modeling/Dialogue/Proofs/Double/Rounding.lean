import Dialogue.Double.Basic
import Mathlib.Algebra.Group.Int.Defs
import Mathlib.Algebra.Group.Nat.Defs

/-!
# Rounding depends on the quotient alone

`Double.roundMagnitude` takes a quotient by its two parts.  Here it is shown that a common factor of
the parts does not matter (`roundMagnitude_mul_left`), and that the magnitude of a finite number is
what its own quotient rounds to (`roundMagnitude_ratio`).

Both rest on a description of `floorLog2` that needs no division: a power of two is *reached* by a
quotient (`Reaches`), and `floorLog2` is the greatest power that is (`floorLog2_eq`).

## Main statements

* `floorLog2_eq`: the power of two that is reached while its double is not.
* `roundMagnitude_mul_left`: a common factor cancels.
* `roundMagnitude_ratio`: a finite number is nearest to itself.
* `roundMagnitude_of_large`, `roundMagnitude_of_small`: far outside the range of doubles there is
  infinity on one side and zero on the other.
-/

namespace Dialogue.Double

/-! ## Powers of two below a quotient -/

/-- The power `2 ^ k` is at most `num / den`. -/
def Reaches (num den : Nat) (k : Int) : Prop :=
  if 0 ≤ k then den * 2 ^ k.toNat ≤ num else den ≤ num * 2 ^ (-k).toNat

instance (num den : Nat) (k : Int) : Decidable (Reaches num den k) := by
  unfold Reaches
  infer_instance

theorem reaches_iff {num den : Nat} {k : Int} {n m : Nat} (h : k + n = m) :
    Reaches num den k ↔ den * 2 ^ m ≤ num * 2 ^ n := by
  unfold Reaches
  split
  · rename_i hnonneg
    have hsplit : m = k.toNat + n := by omega
    rw [hsplit, Nat.pow_add, ← Nat.mul_assoc]
    exact (Nat.mul_le_mul_right_iff (Nat.two_pow_pos n)).symm
  · rename_i hnegative
    have hsplit : n = (-k).toNat + m := by omega
    rw [hsplit, Nat.pow_add, ← Nat.mul_assoc]
    exact (Nat.mul_le_mul_right_iff (Nat.two_pow_pos m)).symm

theorem Reaches.mono {num den : Nat} {j k : Int} (hreaches : Reaches num den k) (h : j ≤ k) :
    Reaches num den j := by
  obtain ⟨n, hj, hk⟩ : ∃ n : Nat, 0 ≤ j + n ∧ 0 ≤ k + n := ⟨(-j).toNat, by omega, by omega⟩
  rw [reaches_iff (n := n) (m := (k + n).toNat) (by omega)] at hreaches
  rw [reaches_iff (n := n) (m := (j + n).toNat) (by omega)]
  refine Nat.le_trans (Nat.mul_le_mul_left den ?_) hreaches
  exact Nat.pow_le_pow_right (by decide) (by omega)

theorem reaches_mul_left {c num den : Nat} (hc : 0 < c) (k : Int) :
    Reaches (c * num) (c * den) k ↔ Reaches num den k := by
  have h : k + (-k).toNat = k.toNat := by omega
  rw [reaches_iff h, reaches_iff h, Nat.mul_assoc, Nat.mul_assoc]
  exact Nat.mul_le_mul_left_iff hc

theorem floorLog2_spec {num den : Nat} (hn : 0 < num) (hd : 0 < den) :
    Reaches num den (floorLog2 num den) ∧ ¬ Reaches num den (floorLog2 num den + 1) := by
  have hnumLow := Nat.log2_self_le (Nat.ne_of_gt hn)
  have hnumHigh := Nat.lt_log2_self (n := num)
  have hdenLow := Nat.log2_self_le (Nat.ne_of_gt hd)
  have hdenHigh := Nat.lt_log2_self (n := den)
  let k : Int := (num.log2 : Int) - (den.log2 : Int)
  have hbelow : Reaches num den (k - 1) := by
    rw [reaches_iff (n := den.log2 + 1) (m := num.log2) (by simp only [k]; omega), Nat.mul_comm]
    exact Nat.mul_le_mul hnumLow (Nat.le_of_lt hdenHigh)
  have habove : ¬ Reaches num den (k + 1) := by
    rw [reaches_iff (n := den.log2) (m := num.log2 + 1) (by simp only [k]; omega), Nat.not_le,
      Nat.mul_comm den]
    calc num * 2 ^ den.log2 < 2 ^ (num.log2 + 1) * 2 ^ den.log2 :=
          Nat.mul_lt_mul_of_pos_right hnumHigh (Nat.two_pow_pos _)
      _ ≤ 2 ^ (num.log2 + 1) * den := Nat.mul_le_mul_left _ hdenLow
  have hvalue : floorLog2 num den = if Reaches num den k then k else k - 1 := by
    simp only [floorLog2, Reaches, Nat.pow_eq, k]
  rw [hvalue]
  split
  · exact ⟨‹_›, habove⟩
  · rw [Int.sub_add_cancel]
    exact ⟨hbelow, ‹_›⟩

theorem floorLog2_eq {num den : Nat} (hn : 0 < num) (hd : 0 < den) {k : Int}
    (hreaches : Reaches num den k) (hbeyond : ¬ Reaches num den (k + 1)) :
    floorLog2 num den = k := by
  obtain ⟨hlow, high⟩ := floorLog2_spec hn hd
  rcases Int.lt_trichotomy (floorLog2 num den) k with hless | hsame | hmore
  · exact absurd (hreaches.mono (by omega)) high
  · exact hsame
  · exact absurd (hlow.mono (by omega)) hbeyond

theorem floorLog2_mul_left {c num den : Nat} (hc : 0 < c) (hn : 0 < num) (hd : 0 < den) :
    floorLog2 (c * num) (c * den) = floorLog2 num den := by
  obtain ⟨hlow, high⟩ := floorLog2_spec hn hd
  exact floorLog2_eq (Nat.mul_pos hc hn) (Nat.mul_pos hc hd)
    ((reaches_mul_left hc _).2 hlow) (mt (reaches_mul_left hc _).1 high)

/-! ## Rounding -/

theorem roundDiv_mul_left {c : Nat} (hc : 0 < c) (num den : Nat) :
    roundDiv (c * num) (c * den) = roundDiv num den := by
  have hlow : 2 * (c * (num % den)) < c * den ↔ 2 * (num % den) < den := by
    rw [Nat.mul_left_comm]
    exact Nat.mul_lt_mul_left hc
  have high : c * den < 2 * (c * (num % den)) ↔ den < 2 * (num % den) := by
    rw [Nat.mul_left_comm]
    exact Nat.mul_lt_mul_left hc
  simp only [roundDiv, Nat.mul_div_mul_left _ _ hc, Nat.mul_mod_mul_left, hlow, high]

theorem roundMagnitude_mul_left {c : Nat} (hc : 0 < c) (num den : Nat) :
    roundMagnitude (c * num) (c * den) = roundMagnitude num den := by
  have hzero : (c * num = 0 ∨ c * den = 0) ↔ (num = 0 ∨ den = 0) := by
    simp only [Nat.mul_eq_zero, Nat.ne_of_gt hc, false_or]
  by_cases hnothing : num = 0 ∨ den = 0
  · rw [roundMagnitude, roundMagnitude, if_pos (hzero.2 hnothing), if_pos hnothing]
  · have hn : 0 < num := by omega
    have hd : 0 < den := by omega
    rw [roundMagnitude, roundMagnitude, if_neg (mt hzero.1 hnothing), if_neg hnothing,
      floorLog2_mul_left hc hn hd]
    simp only [Nat.mul_assoc, roundDiv_mul_left hc]

theorem roundDiv_mul_self {den : Nat} (hd : 0 < den) (n : Nat) : roundDiv (n * den) den = n := by
  simp [roundDiv, Nat.mul_div_cancel n hd, hd]

theorem le_roundDiv {num den n : Nat} (hd : 0 < den) (h : n * den ≤ num) :
    n ≤ roundDiv num den := by
  have hfloor : n ≤ num / den := (Nat.le_div_iff_mul_le hd).2 h
  simp only [roundDiv]
  split
  · exact hfloor
  · split
    · omega
    · split <;> omega

/-! ## Finite numbers -/

theorem ratio_pos {d : Double} (h : 0 < d.magnitude) : 0 < d.ratio.1 ∧ 0 < d.ratio.2 := by
  have hmantissa : 0 < d.mantissa := by
    simp only [Double.mantissa, Nat.pow_eq]
    split <;> omega
  simp only [ratio, Nat.pow_eq]
  split
  · exact ⟨Nat.mul_pos hmantissa (Nat.two_pow_pos _), Nat.one_pos⟩
  · exact ⟨hmantissa, Nat.two_pow_pos _⟩

theorem reaches_ratio_iff (d : Double) {k : Int} {m : Nat} (h : k + 1074 = m) :
    Reaches d.ratio.1 d.ratio.2 k ↔ 2 ^ m ≤ d.mantissa * 2 ^ d.scale := by
  rw [reaches_iff (n := 1074) h]
  simp only [ratio, Nat.pow_eq]
  generalize 1074 = bias
  by_cases hlarge : bias ≤ d.scale
  · rw [if_pos hlarge, Nat.one_mul, Nat.mul_assoc, ← Nat.pow_add, Nat.sub_add_cancel hlarge]
  · rw [if_neg hlarge, Nat.mul_comm (2 ^ (bias - d.scale))]
    have habove := Nat.le_of_not_le hlarge
    conv => lhs; rhs; rw [← Nat.add_sub_of_le habove, Nat.pow_add, ← Nat.mul_assoc]
    exact Nat.mul_le_mul_right_iff (Nat.two_pow_pos _)

/-- Rounding finds the scale of a finite number again. -/
theorem scale_of_ratio {d : Double} (h : 0 < d.magnitude) :
    (floorLog2 d.ratio.1 d.ratio.2 - 52 + 1074).toNat = d.scale := by
  obtain ⟨hn, hd⟩ := ratio_pos h
  by_cases hsubnormal : d.magnitude < 2 ^ 52
  · have hscale : d.scale = 0 := by
      simp only [Double.scale, Nat.pow_eq]
      omega
    have hbeyond : ¬ Reaches d.ratio.1 d.ratio.2 (52 - 1074) := by
      rw [reaches_ratio_iff d (m := 52) (by omega), hscale, Nat.pow_zero, Nat.mul_one]
      simp only [Double.mantissa, Nat.pow_eq, if_pos hsubnormal]
      omega
    have hbelow : floorLog2 d.ratio.1 d.ratio.2 < 52 - 1074 := Int.not_le.1 fun hreached =>
      hbeyond ((floorLog2_spec hn hd).1.mono hreached)
    omega
  · have hmantissa : d.mantissa = d.magnitude % 2 ^ 52 + 2 ^ 52 := if_neg hsubnormal
    have hexact : floorLog2 d.ratio.1 d.ratio.2 = (52 + d.scale : Nat) - 1074 := by
      refine floorLog2_eq hn hd ?_ ?_
      · rw [reaches_ratio_iff d (m := 52 + d.scale) (by omega), Nat.pow_add]
        exact Nat.mul_le_mul_right _ (by omega)
      · rw [reaches_ratio_iff d (m := 53 + d.scale) (by omega), Nat.pow_add,
          Nat.mul_le_mul_right_iff (Nat.two_pow_pos _)]
        have : d.magnitude % 2 ^ 52 < 2 ^ 52 := Nat.mod_lt _ (by decide)
        omega
    omega

/-- A finite number is nearest to itself. -/
theorem roundMagnitude_ratio {d : Double} (hfinite : d.isFinite = true) :
    roundMagnitude d.ratio.1 d.ratio.2 = d.magnitude := by
  by_cases hzero : d.magnitude = 0
  · have hmantissa : d.mantissa = 0 := by simp [Double.mantissa, hzero]
    have hnothing : d.ratio.1 = 0 := by
      simp only [ratio, hmantissa]
      split <;> simp
    rw [roundMagnitude, if_pos (.inl hnothing), hzero]
  · obtain ⟨hn, hd⟩ := ratio_pos (Nat.pos_of_ne_zero hzero)
    have hwhole : (if 1074 ≤ d.scale then roundDiv d.ratio.1 (d.ratio.2 * 2 ^ (d.scale - 1074))
        else roundDiv (d.ratio.1 * 2 ^ (1074 - d.scale)) d.ratio.2) = d.mantissa := by
      simp only [ratio]
      by_cases hlarge : 1074 ≤ d.scale
      · rw [if_pos hlarge, if_pos hlarge, Nat.one_mul]
        exact roundDiv_mul_self (Nat.two_pow_pos _) _
      · rw [if_neg hlarge, if_neg hlarge]
        exact roundDiv_mul_self (Nat.two_pow_pos _) _
    have hbelow : d.magnitude < infinityMagnitude := by simpa [isFinite] using hfinite
    have hsum : d.scale * 2 ^ 52 + d.mantissa = d.magnitude := by
      simp only [Double.scale, Double.mantissa, Nat.pow_eq]
      split <;> omega
    rw [roundMagnitude, if_neg (by omega), scale_of_ratio (Nat.pos_of_ne_zero hzero)]
    simp only [Nat.pow_eq, hwhole, hsum]
    exact Nat.min_eq_left (Nat.le_of_lt hbelow)

/-! ## Outside the range of doubles -/

/-- From `2 ^ 1024` on there is infinity. -/
theorem roundMagnitude_of_large {num den : Nat} (hd : 0 < den) (h : den * 2 ^ 1024 ≤ num) :
    roundMagnitude num den = infinityMagnitude := by
  have hn : 0 < num := Nat.lt_of_lt_of_le (Nat.mul_pos hd (Nat.two_pow_pos _)) h
  obtain ⟨hlow, -⟩ := floorLog2_spec hn hd
  have hleast : 1024 ≤ floorLog2 num den := by
    refine Int.not_lt.1 fun hless => (floorLog2_spec hn hd).2 ?_
    have hreached : Reaches num den 1024 ↔ den * 2 ^ 1024 ≤ num * 2 ^ 0 := reaches_iff rfl
    rw [Nat.pow_zero, Nat.mul_one] at hreached
    exact (hreached.2 h).mono (by omega)
  generalize hs : (floorLog2 num den - 52 + 1074).toNat = scale
  have hbig : 2046 ≤ scale := by omega
  have hmantissa : 2 ^ 52 ≤ roundDiv num (den * 2 ^ (scale - 1074)) := by
    refine le_roundDiv (Nat.mul_pos hd (Nat.two_pow_pos _)) ?_
    have hreached := (reaches_iff (n := 0) (m := 52 + (scale - 1074)) (by omega)).1 hlow
    rw [Nat.pow_add, Nat.pow_zero, Nat.mul_one, Nat.mul_left_comm] at hreached
    exact hreached
  rw [roundMagnitude, if_neg (by omega)]
  simp only [hs, if_pos (show 1074 ≤ scale by omega), Nat.pow_eq]
  refine Nat.min_eq_right ?_
  simp only [infinityMagnitude, Nat.pow_eq]
  omega

/-- Below the least normal number all magnitudes are multiples of the least number. -/
theorem roundMagnitude_of_toNat_eq_zero {num den e : Nat} (he : 1074 = e) (hn : 0 < num)
    (hd : 0 < den) (hscale : (floorLog2 num den - 52 + 1074).toNat = 0) :
    roundMagnitude num den = min (roundDiv (num * 2 ^ e) den) infinityMagnitude := by
  rw [roundMagnitude, if_neg (by omega), hscale, he]
  simp only [if_neg (show ¬ e ≤ 0 by omega), Nat.sub_zero, Nat.pow_eq, Nat.zero_mul, Nat.zero_add]

/-- Up to half of the least number there is zero. -/
theorem roundMagnitude_of_small {num den : Nat} (h : num * 2 ^ 1075 < den) :
    roundMagnitude num den = 0 := by
  by_cases hnothing : num = 0
  · rw [roundMagnitude, if_pos (.inl hnothing)]
  · have hn : 0 < num := Nat.pos_of_ne_zero hnothing
    have hd : 0 < den := Nat.lt_of_le_of_lt (Nat.zero_le _) h
    have hreached : Reaches num den (-1075) ↔ den * 2 ^ 0 ≤ num * 2 ^ 1075 := reaches_iff rfl
    rw [Nat.pow_zero, Nat.mul_one] at hreached
    have hbeyond : ¬ Reaches num den (-1075) := mt hreached.1 (Nat.not_le.2 h)
    have hsmall : floorLog2 num den < -1075 := Int.not_le.1 fun hreached =>
      hbeyond ((floorLog2_spec hn hd).1.mono hreached)
    have hscale : (floorLog2 num den - 52 + 1074).toNat = 0 := by omega
    have htwice {n m : Nat} (hnext : m = n + 1) : 2 * (num * 2 ^ n) = num * 2 ^ m := by
      rw [hnext, Nat.mul_left_comm, ← Nat.pow_succ']
    have hdouble : 2 * (num * 2 ^ 1074) < den := by
      rw [htwice (show 1075 = 1074 + 1 by rfl)]
      exact h
    have hless : num * 2 ^ 1074 < den :=
      Nat.lt_of_le_of_lt (Nat.le_mul_of_pos_left _ (by decide)) hdouble
    have hdown : roundDiv (num * 2 ^ 1074) den = 0 := by
      simp only [roundDiv, Nat.div_eq_of_lt hless, Nat.mod_eq_of_lt hless, if_pos hdouble]
    rw [roundMagnitude_of_toNat_eq_zero rfl hn hd hscale, hdown, Nat.zero_min]

end Dialogue.Double

import Dialogue.Json.Printer
import Dialogue.Json.Reader
import Dialogue.Proofs.Text.Half

/-!
# Strings in JSON text read back

Every character of a string is written as itself or as an escape, in one of five ways
(`Json.escapeChar`), and the reader takes each of them for the character that was written
(`stringBody_escapeChar`).  A character beyond sixteen bits is written as a pair of units, of which
the reader makes one character again (`stringBody_pair`).
-/

namespace Dialogue.Json

/-! ## Units -/

theorem hexDigits_four (n : Nat) :
    Text.hexDigits 4 n = [Text.hexDigit (n / 4096 % 16), Text.hexDigit (n / 256 % 16),
      Text.hexDigit (n / 16 % 16), Text.hexDigit (n % 16)] := by
  simp [Text.hexDigits, Nat.div_div_eq_div_mul]

theorem unit?_hexDigits {n : Nat} (h : n < 0x10000) :
    unit? (Text.hexDigit (n / 4096 % 16)) (Text.hexDigit (n / 256 % 16))
      (Text.hexDigit (n / 16 % 16)) (Text.hexDigit (n % 16)) = some n := by
  have hdigit : ∀ k, Text.hexValue? (Text.hexDigit (k % 16)) = some (k % 16) := fun k =>
    Text.hexValue?_hexDigit (Nat.mod_lt k (by decide))
  simp only [unit?, hdigit, Option.bind_eq_bind, Option.bind_some, Option.pure_def,
    Option.some.injEq]
  omega

theorem isHighUnit_toNat (c : Char) : isHighUnit c.toNat = false := by
  have hvalid : c.toNat < 0xd800 ∨ (0xdfff < c.toNat ∧ c.toNat < 0x110000) := c.valid
  simp only [isHighUnit, Bool.and_eq_false_iff, decide_eq_false_iff_not]
  omega

/-! ## One character of a string -/

variable {start : Nat} {c : Char} {cs rest left : List Char}

theorem ne_nil_of_stringBody (hread : stringBody start rest = .ok (cs, left)) : rest ≠ [] := by
  rintro rfl
  simp [stringBody] at hread

theorem stringBody_plain (hquote : c ≠ '"') (hbackslash : c ≠ '\\') (hprinted : 32 ≤ c.toNat)
    (hread : stringBody start rest = .ok (cs, left)) :
    stringBody start (c :: rest) = .ok (c :: cs, left) := by
  rw [stringBody.eq_def]
  have hinside : ¬ c.toNat < 32 := Nat.not_lt.2 hprinted
  split <;> simp_all [bind, Except.bind, pure, Except.pure]

theorem stringBody_simple {letter : Char} (hnoUnit : letter ≠ 'u')
    (hmeaning : simpleEscape? letter = some c) (hread : stringBody start rest = .ok (cs, left)) :
    stringBody start ('\\' :: letter :: rest) = .ok (c :: cs, left) := by
  rw [stringBody.eq_def]
  split <;> rename_i h <;> cases h
  case h_7.refl =>
    simp only [hmeaning, hread]
    rfl
  case h_8.refl =>
    rename_i hno
    exact (hno letter rest rfl rfl).elim
  all_goals exact absurd rfl hnoUnit

/-- A unit that is no first half of a pair. -/
theorem stringBody_unit {a b d e : Char} {n : Nat} (hunit : unit? a b d e = some n)
    (hsingle : isHighUnit n = false) (hread : stringBody start rest = .ok (cs, left)) :
    stringBody start ('\\' :: 'u' :: a :: b :: d :: e :: rest) =
      .ok (Text.ofCodePoint n :: cs, left) := by
  obtain ⟨z, more, rfl⟩ := List.exists_cons_of_ne_nil (ne_nil_of_stringBody hread)
  rw [stringBody.eq_def]
  split <;> rename_i h <;> cases h
  case h_3.refl =>
    simp only [hunit, hsingle, hread]
    rfl
  case h_4.refl =>
    simp only [hunit, hread]
    rfl
  case h_5.refl =>
    rename_i hno
    exact (hno _ _ _ _ _ _ rfl).elim
  case h_7.refl =>
    rename_i hno _ _
    exact (hno rfl).elim
  case h_8.refl =>
    rename_i hno
    exact (hno _ _ rfl rfl).elim

/-- Two units that are a pair. -/
theorem stringBody_pair {a b d e a' b' d' e' : Char} {high low : Nat}
    (hfirst : unit? a b d e = some high) (hsecond : unit? a' b' d' e' = some low)
    (hhigh : isHighUnit high = true) (hlow : isLowUnit low = true)
    (hread : stringBody start rest = .ok (cs, left)) :
    stringBody start
        ('\\' :: 'u' :: a :: b :: d :: e :: '\\' :: 'u' :: a' :: b' :: d' :: e' :: rest) =
      .ok (Char.ofNat (0x10000 + (high - 0xD800) * 0x400 + (low - 0xDC00)) :: cs, left) := by
  obtain ⟨z, more, rfl⟩ := List.exists_cons_of_ne_nil (ne_nil_of_stringBody hread)
  rw [stringBody.eq_def]
  split <;> rename_i h <;> cases h
  case h_3.refl =>
    simp only [hfirst, hsecond, hhigh, hlow, hread]
    rfl
  case h_4.refl =>
    rename_i hno
    exact (hno _ _ _ _ _ _ rfl rfl).elim
  case h_5.refl =>
    rename_i hno
    exact (hno _ _ _ _ _ _ rfl).elim
  case h_7.refl =>
    rename_i hno _ _
    exact (hno rfl).elim
  case h_8.refl =>
    rename_i hno
    exact (hno _ _ rfl rfl).elim

theorem stringBody_escapeChar (c : Char) (hread : stringBody start rest = .ok (cs, left)) :
    stringBody start (escapeChar c ++ rest) = .ok (c :: cs, left) := by
  unfold escapeChar
  split
  · rename_i h
    rcases h with rfl | rfl <;> exact stringBody_simple (by decide) rfl hread
  split
  · subst c
    exact stringBody_simple (by decide) rfl hread
  split
  · subst c
    exact stringBody_simple (by decide) rfl hread
  split
  · subst c
    exact stringBody_simple (by decide) rfl hread
  split
  · rename_i h
    rw [show c = Char.ofNat 8 by rw [← h, Char.ofNat_toNat]]
    exact stringBody_simple (by decide) rfl hread
  split
  · rename_i h
    rw [show c = Char.ofNat 12 by rw [← h, Char.ofNat_toNat]]
    exact stringBody_simple (by decide) rfl hread
  split
  · rename_i hquote _ _ _ _ _ hprinted
    exact stringBody_plain (fun h => hquote (.inl h)) (fun h => hquote (.inr h)) hprinted.1 hread
  split
  · rename_i hsmall
    have hunit := stringBody_unit (unit?_hexDigits hsmall) (isHighUnit_toNat c) hread
    rw [Text.ofCodePoint_toNat] at hunit
    simpa [unitEscape, hexDigits_four] using hunit
  · rename_i hlarge
    have hvalid : c.toNat < 0xd800 ∨ (0xdfff < c.toNat ∧ c.toNat < 0x110000) := c.valid
    generalize hn : c.toNat - 0x10000 = n
    have hbound : n < 0x100000 := by omega
    have hhigh : isHighUnit (0xD800 + n / 0x400) = true := by
      simp only [isHighUnit, Bool.and_eq_true, decide_eq_true_eq]
      omega
    have hlow : isLowUnit (0xDC00 + n % 0x400) = true := by
      simp only [isLowUnit, Bool.and_eq_true, decide_eq_true_eq]
      omega
    have hpair := stringBody_pair (unit?_hexDigits (n := 0xD800 + n / 0x400) (by omega))
      (unit?_hexDigits (n := 0xDC00 + n % 0x400) (by omega)) hhigh hlow hread
    have hvalue : 0x10000 + (0xD800 + n / 0x400 - 0xD800) * 0x400 +
        (0xDC00 + n % 0x400 - 0xDC00) = c.toNat := by omega
    rw [hvalue, Char.ofNat_toNat] at hpair
    simpa [unitEscape, hexDigits_four] using hpair

theorem stringBody_flatMap (start : Nat) (cs rest : List Char) :
    stringBody start (cs.flatMap escapeChar ++ '"' :: rest) = .ok (cs, rest) := by
  induction cs with
  | nil => rfl
  | cons c cs ih =>
    rw [List.flatMap_cons, List.append_assoc]
    exact stringBody_escapeChar c ih

theorem toList_stringWith (s : String) :
    (stringWith escapeChar s).toList = '"' :: (s.toList.flatMap escapeChar ++ ['"']) := by
  simp [stringWith]

end Dialogue.Json

import Dialogue.Text.Quoted
import Mathlib.Data.List.TakeWhile

/-!
# Texts without halves

A text can be encoded exactly if it holds no half of a surrogate pair
(`encodingFault?_eq_none_iff`).  What is written for one that is met, in a report or between quotes,
holds none (`EncodingFault.isWhole_message`, `isWhole_quoted`).
-/

namespace Dialogue.Text

variable {c : Char} {s t : String}

theorem ofCodePoint_toNat (c : Char) : ofCodePoint c.toNat = c := by
  have hvalid : c.toNat < 0xd800 ∨ (0xdfff < c.toNat ∧ c.toNat < 0x110000) := c.valid
  rw [ofCodePoint, if_neg (by omega), Char.ofNat_toNat]

theorem codePoint_ofCodePoint {n : Nat} (hn : 0xD800 ≤ n ∧ n < 0xE000) :
    isHalf (ofCodePoint n) = true ∧ codePoint (ofCodePoint n) = n := by
  have hvalid : (n + 0xD0000).isValidChar := .inr ⟨by omega, by omega⟩
  have hto : (ofCodePoint n).toNat = n + 0xD0000 := by
    rw [ofCodePoint, if_pos hn, Char.ofNat, dif_pos hvalid]
    rfl
  have hhalf : isHalf (ofCodePoint n) = true := by
    simp only [isHalf, hto, Bool.and_eq_true, decide_eq_true_eq]
    omega
  refine ⟨hhalf, ?_⟩
  rw [codePoint, if_pos hhalf, hto]
  omega

/-! ## Whole texts -/

/-- No character of the text is half a surrogate pair. -/
def IsWhole (s : String) : Prop := ∀ c ∈ s.toList, isHalf c = false

instance : DecidablePred IsWhole := fun s =>
  List.decidableBAll (fun c => isHalf c = false) s.toList

theorem encodingFault?_eq_none_iff : encodingFault? s = none ↔ IsWhole s := by
  have hwhole : IsWhole s ↔ s.toList.dropWhile (fun c => !isHalf c) = [] := by
    simp [IsWhole, List.dropWhile_eq_nil_iff]
  rw [hwhole]
  unfold encodingFault?
  cases hrest : s.toList.dropWhile (fun c => !isHalf c) <;> simp [hrest]

theorem isWhole_append : IsWhole (s ++ t) ↔ IsWhole s ∧ IsWhole t := by
  simp only [IsWhole, String.toList_append, List.mem_append, or_imp, forall_and]

theorem isWhole_ofList {cs : List Char} :
    IsWhole (String.ofList cs) ↔ ∀ c ∈ cs, isHalf c = false := by
  simp [IsWhole]

theorem isWhole_toString (n : Nat) : IsWhole (toString n) := by
  intro c hc
  have hdigit : c.isDigit = true := by
    refine Nat.isDigit_of_mem_toDigits (b := 10) (n := n) (by decide) (by decide) ?_
    simpa using hc
  have hle : c.toNat ≤ 57 := by
    simp only [Char.isDigit, Bool.and_eq_true, decide_eq_true_eq] at hdigit
    exact hdigit.2
  simp only [isHalf, Bool.and_eq_false_iff, decide_eq_false_iff_not]
  omega

/-! ## What is written instead of a half -/

theorem isHalf_hexDigit : ∀ {n : Nat}, n < 16 → isHalf (hexDigit n) = false := by
  decide

theorem isHalf_of_mem_hexDigits {width n : Nat} (hc : c ∈ hexDigits width n) :
    isHalf c = false := by
  induction width generalizing n with
  | zero => cases hc
  | succ width ih =>
    rw [hexDigits, List.mem_append, List.mem_singleton] at hc
    rcases hc with hc | rfl
    · exact ih hc
    · exact isHalf_hexDigit (Nat.mod_lt _ (by decide))

theorem EncodingFault.isWhole_message (f : EncodingFault) : IsWhole f.message := by
  have hsubject : IsWhole f.subject := by
    unfold EncodingFault.subject
    split
    · refine isWhole_append.2 ⟨isWhole_append.2 ⟨isWhole_append.2 ⟨?_, ?_⟩, ?_⟩, isWhole_toString _⟩
      · decide
      · refine isWhole_ofList.2 fun c hc => ?_
        simp only [List.mem_cons] at hc
        rcases hc with rfl | rfl | hc
        · rfl
        · rfl
        · exact isHalf_of_mem_hexDigits hc
      · decide
    · refine isWhole_append.2 ⟨isWhole_append.2 ⟨isWhole_append.2 ⟨?_, isWhole_toString _⟩, ?_⟩,
        isWhole_toString _⟩ <;> decide
  exact isWhole_append.2 ⟨isWhole_append.2 ⟨by decide, hsubject⟩, by decide⟩

theorem isHalf_of_mem_escapeChar {quote d : Char} (hquote : isHalf quote = false)
    (hd : d ∈ escapeChar quote c) : isHalf d = false := by
  have hescape (letter : Char) (hletter : isHalf letter = false) (width : Nat)
      (hd : d ∈ '\\' :: letter :: hexDigits width (codePoint c)) : isHalf d = false := by
    simp only [List.mem_cons] at hd
    rcases hd with rfl | rfl | hd
    · rfl
    · exact hletter
    · exact isHalf_of_mem_hexDigits hd
  unfold escapeChar at hd
  split at hd
  · rename_i hspecial
    simp only [List.mem_cons, List.not_mem_nil, or_false] at hd
    rcases hd with rfl | rfl
    · rfl
    · rcases hspecial with rfl | rfl
      · exact hquote
      · rfl
  iterate 3
    split at hd
    · simp only [List.mem_cons, List.not_mem_nil, or_false] at hd
      rcases hd with rfl | rfl <;> rfl
  split at hd
  · rename_i hplain
    rw [List.mem_singleton] at hd
    subst hd
    simpa using (Bool.and_eq_true_iff.1 hplain).2
  split at hd
  · exact hescape 'x' rfl 2 hd
  split at hd
  · exact hescape 'u' rfl 4 hd
  · exact hescape 'U' rfl 8 hd

theorem isWhole_quoted (s : String) : IsWhole (quoted s) := by
  have hquote : isHalf (quoteFor s.toList) = false := by
    unfold quoteFor
    split <;> rfl
  refine isWhole_ofList.2 fun c hc => ?_
  simp only [List.mem_append, List.mem_cons, List.mem_flatMap, List.not_mem_nil, or_false] at hc
  rcases hc with (rfl | ⟨d, -, hc⟩) | rfl
  · exact hquote
  · exact isHalf_of_mem_escapeChar hquote hc
  · exact hquote

end Dialogue.Text

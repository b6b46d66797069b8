import Dialogue.Identifier

/-!
# Storage keys are their own storage keys

The safe name of a value is made of safe characters, is not empty, and neither starts nor ends with
a hyphen or a point (`isName_safeName`).  Such a name is its own safe name (`safeName_of_isName`),
so taking the safe name a second time, as the store in files does, changes nothing.  The same goes
for the digits of a counterparty (`digits_of_isNumber`).

Logs show of these digits how many there are, and the last four if there are more than four
(`redact_inj_iff`).
-/

namespace Dialogue.Identifier

/-- A safe name. -/
structure IsName (s : String) : Prop where
  nonempty : s.toList ≠ []
  safe : ∀ c ∈ s.toList, isSafe c = true
  first : ∀ c, s.toList.head? = some c → isTrimmed c = false
  last : ∀ c, s.toList.getLast? = some c → isTrimmed c = false

/-- The code points of safe characters. -/
theorem isSafe_iff (c : Char) :
    isSafe c = true ↔
      97 ≤ c.toNat ∧ c.toNat ≤ 122 ∨ 48 ≤ c.toNat ∧ c.toNat ≤ 57 ∨ c.toNat = 46 ∨ c.toNat = 95 ∨
        c.toNat = 45 := by
  have hle : ∀ a b : Char, a ≤ b ↔ a.toNat ≤ b.toNat := fun a b => UInt32.le_iff_toNat_le
  have heq : ∀ a b : Char, a = b ↔ a.toNat = b.toNat := fun a b => Char.toNat_inj.symm
  simp only [isSafe, Bool.or_eq_true, Bool.and_eq_true, decide_eq_true_eq, beq_iff_eq, hle, heq,
    show ('a').toNat = 97 from rfl, show ('z').toNat = 122 from rfl,
    show ('0').toNat = 48 from rfl, show ('9').toNat = 57 from rfl,
    show ('.').toNat = 46 from rfl, show ('_').toNat = 95 from rfl,
    show ('-').toNat = 45 from rfl]
  omega

/-! ## What makes a safe name changes nothing about one -/

theorem isBlank_of_isSafe {c : Char} (hsafe : isSafe c = true) : Text.isBlank c = false := by
  rw [isSafe_iff] at hsafe
  simp only [Text.isBlank, Bool.or_eq_false_iff, Bool.and_eq_false_iff, decide_eq_false_iff_not,
    beq_eq_false_iff_ne]
  omega

theorem lowerFrom_of_isSafe {cs : List Char} (hsafe : ∀ c ∈ cs, isSafe c = true) (inWord : Bool) :
    Text.lowerFrom inWord cs = cs := by
  induction cs generalizing inWord with
  | nil => rfl
  | cons c rest ih =>
    have hfirst := (isSafe_iff c).1 (hsafe c List.mem_cons_self)
    have hnoSigma : c ≠ 'Σ' := by
      rintro rfl
      exact absurd hfirst (by decide)
    have hnoCapital : ¬ ('A' ≤ c ∧ c ≤ 'Z') := by
      intro ⟨hlow, high⟩
      have hlow' : 65 ≤ c.toNat := hlow
      have high' : c.toNat ≤ 90 := high
      omega
    have hascii : c.toNat < 0x80 := by omega
    rw [Text.lowerFrom, if_neg hnoSigma, Text.lowerChar, if_pos hascii, if_neg hnoCapital]
    simp only [List.singleton_append]
    rw [ih fun d hd => hsafe d (List.mem_cons_of_mem c hd)]

theorem replaceUnsafe_of_isSafe {cs : List Char} (hsafe : ∀ c ∈ cs, isSafe c = true) :
    replaceUnsafe false cs = cs := by
  induction cs with
  | nil => rfl
  | cons c rest ih =>
    rw [replaceUnsafe, if_pos (hsafe c List.mem_cons_self),
      ih fun d hd => hsafe d (List.mem_cons_of_mem c hd)]

theorem safeName_of_isName {s : String} (hname : IsName s) : safeName (.str s) = s := by
  have hblank : ∀ c ∈ s.toList, Text.isBlank c = false := fun c hc =>
    isBlank_of_isSafe (hname.safe c hc)
  have hstripped : Text.stripChars s.toList = s.toList :=
    Text.trimChars_eq_self (fun c hc => hblank c (List.mem_of_mem_head? hc))
      (fun c hc => hblank c (List.mem_of_mem_getLast? hc))
  have hnonempty : (Value.str s).isEmpty = false := by
    simp only [Value.isEmpty, String.isEmpty_eq_false_iff]
    rintro rfl
    exact hname.nonempty rfl
  rw [safeName, if_neg (by simp [hnonempty]), Value.display, safeText, hstripped, Text.lowerChars,
    lowerFrom_of_isSafe hname.safe, replaceUnsafe_of_isSafe hname.safe,
    Text.trimChars_eq_self hname.first hname.last, if_neg (by simp [hname.nonempty]),
    String.ofList_toList]

/-! ## Every safe name is one -/

theorem isSafe_of_mem_replaceUnsafe {inGap : Bool} {cs : List Char} {c : Char}
    (h : c ∈ replaceUnsafe inGap cs) : isSafe c = true := by
  induction cs generalizing inGap with
  | nil => simp [replaceUnsafe] at h
  | cons d rest ih =>
    rw [replaceUnsafe] at h
    split at h
    · rename_i hsafe
      rcases List.mem_cons.1 h with rfl | h
      · exact hsafe
      · exact ih h
    · split at h
      · exact ih h
      · rcases List.mem_cons.1 h with rfl | h
        · rfl
        · exact ih h

theorem mem_of_mem_trimChars {p : Char → Bool} {cs : List Char} {c : Char}
    (h : c ∈ Text.trimChars p cs) : c ∈ cs := by
  have hfront := (Text.dropEndWhile_prefix p (cs.dropWhile p)).subset h
  exact (List.dropWhile_suffix p).subset hfront

theorem isName_default : IsName "default" where
  nonempty := by decide
  safe := by simp [isSafe]
  first := by simp [isTrimmed]
  last := by simp [isTrimmed]

theorem isName_safeName (v : Value) : IsName (safeName v) := by
  rw [safeName]
  split
  · exact isName_default
  · rw [safeText]
    split
    · exact isName_default
    · rename_i hnonempty
      exact
        { nonempty := by simpa using hnonempty
          safe := fun c hc =>
            isSafe_of_mem_replaceUnsafe (mem_of_mem_trimChars (by simpa using hc))
          first := fun c hc => Text.head?_trimChars (by simpa using hc)
          last := fun c hc => Text.getLast?_dropEndWhile (by simpa [Text.trimChars] using hc) }

@[simp] theorem safeName_safeName (v : Value) : safeName (.str (safeName v)) = safeName v :=
  safeName_of_isName (isName_safeName v)

theorem safeName_strip (s : String) : safeName (.str (Text.strip s)) = safeName (.str s) := by
  have hofText (s : String) : safeName (.str s) = safeText s := by
    rw [safeName]
    split
    · rename_i hempty
      obtain rfl : s = "" := by simpa [Value.isEmpty] using hempty
      rfl
    · rfl
  rw [hofText, hofText]
  simp [safeText, Text.strip, Text.stripChars]

namespace IsName

variable {s : String}

theorem ne_empty (hname : IsName s) : s ≠ "" := by
  rintro rfl
  exact hname.nonempty rfl

theorem notMem (hname : IsName s) {c : Char} (h : isSafe c = false) : c ∉ s.toList := fun hc => by
  simp [hname.safe c hc] at h

theorem ne_of_head (hname : IsName s) {c : Char} {rest : List Char} (h : isTrimmed c = true)
    {t : String} (hstarts : t.toList = c :: rest) : s ≠ t := by
  rintro rfl
  have houtside := hname.first c (by rw [hstarts]; rfl)
  rw [h] at houtside
  cases houtside

end IsName

/-! ## Digits -/

/-- A number of a counterparty: digits, at least one. -/
structure IsNumber (s : String) : Prop where
  nonempty : s ≠ ""
  digits : ∀ c ∈ s.toList, Text.isAsciiDigit c = true

theorem digits_of_isNumber {s : String} (hnumber : IsNumber s) : digits (.str s) = s := by
  have hnonempty : (Value.str s).isEmpty = false := by
    simpa [Value.isEmpty] using hnumber.nonempty
  rw [digits, Value.displayOrEmpty, if_neg (by simp [hnonempty]), Value.display,
    List.filter_eq_self.2 hnumber.digits, String.ofList_toList]

theorem isNumber_digits {v : Value} (hnonempty : digits v ≠ "") : IsNumber (digits v) where
  nonempty := hnonempty
  digits c hc := by
    rw [digits, String.toList_ofList] at hc
    exact (List.mem_filter.1 hc).2

theorem digits_digits (v : Value) : digits (.str (digits v)) = digits v := by
  by_cases hempty : digits v = ""
  · rw [hempty]
    rfl
  · exact digits_of_isNumber (isNumber_digits hempty)

/-! ## What a mask shows -/

theorem length_mask (ds : List Char) :
    (mask ds).length = if ds.length ≤ 4 then ds.length else ds.length + 1 := by
  unfold mask
  split
  · simp
  · simp

/-- Masks are the same exactly if there are as many digits, and, where more than four are masked,
the last four are the same. -/
theorem mask_inj_iff {ds es : List Char} : mask ds = mask es ↔ ds.length = es.length ∧
    (4 < ds.length → ds.drop (ds.length - 4) = es.drop (es.length - 4)) := by
  constructor
  · intro hsame
    have hlengths := congrArg List.length hsame
    rw [length_mask, length_mask] at hlengths
    have hcount : ds.length = es.length := by
      split at hlengths <;> split at hlengths <;> omega
    refine ⟨hcount, fun hlong => ?_⟩
    rw [mask, mask, if_neg (by omega), if_neg (by omega), ← hcount] at hsame
    rw [← hcount]
    simpa using hsame
  · rintro ⟨hcount, hlast⟩
    by_cases hlong : 4 < ds.length
    · rw [mask, mask, if_neg (by omega), if_neg (by omega), hlast hlong, hcount]
    · rw [mask, mask, if_pos (by omega), if_pos (by omega), hcount]

/-- Of a number, logs show how many digits it has, and the last four if there are more. -/
theorem redact_inj_iff {v w : Value} : redact v = redact w ↔
    (digits v).toList.length = (digits w).toList.length ∧
      (4 < (digits v).toList.length →
        (digits v).toList.drop ((digits v).toList.length - 4) =
          (digits w).toList.drop ((digits w).toList.length - 4)) := by
  rw [redact, redact, String.ofList_inj, mask_inj_iff]

theorem redact_digits (v : Value) : redact (.str (digits v)) = redact v := by
  rw [redact, digits_digits, redact]

end Dialogue.Identifier

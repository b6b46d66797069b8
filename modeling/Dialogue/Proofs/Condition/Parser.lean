import Dialogue.Condition.Parser
import Mathlib.Data.List.TakeWhile

/-!
# Longer texts and their divisions

What the parser of conditions finds in a text that goes on.  The text `cs` is followed by `t`, which
does not continue a field or a comparator (`Breaks`).  Every division of `cs` is then one of
`cs ++ t` with `t` behind its value, as long as `t` holds no line feed (`Follows.divide?`).  The one
place where the longer text has a division of its own is behind a comparator that ends `cs`
(`Dangles`): there the value is found in `t` alone (`Dangles.divide?`).
-/

namespace Dialogue.Condition

variable {op : Comparator} {cs t u : List Char}

/-! ## Prefixes -/

theorem dropPrefix?_eq_some_iff {p rest : List Char} :
    dropPrefix? p cs = some rest ↔ cs = p ++ rest := by
  induction p generalizing cs with
  | nil => simp [dropPrefix?]
  | cons a p ih =>
    cases cs with
    | nil => simp [dropPrefix?]
    | cons c cs =>
      rw [dropPrefix?]
      split
      · rename_i hsame
        rw [ih, hsame, List.cons_append, List.cons.injEq, and_iff_right rfl]
      · rename_i hdiffer
        simp [Ne.symm hdiffer]

/-- A prefix is found within the first part of a text, unless the second part goes on with it. -/
theorem dropPrefix?_append {p : List Char} (hapart : ∀ c, t.head? = some c → c ∉ p)
    (cs : List Char) : dropPrefix? p (cs ++ t) = (dropPrefix? p cs).map (· ++ t) := by
  induction p generalizing cs with
  | nil => simp [dropPrefix?]
  | cons a p ih =>
    cases cs with
    | nil =>
      cases t with
      | nil => rfl
      | cons c t =>
        have hdiffer : a ≠ c := fun hsame => hapart c rfl (hsame ▸ List.mem_cons_self)
        simp [dropPrefix?, hdiffer]
    | cons c cs =>
      simp only [List.cons_append, dropPrefix?]
      split
      · exact ih (fun c hfirst hmem => hapart c hfirst (List.mem_cons_of_mem a hmem)) cs
      · rfl

/-! ## Where a text goes on -/

/-- A text that continues neither a field nor a comparator. -/
def Breaks (t : List Char) : Prop :=
  ∀ c, t.head? = some c → Text.isBlank c = true ∨ c = '&' ∨ c = '|'

/-- A text that does not end in white space. -/
def Solid (cs : List Char) : Prop := ∀ c, cs.getLast? = some c → Text.isBlank c = false

theorem isBlank_of_mem_symbol :
    ∀ op ∈ Comparator.all, ∀ c ∈ op.symbol.toList,
      Text.isBlank c = false ∧ c ≠ '&' ∧ c ≠ '|' := by
  simp [Comparator.all, Comparator.symbol, Text.isBlank]

theorem solid_symbol (hknown : op ∈ Comparator.all) : Solid op.symbol.toList := fun c hlast =>
  (isBlank_of_mem_symbol op hknown c (List.mem_of_getLast? hlast)).1

theorem Breaks.notMem_symbol (hbreaks : Breaks t) (hknown : op ∈ Comparator.all) (c : Char)
    (hfirst : t.head? = some c) : c ∉ op.symbol.toList := by
  intro hmem
  obtain ⟨hsolid, hnoAmpersand, hnoBar⟩ := isBlank_of_mem_symbol op hknown c hmem
  rcases hbreaks c hfirst with hblank | rfl | rfl
  · simp [hblank] at hsolid
  · exact hnoAmpersand rfl
  · exact hnoBar rfl

theorem isFieldChar_of_isBlank {c : Char} (hblank : Text.isBlank c = true) :
    isFieldChar c = false := by
  have hle : ∀ a b : Char, a ≤ b ↔ a.toNat ≤ b.toNat := fun a b => UInt32.le_iff_toNat_le
  have heq : ∀ a b : Char, a = b ↔ a.toNat = b.toNat := fun a b => Char.toNat_inj.symm
  simp only [Text.isBlank, Bool.or_eq_true, Bool.and_eq_true, decide_eq_true_eq,
    beq_iff_eq] at hblank
  simp only [isFieldChar, Bool.or_eq_false_iff, Bool.and_eq_false_iff, decide_eq_false_iff_not,
    beq_eq_false_iff_ne, ne_eq, hle, heq, show ('a').toNat = 97 from rfl,
    show ('z').toNat = 122 from rfl, show ('A').toNat = 65 from rfl,
    show ('Z').toNat = 90 from rfl, show ('0').toNat = 48 from rfl,
    show ('9').toNat = 57 from rfl, show ('.').toNat = 46 from rfl,
    show ('_').toNat = 95 from rfl, show ('-').toNat = 45 from rfl]
  omega

/-- The longest field of a text that goes on is the longest field of its first part. -/
theorem Breaks.takeWhile_isFieldChar (hbreaks : Breaks t) (cs : List Char) :
    (cs ++ t).takeWhile isFieldChar = cs.takeWhile isFieldChar := by
  have houtside : ∀ c, t.head? = some c → isFieldChar c = false := by
    intro c hfirst
    rcases hbreaks c hfirst with hblank | rfl | rfl
    · exact isFieldChar_of_isBlank hblank
    · rfl
    · rfl
  have hnone : t.takeWhile isFieldChar = [] := by
    cases t with
    | nil => rfl
    | cons c t => simp [houtside c rfl]
  rw [List.takeWhile_append, hnone]
  split
  · rename_i hwhole
    rw [List.append_nil, (List.takeWhile_prefix _).eq_of_length hwhole]
  · rfl

theorem Solid.of_suffix (hsolid : Solid cs) (hsuffix : t <:+ cs) : Solid t := by
  obtain ⟨front, rfl⟩ := hsuffix
  intro c hlast
  exact hsolid c (by rw [List.getLast?_append, hlast, Option.some_or])

theorem Solid.dropWhile_ne_nil (hsolid : Solid cs) (hnonempty : cs ≠ []) :
    cs.dropWhile Text.isBlank ≠ [] := by
  intro hblank
  have hlast := hsolid _ (List.getLast?_eq_some_getLast hnonempty)
  have hall := List.dropWhile_eq_nil_iff.1 hblank _ (List.getLast_mem hnonempty)
  exact absurd (hall.symm.trans hlast) (by decide)

/-- White space before a text that goes on is the white space before its first part. -/
theorem Solid.dropWhile_append (hsolid : Solid cs) (hnonempty : cs ≠ []) (t : List Char) :
    (cs ++ t).dropWhile Text.isBlank = cs.dropWhile Text.isBlank ++ t := by
  rw [List.dropWhile_append, if_neg]
  simpa using hsolid.dropWhile_ne_nil hnonempty

/-! ## The value behind one comparator -/

theorem valueAfter?_append (hknown : op ∈ Comparator.all) (hbreaks : Breaks t) (hsolid : Solid cs)
    (hgoesOn : cs ≠ op.symbol.toList) :
    valueAfter? op (cs ++ t) =
      (valueAfter? op cs).bind fun body => if '\n' ∈ t then none else some (body ++ t) := by
  rw [valueAfter?, valueAfter?, dropPrefix?_append (hbreaks.notMem_symbol hknown)]
  cases hfound : dropPrefix? op.symbol.toList cs with
  | none => rfl
  | some rest =>
    have hdivided := dropPrefix?_eq_some_iff.1 hfound
    have hnonempty : rest ≠ [] := by
      rintro rfl
      exact hgoesOn (by simpa using hdivided)
    have hsolid' : Solid rest := hsolid.of_suffix ⟨_, hdivided.symm⟩
    have hvalue := hsolid'.dropWhile_ne_nil hnonempty
    simp only [Option.map_some, Option.bind_some, hsolid'.dropWhile_append hnonempty]
    by_cases here : '\n' ∈ rest.dropWhile Text.isBlank <;> by_cases hfeed : '\n' ∈ t <;>
      simp [hvalue, here, hfeed]

/-- Behind a comparator that ends a text, the value is found in what follows. -/
theorem valueAfter?_symbol (op : Comparator) (t : List Char) :
    valueAfter? op (op.symbol.toList ++ t) =
      if t.dropWhile Text.isBlank = [] ∨ '\n' ∈ t.dropWhile Text.isBlank then none
      else some (t.dropWhile Text.isBlank) := by
  have hfound : dropPrefix? op.symbol.toList (op.symbol.toList ++ t) = some t :=
    dropPrefix?_eq_some_iff.2 rfl
  rw [valueAfter?, hfound, Option.bind_some]
  simp only [Bool.or_eq_true, List.isEmpty_iff, List.contains_iff_mem]

/-- A comparator that comes after another in `Comparator.all` begins no text that starts with
the other. -/
theorem valueAfter?_of_ne (hknown : op ∈ Comparator.all) {op' : Comparator} (hbreaks : Breaks t)
    (hbefore : op' ∈ Comparator.all.takeWhile (· != op)) :
    valueAfter? op' (op.symbol.toList ++ t) = none := by
  have hknown' : op' ∈ Comparator.all := (List.takeWhile_prefix _).subset hbefore
  have hapart : dropPrefix? op'.symbol.toList op.symbol.toList = none := by
    revert op op'
    decide
  rw [valueAfter?, dropPrefix?_append (hbreaks.notMem_symbol hknown'), hapart]
  rfl

/-! ## The first comparator of a text -/

/-- The text behind its white space is a comparator. -/
def EndsIn (cs : List Char) (op : Comparator) : Prop :=
  op ∈ Comparator.all ∧ cs.dropWhile Text.isBlank = op.symbol.toList

/-- A text that goes on, and whose white space is not followed by a comparator. -/
structure Follows (t : List Char) : Prop where
  breaks : Breaks t
  noComparator : ∀ op ∈ Comparator.all, valueAfter? op (t.dropWhile Text.isBlank) = none

theorem Follows.valueAfter? (hfollows : Follows t) (hsolid : Solid cs)
    (hopen : ∀ op, ¬ EndsIn cs op) (hknown : op ∈ Comparator.all) :
    valueAfter? op ((cs ++ t).dropWhile Text.isBlank) =
      (Condition.valueAfter? op (cs.dropWhile Text.isBlank)).bind fun body =>
        if '\n' ∈ t then none else some (body ++ t) := by
  by_cases hnonempty : cs = []
  · subst hnonempty
    have hnothing : ∀ op ∈ Comparator.all, Condition.valueAfter? op [] = none := by decide
    simp [hfollows.noComparator op hknown, hnothing op hknown]
  · rw [hsolid.dropWhile_append hnonempty]
    exact valueAfter?_append hknown hfollows.breaks (hsolid.of_suffix (List.dropWhile_suffix _))
      fun hends => hopen op ⟨hknown, hends⟩

/-- A text that goes on after no comparator keeps its first comparator; the value goes on. -/
theorem Follows.comparison? (hfollows : Follows t) (hsolid : Solid cs)
    (hopen : ∀ op, ¬ EndsIn cs op) :
    comparison? (cs ++ t) =
      (Condition.comparison? cs).bind fun (op, body) =>
        if '\n' ∈ t then none else some (op, body ++ t) := by
  have heach := fun op (hknown : op ∈ Comparator.all) => hfollows.valueAfter? hsolid hopen hknown
  by_cases hfeed : '\n' ∈ t
  · have hnone : Condition.comparison? (cs ++ t) = none :=
      List.findSome?_eq_none_iff.2 fun op hknown => by simp [heach op hknown, hfeed]
    simp [hnone, hfeed]
  · cases hfound : Condition.comparison? cs with
    | none =>
      have hnone := List.findSome?_eq_none_iff.1 hfound
      refine List.findSome?_eq_none_iff.2 fun op hknown => ?_
      have hnothing := hnone op hknown
      rw [Option.map_eq_none_iff] at hnothing
      rw [heach op hknown, hnothing]
      rfl
    | some result =>
      obtain ⟨earlier, op, later, hsplit, here, hbefore⟩ := List.findSome?_eq_some_iff.1 hfound
      obtain ⟨body, hvalue, rfl⟩ := Option.map_eq_some_iff.1 here
      have hknown : op ∈ Comparator.all := by simp [hsplit]
      simp only [Option.bind_some, hfeed, if_false]
      refine List.findSome?_eq_some_iff.2 ⟨earlier, op, later, hsplit, ?_, fun op' hmem => ?_⟩
      · simp [heach op hknown, hvalue, hfeed]
      · have hnothing := hbefore op' hmem
        rw [Option.map_eq_none_iff] at hnothing
        rw [heach op' (by simp [hsplit, hmem]), hnothing]
        rfl

theorem symbol_ne_nil : ∀ op ∈ Comparator.all, op.symbol.toList ≠ [] := by
  decide

theorem symbol_ne :
    ∀ op ∈ Comparator.all, ∀ op' ∈ Comparator.all, op' ≠ op →
      op.symbol.toList ≠ op'.symbol.toList := by
  decide

theorem all_eq_append (hknown : op ∈ Comparator.all) :
    Comparator.all = Comparator.all.takeWhile (· != op) ++
      op :: (Comparator.all.dropWhile (· != op)).tail := by
  revert op
  decide

/-- Where a comparator ends a text, the value is found in what follows. -/
theorem EndsIn.comparison? (hends : EndsIn cs op) (hbreaks : Breaks t)
    (hvalue : t.dropWhile Text.isBlank ≠ []) :
    comparison? (cs ++ t) =
      if '\n' ∈ t.dropWhile Text.isBlank then none
      else some (op, t.dropWhile Text.isBlank) := by
  obtain ⟨hknown, hends⟩ := hends
  have hbehind : (cs ++ t).dropWhile Text.isBlank = op.symbol.toList ++ t := by
    rw [List.dropWhile_append, if_neg (by simpa [hends] using symbol_ne_nil op hknown), hends]
  have hfound := valueAfter?_symbol op t
  simp only [hvalue, false_or] at hfound
  split
  · rename_i hfeed
    refine List.findSome?_eq_none_iff.2 fun op' hknown' => ?_
    rw [hbehind, Option.map_eq_none_iff]
    by_cases hsame : op' = op
    · rw [hsame, hfound, if_pos hfeed]
    · have hinside : '\n' ∈ t := (List.dropWhile_suffix _).subset hfeed
      rw [valueAfter?_append hknown' hbreaks (solid_symbol hknown)
        (symbol_ne op hknown op' hknown' hsame)]
      simp [hinside]
  · rename_i honeLine
    refine List.findSome?_eq_some_iff.2 ⟨_, op, _, all_eq_append hknown, ?_, fun op' hbefore => ?_⟩
    · rw [hbehind, hfound, if_neg honeLine]
      rfl
    · rw [hbehind, valueAfter?_of_ne hknown hbreaks hbefore]
      rfl

/-! ## Divisions -/

/-- A text that goes on after no comparator is divided as before; the value goes on. -/
theorem Follows.divide? (hfollows : Follows t) (hsolid : Solid cs) {n : Nat}
    (hinside : n ≤ cs.length) (hopen : ∀ k, 0 < k → k ≤ n → ∀ op, ¬ EndsIn (cs.drop k) op) :
    divide? (cs ++ t) n =
      (Condition.divide? cs n).bind fun (field, op, body) =>
        if '\n' ∈ t then none else some (field, op, body ++ t) := by
  induction n with
  | zero => rfl
  | succ n ih =>
    have ih := ih (by omega) fun k hpositive hbelow => hopen k hpositive (by omega)
    have here := hfollows.comparison? (hsolid.of_suffix (List.drop_suffix (n + 1) cs))
      (hopen (n + 1) (by omega) le_rfl)
    rw [Condition.divide?, Condition.divide?, List.drop_append_of_le_length hinside, here, ih,
      List.take_append_of_le_length hinside]
    cases Condition.comparison? (cs.drop (n + 1)) with
    | none => rfl
    | some result => by_cases hfeed : '\n' ∈ t <;> simp [hfeed]

/-- The text has a field behind which, white space apart, only a comparator is left. -/
structure Dangles (cs : List Char) (k : Nat) (op : Comparator) : Prop where
  positive : 0 < k
  inside : k ≤ (cs.takeWhile isFieldChar).length
  ends : EndsIn (cs.drop k) op

theorem eq_contains : ∀ op ∈ Comparator.all, ∀ c,
    op.symbol.toList.head? = some c → isFieldChar c = true → op = .contains := by
  simp [Comparator.all, Comparator.symbol]
  decide

theorem comparison?_drop_contains :
    ∀ i < 9, 0 < i → comparison? (Comparator.contains.symbol.toList.drop i) = none ∧
      ∀ op ∈ Comparator.all, (Comparator.contains.symbol.toList.drop i).dropWhile Text.isBlank ≠
        op.symbol.toList := by
  decide

theorem Dangles.longer {k : Nat} (hdangles : Dangles cs k op) {j : Nat} (hlonger : k < j)
    (hinside : j ≤ (cs.takeWhile isFieldChar).length) :
    comparison? (cs.drop j) = none ∧ ∀ op', ¬ EndsIn (cs.drop j) op' := by
  obtain ⟨hknown, hends⟩ := hdangles.ends
  have hshort : j ≤ cs.length := hinside.trans (List.takeWhile_prefix _).length_le
  -- the character behind the shorter field belongs to the longer one
  obtain ⟨c, rest, hbehind, hfield⟩ : ∃ c rest, cs.drop k = c :: rest ∧ isFieldChar c = true := by
    have hlt : k < cs.length := by omega
    refine ⟨cs[k], cs.drop (k + 1), List.drop_eq_getElem_cons hlt, ?_⟩
    have hwithin : k < (cs.takeWhile isFieldChar).length := by omega
    rw [← (List.takeWhile_prefix isFieldChar).getElem hwithin]
    exact List.mem_takeWhile_imp (List.getElem_mem hwithin)
  have hsolid : Text.isBlank c = false := by
    by_contra hblank
    rw [Bool.not_eq_false] at hblank
    simp [isFieldChar_of_isBlank hblank] at hfield
  rw [hbehind, List.dropWhile_cons, if_neg (by simp [hsolid]), ← hbehind] at hends
  have hword : op = .contains := eq_contains op hknown c (by rw [← hends, hbehind]; rfl) hfield
  subst hword
  have hshorter : cs.drop j = Comparator.contains.symbol.toList.drop (j - k) := by
    rw [← hends, List.drop_drop, Nat.add_sub_cancel' hlonger.le]
  have hlength : (cs.drop k).length = 8 := by rw [hends]; rfl
  rw [List.length_drop] at hlength
  obtain ⟨hnone, hdiffer⟩ := comparison?_drop_contains (j - k) (by omega) (by omega)
  rw [hshorter]
  exact ⟨hnone, fun op' hends' => hdiffer op' hends'.1 hends'.2⟩

/-- A value does not go on over a line feed. -/
theorem Follows.divide?_eq_none (hfollows : Follows t) (hsolid : Solid cs)
    (hfeed : '\n' ∈ t.dropWhile Text.isBlank) {n : Nat} (hinside : n ≤ cs.length) :
    Condition.divide? (cs ++ t) n = none := by
  induction n with
  | zero => rfl
  | succ n ih =>
    have hnone : Condition.comparison? (cs.drop (n + 1) ++ t) = none := by
      by_cases hends : ∃ op, EndsIn (cs.drop (n + 1)) op
      · obtain ⟨op, hends⟩ := hends
        rw [hends.comparison? hfollows.breaks (List.ne_nil_of_mem hfeed), if_pos hfeed]
      · have hwhole : '\n' ∈ t := (List.dropWhile_suffix _).subset hfeed
        rw [hfollows.comparison? (hsolid.of_suffix (List.drop_suffix _ _)) (not_exists.1 hends)]
        simp [hwhole]
    rw [Condition.divide?, List.drop_append_of_le_length hinside, hnone]
    exact ih (by omega)

/-- A text that goes on after a comparator is divided there, if what follows is on one line. -/
theorem Dangles.divide? {k : Nat} (hdangles : Dangles cs k op) (hfollows : Follows t)
    (hsolid : Solid cs) (hvalue : t.dropWhile Text.isBlank ≠ []) :
    divide? (cs ++ t) (cs.takeWhile isFieldChar).length =
      if '\n' ∈ t.dropWhile Text.isBlank then none
      else some (cs.take k, op, t.dropWhile Text.isBlank) := by
  have hshort : (cs.takeWhile isFieldChar).length ≤ cs.length :=
    (List.takeWhile_prefix _).length_le
  split
  · rename_i hfeed
    exact hfollows.divide?_eq_none hsolid hfeed hshort
  · rename_i honeLine
    -- from the longest field down to the one behind which the comparator stands
    suffices hdown : ∀ n, k ≤ n → n ≤ (cs.takeWhile isFieldChar).length →
        Condition.divide? (cs ++ t) n = some (cs.take k, op, t.dropWhile Text.isBlank) from
      hdown _ hdangles.inside le_rfl
    intro n hreached
    induction n, hreached using Nat.le_induction with
    | base =>
      intro hinside
      obtain ⟨m, rfl⟩ := Nat.exists_eq_add_one.2 hdangles.positive
      have here := hdangles.ends.comparison? hfollows.breaks hvalue
      rw [if_neg honeLine] at here
      rw [Condition.divide?, List.drop_append_of_le_length (hinside.trans hshort), here,
        List.take_append_of_le_length (hinside.trans hshort)]
    | succ n hreached ih =>
      intro hinside
      obtain ⟨hnone, hopen⟩ := hdangles.longer (Nat.lt_succ_of_le hreached) hinside
      have here := hfollows.comparison? (hsolid.of_suffix (List.drop_suffix (n + 1) cs)) hopen
      rw [hnone, Option.bind_none] at here
      rw [Condition.divide?, List.drop_append_of_le_length (hinside.trans hshort), here]
      exact ih (by omega)

/-- The value of a division is not empty, begins with no white space and stands on one line. -/
theorem value_of_divide? {n : Nat} {field body : List Char}
    (hdivided : divide? cs n = some (field, op, body)) :
    body ≠ [] ∧ '\n' ∉ body ∧ ∀ c, body.head? = some c → Text.isBlank c = false := by
  induction n with
  | zero => cases hdivided
  | succ n ih =>
    rw [Condition.divide?] at hdivided
    cases hfound : Condition.comparison? (cs.drop (n + 1)) with
    | none =>
      rw [hfound] at hdivided
      exact ih hdivided
    | some result =>
      rw [hfound] at hdivided
      obtain ⟨-, op', -, -, here, -⟩ := List.findSome?_eq_some_iff.1 hfound
      obtain ⟨value, hbehind, rfl⟩ := Option.map_eq_some_iff.1 here
      obtain ⟨rest, -, hkept⟩ := Option.bind_eq_some_iff.1 hbehind
      cases hdivided
      dsimp only at hkept
      split at hkept
      · cases hkept
      · rename_i hfine
        cases hkept
        simp only [Bool.or_eq_true, List.isEmpty_iff, List.contains_iff_mem, not_or] at hfine
        refine ⟨hfine.1, hfine.2, fun c hfirst => ?_⟩
        have houtside := List.head?_dropWhile_not Text.isBlank rest
        rw [hfirst] at houtside
        exact houtside

/-! ## Connectives within a text -/

/-- A connective as it is looked for: a word between white space, in any case of its letters, or a
doubled sign. -/
inductive IsLink : List Char → Prop
  | word {b e : Char} {w : List Char} (before : Text.isBlank b = true)
      (spelled : w.map foldAscii = ['a', 'n', 'd'] ∨ w.map foldAscii = ['o', 'r'])
      (after : Text.isBlank e = true) : IsLink (b :: (w ++ [e]))
  | both : IsLink ['&', '&']
  | either : IsLink ['|', '|']

theorem startsWithWord_of_spelled {w word : List Char} (hspelled : w.map foldAscii = word)
    {c : Char} (hblank : Text.isBlank c = true) (cs : List Char) :
    startsWithWord word (w ++ c :: cs) = true := by
  have hlength : word.length = w.length := by rw [← hspelled, List.length_map]
  have hwhole : dropPrefix? word word = some [] := dropPrefix?_eq_some_iff.2 (by simp)
  rw [startsWithWord, hlength, List.take_left, List.drop_left, hspelled, hwhole]
  exact hblank

theorem startsWithWord_iff {word : List Char} :
    startsWithWord word cs = true ↔
      ∃ w e, w.map foldAscii = word ∧ Text.isBlank e = true ∧ w ++ [e] <+: cs := by
  constructor
  · intro hstarts
    unfold startsWithWord at hstarts
    split at hstarts
    · rename_i rest hfound
      have hsplit := dropPrefix?_eq_some_iff.1 hfound
      have hlength := congrArg List.length hsplit
      simp only [List.length_map, List.length_take, List.length_append] at hlength
      have hwhole : rest = [] := List.length_eq_zero_iff.1 (by omega)
      rw [hwhole, List.append_nil] at hsplit
      cases hbehind : cs.drop word.length with
      | nil => simp [hbehind] at hstarts
      | cons e rest =>
        refine ⟨cs.take word.length, e, hsplit, by simpa [hbehind] using hstarts, rest, ?_⟩
        rw [List.append_assoc, List.singleton_append, ← hbehind, List.take_append_drop]
    · cases hstarts
  · rintro ⟨w, e, hspelled, hblank, rest, rfl⟩
    rw [List.append_assoc]
    exact startsWithWord_of_spelled hspelled hblank rest

theorem connectiveHere_iff : connectiveHere cs = true ↔ ∃ link, IsLink link ∧ link <+: cs := by
  constructor
  · intro here
    unfold connectiveHere at here
    split at here
    · exact ⟨_, .both, List.prefix_append ['&', '&'] _⟩
    · exact ⟨_, .either, List.prefix_append ['|', '|'] _⟩
    · rename_i b rest _ _
      simp only [Bool.and_eq_true, Bool.or_eq_true, startsWithWord_iff] at here
      obtain ⟨hbefore, ⟨w, e, hspelled, hafter, hbegins⟩ | ⟨w, e, hspelled, hafter, hbegins⟩⟩ :=
        here
      · exact ⟨_, .word hbefore (.inl hspelled) hafter, List.cons_prefix_cons.2 ⟨rfl, hbegins⟩⟩
      · exact ⟨_, .word hbefore (.inr hspelled) hafter, List.cons_prefix_cons.2 ⟨rfl, hbegins⟩⟩
    · cases here
  · rintro ⟨_, @⟨b, e, w, hbefore, hspelled, hafter⟩ | _ | _, rest, rfl⟩
    · have hstarts := fun word (hspelled : w.map foldAscii = word) =>
        startsWithWord_iff.2 ⟨w, e, hspelled, hafter, rest, rfl⟩
      rw [List.cons_append]
      unfold connectiveHere
      split
      · rfl
      · rfl
      · rename_i hsame
        cases hsame
        simpa [hbefore] using hspelled.imp (hstarts _) (hstarts _)
      · rename_i hsame
        cases hsame
    · rfl
    · rfl

theorem hasConnective_iff : hasConnective cs = true ↔ ∃ link, IsLink link ∧ link <:+: cs := by
  induction cs with
  | nil =>
    simp only [hasConnective, Bool.false_eq_true, List.infix_nil, false_iff]
    rintro ⟨_, ⟨⟩ | _ | _, ⟨⟩⟩
  | cons c rest ih =>
    rw [hasConnective, Bool.or_eq_true, connectiveHere_iff, ih]
    simp only [List.infix_cons_iff, and_or_left, exists_or]

theorem IsLink.hasConnective {link : List Char} (hlink : IsLink link) (cs : List Char) :
    hasConnective (link ++ cs) = true :=
  hasConnective_iff.2 ⟨link, hlink, (List.prefix_append link cs).isInfix⟩

theorem hasConnective_append (cs : List Char) (hfound : hasConnective t = true) :
    hasConnective (cs ++ t) = true := by
  obtain ⟨link, hlink, hinside⟩ := hasConnective_iff.1 hfound
  exact hasConnective_iff.2 ⟨link, hlink, hinside.trans (List.suffix_append cs t).isInfix⟩

end Dialogue.Condition

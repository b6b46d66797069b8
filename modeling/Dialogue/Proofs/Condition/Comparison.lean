import Dialogue.Proofs.Condition.Compound

/-!
# Comparisons as they are written

A comparison is written as a field, white space, a comparator, white space and a value.  However
the text could be divided otherwise, it is read as it was written (`Condition.parse?_written`): the
field may hold the word of a comparator, and the value may hold quotes and comparators.  Two things
have to be kept apart by white space: a field from a word after it, and `>` or `<` from an `=` that
begins the value.

A comparison whose value is missing should be no condition.  That is so except for `>=` and `<=`,
whose second character is taken for the value of `>` and `<` (`Condition.parse?_valueless`).
-/

namespace Dialogue.Condition

variable {field body cs t u w : List Char} {op : Comparator}

/-! ## The parts of a comparison -/

/-- A text of white space, possibly empty. -/
def IsBlank (w : List Char) : Prop := ∀ c ∈ w, Text.isBlank c = true

instance : DecidablePred IsBlank := fun w =>
  decidable_of_iff (w.all Text.isBlank = true) List.all_eq_true

/-- The name of a field. -/
structure IsField (field : List Char) : Prop where
  nonempty : field ≠ []
  chars : ∀ c ∈ field, isFieldChar c = true

instance : DecidablePred IsField := fun field =>
  decidable_of_iff (field ≠ [] ∧ field.all isFieldChar = true)
    ⟨fun ⟨hnonempty, hchars⟩ => ⟨hnonempty, List.all_eq_true.1 hchars⟩,
      fun ⟨hnonempty, hchars⟩ => ⟨hnonempty, List.all_eq_true.2 hchars⟩⟩

theorem isBlank_of_isFieldChar {c : Char} (hinside : isFieldChar c = true) :
    Text.isBlank c = false := by
  by_contra hblank
  rw [Bool.not_eq_false] at hblank
  simp [isFieldChar_of_isBlank hblank] at hinside

theorem dropWhile_symbol (hknown : op ∈ Comparator.all) (t : List Char) :
    (op.symbol.toList ++ t).dropWhile Text.isBlank = op.symbol.toList ++ t := by
  obtain ⟨c, rest, hfirst⟩ := List.exists_cons_of_ne_nil (symbol_ne_nil op hknown)
  have hsolid := (isBlank_of_mem_symbol op hknown c (hfirst ▸ List.mem_cons_self)).1
  rw [hfirst, List.cons_append, List.dropWhile_cons, if_neg (by simp [hsolid])]

theorem Solid.upToEnd_append (hsolid : Solid cs) (hnonempty : cs ≠ []) (u : List Char) :
    upToEnd (cs ++ u) = cs ++ upToEnd u := by
  have hkept : cs.reverse.dropWhile Text.isBlank = cs.reverse := by
    rw [List.dropWhile_eq_self_iff]
    intro hpositive
    have hlast := hsolid (cs.getLast hnonempty) (List.getLast?_eq_some_getLast hnonempty)
    simpa [List.getElem_reverse, List.getLast_eq_getElem] using hlast
  rw [upToEnd, upToEnd, Text.dropEndWhile, Text.dropEndWhile, List.reverse_append,
    List.dropWhile_append, hkept]
  split
  · rename_i hblank
    simp [List.isEmpty_iff.1 hblank]
  · simp

/-- The text of a comparison without white space around it. -/
theorem stripChars_comparison (hfield : IsField field) (hknown : op ∈ Comparator.all)
    (w u : List Char) :
    Text.stripChars (field ++ (w ++ (op.symbol.toList ++ u))) =
      field ++ (w ++ (op.symbol.toList ++ upToEnd u)) := by
  obtain ⟨c, rest, rfl⟩ := List.exists_cons_of_ne_nil hfield.nonempty
  have hfirst := isBlank_of_isFieldChar (hfield.chars c List.mem_cons_self)
  have hnonempty := symbol_ne_nil op hknown
  have hsolid : Solid (c :: rest ++ (w ++ op.symbol.toList)) := by
    intro d hlast
    refine solid_symbol hknown d ?_
    rwa [← List.append_assoc, List.getLast?_append,
      List.getLast?_eq_some_getLast hnonempty, Option.some_or,
      ← List.getLast?_eq_some_getLast hnonempty] at hlast
  have hregroup (u : List Char) : c :: rest ++ (w ++ (op.symbol.toList ++ u)) =
      c :: rest ++ (w ++ op.symbol.toList) ++ u := by simp
  rw [hregroup, hregroup, ← hsolid.upToEnd_append (by simp), Text.stripChars, Text.trimChars,
    upToEnd]
  congr 1
  simp [hfirst]

/-- The longest field of a comparison is the field that was written, if a word stands apart from
it. -/
theorem takeWhile_isFieldChar (hfield : IsField field) (hblank : IsBlank w)
    (hknown : op ∈ Comparator.all) (hapart : op = .contains → w ≠ []) (u : List Char) :
    (field ++ (w ++ (op.symbol.toList ++ u))).takeWhile isFieldChar = field := by
  rw [List.takeWhile_append_of_pos hfield.chars]
  cases w with
  | cons c rest => simp [isFieldChar_of_isBlank (hblank c List.mem_cons_self)]
  | nil =>
    obtain ⟨c, rest, hfirst⟩ := List.exists_cons_of_ne_nil (symbol_ne_nil op hknown)
    have houtside : isFieldChar c = false := by
      by_contra hinside
      rw [Bool.not_eq_false] at hinside
      exact hapart (eq_contains op hknown c (by rw [hfirst]; rfl) hinside) rfl
    simp [hfirst, houtside]

theorem division?_comparison (hfield : IsField field) (hblank : IsBlank w)
    (hknown : op ∈ Comparator.all) (hapart : op = .contains → w ≠ []) (u : List Char) :
    division? (field ++ (w ++ (op.symbol.toList ++ u))) =
      divide? (field ++ (w ++ (op.symbol.toList ++ upToEnd u))) field.length := by
  rw [division?, stripChars_comparison hfield hknown,
    takeWhile_isFieldChar hfield hblank hknown hapart]

/-! ## The comparator that is found -/

theorem comparison?_of_isBlank (hblank : IsBlank w) (cs : List Char) :
    comparison? (w ++ cs) = comparison? cs := by
  rw [comparison?, comparison?, List.dropWhile_append_of_pos hblank]

/-- A comparator that is tried before another goes on after it with an `=`, or neither begins the
other. -/
theorem symbol_of_before : ∀ op ∈ Comparator.all, ∀ op' ∈ Comparator.all.takeWhile (· != op),
    ((op = .gt ∨ op = .lt) ∧ op'.symbol.toList = op.symbol.toList ++ ['=']) ∨
      (¬ op'.symbol.toList <+: op.symbol.toList ∧ ¬ op.symbol.toList <+: op'.symbol.toList) := by
  decide

/-- No comparator is tried successfully before the one that is there. -/
theorem valueAfter?_of_before (hknown : op ∈ Comparator.all) {op' : Comparator}
    (hbefore : op' ∈ Comparator.all.takeWhile (· != op))
    (hclear : op = .gt ∨ op = .lt → t.head? ≠ some '=') :
    valueAfter? op' (op.symbol.toList ++ t) = none := by
  rw [valueAfter?, Option.bind_eq_none_iff]
  intro rest hfound
  have hsplit := dropPrefix?_eq_some_iff.1 hfound
  rcases symbol_of_before op hknown op' hbefore with ⟨hsign, hlonger⟩ | ⟨hnotLonger, hnotShorter⟩
  · rw [hlonger, List.append_assoc, List.append_cancel_left_eq] at hsplit
    exact absurd (by rw [hsplit]; rfl) (hclear hsign)
  · have hbegins : op'.symbol.toList <+: op.symbol.toList ++ t := ⟨rest, hsplit.symm⟩
    exact ((List.prefix_or_prefix_of_prefix hbegins (List.prefix_append _ t)).elim
      hnotLonger hnotShorter).elim

/-- The comparator that is written is the one that is found. -/
theorem comparison?_symbol (hknown : op ∈ Comparator.all)
    (hclear : op = .gt ∨ op = .lt → t.head? ≠ some '=') (hvalue : t.dropWhile Text.isBlank ≠ [])
    (honeLine : '\n' ∉ t.dropWhile Text.isBlank) :
    comparison? (op.symbol.toList ++ t) = some (op, t.dropWhile Text.isBlank) := by
  rw [comparison?, dropWhile_symbol hknown]
  refine List.findSome?_eq_some_iff.2 ⟨_, op, _, all_eq_append hknown, ?_, fun op' hbefore => ?_⟩
  · rw [valueAfter?_symbol, if_neg (by simp [hvalue, honeLine])]
    rfl
  · rw [valueAfter?_of_before hknown hbefore hclear]
    rfl

/-- A comparison is divided where it was written. -/
theorem division?_eq_some (hfield : IsField field) (hblank : IsBlank w)
    (hknown : op ∈ Comparator.all) (hapart : op = .contains → w ≠ [])
    (hclear : op = .gt ∨ op = .lt → (upToEnd u).head? ≠ some '=')
    (hvalue : (upToEnd u).dropWhile Text.isBlank ≠ [])
    (honeLine : '\n' ∉ (upToEnd u).dropWhile Text.isBlank) :
    division? (field ++ (w ++ (op.symbol.toList ++ u))) =
      some (field, op, (upToEnd u).dropWhile Text.isBlank) := by
  obtain ⟨n, hlength⟩ := Nat.exists_eq_add_one.2 (List.length_pos_iff.2 hfield.nonempty)
  rw [division?_comparison hfield hblank hknown hapart, hlength, divide?, ← hlength, List.drop_left,
    List.take_left, comparison?_of_isBlank hblank, comparison?_symbol hknown hclear hvalue honeLine]

/-! ## Values as they are written -/

/-- The value of a comparison as it is written. -/
inductive Literal where
  | quoted (q : Char) (text : String)
  | bare (text : String)

namespace Literal

/-- A mark that a quoted value stands between. -/
def IsQuote (q : Char) : Prop := q = '"' ∨ q = '\''

def written : Literal → String
  | .quoted q text => String.ofList (q :: (text.toList ++ [q]))
  | .bare text => text

/-- The text between the marks. -/
def unquoted? : Literal → Option (List Char)
  | .quoted _ text => some text.toList
  | .bare _ => none

/-- The value that is meant. -/
def operand : Literal → Operand
  | .quoted _ text => { text, quoted := true, amount := Amount.read? text }
  | .bare text => { text, quoted := false, amount := Amount.read? text }

/-- A quoted value holds no mark of its own kind; a bare one is not blank at its ends and does not
begin as a quoted one. -/
inductive IsWellFormed : Literal → Prop
  | quoted {q : Char} {text : String} (quote : IsQuote q) (inside : q ∉ text.toList)
      (oneLine : '\n' ∉ text.toList) : IsWellFormed (.quoted q text)
  | bare {text : String} (nonempty : text ≠ "") (oneLine : '\n' ∉ text.toList)
      (first : ∀ c, text.toList.head? = some c → Text.isBlank c = false ∧ ¬ IsQuote c)
      (last : Solid text.toList) : IsWellFormed (.bare text)

/-- A bare value in which a connective stands. -/
def IsCompound : Literal → Prop
  | .quoted _ _ => False
  | .bare text => ∃ link, IsLink link ∧ link <:+: text.toList

/-! ### What is read of a value -/

variable {v : Literal}

theorem IsQuote.isBlank {q : Char} (hquote : IsQuote q) : Text.isBlank q = false := by
  rcases hquote with rfl | rfl <;> rfl

@[simp] theorem toList_written_quoted (q : Char) (text : String) :
    (Literal.quoted q text).written.toList = q :: (text.toList ++ [q]) :=
  String.toList_ofList

/-- A value on one line that neither begins nor ends with white space. -/
theorem IsWellFormed.trimmed (hfine : v.IsWellFormed) :
    v.written.toList ≠ [] ∧ '\n' ∉ v.written.toList ∧
      (∀ c, v.written.toList.head? = some c → Text.isBlank c = false) ∧
        Solid v.written.toList := by
  cases hfine with
  | @quoted q text hquote hinside honeLine =>
    have hfeed : '\n' ≠ q := by
      rintro rfl
      exact absurd hquote.isBlank (by decide)
    rw [toList_written_quoted]
    refine ⟨List.cons_ne_nil _ _, by simp [hfeed, honeLine], ?_, ?_⟩
    · rintro _ ⟨⟩
      exact hquote.isBlank
    · intro c hlast
      rw [← List.cons_append, List.getLast?_concat, Option.some.injEq] at hlast
      exact hlast ▸ hquote.isBlank
  | bare hnonempty honeLine hfirst hlast =>
    exact ⟨String.toList_eq_nil_iff.not.2 hnonempty, honeLine,
      fun c head => (hfirst c head).1, hlast⟩

theorem IsWellFormed.unquote? (hfine : v.IsWellFormed) :
    Operand.unquote? v.written.toList = v.unquoted? := by
  cases hfine with
  | @quoted q text hquote hinside honeLine =>
    rw [toList_written_quoted, Operand.unquote?, if_pos]
    · simp [unquoted?]
    · refine ⟨hquote, by simp, ?_⟩
      simpa using honeLine
  | @bare text hnonempty honeLine hfirst hlast =>
    rw [Literal.written]
    cases hchars : text.toList with
    | nil => rfl
    | cons c rest => exact if_neg fun hmarked => (hfirst c (by rw [hchars]; rfl)).2 hmarked.1

theorem IsWellFormed.stripChars (hfine : v.IsWellFormed) :
    Text.stripChars v.written.toList = v.written.toList :=
  hfine.trimmed.2.2.2.stripChars_eq hfine.trimmed.2.2.1

theorem IsWellFormed.ofChars (hfine : v.IsWellFormed) :
    Operand.ofChars v.written.toList = v.operand := by
  rw [Operand.ofChars, hfine.stripChars]
  dsimp only
  rw [hfine.unquote?]
  cases v <;> simp [unquoted?, operand, written]

theorem IsWellFormed.isCompound_iff (hfine : v.IsWellFormed) :
    v.IsCompound ↔
      Operand.unquote? v.written.toList = none ∧ hasConnective v.written.toList = true := by
  rw [hfine.unquote?]
  cases v with
  | quoted q text => simp [IsCompound, unquoted?]
  | bare text => simp [IsCompound, written, unquoted?, hasConnective_iff]

end Literal

/-! ## Reading a comparison -/

/-- A comparison as it is written, with white space where its parts would run together. -/
structure IsWritten (field left : String) (op : Comparator) (right : String) (v : Literal) :
    Prop where
  isField : IsField field.toList
  known : op ∈ Comparator.all
  before : IsBlank left.toList
  after : IsBlank right.toList
  apart : op = .contains → left ≠ ""
  clear : op = .gt ∨ op = .lt → v.written.toList.head? = some '=' → right ≠ ""
  value : v.IsWellFormed

variable {f left right : String} {v : Literal}

theorem IsBlank.head?_append (hblank : IsBlank w) {c : Char} (hsolid : Text.isBlank c = false)
    (hfirst : (w ++ cs).head? = some c) : w = [] := by
  cases w with
  | nil => rfl
  | cons b rest =>
    obtain rfl : b = c := by simpa using hfirst
    simp [hblank b List.mem_cons_self] at hsolid

theorem IsWritten.division? (hwritten : IsWritten f left op right v) :
    Condition.division? (f ++ left ++ op.symbol ++ right ++ v.written).toList =
      some (f.toList, op, v.written.toList) := by
  obtain ⟨hnonempty, honeLine, hfirst, hlast⟩ := hwritten.value.trimmed
  have hsolid : Solid (right.toList ++ v.written.toList) := by
    intro c hends
    rw [List.getLast?_append, List.getLast?_eq_some_getLast hnonempty, Option.some_or,
      ← List.getLast?_eq_some_getLast hnonempty] at hends
    exact hlast c hends
  have hkept : upToEnd (right.toList ++ v.written.toList) = right.toList ++ v.written.toList := by
    simpa [upToEnd] using hsolid.upToEnd_append (by simp [hnonempty]) []
  have hskipped : (right.toList ++ v.written.toList).dropWhile Text.isBlank =
      v.written.toList := by
    obtain ⟨c, rest, hchars⟩ := List.exists_cons_of_ne_nil hnonempty
    rw [List.dropWhile_append_of_pos hwritten.after, hchars, List.dropWhile_cons,
      if_neg (by simp [hfirst c (by rw [hchars]; rfl)])]
  have hclear : op = .gt ∨ op = .lt →
      (right.toList ++ v.written.toList).head? ≠ some '=' := by
    intro hsign hbegins
    have hnothing := hwritten.after.head?_append (by decide) hbegins
    rw [hnothing] at hbegins
    exact hwritten.clear hsign hbegins (String.toList_eq_nil_iff.1 hnothing)
  have hdivided := division?_eq_some (u := right.toList ++ v.written.toList) hwritten.isField
    hwritten.before hwritten.known
    (fun hword => String.toList_eq_nil_iff.not.2 (hwritten.apart hword))
    (by rwa [hkept]) (by rwa [hkept, hskipped]) (by rwa [hkept, hskipped])
  simpa [hkept, hskipped] using hdivided

/-- A comparison is read as it was written, unless a connective stands in a bare value. -/
theorem parse?_written (hwritten : IsWritten f left op right v) :
    (v.IsCompound → parse? (f ++ left ++ op.symbol ++ right ++ v.written) = none) ∧
      (¬ v.IsCompound → parse? (f ++ left ++ op.symbol ++ right ++ v.written) =
        some ⟨f, op, v.operand⟩) := by
  have hread := ofChars?_of_division? hwritten.division? hwritten.value.stripChars
  rw [hwritten.value.ofChars, String.ofList_toList] at hread
  exact ⟨fun hcompound => hread.trans (if_pos (hwritten.value.isCompound_iff.1 hcompound)),
    fun hsingle => hread.trans (if_neg (hwritten.value.isCompound_iff.not.1 hsingle))⟩

/-- A field may be the word of a comparator, and a value may begin with a sign. -/
theorem parse?_written_contains :
    IsWritten "contains" " " .contains "" (.quoted '"' "> 'x'") ∧
      ¬ (Literal.quoted '"' "> 'x'").IsCompound ∧
      parse? "contains contains\"> 'x'\"" =
        some ⟨"contains", .contains, ⟨"> 'x'", true, none⟩⟩ := by
  have hwritten : IsWritten "contains" " " .contains "" (.quoted '"' "> 'x'") :=
    { isField := by decide
      known := by decide
      before := by decide
      after := by decide
      apart := by decide
      clear := by decide
      value := .quoted (.inl rfl) (by decide) (by decide) }
  have hamount : Amount.read? "> 'x'" = none := by decide +kernel
  refine ⟨hwritten, id, Eq.trans ?_ (((parse?_written hwritten).2 id).trans ?_)⟩
  · exact congrArg parse? (by decide)
  · rw [Literal.operand, hamount]

/-! ## A comparison without a value -/

/-- The comparator that is taken for this one when no value follows; the `=` behind it is taken for
the value. -/
def shortened? : Comparator → Option Comparator
  | .ge => some .gt
  | .le => some .lt
  | _ => none

/-- A comparator and nothing else. -/
theorem comparison?_symbol_nil : ∀ op ∈ Comparator.all,
    comparison? op.symbol.toList = (shortened? op).map fun op' => (op', ['=']) := by
  decide

/-- Behind the first letter of the word only letters of fields follow, and not that letter. -/
theorem chars_of_contains : ∀ i < 8, 0 < i →
    (Comparator.contains.symbol.toList.drop i).head?.any
      (fun c => isFieldChar c && c != 'c') = true := by
  decide

/-- What may stand behind a field: nothing that could go on with the word of a comparator begun in
the field. -/
def Halts (t : List Char) : Prop := ∀ c, t.head? = some c → isFieldChar c = true → c = 'c'

theorem halts_symbol (hblank : IsBlank w) (hknown : op ∈ Comparator.all) (t : List Char) :
    Halts (w ++ (op.symbol.toList ++ t)) := by
  intro c hfirst hinside
  cases w with
  | nil =>
    obtain ⟨d, rest, hchars⟩ := List.exists_cons_of_ne_nil (symbol_ne_nil op hknown)
    obtain rfl : d = c := by simpa [hchars] using hfirst
    have hword := eq_contains op hknown d (by rw [hchars]; rfl) hinside
    subst hword
    exact (List.cons.inj hchars).1.symm
  | cons b rest =>
    obtain rfl : b = c := by simpa using hfirst
    simp [isFieldChar_of_isBlank (hblank b List.mem_cons_self)] at hinside

/-- The word of a comparator does not begin within a field that does not hold it. -/
theorem not_prefix_drop (hnoWord : ¬ Comparator.contains.symbol.toList <:+: field) (halts : Halts t)
    {k : Nat} (hinside : k < field.length) :
    ¬ Comparator.contains.symbol.toList <+: field.drop k ++ t := by
  have hwhole : ¬ Comparator.contains.symbol.toList <+: field.drop k := fun hbegins =>
    hnoWord (hbegins.isInfix.trans (List.drop_suffix k field).isInfix)
  rintro ⟨rest, hsplit⟩
  rcases List.append_eq_append_iff.1 hsplit with ⟨more, hbegins, -⟩ | ⟨more, hbegun, hgoesOn⟩
  · exact hwhole ⟨more, hbegins.symm⟩
  · have hpart : Comparator.contains.symbol.toList.drop (field.length - k) = more := by
      rw [hbegun, ← List.length_drop, List.drop_left]
    have hnonempty : more ≠ [] := by
      rintro rfl
      exact hwhole ⟨[], by simpa using hbegun⟩
    have hshort : field.length - k < 8 := by
      by_contra hlong
      exact hnonempty (hpart ▸ List.drop_eq_nil_of_le (not_lt.1 hlong))
    obtain ⟨c, head, hletter⟩ :=
      (Option.any_eq_true _ _).1 (chars_of_contains _ hshort (by omega))
    rw [Bool.and_eq_true, bne_iff_ne] at hletter
    refine hletter.2 (halts c ?_ hletter.1)
    rw [hgoesOn, ← hpart, List.head?_append, head, Option.some_or]

/-- No comparator is found within a field that does not hold the word of one. -/
theorem comparison?_drop_eq_none (hchars : ∀ c ∈ field, isFieldChar c = true)
    (hnoWord : ¬ Comparator.contains.symbol.toList <:+: field) (halts : Halts t) {k : Nat}
    (hinside : k < field.length) : comparison? (field.drop k ++ t) = none := by
  have hbehind := List.drop_eq_getElem_cons hinside
  have hfirst : isFieldChar field[k] = true := hchars _ (List.getElem_mem hinside)
  have hkept : (field.drop k ++ t).dropWhile Text.isBlank = field.drop k ++ t := by
    rw [hbehind, List.cons_append, List.dropWhile_cons,
      if_neg (by simp [isBlank_of_isFieldChar hfirst])]
  rw [comparison?, List.findSome?_eq_none_iff, hkept]
  intro op hknown
  rw [Option.map_eq_none_iff, valueAfter?, Option.bind_eq_none_iff]
  intro rest hfound
  have hsplit := dropPrefix?_eq_some_iff.1 hfound
  -- no other comparator begins with a character of a field
  have hword : op = .contains := by
    obtain ⟨c, tail, hsymbol⟩ := List.exists_cons_of_ne_nil (symbol_ne_nil op hknown)
    rw [hbehind, hsymbol] at hsplit
    refine eq_contains op hknown field[k] ?_ hfirst
    rw [hsymbol, List.head?_cons, (List.cons.inj hsplit).1]
  subst hword
  exact (not_prefix_drop hnoWord halts hinside ⟨rest, hsplit.symm⟩).elim

/-- Fields behind which there is no comparison are passed over. -/
theorem divide?_of_comparison?_eq_none {k n : Nat} (hreached : k ≤ n)
    (hnone : ∀ j, k < j → j ≤ n → comparison? (cs.drop j) = none) :
    divide? cs n = divide? cs k := by
  induction n, hreached using Nat.le_induction with
  | base => rfl
  | succ n hreached ih =>
    rw [divide?, hnone (n + 1) (by omega) le_rfl]
    exact ih fun j hlonger hinside => hnone j hlonger (by omega)

/-- The division of a comparison without a value. -/
theorem division?_valueless (hfield : IsField field)
    (hnoWord : ¬ Comparator.contains.symbol.toList <:+: field) (hknown : op ∈ Comparator.all)
    (hblank : IsBlank w) (hafter : IsBlank u) :
    division? (field ++ (w ++ (op.symbol.toList ++ u))) =
      (shortened? op).map fun op' => (field, op', ['=']) := by
  have hends : upToEnd u = [] := by
    rw [upToEnd, Text.dropEndWhile, List.reverse_eq_nil_iff, List.dropWhile_eq_nil_iff]
    exact fun c hmem => hafter c (List.mem_reverse.1 hmem)
  rw [division?, stripChars_comparison hfield hknown, hends]
  have hdangles : Dangles (field ++ (w ++ (op.symbol.toList ++ []))) field.length op :=
    { positive := List.length_pos_iff.2 hfield.nonempty
      inside := by
        rw [List.takeWhile_append_of_pos hfield.chars, List.length_append]
        exact Nat.le_add_right _ _
      ends := ⟨hknown, by
        rw [List.drop_left, List.dropWhile_append_of_pos hblank, dropWhile_symbol hknown,
          List.append_nil]⟩ }
  rw [divide?_of_comparison?_eq_none hdangles.inside fun j hlonger hinside =>
    (hdangles.longer hlonger hinside).1]
  obtain ⟨n, hlength⟩ := Nat.exists_eq_add_one.2 hdangles.positive
  have hshorter : divide? (field ++ (w ++ (op.symbol.toList ++ []))) n = none :=
    divide?_of_comparison?_eq_none n.zero_le fun j _ hinside => by
      rw [List.drop_append_of_le_length (by omega)]
      exact comparison?_drop_eq_none hfield.chars hnoWord (halts_symbol hblank hknown []) (by omega)
  rw [hlength, divide?, ← hlength, List.drop_left, List.take_left, comparison?_of_isBlank hblank,
    hshorter, List.append_nil, comparison?_symbol_nil op hknown]
  cases shortened? op <;> rfl

/-- A comparison without a value is no condition, holds of no data and is reported, unless its
comparator ends in an `=` that another one goes before. -/
theorem parse?_valueless (hfield : IsField f.toList)
    (hnoWord : ¬ Comparator.contains.symbol.toList <:+: f.toList) (hknown : op ∈ Comparator.all)
    (hbefore : IsBlank left.toList) (hafter : IsBlank right.toList) :
    parse? (f ++ left ++ op.symbol ++ right) =
      (shortened? op).map (fun op' => ⟨f, op', ⟨"=", false, none⟩⟩) ∧
    (shortened? op = none →
      ∀ data, Turn.holds (some (f ++ left ++ op.symbol ++ right)) data = false) ∧
    ∀ (flow : Flow) (i : Nat) (s : Step) (thenTarget elseTarget : Option Int),
      flow.steps[i]? = some (.step s) →
      s.action = .condition (some (f ++ left ++ op.symbol ++ right)) thenTarget elseTarget →
      (.unreadableExpression i (f ++ left ++ op.symbol ++ right) ∈ flow.problems ↔
        shortened? op = none) := by
  have hchars : (f ++ left ++ op.symbol ++ right).toList =
      f.toList ++ (left.toList ++ (op.symbol.toList ++ right.toList)) := by simp
  have hdivided := division?_valueless hfield hnoWord hknown hbefore hafter
  have hread : parse? (f ++ left ++ op.symbol ++ right) =
      (shortened? op).map (fun op' => ⟨f, op', ⟨"=", false, none⟩⟩) := by
    rw [parse?, hchars]
    cases hshort : shortened? op with
    | none => exact ofChars?_of_division?_eq_none (by rw [hdivided, hshort]; rfl)
    | some op' =>
      have hvalue : Operand.ofChars ['='] = ⟨"=", false, none⟩ := by decide +kernel
      rw [ofChars?_of_division? (by rw [hdivided, hshort]; rfl) (by decide), if_neg (by decide),
        String.ofList_toList, hvalue]
      rfl
  have hunread : parse? (f ++ left ++ op.symbol ++ right) = none ↔ shortened? op = none := by
    rw [hread, Option.map_eq_none_iff]
  have hwritten : Text.isBlankText (f ++ left ++ op.symbol ++ right) = false := by
    obtain ⟨c, rest, hfirst⟩ := List.exists_cons_of_ne_nil hfield.nonempty
    have hsolid := isBlank_of_isFieldChar (hfield.chars c (hfirst ▸ List.mem_cons_self))
    rw [Text.isBlankText, hchars, hfirst]
    simp [hsolid]
  refine ⟨hread, fun hfine data => ?_, fun flow i s thenTarget elseTarget here haction => ?_⟩
  · simp [Turn.holds, hunread.2 hfine]
  · rw [Flow.mem_problems_iff here haction hwritten, hunread]

/-- Without a value `>=` is taken for `>` and the value `=`. -/
theorem parse?_valueless_ge :
    IsField "budget".toList ∧ ¬ Comparator.contains.symbol.toList <:+: "budget".toList ∧
      IsBlank " ".toList ∧ IsBlank "".toList ∧
      parse? "budget >=" = some ⟨"budget", .gt, ⟨"=", false, none⟩⟩ := by
  have hfield : IsField "budget".toList := by decide
  have hnoWord : ¬ Comparator.contains.symbol.toList <:+: "budget".toList := fun hinside =>
    absurd hinside.length_le (by decide)
  have hbefore : IsBlank " ".toList := by decide
  have hafter : IsBlank "".toList := by decide
  have hknown : Comparator.ge ∈ Comparator.all := by decide
  exact ⟨hfield, hnoWord, hbefore, hafter,
    (parse?_valueless hfield hnoWord hknown hbefore hafter).1⟩

/-- Not every comparison without a value is read as no condition. -/
theorem not_parse?_valueless :
    ¬ ∀ (f left : String) (op : Comparator) (right : String), IsField f.toList →
      ¬ Comparator.contains.symbol.toList <:+: f.toList → op ∈ Comparator.all →
        IsBlank left.toList → IsBlank right.toList →
          parse? (f ++ left ++ op.symbol ++ right) = none := by
  intro hrejected
  have hnoWord : ¬ Comparator.contains.symbol.toList <:+: "budget".toList := fun hinside =>
    absurd hinside.length_le (by decide)
  have hunread := hrejected "budget" " " .ge "" (by decide) hnoWord (by decide) (by decide)
    (by decide)
  have hread : parse? ("budget" ++ " " ++ Comparator.ge.symbol ++ "") ≠ none := by decide +kernel
  exact hread hunread

end Dialogue.Condition

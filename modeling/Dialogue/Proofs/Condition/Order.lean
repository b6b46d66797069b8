import Dialogue.Proofs.Condition.Comparison
import Mathlib.Data.String.Basic

/-!
# The comparators of order agree

`<`, `==` and `>` exclude each other and leave nothing out, and `!=`, `>=` and `<=` say what they
spell (`IsConsistent`).  The comparators are read from six texts, and a comparison looks at amounts
or at texts.  What makes them agree is that the comparator is the only part of the reading that
differs (`Condition.parse?_of_parse?`), that the choice between amounts and texts does not look at
it, and that no amount is NaN, so that amounts have ranks.
-/

namespace Dialogue

theorem Double.exists_rank? {d : Double} (hpositive : d.isPositive = true) :
    ∃ x, d.rank? = some x := by
  simp only [Double.isPositive, Double.isFinite, Bool.and_eq_true, decide_eq_true_eq] at hpositive
  exact ⟨_, if_neg (by simpa [Double.isNaN] using hpositive.1.1.le)⟩

namespace Comparator

/-- One of `<`, `==` and `>` holds, and the other comparators of order follow from them. -/
structure IsConsistent (decides : Comparator → Bool) : Prop where
  one : ∃! op, op ∈ [.lt, .eq, .gt] ∧ decides op = true
  ne : decides .ne = !decides .eq
  ge : decides .ge = (decides .gt || decides .eq)
  le : decides .le = (decides .lt || decides .eq)

theorem IsConsistent.congr {decides decides' : Comparator → Bool} (h : IsConsistent decides)
    (hsame : ∀ op ∈ Comparator.all, op ≠ .contains → decides' op = decides op) :
    IsConsistent decides' where
  one := by
    obtain ⟨op, ⟨hmem, holds⟩, hunique⟩ := h.one
    have hkept : ∀ op ∈ [Comparator.lt, .eq, .gt], decides' op = decides op := by
      simpa using ⟨hsame .lt (by decide) (by decide), hsame .eq (by decide) (by decide),
        hsame .gt (by decide) (by decide)⟩
    refine ⟨op, ⟨hmem, (hkept op hmem).trans holds⟩, ?_⟩
    rintro op' ⟨hmem', holds'⟩
    exact hunique op' ⟨hmem', (hkept op' hmem').symm.trans holds'⟩
  ne := by rw [hsame .ne (by decide) (by decide), hsame .eq (by decide) (by decide), h.ne]
  ge := by
    rw [hsame .ge (by decide) (by decide), hsame .gt (by decide) (by decide),
      hsame .eq (by decide) (by decide), h.ge]
  le := by
    rw [hsame .le (by decide) (by decide), hsame .lt (by decide) (by decide),
      hsame .eq (by decide) (by decide), h.le]

/-- Comparators that decide a linear order agree. -/
theorem isConsistent_of_linearOrder {α : Type} [LinearOrder α] {a b : α}
    {decides : Comparator → Bool} (hlt : decides .lt = decide (a < b))
    (heq : decides .eq = decide (a = b)) (hgt : decides .gt = decide (b < a))
    (hne : decides .ne = decide (a ≠ b)) (hge : decides .ge = decide (b ≤ a))
    (hle : decides .le = decide (a ≤ b)) : IsConsistent decides where
  one := by
    rcases lt_trichotomy a b with hless | hsame | hgreater
    · exact ⟨.lt, by simp [hlt, hless], by simp [heq, hgt, hless.ne, hless.not_gt]⟩
    · exact ⟨.eq, by simp [heq, hsame], by simp [hlt, hgt, hsame]⟩
    · exact ⟨.gt, by simp [hgt, hgreater], by simp [hlt, heq, hgreater.ne', hgreater.not_gt]⟩
  ne := by simp [hne, heq]
  ge := by simp [hge, hgt, heq, le_iff_lt_or_eq, @eq_comm _ b a]
  le := by simp [hle, hlt, heq, le_iff_lt_or_eq]

theorem isConsistent_holdsOfTexts (a b : String) :
    IsConsistent fun op => op.holdsOfTexts a b := by
  apply isConsistent_of_linearOrder (a := a) (b := b) <;>
    simp [holdsOfTexts, bne, beq_eq_decide, le_iff_lt_or_eq, @eq_comm _ b a]

/-- An amount has a rank, so the comparators agree on amounts. -/
theorem isConsistent_holdsOfAmounts {a b : Double} (hleft : a.isPositive = true)
    (hright : b.isPositive = true) : IsConsistent fun op => op.holdsOfAmounts a b := by
  obtain ⟨x, hx⟩ := Double.exists_rank? hleft
  obtain ⟨y, hy⟩ := Double.exists_rank? hright
  apply isConsistent_of_linearOrder (a := x) (b := y) <;>
    simp [holdsOfAmounts, Double.lt, Double.le, Double.same, hx, hy, beq_eq_decide]

end Comparator

namespace Condition

open Comparator

variable {cs field body : List Char} {op op₀ : Comparator} {f v : String} {value : Operand}

theorem isPositive_of_ofValue? {held : Value} {d : Double}
    (hamount : Amount.ofValue? held = some d) : d.isPositive = true := by
  unfold Amount.ofValue? at hamount
  split at hamount
  · cases hamount
  · cases hamount
  · exact Amount.isPositive_of_read? hamount

section

variable {held : Value} (hthere : held.isNull = false)
  (hwritten : Text.isBlankText held.display = false) (horder : op ≠ .contains)

include hthere hwritten horder

theorem holdsOf_eq_holdsOfAmounts {a b : Double} (hleft : Amount.ofValue? held = some a)
    (hright : value.amount = some b) : holdsOf ⟨f, op, value⟩ held = op.holdsOfAmounts a b := by
  rw [holdsOf, hthere, hwritten]
  cases op with
  | contains => exact (horder rfl).elim
  | _ => simp only [Bool.or_self, Bool.false_eq_true, if_false, hleft, hright]

/-- Where one of them names none, the texts are compared. -/
theorem holdsOf_eq_holdsOfTexts
    (hnoAmounts : Amount.ofValue? held = none ∨ value.amount = none) :
    holdsOf ⟨f, op, value⟩ held =
      op.holdsOfTexts (comparable held.display) (comparable value.text) := by
  rw [holdsOf, hthere, hwritten]
  cases op with
  | contains => exact (horder rfl).elim
  | _ =>
    simp only [Bool.or_self, Bool.false_eq_true, if_false]
    split
    · rename_i hleft hright
      simp [hleft, hright] at hnoAmounts
    · rfl

end

/-- The comparators of order agree on a field that is neither null nor blank: whether amounts or
texts are compared does not depend on the comparator. -/
theorem isConsistent_holdsOf (f : String) (hamount : value.amount = Amount.read? value.text)
    {held : Value} (hthere : held.isNull = false)
    (hwritten : Text.isBlankText held.display = false) :
    IsConsistent fun op => holdsOf ⟨f, op, value⟩ held := by
  by_cases hnoAmounts : Amount.ofValue? held = none ∨ value.amount = none
  · exact (isConsistent_holdsOfTexts (comparable held.display) (comparable value.text)).congr
      fun op _ horder => holdsOf_eq_holdsOfTexts hthere hwritten horder hnoAmounts
  · rw [not_or] at hnoAmounts
    obtain ⟨a, hleft⟩ := Option.ne_none_iff_exists'.1 hnoAmounts.1
    obtain ⟨b, hright⟩ := Option.ne_none_iff_exists'.1 hnoAmounts.2
    exact (isConsistent_holdsOfAmounts (isPositive_of_ofValue? hleft)
      (Amount.isPositive_of_read? (hamount.symm.trans hright))).congr
        fun op _ horder => holdsOf_eq_holdsOfAmounts hthere hwritten horder hleft hright

/-! ## Reading the comparators -/

theorem exists_of_divide? {n : Nat} (hdivided : divide? cs n = some (field, op, body)) :
    ∃ k, 0 < k ∧ k ≤ n ∧ field = cs.take k ∧ comparison? (cs.drop k) = some (op, body) := by
  induction n with
  | zero => cases hdivided
  | succ n ih =>
    rw [divide?] at hdivided
    split at hdivided
    · rename_i hfound
      cases hdivided
      exact ⟨n + 1, by omega, le_rfl, rfl, hfound⟩
    · obtain ⟨k, hpositive, hinside, hrest⟩ := ih hdivided
      exact ⟨k, hpositive, by omega, hrest⟩

theorem suffix_of_comparison? (hfound : comparison? cs = some (op, body)) : body <:+ cs := by
  obtain ⟨-, op', -, -, here, -⟩ := List.findSome?_eq_some_iff.1 hfound
  obtain ⟨value, hbehind, hsame⟩ := Option.map_eq_some_iff.1 here
  cases hsame
  obtain ⟨rest, hstart, hkept⟩ := Option.bind_eq_some_iff.1 hbehind
  have hsuffix : rest <:+ cs :=
    (dropPrefix?_eq_some_iff.1 hstart ▸ List.suffix_append _ rest).trans (List.dropWhile_suffix _)
  dsimp only at hkept
  split at hkept
  · cases hkept
  · cases hkept
    exact (List.dropWhile_suffix _).trans hsuffix

theorem stripChars_of_division? (hdivided : division? cs = some (field, op, body)) :
    Text.stripChars body = body := by
  obtain ⟨k, -, -, -, hfound⟩ := exists_of_divide? hdivided
  have hsuffix := (suffix_of_comparison? hfound).trans (List.drop_suffix k _)
  exact ((solid_stripChars cs).of_suffix hsuffix).stripChars_eq (value_of_divide? hdivided).2.2

theorem isField_of_division? (hdivided : division? cs = some (field, op, body)) :
    IsField field := by
  obtain ⟨k, hpositive, hinside, rfl, -⟩ := exists_of_divide? hdivided
  have hwithin : (Text.stripChars cs).take k <+: (Text.stripChars cs).takeWhile isFieldChar :=
    List.prefix_of_prefix_length_le (List.take_prefix _ _) (List.takeWhile_prefix _)
      ((List.length_take_le _ _).trans hinside)
  refine ⟨?_, fun c hmem => List.mem_takeWhile_imp (hwithin.subset hmem)⟩
  have hshort := (List.takeWhile_prefix isFieldChar (l := Text.stripChars cs)).length_le
  rw [← List.length_pos_iff, List.length_take]
  omega

/-- The value behind a comparator and a blank that is read. -/
theorem value_of_division? (hfield : IsField field) (hknown : op ∈ Comparator.all) {u : List Char}
    (hdivided : division? (field ++ ([' '] ++ (op.symbol.toList ++ u))) = some (field, op, body)) :
    body = (upToEnd u).dropWhile Text.isBlank ∧ body ≠ [] ∧ '\n' ∉ body := by
  rw [division?_comparison hfield (by decide) hknown (fun _ => by simp)] at hdivided
  obtain ⟨k, hpositive, hinside, hstart, hfound⟩ := exists_of_divide? hdivided
  have hwhole : k = field.length := by
    have hlength := congrArg List.length hstart
    rw [List.length_take] at hlength
    omega
  rw [hwhole, List.drop_left, comparison?_of_isBlank (by decide)] at hfound
  obtain ⟨-, op', -, -, here, -⟩ := List.findSome?_eq_some_iff.1 hfound
  obtain ⟨body', hvalue, hsame⟩ := Option.map_eq_some_iff.1 here
  cases hsame
  rw [dropWhile_symbol hknown, valueAfter?_symbol] at hvalue
  split at hvalue
  · cases hvalue
  · rename_i hfine
    rw [not_or] at hfine
    cases hvalue
    exact ⟨rfl, hfine⟩

/-- Of comparisons that differ in the comparator all are read if one is, with the same value. -/
theorem parse?_of_parse? (hknown₀ : op₀ ∈ Comparator.all)
    (hread : parse? (f ++ " " ++ op₀.symbol ++ " " ++ v) = some ⟨f, op₀, value⟩)
    (hknown : op ∈ Comparator.all) :
    parse? (f ++ " " ++ op.symbol ++ " " ++ v) = some ⟨f, op, value⟩ := by
  have hchars (op : Comparator) : (f ++ " " ++ op.symbol ++ " " ++ v).toList =
      f.toList ++ ([' '] ++ (op.symbol.toList ++ (' ' :: v.toList))) := by simp
  rw [parse?, hchars] at hread ⊢
  obtain ⟨field, op', body, hdivided, -⟩ := exists_division hread
  have htrimmed := stripChars_of_division? hdivided
  rw [ofChars?_of_division? hdivided htrimmed] at hread
  split at hread
  · cases hread
  · rename_i hsingle
    simp only [Option.some.injEq, Condition.mk.injEq] at hread
    obtain ⟨rfl, rfl, rfl⟩ := hread
    rw [String.toList_ofList] at hdivided ⊢
    have hfield := isField_of_division? hdivided
    obtain ⟨rfl, hnonempty, honeLine⟩ := value_of_division? hfield hknown₀ hdivided
    have hclear : (upToEnd (' ' :: v.toList)).head? ≠ some '=' := by
      intro hbegins
      obtain ⟨rest, hwhole⟩ := Text.dropEndWhile_prefix Text.isBlank (' ' :: v.toList)
      rw [upToEnd] at hbegins
      have hfirst := congrArg List.head? hwhole
      rw [List.head?_append, hbegins] at hfirst
      simp at hfirst
    have hdivided' := division?_eq_some (w := [' ']) hfield (by decide) hknown (fun _ => by simp)
      (fun _ => hclear) hnonempty honeLine
    rw [ofChars?_of_division? hdivided' htrimmed, if_neg hsingle]

theorem amount_ofChars (cs : List Char) :
    (Operand.ofChars cs).amount = Amount.read? (Operand.ofChars cs).text := by
  unfold Operand.ofChars
  dsimp only
  split <;> dsimp only

theorem amount_of_parse? {s : String} {c : Condition} (hread : parse? s = some c) :
    c.value.amount = Amount.read? c.value.text := by
  unfold parse? ofChars? at hread
  dsimp only at hread
  split at hread
  · cases hread
  · split at hread
    · cases hread
    · cases hread
      exact amount_ofChars _

/-! ## Comparisons of one field with one value -/

/-- The field is not there, null or blank. -/
def IsMissing (data : Fields) (f : String) : Prop :=
  ∀ held, Fields.get? data f = some held → held.isNull = true ∨ Text.isBlankText held.display = true

/-- Whether the comparison of a field with a value by the given comparator holds of the data. -/
def verdict (f v : String) (data : Fields) (op : Comparator) : Bool :=
  Turn.holds (some (f ++ " " ++ op.symbol ++ " " ++ v)) data

/-- The comparators of order agree on a field that is there, and none of the comparators holds of
one that is missing. -/
theorem isConsistent_verdict (hknown₀ : op₀ ∈ Comparator.all)
    (hread : parse? (f ++ " " ++ op₀.symbol ++ " " ++ v) = some ⟨f, op₀, value⟩) (data : Fields) :
    (¬ IsMissing data f → IsConsistent (verdict f v data)) ∧
      (IsMissing data f → ∀ op ∈ Comparator.all, verdict f v data op = false) := by
  have hdecided (op : Comparator) (hknown : op ∈ Comparator.all) :
      verdict f v data op = holds ⟨f, op, value⟩ data := by
    simp [verdict, Turn.holds, parse?_of_parse? hknown₀ hread hknown]
  cases hthere : Fields.get? data f with
  | none =>
    have hmissing : IsMissing data f := fun held here => by simp [hthere] at here
    refine ⟨fun hpresent => (hpresent hmissing).elim, fun _ op hknown => ?_⟩
    rw [hdecided op hknown, holds_of_get?_eq_none hthere]
  | some held =>
    have hmissing : IsMissing data f ↔
        held.isNull = true ∨ Text.isBlankText held.display = true := by
      simp [IsMissing, hthere]
    have hlooked (op : Comparator) : holds ⟨f, op, value⟩ data = holdsOf ⟨f, op, value⟩ held := by
      simp [holds, Fields.getD, hthere]
    rw [hmissing]
    constructor
    · intro hpresent
      rw [not_or, Bool.not_eq_true, Bool.not_eq_true] at hpresent
      exact (isConsistent_holdsOf f (amount_of_parse? hread) hpresent.1 hpresent.2).congr
        fun op hknown _ => by rw [hdecided op hknown, hlooked]
    · intro habsent op hknown
      rw [hdecided op hknown, hlooked, holdsOf, if_pos (by simpa using habsent)]

/-- `12 lakh` and `10L` are compared as amounts. -/
theorem isConsistent_verdict_lakh :
    parse? ("budget" ++ " " ++ Comparator.ge.symbol ++ " " ++ "10L") =
        some ⟨"budget", .ge, Operand.ofText "10L"⟩ ∧
      ¬ IsMissing [("budget", .str "12 lakh")] "budget" ∧
      IsConsistent (verdict "budget" "10L" [("budget", .str "12 lakh")]) ∧
      IsMissing [] "budget" ∧
      ∀ op ∈ Comparator.all, verdict "budget" "10L" [] op = false := by
  have hknown : Comparator.ge ∈ Comparator.all := by decide
  have hread : parse? ("budget" ++ " " ++ Comparator.ge.symbol ++ " " ++ "10L") =
      some ⟨"budget", .ge, Operand.ofText "10L"⟩ := by decide +kernel
  have hthere : ¬ IsMissing [("budget", .str "12 lakh")] "budget" := by
    intro hmissing
    have hblank := hmissing (.str "12 lakh") rfl
    revert hblank
    decide
  have hmissing : IsMissing [] "budget" := by
    rintro _ ⟨⟩
  exact ⟨hread, hthere, (isConsistent_verdict hknown hread _).1 hthere, hmissing,
    (isConsistent_verdict hknown hread _).2 hmissing⟩

end Condition

end Dialogue

import Dialogue.Proofs.Step.Document
import Dialogue.Proofs.Text.Character
import Mathlib.Data.List.TakeWhile
import Mathlib.Data.Nat.Digits.Defs

/-!
# The grammar of steps

What is a step and what it says are given here as relations on the entries of an object, without
regard to how `Entry.ofValue` goes about it: numerals (`IsNumeral`), targets of branches
(`Aims`), what is given for a field that has an older name (`Given`), and what the entries require
and mean for each kind (`Requires`, `Does`).  `Entry.ofValue` reads exactly what the grammar admits,
as the grammar says, and keeps everything else as it is (`Entry.ofValue_grammar`).
-/

namespace Dialogue

open Schema (Fault Slot)

namespace Step

/-! ## Numerals and targets -/

/-- The characters are one or more decimal digits, and the number is what they stand for in base
ten. -/
def IsNumeral (cs : List Char) (n : Nat) : Prop :=
  ∃ ks : List Nat, ks ≠ [] ∧ cs.map Text.digit? = ks.map some ∧ n = Nat.ofDigits 10 ks.reverse

/-- The characters are the number in decimal digits, behind a minus sign if it is written with
one. -/
inductive IsInteger : List Char → Int → Prop where
  | unsigned {cs : List Char} {n : Nat} (numeral : IsNumeral cs n) : IsInteger cs n
  | minus {cs : List Char} {n : Nat} (numeral : IsNumeral cs n) : IsInteger ('-' :: cs) (-n)

/-- The double is the integer: its numerator is the integer times its denominator. -/
def IsWhole (d : Double) (n : Int) : Prop :=
  d.isFinite = true ∧ (if d.negative then -(d.ratio.1 : Int) else d.ratio.1) = n * d.ratio.2

/-- The value names the step that a branch leads to.  Truth values name none. -/
inductive Aims : Value → Int → Prop where
  | int (n : Int) : Aims (.int n) n
  | double {d : Double} {n : Int} (whole : IsWhole d n) : Aims (.double d) n
  | text {s : String} {n : Int} (written : IsInteger (Text.strip s).toList n) : Aims (.str s) n

theorem mapM_eq_some_iff {cs : List Char} {ks : List Nat} :
    cs.mapM Text.digit? = some ks ↔ cs.map Text.digit? = ks.map some := by
  induction cs generalizing ks with
  | nil => cases ks <;> simp
  | cons c cs ih =>
    cases ks with
    | nil => simp [List.mapM_cons, Option.bind_eq_some_iff]
    | cons k ks => simp [List.mapM_cons, Option.bind_eq_some_iff, ih]

theorem digits?_eq_some_iff {cs : List Char} {n : Nat} :
    Text.digits? cs = some n ↔ IsNumeral cs n := by
  cases cs with
  | nil =>
    constructor
    · intro hread
      cases hread
    · rintro ⟨ks, hnonempty, hdigits, -⟩
      cases ks with
      | nil => exact absurd rfl hnonempty
      | cons k ks => cases hdigits
  | cons c cs =>
    simp only [Text.digits?, Option.map_eq_some_iff, mapM_eq_some_iff, Text.ofDigits_eq, IsNumeral]
    constructor
    · rintro ⟨ks, hdigits, rfl⟩
      have hnonempty : ks ≠ [] := by
        rintro rfl
        cases hdigits
      exact ⟨ks, hnonempty, hdigits, rfl⟩
    · rintro ⟨ks, -, hdigits, rfl⟩
      exact ⟨ks, hdigits, rfl⟩

theorem not_isNumeral_minus {cs : List Char} {n : Nat} : ¬ IsNumeral ('-' :: cs) n := by
  rintro ⟨ks, -, hdigits, -⟩
  have hnone : Text.digit? '-' = none := by decide
  cases ks with
  | nil => cases hdigits
  | cons k ks => simp [hnone] at hdigits

theorem targetOfText?_eq_some_iff {s : String} {n : Int} :
    targetOfText? s = some n ↔ IsInteger (Text.strip s).toList n := by
  rw [Text.strip, String.toList_ofList, targetOfText?]
  generalize Text.stripChars s.toList = cs
  split
  · rename_i ds
    simp only [bind, Option.bind, pure]
    constructor
    · intro hread
      cases hdigits : Text.digits? ds with
      | none => simp [hdigits] at hread
      | some k =>
        simp [hdigits] at hread
        subst hread
        exact .minus (digits?_eq_some_iff.1 hdigits)
    · rintro (hnumeral | hnumeral)
      · exact absurd hnumeral not_isNumeral_minus
      · simp [digits?_eq_some_iff.2 hnumeral]
  · rename_i hunsigned
    constructor
    · intro hread
      cases hdigits : Text.digits? cs with
      | none => simp [hdigits] at hread
      | some k =>
        simp [hdigits] at hread
        subst hread
        exact .unsigned (digits?_eq_some_iff.1 hdigits)
    · intro hwritten
      cases hwritten with
      | unsigned hnumeral => simp [digits?_eq_some_iff.2 hnumeral]
      | minus hnumeral => exact absurd rfl (hunsigned _)

theorem ratio_snd_pos (d : Double) : 0 < d.ratio.2 := by
  unfold Double.ratio
  split
  · exact Nat.one_pos
  · exact Nat.pow_pos (by decide)

theorem quotient_eq_iff {num den : Nat} (hpositive : 0 < den) {n : Int} :
    (num % den = 0 ∧ ((num / den : Nat) : Int) = n) ↔ (num : Int) = n * den := by
  constructor
  · rintro ⟨hwhole, rfl⟩
    exact_mod_cast (Nat.div_mul_cancel (Nat.dvd_of_mod_eq_zero hwhole)).symm
  · intro hproduct
    have hnonnegative : 0 ≤ n := by
      by_contra hnegative
      have hbelow : n * den < 0 := mul_neg_of_neg_of_pos (by omega) (by exact_mod_cast hpositive)
      omega
    obtain ⟨k, rfl⟩ := Int.eq_ofNat_of_zero_le hnonnegative
    have hproduct : num = k * den := by exact_mod_cast hproduct
    simp [hproduct, hpositive]

theorem integer?_eq_some_iff {d : Double} {n : Int} : d.integer? = some n ↔ IsWhole d n := by
  have hpositive := ratio_snd_pos d
  simp only [Double.integer?, IsWhole]
  generalize d.ratio.1 = num at *
  generalize d.ratio.2 = den at *
  cases d.isFinite with
  | false => simp
  | true =>
    cases d.negative with
    | false => simpa using quotient_eq_iff hpositive
    | true =>
      have hmirrored : -(num : Int) = n * den ↔ (num : Int) = -n * den := by
        constructor <;> intro hproduct <;> linarith
      simp only [if_true, hmirrored, ← quotient_eq_iff hpositive]
      simp [neg_eq_iff_eq_neg]

theorem targetOfValue_eq_some_iff {v : Value} {n : Int} :
    targetOfValue v = some n ↔ Aims v n := by
  constructor
  · intro hread
    cases v with
    | int m =>
      cases hread
      exact .int n
    | double d => exact .double (integer?_eq_some_iff.1 hread)
    | str s => exact .text (targetOfText?_eq_some_iff.1 hread)
    | _ => cases hread
  · intro haims
    cases haims with
    | int => rfl
    | double hwhole => exact integer?_eq_some_iff.2 hwhole
    | text hwritten => exact targetOfText?_eq_some_iff.2 hwritten

/-! ## What the entries of a step say -/

/-- The value is what is given for a field: it stands under the name of the field, or else under
its older name, or else it is null. -/
inductive Given (fields : Fields) (slot : Slot) : Value → Prop where
  | named {v : Value} (there : Fields.get? fields slot.name = some v) : Given fields slot v
  | older {v : Value} (absent : Fields.get? fields slot.name = none)
      (there : Fields.get? fields slot.older = some v) : Given fields slot v
  | absent (newer : Fields.get? fields slot.name = none)
      (older : Fields.get? fields slot.older = none) : Given fields slot .null

/-- The expression that a value gives: none by null, itself by a text, and what it is displayed as
by anything else. -/
inductive Expresses : Value → Option String → Prop where
  | null : Expresses .null none
  | text (s : String) : Expresses (.str s) (some s)
  | other {v : Value} (given : v ≠ .null) (noText : ∀ s, v ≠ .str s) :
      Expresses v (some v.display)

/-- The entry is a text. -/
def IsText (fields : Fields) (key : String) (s : String) : Prop :=
  Fields.get? fields key = some (.str s)

/-- The entry is a text, or there is none and the default holds. -/
inductive IsTextOr (fields : Fields) (key : String) (default : String) : String → Prop where
  | text {s : String} (there : IsText fields key s) : IsTextOr fields key default s
  | absent (absent : Fields.get? fields key = none) : IsTextOr fields key default default

/-- The entry is a text, or there is none, or it is null. -/
inductive IsNote (fields : Fields) (key : String) : Option String → Prop where
  | text {s : String} (there : IsText fields key s) : IsNote fields key (some s)
  | null (there : Fields.get? fields key = some .null) : IsNote fields key none
  | absent (absent : Fields.get? fields key = none) : IsNote fields key none

/-- The text holds something that is not white space. -/
def IsWorded (s : String) : Prop := ∃ c ∈ s.toList, Text.isBlank c = false

/-- What the entries of a step of each kind must be for it to be one. -/
def Requires (fields : Fields) : Kind → Prop
  | .reply => ∃ text, IsText fields "text" text
  | .question =>
    (∃ text, IsText fields "text" text) ∧ ∃ field, IsText fields "field" field ∧ IsWorded field
  | .condition => True
  | .handoff =>
    (∃ reason, IsTextOr fields "reason" "handoff" reason) ∧ ∃ text, IsNote fields "text" text
  | .finish => ∃ text, IsNote fields "text" text

/-- The target of a branch: the step that its value aims at, and none if it aims at none. -/
def IsTarget (fields : Fields) (slot : Slot) (target : Option Int) : Prop :=
  ∃ v, Given fields slot v ∧ ∀ n, target = some n ↔ Aims v n

/-- What the entries of a step say that it does. -/
inductive Does (fields : Fields) : Action → Prop where
  | reply {text : String} (said : IsText fields "text" text) : Does fields (.reply text)
  | question {field text : String} (asked : IsText fields "field" field) (worded : IsWorded field)
      (said : IsText fields "text" text) : Does fields (.question (Text.strip field) text)
  | condition {v : Value} {expr : Option String} {thenTarget elseTarget : Option Int}
      (given : Given fields ⟨"if", "expr"⟩ v) (asked : Expresses v expr)
      (first : IsTarget fields ⟨"thenStepIndex", "then_step_index"⟩ thenTarget)
      (second : IsTarget fields ⟨"elseStepIndex", "else_step_index"⟩ elseTarget) :
      Does fields (.condition expr thenTarget elseTarget)
  | handoff {reason : String} {text : Option String}
      (because : IsTextOr fields "reason" "handoff" reason) (said : IsNote fields "text" text) :
      Does fields (.handoff reason text)
  | finish {text : Option String} (said : IsNote fields "text" text) :
      Does fields (.finish text)

/-- The value is an object that the grammar admits as a step. -/
def InGrammar (v : Value) : Prop :=
  ∃ (fields : Fields) (kind : Kind), v = .dict fields ∧ IsText fields "type" kind.tag ∧
    (∃ id, IsTextOr fields "id" freshId id) ∧ Requires fields kind

/-- The step is what the grammar says that the value means. -/
def Means (v : Value) (s : Step) : Prop :=
  ∃ fields, v = .dict fields ∧ IsText fields "type" s.kind.tag ∧
    IsTextOr fields "id" freshId s.id ∧ Does fields s.action ∧
    s.extras = Schema.extras (slots s.kind) fields

/-! ## The readers follow the grammar -/

variable {fields : Fields}

theorem given_iff {slot : Slot} {v : Value} : Given fields slot v ↔ slotValue fields slot = v := by
  unfold slotValue Slot.find?
  constructor
  · rintro (hthere | ⟨habsent, hthere⟩ | ⟨hnewer, holder⟩)
    · simp [hthere]
    · simp [habsent, hthere]
    · simp [hnewer, holder]
  · rintro rfl
    cases hnewer : Fields.get? fields slot.name with
    | some v => exact .named hnewer
    | none =>
      cases holder : Fields.get? fields slot.older with
      | some v => exact .older hnewer holder
      | none => exact .absent hnewer holder

theorem expresses_iff {v : Value} {expr : Option String} :
    Expresses v expr ↔ exprOfValue v = expr := by
  constructor
  · rintro (_ | _ | ⟨hgiven, hnoText⟩)
    · rfl
    · rfl
    · cases v <;> first | rfl | exact absurd rfl hgiven
  · rintro rfl
    cases v with
    | null => exact .null
    | str s => exact .text s
    | _ => exact .other nofun nofun

theorem isTarget_iff {slot : Slot} {target : Option Int} :
    IsTarget fields slot target ↔ targetOfValue (slotValue fields slot) = target := by
  constructor
  · rintro ⟨v, hgiven, haims⟩
    rw [given_iff.1 hgiven]
    exact Option.ext fun n => targetOfValue_eq_some_iff.trans (haims n).symm
  · rintro rfl
    exact ⟨_, given_iff.2 rfl, fun n => targetOfValue_eq_some_iff⟩

theorem needText_eq_ok_iff {key s : String} :
    needText fields key = .ok s ↔ IsText fields key s := by
  unfold needText IsText
  cases Fields.get? fields key with
  | none => simp
  | some v => cases v <;> simp [Schema.readText]

theorem mayText_eq_ok_iff {key : String} {s : Option String} :
    mayText fields key = .ok s ↔ IsNote fields key s := by
  unfold mayText
  constructor
  · intro hread
    split at hread
    · rename_i v hthere
      cases v with
      | null =>
        cases hread
        exact .null hthere
      | str s =>
        cases hread
        exact .text hthere
      | _ => cases hread
    · rename_i habsent
      cases hread
      exact .absent habsent
  · rintro (hthere | hthere | habsent)
    · rw [hthere]
      rfl
    · rw [hthere]
      rfl
    · rw [habsent]

/-- A text with a default, as `readId` and the reason of a handoff are read. -/
theorem textOr_eq_ok_iff {key default s : String} :
    (match Fields.get? fields key with
      | some v => Schema.readText v
      | none => .ok default) = .ok s ↔ IsTextOr fields key default s := by
  constructor
  · intro hread
    split at hread
    · rename_i v hthere
      cases v with
      | str s =>
        cases hread
        exact .text hthere
      | _ => cases hread
    · rename_i habsent
      cases hread
      exact .absent habsent
  · rintro (hthere | habsent)
    · rw [hthere]
      rfl
    · rw [habsent]

theorem ofTag?_eq_some_iff {tag : String} {kind : Kind} :
    Kind.ofTag? tag = some kind ↔ tag = kind.tag := by
  constructor
  · intro hfound
    have hnamed := List.find?_some hfound
    exact (beq_iff_eq.1 hnamed).symm
  · rintro rfl
    exact Kind.ofTag?_tag kind

theorem readKind_eq_ok_iff {kind : Kind} :
    readKind fields = .ok kind ↔ IsText fields "type" kind.tag := by
  unfold readKind IsText
  cases Fields.get? fields "type" with
  | none => simp
  | some v =>
    cases v with
    | str tag =>
      simp only [Value.text?, Option.bind_some, Option.some.injEq, Value.str.injEq,
        ← ofTag?_eq_some_iff]
      cases Kind.ofTag? tag <;> simp
    | _ => simp [Value.text?]

theorem isEmpty_strip_iff (s : String) : (Text.strip s).isEmpty = true ↔ ¬ IsWorded s := by
  have hdropped : ∀ cs : List Char, Text.stripChars cs = [] ↔ ∀ c ∈ cs, Text.isBlank c = true := by
    intro cs
    simp only [Text.stripChars, Text.trimChars, Text.dropEndWhile, List.reverse_eq_nil_iff,
      List.dropWhile_eq_nil_iff, List.mem_reverse]
    constructor
    · intro hrest
      have hnone : cs.dropWhile Text.isBlank = [] := by
        cases hkept : cs.dropWhile Text.isBlank with
        | nil => rfl
        | cons c more =>
          have houtside := List.head?_dropWhile_not Text.isBlank cs
          simp only [hkept, List.head?_cons] at houtside
          exact absurd (hrest c (by simp [hkept])) (by simp [houtside])
      exact List.dropWhile_eq_nil_iff.1 hnone
    · exact fun hblank c hkept => hblank c (List.IsSuffix.subset (List.dropWhile_suffix _) hkept)
  rw [String.isEmpty_iff, Text.strip, ← String.toList_eq_nil_iff, String.toList_ofList, hdropped]
  simp [IsWorded]

theorem bind_eq_ok_iff {ε α β : Type} {x : Except ε α} {f : α → Except ε β} {b : β} :
    x >>= f = .ok b ↔ ∃ a, x = .ok a ∧ f a = .ok b := by
  cases x <;> simp [bind, Except.bind]

theorem readField_eq_ok_iff {name : String} :
    readField fields = .ok name ↔
      ∃ field, IsText fields "field" field ∧ IsWorded field ∧ Text.strip field = name := by
  simp only [readField, bind_eq_ok_iff, needText_eq_ok_iff]
  refine exists_congr fun field => and_congr_right fun _ => ?_
  by_cases hworded : IsWorded field
  · have hsome : (Text.strip field).isEmpty = false :=
      Bool.eq_false_iff.2 fun hempty => (isEmpty_strip_iff field).1 hempty hworded
    simp [hsome, hworded, pure, Except.pure]
  · simp [(isEmpty_strip_iff field).2 hworded, hworded]

/-- The reason of a handoff is read before its text. -/
theorem readAction_handoff (fields : Fields) :
    readAction fields .handoff =
      (match Fields.get? fields "reason" with
        | some v => Schema.readText v
        | none => .ok "handoff") >>= fun reason =>
          mayText fields "text" >>= fun text => pure (.handoff reason text) := by
  unfold readAction
  cases Fields.get? fields "reason" <;> rfl

theorem readAction_eq_ok_iff {kind : Kind} {action : Action} :
    readAction fields kind = .ok action ↔ action.kind = kind ∧ Does fields action := by
  constructor
  · intro hread
    refine ⟨kind_of_readAction hread, ?_⟩
    cases kind with
    | reply =>
      obtain ⟨text, hsaid, hdone⟩ := bind_eq_ok_iff.1 hread
      cases hdone
      exact .reply (needText_eq_ok_iff.1 hsaid)
    | question =>
      obtain ⟨name, hasked, hrest⟩ := bind_eq_ok_iff.1 hread
      obtain ⟨text, hsaid, hdone⟩ := bind_eq_ok_iff.1 hrest
      cases hdone
      obtain ⟨field, hthere, hworded, rfl⟩ := readField_eq_ok_iff.1 hasked
      exact .question hthere hworded (needText_eq_ok_iff.1 hsaid)
    | condition =>
      cases hread
      exact .condition (given_iff.2 rfl) (expresses_iff.2 rfl) (isTarget_iff.2 rfl)
        (isTarget_iff.2 rfl)
    | handoff =>
      rw [readAction_handoff] at hread
      obtain ⟨reason, hbecause, hrest⟩ := bind_eq_ok_iff.1 hread
      obtain ⟨text, hsaid, hdone⟩ := bind_eq_ok_iff.1 hrest
      cases hdone
      exact .handoff (textOr_eq_ok_iff.1 hbecause) (mayText_eq_ok_iff.1 hsaid)
    | finish =>
      obtain ⟨text, hsaid, hdone⟩ := bind_eq_ok_iff.1 hread
      cases hdone
      exact .finish (mayText_eq_ok_iff.1 hsaid)
  · rintro ⟨rfl, hdoes⟩
    cases hdoes with
    | reply hsaid => exact bind_eq_ok_iff.2 ⟨_, needText_eq_ok_iff.2 hsaid, rfl⟩
    | question hasked hworded hsaid =>
      exact bind_eq_ok_iff.2 ⟨_, readField_eq_ok_iff.2 ⟨_, hasked, hworded, rfl⟩,
        bind_eq_ok_iff.2 ⟨_, needText_eq_ok_iff.2 hsaid, rfl⟩⟩
    | condition hgiven hasked hfirst hsecond =>
      obtain rfl := given_iff.1 hgiven
      obtain rfl := expresses_iff.1 hasked
      obtain rfl := isTarget_iff.1 hfirst
      obtain rfl := isTarget_iff.1 hsecond
      rfl
    | handoff hbecause hsaid =>
      refine (readAction_handoff fields).trans ?_
      exact bind_eq_ok_iff.2 ⟨_, textOr_eq_ok_iff.2 hbecause,
        bind_eq_ok_iff.2 ⟨_, mayText_eq_ok_iff.2 hsaid, rfl⟩⟩
    | finish hsaid => exact bind_eq_ok_iff.2 ⟨_, mayText_eq_ok_iff.2 hsaid, rfl⟩

theorem ofValue?_eq_ok_iff {v : Value} {s : Step} : ofValue? v = .ok s ↔ Means v s := by
  constructor
  · intro hread
    obtain ⟨fields, rfl, hkind', hid', haction', hextras⟩ := exists_of_ofValue? hread
    exact ⟨fields, rfl, readKind_eq_ok_iff.1 hkind', textOr_eq_ok_iff.1 hid',
      (readAction_eq_ok_iff.1 haction').2, hextras⟩
  · rintro ⟨fields, rfl, hkind', hid', haction', hextras⟩
    have hkind : readKind fields = .ok s.kind := readKind_eq_ok_iff.2 hkind'
    have hid : readId fields = .ok s.id := textOr_eq_ok_iff.2 hid'
    have haction : readAction fields s.kind = .ok s.action := readAction_eq_ok_iff.2 ⟨rfl, haction'⟩
    simp [ofValue?, hkind, hid, haction, ← hextras, bind, Except.bind, pure, Except.pure]

theorem requires_iff {kind : Kind} :
    Requires fields kind ↔ ∃ action : Action, action.kind = kind ∧ Does fields action := by
  constructor
  · intro hrequired
    cases kind with
    | reply =>
      obtain ⟨text, hsaid⟩ := hrequired
      exact ⟨_, rfl, .reply hsaid⟩
    | question =>
      obtain ⟨⟨text, hsaid⟩, field, hasked, hworded⟩ := hrequired
      exact ⟨_, rfl, .question hasked hworded hsaid⟩
    | condition =>
      exact ⟨_, rfl, .condition (given_iff.2 rfl) (expresses_iff.2 rfl) (isTarget_iff.2 rfl)
        (isTarget_iff.2 rfl)⟩
    | handoff =>
      obtain ⟨⟨reason, hbecause⟩, text, hsaid⟩ := hrequired
      exact ⟨_, rfl, .handoff hbecause hsaid⟩
    | finish =>
      obtain ⟨text, hsaid⟩ := hrequired
      exact ⟨_, rfl, .finish hsaid⟩
  · rintro ⟨action, rfl, hdoes⟩
    cases hdoes with
    | reply hsaid => exact ⟨_, hsaid⟩
    | question hasked hworded hsaid => exact ⟨⟨_, hsaid⟩, _, hasked, hworded⟩
    | condition => trivial
    | handoff hbecause hsaid => exact ⟨⟨_, hbecause⟩, _, hsaid⟩
    | finish hsaid => exact ⟨_, hsaid⟩

theorem inGrammar_iff {v : Value} : InGrammar v ↔ ∃ s, Means v s := by
  constructor
  · rintro ⟨fields, kind, rfl, htagged, ⟨id, hidentified⟩, hrequired⟩
    obtain ⟨action, rfl, hdoes⟩ := requires_iff.1 hrequired
    exact ⟨⟨id, action, Schema.extras (slots action.kind) fields⟩, fields, rfl, htagged,
      hidentified, hdoes, rfl⟩
  · rintro ⟨s, fields, rfl, htagged, hidentified, hdoes, -⟩
    exact ⟨fields, s.kind, rfl, htagged, ⟨s.id, hidentified⟩, requires_iff.2 ⟨s.action, rfl, hdoes⟩⟩

end Step

namespace Entry

open Step (InGrammar Means)

theorem raw_of_ofValue {v raw : Value} {reason : String}
    (hread : ofValue v = .malformed raw reason) :
    raw = v := by
  unfold ofValue at hread
  split at hread
  · cases hread
  · exact (Entry.malformed.inj hread).1.symm

/-- The steps among the values are those that the grammar admits, and each is read as the grammar
says.  Whatever else there is, is kept as it is and written back with null for every number that is
not finite. -/
theorem ofValue_grammar (raw : Value) :
    ((∃ s, ofValue raw = .step s) ↔ InGrammar raw) ∧
      (∀ s, ofValue raw = .step s ↔ Means raw s) ∧
      (¬ InGrammar raw → ∃ reason, ofValue raw = .malformed raw reason ∧
        (ofValue raw).storedDocument = raw.plain) := by
  have hreads : ∀ s, ofValue raw = .step s ↔ Means raw s := by
    intro s
    rw [← Step.ofValue?_eq_ok_iff, ofValue]
    cases Step.ofValue? raw <;> simp
  refine ⟨?_, hreads, fun houtside => ?_⟩
  · rw [Step.inGrammar_iff]
    exact exists_congr hreads
  · cases hread : ofValue raw with
    | step s => exact absurd (Step.inGrammar_iff.2 ⟨s, (hreads s).1 hread⟩) houtside
    | malformed raw' reason =>
      obtain rfl : raw' = raw := raw_of_ofValue hread
      exact ⟨reason, rfl, rfl⟩

end Entry

end Dialogue

import Dialogue.Json.Reader
import Dialogue.Proofs.Double.Decimal
import Dialogue.Proofs.Json.Number
import Dialogue.Proofs.Json.Text
import Dialogue.Proofs.Run
import Dialogue.Proofs.Value.Document

/-!
# JSON read again

`Json.pretty` writes a document with one item or entry per line, and `Json.read` makes the same
value of the text, if the value is one that text is read as (`read_pretty_of_isJson`); a plain
document is (`read_pretty`).

The reader is bounded by a number of steps.  A value takes at most as many as its text has
characters (`steps_le_length`), so the bound that `Json.read` sets is never met.  The proof goes
along the value: `value_prettyAt`, `items_pretty` and `entries_pretty` say what the three functions
of the reader find at the start of a longer text.

Whatever text `Json.read` accepts, the value it makes of it has the shape of JSON: a key that is
repeated counts once, and there is one NaN only (`isJson_of_read`).  The three functions of the
reader call each other with fewer steps to go, so what they make is followed by one induction on the
steps.
-/

namespace Dialogue.Json

open Keyed (keys)

/-! ## The steps of the reader -/

mutual
/-- The steps that reading a value takes at most. -/
def steps : Value → Nat
  | .list items => stepsList items + 1
  | .dict fields => stepsFields fields + 1
  | _ => 0

/-- The steps of items. -/
def stepsList : List Value → Nat
  | [] => 0
  | v :: rest => steps v + stepsList rest + 1

/-- The steps of entries. -/
def stepsFields : List (String × Value) → Nat
  | [] => 0
  | (_, v) :: rest => steps v + stepsFields rest + 1
end

theorem toList_bracketed (left right : String) (level : Nat) (line : String)
    (lines : List String) :
    (bracketed left right level (line :: lines)).toList =
      left.toList ++ ((newline (level + 1)).toList ++
        ((String.intercalate ("," ++ newline (level + 1)) (line :: lines)).toList ++
          ((newline level).toList ++ right.toList))) := by
  simp [bracketed, List.append_assoc]

theorem bracketed_nil (left right : String) (level : Nat) :
    bracketed left right level [] = left ++ right := rfl

theorem toList_intercalate_cons_cons (sep x y : String) (ys : List String) :
    (sep.intercalate (x :: y :: ys)).toList =
      x.toList ++ (sep.toList ++ (sep.intercalate (y :: ys)).toList) := by
  rw [String.intercalate_cons_cons, String.toList_append, String.toList_append, List.append_assoc]

mutual
/-- A value takes no more steps than its text has characters. -/
theorem steps_le_length (v : Value) (level : Nat) :
    steps v ≤ (prettyAt escapeChar level v).toList.length := by
  cases v with
  | list items =>
    have hinner := stepsList_le_length items (level + 1)
    rw [steps, prettyAt]
    cases items with
    | nil => simp [stepsList, prettyItems, bracketed_nil]
    | cons v rest =>
      rw [prettyItems] at hinner ⊢
      rw [toList_bracketed]
      simp only [List.length_append] at hinner ⊢
      have hleft : ("[" : String).toList.length = 1 := rfl
      have hright : ("]" : String).toList.length = 1 := rfl
      omega
  | dict fields =>
    have hinner := stepsFields_le_length fields (level + 1)
    rw [steps, prettyAt]
    cases fields with
    | nil => simp [stepsFields, prettyFields, bracketed_nil]
    | cons e rest =>
      rw [prettyFields] at hinner ⊢
      rw [toList_bracketed]
      simp only [List.length_append] at hinner ⊢
      have hleft : ("\x7b" : String).toList.length = 1 := rfl
      have hright : ("\x7d" : String).toList.length = 1 := rfl
      omega
  | _ => exact Nat.zero_le _

theorem stepsList_le_length (items : List Value) (level : Nat) :
    stepsList items ≤
      (String.intercalate ("," ++ newline level)
        (prettyItems escapeChar level items)).toList.length + 1 := by
  cases items with
  | nil => exact Nat.zero_le _
  | cons v rest =>
    have hfirst := steps_le_length v level
    have hothers := stepsList_le_length rest level
    rw [stepsList, prettyItems]
    cases rest with
    | nil =>
      simp only [stepsList, prettyItems, String.intercalate_singleton]
      omega
    | cons w rest =>
      rw [prettyItems] at hothers ⊢
      rw [toList_intercalate_cons_cons]
      simp only [List.length_append, String.toList_append] at hothers ⊢
      have hcomma : ("," : String).toList.length = 1 := rfl
      omega

theorem stepsFields_le_length (fields : List (String × Value)) (level : Nat) :
    stepsFields fields ≤
      (String.intercalate ("," ++ newline level)
        (prettyFields escapeChar level fields)).toList.length + 1 := by
  cases fields with
  | nil => exact Nat.zero_le _
  | cons e rest =>
    obtain ⟨k, v⟩ := e
    have hfirst := steps_le_length v level
    have hothers := stepsFields_le_length rest level
    rw [stepsFields, prettyFields]
    cases rest with
    | nil =>
      simp only [stepsFields, prettyFields, String.intercalate_singleton, String.toList_append,
        List.length_append]
      omega
    | cons e rest =>
      rw [prettyFields] at hothers ⊢
      rw [toList_intercalate_cons_cons]
      simp only [List.length_append, String.toList_append] at hothers ⊢
      have hcomma : ("," : String).toList.length = 1 := rfl
      omega
end

/-! ## White space -/

theorem skip_newline (level : Nat) (rest : List Char) :
    skip ((newline level).toList ++ rest) = skip rest := by
  have hspaces : ∀ n, skip (List.replicate n ' ' ++ rest) = skip rest := by
    intro n
    induction n with
    | zero => rfl
    | succ n ih =>
      rw [List.replicate_succ, List.cons_append, ← ih]
      rfl
  rw [newline, String.toList_ofList, List.cons_append, ← hspaces (2 * level)]
  rfl

theorem skip_eq_self {cs : List Char} (h : ∀ c, cs.head? = some c → isSpace c = false) :
    skip cs = cs := by
  cases cs with
  | nil => rfl
  | cons c rest => simp [skip, h c rfl]

theorem skip_of_value {fuel : Nat} {cs : List Char} {r : Value × List Char}
    (hread : value fuel cs = .ok r) : skip cs = cs := by
  refine skip_eq_self fun c hc => ?_
  cases cs with
  | nil => simp at hc
  | cons d rest =>
    cases hc
    refine Bool.eq_false_iff.2 fun hspace => ?_
    simp only [isSpace, Bool.or_eq_true, decide_eq_true_eq] at hspace
    have hnothing : atom? (c :: rest) = none := by
      rcases hspace with ((rfl | rfl) | rfl) | rfl <;> simp [atom?, unsigned?, Text.isAsciiDigit]
    cases fuel with
    | zero => simp [value, failAt] at hread
    | succ fuel =>
      rcases hspace with ((rfl | rfl) | rfl) | rfl <;> simp [value, hnothing, failAt] at hread

theorem skip_of_items {fuel : Nat} {cs : List Char} {r : List Value × List Char}
    (hread : items fuel cs = .ok r) : skip cs = cs := by
  cases fuel with
  | zero => simp [items, failAt] at hread
  | succ fuel =>
    rw [items] at hread
    cases h : value fuel cs with
    | ok first => exact skip_of_value h
    | error e =>
      rw [h] at hread
      cases hread

theorem skip_of_entries {fuel : Nat} {cs : List Char} {r : List (String × Value) × List Char}
    (hread : entries fuel cs = .ok r) : skip cs = cs := by
  refine skip_eq_self fun c hc => ?_
  cases cs with
  | nil => simp at hc
  | cons d rest =>
    cases hc
    refine Bool.eq_false_iff.2 fun hspace => ?_
    simp only [isSpace, Bool.or_eq_true, decide_eq_true_eq] at hspace
    cases fuel with
    | zero => simp [entries, failAt] at hread
    | succ fuel => rcases hspace with ((rfl | rfl) | rfl) | rfl <;> simp [entries, failAt] at hread

/-! ## Brackets, commas and line breaks -/

theorem ends_nil : Ends [] := by
  intro c hc
  simp at hc

theorem ends_newline (level : Nat) (rest : List Char) : Ends ((newline level).toList ++ rest) := by
  intro c hc
  rw [newline, String.toList_ofList] at hc
  exact .inr (by simpa using hc.symm)

theorem ends_comma (level : Nat) (rest : List Char) :
    Ends ((("," : String) ++ newline level).toList ++ rest) := by
  intro c hc
  exact .inl (by simpa using hc.symm)

variable {fuel level : Nat} {v : Value} {vs : List Value} {es : List (String × Value)}
  {text more rest : List Char}

theorem not_closing_of_value {r : Value × List Char} (hread : value fuel (']' :: rest) = .ok r) :
    False := by
  have hnothing : atom? (']' :: rest) = none := by simp [atom?, unsigned?, Text.isAsciiDigit]
  cases fuel with
  | zero => simp [value, failAt] at hread
  | succ fuel => simp [value, hnothing, failAt] at hread

theorem items_last (hread : value fuel text = .ok (v, (newline level).toList ++ ']' :: rest)) :
    items (fuel + 1) text = .ok ([v], rest) := by
  have hclosing : skip ((newline level).toList ++ ']' :: rest) = ']' :: rest := by
    rw [skip_newline]
    rfl
  rw [items, hread]
  simp only [bind, Except.bind, hclosing]
  rfl

theorem items_more
    (hread : value fuel text = .ok (v, (("," : String) ++ newline level).toList ++ more))
    (hothers : items fuel more = .ok (vs, rest)) :
    items (fuel + 1) text = .ok (v :: vs, rest) := by
  have hcomma : skip ((("," : String) ++ newline level).toList ++ more) =
      ',' :: ((newline level).toList ++ more) := by
    simp [skip, isSpace]
  have hnext : skip ((newline level).toList ++ more) = more := by
    rw [skip_newline, skip_of_items hothers]
  rw [items, hread]
  simp only [bind, Except.bind, hcomma, hnext, hothers]
  rfl

/-- The text of an entry up to its value. -/
def entryText (k : String) : List Char := (stringWith escapeChar k ++ ": ").toList

/-- The key and the colon of an entry are read before its value. -/
theorem entries_key (k : String) (value' : List Char)
    (hread : value fuel value' = .ok (v, more)) :
    entries (fuel + 1) (entryText k ++ value') =
      match skip more with
      | '\x7d' :: left => .ok ([(k, v)], left)
      | ',' :: left => do
        let (es, left) ← entries fuel (skip left)
        return ((k, v) :: es, left)
      | left => failAt .comma left := by
  have hkey := stringBody_flatMap
    ('"' :: (k.toList.flatMap escapeChar ++ '"' :: ':' :: ' ' :: value')).length k.toList
    (':' :: ' ' :: value')
  have hcolon : skip (':' :: ' ' :: value') = ':' :: ' ' :: value' := rfl
  have hblank : skip (' ' :: value') = value' := skip_of_value hread
  have htext : entryText k ++ value' =
      '"' :: (k.toList.flatMap escapeChar ++ '"' :: ':' :: ' ' :: value') := by
    simp [entryText, toList_stringWith]
  rw [htext, entries]
  simp only [bind, Except.bind, hkey, hcolon, hblank, hread, String.ofList_toList]
  rfl

theorem entries_last (k : String)
    (hread : value fuel text = .ok (v, (newline level).toList ++ '\x7d' :: rest)) :
    entries (fuel + 1) (entryText k ++ text) = .ok ([(k, v)], rest) := by
  have hclosing : skip ((newline level).toList ++ '\x7d' :: rest) = '\x7d' :: rest := by
    rw [skip_newline]
    rfl
  rw [entries_key k text hread]
  simp only [hclosing]

theorem entries_more (k : String)
    (hread : value fuel text = .ok (v, (("," : String) ++ newline level).toList ++ more))
    (hothers : entries fuel more = .ok (es, rest)) :
    entries (fuel + 1) (entryText k ++ text) = .ok ((k, v) :: es, rest) := by
  have hcomma : skip ((("," : String) ++ newline level).toList ++ more) =
      ',' :: ((newline level).toList ++ more) := by
    simp [skip, isSpace]
  have hnext : skip ((newline level).toList ++ more) = more := by
    rw [skip_newline, skip_of_entries hothers]
  rw [entries_key k text hread]
  simp only [hcomma, hnext, hothers]
  rfl

theorem value_list (level : Nat) (hread : items fuel text = .ok (vs, rest)) :
    value (fuel + 1) ('[' :: ((newline level).toList ++ text)) = .ok (.list vs, rest) := by
  have hbody : skip ((newline level).toList ++ text) = text := by
    rw [skip_newline, skip_of_items hread]
  rw [value]
  simp only [hbody]
  split
  · rename_i left
    cases fuel with
    | zero => simp [items, failAt] at hread
    | succ fuel =>
      rw [items] at hread
      cases hfirst : value fuel (']' :: left) with
      | ok r => exact (not_closing_of_value hfirst).elim
      | error e =>
        rw [hfirst] at hread
        cases hread
  · rw [hread]
    rfl

theorem value_dict (level : Nat) (hread : entries fuel text = .ok (es, rest))
    (hnodup : (keys es).Nodup) :
    value (fuel + 1) ('\x7b' :: ((newline level).toList ++ text)) = .ok (.dict es, rest) := by
  have hbody : skip ((newline level).toList ++ text) = text := by
    rw [skip_newline, skip_of_entries hread]
  rw [value]
  simp only [hbody]
  split
  · cases fuel with
    | zero => simp [entries, failAt] at hread
    | succ fuel => simp [entries, failAt] at hread
  · rw [hread]
    simp only [bind, Except.bind, Keyed.ofEntries_eq_self hnodup]
    rfl

/-! ## Values -/

theorem value_atom {r : Value × List Char} (hread : atom? text = some r) :
    value (fuel + 1) text = .ok r := by
  rw [value.eq_def]
  simp only
  split
  · simp [atom?, unsigned?, Text.isAsciiDigit] at hread
  · simp [atom?, unsigned?, Text.isAsciiDigit] at hread
  · simp [atom?, unsigned?, Text.isAsciiDigit] at hread
  · rw [hread]

theorem value_string (s : String) (rest : List Char) :
    value (fuel + 1) ((stringWith escapeChar s).toList ++ rest) = .ok (.str s, rest) := by
  have hbody := stringBody_flatMap ('"' :: (s.toList.flatMap escapeChar ++ '"' :: rest)).length
    s.toList rest
  have htext : (stringWith escapeChar s).toList ++ rest =
      '"' :: (s.toList.flatMap escapeChar ++ '"' :: rest) := by
    simp [toList_stringWith]
  rw [htext, value]
  simp only [bind, Except.bind, hbody, String.ofList_toList]
  rfl

mutual
/-- A value is read at the start of a longer text. -/
theorem value_prettyAt (v : Value) (hjson : v.IsJson) (level : Nat) {fuel : Nat}
    (henough : steps v < fuel) {rest : List Char} (hends : Ends rest) :
    value fuel ((prettyAt escapeChar level v).toList ++ rest) = .ok (v, rest) := by
  obtain ⟨fuel, rfl⟩ := Nat.exists_eq_add_one_of_ne_zero (Nat.ne_zero_of_lt henough)
  cases v with
  | null => exact value_atom (by simp [prettyAt, atom?])
  | bool b => exact value_atom (by cases b <;> simp [prettyAt, atom?])
  | int n => exact value_atom (atom?_int n hends)
  | double d => exact value_atom (atom?_number_of_isNaN hjson hends)
  | str s => exact value_string s rest
  | moment m => exact hjson.elim
  | table entries => exact hjson.elim
  | list items =>
    have hread := items_pretty items (Value.isJson_list_iff.1 hjson) (level + 1) level
      (Nat.lt_of_succ_lt_succ henough) rest
    cases items with
    | nil => simp [prettyAt, prettyItems, bracketed_nil, value, skip, isSpace]
    | cons v vs =>
      have hlist := value_list (level + 1) (hread (List.cons_ne_nil v vs))
      rw [prettyItems] at hlist
      rw [prettyAt, prettyItems, toList_bracketed]
      simpa using hlist
  | dict fields =>
    obtain ⟨hnodup, hall⟩ := Value.isJson_dict_iff.1 hjson
    have hread := entries_pretty fields hall (level + 1) level (Nat.lt_of_succ_lt_succ henough) rest
    cases fields with
    | nil => simp [prettyAt, prettyFields, bracketed_nil, value, skip, isSpace]
    | cons e es =>
      have hdict := value_dict (level + 1) (hread (List.cons_ne_nil e es)) hnodup
      rw [prettyFields] at hdict
      rw [prettyAt, prettyFields, toList_bracketed]
      simpa using hdict

/-- Items are read up to the closing bracket. -/
theorem items_pretty (vs : List Value) (hall : ∀ w ∈ vs, w.IsJson)
    (level closing : Nat) {fuel : Nat} (henough : stepsList vs < fuel) (rest : List Char)
    (hnonempty : vs ≠ []) :
    items fuel ((String.intercalate ("," ++ newline level)
      (prettyItems escapeChar level vs)).toList ++
      ((newline closing).toList ++ ']' :: rest)) = .ok (vs, rest) := by
  obtain ⟨fuel, rfl⟩ := Nat.exists_eq_add_one_of_ne_zero (Nat.ne_zero_of_lt henough)
  cases vs with
  | nil => exact absurd rfl hnonempty
  | cons v vs =>
    rw [stepsList] at henough
    have hjson := hall v List.mem_cons_self
    have hothers := items_pretty vs (fun x hx => hall x (List.mem_cons_of_mem v hx)) level closing
      (show stepsList vs < fuel by omega) rest
    have hfirst {rest : List Char} (hends : Ends rest) :=
      value_prettyAt v hjson level (show steps v < fuel by omega) hends
    cases vs with
    | nil =>
      rw [prettyItems, prettyItems, String.intercalate_singleton]
      exact items_last (hfirst (ends_newline _ _))
    | cons w vs =>
      rw [prettyItems, prettyItems, toList_intercalate_cons_cons, List.append_assoc,
        List.append_assoc]
      exact items_more (hfirst (ends_comma _ _)) (hothers (List.cons_ne_nil w vs))

/-- Entries are read up to the closing brace. -/
theorem entries_pretty (es : List (String × Value)) (hall : ∀ e ∈ es, e.2.IsJson)
    (level closing : Nat) {fuel : Nat} (henough : stepsFields es < fuel) (rest : List Char)
    (hnonempty : es ≠ []) :
    entries fuel ((String.intercalate ("," ++ newline level)
      (prettyFields escapeChar level es)).toList ++
      ((newline closing).toList ++ '\x7d' :: rest)) = .ok (es, rest) := by
  obtain ⟨fuel, rfl⟩ := Nat.exists_eq_add_one_of_ne_zero (Nat.ne_zero_of_lt henough)
  cases es with
  | nil => exact absurd rfl hnonempty
  | cons e es =>
    obtain ⟨k, v⟩ := e
    rw [stepsFields] at henough
    have hjson : v.IsJson := hall (k, v) List.mem_cons_self
    have hothers := entries_pretty es (fun x hx => hall x (List.mem_cons_of_mem _ hx)) level closing
      (show stepsFields es < fuel by omega) rest
    have hfirst {rest : List Char} (hends : Ends rest) :=
      value_prettyAt v hjson level (show steps v < fuel by omega) hends
    have hentry : (stringWith escapeChar k ++ ": " ++ prettyAt escapeChar level v).toList =
        entryText k ++ (prettyAt escapeChar level v).toList := by
      simp [entryText]
    cases es with
    | nil =>
      rw [prettyFields, prettyFields, String.intercalate_singleton, hentry, List.append_assoc]
      exact entries_last k (hfirst (ends_newline _ _))
    | cons e es =>
      rw [prettyFields, prettyFields, toList_intercalate_cons_cons, hentry, List.append_assoc,
        List.append_assoc, List.append_assoc]
      exact entries_more k (hfirst (ends_comma _ _)) (hothers (List.cons_ne_nil e es))
end

theorem no_mark_of_value {fuel : Nat} {r : Value × List Char}
    (hread : value fuel text = .ok r) : text.head? ≠ some (Char.ofNat 0xFEFF) := by
  intro hmark
  cases text with
  | nil => simp at hmark
  | cons c rest =>
    simp only [List.head?_cons, Option.some.injEq] at hmark
    subst hmark
    have hnothing : atom? (Char.ofNat 0xFEFF :: rest) = none := by
      simp [atom?, unsigned?, Text.isAsciiDigit]
    cases fuel with
    | zero => simp [value, failAt] at hread
    | succ fuel => simp [value, hnothing, failAt] at hread

/-- What is written is read again. -/
theorem read_pretty_of_isJson {v : Value} (hjson : v.IsJson) : read (pretty v) = .ok v := by
  have hfound := value_prettyAt v hjson 0 (Nat.lt_succ_of_le (steps_le_length v 0)) ends_nil
  rw [List.append_nil, ← pretty] at hfound
  rw [read, if_neg (no_mark_of_value hfound), readChars, skip_of_value hfound, hfound]
  rfl

theorem read_pretty {v : Value} (hplain : v.IsPlain) : read (pretty v) = .ok v :=
  read_pretty_of_isJson (Value.IsPlain.isJson v hplain)

end Dialogue.Json

/-! ## What is read has the shape of JSON -/

namespace Dialogue.Json

open Keyed (keys)

theorem isJson_of_unsigned? {negative : Bool} {cs left : List Char} {v : Value}
    (hread : unsigned? negative cs = some (v, left)) : v.IsJson := by
  simp only [unsigned?, Option.ite_none_left_eq_some] at hread
  obtain ⟨-, hread⟩ := hread
  -- zero stands alone, and either number may have a fraction or an exponent
  split at hread <;> split at hread <;>
    · obtain ⟨rfl, -⟩ := Prod.mk.inj (Option.some.inj hread)
      first
      | trivial
      | exact Value.isJson_double (Double.isNaN_ofDecimal _ _ _)

theorem isJson_of_atom? {cs left : List Char} {v : Value}
    (hread : atom? cs = some (v, left)) : v.IsJson := by
  unfold atom? at hread
  split at hread
  case h_4 =>
    cases hread
    exact fun _ => rfl
  case h_5 | h_6 =>
    cases hread
    exact Value.isJson_double (by decide)
  case h_7 | h_8 => exact isJson_of_unsigned? hread
  all_goals
    cases hread
    trivial

theorem isJson_ofEntries {es : List (String × Value)} (hjson : ∀ e ∈ es, e.2.IsJson) :
    (Value.dict (Keyed.ofEntries es)).IsJson := by
  obtain ⟨hnodup, hlisted⟩ := Keyed.ofEntries_spec es
  exact Value.isJson_dict_iff.2 ⟨hnodup, fun e he => hjson e (hlisted e he)⟩

/-- What the three functions of the reader make with some steps to go has the shape of JSON. -/
theorem isJson_of_steps (fuel : Nat) :
    (∀ {cs left v}, value fuel cs = .ok (v, left) → v.IsJson) ∧
    (∀ {cs left vs}, items fuel cs = .ok (vs, left) → ∀ v ∈ vs, v.IsJson) ∧
    ∀ {cs left es}, entries fuel cs = .ok (es, left) → ∀ e ∈ es, e.2.IsJson := by
  induction fuel with
  | zero =>
    refine ⟨?_, ?_, ?_⟩ <;>
      · intro cs left found hread
        cases hread
  | succ fuel ih =>
    obtain ⟨hofValue, hofItems, hofEntries⟩ := ih
    refine ⟨?_, ?_, ?_⟩
    · intro cs left v hread
      unfold value at hread
      split at hread
      · obtain ⟨⟨s, rest⟩, -, hmade⟩ := exists_ok_of_bind hread
        cases hmade
        trivial
      · split at hread
        · cases hread
          trivial
        · obtain ⟨⟨vs, rest⟩, hinner, hmade⟩ := exists_ok_of_bind hread
          cases hmade
          exact Value.isJson_list_iff.2 (hofItems hinner)
      · split at hread
        · cases hread
          exact ⟨List.nodup_nil, trivial⟩
        · obtain ⟨⟨es, rest⟩, hinner, hmade⟩ := exists_ok_of_bind hread
          cases hmade
          exact isJson_ofEntries (hofEntries hinner)
      · split at hread
        · rename_i hfound
          cases hread
          exact isJson_of_atom? hfound
        · cases hread
    · intro cs left vs hread
      unfold items at hread
      obtain ⟨⟨v, rest⟩, hfirst, hmade⟩ := exists_ok_of_bind hread
      simp only at hmade
      split at hmade
      · cases hmade
        exact List.forall_mem_singleton.2 (hofValue hfirst)
      · obtain ⟨⟨others, rest⟩, hinner, hmade⟩ := exists_ok_of_bind hmade
        cases hmade
        exact List.forall_mem_cons.2 ⟨hofValue hfirst, hofItems hinner⟩
      · cases hmade
    · intro cs left es hread
      unfold entries at hread
      split at hread
      · obtain ⟨⟨key, rest⟩, -, hmade⟩ := exists_ok_of_bind hread
        simp only at hmade
        split at hmade
        · obtain ⟨⟨v, rest⟩, hfirst, hmade⟩ := exists_ok_of_bind hmade
          simp only at hmade
          split at hmade
          · cases hmade
            exact List.forall_mem_singleton.2 (hofValue hfirst)
          · obtain ⟨⟨others, rest⟩, hinner, hmade⟩ := exists_ok_of_bind hmade
            cases hmade
            exact List.forall_mem_cons.2 ⟨hofValue hfirst, hofEntries hinner⟩
          · cases hmade
        · cases hmade
      · cases hread

theorem isJson_of_read {s : String} {v : Value} (hfound : read s = .ok v) : v.IsJson := by
  unfold read at hfound
  split at hfound
  · cases hfound
  · unfold readChars at hfound
    cases houtcome : value (s.toList.length + 1) (skip s.toList) with
    | error e =>
      rw [houtcome] at hfound
      cases hfound
    | ok made =>
      obtain ⟨w, left⟩ := made
      rw [houtcome] at hfound
      simp only [bind, Except.bind] at hfound
      split at hfound
      · cases hfound
        exact (isJson_of_steps _).1 houtcome
      · cases hfound

theorem isDocument_of_read {s : String} {v : Value} (hfound : read s = .ok v) : v.IsDocument :=
  Value.IsJson.isDocument v (isJson_of_read hfound)

end Dialogue.Json

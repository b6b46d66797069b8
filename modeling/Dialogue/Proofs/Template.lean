import Dialogue.Flow.Preset
import Dialogue.Proofs.Condition.Parser
import Dialogue.Template

/-!
# Rendering, placeholder by placeholder

A placeholder is two opening braces, the name of a field with white space around it, and two closing
braces (`IsPlaceholder`).  It is found exactly where a text starts with one (`placeholder?_append`,
`exists_of_placeholder?`).

A template is rendered from left to right.  A stretch without opening braces stands for itself
(`render_bare_append`), and a placeholder stands for the value of its field
(`render_field_append`).  What the value puts in is not looked at again, so a value with braces in
it stands there as it is.

## Division at the placeholders

Which placeholders a template has is said without the reader: a placeholder may occur anywhere in a
text (`Occurs`), the first passage ends with the leftmost one (`Passage.Leads`), and behind it the
text is divided in the same way until there is no placeholder left (`Divides`).

* `Passage.Leads.unique`, `exists_leads_or_isLiteral`: there is one leftmost placeholder, or none.
* `Divides.flatMap_pieces`: reading from left to right finds this division.
* `existsUnique_division`: a text has one division, and whatever the data are, the rendered text is
  this division filled in.
-/

namespace Dialogue.Template

variable {s t name value : String} {text cs rest literal written last : List Char} {data : Fields}

/-- A stretch of a template without opening braces. -/
def IsBare (s : String) : Prop := ∀ c ∈ s.toList, c ≠ '\x7b'

instance (s : String) : Decidable (IsBare s) :=
  List.decidableBAll (fun c => c ≠ '\x7b') s.toList

/-! ## Placeholders -/

/-- A text that may stand in a placeholder. -/
structure IsWord (name : String) : Prop where
  nonempty : name ≠ ""
  chars : ∀ c ∈ name.toList, isFieldChar c = true

/-- A placeholder as it is written: two opening braces, the name of a field with white space around
it, two closing braces. -/
structure IsPlaceholder (written : List Char) (name : String) : Prop where
  word : IsWord name
  spaced : ∃ before behind : List Char,
    (∀ c ∈ before, Text.isBlank c = true) ∧ (∀ c ∈ behind, Text.isBlank c = true) ∧
      written =
        ['\x7b', '\x7b'] ++ (before ++ (name.toList ++ (behind ++ ['\x7d', '\x7d'])))

theorem IsWord.isBlank_of_head? (hword : IsWord name) (rest : List Char) (c : Char)
    (hfirst : (name.toList ++ rest).head? = some c) : Text.isBlank c = false := by
  obtain ⟨d, cs, hstarts⟩ :=
    List.exists_cons_of_ne_nil (l := name.toList) (by simpa using hword.nonempty)
  obtain rfl : d = c := by simpa [hstarts] using hfirst
  refine Bool.eq_false_iff.2 fun hblank => ?_
  have hfield := hword.chars d (by simp [hstarts])
  simp [Condition.isFieldChar_of_isBlank hblank] at hfield

theorem isFieldChar_of_head? {behind : List Char} (hblank : ∀ c ∈ behind, Text.isBlank c = true)
    (c : Char) (hfirst : (behind ++ '\x7d' :: rest).head? = some c) : isFieldChar c = false := by
  cases behind with
  | nil =>
    obtain rfl : '\x7d' = c := by simpa using hfirst
    decide
  | cons b behind =>
    obtain rfl : b = c := by simpa using hfirst
    exact Condition.isFieldChar_of_isBlank (hblank b List.mem_cons_self)

theorem placeholder?_append (hplaceholder : IsPlaceholder written name) (rest : List Char) :
    placeholder? (written ++ rest) = some (name.toList, rest) := by
  obtain ⟨hword, before, behind, hblank, hblank', rfl⟩ := hplaceholder
  have hbody : (before ++ (name.toList ++ (behind ++ '\x7d' :: '\x7d' :: rest))).dropWhile
      Text.isBlank = name.toList ++ (behind ++ '\x7d' :: '\x7d' :: rest) :=
    Text.dropWhile_append_of_ends hblank (hword.isBlank_of_head? _)
  have htaken : (name.toList ++ (behind ++ '\x7d' :: '\x7d' :: rest)).takeWhile isFieldChar =
      name.toList :=
    Text.takeWhile_append_of_ends hword.chars (isFieldChar_of_head? hblank')
  have hleft : (name.toList ++ (behind ++ '\x7d' :: '\x7d' :: rest)).dropWhile isFieldChar =
      behind ++ '\x7d' :: '\x7d' :: rest :=
    Text.dropWhile_append_of_ends hword.chars (isFieldChar_of_head? hblank')
  have hclosing : (behind ++ '\x7d' :: '\x7d' :: rest).dropWhile Text.isBlank =
      '\x7d' :: '\x7d' :: rest :=
    Text.dropWhile_append_of_ends hblank' fun c hfirst => by
      obtain rfl : '\x7d' = c := by simpa using hfirst
      decide
  have hnonempty : name.toList.isEmpty = false := by simpa using hword.nonempty
  simp [placeholder?, hbody, htaken, hleft, hclosing, hnonempty]

theorem exists_of_placeholder? {found : List Char × List Char}
    (hstarts : placeholder? cs = some found) :
    ∃ written, IsPlaceholder written (String.ofList found.1) ∧ cs = written ++ found.2 := by
  unfold placeholder? at hstarts
  split at hstarts
  · rename_i inner
    simp only at hstarts
    split at hstarts
    · cases hstarts
    · rename_i hnonempty
      split at hstarts
      · rename_i rest hclosing
        obtain rfl := Option.some.inj hstarts
        refine ⟨_, ⟨⟨?_, ?_⟩, inner.takeWhile Text.isBlank,
          ((inner.dropWhile Text.isBlank).dropWhile isFieldChar).takeWhile Text.isBlank,
          fun c => List.mem_takeWhile_imp, fun c => List.mem_takeWhile_imp, rfl⟩, ?_⟩
        · simpa [String.ofList_eq_empty_iff] using hnonempty
        · rw [String.toList_ofList]
          exact fun c => List.mem_takeWhile_imp
        · simp only [String.toList_ofList, List.append_assoc, List.cons_append, List.nil_append]
          rw [← hclosing, List.takeWhile_append_dropWhile, List.takeWhile_append_dropWhile,
            List.takeWhile_append_dropWhile]
      · cases hstarts
  · cases hstarts

theorem isPlaceholder_field (hword : IsWord name) :
    IsPlaceholder (Preset.field name).toList name where
  word := hword
  spaced := ⟨[], [], by simp, by simp, by simp [Preset.field]⟩

/-! ## Pieces -/

theorem pieces_nil : pieces [] = [] := by rw [pieces]

theorem pieces_of_none {c : Char} (hnone : placeholder? (c :: cs) = none) :
    pieces (c :: cs) = .char c :: pieces cs := by
  rw [pieces]
  split
  · rename_i hfound
    rw [hnone] at hfound
    cases hfound
  · rfl

theorem pieces_append (hplaceholder : IsPlaceholder written name) (rest : List Char) :
    pieces (written ++ rest) = .field name :: pieces rest := by
  have hfound := placeholder?_append hplaceholder rest
  cases hstarts : written ++ rest with
  | nil => simp [hstarts, placeholder?] at hfound
  | cons c cs =>
    rw [hstarts] at hfound
    rw [pieces]
    split
    · rename_i hfound'
      rw [hfound] at hfound'
      cases hfound'
      rw [String.ofList_toList]
    · rename_i hnone
      rw [hfound] at hnone
      cases hnone

theorem pieces_char {c : Char} {rest : List Char} (hother : c ≠ '\x7b') :
    pieces (c :: rest) = .char c :: pieces rest := by
  refine pieces_of_none ?_
  unfold placeholder?
  split
  · rename_i hsame
    exact absurd (List.cons.inj hsame).1 hother
  · rfl

theorem pieces_bare {cs rest : List Char} (hbare : ∀ c ∈ cs, c ≠ '\x7b') :
    pieces (cs ++ rest) = cs.map .char ++ pieces rest := by
  induction cs with
  | nil => rfl
  | cons c cs ih =>
    obtain ⟨hfirst, hothers⟩ := List.forall_mem_cons.1 hbare
    rw [List.cons_append, pieces_char hfirst, ih hothers]
    rfl

/-! ## Rendered texts -/

theorem render_bare_append (hbare : IsBare s) : render (s ++ t) data = s ++ render t data := by
  apply String.toList_inj.1
  simp [render, parse, pieces_bare hbare, List.flatMap_map, Piece.render]

theorem render_bare (hbare : IsBare s) : render s data = s := by
  have hwhole : render (s ++ "") data = s ++ render "" data := render_bare_append hbare
  have hempty : render "" data = "" := by
    show String.ofList ((pieces []).flatMap _) = ""
    rw [pieces_nil]
    rfl
  simpa [hempty] using hwhole

/-- The value of a field is put in the place of its placeholder. -/
theorem render_field_append (hword : IsWord name) (hfound : Fields.getD data name = .str value) :
    render (Preset.field name ++ t) data = value ++ render t data := by
  apply String.toList_inj.1
  simp [render, parse, pieces_append (isPlaceholder_field hword), Piece.render, hfound,
    Value.display]

/-! ## Where placeholders stand -/

/-- In the text there is a placeholder behind `literal` and before `rest`. -/
structure Occurs (text literal written : List Char) (name : String) (rest : List Char) : Prop where
  placeholder : IsPlaceholder written name
  text_eq : text = literal ++ (written ++ rest)

/-- A text without placeholders. -/
def IsLiteral (text : List Char) : Prop :=
  ∀ literal written name rest, ¬ Occurs text literal written name rest

/-- A stretch of a text, and the placeholder behind it. -/
structure Passage where
  literal : List Char
  written : List Char
  name : String
  deriving DecidableEq, Repr

/-- The text starts with the passage and goes on with `rest`, and the placeholder is the leftmost
one. -/
structure Passage.Leads (p : Passage) (text rest : List Char) : Prop where
  occurs : Occurs text p.literal p.written p.name rest
  leftmost : ∀ literal written name rest', Occurs text literal written name rest' →
    p.literal.length ≤ literal.length

theorem IsPlaceholder.ne_nil (hplaceholder : IsPlaceholder written name) : written ≠ [] := by
  obtain ⟨-, before, behind, -, -, rfl⟩ := hplaceholder
  simp

theorem Occurs.length_lt (hoccurs : Occurs text literal written name rest) :
    rest.length < text.length := by
  have := List.length_pos_iff.2 hoccurs.placeholder.ne_nil
  simp only [hoccurs.text_eq, List.length_append]
  omega

theorem isLiteral_nil : IsLiteral [] := fun literal written name rest hoccurs => by
  simpa using hoccurs.length_lt

theorem Occurs.cases {c : Char} (hoccurs : Occurs (c :: text) literal written name rest) :
    placeholder? (c :: text) = some (name.toList, rest) ∨
      ∃ literal', literal = c :: literal' ∧ Occurs text literal' written name rest := by
  obtain ⟨hplaceholder, hsplit⟩ := hoccurs
  cases literal with
  | nil => exact .inl (hsplit ▸ placeholder?_append hplaceholder rest)
  | cons d literal' =>
    obtain ⟨rfl, hsplit'⟩ := List.cons.inj hsplit
    exact .inr ⟨literal', rfl, hplaceholder, hsplit'⟩

theorem Occurs.cons (hoccurs : Occurs text literal written name rest) (c : Char) :
    Occurs (c :: text) (c :: literal) written name rest :=
  ⟨hoccurs.placeholder, by rw [hoccurs.text_eq, List.cons_append]⟩

theorem exists_leads_or_isLiteral (text : List Char) :
    (∃ p : Passage, ∃ rest, p.Leads text rest) ∨ IsLiteral text := by
  induction text with
  | nil => exact .inr isLiteral_nil
  | cons c text ih =>
    cases hfound : placeholder? (c :: text) with
    | some r =>
      obtain ⟨written, hplaceholder, hsplit⟩ := exists_of_placeholder? hfound
      exact .inl ⟨⟨[], written, _⟩, r.2, ⟨hplaceholder, hsplit⟩, fun _ _ _ _ _ => Nat.zero_le _⟩
    | none =>
      have hbehind {literal written name rest}
          (hoccurs : Occurs (c :: text) literal written name rest) :
          ∃ literal', literal = c :: literal' ∧ Occurs text literal' written name rest :=
        hoccurs.cases.resolve_left (by simp [hfound])
      rcases ih with ⟨p, rest, hleads⟩ | hliteral
      · refine .inl ⟨⟨c :: p.literal, p.written, p.name⟩, rest, hleads.occurs.cons c, ?_⟩
        intro literal written name rest' hoccurs
        obtain ⟨literal', rfl, hoccurs'⟩ := hbehind hoccurs
        exact Nat.succ_le_succ (hleads.leftmost _ _ _ _ hoccurs')
      · refine .inr fun literal written name rest hoccurs => ?_
        obtain ⟨literal', rfl, hoccurs'⟩ := hbehind hoccurs
        exact ‹IsLiteral text› _ _ _ _ hoccurs'

/-- There is one leftmost placeholder. -/
theorem Passage.Leads.unique {p q : Passage} {rest' : List Char} (hleads : p.Leads text rest)
    (hleads' : q.Leads text rest') : p = q ∧ rest = rest' := by
  have hlengths : p.literal.length = q.literal.length :=
    Nat.le_antisymm (hleads.leftmost _ _ _ _ hleads'.occurs)
      (hleads'.leftmost _ _ _ _ hleads.occurs)
  have hsame := hleads.occurs.text_eq.symm.trans hleads'.occurs.text_eq
  obtain ⟨hliterals, hbehind⟩ := List.append_inj hsame hlengths
  have hfound := placeholder?_append hleads.occurs.placeholder rest
  rw [hbehind, placeholder?_append hleads'.occurs.placeholder, Option.some.injEq, Prod.mk.injEq,
    String.toList_inj] at hfound
  obtain ⟨hnames, rfl⟩ := hfound
  obtain ⟨literal, written, name⟩ := p
  obtain ⟨literal', written', name'⟩ := q
  obtain rfl : literal = literal' := hliterals
  obtain rfl : name' = name := hnames
  obtain rfl : written = written' := List.append_cancel_right hbehind
  exact ⟨rfl, rfl⟩

/-! ## Divisions -/

/-- A text divided at its placeholders: the passages from left to right, and what stands behind the
last one. -/
structure Division where
  passages : List Passage
  last : List Char
  deriving DecidableEq, Repr

/-- The passages lead a text one after another, and behind them is no placeholder. -/
inductive Divides : List Passage → List Char → List Char → Prop where
  | literal {text : List Char} (literal : IsLiteral text) : Divides [] text text
  | passage {p : Passage} {ps : List Passage} {text rest last : List Char}
    (leads : p.Leads text rest) (divides : Divides ps last rest) : Divides (p :: ps) last text

/-- The division is one of the text. -/
def Division.IsOf (d : Division) (s : String) : Prop := Divides d.passages d.last s.toList

/-- The names in the placeholders. -/
def Division.names (d : Division) : List String := d.passages.map (·.name)

theorem exists_divides (text : List Char) : ∃ ps last, Divides ps last text := by
  induction hsize : text.length using Nat.strong_induction_on generalizing text with
  | _ n ih =>
    rcases exists_leads_or_isLiteral text with ⟨p, rest, hleads⟩ | hliteral
    · obtain ⟨ps, last, hdivides⟩ := ih _ (hsize ▸ hleads.occurs.length_lt) rest rfl
      exact ⟨p :: ps, last, .passage hleads hdivides⟩
    · exact ⟨[], text, .literal hliteral⟩

theorem Divides.unique {ps qs : List Passage} {last last' : List Char}
    (hdivides : Divides ps last text) (hdivides' : Divides qs last' text) :
    ps = qs ∧ last = last' := by
  induction hdivides generalizing qs with
  | literal hliteral =>
    cases hdivides' with
    | literal _ => exact ⟨rfl, rfl⟩
    | passage hleads _ => exact absurd hleads.occurs (hliteral _ _ _ _)
  | passage hleads _ ih =>
    cases hdivides' with
    | literal hliteral => exact absurd hleads.occurs (hliteral _ _ _ _)
    | passage hleads' hdivides' =>
      obtain ⟨rfl, rfl⟩ := hleads.unique hleads'
      obtain ⟨rfl, rfl⟩ := ih hdivides'
      exact ⟨rfl, rfl⟩

/-! ## The text that is filled in -/

/-- What stands for a placeholder: nothing for a name that is absent or null, else the value as
text. -/
def filling (data : Fields) (name : String) : String :=
  match Fields.get? data name with
  | none => ""
  | some .null => ""
  | some v => v.display

/-- The stretches as they are, with what stands for the placeholders between them. -/
def fill (data : Fields) : List Passage → List Char → List Char
  | [], last => last
  | p :: ps, last => p.literal ++ ((filling data p.name).toList ++ fill data ps last)

/-- The divided text filled in. -/
def Division.fill (d : Division) (data : Fields) : String :=
  String.ofList (Template.fill data d.passages d.last)

theorem render_field (data : Fields) (name : String) :
    (Piece.field name).render data = (filling data name).toList := by
  cases hfound : Fields.get? data name with
  | none => simp [Piece.render, filling, Fields.getD, hfound]
  | some v => cases v <;> simp [Piece.render, filling, Fields.getD, hfound]

/-- A text in which no placeholder starts with the first character is that character and the
rest. -/
theorem pieces_cons {c : Char}
    (hapart : ∀ written name rest, ¬ Occurs (c :: text) [] written name rest) :
    pieces (c :: text) = .char c :: pieces text := by
  refine pieces_of_none (Option.eq_none_iff_forall_ne_some.2 fun found hstarts => ?_)
  obtain ⟨written, hplaceholder, hsplit⟩ := exists_of_placeholder? hstarts
  exact hapart written _ found.2 ⟨hplaceholder, hsplit⟩

theorem IsLiteral.pieces (hliteral : IsLiteral text) : pieces text = text.map .char := by
  induction text with
  | nil => exact pieces_nil
  | cons c text ih =>
    have hbehind : IsLiteral text := fun literal' written name rest hoccurs =>
      hliteral _ _ _ _ (hoccurs.cons c)
    rw [pieces_cons fun written name rest => hliteral [] written name rest, ih hbehind,
      List.map_cons]

theorem Passage.Leads.pieces {p : Passage} (hleads : p.Leads text rest) :
    pieces text = p.literal.map .char ++ .field p.name :: pieces rest := by
  obtain ⟨literal, written, name⟩ := p
  induction literal generalizing text with
  | nil =>
    obtain ⟨⟨hplaceholder, hsplit⟩, -⟩ := hleads
    rw [hsplit, List.nil_append, pieces_append hplaceholder, List.map_nil, List.nil_append]
  | cons c literal ih =>
    obtain ⟨⟨hplaceholder, hsplit⟩, hleftmost⟩ := hleads
    obtain rfl : text = c :: (literal ++ (written ++ rest)) := hsplit
    have hapart : ∀ written' name' rest',
        ¬ Occurs (c :: (literal ++ (written ++ rest))) [] written' name' rest' :=
      fun written' name' rest' hoccurs => by simpa using hleftmost _ _ _ _ hoccurs
    have hleads : Passage.Leads ⟨literal, written, name⟩ (literal ++ (written ++ rest)) rest :=
      ⟨⟨hplaceholder, rfl⟩, fun literal' written' name' rest' hoccurs =>
        Nat.le_of_succ_le_succ (hleftmost _ _ _ _ (hoccurs.cons c))⟩
    rw [pieces_cons hapart, ih hleads, List.map_cons, List.cons_append]

theorem Divides.flatMap_pieces {ps : List Passage} (hdivides : Divides ps last text)
    (data : Fields) : (pieces text).flatMap (·.render data) = fill data ps last := by
  induction hdivides with
  | literal hliteral =>
    simp [hliteral.pieces, List.flatMap_map, Piece.render, fill]
  | passage hleads _ ih =>
    rw [hleads.pieces, List.flatMap_append, List.flatMap_cons, ih, render_field, fill]
    simp [List.flatMap_map, Piece.render]

theorem Division.IsOf.render_eq {d : Division} {s : String} (hof : d.IsOf s) (data : Fields) :
    render s data = d.fill data := by
  rw [render, parse, hof.flatMap_pieces, Division.fill]

theorem fill_congr {data data' : Fields} {ps : List Passage}
    (hagree : ∀ p ∈ ps, Fields.get? data p.name = Fields.get? data' p.name) (last : List Char) :
    fill data ps last = fill data' ps last := by
  induction ps with
  | nil => rfl
  | cons p ps ih =>
    obtain ⟨hfirst, hothers⟩ := List.forall_mem_cons.1 hagree
    rw [fill, fill, ih hothers, filling, filling, hfirst]

/-- A text has one division at its placeholders, whatever the data.  It is rendered with its literal
stretches as they are and, in the place of each placeholder, the value of its field as it is; so
data that agree on the names in the text give the same. -/
theorem existsUnique_division (s : String) :
    ∃ d : Division, d.IsOf s ∧ (∀ d' : Division, d'.IsOf s → d' = d) ∧
      (∀ data, render s data = d.fill data) ∧
      ∀ data data', (∀ name ∈ d.names, Fields.get? data name = Fields.get? data' name) →
        render s data = render s data' := by
  obtain ⟨ps, last, hdivides⟩ := exists_divides s.toList
  have hof : Division.IsOf ⟨ps, last⟩ s := hdivides
  refine ⟨⟨ps, last⟩, hof, fun d' hof' => ?_, hof.render_eq, fun data data' hagree => ?_⟩
  · obtain ⟨hpassages, hlast⟩ := Divides.unique hof' hdivides
    exact congrArg₂ Division.mk hpassages hlast
  · have hagree' : ∀ p ∈ ps, Fields.get? data p.name = Fields.get? data' p.name := fun p hmem =>
      hagree p.name (List.mem_map_of_mem hmem)
    rw [hof.render_eq, hof.render_eq, Division.fill, Division.fill, fill_congr hagree']

/-- What a value leaves behind with its neighbours is no placeholder. -/
example : render "\x7b\x7b\x7ba\x7d\x7d\x7bb\x7d\x7d" [("a", .str ""), ("b", .str "x")] =
    "\x7b\x7bb\x7d\x7d" := by cbv

end Dialogue.Template

import Dialogue.Engine.Turn
import Dialogue.Flow.Check
import Dialogue.Proofs.Condition.Parser

/-!
# Two conditions in one text

There are no connectives, so a text in which a connective joins two conditions should be no
condition.  The reader keeps to that except for two kinds of text, which it takes for a single
comparison with a strange value (`Misread`):

* the value of the first condition opens a quote that the end of the second one closes, as in
  `city == "x" and name == "y"`, and everything between counts as the literal;
* the first condition ends in a comparator, as `size >=` does, which by itself compares `>` with the
  value `=`; together with the second one the comparator is `>=` and its value starts with the word.

`Condition.parse?_join_eq_none_iff` says that these are all: every other join of two conditions is
read as no condition, holds of no data and is reported by the check of a flow.
-/

namespace Dialogue.Condition

/-! ## Joined texts -/

/-- A connective: a word between blanks, in any case of its letters, or a doubled sign. -/
inductive IsConnective : List Char → Prop
  | word {w : List Char}
      (spelled : w.map foldAscii = ['a', 'n', 'd'] ∨ w.map foldAscii = ['o', 'r']) :
      IsConnective (' ' :: (w ++ [' ']))
  | both : IsConnective ['&', '&']
  | either : IsConnective ['|', '|']

/-- The text without white space at its end. -/
def upToEnd (cs : List Char) : List Char := Text.dropEndWhile Text.isBlank cs

/-- The white space at the end of a text that holds something else as well. -/
def ending (cs : List Char) : List Char :=
  ((cs.dropWhile Text.isBlank).reverse.takeWhile Text.isBlank).reverse

/-- The end of a joined text from the connective on, without the blank before it. -/
def fromWord (join second : List Char) : List Char :=
  (join ++ upToEnd second).dropWhile Text.isBlank

/-- The division of the text that a condition is read from. -/
def division? (cs : List Char) : Option (List Char × Comparator × List Char) :=
  divide? (Text.stripChars cs) ((Text.stripChars cs).takeWhile isFieldChar).length

/-- Two conditions with a connective between them that are taken for a single comparison. -/
inductive Misread (first join second : List Char) : Prop
  /-- The first value opens a quote that the end of the second condition closes. -/
  | literal {field body : List Char} {op : Comparator} {q : Char}
      (divided : division? first = some (field, op, q :: body))
      (quote : q = '"' ∨ q = '\'')
      (closed : (upToEnd second).getLast? = some q)
      (apart : ∀ k op, ¬ Dangles (Text.stripChars first) k op)
      (oneLine : '\n' ∉ ending first ++ upToEnd second)
  /-- The first condition ends in a comparator, which takes the rest for its value. -/
  | operand {k : Nat} {op : Comparator}
      (dangles : Dangles (Text.stripChars first) k op)
      (single : hasConnective (fromWord join second) = false)
      (oneLine : '\n' ∉ upToEnd second)

/-! ## The middle of a joined text -/

variable {first join second t : List Char}

theorem eq_of_foldAscii {c d : Char} (hsame : foldAscii c = d) :
    c = d ∨ c.toNat + 32 = d.toNat := by
  unfold foldAscii at hsame
  split at hsame
  · rename_i hcapital
    right
    have hlow : 65 ≤ c.toNat := hcapital.1
    have high : c.toNat ≤ 90 := hcapital.2
    have hvalid : (c.toNat + 32).isValidChar := .inl (by omega)
    rw [← hsame, Char.ofNat, dif_pos hvalid]
    rfl
  · exact .inl hsame

/-- A character that no white space, comparator or quote begins with. -/
def IsPlainStart (c : Char) : Prop :=
  c = 'a' ∨ c = 'A' ∨ c = 'o' ∨ c = 'O' ∨ c = '&' ∨ c = '|'

theorem IsPlainStart.isBlank {c : Char} (hplain : IsPlainStart c) : Text.isBlank c = false := by
  rcases hplain with rfl | rfl | rfl | rfl | rfl | rfl <;> rfl

theorem IsPlainStart.unquote? {c : Char} (hplain : IsPlainStart c) (cs : List Char) :
    Operand.unquote? (c :: cs) = none := by
  rcases hplain with rfl | rfl | rfl | rfl | rfl | rfl <;> simp [Operand.unquote?]

theorem IsPlainStart.valueAfter? {c : Char} (hplain : IsPlainStart c) (cs : List Char) :
    ∀ op ∈ Comparator.all, valueAfter? op (c :: cs) = none := by
  rcases hplain with rfl | rfl | rfl | rfl | rfl | rfl <;>
    simp [Comparator.all, Comparator.symbol, Condition.valueAfter?, dropPrefix?]

theorem isPlainStart_of_foldAscii {c : Char} (hletter : foldAscii c = 'a' ∨ foldAscii c = 'o') :
    IsPlainStart c := by
  have heq : ∀ a b : Char, a = b ↔ a.toNat = b.toNat := fun a b => Char.toNat_inj.symm
  rcases hletter with hletter | hletter <;> rcases eq_of_foldAscii hletter with hsame | hsame
  · exact .inl hsame
  · exact .inr (.inl ((heq _ _).2 (Nat.add_right_cancel hsame)))
  · exact .inr (.inr (.inl hsame))
  · exact .inr (.inr (.inr (.inl ((heq _ _).2 (Nat.add_right_cancel hsame)))))

/-- What a text with a connective before it looks like. -/
structure IsSeam (join second : List Char) : Prop where
  breaks : Breaks (join ++ second)
  start : ∃ c v, (join ++ second).dropWhile Text.isBlank = c :: v ∧ IsPlainStart c
  noFeed : '\n' ∉ join
  feed : '\n' ∈ second → '\n' ∈ (join ++ second).dropWhile Text.isBlank
  found : hasConnective (join ++ second) = true

theorem isSeam_word {w : List Char}
    (hspelled : w.map foldAscii = ['a', 'n', 'd'] ∨ w.map foldAscii = ['o', 'r'])
    (second : List Char) : IsSeam (' ' :: (w ++ [' '])) second := by
  obtain ⟨c, v, rfl, hletter⟩ : ∃ c v, w = c :: v ∧ (foldAscii c = 'a' ∨ foldAscii c = 'o') := by
    cases w with
    | nil => simp at hspelled
    | cons c v =>
      simp only [List.map_cons, List.cons.injEq] at hspelled
      exact ⟨c, v, rfl, hspelled.imp And.left And.left⟩
  have hplain := isPlainStart_of_foldAscii hletter
  have hnoFeed : '\n' ∉ c :: v := by
    intro hfeed
    have hmem := List.mem_map_of_mem (f := foldAscii) hfeed
    rcases hspelled with hspelled | hspelled <;> rw [hspelled] at hmem <;> simp [foldAscii] at hmem
  have hrest : (' ' :: (c :: v ++ [' ']) ++ second).dropWhile Text.isBlank =
      c :: (v ++ ' ' :: second) := by
    simp [hplain.isBlank, show Text.isBlank ' ' = true from rfl]
  exact
    { breaks := by rintro _ ⟨⟩; exact .inl rfl
      start := ⟨c, v ++ ' ' :: second, hrest, hplain⟩
      noFeed := by simpa using hnoFeed
      feed := fun hfeed => by rw [hrest]; simp [hfeed]
      found := IsLink.hasConnective (.word rfl hspelled rfl) second }

theorem IsConnective.isSeam (hjoins : IsConnective join) (second : List Char) :
    IsSeam join second := by
  cases hjoins with
  | word hspelled => exact isSeam_word hspelled second
  | both =>
    exact
      { breaks := by rintro _ ⟨⟩; exact .inr (.inl rfl)
        start := ⟨'&', '&' :: second, rfl, by simp [IsPlainStart]⟩
        noFeed := by decide
        feed := fun hfeed => List.mem_append_right ['&', '&'] hfeed
        found := rfl }
  | either =>
    exact
      { breaks := by rintro _ ⟨⟩; exact .inr (.inr rfl)
        start := ⟨'|', '|' :: second, rfl, by simp [IsPlainStart]⟩
        noFeed := by decide
        feed := fun hfeed => List.mem_append_right ['|', '|'] hfeed
        found := rfl }

/-! ## The joined text -/

theorem upToEnd_ne_nil {cs : List Char} (hsome : Text.stripChars cs ≠ []) : upToEnd cs ≠ [] := by
  intro hblank
  have hall := List.dropWhile_eq_nil_iff.1 (List.reverse_eq_nil_iff.1 hblank)
  have hnothing : cs.dropWhile Text.isBlank = [] :=
    List.dropWhile_eq_nil_iff.2 fun c hmem => hall c (List.mem_reverse.2 hmem)
  exact hsome (by rw [Text.stripChars, Text.trimChars, hnothing, Text.dropEndWhile_nil])

theorem stripChars_append_ending (cs : List Char) :
    Text.stripChars cs ++ ending cs = cs.dropWhile Text.isBlank := by
  rw [Text.stripChars, Text.trimChars, Text.dropEndWhile, ending, ← List.reverse_append,
    List.takeWhile_append_dropWhile, List.reverse_reverse]

theorem isBlank_of_mem_ending {cs : List Char} {c : Char} (hmem : c ∈ ending cs) :
    Text.isBlank c = true :=
  List.mem_takeWhile_imp (List.mem_reverse.1 hmem)

/-- The joined text without white space around it. -/
theorem stripChars_join (hleft : Text.stripChars first ≠ []) (hright : upToEnd second ≠ [])
    (join : List Char) :
    Text.stripChars (first ++ join ++ second) =
      Text.stripChars first ++ (ending first ++ (join ++ upToEnd second)) := by
  have hfront : first.dropWhile Text.isBlank ≠ [] := by
    rw [← stripChars_append_ending]
    simp [hleft]
  have hback : second.reverse.dropWhile Text.isBlank ≠ [] := by
    simpa [upToEnd, Text.dropEndWhile] using hright
  rw [← List.append_assoc, stripChars_append_ending, Text.stripChars, Text.trimChars,
    List.append_assoc, List.dropWhile_append, if_neg (by simpa using hfront), upToEnd,
    Text.dropEndWhile, Text.dropEndWhile, ← List.append_assoc, List.reverse_append,
    List.dropWhile_append, if_neg (by simpa using hback), List.reverse_append,
    List.reverse_reverse, List.append_assoc]

/-- What stands behind the first condition of a joined text goes on after it. -/
theorem IsSeam.follows (hseam : IsSeam join second) (first : List Char) :
    Follows (ending first ++ (join ++ second)) ∧
      (ending first ++ (join ++ second)).dropWhile Text.isBlank =
        (join ++ second).dropWhile Text.isBlank := by
  have hskipped : (ending first ++ (join ++ second)).dropWhile Text.isBlank =
      (join ++ second).dropWhile Text.isBlank :=
    List.dropWhile_append_of_pos fun c hmem => isBlank_of_mem_ending hmem
  obtain ⟨c, v, hrest, hplain⟩ := hseam.start
  refine ⟨⟨fun c hfirst => ?_, ?_⟩, hskipped⟩
  · rw [List.head?_append] at hfirst
    cases hblank : (ending first).head? with
    | none => exact hseam.breaks c (by simpa [hblank] using hfirst)
    | some d =>
      rw [hblank, Option.some_or, Option.some.injEq] at hfirst
      exact .inl (isBlank_of_mem_ending (hfirst ▸ List.mem_of_head? hblank))
  · rw [hskipped, hrest]
    exact hplain.valueAfter? v

/-! ## Reading a joined text -/

theorem exists_division {cs : List Char} {c : Condition} (hread : ofChars? cs = some c) :
    ∃ field op body, division? cs = some (field, op, body) ∧ Text.stripChars cs ≠ [] := by
  unfold ofChars? at hread
  dsimp only at hread
  split at hread
  · cases hread
  · rename_i hdivided
    refine ⟨_, _, _, hdivided, fun hblank => ?_⟩
    simp [hblank, divide?] at hdivided

theorem ofChars?_of_division?_eq_none {cs : List Char} (hundivided : division? cs = none) :
    ofChars? cs = none := by
  rw [division?] at hundivided
  simp [ofChars?, hundivided]

/-- What is read of a text with a division. -/
theorem ofChars?_of_division? {cs field body : List Char} {op : Comparator}
    (hdivided : division? cs = some (field, op, body)) (htrimmed : Text.stripChars body = body) :
    ofChars? cs =
      if Operand.unquote? body = none ∧ hasConnective body = true then none
      else some ⟨String.ofList field, op, Operand.ofChars body⟩ := by
  rw [division?] at hdivided
  cases hbare : Operand.unquote? body with
  | none => simp [ofChars?, hdivided, Operand.ofChars, htrimmed, hbare]
  | some literal => simp [ofChars?, hdivided, Operand.ofChars, htrimmed, hbare]

/-- A text with a division is read unless the value is bare and holds a connective. -/
theorem ofChars?_eq_none_iff {cs field body : List Char} {op : Comparator}
    (hdivided : division? cs = some (field, op, body)) (htrimmed : Text.stripChars body = body) :
    ofChars? cs = none ↔ Operand.unquote? body = none ∧ hasConnective body = true := by
  rw [ofChars?_of_division? hdivided htrimmed, ite_eq_left_iff, not_imp_comm]
  simp

theorem unquote?_eq_none_iff {q : Char} {cs : List Char} (honeLine : '\n' ∉ cs) :
    Operand.unquote? (q :: cs) = none ↔ ¬ ((q = '"' ∨ q = '\'') ∧ cs.getLast? = some q) := by
  have hinside : '\n' ∉ cs.dropLast := fun hmem => honeLine ((List.dropLast_prefix _).subset hmem)
  simp [Operand.unquote?, hinside]

theorem solid_stripChars (cs : List Char) : Solid (Text.stripChars cs) :=
  fun _ hlast => Text.getLast?_dropEndWhile hlast

theorem getLast?_join (hright : upToEnd second ≠ []) (front : List Char) :
    (front ++ upToEnd second).getLast? = (upToEnd second).getLast? := by
  rw [List.getLast?_append, List.getLast?_eq_some_getLast hright, Option.some_or]

theorem solid_join (hright : upToEnd second ≠ []) (front : List Char) :
    Solid (front ++ upToEnd second) := by
  intro c hlast
  rw [getLast?_join hright] at hlast
  exact Text.getLast?_dropEndWhile hlast

theorem Solid.stripChars_eq {cs : List Char} (hsolid : Solid cs)
    (hfirst : ∀ c, cs.head? = some c → Text.isBlank c = false) : Text.stripChars cs = cs :=
  Text.trimChars_eq_self hfirst hsolid

/-- The division of a joined text. -/
theorem division?_join (hleft : Text.stripChars first ≠ []) (hright : upToEnd second ≠ [])
    (hbreaks : Breaks (ending first ++ (join ++ upToEnd second))) :
    division? (first ++ join ++ second) =
      divide? (Text.stripChars first ++ (ending first ++ (join ++ upToEnd second)))
        ((Text.stripChars first).takeWhile isFieldChar).length := by
  rw [division?, stripChars_join hleft hright, hbreaks.takeWhile_isFieldChar]

/-- Behind a comparator that ends the first condition, a joined text is read as a condition unless
its value would hold a line feed or another connective. -/
theorem ofChars?_of_dangles (hjoins : IsConnective join) {k : Nat} {op : Comparator}
    (hdangles : Dangles (Text.stripChars first) k op) (hleft : Text.stripChars first ≠ [])
    (hright : upToEnd second ≠ []) :
    ofChars? (first ++ join ++ second) = none ↔
      '\n' ∈ upToEnd second ∨ hasConnective (fromWord join second) = true := by
  have hseam := hjoins.isSeam (upToEnd second)
  obtain ⟨hfollows, hrest⟩ := hseam.follows first
  obtain ⟨c, v, hstart, hplain⟩ := hseam.start
  have hdivided := hdangles.divide? hfollows (solid_stripChars first) (by simp [hrest, hstart])
  rw [← division?_join hleft hright hfollows.breaks, hrest] at hdivided
  by_cases hfeed : '\n' ∈ upToEnd second
  · rw [if_pos (hseam.feed hfeed)] at hdivided
    exact iff_of_true (ofChars?_of_division?_eq_none hdivided) (.inl hfeed)
  · have honeLine : '\n' ∉ (join ++ upToEnd second).dropWhile Text.isBlank := fun hmem =>
      (List.mem_append.1 ((List.dropWhile_suffix _).subset hmem)).elim hseam.noFeed hfeed
    rw [if_neg honeLine] at hdivided
    have hsolid := (solid_join hright join).of_suffix (List.dropWhile_suffix Text.isBlank)
    have htrimmed := hsolid.stripChars_eq (by rw [hstart]; rintro _ ⟨⟩; exact hplain.isBlank)
    rw [ofChars?_eq_none_iff hdivided htrimmed, or_iff_right hfeed, fromWord, hstart,
      and_iff_right (hplain.unquote? v)]

/-- Behind a value, a joined text is read as a condition if its second part closes a quote that the
value opens. -/
theorem ofChars?_of_not_dangles (hjoins : IsConnective join)
    (hapart : ∀ k op, ¬ Dangles (Text.stripChars first) k op) {field body : List Char}
    {op : Comparator} {q : Char} (hdivided : division? first = some (field, op, q :: body))
    (hleft : Text.stripChars first ≠ []) (hright : upToEnd second ≠ []) :
    ofChars? (first ++ join ++ second) = none ↔
      ('\n' ∈ ending first ++ upToEnd second ∨
        ¬ ((q = '"' ∨ q = '\'') ∧ (upToEnd second).getLast? = some q)) := by
  have hseam := hjoins.isSeam (upToEnd second)
  obtain ⟨hfollows, -⟩ := hseam.follows first
  obtain ⟨-, honeLine, hblankless⟩ := value_of_divide? hdivided
  have hwhole := hfollows.divide? (solid_stripChars first) (List.takeWhile_prefix _).length_le
    fun k hpositive hinside op hends => hapart k op ⟨hpositive, hinside, hends⟩
  rw [← division?_join hleft hright hfollows.breaks, ← division?, hdivided] at hwhole
  have hfeeds : '\n' ∈ ending first ++ (join ++ upToEnd second) ↔
      '\n' ∈ ending first ++ upToEnd second := by
    simp [hseam.noFeed]
  by_cases hfeed : '\n' ∈ ending first ++ upToEnd second
  · have hundivided : division? (first ++ join ++ second) = none := by
      simpa [hfeeds.2 hfeed] using hwhole
    exact iff_of_true (ofChars?_of_division?_eq_none hundivided) (.inl hfeed)
  · simp only [Option.bind_some, if_neg (hfeeds.not.2 hfeed)] at hwhole
    have hregroup : q :: body ++ (ending first ++ (join ++ upToEnd second)) =
        q :: (body ++ ending first ++ join ++ upToEnd second) := by simp
    have hsolid := solid_join hright (q :: body ++ ending first ++ join)
    have htrimmed := hsolid.stripChars_eq (by rintro _ ⟨⟩; exact hblankless q rfl)
    have hconnected :
        hasConnective (q :: (body ++ ending first ++ join ++ upToEnd second)) = true :=
      by simpa using hasConnective_append (q :: body ++ ending first) hseam.found
    have honeLine' : '\n' ∉ body ++ ending first ++ join ++ upToEnd second := by
      simp only [List.mem_append, List.mem_cons, not_or] at hfeed honeLine ⊢
      exact ⟨⟨⟨honeLine.2, hfeed.1⟩, hseam.noFeed⟩, hfeed.2⟩
    rw [hregroup] at hwhole
    rw [ofChars?_eq_none_iff hwhole htrimmed, or_iff_right hfeed, and_iff_left hconnected,
      unquote?_eq_none_iff honeLine', getLast?_join hright]

/-- Two conditions with a connective between them are read as no condition, except where the text
looks like a single comparison. -/
theorem ofChars?_join_eq_none_iff {a b : Condition} (hleft : ofChars? first = some a)
    (hright : ofChars? second = some b) (hjoins : IsConnective join) :
    ofChars? (first ++ join ++ second) = none ↔ ¬ Misread first join second := by
  obtain ⟨field, op, body, hdivided, hleft⟩ := exists_division hleft
  obtain ⟨-, -, -, -, hright⟩ := exists_division hright
  obtain ⟨hnonempty, -, -⟩ := value_of_divide? hdivided
  have hright' := upToEnd_ne_nil hright
  by_cases hdangling : ∃ k op, Dangles (Text.stripChars first) k op
  · obtain ⟨k, op, hdangles⟩ := hdangling
    rw [ofChars?_of_dangles hjoins hdangles hleft hright']
    constructor
    · rintro hkept (⟨-, -, -, hapart, -⟩ | ⟨-, hsingle, honeLine⟩)
      · exact hapart k op hdangles
      · rcases hkept with hfeed | hfound
        · exact honeLine hfeed
        · simp [hfound] at hsingle
    · intro hfine
      by_contra hneither
      rw [not_or, Bool.not_eq_true] at hneither
      exact hfine (.operand hdangles hneither.2 hneither.1)
  · have hapart : ∀ k op, ¬ Dangles (Text.stripChars first) k op := fun k op hdangles =>
      hdangling ⟨k, op, hdangles⟩
    obtain ⟨q, body, rfl⟩ := List.exists_cons_of_ne_nil hnonempty
    rw [ofChars?_of_not_dangles hjoins hapart hdivided hleft hright']
    constructor
    · rintro hkept (⟨hdivided', hquote, hclosed, -, honeLine⟩ | ⟨hdangles, -, -⟩)
      · cases hdivided.symm.trans hdivided'
        rcases hkept with hfeed | hdifferent
        · exact honeLine hfeed
        · exact hdifferent ⟨hquote, hclosed⟩
      · exact hapart _ _ hdangles
    · intro hfine
      by_contra hneither
      rw [not_or, not_not] at hneither
      exact hfine (.literal hdivided hneither.2.1 hneither.2.2 hapart hneither.1)

end Dialogue.Condition

namespace Dialogue

/-! ## What becomes of a joined text -/

theorem Flow.mem_expressionProblem_iff {i j : Nat} {text : String} {expr : Option String} :
    Flow.Problem.unreadableExpression i text ∈ Flow.expressionProblem j expr ↔
      i = j ∧ expr = some text ∧ Text.isBlankText text = false ∧ Condition.parse? text = none := by
  cases expr with
  | none => simp [Flow.expressionProblem]
  | some e =>
    by_cases hblank : Text.isBlankText e = true
    · simp only [Flow.expressionProblem, hblank, if_true, List.mem_singleton, reduceCtorEq,
        Option.some.injEq, false_iff, not_and]
      rintro - rfl
      simp [hblank]
    · rw [Bool.not_eq_true] at hblank
      rw [Flow.expressionProblem, if_neg (by simp [hblank])]
      cases hread : Condition.parse? e with
      | none =>
        simp only [Option.isNone_none, if_true, List.mem_singleton,
          Flow.Problem.unreadableExpression.injEq, Option.some.injEq]
        constructor
        · rintro ⟨rfl, rfl⟩
          exact ⟨rfl, rfl, hblank, hread⟩
        · rintro ⟨rfl, rfl, -, -⟩
          exact ⟨rfl, rfl⟩
      | some c =>
        simp only [Option.isNone_some, Bool.false_eq_true, if_false, List.not_mem_nil,
          Option.some.injEq, false_iff, not_and]
        rintro - rfl - hunread
        simp [hread] at hunread

theorem Flow.notMem_targetProblem {flow : Flow} {i j : Nat} {text label : String}
    {target : Option Int} :
    Flow.Problem.unreadableExpression i text ∉ flow.targetProblem j label target := by
  unfold Flow.targetProblem
  split
  · simp
  · split <;> simp

/-- The check of a flow reports the text of a condition that is not blank if it cannot be read. -/
theorem Flow.mem_problems_iff {flow : Flow} {i : Nat} {s : Step} {text : String}
    {thenTarget elseTarget : Option Int} (here : flow.steps[i]? = some (.step s))
    (haction : s.action = .condition (some text) thenTarget elseTarget)
    (hwritten : Text.isBlankText text = false) :
    Flow.Problem.unreadableExpression i text ∈ flow.problems ↔ Condition.parse? text = none := by
  constructor
  · intro hmem
    rw [Flow.problems, List.mem_append, List.mem_append] at hmem
    rcases hmem with (hmem | hmem) | hmem
    · split at hmem <;> simp at hmem
    · obtain ⟨⟨entry, j⟩, -, hmem⟩ := List.mem_flatMap.1 hmem
      dsimp only at hmem
      unfold Flow.entryProblems at hmem
      split at hmem
      · simp at hmem
      · split at hmem
        · simp only [List.mem_append] at hmem
          rcases hmem with (hmem | hmem) | hmem
          · exact (Flow.mem_expressionProblem_iff.1 hmem).2.2.2
          · exact absurd hmem Flow.notMem_targetProblem
          · exact absurd hmem Flow.notMem_targetProblem
        · simp at hmem
    · simp at hmem
  · intro hunread
    refine List.mem_append_left _ (List.mem_append_right _ (List.mem_flatMap.2 ?_))
    refine ⟨(.step s, i), List.mk_mem_zipIdx_iff_getElem?.2 here, ?_⟩
    have hmem : Flow.Problem.unreadableExpression i text ∈ Flow.expressionProblem i (some text) :=
      Flow.mem_expressionProblem_iff.2 ⟨rfl, rfl, hwritten, hunread⟩
    simp [Flow.entryProblems, haction, hmem]

/-- A connective that joins two conditions makes no condition of them, except where the text looks
like a single comparison; and what is no condition holds of no data and is reported. -/
theorem Condition.parse?_join_eq_none_iff {a b : Condition} {first join second : String}
    (hleft : parse? first = some a) (hright : parse? second = some b)
    (hjoins : IsConnective join.toList) :
    (parse? (first ++ join ++ second) = none ↔
      ¬ Misread first.toList join.toList second.toList) ∧
    (¬ Misread first.toList join.toList second.toList →
      ∀ data, Turn.holds (some (first ++ join ++ second)) data = false) ∧
    ∀ (flow : Flow) (i : Nat) (s : Step) (thenTarget elseTarget : Option Int),
      flow.steps[i]? = some (.step s) →
      s.action = .condition (some (first ++ join ++ second)) thenTarget elseTarget →
      (.unreadableExpression i (first ++ join ++ second) ∈ flow.problems ↔
        ¬ Misread first.toList join.toList second.toList) := by
  have hnone_iff : parse? (first ++ join ++ second) = none ↔
      ¬ Misread first.toList join.toList second.toList := by
    rw [parse?, String.toList_append, String.toList_append]
    exact ofChars?_join_eq_none_iff hleft hright hjoins
  have hwritten : Text.isBlankText (first ++ join ++ second) = false := by
    obtain ⟨-, -, -, -, hsome⟩ := exists_division hleft
    rw [← Bool.not_eq_true, Text.isBlankText, String.toList_append, String.toList_append,
      List.append_assoc, List.all_append, Bool.and_eq_true, not_and_or]
    left
    intro hblank
    have hnothing : first.toList.dropWhile Text.isBlank = [] :=
      List.dropWhile_eq_nil_iff.2 (List.all_eq_true.1 hblank)
    exact hsome (by rw [Text.stripChars, Text.trimChars, hnothing, Text.dropEndWhile_nil])
  refine ⟨hnone_iff, fun hfine data => ?_, fun flow i s thenTarget elseTarget here haction => ?_⟩
  · simp [Turn.holds, hnone_iff.2 hfine]
  · rw [Flow.mem_problems_iff here haction hwritten, hnone_iff]

/-- The end of the second condition closes the quote that the value of the first opens. -/
theorem Condition.parse?_join_eq_none_iff_quoted :
    (parse? "a == \"x\"").isSome ∧ (parse? "b == \"y\"").isSome ∧
      Misread "a == \"x\"".toList " and ".toList "b == \"y\"".toList := by
  have hleft? : (parse? "a == \"x\"").isSome := by decide +kernel
  have hright? : (parse? "b == \"y\"").isSome := by decide +kernel
  obtain ⟨a, hleft⟩ := Option.isSome_iff_exists.1 hleft?
  obtain ⟨b, hright⟩ := Option.isSome_iff_exists.1 hright?
  have hjoins : IsConnective " and ".toList := .word (w := "and".toList) (.inl rfl)
  have hread : parse? ("a == \"x\"" ++ " and " ++ "b == \"y\"") ≠ none := by decide +kernel
  refine ⟨hleft?, hright?, ?_⟩
  by_contra hfine
  exact hread ((parse?_join_eq_none_iff hleft hright hjoins).1.2 hfine)

/-- A comparator at the end of the first condition takes the word for the start of its value. -/
example : (Condition.parse? "a >= and b == 3").map (fun c => (c.field, c.op, c.value.text)) =
    some ("a", .ge, "and b == 3") := by decide +kernel

/-- Not every text in which a connective joins two conditions is read as no condition. -/
theorem Condition.not_parse?_join_eq_none :
    ¬ ∀ (a b : Condition) (first join second : String), parse? first = some a →
      parse? second = some b → IsConnective join.toList →
        parse? (first ++ join ++ second) = none := by
  intro hrejected
  have hleft? : (parse? "a == \"x\"").isSome := by decide +kernel
  have hright? : (parse? "b == \"y\"").isSome := by decide +kernel
  obtain ⟨a, hleft⟩ := Option.isSome_iff_exists.1 hleft?
  obtain ⟨b, hright⟩ := Option.isSome_iff_exists.1 hright?
  have hread : parse? ("a == \"x\"" ++ " and " ++ "b == \"y\"") ≠ none := by decide +kernel
  exact hread (hrejected a b _ _ _ hleft hright (.word (w := "and".toList) (.inl rfl)))

end Dialogue

import Dialogue.Proofs.Json.Number
import Dialogue.Proofs.Settings.Making
import Dialogue.Proofs.Text.Character
import Dialogue.Yaml.Literal

/-!
# Settings from variables

What a scalar of a settings file is written as may also be held by a variable, to which the file
then refers.  The variable puts in a text, which may be taken for something else than the scalar.

For a text it makes no difference, wherever it stands (`same_settings_iff`).  A truth value or an
integer has to be a setting that makes the same of the text as of the value (`Setting.Takes`): the
bound on hops reads integers out of texts again, while every text that is not empty counts as true
(`debug_of_false`) and most settings keep the text as it is.

Integers in digits are read out of texts as they are (`integer?_toString`); an integer that is
written in another base is not.
-/

namespace Dialogue.Text

open Json (Digits digits_toDigits ofNumerals_toDigits)

variable {cs : List Char}

/-! ## Digits -/

theorem bounds_of_isAsciiDigit {c : Char} (hdigit : isAsciiDigit c = true) :
    0x30 ≤ c.toNat ∧ c.toNat ≤ 0x39 := by
  simp only [isAsciiDigit, Bool.and_eq_true, decide_eq_true_eq] at hdigit
  exact hdigit

theorem isAsciiDigit_eq_false {c : Char} (houtside : c.toNat < 0x30 ∨ 0x39 < c.toNat) :
    isAsciiDigit c = false :=
  Bool.eq_false_iff.2 fun hdigit => by
    have := bounds_of_isAsciiDigit hdigit
    omega

theorem digit?_of_isAsciiDigit {c : Char} (hdigit : isAsciiDigit c = true) :
    digit? c = some (c.toNat - 48) := by
  obtain ⟨hlow, high⟩ := bounds_of_isAsciiDigit hdigit
  have hfirst : digitRanges.find? (fun r => r.1 ≤ c.toNat && c.toNat ≤ r.2) = some (0x30, 0x39) :=
    List.find?_cons_of_pos (by simp [hlow, high])
  rw [digit?, hfirst]
  simp only [Option.map_some, Option.some.injEq]
  omega

theorem groupedDigits?_of_digits (hdigits : Digits cs) (hnonempty : cs ≠ []) :
    groupedDigits? cs = some (cs.map fun c => c.toNat - 48) := by
  induction cs with
  | nil => contradiction
  | cons c rest ih =>
    have hfirst := digit?_of_isAsciiDigit (hdigits c List.mem_cons_self)
    cases rest with
    | nil => simp [groupedDigits?, hfirst]
    | cons d more =>
      have hlater : Digits (d :: more) := fun e hmem => hdigits e (List.mem_cons_of_mem c hmem)
      have hnoLine : d ≠ '_' := by
        rintro rfl
        exact absurd (hlater '_' List.mem_cons_self) (by decide)
      rw [groupedDigits?]
      · simp [hfirst, ih hlater (List.cons_ne_nil d more)]
      · exact List.cons_ne_nil d more
      · rintro _ ⟨⟩
        exact hnoLine rfl

theorem groupedDigits?_eq_none {c : Char} {rest : List Char} (hnoDigit : digit? c = none) :
    groupedDigits? (c :: rest) = none := by
  unfold groupedDigits?
  split <;> simp_all

theorem ofDigits_eq_ofNumerals (cs : List Char) :
    ofDigits (cs.map fun c => c.toNat - 48) = ofNumerals cs := by
  rw [ofDigits, List.foldl_map, ofNumerals]

/-! ## Integers -/

/-- A text without white space around it is read as it is. -/
theorem integer?_of_noBlank {s : String} (hnoBlank : ∀ c ∈ s.toList, isBlank c = false) :
    integer? s =
      (groupedDigits? (splitSign s.toList).2).map fun ds =>
        signed (splitSign s.toList).1 (ofDigits ds) := by
  have hpadding : ∀ c ∈ s.toList, isPadding c = false := fun c hmem => by
    rw [isPadding, hnoBlank c hmem, Bool.false_and]
  have htrimmed : trimChars isPadding s.toList = s.toList :=
    trimChars_eq_self (fun c hfirst => hpadding c (List.mem_of_head? hfirst))
      (fun c hlast => hpadding c (List.mem_of_getLast? hlast))
  rw [integer?, htrimmed]

theorem splitSign_of_ne {c : Char} {rest : List Char} (hnoMinus : c ≠ '-') (hnoPlus : c ≠ '+') :
    splitSign (c :: rest) = (false, c :: rest) := by
  unfold splitSign
  split <;> simp_all

theorem splitSign_of_digits (hdigits : Digits cs) : splitSign cs = (false, cs) := by
  cases cs with
  | nil => rfl
  | cons c rest =>
    have hdigit := hdigits c List.mem_cons_self
    refine splitSign_of_ne ?_ ?_ <;> rintro rfl <;> exact absurd hdigit (by decide)

theorem integer?_toString (n : Int) : integer? (toString n) = some n := by
  have hnoBlank {c : Char} (hmark : c = '-' ∨ isAsciiDigit c = true) : isBlank c = false := by
    rcases hmark with rfl | hdigit
    · decide
    · exact isBlank_of_isDigit (isDigit_of_isAsciiDigit hdigit)
  have hread (m : Nat) : groupedDigits? (Nat.toDigits 10 m) =
      some ((Nat.toDigits 10 m).map fun c => c.toNat - 48) :=
    groupedDigits?_of_digits (digits_toDigits m) Nat.toDigits_ne_nil
  rw [Int.toString_eq_repr, Int.repr_eq_if]
  split
  · rename_i hnonneg
    rw [integer?_of_noBlank fun c hmem => hnoBlank
      (.inr (digits_toDigits _ c (by simpa using hmem))),
      Nat.toList_repr, splitSign_of_digits (digits_toDigits _), hread]
    simp [ofDigits_eq_ofNumerals, signed, Int.toNat_of_nonneg hnonneg]
  · rename_i hnegative
    rw [integer?_of_noBlank fun c hmem => ?_, String.toList_append, Nat.toList_repr]
    · have hsign : splitSign ("-".toList ++ Nat.toDigits 10 (-n).toNat) =
          (true, Nat.toDigits 10 (-n).toNat) := rfl
      simp only [hsign, hread, Option.map_some, ofDigits_eq_ofNumerals, ofNumerals_toDigits, signed,
        if_true, Option.some.injEq]
      omega
    · simp only [String.toList_append, Nat.toList_repr, List.mem_append] at hmem
      exact hnoBlank (hmem.imp (by simp) (digits_toDigits _ c))

/-- A text whose characters stand between the capital and the small letters of ASCII is read as no
integer. -/
theorem integer?_eq_none {s : String}
    (hletters : ∀ c ∈ s.toList, 0x41 ≤ c.toNat ∧ c.toNat ≤ 0x7A) : integer? s = none := by
  have hnoBlank : ∀ c ∈ s.toList, isBlank c = false := by
    intro c hmem
    have := hletters c hmem
    refine Bool.eq_false_iff.2 fun hblank => ?_
    simp only [isBlank, Bool.or_eq_true, Bool.and_eq_true, decide_eq_true_eq, beq_iff_eq] at hblank
    omega
  rw [integer?_of_noBlank hnoBlank]
  cases hchars : s.toList with
  | nil => rfl
  | cons c rest =>
    obtain ⟨hlow, high⟩ := hletters c (by simp [hchars])
    have hnoDigit : digit? c = none := by
      have hother : isDigit c = false := by
        rw [isDigit_eq_isAsciiDigit (by omega), isAsciiDigit_eq_false (by omega)]
      simpa [isDigit] using hother
    have hsign : splitSign (c :: rest) = (false, c :: rest) := by
      refine splitSign_of_ne ?_ ?_ <;> rintro rfl <;> exact absurd hlow (by decide)
    rw [hsign, groupedDigits?_eq_none hnoDigit, Option.map_none]

end Dialogue.Text

namespace Dialogue.Settings

variable {env : Environment} {v w x : Value} {s : String} {settings : Settings}

/-! ## Scalars and how they are written -/

/-- A scalar that is written as the text and stands for the value: a truth value, an integer or a
text. -/
inductive Written : Value → String → Prop
  | bool {b : Bool} {s : String} : Yaml.Kind.bool.read s = .ok (.bool b) → Written (.bool b) s
  | int {n : Int} {s : String} : Yaml.Kind.integer.read s = .ok (.int n) → Written (.int n) s
  | text (s : String) : Written (.str s) s

theorem read_bool_eq_ok_iff {b : Bool} :
    Yaml.Kind.bool.read s = .ok (.bool b) ↔ Yaml.boolWords.lookup s.toLower = some b := by
  rw [Yaml.Kind.read]
  cases Yaml.boolWords.lookup s.toLower <;> simp

theorem mem_boolWords {b : Bool} (hread : Yaml.Kind.bool.read s = .ok (.bool b)) :
    (s.toLower, b) ∈ Yaml.boolWords := by
  obtain ⟨before, after, hwords, -⟩ := List.lookup_eq_some_iff.1 (read_bool_eq_ok_iff.1 hread)
  simp [hwords]

theorem integer?_of_read_bool {b : Bool} (hread : Yaml.Kind.bool.read s = .ok (.bool b)) :
    Text.integer? s = none := by
  have hwords : (Yaml.boolWords.all fun e =>
      e.1.toList.all fun c => 0x61 ≤ c.toNat && c.toNat ≤ 0x7A) = true := by decide +kernel
  refine Text.integer?_eq_none fun c hmem => ?_
  have hlower : c.toLower ∈ s.toLower.toList := by
    change c.toLower ∈ (s.map Char.toLower).toList
    rw [String.toList_map]
    exact List.mem_map_of_mem hmem
  have hbounds := List.all_eq_true.1 (List.all_eq_true.1 hwords _ (mem_boolWords hread)) _ hlower
  simp only [Bool.and_eq_true, decide_eq_true_eq, Text.toNat_toLower] at hbounds
  split at hbounds <;> omega

theorem Written.ne_default (hwritten : Written x s) (hkind : x ≠ .str s) :
    s.isEmpty = false ∧ s ≠ "FlowEngine" ∧ s ≠ "default" := by
  have hdefaults : s ∉ ["", "FlowEngine", "default"] := by
    cases hwritten with
    | bool hread =>
      have hwords : ∀ d ∈ ["", "FlowEngine", "default"],
          d.toLower ∉ Yaml.boolWords.map (·.1) := by decide +kernel
      exact fun hmem => hwords s hmem (List.mem_map_of_mem (mem_boolWords hread))
    | int hread =>
      have hnumbers : ∀ d ∈ ["", "FlowEngine", "default"],
          (Yaml.integer d.toList).isOk = false := by decide
      intro hmem
      have := hnumbers s hmem
      simp only [Yaml.Kind.read] at hread
      cases hnumber : Yaml.integer s.toList <;> simp_all [Except.map, Except.isOk, Except.toBool]
    | text => exact absurd rfl hkind
  simpa [Bool.eq_false_iff, String.isEmpty_iff] using hdefaults

/-! ## What settings make of a text -/

namespace Setting

/-- Where the scalars of a setting stand in its entry: the entry is a scalar itself, except for the
mapping of intents, which has one for each. -/
inductive Holds : Setting → List Branch → Prop
  | scalar {f : Setting} : f ≠ .intentMap → Holds f []
  | intent (key : Value) : Holds .intentMap [.entry key]

/-- The same becomes of the setting for the text as for the value. -/
def Takes (s : String) : Setting → Value → Prop
  | .debug, .bool b => b = true
  | .debug, .int n => n ≠ 0
  | .debug, .str t => t = "" ↔ s = ""
  | .maxConditionHops, .int n => Text.integer? s = some n
  | .maxConditionHops, .str t => Text.integer? s = Text.integer? t
  | .level, v => Text.upper s = Text.upper v.display
  | _, v => v = .str s

end Setting

theorem toTarget_str_eq_ok_iff {n : Int} :
    Step.Draft.toTarget (.str s) = .ok n ↔ Text.integer? s = some n := by
  rw [Step.Draft.toTarget]
  cases hread : Text.integer? s <;> simp

/-- The empty text stands for a default that is not written itself. -/
theorem orElse_eq_iff {d : String} (hdefault : d = "FlowEngine" ∨ d = "default")
    (hwritten : Written x s) :
    (expand env x).orElse (.str d) = (Value.str s).orElse (.str d) ↔ expand env x = .str s := by
  have hapart (hkind : x ≠ .str s) : s.isEmpty = false ∧ s ≠ d := by
    obtain ⟨hfull, hne, hne'⟩ := hwritten.ne_default hkind
    exact ⟨hfull, hdefault.elim (· ▸ hne) (· ▸ hne')⟩
  cases hwritten with
  | @bool b =>
    obtain ⟨hfull, hne⟩ := hapart (by simp)
    cases b <;> simp [expand, Value.orElse, Value.isEmpty, hfull, hne.symm]
  | @int n =>
    obtain ⟨hfull, hne⟩ := hapart (by simp)
    by_cases hzero : n = 0 <;> simp [expand, Value.orElse, Value.isEmpty, hfull, hne.symm, hzero]
  | text =>
    have hkept : expand env (.str d) = .str d := by
      have hplain : references d.toList = [] := by rcases hdefault with rfl | rfl <;> decide
      rw [expand, expandChars_of_unset (by simp [hplain]), String.ofList_toList]
    refine ⟨fun hsame => ?_, fun hsame => by rw [hsame]⟩
    rw [expand] at hsame ⊢
    by_cases hempty : s.isEmpty = true
    · obtain rfl := String.isEmpty_iff.1 hempty
      rfl
    · by_cases hcleared : (String.ofList (expandChars env 0 s.toList)).isEmpty = true
      · obtain rfl : d = s := by simpa [Value.orElse, Value.isEmpty, hcleared, hempty] using hsame
        exact hkept
      · simpa [Value.orElse, Value.isEmpty, hcleared, hempty] using hsame

/-- A setting that was made of a scalar is made of the text, too, exactly if it takes the text. -/
theorem gives_str_iff {f : Setting} (hsingle : f ≠ .intentMap)
    (hwritten : Written x s) (hgives : f.Gives settings (expand env x)) :
    f.Gives settings (.str s) ↔ f.Takes s (expand env x) := by
  have hpresent : ∀ default, orDefault (expand env x) default = expand env x := by
    cases hwritten <;> exact fun _ => rfl
  cases f with
  | intentMap => contradiction
  | appName =>
    simp only [Setting.Gives, Setting.Takes] at hgives ⊢
    rw [hgives, orElse_eq_iff (.inl rfl) hwritten]
  | activeTenant =>
    simp only [Setting.Gives, Setting.Takes] at hgives ⊢
    rw [hgives, orElse_eq_iff (.inr rfl) hwritten]
  | level =>
    simp only [Setting.Gives, Setting.Takes, hpresent] at hgives ⊢
    rw [hgives, eq_comm]
    rfl
  | debug =>
    simp only [Setting.Gives] at hgives ⊢
    rw [hgives]
    cases hwritten with
    | bool hread =>
      obtain ⟨hfull, -⟩ := (Written.bool hread).ne_default (by simp)
      simp [expand, Setting.Takes, Value.isEmpty, hfull]
    | int hread =>
      obtain ⟨hfull, -⟩ := (Written.int hread).ne_default (by simp)
      simp [expand, Setting.Takes, Value.isEmpty, hfull]
    | text =>
      simp only [expand, Setting.Takes, Value.isEmpty]
      rw [← String.isEmpty_iff, ← String.isEmpty_iff, Bool.not_inj_iff, Bool.eq_iff_iff]
  | maxConditionHops =>
    simp only [Setting.Gives, hpresent] at hgives ⊢
    change Step.Draft.toTarget (.str s) = _ ↔ _
    rw [toTarget_str_eq_ok_iff]
    cases hwritten with
    | bool hread => simp [integer?_of_read_bool hread, Setting.Takes, expand]
    | int hread =>
      cases hgives
      rfl
    | text =>
      rw [expand, toTarget_str_eq_ok_iff] at hgives
      rw [← hgives, expand, Setting.Takes]
  | url | storeBackend | storeFileDir | defaultPreset | active | json =>
    simp only [Setting.Gives, Setting.Takes, hpresent] at hgives ⊢
    rw [hgives]
    rfl

/-- The intents are the same exactly if the scalars are. -/
theorem gives_intents_iff {key y : Value} (hswap : Swap x y [.entry key] v w)
    (hgives : Setting.intentMap.Gives settings v) :
    Setting.intentMap.Gives settings w ↔ x = y := by
  obtain ⟨hfull, hfull'⟩ := hswap.isEmpty_eq (List.cons_ne_nil _ _)
  simp only [Setting.Gives] at hgives ⊢
  cases hswap with
  | field before after hfresh hinner =>
    cases hinner
    simp only [orDefault, mapping, hfull, hfull', Value.entries?] at hgives ⊢
    simp [← Except.ok.inj hgives, Value.Entries.ofFields, eq_comm]
  | entry before after hfresh hinner =>
    cases hinner
    simp only [orDefault, mapping, hfull, hfull', Value.entries?] at hgives ⊢
    simp [← Except.ok.inj hgives, eq_comm]

/-! ## Settings from variables -/

/-- A variable is set to what a scalar is written as, and a reference to it takes the place of the
scalar.  For a text that refers to no variable that is set this makes no difference anywhere in a
file, and for the scalar of a setting it makes none exactly if the setting takes the text for the
value.  The other variables to which the file refers stay as they were. -/
theorem same_settings_iff {before env : Environment} {name s : String} (hnamed : IsName name)
    (hset : env.get? name = some s) :
    (∀ {path : List Branch} {v w : Value}, path ≠ [] →
      (∀ other ∈ references s.toList, env.get? other = none) →
      (∀ other ∈ mentions v, before.get? other = env.get? other) →
      Swap (.str s) (.str (referenceTo name)) path v w → ofValue env w = ofValue before v) ∧
    ∀ {f : Setting} {rest : List Branch} {x v w : Value} {settings : Settings},
      Written x s → f.Holds rest →
      (∀ other ∈ mentions v, before.get? other = env.get? other) →
      Swap x (.str (referenceTo name)) (f.path ++ rest) v w → ofValue before v = .ok settings →
      (ofValue env w = .ok settings ↔ f.Takes s (expand env x)) := by
  have hreference := expand_referenceTo hnamed hset
  refine ⟨fun hinside hplain hagree hswap => ?_, fun hwritten holds hagree hswap hread => ?_⟩
  · rw [ofValue_congr hagree]
    refine (ofValue_eq_of_swap hswap hinside ?_).symm
    rw [hreference, expand, expandChars_of_unset hplain, String.ofList_toList]
  · rw [ofValue_congr hagree] at hread
    obtain ⟨u, u', hinner, hgives, hsame⟩ := ofValue_eq_ok_iff_of_swap hswap hread
    rw [hreference] at hinner
    rw [hsame]
    cases holds with
    | scalar hsingle =>
      cases hinner
      exact gives_str_iff hsingle hwritten hgives
    | intent key => exact gives_intents_iff hinner hgives

/-- The address of the database and the bound on hops may be held by variables. -/
theorem same_settings_url_and_hops :
    ofValue [("URL", "sqlite:///./test.db")]
        (.dict [("database", .dict [("url", .str (referenceTo "URL"))])]) =
      ofValue [] (.dict [("database", .dict [("url", .str "sqlite:///./test.db")])]) ∧
    ofValue [("HOPS", "25")]
        (.dict [("flows", .dict [("max_condition_hops", .str (referenceTo "HOPS"))])]) =
      .ok { flows := { maxConditionHops := 25 } } := by
  constructor
  · exact (same_settings_iff (isName_of_all (by decide) (by decide +kernel)) rfl).1
      (List.cons_ne_nil _ _) (by decide) (by decide)
      (.field [] [] rfl (.field [] [] rfl .here))
  · have hread : ofValue [] (.dict [("flows", .dict [("max_condition_hops", .int 25)])]) =
      .ok { flows := { maxConditionHops := 25 } } := rfl
    exact ((same_settings_iff (isName_of_all (by decide) (by decide +kernel)) rfl).2
      (f := .maxConditionHops) (.int rfl) (.scalar (by simp)) (by decide)
      (.field [] [] rfl (.field [] [] rfl .here)) hread).2 (Text.integer?_toString 25)

/-- A variable that holds `false` turns on what `false` in the file turns off. -/
theorem debug_of_false : ¬ ∀ (before env : Environment) (name s : String) (f : Setting)
    (rest : List Branch) (x v w : Value) (settings : Settings), IsName name →
    env.get? name = some s → Written x s → f.Holds rest →
    (∀ other ∈ mentions v, before.get? other = env.get? other) →
    Swap x (.str (referenceTo name)) (f.path ++ rest) v w → ofValue before v = .ok settings →
    ofValue env w = .ok settings := by
  intro halways
  have hsame := halways [] [("V", "false")] "V" "false" .debug [] (.bool false)
    (.dict [("debug", .bool false)]) (.dict [("debug", .str (referenceTo "V"))]) {}
    (isName_of_all (by decide) (by decide +kernel)) rfl
    (.bool (read_bool_eq_ok_iff.2 (by decide +kernel))) (.scalar (by simp)) (by decide)
    (.field [] [] rfl .here) rfl
  have hdebug : (ofValue [("V", "false")] (.dict [("debug", .str (referenceTo "V"))])).toOption.map
      (·.debug) = some true := by decide +kernel
  rw [hsame] at hdebug
  exact absurd hdebug (by decide)

end Dialogue.Settings

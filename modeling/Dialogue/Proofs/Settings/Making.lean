import Dialogue.Proofs.Keyed
import Dialogue.Proofs.Step.Grammar
import Dialogue.Settings.Load

/-!
# What settings are made from

A text that refers to no variable that is set stays as it is (`expandChars_of_unset`), and a text
that is nothing but the reference to a variable becomes the value of the variable
(`expand_referenceTo`).  Variables to which no text of a file refers do not matter for what is read
from it (`ofValue_congr`).

Two files may be alike except for one place (`Swap`): a path leads there, and what stands at its end
is one value in the first file and another one in the second.  Replacing references keeps this shape
(`Swap.expand`), so files whose two values become the same when references are replaced are read
alike (`ofValue_eq_of_swap`).

Every setting is made from one entry of the file, which stands in one of its parts
(`Setting.find`).  `Setting.Gives` relates what stands there to the setting that is made from it,
and a file is read as settings if the entry of every setting is found and gives that setting
(`ofValue_eq_ok_iff`).  So where two files differ in one place inside the entry of a setting, that
setting alone decides whether they are read as the same settings (`ofValue_eq_ok_iff_of_swap`).
-/

namespace Dialogue

/-! ## Entries with texts as keys -/

namespace Value

@[simp] theorem Entries.texts_ofFields (fields : Fields) : (ofFields fields).texts = fields := by
  simp [Entries.ofFields, Entries.texts, List.filterMap_map, text?]

theorem sameKey_str (key : Value) (k : String) :
    key.sameKey (.str k) = true ↔ key = .str k := by
  cases key with
  | str s =>
    have htexts : (Value.str s == .str k) = (s == k) := by simp only [BEq.beq, eq]
    simp [sameKey, keyInteger?, htexts]
  | double d =>
    simp only [sameKey, keyInteger?]
    cases d.integer? <;> simp [BEq.beq, eq]
  | _ => simp [sameKey, keyInteger?, BEq.beq, eq]

theorem Entries.get?_texts (entries : Entries) (k : String) :
    entries.texts.get? k = Entries.get? entries (.str k) := by
  induction entries with
  | nil => rfl
  | cons e rest ih =>
    obtain ⟨key, v⟩ := e
    by_cases hsame : key = .str k
    · subst hsame
      simp [Entries.texts, text?, Keyed.get?, Entries.get?, (sameKey_str _ _).2]
    · have hstep : Entries.get? ((key, v) :: rest) (.str k) = Entries.get? rest (.str k) :=
        if_neg (by rwa [sameKey_str])
      rw [hstep, ← ih]
      cases key with
      | str s => simp_all [Entries.texts, text?, Keyed.get?]
      | _ => simp [Entries.texts, text?]

theorem Entries.get?_map (f : Value → Value) (entries : Entries) (key : Value) :
    Entries.get? (entries.map fun e => (e.1, f e.2)) key = (Entries.get? entries key).map f := by
  induction entries with
  | nil => rfl
  | cons e rest ih =>
    obtain ⟨k, v⟩ := e
    by_cases hsame : k.sameKey key = true <;> simp [Entries.get?, hsame, ih]

end Value

namespace Fields

theorem getD_append_cons {before : Fields} {k : String} (after : Fields) (v : Value)
    (hfresh : before.get? k = none) : getD (before ++ (k, v) :: after) k = v := by
  simp [getD, Keyed.get?_append, hfresh, Keyed.get?]

theorem getD_append_cons_of_ne {k other : String} (before after : Fields) (v : Value)
    (hdifferent : other ≠ k) :
    getD (before ++ (k, v) :: after) other = getD (before ++ after) other := by
  simp [getD, Keyed.get?_append, Keyed.get?, hdifferent.symm]

end Fields

namespace Settings

/-! ## References -/

/-- A name to which texts can refer. -/
structure IsName (name : String) : Prop where
  nonempty : name ≠ ""
  chars : ∀ c ∈ name.toList, Text.isWord c = true

theorem isName_of_all {name : String} (hnonempty : name ≠ "")
    (hall : name.toList.all Text.isWord = true) : IsName name :=
  ⟨hnonempty, List.all_eq_true.1 hall⟩

/-- The reference to a variable. -/
def referenceTo (name : String) : String := "$\x7b" ++ name ++ "\x7d"

variable {env before : Environment}

theorem toList_referenceTo (name : String) :
    (referenceTo name).toList = '$' :: '\x7b' :: (name.toList ++ ['\x7d']) := by
  simp [referenceTo]

theorem reference?_referenceTo {name : String} (hnamed : IsName name) :
    reference? (referenceTo name).toList = some (name.toList, []) := by
  have hends : ∀ c, (['\x7d'] : List Char).head? = some c → Text.isWord c = false := by
    rintro c ⟨⟩
    decide +kernel
  have hnonempty : name.toList ≠ [] := by simpa using hnamed.nonempty
  simp only [toList_referenceTo, reference?, Text.takeWhile_append_of_ends hnamed.chars hends,
    Text.dropWhile_append_of_ends hnamed.chars hends, List.isEmpty_iff, hnonempty, if_false]

theorem expandChars_skip (skip : Nat) (cs : List Char) :
    expandChars env skip cs = expandChars env 0 (cs.drop skip) := by
  induction cs generalizing skip with
  | nil => simp [expandChars]
  | cons c rest ih =>
    cases skip with
    | zero => rfl
    | succ skip => rw [expandChars, ih, List.drop_succ_cons]

theorem expand_referenceTo {name s : String} (hnamed : IsName name)
    (hset : env.get? name = some s) :
    expand env (.str (referenceTo name)) = .str s := by
  have hfound := reference?_referenceTo hnamed
  rw [toList_referenceTo] at hfound
  have hbehind : (name.toList ++ ['\x7d']).drop (name.toList.length + 1) = [] :=
    List.drop_eq_nil_of_le (by simp)
  simp only [expand, toList_referenceTo, expandChars, hfound, String.ofList_toList, hset]
  rw [expandChars_skip, hbehind, expandChars, List.append_nil, String.ofList_toList]

theorem references_subset (c : Char) (rest : List Char) :
    references rest ⊆ references (c :: rest) := by
  rw [references]
  split
  · exact List.subset_cons_self _ _
  · exact List.Subset.refl _

/-- Only the variables to which a text refers matter. -/
theorem expandChars_congr {cs : List Char} (skip : Nat)
    (hagree : ∀ name ∈ references cs, before.get? name = env.get? name) :
    expandChars before skip cs = expandChars env skip cs := by
  induction cs generalizing skip with
  | nil => simp [expandChars]
  | cons c rest ih =>
    have hlater (skip : Nat) : expandChars before skip rest = expandChars env skip rest :=
      ih skip fun name hmem => hagree name (references_subset c rest hmem)
    cases skip with
    | succ skip => exact hlater skip
    | zero =>
      cases hfound : reference? (c :: rest) with
      | none => simp only [expandChars, hfound, hlater]
      | some r =>
        have here : before.get? (String.ofList r.1) = env.get? (String.ofList r.1) :=
          hagree _ (by simp [references, hfound])
        simp only [expandChars, hfound, here, hlater]

theorem expandChars_nil (cs : List Char) : expandChars [] 0 cs = cs := by
  induction cs with
  | nil => rfl
  | cons c rest ih =>
    cases hfound : reference? (c :: rest) <;> simp [expandChars, hfound, Keyed.get?, ih]

theorem expandChars_of_unset {cs : List Char}
    (hunset : ∀ name ∈ references cs, env.get? name = none) : expandChars env 0 cs = cs := by
  have hagree : ∀ name ∈ references cs, Keyed.get? ([] : Environment) name = env.get? name :=
    fun name hmem => (hunset name hmem).symm
  rw [← expandChars_congr 0 hagree, expandChars_nil]

mutual
/-- The names of all variables to which texts of a value refer. -/
def mentions : Value → List String
  | .str s => references s.toList
  | .list items => mentionsList items
  | .dict fields => mentionsFields fields
  | .table entries => mentionsEntries entries
  | _ => []

/-- `mentions` of all items. -/
def mentionsList : List Value → List String
  | [] => []
  | v :: rest => mentions v ++ mentionsList rest

/-- `mentions` of the value of every entry. -/
def mentionsFields : List (String × Value) → List String
  | [] => []
  | (_, v) :: rest => mentions v ++ mentionsFields rest

/-- `mentions` of the value of every entry of a table. -/
def mentionsEntries : List (Value × Value) → List String
  | [] => []
  | (_, v) :: rest => mentions v ++ mentionsEntries rest
end

mutual
/-- Only the variables to which texts of a value refer matter. -/
theorem expand_congr (v : Value) (hagree : ∀ name ∈ mentions v, before.get? name = env.get? name) :
    expand before v = expand env v := by
  cases v with
  | str s => rw [expand, expand, expandChars_congr 0 hagree]
  | list items => rw [expand, expand, expandList_congr items hagree]
  | dict fields => rw [expand, expand, expandFields_congr fields hagree]
  | table entries => rw [expand, expand, expandEntries_congr entries hagree]
  | _ => rfl

theorem expandList_congr (items : List Value)
    (hagree : ∀ name ∈ mentionsList items, before.get? name = env.get? name) :
    expandList before items = expandList env items := by
  cases items with
  | nil => rfl
  | cons v rest =>
    simp only [mentionsList, List.forall_mem_append] at hagree
    rw [expandList, expandList, expand_congr v hagree.1, expandList_congr rest hagree.2]

theorem expandFields_congr (fields : List (String × Value))
    (hagree : ∀ name ∈ mentionsFields fields, before.get? name = env.get? name) :
    expandFields before fields = expandFields env fields := by
  cases fields with
  | nil => rfl
  | cons e rest =>
    simp only [mentionsFields, List.forall_mem_append] at hagree
    rw [expandFields, expandFields, expand_congr e.2 hagree.1, expandFields_congr rest hagree.2]

theorem expandEntries_congr (entries : List (Value × Value))
    (hagree : ∀ name ∈ mentionsEntries entries, before.get? name = env.get? name) :
    expandEntries before entries = expandEntries env entries := by
  cases entries with
  | nil => rfl
  | cons e rest =>
    simp only [mentionsEntries, List.forall_mem_append] at hagree
    rw [expandEntries, expandEntries, expand_congr e.2 hagree.1, expandEntries_congr rest hagree.2]
end

theorem ofValue_congr {v : Value} (hagree : ∀ name ∈ mentions v, before.get? name = env.get? name) :
    ofValue before v = ofValue env v := by
  simp only [ofValue, root?, expand_congr v hagree]

/-! ## Trees that are alike except for one place -/

theorem expandList_eq (env : Environment) (items : List Value) :
    expandList env items = items.map (expand env) := by
  induction items with
  | nil => rfl
  | cons v rest ih => simp [expandList, ih]

theorem expandFields_eq (env : Environment) (fields : Fields) :
    expandFields env fields = fields.map fun e => (e.1, expand env e.2) := by
  induction fields with
  | nil => rfl
  | cons e rest ih => simp [expandFields, ih]

theorem expandEntries_eq (env : Environment) (entries : Value.Entries) :
    expandEntries env entries = entries.map fun e => (e.1, expand env e.2) := by
  induction entries with
  | nil => rfl
  | cons e rest ih => simp [expandEntries, ih]

/-- One turn on the way to a place in a tree: into an entry of a mapping or an item of a list. -/
inductive Branch where
  | entry (key : Value)
  | item (position : Nat)

/-- The two trees are alike except for the place to which the path leads: there `x` stands in the
first and `y` in the second. -/
inductive Swap (x y : Value) : List Branch → Value → Value → Prop
  | here : Swap x y [] x y
  | item {path : List Branch} {v w : Value} (before after : List Value) :
    Swap x y path v w →
    Swap x y (.item before.length :: path) (.list (before ++ v :: after))
      (.list (before ++ w :: after))
  | field {path : List Branch} {v w : Value} {k : String} (before after : Fields) :
    before.get? k = none → Swap x y path v w →
    Swap x y (.entry (.str k) :: path) (.dict (before ++ (k, v) :: after))
      (.dict (before ++ (k, w) :: after))
  | entry {path : List Branch} {v w key : Value} (before after : Value.Entries) :
    before.get? key = none → Swap x y path v w →
    Swap x y (.entry key :: path) (.table (before ++ (key, v) :: after))
      (.table (before ++ (key, w) :: after))

namespace Swap

variable {x y v w : Value} {path : List Branch}

theorem expand (env : Environment) (hswap : Swap x y path v w) :
    Swap (expand env x) (expand env y) path (expand env v) (expand env w) := by
  induction hswap with
  | here => exact .here
  | item before after _ ih =>
    simpa [Settings.expand, expandList_eq] using
      ih.item (before.map (Settings.expand env)) (after.map (Settings.expand env))
  | @field path v w k before after hfresh _ ih =>
    have hfresh' : Keyed.get? (before.map fun e => (e.1, Settings.expand env e.2)) k = none := by
      rw [Keyed.get?_eq_none_iff] at hfresh ⊢
      simpa [Keyed.keys, Function.comp_def] using hfresh
    simpa [Settings.expand, expandFields_eq] using
      ih.field _ (after.map fun e => (e.1, Settings.expand env e.2)) hfresh'
  | @entry path v w key before after hfresh _ ih =>
    have hfresh' :
        Value.Entries.get? (before.map fun e => (e.1, Settings.expand env e.2)) key = none := by
      rw [Value.Entries.get?_map, hfresh, Option.map_none]
    simpa [Settings.expand, expandEntries_eq] using
      ih.entry _ (after.map fun e => (e.1, Settings.expand env e.2)) hfresh'

theorem eq (hswap : Swap x x path v w) : v = w := by
  induction hswap with
  | here => rfl
  | item _ _ _ ih => rw [ih]
  | field _ _ _ _ ih => rw [ih]
  | entry _ _ _ _ ih => rw [ih]

theorem isEmpty_eq (hswap : Swap x y path v w) (hinside : path ≠ []) :
    v.isEmpty = false ∧ w.isEmpty = false := by
  cases hswap with
  | here => contradiction
  | item => simp [Value.isEmpty]
  | field => simp [Value.isEmpty]
  | entry => simp [Value.isEmpty]

/-- A path that starts with a text leads into an entry of a section; the other entries are the same
in both sections. -/
theorem exists_sections {k : String} (hswap : Swap x y (.entry (.str k) :: path) v w) :
    ∃ fields fields' : Fields, section? v = .ok fields ∧ section? w = .ok fields' ∧
      Swap x y path (Fields.getD fields k) (Fields.getD fields' k) ∧
      ∀ other, other ≠ k → Fields.getD fields' other = Fields.getD fields other := by
  obtain ⟨hfull, hfull'⟩ := hswap.isEmpty_eq (List.cons_ne_nil _ _)
  cases hswap with
  | @field _ v w _ before after hfresh hswap =>
    refine ⟨before ++ (k, v) :: after, before ++ (k, w) :: after, ?_, ?_, ?_, fun other hne => ?_⟩
    · simp [section?, hfull, Value.entries?]
    · simp [section?, hfull', Value.entries?]
    · simpa only [Fields.getD_append_cons after _ hfresh] using hswap
    · simp only [Fields.getD_append_cons_of_ne before after _ hne]
  | @entry _ v w _ before after hfresh hswap =>
    have htexts (u : Value) : Value.Entries.texts (before ++ (.str k, u) :: after) =
        before.texts ++ (k, u) :: after.texts := by
      simp [Value.Entries.texts, Value.text?]
    have hfresh' : before.texts.get? k = none := by
      rw [Value.Entries.get?_texts, hfresh]
    refine ⟨before.texts ++ (k, v) :: after.texts, before.texts ++ (k, w) :: after.texts,
      ?_, ?_, ?_, fun other hne => ?_⟩
    · simp [section?, hfull, Value.entries?, htexts]
    · simp [section?, hfull', Value.entries?, htexts]
    · simpa only [Fields.getD_append_cons _ _ hfresh'] using hswap
    · simp only [Fields.getD_append_cons_of_ne _ _ _ hne]

end Swap

/-- A file is read as its tree is once references are replaced. -/
theorem root?_eq_of_swap (env : Environment) {x y v w : Value} {path : List Branch}
    (hswap : Swap x y path v w) (hinside : path ≠ []) :
    root? env v = section? (expand env v) ∧ root? env w = section? (expand env w) := by
  obtain ⟨hfull, hfull'⟩ := hswap.isEmpty_eq hinside
  obtain ⟨hfull₁, hfull₁'⟩ := (hswap.expand env).isEmpty_eq hinside
  constructor
  · simp only [root?, section?, hfull, hfull₁]
  · simp only [root?, section?, hfull', hfull₁']

/-- Where two values become the same when references are replaced, one may stand for the other at
any place of a file. -/
theorem ofValue_eq_of_swap {x y v w : Value} {path : List Branch} (hswap : Swap x y path v w)
    (hinside : path ≠ []) (hsame : expand env x = expand env y) :
    ofValue env v = ofValue env w := by
  have hswap' := hswap.expand env
  rw [hsame] at hswap'
  obtain ⟨hleft, hright⟩ := root?_eq_of_swap env hswap hinside
  simp only [ofValue, hleft, hright, hswap'.eq]

/-! ## The entries of a file -/

/-- The parts of a settings file. -/
inductive Part where
  | root
  | database
  | flows
  | logging
  deriving DecidableEq

/-- The key of a part in the whole file. -/
def Part.name? : Part → Option String
  | .root => none
  | .database => some "database"
  | .flows => some "flows"
  | .logging => some "logging"

theorem Part.eq_of_name?_eq {part other : Part} (hsame : part.name? = other.name?) :
    part = other := by
  cases part <;> cases other <;> simp [Part.name?] at hsame ⊢

/-- The settings. -/
inductive Setting where
  | appName
  | debug
  | activeTenant
  | url
  | storeBackend
  | storeFileDir
  | defaultPreset
  | maxConditionHops
  | active
  | intentMap
  | level
  | json

namespace Setting

/-- The part in which a setting stands. -/
def part : Setting → Part
  | .appName | .debug | .activeTenant => .root
  | .url | .storeBackend | .storeFileDir => .database
  | .defaultPreset | .maxConditionHops | .active | .intentMap => .flows
  | .level | .json => .logging

/-- The key of a setting in its part. -/
def key : Setting → String
  | .appName => "app_name"
  | .debug => "debug"
  | .activeTenant => "active_tenant"
  | .url => "url"
  | .storeBackend => "store_backend"
  | .storeFileDir => "store_file_dir"
  | .defaultPreset => "default_preset"
  | .maxConditionHops => "max_condition_hops"
  | .active => "active"
  | .intentMap => "intent_map"
  | .level => "level"
  | .json => "json"

/-- The way to the entry of a setting. -/
def path (f : Setting) : List Branch :=
  (f.part.name?.toList ++ [f.key]).map fun k => .entry (.str k)

/-- What stands for a setting among the entries of the whole file. -/
def find (raw : Fields) (f : Setting) : Except Fault Value :=
  match f.part.name? with
  | none => .ok (Fields.getD raw f.key)
  | some name => (section? (Fields.getD raw name)).map fun fields => Fields.getD fields f.key

theorem eq_of_key_eq {f g : Setting} (hpart : f.part = g.part) (hkey : f.key = g.key) : f = g := by
  cases f <;> cases g <;> simp [Setting.part, Setting.key] at hpart hkey ⊢

theorem key_ne_of_name? {f : Setting} {part : Part} {name : String} (hroot : f.part.name? = none)
    (hnamed : part.name? = some name) : f.key ≠ name := by
  rintro rfl
  cases f <;> cases part <;> simp [Setting.part, Setting.key, Part.name?] at hroot hnamed

/-- In trees that differ at one place inside the entry of a setting, all other entries are the
same. -/
theorem find_of_swap {f : Setting} {rest : List Branch} {x y v w : Value} {raw : Fields}
    (hswap : Swap x y (f.path ++ rest) v w) (hwhole : section? v = .ok raw) :
    ∃ raw' : Fields, section? w = .ok raw' ∧
      (∃ u u', f.find raw = .ok u ∧ f.find raw' = .ok u' ∧ Swap x y rest u u') ∧
      ∀ g : Setting, g ≠ f → g.find raw' = g.find raw := by
  cases hnamed : f.part.name? with
  | none =>
    simp only [path, hnamed, Option.toList_none, List.nil_append, List.map_cons, List.map_nil,
      List.cons_append] at hswap
    obtain ⟨fields, raw', hbefore, hafter, hinner, hothers⟩ := hswap.exists_sections
    obtain rfl : fields = raw := Except.ok.inj (hbefore.symm.trans hwhole)
    refine ⟨raw', hafter, ⟨_, _, by simp only [find, hnamed], by simp only [find, hnamed], hinner⟩,
      fun g hdifferent => ?_⟩
    cases hnamed' : g.part.name? with
    | none =>
      have hkey : g.key ≠ f.key := fun hsame =>
        hdifferent (eq_of_key_eq (Part.eq_of_name?_eq (hnamed'.trans hnamed.symm)) hsame)
      simp only [find, hnamed', hothers _ hkey]
    | some name => simp only [find, hnamed', hothers _ (key_ne_of_name? hnamed hnamed').symm]
  | some name =>
    simp only [path, hnamed, Option.toList_some, List.map_cons, List.map_nil, List.cons_append,
      List.nil_append] at hswap
    obtain ⟨fields, raw', hbefore, hafter, hinner, hothers⟩ := hswap.exists_sections
    obtain rfl : fields = raw := Except.ok.inj (hbefore.symm.trans hwhole)
    obtain ⟨entries, entries', hbefore', hafter', hinnermost, hothers'⟩ := hinner.exists_sections
    refine ⟨raw', hafter, ⟨_, _, by simp only [find, hnamed, hbefore', Except.map],
      by simp only [find, hnamed, hafter', Except.map], hinnermost⟩, fun g hdifferent => ?_⟩
    cases hnamed' : g.part.name? with
    | none => simp only [find, hnamed', hothers _ (key_ne_of_name? hnamed' hnamed)]
    | some name' =>
      by_cases here : name' = name
      · subst here
        have hkey : g.key ≠ f.key := fun hsame =>
          hdifferent (eq_of_key_eq (Part.eq_of_name?_eq (hnamed'.trans hnamed.symm)) hsame)
        simp only [find, hnamed', hbefore', hafter', Except.map, hothers' _ hkey]
      · simp only [find, hnamed', hothers _ here]

end Setting

/-! ## Settings from entries -/

/-- The value itself unless it is null. -/
def orDefault (v default : Value) : Value :=
  match v with
  | .null => default
  | v => v

/-- What settings have for the value that a file has for one of them. -/
def Setting.Gives (s : Settings) : Setting → Value → Prop
  | .appName, v => s.appName = v.orElse (.str "FlowEngine")
  | .debug, v => s.debug = !v.isEmpty
  | .activeTenant, v => s.activeTenant = v.orElse (.str "default")
  | .url, v => s.database.url = orDefault v (.str "sqlite:///./flows.db")
  | .storeBackend, v => s.database.storeBackend = orDefault v (.str "memory")
  | .storeFileDir, v => s.database.storeFileDir = orDefault v (.str "./data")
  | .defaultPreset, v => s.flows.defaultPreset = orDefault v (.str "lead-qualification")
  | .maxConditionHops, v =>
    Step.Draft.toTarget (orDefault v (.int 100)) = .ok s.flows.maxConditionHops
  | .active, v => s.flows.active = orDefault v (.str "")
  | .intentMap, v => mapping (orDefault v (.dict [])) = .ok s.flows.intentMap
  | .level, v => s.logging.level = Text.upper (orDefault v (.str "INFO")).display
  | .json, v => s.logging.json = orDefault v (.bool false)

variable {v w : Value} {s : Settings}

theorem mapError_eq_ok_iff {ε ε' α : Type} {x : Except ε α} {f : ε → ε'} {a : α} :
    x.mapError f = .ok a ↔ x = .ok a := by
  cases x <;> simp [Except.mapError]

theorem map_eq_ok_iff {ε α β : Type} {x : Except ε α} {f : α → β} {b : β} :
    x.map f = .ok b ↔ ∃ a, x = .ok a ∧ f a = b := by
  cases x <;> simp [Except.map]

theorem gives_of_find {f : Setting} {raw : Fields} {u : Value}
    (hgiven : ∃ u, f.find raw = .ok u ∧ f.Gives s u) (hfound : f.find raw = .ok u) :
    f.Gives s u := by
  obtain ⟨_, hagain, hgives⟩ := hgiven
  cases hfound.symm.trans hagain
  exact hgives

/-- A file is read as settings if the entry of every setting is found and gives that setting. -/
theorem ofValue_eq_ok_iff : ofValue env v = .ok s ↔
    ∃ raw : Fields, root? env v = .ok raw ∧
      ∀ f : Setting, ∃ u, f.find raw = .ok u ∧ f.Gives s u := by
  simp only [ofValue, Step.bind_eq_ok_iff, mapError_eq_ok_iff]
  constructor
  · rintro ⟨raw, hwhole, database, hstored, flows, hflowing, logging, hlogged, hops, hcounted,
      intents, hmapped, hmade⟩
    cases hmade
    refine ⟨raw, hwhole, fun f => ?_⟩
    cases f with
    | appName | debug | activeTenant => exact ⟨_, rfl, rfl⟩
    | url | storeBackend | storeFileDir => exact ⟨_, map_eq_ok_iff.2 ⟨_, hstored, rfl⟩, rfl⟩
    | defaultPreset | active => exact ⟨_, map_eq_ok_iff.2 ⟨_, hflowing, rfl⟩, rfl⟩
    | maxConditionHops => exact ⟨_, map_eq_ok_iff.2 ⟨_, hflowing, rfl⟩, hcounted⟩
    | intentMap => exact ⟨_, map_eq_ok_iff.2 ⟨_, hflowing, rfl⟩, hmapped⟩
    | level | json => exact ⟨_, map_eq_ok_iff.2 ⟨_, hlogged, rfl⟩, rfl⟩
  · rintro ⟨raw, hwhole, hgiven⟩
    obtain ⟨_, hurl, -⟩ := hgiven .url
    obtain ⟨database, hstored, -⟩ := map_eq_ok_iff.1 hurl
    obtain ⟨_, hactive, -⟩ := hgiven .active
    obtain ⟨flows, hflowing, -⟩ := map_eq_ok_iff.1 hactive
    obtain ⟨_, hlevel, -⟩ := hgiven .level
    obtain ⟨logging, hlogged, -⟩ := map_eq_ok_iff.1 hlevel
    have hinRoot {f : Setting} (hnamed : f.part.name? = none) : f.Gives s (Fields.getD raw f.key) :=
      gives_of_find (hgiven f) (by simp only [Setting.find, hnamed])
    have hinPart {f : Setting} {name : String} {fields : Fields} (hnamed : f.part.name? = some name)
        (hread : section? (Fields.getD raw name) = .ok fields) :
        f.Gives s (Fields.getD fields f.key) :=
      gives_of_find (hgiven f) (by simp only [Setting.find, hnamed, hread, Except.map])
    refine ⟨raw, hwhole, database, hstored, flows, hflowing, logging, hlogged,
      s.flows.maxConditionHops, hinPart (f := .maxConditionHops) rfl hflowing, s.flows.intentMap,
      hinPart (f := .intentMap) rfl hflowing, ?_⟩
    obtain ⟨appName, debug, activeTenant, ⟨url, backend, dir⟩, ⟨preset, hops, active, intents⟩,
      ⟨level, json⟩⟩ := s
    obtain rfl : appName = _ := hinRoot (f := .appName) rfl
    obtain rfl : debug = _ := hinRoot (f := .debug) rfl
    obtain rfl : activeTenant = _ := hinRoot (f := .activeTenant) rfl
    obtain rfl : url = _ := hinPart (f := .url) rfl hstored
    obtain rfl : backend = _ := hinPart (f := .storeBackend) rfl hstored
    obtain rfl : dir = _ := hinPart (f := .storeFileDir) rfl hstored
    obtain rfl : preset = _ := hinPart (f := .defaultPreset) rfl hflowing
    obtain rfl : active = _ := hinPart (f := .active) rfl hflowing
    obtain rfl : level = _ := hinPart (f := .level) rfl hlogged
    obtain rfl : json = _ := hinPart (f := .json) rfl hlogged
    rfl

/-- Where two files differ at one place inside the entry of a setting, they are read as the same
settings exactly if that entry still gives its setting. -/
theorem ofValue_eq_ok_iff_of_swap {f : Setting} {rest : List Branch} {x y : Value}
    (hswap : Swap x y (f.path ++ rest) v w) (hread : ofValue env v = .ok s) :
    ∃ u u', Swap (expand env x) (expand env y) rest u u' ∧ f.Gives s u ∧
      (ofValue env w = .ok s ↔ f.Gives s u') := by
  obtain ⟨raw, hwhole, hgiven⟩ := ofValue_eq_ok_iff.1 hread
  obtain ⟨hleft, hright⟩ := root?_eq_of_swap env hswap (by simp [Setting.path])
  obtain ⟨raw', hwhole', ⟨u, u', hfound, hfound', hinner⟩, hothers⟩ :=
    Setting.find_of_swap (hswap.expand env) (hleft.symm.trans hwhole)
  refine ⟨u, u', hinner, gives_of_find (hgiven f) hfound, fun hread' => ?_, fun hgives' => ?_⟩
  · obtain ⟨_, hwhole₁, hgiven'⟩ := ofValue_eq_ok_iff.1 hread'
    cases hwhole₁.symm.trans (hright.trans hwhole')
    exact gives_of_find (hgiven' f) hfound'
  · refine ofValue_eq_ok_iff.2 ⟨raw', hright.trans hwhole', fun g => ?_⟩
    by_cases hsame : g = f
    · exact ⟨u', hsame ▸ hfound', hsame ▸ hgives'⟩
    · rw [hothers g hsame]
      exact hgiven g

end Settings

end Dialogue

import Dialogue.Proofs.Keyed
import Dialogue.Value.Basic

/-!
# Values that documents hold

A value is a *document* if it has the shape of JSON at every depth: objects with distinct keys, and
neither moments nor tables (`Value.IsDocument`).  In its plain form it also has finite numbers only
(`Value.isFinite_plain`), and then it can be written as text and read again.  So can a document with
other numbers, if the one NaN among them is the one that is read (`Value.IsJson`).
-/

namespace Dialogue

open Keyed (keys)

namespace Value

mutual
/-- The value has the shape of JSON. -/
def IsDocument : Value → Prop
  | .list items => IsDocumentList items
  | .dict fields => (keys fields).Nodup ∧ IsDocumentFields fields
  | .moment _ | .table _ => False
  | _ => True

/-- `IsDocument` of every item. -/
def IsDocumentList : List Value → Prop
  | [] => True
  | v :: rest => v.IsDocument ∧ IsDocumentList rest

/-- `IsDocument` of the value of every entry. -/
def IsDocumentFields : List (String × Value) → Prop
  | [] => True
  | (_, v) :: rest => v.IsDocument ∧ IsDocumentFields rest
end

theorem isDocumentList_iff {items : List Value} :
    IsDocumentList items ↔ ∀ v ∈ items, v.IsDocument := by
  induction items with
  | nil => simp [IsDocumentList]
  | cons v rest ih => simp [IsDocumentList, ih]

theorem isDocumentFields_iff {fields : Fields} :
    IsDocumentFields fields ↔ ∀ e ∈ fields, e.2.IsDocument := by
  induction fields with
  | nil => simp [IsDocumentFields]
  | cons e rest ih =>
    obtain ⟨k, v⟩ := e
    simp [IsDocumentFields, ih]

theorem isFiniteList_iff {items : List Value} :
    isFiniteList items = true ↔ ∀ v ∈ items, v.isFinite = true := by
  induction items with
  | nil => simp [isFiniteList]
  | cons v rest ih => simp [isFiniteList, ih]

theorem isFiniteFields_iff {fields : Fields} :
    isFiniteFields fields = true ↔ ∀ e ∈ fields, e.2.isFinite = true := by
  induction fields with
  | nil => simp [isFiniteFields]
  | cons e rest ih =>
    obtain ⟨k, v⟩ := e
    simp [isFiniteFields, ih]

theorem plainFields_eq_map (fields : Fields) :
    plainFields fields = fields.map fun e => (e.1, e.2.plain) := by
  induction fields with
  | nil => rfl
  | cons e rest ih =>
    obtain ⟨k, v⟩ := e
    simp [plainFields, ih]

@[simp] theorem keys_plainFields (fields : Fields) : keys (plainFields fields) = keys fields := by
  simp [plainFields_eq_map, keys, Function.comp_def]

mutual
theorem isDocument_plain (v : Value) (hdocument : v.IsDocument) : v.plain.IsDocument := by
  cases v with
  | double d => by_cases h : d.isFinite <;> simp [plain, h, IsDocument]
  | list items => exact isDocumentList_plainList items hdocument
  | dict fields =>
    refine ⟨?_, isDocumentFields_plainFields fields hdocument.2⟩
    rw [keys_plainFields]
    exact hdocument.1
  | null => trivial
  | bool b => trivial
  | int n => trivial
  | str s => trivial
  | moment m => exact hdocument.elim
  | table entries => exact hdocument.elim

theorem isDocumentList_plainList (vs : List Value) (hdocuments : IsDocumentList vs) :
    IsDocumentList (plainList vs) := by
  cases vs with
  | nil => trivial
  | cons v rest =>
    exact ⟨isDocument_plain v hdocuments.1, isDocumentList_plainList rest hdocuments.2⟩

theorem isDocumentFields_plainFields (es : List (String × Value))
    (hdocuments : IsDocumentFields es) : IsDocumentFields (plainFields es) := by
  cases es with
  | nil => trivial
  | cons e rest =>
    obtain ⟨k, v⟩ := e
    exact ⟨isDocument_plain v hdocuments.1, isDocumentFields_plainFields rest hdocuments.2⟩
end

mutual
/-- A value with finite numbers only is plain already. -/
theorem plain_of_isFinite (v : Value) (hfinite : v.isFinite = true) : v.plain = v := by
  cases v with
  | double d => simpa [plain, isFinite] using hfinite
  | list items => simpa [plain] using plainList_of_isFinite items hfinite
  | dict fields => simpa [plain] using plainFields_of_isFinite fields hfinite
  | table entries => simpa [plain] using plainEntries_of_isFinite entries hfinite
  | null => rfl
  | bool b => rfl
  | int n => rfl
  | str s => rfl
  | moment m => rfl

theorem plainList_of_isFinite (vs : List Value) (hfinite : isFiniteList vs = true) :
    plainList vs = vs := by
  cases vs with
  | nil => rfl
  | cons v rest =>
    simp only [isFiniteList, Bool.and_eq_true] at hfinite
    simp [plainList, plain_of_isFinite v hfinite.1, plainList_of_isFinite rest hfinite.2]

theorem plainFields_of_isFinite (es : List (String × Value)) (hfinite : isFiniteFields es = true) :
    plainFields es = es := by
  cases es with
  | nil => rfl
  | cons e rest =>
    obtain ⟨k, v⟩ := e
    simp only [isFiniteFields, Bool.and_eq_true] at hfinite
    simp [plainFields, plain_of_isFinite v hfinite.1, plainFields_of_isFinite rest hfinite.2]

theorem plainEntries_of_isFinite (es : List (Value × Value))
    (hfinite : isFiniteEntries es = true) : plainEntries es = es := by
  cases es with
  | nil => rfl
  | cons e rest =>
    obtain ⟨k, v⟩ := e
    simp only [isFiniteEntries, Bool.and_eq_true] at hfinite
    simp [plainEntries, plain_of_isFinite k hfinite.1.1, plain_of_isFinite v hfinite.1.2,
      plainEntries_of_isFinite rest hfinite.2]
end

/-- A document without numbers that are not finite, which is what text can hold. -/
def IsPlain (v : Value) : Prop := v.IsDocument ∧ v.isFinite = true

theorem isPlain_plain {v : Value} (hdocument : v.IsDocument) : v.plain.IsPlain :=
  ⟨isDocument_plain v hdocument, isFinite_plain v⟩

theorem IsPlain.plain_eq {v : Value} (hplain : v.IsPlain) : v.plain = v :=
  plain_of_isFinite v hplain.2

theorem isPlain_dict_iff {fields : Fields} :
    (Value.dict fields).IsPlain ↔ (keys fields).Nodup ∧ ∀ e ∈ fields, e.2.IsPlain := by
  simp only [IsPlain, IsDocument, isFinite, isDocumentFields_iff, isFiniteFields_iff]
  constructor
  · rintro ⟨⟨hnodup, hdocuments⟩, hfinite⟩
    exact ⟨hnodup, fun e he => ⟨hdocuments e he, hfinite e he⟩⟩
  · rintro ⟨hnodup, hall⟩
    exact ⟨⟨hnodup, fun e he => (hall e he).1⟩, fun e he => (hall e he).2⟩

theorem isPlain_list_iff {items : List Value} :
    (Value.list items).IsPlain ↔ ∀ v ∈ items, v.IsPlain := by
  simp only [IsPlain, IsDocument, isFinite, isDocumentList_iff, isFiniteList_iff]
  exact ⟨fun ⟨hdocuments, hfinite⟩ v hv => ⟨hdocuments v hv, hfinite v hv⟩,
    fun hall => ⟨fun v hv => (hall v hv).1, fun v hv => (hall v hv).2⟩⟩

/-! ## Documents with numbers that are not finite -/

mutual
/-- The value is one that JSON text is read as: a document whose only NaN is the one that stands for
all. -/
def IsJson : Value → Prop
  | .double d => d.isNaN = true → d = Double.nan
  | .list items => IsJsonList items
  | .dict fields => (keys fields).Nodup ∧ IsJsonFields fields
  | .moment _ | .table _ => False
  | _ => True

/-- `IsJson` of every item. -/
def IsJsonList : List Value → Prop
  | [] => True
  | v :: rest => v.IsJson ∧ IsJsonList rest

/-- `IsJson` of the value of every entry. -/
def IsJsonFields : List (String × Value) → Prop
  | [] => True
  | (_, v) :: rest => v.IsJson ∧ IsJsonFields rest
end

theorem isJson_double {d : Double} (hnumber : d.isNaN = false) : (Value.double d).IsJson :=
  fun hnan => absurd hnan (by simp [hnumber])

theorem isJson_list_iff {items : List Value} :
    (Value.list items).IsJson ↔ ∀ v ∈ items, v.IsJson := by
  show IsJsonList items ↔ _
  induction items with
  | nil => simp [IsJsonList]
  | cons v rest ih => simp [IsJsonList, ih]

theorem isJson_dict_iff {fields : Fields} :
    (Value.dict fields).IsJson ↔ (keys fields).Nodup ∧ ∀ e ∈ fields, e.2.IsJson := by
  have hentries : IsJsonFields fields ↔ ∀ e ∈ fields, e.2.IsJson := by
    induction fields with
    | nil => simp [IsJsonFields]
    | cons e rest ih =>
      obtain ⟨k, v⟩ := e
      simp [IsJsonFields, ih]
  exact and_congr_right fun _ => hentries

mutual
theorem IsJson.isDocument (v : Value) (hjson : v.IsJson) : v.IsDocument := by
  cases v with
  | list items => exact isDocumentList_of_isJson items hjson
  | dict fields => exact ⟨hjson.1, isDocumentFields_of_isJson fields hjson.2⟩
  | moment m => exact hjson.elim
  | table entries => exact hjson.elim
  | null | bool | int | double | str => trivial

theorem isDocumentList_of_isJson (vs : List Value) (hjson : IsJsonList vs) : IsDocumentList vs := by
  cases vs with
  | nil => trivial
  | cons v rest => exact ⟨IsJson.isDocument v hjson.1, isDocumentList_of_isJson rest hjson.2⟩

theorem isDocumentFields_of_isJson (es : List (String × Value)) (hjson : IsJsonFields es) :
    IsDocumentFields es := by
  cases es with
  | nil => trivial
  | cons e rest =>
    obtain ⟨k, v⟩ := e
    exact ⟨IsJson.isDocument v hjson.1, isDocumentFields_of_isJson rest hjson.2⟩
end

mutual
theorem IsPlain.isJson (v : Value) (hplain : v.IsPlain) : v.IsJson := by
  cases v with
  | double d =>
    intro hnan
    have hfinite : d.isFinite = true := hplain.2
    simp only [Double.isNaN, Double.isFinite, decide_eq_true_eq] at hnan hfinite
    omega
  | list items => exact isJsonList_of_isPlain items (isPlain_list_iff.1 hplain)
  | dict fields =>
    obtain ⟨hnodup, hall⟩ := isPlain_dict_iff.1 hplain
    exact ⟨hnodup, isJsonFields_of_isPlain fields hall⟩
  | moment m => exact hplain.1.elim
  | table entries => exact hplain.1.elim
  | null | bool | int | str => trivial

theorem isJsonList_of_isPlain (vs : List Value) (hall : ∀ v ∈ vs, v.IsPlain) : IsJsonList vs := by
  cases vs with
  | nil => trivial
  | cons v rest =>
    obtain ⟨hfirst, hothers⟩ := List.forall_mem_cons.1 hall
    exact ⟨IsPlain.isJson v hfirst, isJsonList_of_isPlain rest hothers⟩

theorem isJsonFields_of_isPlain (es : List (String × Value)) (hall : ∀ e ∈ es, e.2.IsPlain) :
    IsJsonFields es := by
  cases es with
  | nil => trivial
  | cons e rest =>
    obtain ⟨k, v⟩ := e
    obtain ⟨hfirst, hothers⟩ := List.forall_mem_cons.1 hall
    exact ⟨IsPlain.isJson v hfirst, isJsonFields_of_isPlain rest hothers⟩
end

end Value

end Dialogue

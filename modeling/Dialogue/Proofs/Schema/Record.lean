import Dialogue.Proofs.Value.Document
import Dialogue.Schema.Record

/-!
# The document of a record

A record is written as the entries of its fields followed by its extras.  What is left over from
reading a document never stands under the first name of a field (`isRest_extras`), so the keys of
such a document are distinct (`isPlain_record`).
-/

namespace Dialogue.Schema

open Keyed (keys)

/-- Extras of a record with the given fields: distinct keys, none of them the first name of a field,
and documents under them. -/
structure IsRest (slots : List Slot) (extras : Fields) : Prop where
  nodup : (keys extras).Nodup
  documents : ∀ e ∈ extras, e.2.IsDocument
  free : ∀ slot ∈ slots, slot.name ∉ keys extras

theorem isRest_nil (slots : List Slot) : IsRest slots [] where
  nodup := List.nodup_nil
  documents := by simp
  free := by simp

theorem name_mem_taken {slot : Slot} {fields : Fields} (hlisted : slot.name ∈ keys fields) :
    slot.name ∈ slot.taken fields := by
  rw [← Keyed.has_eq_true_iff, Keyed.has, Option.isSome_iff_exists] at hlisted
  obtain ⟨v, hfound⟩ := hlisted
  simp [Slot.taken, Slot.find?, hfound]

theorem mem_taken {slot : Slot} {fields : Fields} {key : String}
    (htaken : key ∈ slot.taken fields) : key = slot.name ∨ key = slot.older := by
  unfold Slot.taken Slot.find? at htaken
  split at htaken
  · exact .inl (by simpa using htaken)
  · refine .inr ?_
    cases hfound : Fields.get? fields slot.older <;> simp_all

theorem isRest_extras (slots : List Slot) {fields : Fields}
    (hdocument : (Value.dict fields).IsDocument) : IsRest slots (extras slots fields) where
  nodup := hdocument.1.sublist (List.filter_sublist.map _)
  documents e he := Value.isDocumentFields_iff.1 hdocument.2 e (List.mem_filter.1 he).1
  free slot hslot hleft := by
    obtain ⟨e, he, hname⟩ := List.mem_map.1 hleft
    obtain ⟨hlisted, huntaken⟩ := List.mem_filter.1 he
    have htaken : slot.name ∈ slots.flatMap (·.taken fields) :=
      List.mem_flatMap.2 ⟨slot, hslot, name_mem_taken (hname ▸ List.mem_map_of_mem hlisted)⟩
    simp [hname, htaken] at huntaken

theorem isPlain_str (s : String) : (Value.str s).IsPlain := ⟨trivial, rfl⟩

theorem isPlain_int (n : Int) : (Value.int n).IsPlain := ⟨trivial, rfl⟩

theorem isPlain_null : Value.null.IsPlain := ⟨trivial, rfl⟩

theorem isPlain_ofOption (s : Option String) : (Value.ofOption s).IsPlain := by
  cases s with
  | none => exact isPlain_null
  | some s => exact isPlain_str s

theorem isPlain_ofIndex (n : Option Int) : (Value.ofIndex n).IsPlain := by
  cases n with
  | none => exact isPlain_null
  | some n => exact isPlain_int n

/-- A record is written as a plain document. -/
theorem isPlain_record {slots : List Slot} {entries extras : Fields}
    (hnames : keys entries = slots.map (·.name)) (hnodup : (slots.map (·.name)).Nodup)
    (hplain : ∀ e ∈ entries, e.2.IsPlain) (hrest : IsRest slots extras) :
    (Value.dict (Fields.dropNulls entries ++
      Value.plainFields (Fields.dropNulls extras))).IsPlain := by
  rw [Value.isPlain_dict_iff]
  constructor
  · rw [keys, List.map_append, ← keys, ← keys, Value.keys_plainFields]
    refine List.nodup_append.2 ⟨?_, ?_, ?_⟩
    · exact (hnames ▸ hnodup).sublist (List.filter_sublist.map _)
    · exact hrest.nodup.sublist (List.filter_sublist.map _)
    · intro k hk l hl hsame
      subst hsame
      have hwritten : k ∈ keys entries := (List.filter_sublist.map _).subset hk
      obtain ⟨slot, hslot, hname⟩ := List.mem_map.1 (hnames ▸ hwritten)
      exact hrest.free slot hslot (hname ▸ (List.filter_sublist.map _).subset hl)
  · intro e he
    rcases List.mem_append.1 he with he | he
    · exact hplain e (List.mem_filter.1 he).1
    · rw [Value.plainFields_eq_map] at he
      obtain ⟨f, hf, rfl⟩ := List.mem_map.1 he
      exact Value.isPlain_plain (hrest.documents f (List.mem_filter.1 hf).1)

/-! ## Looking into the document of a record -/

section

variable {slots : List Slot} {entries extras : Fields}

/-- Under the name of a field stands what is written for it, unless that is null. -/
theorem get?_record_name (hnames : keys entries = slots.map (·.name))
    (hnodup : (slots.map (·.name)).Nodup) (hrest : IsRest slots extras) {slot : Slot}
    (hlisted : slot ∈ slots) :
    Fields.get? (Fields.dropNulls entries ++ Value.plainFields (Fields.dropNulls extras))
        slot.name =
      (Fields.get? entries slot.name).filter fun v => !v.isNull := by
  have hleft : Keyed.get? (Value.plainFields (Fields.dropNulls extras)) slot.name = none := by
    rw [Keyed.get?_eq_none_iff, Value.keys_plainFields]
    exact fun hmem => hrest.free slot hlisted ((List.filter_sublist.map _).subset hmem)
  rw [Fields.get?, Keyed.get?_append, hleft, Option.or_none]
  have hdistinct : (keys entries).Nodup := by rw [hnames]; exact hnodup
  exact Keyed.get?_filter hdistinct (fun v => !v.isNull) slot.name

/-- Under any other key stands the extra, unless that is null. -/
theorem get?_record_extra (hnames : keys entries = slots.map (·.name)) (hrest : IsRest slots extras)
    (hfinite : ∀ e ∈ extras, e.2.isFinite = true) {key : String}
    (hother : key ∉ slots.map (·.name)) :
    Fields.get? (Fields.dropNulls entries ++ Value.plainFields (Fields.dropNulls extras)) key =
      (Fields.get? extras key).filter fun v => !v.isNull := by
  have hbefore : Keyed.get? (Fields.dropNulls entries) key = none := by
    rw [Keyed.get?_eq_none_iff]
    exact fun hmem => hother (hnames ▸ (List.filter_sublist.map _).subset hmem)
  have hplain : Value.plainFields (Fields.dropNulls extras) = Fields.dropNulls extras :=
    Value.plainFields_of_isFinite _
      (Value.isFiniteFields_iff.2 fun e hmem => hfinite e (List.mem_filter.1 hmem).1)
  rw [Fields.get?, Keyed.get?_append, hbefore, Option.none_or, hplain]
  exact Keyed.get?_filter hrest.nodup (fun v => !v.isNull) key

/-- Reading the document of a record leaves its extras over, unless one is null or stands under the
older name of a field. -/
theorem extras_record (hnames : keys entries = slots.map (·.name)) (hrest : IsRest slots extras)
    (hfinite : ∀ e ∈ extras, e.2.isFinite = true) (hgiven : ∀ e ∈ extras, e.2.isNull = false)
    (hnewer : ∀ slot ∈ slots, slot.older ∉ keys extras) :
    Schema.extras slots (Fields.dropNulls entries ++ Value.plainFields (Fields.dropNulls extras)) =
      extras := by
  have hkept : Fields.dropNulls extras = extras := by
    simpa [Fields.dropNulls, List.filter_eq_self] using hgiven
  have hplain : Value.plainFields extras = extras :=
    Value.plainFields_of_isFinite _ (Value.isFiniteFields_iff.2 hfinite)
  rw [hkept, hplain]
  have hgone : ∀ e ∈ Fields.dropNulls entries,
      e.1 ∈ slots.flatMap (·.taken (Fields.dropNulls entries ++ extras)) := by
    intro e hlisted
    have hwritten : e.1 ∈ slots.map (·.name) :=
      hnames ▸ List.mem_map_of_mem (List.mem_filter.1 hlisted).1
    obtain ⟨slot, hslot, hname⟩ := List.mem_map.1 hwritten
    refine List.mem_flatMap.2 ⟨slot, hslot, hname ▸ name_mem_taken ?_⟩
    rw [hname]
    exact List.mem_map_of_mem (List.mem_append_left _ hlisted)
  have hleft : ∀ e ∈ extras,
      e.1 ∉ slots.flatMap (·.taken (Fields.dropNulls entries ++ extras)) := by
    intro e hlisted htaken
    obtain ⟨slot, hslot, htaken⟩ := List.mem_flatMap.1 htaken
    have hkey : e.1 ∈ keys extras := List.mem_map_of_mem hlisted
    rcases mem_taken htaken with hname | holder
    · exact hrest.free slot hslot (hname ▸ hkey)
    · exact hnewer slot hslot (holder ▸ hkey)
  rw [Schema.extras, Fields.without, List.filter_append,
    List.filter_eq_nil_iff.2 fun e hlisted => by simpa using hgone e hlisted,
    List.filter_eq_self.2 fun e hlisted => by simpa using hleft e hlisted, List.nil_append]

end

/-! ## What a reading was made of -/

theorem pair_eq_ok {α β : Type} {a : Checked α} {b : Checked β} {x : α} {y : β}
    (h : a.pair b = .ok (x, y)) : a = .ok x ∧ b = .ok y := by
  cases a <;> cases b <;> simp_all [Checked.pair]

theorem map_eq_ok {α β : Type} {f : α → β} {a : Checked α} {y : β}
    (h : a.map f = .ok y) : ∃ x, a = .ok x ∧ f x = y := by
  cases a with
  | ok x => exact ⟨x, rfl, by simpa [Checked.map] using h⟩
  | bad issues => cases h

theorem toExcept_eq_ok {α : Type} {record : String} {a : Checked α} {x : α}
    (h : a.toExcept record = .ok x) : a = .ok x := by
  cases a with
  | ok y =>
    cases h
    rfl
  | bad issues => cases h

/-- An optional field that is read has its default or is read from the document. -/
theorem exists_of_optional {α : Type} {fields : Fields} {slot : Slot} {default x : α}
    {read : Value → Except Fault α}
    (h : optional fields slot default read = .ok x) :
    x = default ∨ ∃ key v, (key, v) ∈ fields ∧ read v = .ok x := by
  unfold optional at h
  split at h
  · rename_i key v hfound
    refine .inr ⟨key, v, ?_, ?_⟩
    · unfold Slot.find? at hfound
      split at hfound
      · rename_i w hw
        cases hfound
        exact Keyed.mem_of_get?_eq_some hw
      · simp only [Option.map_eq_some_iff] at hfound
        obtain ⟨w, hw, hsame⟩ := hfound
        cases hsame
        exact Keyed.mem_of_get?_eq_some hw
    · cases hread : read v with
      | ok a =>
        rw [hread] at h
        cases h
        rfl
      | error f =>
        rw [hread] at h
        cases h
  · cases h
    exact .inl rfl

/-! ### Fields that stand under their names -/

section

variable {α : Type} {fields : Fields} {slot : Slot} {default x : α} {v : Value}

theorem find?_of_get?_name (hfound : Fields.get? fields slot.name = some v) :
    slot.find? fields = some (slot.name, v) := by
  simp [Slot.find?, hfound]

theorem ofExcept_under_eq_ok {key : String} {r : Except Fault α}
    (h : (Checked.ofExcept v r).under key = .ok x) : r = .ok x := by
  cases r with
  | ok a =>
    cases h
    rfl
  | error f => cases h

variable (slot)

theorem read_of_required {read : Value → Except Fault α}
    (hfound : Fields.get? fields slot.name = some v) (h : required fields slot read = .ok x) :
    read v = .ok x := by
  rw [required, find?_of_get?_name hfound] at h
  exact ofExcept_under_eq_ok h

theorem read_of_optional {read : Value → Except Fault α}
    (hfound : Fields.get? fields slot.name = some v)
    (h : optional fields slot default read = .ok x) : read v = .ok x := by
  rw [optional, find?_of_get?_name hfound] at h
  exact ofExcept_under_eq_ok h

theorem read_of_optionalRecord {read : Value → Checked α}
    (hfound : Fields.get? fields slot.name = some v)
    (h : optionalRecord fields slot default read = .ok x) : read v = .ok x := by
  rw [optionalRecord, find?_of_get?_name hfound] at h
  simp only at h
  cases hparsed : read v with
  | ok a =>
    rw [hparsed] at h
    cases h
    rfl
  | bad issues =>
    rw [hparsed] at h
    cases h

end

end Dialogue.Schema

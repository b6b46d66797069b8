import Dialogue.Flow.Document
import Dialogue.Flow.Preset
import Dialogue.Proofs.Identifier
import Dialogue.Proofs.Step.Again
import Dialogue.Proofs.Step.Document
import Dialogue.Proofs.Value.Same
import Mathlib.Data.List.Forall2

/-!
# Flows are written and read again

A flow that was read from a document or made from a preset is well formed, and a well formed flow is
written as a plain document (`isPlain_document`).

Reading it again succeeds unless an extra stands in the place of a field that was left out.  Only
the time of the last change can be left out, so a flow that was changed once is read again
(`exists_ofValue_document`).  Every entry is then read from what was stored for it
(`steps_of_ofValue_document`), and a question that was read once stays the question that it is
(`exists_question_of_ofValue_document`).

A flow that was read from a document with finite numbers is stored and read again.  The second
reading fails where an older spelling of the time of change stands among the extras that is no text,
and it changes what the flow does where older spellings of the fields of its conditions do
(`exists_same_again_iff`).  Neither can happen to a flow that is settled (`Flow.Settled`).
-/

namespace Dialogue.Flow

open Keyed (keys)

/-- A flow that can be stored: it has an identifier, its extras are such as reading leaves over, and
its entries are well formed. -/
structure WellFormed (flow : Flow) : Prop where
  identified : flow.id ≠ ""
  rest : Schema.IsRest slots flow.extras
  steps : ∀ e ∈ flow.steps, e.WellFormed

theorem isPlain_document {flow : Flow} (hwellFormed : flow.WellFormed) :
    (Value.dict flow.document).IsPlain := by
  refine Schema.isPlain_record (show keys flow.entries = slots.map (·.name) from rfl) (by decide)
    ?_ hwellFormed.rest
  have hsteps : (Value.list (flow.steps.map Entry.storedDocument)).IsPlain := by
    rw [Value.isPlain_list_iff]
    intro v hv
    obtain ⟨e, he, rfl⟩ := List.mem_map.1 hv
    exact Entry.isPlain_storedDocument (hwellFormed.steps e he)
  simp [entries, Schema.isPlain_str, Schema.isPlain_int, Schema.isPlain_ofOption, hsteps]

theorem document_ne_nil (flow : Flow) : flow.document ≠ [] := by
  simp [document, entries, Fields.dropNulls, Value.isNull]

/-! ## Flows that are well formed -/

theorem mem_nameFromId {fields : Fields} {e : String × Value} (hlisted : e ∈ nameFromId fields) :
    e ∈ fields ∨ e.1 = "name" ∧ ("id", e.2) ∈ fields := by
  unfold nameFromId at hlisted
  simp only at hlisted
  split at hlisted
  · rename_i hrenames
    rcases Keyed.mem_set hlisted with rfl | hlisted
    · refine .inr ⟨rfl, ?_⟩
      cases hfound : Fields.get? fields "id" with
      | none => simp [Fields.getD, hfound, Value.isEmpty] at hrenames
      | some v => simpa [Fields.getD, hfound] using Keyed.mem_of_get?_eq_some hfound
    · exact .inl hlisted
  · exact .inl hlisted

theorem isDocument_nameFromId {fields : Fields} (hdocument : (Value.dict fields).IsDocument) :
    (Value.dict (nameFromId fields)).IsDocument := by
  refine ⟨?_, Value.isDocumentFields_iff.2 fun e hlisted => ?_⟩
  · unfold nameFromId
    simp only
    split
    · exact Keyed.nodup_set hdocument.1 _ _
    · exact hdocument.1
  · have hall := Value.isDocumentFields_iff.1 hdocument.2
    rcases mem_nameFromId hlisted with hlisted | ⟨-, hidentifier⟩
    · exact hall e hlisted
    · exact hall ("id", e.2) hidentifier

theorem exists_of_readSteps {v : Value} (hdocument : v.IsDocument) {steps : List Entry}
    (hread' : readSteps v = .ok steps) :
    ∀ e ∈ steps, ∃ item : Value, item.IsDocument ∧ e = Entry.ofValue item := by
  cases v with
  | null =>
    cases hread'
    simp
  | list items =>
    cases hread'
    intro e he
    obtain ⟨item, hitem, rfl⟩ := List.mem_map.1 he
    exact ⟨item, Value.isDocumentList_iff.1 hdocument item hitem, rfl⟩
  | _ => cases hread'

/-- The flow is read from the entries of a document, field by field. -/
structure ReadFrom (flow : Flow) (now : String) (fields : Fields) : Prop where
  identified : ∃ id, Schema.optional fields (.plain "id") "" Schema.readText = .ok id ∧
    flow.id = if id = "" then Identifier.safeName (.str flow.name) else id
  name : Schema.required fields (.plain "name") Schema.readText = .ok flow.name
  version : Schema.optional fields (.plain "version") 1 Schema.readInteger = .ok flow.version
  createdAt : Schema.optional fields createdSlot now Schema.readText = .ok flow.createdAt
  updatedAt : Schema.optional fields updatedSlot none Schema.readTextOrNull = .ok flow.updatedAt
  steps : Schema.optional fields (.plain "steps") [] readSteps = .ok flow.steps
  extras : flow.extras = Schema.extras slots fields

theorem exists_of_ofValue {now : String} {v : Value} {flow : Flow}
    (hread' : ofValue now v = .ok flow) :
    ∃ fields, v = .dict fields ∧ flow.ReadFrom now (nameFromId fields) := by
  cases v with
  | dict fields =>
    simp only [ofValue] at hread'
    cases hparsed : ofFields now (nameFromId fields) with
    | bad issues =>
      rw [hparsed] at hread'
      cases hread'
    | ok parsedFlow =>
      rw [hparsed] at hread'
      cases hread'
      unfold ofFields at hparsed
      obtain ⟨⟨id, name, version, createdAt, updatedAt, steps⟩, hwhole, rfl⟩ :=
        Schema.map_eq_ok hparsed
      obtain ⟨hreadId, hrest⟩ := Schema.pair_eq_ok hwhole
      obtain ⟨hreadName, hrest⟩ := Schema.pair_eq_ok hrest
      obtain ⟨hreadVersion, hrest⟩ := Schema.pair_eq_ok hrest
      obtain ⟨hreadCreated, hrest⟩ := Schema.pair_eq_ok hrest
      obtain ⟨hreadUpdated, hreadSteps⟩ := Schema.pair_eq_ok hrest
      exact ⟨fields, rfl, ⟨id, hreadId, by simp [String.isEmpty_iff]⟩, hreadName, hreadVersion,
        hreadCreated, hreadUpdated, hreadSteps, rfl⟩
  | _ => cases hread'

theorem wellFormed_of_ofValue {now : String} {v : Value} (hdocument : v.IsDocument) {flow : Flow}
    (hread' : ofValue now v = .ok flow) : flow.WellFormed := by
  obtain ⟨fields, rfl, hparts⟩ := exists_of_ofValue hread'
  have hnamed := isDocument_nameFromId hdocument
  refine ⟨?_, ?_, ?_⟩
  · obtain ⟨id, -, hidentified⟩ := hparts.identified
    rw [hidentified]
    split
    · exact (Identifier.isName_safeName _).ne_empty
    · assumption
  · rw [hparts.extras]
    exact Schema.isRest_extras _ hnamed
  · intro e he
    rcases Schema.exists_of_optional hparts.steps with hnothing | ⟨key, v, hlisted, hread'⟩
    · simp [hnothing] at he
    · obtain ⟨item, hdocument, rfl⟩ :=
        exists_of_readSteps (Value.isDocumentFields_iff.1 hnamed.2 _ hlisted) hread' e he
      exact Entry.wellFormed_ofValue hdocument

theorem wellFormed_steps (preset : Preset) : ∀ e ∈ preset.steps, e.WellFormed := by
  cases preset
  simp [Preset.steps, Preset.step, Entry.WellFormed, Step.WellFormed, Schema.isRest_nil]

theorem wellFormed_make (now name : String) {steps : List Entry}
    (hwellFormed : ∀ e ∈ steps, e.WellFormed) : (make now name steps).WellFormed where
  identified := (Identifier.isName_safeName _).ne_empty
  rest := Schema.isRest_nil _
  steps := hwellFormed

theorem name_make_ne_empty (now name : String) (steps : List Entry) :
    (make now name steps).name ≠ "" := by
  rw [make]
  split
  · exact (Identifier.isName_safeName _).ne_empty
  · rename_i hnonempty
    simpa [String.isEmpty_iff] using hnonempty

/-! ## Reading a flow again -/

/-- The document of a flow, entry by entry. -/
theorem document_eq (flow : Flow) :
    flow.document =
      [("id", .str flow.id), ("name", .str flow.name), ("version", .int flow.version),
        ("createdAt", .str flow.createdAt)] ++
      (flow.updatedAt.toList.map fun t => ("updatedAt", Value.str t)) ++
      [("steps", .list (flow.steps.map Entry.storedDocument))] ++
      Value.plainFields (Fields.dropNulls flow.extras) := by
  cases h : flow.updatedAt <;>
    simp [document, entries, Fields.dropNulls, Value.isNull, Value.ofOption, h]

section

variable (flow : Flow)

@[simp] theorem get?_document_id : Fields.get? flow.document "id" = some (.str flow.id) := by
  simp [document_eq, Keyed.get?]

@[simp] theorem get?_document_name :
    Fields.get? flow.document "name" = some (.str flow.name) := by
  simp [document_eq, Keyed.get?]

@[simp] theorem get?_document_version :
    Fields.get? flow.document "version" = some (.int flow.version) := by
  simp [document_eq, Keyed.get?]

@[simp] theorem get?_document_createdAt :
    Fields.get? flow.document "createdAt" = some (.str flow.createdAt) := by
  simp [document_eq, Keyed.get?]

@[simp] theorem get?_document_steps :
    Fields.get? flow.document "steps" = some (.list (flow.steps.map Entry.storedDocument)) := by
  cases h : flow.updatedAt <;> simp [document_eq, Keyed.get?, h]

/-- The name that a flow has after it was read again. -/
def nameAgain : String := if flow.name = "" ∧ flow.id ≠ "" then flow.id else flow.name

@[simp] theorem nameFromId_document :
    nameFromId flow.document = { flow with name := flow.nameAgain }.document := by
  by_cases hunnamed : flow.name = "" ∧ flow.id ≠ ""
  · simp [nameFromId, nameAgain, hunnamed, Fields.getD, Value.isEmpty]
    simp [document_eq, Keyed.set, hunnamed]
  · rw [nameAgain, if_neg hunnamed, nameFromId]
    have hskips : ¬ (((Fields.getD flow.document "name").isEmpty &&
        !(Fields.getD flow.document "id").isEmpty) = true) := by
      simpa [Fields.getD, Value.isEmpty] using hunnamed
    exact if_neg hskips

end

/-- The time of creation is always written, so the time at which a document is read again does not
matter. -/
theorem ofValue_document_now (flow : Flow) (now now' : String) :
    ofValue now (.dict flow.document) = ofValue now' (.dict flow.document) := by
  simp [ofValue, ofFields, Schema.optional, createdSlot, Schema.Slot.find?]

theorem name_of_ofValue_document {flow again : Flow} (hnamed : flow.name ≠ "") {now : String}
    (hread' : ofValue now (.dict flow.document) = .ok again) : again.name = flow.name := by
  obtain ⟨fields, hsame, hparts⟩ := exists_of_ofValue hread'
  cases hsame
  have hkept : flow.name = again.name := by
    simpa [Schema.required, Schema.Slot.plain, Schema.Slot.find?, Schema.readText,
      Schema.Checked.ofExcept, Schema.Checked.under, nameAgain, hnamed] using hparts.name
  exact hkept.symm

theorem version_of_ofValue_document {flow again : Flow} {now : String}
    (hread' : ofValue now (.dict flow.document) = .ok again) : again.version = flow.version := by
  obtain ⟨fields, hsame, hparts⟩ := exists_of_ofValue hread'
  cases hsame
  simpa [Schema.optional, Schema.Slot.plain, Schema.Slot.find?, Schema.readInteger,
    Schema.Checked.ofExcept, Schema.Checked.under, eq_comm] using hparts.version

/-- A flow whose document counts as the same as what another flow is read from has its version. -/
theorem version_eq_of_same {flow old : Flow} {now : String} {held : Value}
    (hread' : ofValue now held = .ok old) (hsame : (Value.dict flow.document).same held = true) :
    old.version = flow.version := by
  obtain ⟨fields, rfl, hparts⟩ := exists_of_ofValue hread'
  obtain ⟨fields', ⟨⟩, -, hentries⟩ := Value.exists_of_same_dict hsame
  obtain ⟨v, hfound, hversion⟩ :=
    hentries (Keyed.mem_of_get?_eq_some flow.get?_document_version)
  have hkept : Fields.get? (nameFromId fields) "version" = some v := by
    unfold nameFromId
    dsimp only
    split
    · exact (Keyed.get?_set_of_ne _ _ (by decide)).trans hfound
    · exact hfound
  exact Value.readInteger_of_same hversion
    (Schema.read_of_optional (.plain "version") hkept hparts.version)

/-- A flow that has a name and no extras is read from whatever counts as the same as its document,
if its version takes fewer than sixty-three bits. -/
theorem exists_ofValue_of_same {flow : Flow} {held : Value} (hnamed : flow.name ≠ "")
    (hbare : flow.extras = []) (hsmall : flow.version.natAbs < Nat.pow 2 63)
    (hsame : (Value.dict flow.document).same held = true) (now : String) :
    ∃ again, ofValue now held = .ok again := by
  have hdocument := flow.document_eq
  rw [hbare] at hdocument
  obtain ⟨fields, rfl, -, hentries⟩ := Value.exists_of_same_dict hsame
  have hlisted {key : String} {v : Value} (hwritten : Fields.get? flow.document key = some v) :=
    hentries (Keyed.mem_of_get?_eq_some hwritten)
  obtain ⟨v₁, hid, hsame₁⟩ := hlisted flow.get?_document_id
  obtain ⟨v₂, hname, hsame₂⟩ := hlisted flow.get?_document_name
  obtain ⟨v₃, hversion, hsame₃⟩ := hlisted flow.get?_document_version
  obtain ⟨v₄, hcreatedAt, hsame₄⟩ := hlisted flow.get?_document_createdAt
  obtain ⟨v₅, hsteps, hsame₅⟩ := hlisted flow.get?_document_steps
  rw [Value.eq_str_of_same hsame₁] at hid
  rw [Value.eq_str_of_same hsame₂] at hname
  rw [Value.eq_str_of_same hsame₄] at hcreatedAt
  obtain ⟨items, rfl⟩ : ∃ items, v₅ = .list items := Value.exists_of_same_list hsame₅
  have hnodup : (keys flow.document).Nodup := by
    rw [hdocument]
    cases flow.updatedAt <;> simp [keys, Value.plainFields, Fields.dropNulls]
  have hperm := Value.keys_perm_of_same hnodup hsame
  have hupdatedAt : ∃ t, Schema.optional fields updatedSlot none Schema.readTextOrNull = .ok t := by
    cases hchanged : flow.updatedAt with
    | none =>
      have habsent : ∀ key ∈ ["updatedAt", "updated_at"], Fields.get? fields key = none := by
        intro key hone
        rw [Fields.get?, Keyed.get?_eq_none_iff]
        intro hthere
        have hwritten := hperm.mem_iff.2 hthere
        rw [hdocument, hchanged] at hwritten
        rcases List.mem_pair.1 hone with rfl | rfl <;>
          simp [keys, Value.plainFields, Fields.dropNulls] at hwritten
      exact ⟨none, by simp [Schema.optional, updatedSlot, Schema.Slot.find?, habsent]⟩
    | some t =>
      have hwritten : Fields.get? flow.document "updatedAt" = some (.str t) := by
        simp [hdocument, Keyed.get?, hchanged]
      obtain ⟨v, hthere, hsame⟩ := hlisted hwritten
      rw [Value.eq_str_of_same hsame] at hthere
      exact ⟨some t, by simp [Schema.optional, updatedSlot, Schema.Slot.find?, hthere,
        Schema.readTextOrNull, Schema.readText, Schema.Checked.ofExcept, Schema.Checked.under,
        Except.map]⟩
  have hkept : nameFromId fields = fields := by
    refine if_neg ?_
    simp [Fields.getD, hname, Value.isEmpty, hnamed]
  obtain ⟨t, hupdated⟩ := hupdatedAt
  simp only [ofValue, ofFields, hkept, hupdated]
  simp only [Schema.optional, Schema.required, Schema.Slot.plain, createdSlot, Schema.Slot.find?,
    hid, hname, hversion, hcreatedAt, hsteps, readSteps, Schema.readText,
    Value.readInteger_eq_of_same hsmall hsame₃, Schema.Checked.ofExcept, Schema.Checked.under]
  exact ⟨_, rfl⟩

theorem steps_of_ofValue_document {flow : Flow} {now : String} {again : Flow}
    (hread' : ofValue now (.dict flow.document) = .ok again) :
    again.steps = flow.steps.map fun e => Entry.ofValue e.storedDocument := by
  obtain ⟨fields, hsame, hparts⟩ := exists_of_ofValue hread'
  cases hsame
  simpa [Schema.optional, Schema.Slot.plain, Schema.Slot.find?, Flow.readSteps,
    Schema.Checked.ofExcept, Schema.Checked.under, eq_comm, Function.comp_def] using hparts.steps

theorem isTrimmed_of_ofValue_document {flow again : Flow} {now : String}
    (hread' : ofValue now (.dict flow.document) = .ok again) {s : Step}
    (hlisted : .step s ∈ again.steps) : s.IsTrimmed := by
  rw [steps_of_ofValue_document hread'] at hlisted
  obtain ⟨e, -, hsame⟩ := List.mem_map.1 hlisted
  exact Entry.isTrimmed_of_ofValue hsame

theorem get?_document_of_notMem {flow : Flow} {key : String} (hfresh : key ∉ keys flow.extras)
    (hunnamed : key ∉ slots.map (·.name)) : Fields.get? flow.document key = none := by
  rw [Fields.get?, Keyed.get?_eq_none_iff]
  simp only [document, keys, List.map_append, List.mem_append, not_or]
  constructor
  · intro hleft
    have hwritten := (List.filter_sublist.map _).subset hleft
    exact hunnamed hwritten
  · rw [← keys, Value.keys_plainFields]
    exact fun hleft => hfresh ((List.filter_sublist.map _).subset hleft)

theorem optional_updatedSlot_of_updatedAt {flow : Flow} {t : String}
    (hchanged : flow.updatedAt = some t) :
    Schema.optional flow.document updatedSlot none Schema.readTextOrNull = .ok (some t) := by
  have hfound : Fields.get? flow.document "updatedAt" = some (.str t) := by
    simp [document_eq, Keyed.get?, hchanged]
  simp [Schema.optional, updatedSlot, Schema.Slot.find?, hfound, Schema.readTextOrNull,
    Schema.readText, Schema.Checked.ofExcept, Schema.Checked.under, Except.map]

theorem exists_of_updatedSlot {flow : Flow} (hwellFormed : flow.WellFormed)
    (hsettled : flow.updatedAt = none → "updated_at" ∉ keys flow.extras) :
    ∃ t, Schema.optional flow.document updatedSlot none Schema.readTextOrNull = .ok t := by
  cases h : flow.updatedAt with
  | none =>
    have hfirst : Fields.get? flow.document "updatedAt" = none := by
      rw [Fields.get?, Keyed.get?_eq_none_iff]
      intro hleft
      have hfree := hwellFormed.rest.free updatedSlot (by simp [slots])
      simp only [document, keys, List.map_append, List.mem_append] at hleft
      rcases hleft with hleft | hleft
      · simp [entries, Fields.dropNulls, Value.isNull, h, Value.ofOption] at hleft
      · rw [← keys, Value.keys_plainFields] at hleft
        exact hfree ((List.filter_sublist.map _).subset hleft)
    have hsecond := get?_document_of_notMem (hsettled h) (by decide)
    exact ⟨none, by simp [Schema.optional, updatedSlot, Schema.Slot.find?, hfirst, hsecond]⟩
  | some t => exact ⟨some t, optional_updatedSlot_of_updatedAt h⟩

theorem exists_ofValue_document_of_updatedSlot {flow : Flow} {t : Option String}
    (hupdated : Schema.optional { flow with name := flow.nameAgain }.document updatedSlot none
      Schema.readTextOrNull = .ok t) (now : String) :
    ∃ again, ofValue now (.dict flow.document) = .ok again := by
  simp only [ofValue, ofFields, nameFromId_document, hupdated]
  simp only [Schema.optional, Schema.required, Schema.Slot.plain, createdSlot, Schema.Slot.find?,
    get?_document_id, get?_document_name, get?_document_version, get?_document_createdAt,
    get?_document_steps, readSteps, Schema.readText, Schema.readInteger, Schema.Checked.ofExcept,
    Schema.Checked.under]
  exact ⟨_, rfl⟩

theorem exists_ofValue_document_of_updatedAt {flow : Flow} {t : String}
    (hchanged : flow.updatedAt = some t) (now : String) :
    ∃ again, ofValue now (.dict flow.document) = .ok again :=
  exists_ofValue_document_of_updatedSlot (optional_updatedSlot_of_updatedAt hchanged) now

theorem exists_ofValue_document {flow : Flow} (hwellFormed : flow.WellFormed)
    (hsettled : flow.updatedAt = none → "updated_at" ∉ keys flow.extras) (now : String) :
    ∃ again, ofValue now (.dict flow.document) = .ok again := by
  have hrenamed : { flow with name := flow.nameAgain }.WellFormed :=
    ⟨hwellFormed.identified, hwellFormed.rest, hwellFormed.steps⟩
  obtain ⟨t, hupdated⟩ := exists_of_updatedSlot hrenamed hsettled
  exact exists_ofValue_document_of_updatedSlot hupdated now

/-- A question stays the question that it is when its flow is read again. -/
theorem exists_question_of_ofValue_document {flow again : Flow} {now : String}
    (hread' : ofValue now (.dict flow.document) = .ok again) {index : Nat} {s : Step}
    {field text : String} (hfound : flow.steps[index]? = some (.step s))
    (hasks : s.action = .question field text) (htrimmed : s.IsTrimmed) :
    ∃ s', again.steps[index]? = some (.step s') ∧ s'.action = .question field text := by
  obtain ⟨s', hsame, haction⟩ := Step.ofValue?_storedDocument_question hasks htrimmed
  refine ⟨s', ?_, haction⟩
  rw [steps_of_ofValue_document hread', List.getElem?_map, hfound]
  simp [Entry.storedDocument, Entry.ofValue, hsame]

/-! ## Flows that are read again -/

/-- The extras hold finite numbers only. -/
def IsFinite (flow : Flow) : Prop := ∀ e ∈ flow.extras, e.2.isFinite = true

/-- The entries are read from documents with finite numbers. -/
def IsRead (flow : Flow) : Prop :=
  ∀ e ∈ flow.steps, ∃ item : Value, item.IsPlain ∧ e = Entry.ofValue item

/-- No field is left out while the extras have its older spelling: neither the time of change, where
only a text or null could take its place, nor a field of a condition. -/
structure Settled (flow : Flow) : Prop where
  time : flow.updatedAt = none →
    ∃ t, Schema.readTextOrNull (Fields.getD flow.extras updatedSlot.older) = .ok t
  steps : ∀ e ∈ flow.steps, e.Settled

/-! ## Flows that are read from documents -/

variable {now : String} {v : Value} {flow : Flow}

theorem isPlain_nameFromId {fields : Fields} (hplain : (Value.dict fields).IsPlain) :
    (Value.dict (nameFromId fields)).IsPlain := by
  refine ⟨isDocument_nameFromId hplain.1, Value.isFiniteFields_iff.2 fun e hlisted => ?_⟩
  have hall := Value.isFiniteFields_iff.1 hplain.2
  rcases mem_nameFromId hlisted with hlisted | ⟨-, hidentifier⟩
  · exact hall e hlisted
  · exact hall ("id", e.2) hidentifier

theorem isFinite_of_ofValue (hplain : v.IsPlain) (hread' : ofValue now v = .ok flow) :
    flow.IsFinite := by
  obtain ⟨fields, rfl, hparts⟩ := exists_of_ofValue hread'
  intro e hlisted
  rw [hparts.extras] at hlisted
  exact Value.isFiniteFields_iff.1 (isPlain_nameFromId hplain).2 e (List.mem_filter.1 hlisted).1

theorem isRead_of_ofValue (hplain : v.IsPlain) (hread' : ofValue now v = .ok flow) :
    flow.IsRead := by
  obtain ⟨fields, rfl, hparts⟩ := exists_of_ofValue hread'
  intro e hlisted
  rcases Schema.exists_of_optional hparts.steps with hnothing | ⟨key, w, hwritten, hreadSteps⟩
  · simp [hnothing] at hlisted
  · have hplain : w.IsPlain := (Value.isPlain_dict_iff.1 (isPlain_nameFromId hplain)).2 _ hwritten
    cases w with
    | null =>
      have hnothing : [] = flow.steps := Except.ok.inj hreadSteps
      simp [← hnothing] at hlisted
    | list items =>
      have hentries : items.map Entry.ofValue = flow.steps := Except.ok.inj hreadSteps
      rw [← hentries] at hlisted
      obtain ⟨item, hfound, rfl⟩ := List.mem_map.1 hlisted
      exact ⟨item, Value.isPlain_list_iff.1 hplain item hfound, rfl⟩
    | _ => cases hreadSteps

/-! ## When reading again changes nothing -/

/-- Where the time of change was left out, it is read from what the extras hold under its older
name. -/
theorem optional_updatedSlot_document (hwellFormed : flow.WellFormed) (hfinite : flow.IsFinite)
    (hunset : flow.updatedAt = none) (t : Option String) :
    Schema.optional flow.document updatedSlot none Schema.readTextOrNull = .ok t ↔
      Schema.readTextOrNull (Fields.getD flow.extras updatedSlot.older) = .ok t := by
  have hnames : keys flow.entries = slots.map (·.name) := rfl
  have hfirst : Fields.get? flow.document updatedSlot.name = none := by
    rw [document, Schema.get?_record_name hnames (by decide) hwellFormed.rest (by decide)]
    simp [entries, Keyed.get?, updatedSlot, hunset, Value.ofOption, Value.isNull, Option.filter]
  have hsecond : Fields.get? flow.document updatedSlot.older =
      (Fields.get? flow.extras updatedSlot.older).filter fun v => !v.isNull := by
    rw [document]
    exact Schema.get?_record_extra hnames hwellFormed.rest hfinite (by decide)
  rw [Schema.optional, Schema.Slot.find?, hfirst, hsecond, Fields.getD]
  cases hfound : Fields.get? flow.extras updatedSlot.older with
  | none => simp [Schema.readTextOrNull]
  | some v =>
    cases v <;>
      simp [Option.filter, Value.isNull, Schema.readTextOrNull, Schema.readText, Except.map,
        Schema.Checked.ofExcept, Schema.Checked.under, Schema.Checked.fault]

/-- A flow is read again exactly if a time of change that was left out is. -/
theorem exists_ofValue_document_iff (hwellFormed : flow.WellFormed) (hfinite : flow.IsFinite) :
    (∃ again, ofValue now (.dict flow.document) = .ok again) ↔
      (flow.updatedAt = none →
        ∃ t, Schema.readTextOrNull (Fields.getD flow.extras updatedSlot.older) = .ok t) := by
  -- the name may change, which the time of change does not depend on
  have hrenamed : { flow with name := flow.nameAgain }.WellFormed :=
    ⟨hwellFormed.identified, hwellFormed.rest, hwellFormed.steps⟩
  constructor
  · rintro ⟨again, hread'⟩ hunset
    obtain ⟨fields, hsame, hparts⟩ := exists_of_ofValue hread'
    cases hsame
    have hupdated := hparts.updatedAt
    rw [nameFromId_document] at hupdated
    exact ⟨_, (optional_updatedSlot_document hrenamed hfinite hunset _).1 hupdated⟩
  · intro hsettled
    cases hunset : flow.updatedAt with
    | none =>
      obtain ⟨t, hread'⟩ := hsettled hunset
      exact exists_ofValue_document_of_updatedSlot
        ((optional_updatedSlot_document hrenamed hfinite hunset t).2 hread') now
    | some t => exact exists_ofValue_document hwellFormed (by simp [hunset]) now

/-- Storing a flow and reading it again gives a flow that does the same step by step exactly if the
flow is settled. -/
theorem exists_same_again_iff (hwellFormed : flow.WellFormed) (hfinite : flow.IsFinite)
    (hread : flow.IsRead) (now : String) :
    (∃ again, ofValue now (.dict flow.document) = .ok again ∧
      List.Forall₂ Entry.Same flow.steps again.steps) ↔ flow.Settled := by
  have hsteps : List.Forall₂ Entry.Same flow.steps
      (flow.steps.map fun e => Entry.ofValue e.storedDocument) ↔
        ∀ e ∈ flow.steps, e.Settled := by
    rw [List.forall₂_map_right_iff, List.forall₂_same]
    refine forall₂_congr fun e hlisted => ?_
    obtain ⟨item, hplain, rfl⟩ := hread e hlisted
    exact Entry.same_again_iff hplain
  constructor
  · rintro ⟨again, hread', hsame⟩
    rw [steps_of_ofValue_document hread'] at hsame
    exact ⟨(exists_ofValue_document_iff hwellFormed hfinite).1 ⟨again, hread'⟩, hsteps.1 hsame⟩
  · rintro ⟨htime, hsettled⟩
    obtain ⟨again, hread'⟩ := (exists_ofValue_document_iff hwellFormed hfinite).2 htime
    refine ⟨again, hread', ?_⟩
    rw [steps_of_ofValue_document hread']
    exact hsteps.2 hsettled

end Dialogue.Flow

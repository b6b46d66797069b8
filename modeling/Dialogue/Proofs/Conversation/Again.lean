import Dialogue.Proofs.Conversation.Document

/-!
# Conversations that others stored are written and read again

A conversation may have been stored by others, with extras.  If its numbers are finite, it is read
again as it was once it was written (`IsSound.ofValue_document`): the entries of its fields are all
written, so none of them is looked for among the extras.
-/

namespace Dialogue.Conversation

open Keyed (keys)

/-- A conversation whose numbers are finite, with extras such as reading a document leaves over. -/
structure IsSound (c : Conversation) : Prop where
  rest : Schema.IsRest slots c.extras
  extras : (Value.dict c.extras).isFinite = true
  data : (Value.dict c.data).IsPlain
  updated : ∃ t, c.updatedAt = .str t
  inbound : ∃ t, c.lastInboundAt = .ofOption t
  completed : ∃ t, c.completedAt = .ofOption t

variable {c : Conversation}

theorem IsPlain.isSound (hplain : c.IsPlain) : c.IsSound where
  rest := hplain.bare ▸ Schema.isRest_nil _
  extras := by rw [hplain.bare]; rfl
  data := hplain.data
  updated := hplain.updated
  inbound := hplain.inbound
  completed := hplain.completed

theorem IsSound.isWritable (hsound : c.IsSound) : c.IsWritable := by
  obtain ⟨t, hupdated⟩ := hsound.updated
  obtain ⟨u, hinbound⟩ := hsound.inbound
  obtain ⟨v, hcompleted⟩ := hsound.completed
  exact ⟨hsound.rest, hsound.data.1, hupdated ▸ trivial, hinbound ▸ (Schema.isPlain_ofOption u).1,
    hcompleted ▸ (Schema.isPlain_ofOption v).1⟩

/-- The conversation with every number that is not finite replaced by null. -/
def plain (c : Conversation) : Conversation :=
  { c with data := Value.plainFields c.data, extras := Value.plainFields c.extras }

theorem document_plain (c : Conversation) : c.plain.document = c.document := by
  have hdata := Value.plainFields_of_isFinite _ (Value.isFiniteFields_plainFields c.data)
  have hextras := Value.plainFields_of_isFinite _ (Value.isFiniteFields_plainFields c.extras)
  simp only [document, entries, plain, hdata, hextras]

theorem isSound_plain_of_ofValue {now : String} {v : Value} (hdocument : v.IsDocument)
    (hread : ofValue now v = .ok c) : c.plain.IsSound := by
  have hwritable := isWritable_of_ofValue hdocument hread
  obtain ⟨hupdated, hinbound, hcompleted⟩ : (∃ t, c.updatedAt = .str t) ∧
      (∃ t, c.lastInboundAt = .ofOption t) ∧ ∃ t, c.completedAt = .ofOption t := by
    cases v with
    | dict fields =>
      obtain ⟨_, -, rfl⟩ := Schema.map_eq_ok (Schema.toExcept_eq_ok hread)
      exact ⟨⟨_, rfl⟩, ⟨_, rfl⟩, ⟨_, rfl⟩⟩
    | _ => cases hread
  refine ⟨⟨?_, fun e hlisted => ?_, fun slot hwithin => ?_⟩, Value.isFiniteFields_plainFields _,
    Value.isPlain_plain hwritable.data, hupdated, hinbound, hcompleted⟩
  · rw [plain, Value.keys_plainFields]
    exact hwritable.rest.nodup
  · have hdocuments := Value.isDocumentFields_iff.2 hwritable.rest.documents
    exact Value.isDocumentFields_iff.1 (Value.isDocumentFields_plainFields _ hdocuments) e hlisted
  · rw [plain, Value.keys_plainFields]
    exact hwritable.rest.free slot hwithin

/-! ## Reading a conversation again -/

/-- The entries for the fields of a conversation. -/
theorem IsSound.entries_eq (hsound : c.IsSound) :
    c.entries =
      [("flow", .str c.flow), ("stepIndex", .int c.stepIndex),
        ("waiting", (c.waiting.map Waiting.document).getD .null), ("data", .dict c.data),
        ("startedAt", .str c.startedAt), ("updatedAt", c.updatedAt),
        ("lastInboundAt", c.lastInboundAt), ("completedAt", c.completedAt)] ++
      c.handoff.toList.map fun h => ("handoff", h.document) := by
  have hbare : IsPlain { c with extras := [] } :=
    ⟨rfl, hsound.data, hsound.updated, hsound.inbound, hsound.completed⟩
  have hsame : c.entries = document { c with extras := [] } := by
    rw [document]
    exact (List.append_nil _).symm
  rw [hsame, hbare.document_eq]

theorem IsSound.document_eq (hsound : c.IsSound) : c.document = c.entries ++ c.extras := by
  rw [document, Value.plainFields_of_isFinite _ hsound.extras]

theorem IsSound.get?_document (hsound : c.IsSound) {slot : Schema.Slot} (hlisted : slot ∈ slots) :
    Fields.get? c.document slot.name = Fields.get? c.entries slot.name := by
  have hfree : Keyed.get? c.extras slot.name = none :=
    Keyed.get?_eq_none_iff.2 (hsound.rest.free slot hlisted)
  rw [hsound.document_eq, Fields.get?, Keyed.get?_append, hfree, Option.or_none]

/-- A field is found under its name, if it was written at all. -/
theorem IsSound.find?_document (hsound : c.IsSound) {slot : Schema.Slot} (hlisted : slot ∈ slots) :
    slot.find? c.document = (Fields.get? c.entries slot.name).map fun v => (slot.name, v) := by
  rw [Schema.Slot.find?, hsound.get?_document hlisted]
  cases hfound : Fields.get? c.entries slot.name with
  | some v => rfl
  | none =>
    have hunwritten : slot = .plain "handoff" := by
      rw [hsound.entries_eq] at hfound
      simp only [slots, List.mem_cons, List.not_mem_nil, or_false] at hlisted
      rcases hlisted with rfl | rfl | rfl | rfl | rfl | rfl | rfl | rfl | rfl <;>
        first | rfl | simp [Keyed.get?, Schema.Slot.plain, stepSlot, startedSlot, updatedSlot,
          lastInboundSlot, completedSlot] at hfound
    have hagain : Fields.get? c.document slot.older = none := by
      subst hunwritten
      exact (hsound.get?_document hlisted).trans hfound
    rw [hagain]
    rfl

theorem IsSound.extras_document (hsound : c.IsSound) :
    Schema.extras slots c.document = c.extras := by
  have hgone : ∀ e ∈ c.entries, e.1 ∈ slots.flatMap (·.taken c.document) := by
    intro e hlisted
    have hnamed : e.1 ∈ slots.map (·.name) :=
      c.keys_entries_sublist.subset (List.mem_map_of_mem hlisted)
    obtain ⟨slot, hwithin, hname⟩ := List.mem_map.1 hnamed
    refine List.mem_flatMap.2 ⟨slot, hwithin, hname ▸ Schema.name_mem_taken ?_⟩
    rw [hname, hsound.document_eq]
    exact List.mem_map_of_mem (List.mem_append_left _ hlisted)
  have hleft : ∀ e ∈ c.extras, e.1 ∉ slots.flatMap (·.taken c.document) := by
    intro e hlisted htaken
    obtain ⟨slot, hwithin, htaken⟩ := List.mem_flatMap.1 htaken
    rw [Schema.Slot.taken, hsound.find?_document hwithin] at htaken
    have hname : e.1 = slot.name := by
      cases hfound : Fields.get? c.entries slot.name <;> simp_all
    exact hsound.rest.free slot hwithin (hname ▸ List.mem_map_of_mem hlisted)
  rw [Schema.extras, Fields.without, hsound.document_eq, List.filter_append, ← hsound.document_eq,
    List.filter_eq_nil_iff.2 fun e hlisted => by simpa using hgone e hlisted,
    List.filter_eq_self.2 fun e hlisted => by simpa using hleft e hlisted, List.nil_append]

theorem IsSound.ofValue_document (hsound : c.IsSound) (now : String) :
    ofValue now (.dict c.document) = .ok c := by
  have hextras := hsound.extras_document
  have hentries := hsound.entries_eq
  obtain ⟨t, hupdated⟩ := hsound.updated
  obtain ⟨u, hinbound⟩ := hsound.inbound
  obtain ⟨v, hcompleted⟩ := hsound.completed
  simp only [ofValue, ofFields, Schema.required, Schema.optional, Schema.optionalRecord, hextras]
  have hfind : ∀ slot ∈ slots, slot.find? c.document =
      (Fields.get? c.entries slot.name).map fun v => (slot.name, v) :=
    fun slot hlisted => hsound.find?_document hlisted
  simp only [slots, List.forall_mem_cons, hentries] at hfind
  obtain ⟨hflow, hstepIndex, hwaiting, hdata, hstarted, hupdatedAt, hlastInbound, hcompletedAt,
    handoff, -⟩ := hfind
  simp only [hflow, hstepIndex, hwaiting, hdata, hstarted, hupdatedAt, hlastInbound, hcompletedAt,
    handoff]
  clear hflow hstepIndex hwaiting hdata hstarted hupdatedAt hlastInbound hcompletedAt handoff
    hextras hentries
  obtain ⟨flow, stepIndex, waiting, data, startedAt, updatedAt, lastInboundAt, completedAt,
    handoff, extras⟩ := c
  simp only at hupdated hinbound hcompleted
  subst hupdated hinbound hcompleted
  cases handoff <;>
    simp [Schema.Slot.plain, stepSlot, startedSlot, updatedSlot,
      lastInboundSlot, completedSlot, Keyed.get?, Schema.readText,
      Schema.readInteger, Schema.readObject, Schema.Checked.ofExcept, Schema.Checked.under,
      ofValue_waiting, ofValue_handoff, readTextOrNull_ofOption, Schema.Checked.pair,
      Schema.Checked.map, Schema.Checked.toExcept]

end Dialogue.Conversation

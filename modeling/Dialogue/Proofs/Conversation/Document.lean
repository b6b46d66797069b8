import Dialogue.Conversation.Document
import Dialogue.Proofs.Schema.Record

/-!
# Conversations are written and read again

A conversation that the engine stores is plain: its answers are plain documents, its times are texts
or null, and it has no extras (`Conversation.IsPlain`).  Such a conversation is written as a plain
document and read again as it was (`ofValue_document`).

A conversation may also have been stored by others, with extras and with numbers that are not
finite.  If it was read from a document, it is still written as a plain one
(`IsWritable.isPlain_document`).
-/

namespace Dialogue.Conversation

open Keyed (keys)

/-- A conversation that the engine stores. -/
structure IsPlain (c : Conversation) : Prop where
  bare : c.extras = []
  data : (Value.dict c.data).IsPlain
  updated : ∃ t, c.updatedAt = .str t
  inbound : ∃ t, c.lastInboundAt = .ofOption t
  completed : ∃ t, c.completedAt = .ofOption t

variable {c : Conversation}

theorem isPlain_waiting (w : Option Waiting) :
    ((w.map Waiting.document).getD .null).IsPlain := by
  cases w with
  | none => exact Schema.isPlain_null
  | some w =>
    refine Value.isPlain_dict_iff.2 ⟨by simp, ?_⟩
    simp [Schema.isPlain_str, Schema.isPlain_int]

theorem isPlain_handoff (h : Handoff) : h.document.IsPlain := by
  refine Value.isPlain_dict_iff.2 ⟨by simp, ?_⟩
  simp [Schema.isPlain_str]

/-- The document of a plain conversation, entry by entry. -/
theorem IsPlain.document_eq (hplain : c.IsPlain) :
    c.document =
      [("flow", .str c.flow), ("stepIndex", .int c.stepIndex),
        ("waiting", (c.waiting.map Waiting.document).getD .null), ("data", .dict c.data),
        ("startedAt", .str c.startedAt), ("updatedAt", c.updatedAt),
        ("lastInboundAt", c.lastInboundAt), ("completedAt", c.completedAt)] ++
      c.handoff.toList.map fun h => ("handoff", h.document) := by
  obtain ⟨t, hupdated⟩ := hplain.updated
  obtain ⟨u, hinbound⟩ := hplain.inbound
  obtain ⟨v, hcompleted⟩ := hplain.completed
  have hdata : Value.plainFields c.data = c.data := by
    simpa [Value.plain] using hplain.data.plain_eq
  have htext : ∀ s, (Value.ofOption s).plain = .ofOption s := fun s =>
    (Schema.isPlain_ofOption s).plain_eq
  have handoff : (c.handoff.map fun h => ("handoff", h.document)).toList =
      c.handoff.toList.map fun h => ("handoff", h.document) := by
    cases c.handoff <;> rfl
  simp [document, entries, hplain.bare, hdata, hupdated, hinbound, hcompleted, htext, handoff,
    Value.plainFields, (Schema.isPlain_str t).plain_eq]

theorem IsPlain.isPlain_document (hplain : c.IsPlain) : (Value.dict c.document).IsPlain := by
  obtain ⟨t, hupdated⟩ := hplain.updated
  obtain ⟨u, hinbound⟩ := hplain.inbound
  obtain ⟨v, hcompleted⟩ := hplain.completed
  rw [Value.isPlain_dict_iff, hplain.document_eq]
  constructor
  · cases c.handoff <;> simp [keys]
  · cases c.handoff <;>
      simp [hupdated, hinbound, hcompleted, Schema.isPlain_str, Schema.isPlain_int,
        Schema.isPlain_ofOption, isPlain_waiting, isPlain_handoff, hplain.data]

theorem IsPlain.document_ne_nil (hplain : c.IsPlain) : c.document ≠ [] := by
  simp [hplain.document_eq]

/-! ## Reading a conversation again -/

theorem ofValue_waiting (w : Option Waiting) :
    Waiting.ofValue ((w.map Waiting.document).getD .null) = .ok w := by
  cases w <;> rfl

theorem ofValue_handoff (h : Handoff) : Handoff.ofValue h.document = .ok (some h) := rfl

theorem readTextOrNull_ofOption (t : Option String) :
    Schema.readTextOrNull (.ofOption t) = .ok t := by
  cases t <;> rfl

/-- A plain conversation is read again as it was. -/
theorem IsPlain.ofValue_document (hplain : c.IsPlain) (now : String) :
    ofValue now (.dict c.document) = .ok c := by
  obtain ⟨t, hupdated⟩ := hplain.updated
  obtain ⟨u, hinbound⟩ := hplain.inbound
  obtain ⟨v, hcompleted⟩ := hplain.completed
  obtain ⟨flow, stepIndex, waiting, data, startedAt, updatedAt, lastInboundAt, completedAt,
    handoff, extras⟩ := c
  obtain rfl : extras = [] := hplain.bare
  simp only at hupdated hinbound hcompleted
  subst hupdated hinbound hcompleted
  cases handoff <;>
    simp [hplain.document_eq, ofValue, ofFields, Schema.required, Schema.optional,
      Schema.optionalRecord, Schema.Slot.plain, stepSlot, startedSlot, updatedSlot,
      lastInboundSlot, completedSlot, Schema.Slot.find?, Keyed.get?, Schema.readText,
      Schema.readInteger, Schema.readObject, Schema.Checked.ofExcept, Schema.Checked.under,
      ofValue_waiting, ofValue_handoff, readTextOrNull_ofOption, Schema.Checked.pair,
      Schema.Checked.map, Schema.Checked.toExcept, Schema.extras, slots, Schema.Slot.taken,
      Fields.without]

/-! ## Conversations that others stored -/

/-- The parts of a conversation are such as a document holds. -/
structure IsWritable (c : Conversation) : Prop where
  rest : Schema.IsRest slots c.extras
  data : (Value.dict c.data).IsDocument
  updated : c.updatedAt.IsDocument
  inbound : c.lastInboundAt.IsDocument
  completed : c.completedAt.IsDocument

theorem keys_entries_sublist (c : Conversation) :
    (keys c.entries).Sublist (slots.map (·.name)) := by
  cases handoff : c.handoff with
  | none => simp [entries, keys, slots, handoff, Schema.Slot.plain, stepSlot, startedSlot,
      updatedSlot, lastInboundSlot, completedSlot]
  | some h => simp [entries, keys, slots, handoff, Schema.Slot.plain, stepSlot, startedSlot,
      updatedSlot, lastInboundSlot, completedSlot]

theorem IsWritable.isPlain_entries (hwritable : c.IsWritable) : ∀ e ∈ c.entries, e.2.IsPlain := by
  have hdata : (Value.dict (Value.plainFields c.data)).IsPlain := Value.isPlain_plain hwritable.data
  have handoff : ∀ e ∈ (c.handoff.map fun h => ("handoff", h.document)).toList, e.2.IsPlain := by
    cases c.handoff <;> simp [isPlain_handoff]
  simp only [entries, List.forall_mem_append, List.forall_mem_cons]
  exact ⟨⟨Schema.isPlain_str _, Schema.isPlain_int _, isPlain_waiting _, hdata,
    Schema.isPlain_str _,
    Value.isPlain_plain hwritable.updated, Value.isPlain_plain hwritable.inbound,
    Value.isPlain_plain hwritable.completed, by simp⟩, handoff⟩

theorem IsWritable.isPlain_document (hwritable : c.IsWritable) :
    (Value.dict c.document).IsPlain := by
  have hnamed : (slots.map (·.name)).Nodup := by decide
  have hjoined : keys c.document = keys c.entries ++ keys c.extras := by
    rw [document, keys, List.map_append, ← keys, ← keys, Value.keys_plainFields]
  refine Value.isPlain_dict_iff.2 ⟨?_, fun e hlisted => ?_⟩
  · rw [hjoined]
    refine List.nodup_append.2
      ⟨hnamed.sublist c.keys_entries_sublist, hwritable.rest.nodup, ?_⟩
    rintro key hentry _ hextra rfl
    obtain ⟨slot, hlisted, rfl⟩ := List.mem_map.1 (c.keys_entries_sublist.subset hentry)
    exact hwritable.rest.free slot hlisted hextra
  · rcases List.mem_append.1 hlisted with hentry | hextra
    · exact hwritable.isPlain_entries e hentry
    · rw [Value.plainFields_eq_map] at hextra
      obtain ⟨e', hwithin, rfl⟩ := List.mem_map.1 hextra
      exact Value.isPlain_plain (hwritable.rest.documents e' hwithin)

theorem isWritable_of_ofValue {now : String} {v : Value} (hdocument : v.IsDocument)
    (hread : ofValue now v = .ok c) : c.IsWritable := by
  cases v with
  | dict fields =>
    have hparsed := Schema.toExcept_eq_ok hread
    obtain ⟨⟨flow, stepIndex, waiting, data, startedAt, updatedAt, lastInboundAt, completedAt,
      handoff⟩, hwhole, rfl⟩ := Schema.map_eq_ok hparsed
    obtain ⟨-, hrest⟩ := Schema.pair_eq_ok hwhole
    obtain ⟨-, hrest⟩ := Schema.pair_eq_ok hrest
    obtain ⟨-, hrest⟩ := Schema.pair_eq_ok hrest
    obtain ⟨hreadData, -⟩ := Schema.pair_eq_ok hrest
    refine ⟨Schema.isRest_extras slots hdocument, ?_, trivial, ?_, ?_⟩
    · rcases Schema.exists_of_optional hreadData with rfl | ⟨key, v, hlisted, hread⟩
      · exact ⟨List.nodup_nil, trivial⟩
      · cases v with
        | dict fields' =>
          cases hread
          exact Value.isDocumentFields_iff.1 hdocument.2 _ hlisted
        | _ => cases hread
    · exact (Schema.isPlain_ofOption lastInboundAt).1
    · exact (Schema.isPlain_ofOption completedAt).1
  | _ => cases hread

end Dialogue.Conversation

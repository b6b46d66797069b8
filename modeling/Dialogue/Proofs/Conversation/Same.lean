import Dialogue.Proofs.Conversation.Again
import Dialogue.Proofs.Value.Same

/-!
# Conversations whose documents count as the same

A store may leave a document alone that counts as the same as the one that is put in its place.  For
a conversation that goes on from the one that was stored (`Conversation.Continues`) this makes no
difference: if the documents count as the same then the conversations are the same
(`Continues.eq_of_same`).  Its collected answers and its extras are those that were stored, or a
text was set among the answers, or there are none.

A document that no conversation can be read from is another matter, since a number may be written so
that it cannot be read.  For a conversation without data it takes a step number of sixty-three bits
for that (`ofValue_eq_of_same`).
-/

namespace Dialogue.Conversation

open Keyed (keys)

variable {b c : Conversation} {held : Value} {now : String} {fields : Fields}

/-! ## What a conversation is read from -/

/-- The conversation is read from the entries of a document, field by field. -/
structure ReadFrom (c : Conversation) (now : String) (fields : Fields) : Prop where
  flow : Schema.required fields (.plain "flow") Schema.readText = .ok c.flow
  stepIndex : Schema.optional fields stepSlot 0 Schema.readInteger = .ok c.stepIndex
  waiting : Schema.optionalRecord fields (.plain "waiting") none Waiting.ofValue = .ok c.waiting
  data : Schema.optional fields (.plain "data") [] Schema.readObject = .ok c.data
  startedAt : Schema.optional fields startedSlot now Schema.readText = .ok c.startedAt
  updatedAt : ∃ t, Schema.optional fields updatedSlot now Schema.readText = .ok t ∧
    c.updatedAt = .str t
  lastInboundAt : ∃ t, Schema.optional fields lastInboundSlot none Schema.readTextOrNull = .ok t ∧
    c.lastInboundAt = .ofOption t
  completedAt : ∃ t, Schema.optional fields completedSlot none Schema.readTextOrNull = .ok t ∧
    c.completedAt = .ofOption t
  handoff : Schema.optionalRecord fields (.plain "handoff") none Handoff.ofValue = .ok c.handoff
  extras : c.extras = Schema.extras slots fields

theorem ofValue_dict_eq_ok_iff : ofValue now (.dict fields) = .ok c ↔ c.ReadFrom now fields := by
  constructor
  · intro hread
    obtain ⟨⟨flow, stepIndex, waiting, data, startedAt, updatedAt, lastInboundAt, completedAt,
      handoff⟩, hwhole, rfl⟩ := Schema.map_eq_ok (Schema.toExcept_eq_ok hread)
    obtain ⟨hreadFlow, hrest⟩ := Schema.pair_eq_ok hwhole
    obtain ⟨hreadStep, hrest⟩ := Schema.pair_eq_ok hrest
    obtain ⟨hreadWaiting, hrest⟩ := Schema.pair_eq_ok hrest
    obtain ⟨hreadData, hrest⟩ := Schema.pair_eq_ok hrest
    obtain ⟨hreadStarted, hrest⟩ := Schema.pair_eq_ok hrest
    obtain ⟨hreadUpdated, hrest⟩ := Schema.pair_eq_ok hrest
    obtain ⟨hreadInbound, hrest⟩ := Schema.pair_eq_ok hrest
    obtain ⟨hreadCompleted, hreadHandoff⟩ := Schema.pair_eq_ok hrest
    exact ⟨hreadFlow, hreadStep, hreadWaiting, hreadData, hreadStarted, ⟨_, hreadUpdated, rfl⟩,
      ⟨_, hreadInbound, rfl⟩, ⟨_, hreadCompleted, rfl⟩, hreadHandoff, rfl⟩
  · intro hparts
    obtain ⟨t, hupdatedAt, hupdated⟩ := hparts.updatedAt
    obtain ⟨u, hlastInboundAt, hinbound⟩ := hparts.lastInboundAt
    obtain ⟨v, hcompletedAt, hcompleted⟩ := hparts.completedAt
    simp only [ofValue, ofFields, hparts.flow, hparts.stepIndex, hparts.waiting, hparts.data,
      hparts.startedAt, hupdatedAt, hlastInboundAt, hcompletedAt, hparts.handoff,
        Schema.Checked.pair,
      Schema.Checked.map, Schema.Checked.toExcept, ← hupdated, ← hinbound, ← hcompleted,
      ← hparts.extras]

/-! ## What counts as the same as a conversation -/

/-- Entries count as the same as those of a conversation, its extras apart. -/
structure Matches (c : Conversation) (fields : Fields) : Prop where
  perm : (Keyed.keys c.document).Perm (Keyed.keys fields)
  flow : Fields.get? fields "flow" = some (.str c.flow)
  stepIndex : ∃ v, Fields.get? fields "stepIndex" = some v ∧
    (Value.int c.stepIndex).same v = true
  waiting : ∃ v, Fields.get? fields "waiting" = some v ∧
    ((c.waiting.map Waiting.document).getD .null).same v = true
  data : ∃ a, Fields.get? fields "data" = some (.dict a) ∧
    (Value.dict c.data).same (.dict a) = true
  startedAt : Fields.get? fields "startedAt" = some (.str c.startedAt)
  updatedAt : Fields.get? fields "updatedAt" = some c.updatedAt
  lastInboundAt : Fields.get? fields "lastInboundAt" = some c.lastInboundAt
  completedAt : Fields.get? fields "completedAt" = some c.completedAt
  handoff : ∀ h, c.handoff = some h → ∃ v, Fields.get? fields "handoff" = some v ∧
    h.document.same v = true

theorem IsSound.matches_of_same (hsound : c.IsSound)
    (hsame : (Value.dict c.document).same held = true) :
    ∃ fields, held = .dict fields ∧ c.Matches fields := by
  obtain ⟨t, hupdated⟩ := hsound.updated
  obtain ⟨u, hinbound⟩ := hsound.inbound
  obtain ⟨v, hcompleted⟩ := hsound.completed
  obtain ⟨fields, rfl, -, hentries⟩ := Value.exists_of_same_dict hsame
  have hwritten : ∀ e ∈ c.entries, ∃ v, Fields.get? fields e.1 = some v ∧ e.2.same v = true := by
    intro e hlisted
    have hwhole : (e.1, e.2) ∈ c.document := by
      rw [hsound.document_eq]
      exact List.mem_append_left _ hlisted
    exact hentries hwhole
  simp only [hsound.entries_eq, List.forall_mem_append, List.forall_mem_cons] at hwritten
  obtain ⟨⟨⟨v₁, hflow, hsame₁⟩, hstepIndex, hwaiting, ⟨v₄, hdata, hsame₄⟩, ⟨v₅, hstartedAt, hsame₅⟩,
    ⟨v₆, hupdatedAt, hsame₆⟩, ⟨v₇, hlastInboundAt, hsame₇⟩, ⟨v₈, hcompletedAt, hsame₈⟩, -⟩,
    hands⟩ := hwritten
  obtain ⟨a, rfl, -⟩ := Value.exists_of_same_dict hsame₄
  rw [Value.eq_str_of_same hsame₁] at hflow
  rw [Value.eq_str_of_same hsame₅] at hstartedAt
  rw [hupdated] at hsame₆
  rw [hinbound] at hsame₇
  rw [hcompleted] at hsame₈
  rw [Value.eq_str_of_same hsame₆, ← hupdated] at hupdatedAt
  rw [Value.eq_ofOption_of_same hsame₇, ← hinbound] at hlastInboundAt
  rw [Value.eq_ofOption_of_same hsame₈, ← hcompleted] at hcompletedAt
  refine ⟨fields, rfl, Value.keys_perm_of_same
    (Value.isPlain_dict_iff.1 hsound.isWritable.isPlain_document).1 hsame, hflow, hstepIndex,
      hwaiting,
    ⟨a, hdata, hsame₄⟩, hstartedAt, hupdatedAt, hlastInboundAt, hcompletedAt, fun h hthere => ?_⟩
  exact hands ("handoff", h.document) (by simp [hthere])

theorem IsSound.isEmpty_of_same (hsound : c.IsSound)
    (hsame : (Value.dict c.document).same held = true) : held.isEmpty = false := by
  obtain ⟨fields, rfl, halike⟩ := hsound.matches_of_same hsame
  cases fields with
  | nil =>
    have hflow := halike.flow
    cases hflow
  | cons e rest => rfl

section

variable (halike : c.Matches fields) (hsound : c.IsSound)

include halike hsound

theorem Matches.readHandoff :
    Schema.optionalRecord fields (.plain "handoff") none Handoff.ofValue = .ok c.handoff := by
  cases hands : c.handoff with
  | none =>
    have habsent : Fields.get? fields "handoff" = none := by
      rw [Fields.get?, Keyed.get?_eq_none_iff]
      intro hlisted
      have hwritten := halike.perm.mem_iff.2 hlisted
      have hfree := hsound.rest.free (.plain "handoff") (by simp [slots])
      rw [hsound.document_eq, hsound.entries_eq, hands] at hwritten
      simp only [Keyed.keys, List.map_append, List.mem_append] at hwritten
      rcases hwritten with hnamed | hextra
      · simp at hnamed
      · exact hfree hextra
    simp [Schema.optionalRecord, Schema.Slot.find?, Schema.Slot.plain, habsent]
  | some h =>
    obtain ⟨v, hfound, hsame⟩ := halike.handoff h hands
    obtain ⟨entries, rfl, -, heach⟩ := Value.exists_of_same_dict hsame
    obtain ⟨reason, hfoundReason, hsameReason⟩ := heach List.mem_cons_self
    obtain ⟨time, hfoundTime, hsameTime⟩ := heach (List.mem_cons_of_mem _ List.mem_cons_self)
    rw [Value.eq_str_of_same hsameReason] at hfoundReason
    rw [Value.eq_str_of_same hsameTime] at hfoundTime
    simp [Schema.optionalRecord, Schema.Slot.find?, Schema.Slot.plain, hfound, Handoff.ofValue,
      Handoff.ofFields, Schema.required, hfoundReason, hfoundTime, Schema.readText,
      Schema.Checked.ofExcept, Schema.Checked.under, Schema.Checked.pair, Schema.Checked.map]

/-- Where entries count as the same, a conversation is read from them if its numbers, its data and
its extras are. -/
theorem Matches.readFrom
    (hstepIndex : ∀ v, Fields.get? fields "stepIndex" = some v →
      Schema.readInteger v = .ok c.stepIndex)
    (hwaiting : ∀ v, Fields.get? fields "waiting" = some v → Waiting.ofValue v = .ok c.waiting)
    (hdata : ∀ a, Fields.get? fields "data" = some (.dict a) → a = c.data)
    (hextras : c.extras = Schema.extras slots fields) : c.ReadFrom now fields := by
  obtain ⟨t, hupdated⟩ := hsound.updated
  obtain ⟨u, hinbound⟩ := hsound.inbound
  obtain ⟨v, hcompleted⟩ := hsound.completed
  obtain ⟨index, hfoundIndex, -⟩ := halike.stepIndex
  obtain ⟨question, hfoundQuestion, -⟩ := halike.waiting
  obtain ⟨a, hfoundData, -⟩ := halike.data
  have hupdatedAt := halike.updatedAt
  have hlastInboundAt := halike.lastInboundAt
  have hcompletedAt := halike.completedAt
  rw [hupdated] at hupdatedAt
  rw [hinbound] at hlastInboundAt
  rw [hcompleted] at hcompletedAt
  refine ⟨?_, ?_, ?_, ?_, ?_, ⟨t, ?_, hupdated⟩, ⟨u, ?_, hinbound⟩, ⟨v, ?_, hcompleted⟩,
    halike.readHandoff hsound, hextras⟩ <;>
  simp [Schema.required, Schema.optional, Schema.optionalRecord, Schema.Slot.find?,
    Schema.Slot.plain, stepSlot, startedSlot, updatedSlot, lastInboundSlot, completedSlot,
    halike.flow, hfoundIndex, hstepIndex index hfoundIndex, hfoundQuestion,
    hwaiting question hfoundQuestion, hfoundData, hdata a hfoundData, halike.startedAt, hupdatedAt,
    hlastInboundAt, hcompletedAt, Schema.readText, Schema.readObject, readTextOrNull_ofOption,
    Schema.Checked.ofExcept, Schema.Checked.under]

/-- Where entries count as the same as a conversation without extras, reading them leaves nothing
over. -/
theorem Matches.extras_eq_nil (hbare : c.extras = []) : Schema.extras slots fields = [] := by
  refine List.filter_eq_nil_iff.2 fun e hlisted => ?_
  have hkey : e.1 ∈ keys fields := List.mem_map_of_mem hlisted
  have hwritten := halike.perm.mem_iff.2 hkey
  rw [hsound.document_eq, hbare, List.append_nil] at hwritten
  obtain ⟨slot, hwithin, hname⟩ := List.mem_map.1 (c.keys_entries_sublist.subset hwritten)
  have htaken : e.1 ∈ slots.flatMap (·.taken fields) :=
    List.mem_flatMap.2 ⟨slot, hwithin, hname ▸ Schema.name_mem_taken (hname ▸ hkey)⟩
  simpa using htaken

end

/-- A question is read from whatever counts as the same, if its step number takes fewer than
sixty-three bits. -/
theorem waiting_ofValue_eq_of_same {w : Waiting} {v : Value}
    (hsmall : w.stepIndex.natAbs < Nat.pow 2 63) (hsame : w.document.same v = true) :
    Waiting.ofValue v = .ok (some w) := by
  obtain ⟨fields, rfl, -, hentries⟩ := Value.exists_of_same_dict hsame
  obtain ⟨field, hfoundField, hsameField⟩ := hentries List.mem_cons_self
  obtain ⟨index, hfoundIndex, hsameIndex⟩ := hentries (List.mem_cons_of_mem _ List.mem_cons_self)
  rw [Value.eq_str_of_same hsameField] at hfoundField
  have hreadIndex := Value.readInteger_eq_of_same hsmall hsameIndex
  simp [Waiting.ofValue, Schema.required, Schema.Slot.find?, Schema.Slot.plain,
    hfoundField, hfoundIndex, hreadIndex, Schema.readText, Schema.Checked.ofExcept,
    Schema.Checked.under, Schema.Checked.pair, Schema.Checked.map]

/-! ## Conversations that go on -/

/-- The collected data and the extras of a conversation come from an earlier one. -/
structure Continues (b c : Conversation) : Prop where
  data : c.data = [] ∨ c.data = b.data ∨
    ∃ field text, c.data = Fields.set b.data field (.str text)
  extras : c.extras = [] ∨ c.extras = b.extras

theorem Continues.data_eq_of_same (hcontinues : b.Continues c)
    (hsame : (Value.dict c.data).same (.dict b.data) = true) : c.data = b.data := by
  rcases hcontinues.data with hempty | hkept | ⟨field, text, hset⟩
  · rw [hempty] at hsame ⊢
    exact (Value.eq_nil_of_same hsame).symm
  · exact hkept
  · rw [hset] at hsame ⊢
    exact Value.set_eq_self_of_same hsame

/-- A question that counts as the same is the same, if it can be read. -/
theorem waiting_eq_of_same {w w' : Option Waiting} {v : Value}
    (hsame : ((w.map Waiting.document).getD .null).same v = true)
    (hread : Waiting.ofValue v = .ok w') : w' = w := by
  cases w with
  | none =>
    obtain rfl := Value.eq_null_of_same hsame
    cases hread
    rfl
  | some w =>
    obtain ⟨fields, rfl, -, hentries⟩ := Value.exists_of_same_dict hsame
    obtain ⟨field, hfoundField, hsameField⟩ := hentries List.mem_cons_self
    obtain ⟨index, hfoundIndex, hsameIndex⟩ := hentries (List.mem_cons_of_mem _ List.mem_cons_self)
    obtain ⟨⟨field', index'⟩, hwhole, rfl⟩ := Schema.map_eq_ok hread
    obtain ⟨hreadField, hreadIndex⟩ := Schema.pair_eq_ok hwhole
    have hreadField := Schema.read_of_required (.plain "field") hfoundField hreadField
    have hreadIndex := Schema.read_of_required ⟨"stepIndex", "step_index"⟩ hfoundIndex hreadIndex
    rw [Value.eq_str_of_same hsameField] at hreadField
    cases hreadField
    rw [Value.readInteger_of_same hsameIndex hreadIndex]

/-- What goes on from an earlier conversation is read, whenever, from what that was read from, if
its document counts as the same. -/
theorem Continues.ofValue_of_same (hcontinues : b.Continues c) (hsound : c.IsSound)
    (hread : ofValue now held = .ok b) (hsame : (Value.dict c.document).same held = true)
    (now' : String) : ofValue now' held = .ok c := by
  obtain ⟨fields, rfl, halike⟩ := hsound.matches_of_same hsame
  have hparts := ofValue_dict_eq_ok_iff.1 hread
  refine ofValue_dict_eq_ok_iff.2
    (halike.readFrom hsound (fun v hfound => ?_) (fun v hfound => ?_) (fun a hfound => ?_) ?_)
  · obtain ⟨v', hfound', hsame⟩ := halike.stepIndex
    obtain rfl : v = v' := Option.some.inj (hfound.symm.trans hfound')
    have hthere := Schema.read_of_optional stepSlot hfound hparts.stepIndex
    rw [hthere, Value.readInteger_of_same hsame hthere]
  · obtain ⟨v', hfound', hsame⟩ := halike.waiting
    obtain rfl : v = v' := Option.some.inj (hfound.symm.trans hfound')
    have hthere := Schema.read_of_optionalRecord (.plain "waiting") hfound hparts.waiting
    rw [hthere, waiting_eq_of_same hsame hthere]
  · obtain ⟨a', hfound', hsame⟩ := halike.data
    obtain rfl : a = a' := by simpa using hfound.symm.trans hfound'
    obtain rfl : a = b.data := Except.ok.inj
      (Schema.read_of_optional (.plain "data") hfound hparts.data)
    exact (hcontinues.data_eq_of_same hsame).symm
  · rcases hcontinues.extras with hbare | hkept
    · rw [hbare, halike.extras_eq_nil hsound hbare]
    · rw [hkept, hparts.extras]

/-- What goes on from an earlier conversation counts as the same as what that was read from only
where it is the same conversation. -/
theorem Continues.eq_of_same (hcontinues : b.Continues c) (hsound : c.IsSound)
    (hread : ofValue now held = .ok b) (hsame : (Value.dict c.document).same held = true) : b = c :=
  Except.ok.inj (hread.symm.trans (hcontinues.ofValue_of_same hsound hread hsame now))

/-- A conversation without data and extras is read from whatever counts as the same as its document,
if its step numbers take fewer than sixty-three bits. -/
theorem ofValue_eq_of_same (hsound : c.IsSound) (hbare : c.extras = []) (hempty : c.data = [])
    (hsmall : c.stepIndex.natAbs < Nat.pow 2 63)
    (hasks : ∀ w, c.waiting = some w → w.stepIndex.natAbs < Nat.pow 2 63)
    (hsame : (Value.dict c.document).same held = true) : ofValue now held = .ok c := by
  obtain ⟨fields, rfl, halike⟩ := hsound.matches_of_same hsame
  refine ofValue_dict_eq_ok_iff.2 (halike.readFrom hsound (fun v hfound => ?_) (fun v hfound => ?_)
    (fun a hfound => ?_) ?_)
  · obtain ⟨v', hfound', hsame⟩ := halike.stepIndex
    obtain rfl : v = v' := Option.some.inj (hfound.symm.trans hfound')
    exact Value.readInteger_eq_of_same hsmall hsame
  · obtain ⟨v', hfound', hsame⟩ := halike.waiting
    obtain rfl : v = v' := Option.some.inj (hfound.symm.trans hfound')
    cases hwaits : c.waiting with
    | none =>
      rw [hwaits] at hsame
      rw [Value.eq_null_of_same hsame]
      rfl
    | some w =>
      rw [hwaits] at hsame
      exact waiting_ofValue_eq_of_same (hasks w hwaits) hsame
  · obtain ⟨a', hfound', hsame⟩ := halike.data
    obtain rfl : a = a' := by simpa using hfound.symm.trans hfound'
    rw [hempty] at hsame ⊢
    exact Value.eq_nil_of_same hsame
  · rw [hbare, halike.extras_eq_nil hsound hbare]

end Dialogue.Conversation

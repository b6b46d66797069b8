import Dialogue.Proofs.Run
import Dialogue.Proofs.Schema.Record
import Dialogue.Step.Document
import Dialogue.Step.Draft

/-!
# Entries of a flow are written and read again

An entry that was read from a document is well formed (`wellFormed_ofValue`), and a well formed one
is written as a plain document (`isPlain_storedDocument`).  A question that was read from a document
stays the same question when it is written and read again (`ofValue?_storedDocument_question`).

What a description makes is told kind by kind (`Draft.exists_builds`); a step that is drafted from
documents is a document, too (`isDocument_build`).
-/

namespace Dialogue

open Keyed (keys)

namespace Step

/-- The extras of a step are such as reading leaves over. -/
def WellFormed (s : Step) : Prop := Schema.IsRest (slots s.kind) s.extras

theorem keys_entries (s : Step) : keys s.entries = (slots s.kind).map (·.name) := by
  obtain ⟨id, action, extras⟩ := s
  cases action <;> rfl

theorem nodup_slots (kind : Kind) : ((slots kind).map (·.name)).Nodup := by
  cases kind <;> decide

theorem isPlain_entries (s : Step) : ∀ e ∈ s.entries, e.2.IsPlain := by
  obtain ⟨id, action, extras⟩ := s
  cases action <;>
    simp [entries, Action.entries, Schema.isPlain_str, Schema.isPlain_ofOption,
      Schema.isPlain_ofIndex]

theorem isPlain_storedDocument {s : Step} (hwellFormed : s.WellFormed) :
    s.storedDocument.IsPlain :=
  Schema.isPlain_record (keys_entries s) (nodup_slots s.kind) (isPlain_entries s) hwellFormed

theorem kind_of_readAction {fields : Fields} {kind : Kind} {action : Action}
    (hread : readAction fields kind = .ok action) : action.kind = kind := by
  cases kind <;> simp only [readAction, bind, Except.bind, pure, Except.pure] at hread
  case condition =>
    cases hread
    rfl
  all_goals
    repeat' split at hread
    all_goals first | (cases hread; rfl) | cases hread

theorem exists_of_ofValue? {v : Value} {s : Step} (hread : ofValue? v = .ok s) :
    ∃ fields, v = .dict fields ∧ readKind fields = .ok s.kind ∧ readId fields = .ok s.id ∧
      readAction fields s.kind = .ok s.action ∧ s.extras = Schema.extras (slots s.kind) fields := by
  cases v with
  | dict fields =>
    simp only [ofValue?, bind, Except.bind, pure, Except.pure] at hread
    cases hkind : readKind fields with
    | error f => simp [hkind] at hread
    | ok kind =>
      cases hid : readId fields with
      | error f => simp [hkind, hid] at hread
      | ok id =>
        cases haction : readAction fields kind with
        | error f => simp [hkind, hid, haction] at hread
        | ok action =>
          simp only [hkind, hid, haction, Except.ok.injEq] at hread
          subst hread
          have hsame : Step.kind ⟨id, action, Schema.extras (slots kind) fields⟩ = kind :=
            kind_of_readAction haction
          rw [hsame]
          exact ⟨fields, rfl, hkind, hid, haction, rfl⟩
  | _ => cases hread

theorem wellFormed_of_ofValue? {v : Value} (hdocument : v.IsDocument) {s : Step}
    (hread : ofValue? v = .ok s) : s.WellFormed := by
  obtain ⟨fields, rfl, -, -, -, hextras⟩ := exists_of_ofValue? hread
  rw [WellFormed, hextras]
  exact Schema.isRest_extras _ hdocument

/-- The field of a question is not empty and has no white space around it. -/
def IsTrimmed (s : Step) : Prop :=
  ∀ field text, s.action = .question field text → Text.strip field = field ∧ field ≠ ""

theorem strip_strip (s : String) : Text.strip (Text.strip s) = Text.strip s := by
  simp [Text.strip, Text.stripChars]

theorem isTrimmed_of_ofValue? {v : Value} {s : Step} (hread : ofValue? v = .ok s) :
    s.IsTrimmed := by
  intro field text hasks
  obtain ⟨fields, rfl, -, -, haction, -⟩ := exists_of_ofValue? hread
  rw [Step.kind, hasks] at haction
  simp only [Action.kind, readAction, bind, Except.bind, pure, Except.pure] at haction
  cases hfield : readField fields with
  | error f => simp [hfield] at haction
  | ok name =>
    cases htext : needText fields "text" with
    | error f => simp [hfield, htext] at haction
    | ok shown =>
      simp only [hfield, htext, Except.ok.injEq, Action.question.injEq] at haction
      obtain ⟨rfl, rfl⟩ := haction
      simp only [readField, bind, Except.bind, pure, Except.pure] at hfield
      split at hfield
      · cases hfield
      · rename_i raw _
        split at hfield
        · cases hfield
        · rename_i hnonempty
          cases hfield
          exact ⟨strip_strip raw, by simpa using hnonempty⟩

/-- A question with a trimmed field is the same question when it is read again. -/
theorem ofValue?_storedDocument_question {s : Step} {field text : String}
    (hasks : s.action = .question field text) (htrimmed : s.IsTrimmed) :
    ∃ s', ofValue? s.storedDocument = .ok s' ∧ s'.action = .question field text := by
  obtain ⟨id, action, extras⟩ := s
  subst hasks
  obtain ⟨hstripped, hnonempty⟩ := htrimmed field text rfl
  let fields : Fields := [("id", .str id), ("type", .str "question"), ("field", .str field),
    ("text", .str text)] ++ Value.plainFields (Fields.dropNulls extras)
  have hwritten : (⟨id, .question field text, extras⟩ : Step).storedDocument = .dict fields := rfl
  have htag : Kind.ofTag? "question" = some .question := Kind.ofTag?_tag .question
  refine ⟨{ id, action := .question field text, extras := Schema.extras (slots .question) fields },
    ?_, rfl⟩
  rw [hwritten]
  simp [fields, ofValue?, readKind, readId, readAction, readField, needText, Keyed.get?,
    Schema.readText, Value.text?, htag, hstripped, hnonempty, bind, Except.bind, pure, Except.pure]

end Step

namespace Entry

/-- An entry that can be stored. -/
def WellFormed : Entry → Prop
  | .step s => s.WellFormed
  | .malformed raw _ => raw.IsDocument

theorem isPlain_storedDocument {e : Entry} (hwellFormed : e.WellFormed) :
    e.storedDocument.IsPlain := by
  cases e with
  | step s => exact Step.isPlain_storedDocument hwellFormed
  | malformed raw reason => exact Value.isPlain_plain hwellFormed

theorem isTrimmed_of_ofValue {v : Value} {s : Step} (hread : ofValue v = .step s) :
    s.IsTrimmed := by
  unfold ofValue at hread
  split at hread
  · rename_i hread'
    cases hread
    exact Step.isTrimmed_of_ofValue? hread'
  · cases hread

theorem wellFormed_ofValue {v : Value} (hdocument : v.IsDocument) : (ofValue v).WellFormed := by
  unfold ofValue
  split
  · exact Step.wellFormed_of_ofValue? hdocument ‹_›
  · exact hdocument

end Entry

namespace Step.Draft

/-- The entry for a target holds an integer. -/
theorem targetEntry_eq {key : String} {v : Value} {entry : Fields}
    (hmade : targetEntry key v = .ok entry) : entry = [] ∨ ∃ n, entry = [(key, .int n)] := by
  unfold targetEntry at hmade
  split at hmade
  · cases hmade
    exact .inl rfl
  · cases htarget : toTarget v with
    | error fault =>
      rw [htarget] at hmade
      cases hmade
    | ok n =>
      rw [htarget] at hmade
      cases hmade
      exact .inr ⟨n, rfl⟩

/-- The entries that the document of a drafted step begins with. -/
def opening (draft : Draft) (kind : Kind) : Fields :=
  [("id", .str freshId), ("type", .str kind.tag)] ++
    (if draft.text.isEmpty then [] else [("text", draft.text)])

/-- The document of a drafted step, kind by kind, with what was checked for it. -/
inductive Builds (draft : Draft) : Kind → Fields → Prop where
  | question {field : String} (asked : needText draft.field .noField = .ok field) :
      Builds draft .question (draft.opening .question ++ [("field", .str field)] ++
        if draft.text.isEmpty then [("text", .str ("Please share " ++ field ++ "."))] else [])
  | reply (present : draft.text.isEmpty = false) : Builds draft .reply (draft.opening .reply)
  | finish (present : draft.text.isEmpty = false) : Builds draft .finish (draft.opening .finish)
  | condition {condition : String} {first second : Fields}
      (asked : needText draft.condition .noCondition = .ok condition)
      (thenEntry : targetEntry "thenStepIndex" draft.thenTarget = .ok first)
      (elseEntry : targetEntry "elseStepIndex" draft.elseTarget = .ok second) :
      Builds draft .condition
        (draft.opening .condition ++ [("if", .str condition)] ++ first ++ second)
  | handoff : Builds draft .handoff
      (draft.opening .handoff ++ [("reason", draft.reason.orElse (.str "handoff"))])

theorem exists_builds {draft : Draft} {step : Fields} (hbuilt : draft.build = .ok step) :
    ∃ kind, kind? draft.kind = some kind ∧ draft.Builds kind step := by
  have hsaid (kind : Kind) (hmade : (if draft.text.isEmpty then Except.error Fault.noText
      else .ok (draft.opening kind)) = .ok step) :
      draft.text.isEmpty = false ∧ draft.opening kind = step := by
    split at hmade
    · cases hmade
    · rename_i hpresent
      exact ⟨Bool.eq_false_iff.2 hpresent, Except.ok.inj hmade⟩
  unfold build at hbuilt
  split at hbuilt
  · cases hbuilt
  · rename_i kind hnamed
    refine ⟨kind, hnamed, ?_⟩
    cases kind with
    | question =>
      obtain ⟨field, hasked, hmade⟩ := exists_ok_of_bind hbuilt
      cases hmade
      exact .question hasked
    | reply =>
      obtain ⟨hpresent, rfl⟩ := hsaid .reply hbuilt
      exact .reply hpresent
    | finish =>
      obtain ⟨hpresent, rfl⟩ := hsaid .finish hbuilt
      exact .finish hpresent
    | condition =>
      obtain ⟨condition, hasked, hmade⟩ := exists_ok_of_bind hbuilt
      obtain ⟨first, hthenEntry, hmade⟩ := exists_ok_of_bind hmade
      obtain ⟨second, helseEntry, hmade⟩ := exists_ok_of_bind hmade
      cases hmade
      exact .condition hasked hthenEntry helseEntry
    | handoff =>
      cases hbuilt
      exact .handoff

theorem isDocument_build {draft : Draft} (htext : draft.text.IsDocument)
    (hreason : draft.reason.IsDocument) {step : Fields} (hbuilt : draft.build = .ok step) :
    (Value.dict step).IsDocument := by
  obtain ⟨kind, -, hbuilds⟩ := exists_builds hbuilt
  cases hbuilds with
  | question | reply | finish =>
    cases hempty : draft.text.isEmpty <;>
      simp [opening, hempty, Value.IsDocument, Value.IsDocumentFields, htext]
  | condition hasked hthenEntry helseEntry =>
    rcases targetEntry_eq hthenEntry with rfl | ⟨n, rfl⟩ <;>
      rcases targetEntry_eq helseEntry with rfl | ⟨k, rfl⟩ <;>
      cases hempty : draft.text.isEmpty <;>
      simp [opening, hempty, Value.IsDocument, Value.IsDocumentFields, htext]
  | handoff =>
    have hgiven : (draft.reason.orElse (.str "handoff")).IsDocument := by
      unfold Value.orElse
      split
      · trivial
      · exact hreason
    cases hempty : draft.text.isEmpty <;>
      simp [opening, hempty, Value.IsDocument, Value.IsDocumentFields, htext, hgiven]

end Step.Draft

end Dialogue

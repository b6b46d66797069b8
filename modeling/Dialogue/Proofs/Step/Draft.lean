import Dialogue.Proofs.Step.Again
import Dialogue.Proofs.Step.Grammar

/-!
# Drafted steps are read as they were drafted

What an author gives are texts and numbers (`Step.Arguments`).  If they make a step, then its
document is read as a step of the kind that was asked for, and what is stored for that step is the
same document, except for the order of its entries (`Step.Arguments.reads_build`).
-/

namespace Dialogue.Step

open Draft

/-- What an author gives for a step: its kind, and texts and numbers that may be missing. -/
structure Arguments where
  kind : String
  text : Option String := none
  field : Option String := none
  condition : Option String := none
  thenTarget : Option Int := none
  elseTarget : Option Int := none
  reason : Option String := none

namespace Arguments

/-- The description of the step. -/
def draft (a : Arguments) : Draft where
  kind := .str a.kind
  text := .ofOption a.text
  field := .ofOption a.field
  condition := .ofOption a.condition
  thenTarget := .ofIndex a.thenTarget
  elseTarget := .ofIndex a.elseTarget
  reason := .ofOption a.reason

theorem isPlain_text (a : Arguments) : a.draft.text.IsPlain := Schema.isPlain_ofOption a.text

theorem isPlain_reason (a : Arguments) : a.draft.reason.IsPlain := Schema.isPlain_ofOption a.reason

theorem isWorded_of_isBlankText {s : String} (hworded : Text.isBlankText s = false) :
    IsWorded s := by
  simpa [Text.isBlankText, IsWorded] using hworded

theorem isWorded_strip {s : String} (hworded : IsWorded s) : IsWorded (Text.strip s) := by
  refine Classical.byContradiction fun hblank => ?_
  have hnothing := (isEmpty_strip_iff (Text.strip s)).2 hblank
  rw [strip_strip] at hnothing
  exact (isEmpty_strip_iff s).1 hnothing hworded

theorem needText_ofOption {text : Option String} {missing : Fault} {t : String}
    (hread : Draft.needText (.ofOption text) missing = .ok t) :
    Text.strip t = t ∧ IsWorded t := by
  unfold Draft.needText at hread
  split at hread
  · cases hread
  · split at hread
    · rename_i s _
      split at hread
      · cases hread
      · rename_i hworded
        cases hread
        exact ⟨strip_strip s,
          isWorded_strip (isWorded_of_isBlankText (Bool.eq_false_iff.2 hworded))⟩
    · cases hread

theorem targetEntry_ofIndex (key : String) (n : Option Int) :
    targetEntry key (.ofIndex n) = .ok (n.map fun n => (key, .int n)).toList := by
  cases n <;> rfl

/-! ## The documents of drafted steps -/

/-- The document is read as a step that does something, and the step is stored as it, whatever the
order of the entries is. -/
def Writes (d : Fields) (action : Action) : Prop :=
  ∃ s, ofValue? (.dict d) = .ok s ∧ s.action = action ∧
    ∃ written, s.storedDocument = .dict written ∧ written.Perm d

/-- A document writes what it says if the step that it says is stored as it. -/
theorem writes_of_does {action : Action} {d rest : Fields}
    (htagged : IsText d "type" action.kind.tag) (hidentified : IsText d "id" freshId)
    (hdoes : Does d action) (hleft : Schema.extras (slots action.kind) d = rest)
    (hperm : (Fields.dropNulls (⟨freshId, action, []⟩ : Step).entries ++
      Value.plainFields (Fields.dropNulls rest)).Perm d) :
    Writes d action :=
  ⟨⟨freshId, action, rest⟩,
    ofValue?_eq_ok_iff.2 ⟨d, rfl, htagged, .text hidentified, hdoes, hleft.symm⟩,
    rfl, _, rfl, hperm⟩

theorem perm_entry (head rest : Fields) (e : String × Value) :
    (head ++ rest ++ [e]).Perm (head ++ [e] ++ rest) := by
  rw [List.append_assoc, List.append_assoc]
  exact List.perm_append_comm.append_left head

/-- The entries that a drafted step begins with. -/
def head (kind : Kind) (said : Option String) : Fields :=
  [("id", .str freshId), ("type", .str kind.tag)] ++
    (said.map fun t => ("text", Value.str t)).toList

/-- The text is written if one is given that is not empty. -/
theorem exists_opening (a : Arguments) :
    ∃ said, (∀ kind, a.draft.opening kind = head kind said) ∧
      a.draft.text.isEmpty = said.isNone := by
  cases htext : a.text with
  | none => exact ⟨none, by simp [opening, draft, htext, head, Value.ofOption, Value.isEmpty]⟩
  | some t =>
    cases hempty : t.isEmpty with
    | true =>
      exact ⟨none, by simp [opening, draft, htext, head, Value.ofOption, Value.isEmpty, hempty]⟩
    | false =>
      exact ⟨some t, by simp [opening, draft, htext, head, Value.ofOption, Value.isEmpty, hempty]⟩

theorem writes_reply (t : String) : Writes (head .reply (some t)) (.reply t) :=
  writes_of_does rfl rfl (.reply rfl) rfl (.refl _)

theorem writes_finish (t : String) : Writes (head .finish (some t)) (.finish (some t)) :=
  writes_of_does rfl rfl (.finish (.text rfl)) rfl (.refl _)

theorem does_question {d : Fields} {field t : String} (hstripped : Text.strip field = field)
    (hworded : IsWorded field) (hasked : IsText d "field" field) (hsaid : IsText d "text" t) :
    Does d (.question field t) := by
  have hdoes := Does.question hasked hworded hsaid
  rwa [hstripped] at hdoes

theorem writes_question {field : String} (hstripped : Text.strip field = field)
    (hworded : IsWorded field) (said : Option String) (default : String) :
    Writes (head .question said ++ [("field", .str field)] ++
        if said.isNone then [("text", .str default)] else [])
      (.question field (said.getD default)) := by
  cases said with
  | none => exact writes_of_does rfl rfl (does_question hstripped hworded rfl rfl) rfl (.refl _)
  | some t =>
    exact writes_of_does rfl rfl (does_question hstripped hworded rfl rfl) rfl
      (perm_entry [_, _] [_] _)

theorem writes_condition (said : Option String) (condition : String) (first second : Option Int) :
    Writes (head .condition said ++ [("if", .str condition)] ++
        (first.map fun n => ("thenStepIndex", Value.int n)).toList ++
        (second.map fun n => ("elseStepIndex", Value.int n)).toList)
      (.condition (some condition) first second) := by
  -- the text means nothing to a condition, so it is stored behind everything else
  have hdoes {d : Fields} {first second : Option Int} (hasked : IsText d "if" condition)
      (hfirst' : targetOfValue (slotValue d thenSlot) = first)
      (hsecond' : targetOfValue (slotValue d elseSlot) = second) :
      Does d (.condition (some condition) first second) :=
    .condition (.named hasked) (.text _) (isTarget_iff.2 hfirst') (isTarget_iff.2 hsecond')
  cases said with
  | none =>
    cases first <;> cases second <;>
      exact writes_of_does rfl rfl (hdoes rfl rfl rfl) rfl (.refl _)
  | some t =>
    cases first <;> cases second <;>
      exact writes_of_does rfl rfl (hdoes rfl rfl rfl)
        (show _ = [("text", .str t)] from rfl) (perm_entry [_, _] _ _)

theorem writes_handoff (said : Option String) (reason : String) :
    Writes (head .handoff said ++ [("reason", .str reason)]) (.handoff reason said) := by
  cases said with
  | none => exact writes_of_does rfl rfl (.handoff (.text rfl) (.absent rfl)) rfl (.refl _)
  | some t =>
    exact writes_of_does rfl rfl (.handoff (.text rfl) (.text rfl)) rfl
      (perm_entry [_, _] [_] _)

theorem exists_reason (reason : Option String) :
    ∃ s, (Value.ofOption reason).orElse (.str "handoff") = .str s := by
  unfold Value.orElse
  cases reason with
  | none => exact ⟨_, rfl⟩
  | some s =>
    split
    · exact ⟨_, rfl⟩
    · exact ⟨s, rfl⟩

theorem writes_build (a : Arguments) {d : Fields} (hbuilt : a.draft.build = .ok d) :
    ∃ action : Action, action.kind.tag = a.kind ∧ Writes d action := by
  obtain ⟨said, hwritten, habsent⟩ := exists_opening a
  obtain ⟨kind, hnamed, hbuilds⟩ := exists_builds hbuilt
  have htag : kind.tag = a.kind := by
    have hfound : Kind.ofTag? a.kind = some kind := hnamed
    exact (ofTag?_eq_some_iff.1 hfound).symm
  cases hbuilds with
  | reply hpresent =>
    rw [hwritten]
    cases said with
    | none => exact absurd (habsent.symm.trans hpresent) (by simp)
    | some t => exact ⟨.reply t, htag, writes_reply t⟩
  | finish hpresent =>
    rw [hwritten]
    cases said with
    | none => exact absurd (habsent.symm.trans hpresent) (by simp)
    | some t => exact ⟨.finish (some t), htag, writes_finish t⟩
  | @question field hasked =>
    obtain ⟨hstripped, hworded⟩ := needText_ofOption hasked
    rw [hwritten, habsent]
    exact ⟨.question field _, htag, writes_question hstripped hworded said _⟩
  | @condition condition first second hasked hthenEntry helseEntry =>
    obtain rfl := Except.ok.inj ((targetEntry_ofIndex _ a.thenTarget).symm.trans hthenEntry)
    obtain rfl := Except.ok.inj ((targetEntry_ofIndex _ a.elseTarget).symm.trans helseEntry)
    rw [hwritten]
    exact ⟨.condition _ _ _, htag, writes_condition said condition a.thenTarget a.elseTarget⟩
  | handoff =>
    obtain ⟨reason, hbecause⟩ := exists_reason a.reason
    rw [hwritten, show a.draft.reason = .ofOption a.reason from rfl, hbecause]
    exact ⟨.handoff reason said, htag, writes_handoff said reason⟩

/-- A drafted step is read as a step of its kind, and it is what is stored for the step. -/
theorem reads_build (a : Arguments) {d : Fields} (hbuilt : a.draft.build = .ok d) :
    ∃ s, Entry.ofValue (.dict d) = .step s ∧ s.kind.tag = a.kind ∧
      ∃ written, s.storedDocument = .dict written ∧ written.Perm d := by
  obtain ⟨action, htag, s, hread, rfl, hwritten⟩ := a.writes_build hbuilt
  exact ⟨s, by rw [Entry.ofValue, hread], htag, hwritten⟩

end Arguments

end Dialogue.Step

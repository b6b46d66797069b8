import Dialogue.Proofs.Step.Document

/-!
# Steps that are read again

A step that was read from a document with finite numbers is always a step of the same kind when it
is read again from what is stored for it (`Step.ofValue?_storedDocument`).  It does the same unless
it is a condition with a field that is left out while an older spelling of the field is among the
extras: the older spelling, which did not count as long as the newer one stood next to it, counts
then (`Step.again`).  Steps without such a field are settled (`Step.Settled`), and they are exactly
the ones that do the same (`Step.again_eq_iff`).

Data that is no step is the same data when it is read again (`Entry.same_again_iff`).
-/

namespace Dialogue

open Keyed (keys)

namespace Step

/-- The extras hold finite numbers only. -/
def IsFinite (s : Step) : Prop := ∀ e ∈ s.extras, e.2.isFinite = true

/-- What the extras hold under the older name of a field, null when there is nothing. -/
def older (s : Step) (slot : Schema.Slot) : Value := Fields.getD s.extras slot.older

/-- What a step does after it was stored and read again. -/
def again (s : Step) : Action :=
  match s.action with
  | .condition expr thenTarget elseTarget =>
    .condition (expr.or (exprOfValue (s.older exprSlot)))
      (thenTarget.or (targetOfValue (s.older thenSlot)))
      (elseTarget.or (targetOfValue (s.older elseSlot)))
  | action => action

/-- No field of a condition is left out while the extras have it under its older name. -/
def Settled (s : Step) : Prop :=
  ∀ expr thenTarget elseTarget, s.action = .condition expr thenTarget elseTarget →
    (expr = none → exprOfValue (s.older exprSlot) = none) ∧
    (thenTarget = none → targetOfValue (s.older thenSlot) = none) ∧
    (elseTarget = none → targetOfValue (s.older elseSlot) = none)

theorem or_eq_left_iff {α : Type} {x y : Option α} : x.or y = x ↔ (x = none → y = none) := by
  cases x <;> simp

theorem again_eq_iff (s : Step) : s.again = s.action ↔ s.Settled := by
  obtain ⟨id, action, extras⟩ := s
  cases action with
  | condition expr thenTarget elseTarget =>
    simp only [again, Settled, Action.condition.injEq, or_eq_left_iff]
    constructor
    · rintro hsettled _ _ _ ⟨rfl, rfl, rfl⟩
      exact hsettled
    · exact fun hsettled => hsettled _ _ _ ⟨rfl, rfl, rfl⟩
  | _ => simp [again, Settled]

/-! ## Looking into what is stored -/

/-- The entries that are stored for a step. -/
def storedFields (s : Step) : Fields :=
  Fields.dropNulls s.entries ++ Value.plainFields (Fields.dropNulls s.extras)

variable {s : Step}

theorem get?_storedFields_name (hwellFormed : s.WellFormed) {slot : Schema.Slot}
    (hlisted : slot ∈ slots s.kind) :
    Fields.get? s.storedFields slot.name =
      (Fields.get? s.entries slot.name).filter fun v => !v.isNull :=
  Schema.get?_record_name (keys_entries s) (nodup_slots s.kind) hwellFormed hlisted

theorem get?_storedFields_extra (hwellFormed : s.WellFormed) (hfinite : s.IsFinite) {key : String}
    (hother : key ∉ (slots s.kind).map (·.name)) :
    Fields.get? s.storedFields key = (Fields.get? s.extras key).filter fun v => !v.isNull :=
  Schema.get?_record_extra (keys_entries s) hwellFormed hfinite hother

/-- A field of a step is read from what is written for it, or else from the extra under its older
name. -/
theorem slotValue_storedFields (hwellFormed : s.WellFormed) (hfinite : s.IsFinite)
    {slot : Schema.Slot} (hlisted : slot ∈ slots s.kind)
    (hother : slot.older ∉ (slots s.kind).map (·.name)) {v : Value}
    (hwritten : Fields.get? s.entries slot.name = some v) :
    slotValue s.storedFields slot = if v.isNull then s.older slot else v := by
  have hfirst := get?_storedFields_name hwellFormed hlisted
  have hsecond := get?_storedFields_extra hwellFormed hfinite hother
  rw [hwritten] at hfirst
  by_cases hnull : v.isNull = true
  · simp only [hnull, Option.filter, Bool.not_true, Bool.false_eq_true, if_false] at hfirst
    rw [slotValue, Schema.Slot.find?, hfirst, hsecond, if_pos hnull, older, Fields.getD]
    cases hfound : Fields.get? s.extras slot.older with
    | none => rfl
    | some w => cases w <;> rfl
  · rw [Bool.not_eq_true] at hnull
    simp only [hnull, Option.filter, Bool.not_false, if_true] at hfirst
    rw [slotValue, Schema.Slot.find?, hfirst, if_neg (by simp [hnull])]
    rfl

/-- A field with one name is read from what is written for it, unless that is null. -/
theorem get?_storedFields_plain (hwellFormed : s.WellFormed) {key : String} {v : Value}
    (hlisted : Schema.Slot.plain key ∈ slots s.kind)
    (hwritten : Fields.get? s.entries key = some v) :
    Fields.get? s.storedFields key = if v.isNull then none else some v := by
  have hfound := get?_storedFields_name hwellFormed hlisted
  simp only [Schema.Slot.plain, hwritten, Option.filter] at hfound
  rw [hfound]
  cases v <;> rfl

/-- A text that is written for a field stands under its name. -/
theorem get?_storedFields_str (hwellFormed : s.WellFormed) {key text : String}
    (hlisted : Schema.Slot.plain key ∈ slots s.kind)
    (hwritten : Fields.get? s.entries key = some (.str text)) :
    Fields.get? s.storedFields key = some (.str text) := by
  rw [get?_storedFields_plain hwellFormed hlisted hwritten]
  rfl

/-! ## Reading a step again -/

theorem readKind_storedFields (hwellFormed : s.WellFormed) :
    readKind s.storedFields = .ok s.kind := by
  have hfound : Fields.get? s.storedFields "type" = some (.str s.kind.tag) :=
    get?_storedFields_str hwellFormed (by cases s.kind <;> decide) (by simp [entries, Keyed.get?])
  simp [readKind, hfound, Value.text?]

theorem readId_storedFields (hwellFormed : s.WellFormed) : readId s.storedFields = .ok s.id := by
  have hfound : Fields.get? s.storedFields "id" = some (.str s.id) :=
    get?_storedFields_str hwellFormed (by cases s.kind <;> decide) (by simp [entries, Keyed.get?])
  simp [readId, hfound, Schema.readText]

/-- A text that a step must have is read again. -/
theorem needText_storedFields (hwellFormed : s.WellFormed) {key text : String}
    (hlisted : Schema.Slot.plain key ∈ slots s.kind)
    (hwritten : Fields.get? s.entries key = some (.str text)) :
    needText s.storedFields key = .ok text := by
  simp [needText, get?_storedFields_str hwellFormed hlisted hwritten, Schema.readText]

/-- A text that a step may have is read again. -/
theorem mayText_storedFields (hwellFormed : s.WellFormed) {key : String} {text : Option String}
    (hlisted : Schema.Slot.plain key ∈ slots s.kind)
    (hwritten : Fields.get? s.entries key = some (.ofOption text)) :
    mayText s.storedFields key = .ok text := by
  rw [mayText, get?_storedFields_plain hwellFormed hlisted hwritten]
  cases text <;>
    simp [Value.ofOption, Value.isNull, Schema.readTextOrNull, Schema.readText, Except.map]

/-- The expression of a condition is read from what is written for it, or else from the extra under
its older name. -/
theorem exprOfValue_storedFields (hwellFormed : s.WellFormed) (hfinite : s.IsFinite)
    {expr : Option String} {thenTarget elseTarget : Option Int}
    (hbranches : s.action = .condition expr thenTarget elseTarget) :
    exprOfValue (slotValue s.storedFields exprSlot) = expr.or (exprOfValue (s.older exprSlot)) := by
  have hkind : s.kind = .condition := by rw [Step.kind, hbranches]; rfl
  have hwritten : Fields.get? s.entries exprSlot.name = some (.ofOption expr) := by
    simp [entries, hbranches, Action.entries, Keyed.get?, exprSlot]
  rw [slotValue_storedFields hwellFormed hfinite (by rw [hkind]; decide) (by rw [hkind]; decide)
    hwritten]
  cases expr <;> simp [Value.ofOption, Value.isNull, exprOfValue, Value.display]

/-- A target of a condition is read from what is written for it, or else from the extra under its
older name. -/
theorem targetOfValue_storedFields (hwellFormed : s.WellFormed) (hfinite : s.IsFinite)
    {slot : Schema.Slot} (hlisted : slot ∈ slots s.kind)
    (hother : slot.older ∉ (slots s.kind).map (·.name)) {target : Option Int}
    (hwritten : Fields.get? s.entries slot.name = some (.ofIndex target)) :
    targetOfValue (slotValue s.storedFields slot) = target.or (targetOfValue (s.older slot)) := by
  rw [slotValue_storedFields hwellFormed hfinite hlisted hother hwritten]
  cases target <;> simp [Value.ofIndex, Value.isNull, targetOfValue]

theorem readAction_storedFields (hwellFormed : s.WellFormed) (hfinite : s.IsFinite)
    (htrimmed : s.IsTrimmed) : readAction s.storedFields s.kind = .ok s.again := by
  cases hdoes : s.action with
  | reply text =>
    have hkind : s.kind = .reply := by rw [Step.kind, hdoes]; rfl
    have hread : needText s.storedFields "text" = .ok text := needText_storedFields hwellFormed
      (by rw [hkind]; decide) (by simp [entries, hdoes, Action.entries, Keyed.get?])
    rw [hkind, again, hdoes]
    simp [readAction, hread, bind, Except.bind, pure, Except.pure]
  | question field text =>
    have hkind : s.kind = .question := by rw [Step.kind, hdoes]; rfl
    obtain ⟨hstripped, hnonempty⟩ := htrimmed field text hdoes
    have hasked : needText s.storedFields "field" = .ok field := needText_storedFields hwellFormed
      (by rw [hkind]; decide) (by simp [entries, hdoes, Action.entries, Keyed.get?])
    have hread : needText s.storedFields "text" = .ok text := needText_storedFields hwellFormed
      (by rw [hkind]; decide) (by simp [entries, hdoes, Action.entries, Keyed.get?])
    rw [hkind, again, hdoes]
    simp [readAction, readField, hasked, hread, hstripped, hnonempty, bind, Except.bind, pure,
      Except.pure]
  | condition expr thenTarget elseTarget =>
    have hkind : s.kind = .condition := by rw [Step.kind, hdoes]; rfl
    have hfirst : targetOfValue (slotValue s.storedFields thenSlot) =
        thenTarget.or (targetOfValue (s.older thenSlot)) :=
      targetOfValue_storedFields hwellFormed hfinite (by rw [hkind]; decide) (by rw [hkind]; decide)
        (by simp [entries, hdoes, Action.entries, Keyed.get?, thenSlot])
    have hsecond : targetOfValue (slotValue s.storedFields elseSlot) =
        elseTarget.or (targetOfValue (s.older elseSlot)) :=
      targetOfValue_storedFields hwellFormed hfinite (by rw [hkind]; decide) (by rw [hkind]; decide)
        (by simp [entries, hdoes, Action.entries, Keyed.get?, elseSlot])
    rw [hkind, again, hdoes, readAction, exprOfValue_storedFields hwellFormed hfinite hdoes, hfirst,
      hsecond]
  | handoff reason text =>
    have hkind : s.kind = .handoff := by rw [Step.kind, hdoes]; rfl
    have hgiven : Fields.get? s.storedFields "reason" = some (.str reason) :=
      get?_storedFields_str hwellFormed (by rw [hkind]; decide)
        (by simp [entries, hdoes, Action.entries, Keyed.get?])
    have hread : mayText s.storedFields "text" = .ok text := mayText_storedFields hwellFormed
      (by rw [hkind]; decide) (by simp [entries, hdoes, Action.entries, Keyed.get?])
    rw [hkind, again, hdoes]
    simp [readAction, hgiven, hread, Schema.readText, bind, Except.bind, pure,
      Except.pure]
  | finish text =>
    have hkind : s.kind = .finish := by rw [Step.kind, hdoes]; rfl
    have hread : mayText s.storedFields "text" = .ok text := mayText_storedFields hwellFormed
      (by rw [hkind]; decide) (by simp [entries, hdoes, Action.entries, Keyed.get?])
    rw [hkind, again, hdoes]
    simp [readAction, hread, bind, Except.bind, pure, Except.pure]

/-- A step is a step again when it is read from what is stored for it. -/
theorem ofValue?_storedDocument (hwellFormed : s.WellFormed) (hfinite : s.IsFinite)
    (htrimmed : s.IsTrimmed) :
    ofValue? s.storedDocument =
      .ok ⟨s.id, s.again, Schema.extras (slots s.kind) s.storedFields⟩ := by
  show ofValue? (.dict s.storedFields) = _
  simp [ofValue?, readKind_storedFields hwellFormed, readId_storedFields hwellFormed,
    readAction_storedFields hwellFormed hfinite htrimmed, bind, Except.bind, pure, Except.pure]

/-- The extras of a step are left over again, unless one is null or stands under the older name of a
field. -/
theorem extras_storedFields (hwellFormed : s.WellFormed) (hfinite : s.IsFinite)
    (hgiven : ∀ e ∈ s.extras, e.2.isNull = false)
    (hnewer : ∀ slot ∈ slots s.kind, slot.older ∉ keys s.extras) :
    Schema.extras (slots s.kind) s.storedFields = s.extras :=
  Schema.extras_record (keys_entries s) hwellFormed hfinite hgiven hnewer

theorem settled_of_newer (hnewer : ∀ slot ∈ slots s.kind, slot.older ∉ keys s.extras) :
    s.Settled := by
  intro expr thenTarget elseTarget hbranches
  have hkind : s.kind = .condition := by rw [Step.kind, hbranches]; rfl
  have hnothing : ∀ slot ∈ slots .condition, s.older slot = .null := by
    intro slot hlisted
    rw [older, Fields.getD, Fields.get?, Keyed.get?_eq_none_iff.2 (hnewer slot (hkind ▸ hlisted))]
    rfl
  rw [hnothing exprSlot (by decide), hnothing thenSlot (by decide), hnothing elseSlot (by decide)]
  exact ⟨fun _ => rfl, fun _ => rfl, fun _ => rfl⟩

/-- A step whose extras are not null and stand under no older name of a field is the same step when
it is read again. -/
theorem ofValue?_storedDocument_self (hwellFormed : s.WellFormed) (hfinite : s.IsFinite)
    (htrimmed : s.IsTrimmed) (hgiven : ∀ e ∈ s.extras, e.2.isNull = false)
    (hnewer : ∀ slot ∈ slots s.kind, slot.older ∉ keys s.extras) :
    ofValue? s.storedDocument = .ok s := by
  rw [ofValue?_storedDocument hwellFormed hfinite htrimmed,
    extras_storedFields hwellFormed hfinite hgiven hnewer,
    (again_eq_iff s).2 (settled_of_newer hnewer)]

/-! ## Steps that are read from documents -/

theorem isFinite_of_ofValue? {v : Value} (hfinite : v.isFinite = true) {s : Step}
    (hread : ofValue? v = .ok s) : s.IsFinite := by
  obtain ⟨fields, rfl, -, -, -, hextras⟩ := exists_of_ofValue? hread
  intro e hlisted
  rw [hextras] at hlisted
  exact Value.isFiniteFields_iff.1 hfinite e (List.mem_filter.1 hlisted).1

end Step

namespace Entry

/-- No field of the entry is left out while its older spelling counts. -/
def Settled : Entry → Prop
  | .step s => s.Settled
  | .malformed _ _ => True

/-- Both entries are steps that do the same, or both are the same data that is no step. -/
def Same : Entry → Entry → Prop
  | .step s, .step t => s.action = t.action
  | .malformed raw _, .malformed raw' _ => raw = raw'
  | _, _ => False

theorem ofValue?_of_ofValue {v : Value} {s : Step} (hread : ofValue v = .step s) :
    Step.ofValue? v = .ok s := by
  unfold ofValue at hread
  split at hread
  · rename_i hparsed
    cases hread
    exact hparsed
  · cases hread

/-- What was read as no step is the same data when it is read again. -/
theorem malformed_of_ofValue {v raw : Value} {reason : String} (hplain : v.IsPlain)
    (hread : ofValue v = .malformed raw reason) :
    ofValue (ofValue v).storedDocument = .malformed raw reason := by
  have hsame : v = raw := by
    unfold ofValue at hread
    split at hread
    · cases hread
    · exact (Entry.malformed.inj hread).1
  subst hsame
  rw [hread, storedDocument, hplain.plain_eq, hread]

/-- An entry is the same entry when it is read again exactly if it is settled. -/
theorem same_again_iff {v : Value} (hplain : v.IsPlain) :
    Same (ofValue v) (ofValue (ofValue v).storedDocument) ↔ (ofValue v).Settled := by
  cases hread : ofValue v with
  | malformed raw reason =>
    have hagain := malformed_of_ofValue hplain hread
    rw [hread] at hagain
    simp [hagain, Same, Settled]
  | step s =>
    have hparsed := ofValue?_of_ofValue hread
    have hagain := Step.ofValue?_storedDocument (Step.wellFormed_of_ofValue? hplain.1 hparsed)
      (Step.isFinite_of_ofValue? hplain.2 hparsed) (Step.isTrimmed_of_ofValue? hparsed)
    rw [Settled, ← Step.again_eq_iff, storedDocument, ofValue, hagain, Same]
    exact eq_comm

end Entry

namespace Step.Draft

/-- The keys of the documents of drafted steps. -/
def names : List String :=
  ["id", "type", "text", "field", "if", "thenStepIndex", "elseStepIndex", "reason"]

/-- The entries of a drafted step are the text and the reason that were given, further texts, and
integers. -/
theorem forall_mem_build {draft : Draft} {P : String × Value → Prop}
    (htext : draft.text.isEmpty = false → P ("text", draft.text))
    (hreason : draft.reason.isEmpty = false → P ("reason", draft.reason))
    (htexts : ∀ key ∈ names, ∀ s, P (key, .str s)) (hnumbers : ∀ key ∈ names, ∀ n, P (key, .int n))
    {step : Fields} (hbuilt : draft.build = .ok step) : ∀ e ∈ step, P e := by
  have hmade : ∀ key ∈ names, ∀ {v : Value} {entry : Fields}, targetEntry key v = .ok entry →
      ∀ e ∈ entry, P e := by
    intro key hnamed v entry hmade e hlisted
    rcases targetEntry_eq hmade with rfl | ⟨n, rfl⟩
    · simp at hlisted
    · obtain rfl := List.mem_singleton.1 hlisted
      exact hnumbers key hnamed n
  have hfirst : ∀ kind, ∀ e ∈ draft.opening kind, P e := by
    intro kind
    cases hempty : draft.text.isEmpty <;>
      simp [opening, hempty, htexts "id" (by decide), htexts "type" (by decide)]
    exact htext hempty
  have hsingle : ∀ key ∈ names, ∀ s : String, ∀ e ∈ [(key, Value.str s)], P e :=
    fun key hnamed s => List.forall_mem_singleton.2 (htexts key hnamed s)
  obtain ⟨kind, -, hbuilds⟩ := exists_builds hbuilt
  cases hbuilds with
  | question =>
    refine List.forall_mem_append.2 ⟨List.forall_mem_append.2
      ⟨hfirst .question, hsingle "field" (by decide) _⟩, ?_⟩
    cases draft.text.isEmpty
    · simp
    · exact hsingle "text" (by decide) _
  | reply => exact hfirst .reply
  | finish => exact hfirst .finish
  | @condition condition _ _ _ hthenEntry helseEntry =>
    have hshown := List.forall_mem_append.2 ⟨hfirst .condition, hsingle "if" (by decide) condition⟩
    exact List.forall_mem_append.2 ⟨List.forall_mem_append.2
      ⟨hshown, hmade _ (by decide) hthenEntry⟩, hmade _ (by decide) helseEntry⟩
  | handoff =>
    refine List.forall_mem_append.2 ⟨hfirst .handoff, ?_⟩
    cases hempty : draft.reason.isEmpty
    · simpa [Value.orElse, hempty] using hreason hempty
    · simpa [Value.orElse, hempty] using htexts "reason" (by decide) "handoff"

theorem isNull_of_isEmpty {v : Value} (hpresent : v.isEmpty = false) : v.isNull = false := by
  cases v <;> first | rfl | cases hpresent

/-- The step that is drafted is the same step when it is read again. -/
theorem again_build {draft : Draft} (htext : draft.text.IsPlain) (hreason : draft.reason.IsPlain)
    {step : Fields} (hbuilt : draft.build = .ok step) :
    Entry.ofValue (Entry.ofValue (.dict step)).storedDocument = Entry.ofValue (.dict step) := by
  have hdocument := isDocument_build htext.1 hreason.1 hbuilt
  have hfinite : ∀ e ∈ step, e.2.isFinite = true :=
    forall_mem_build (fun _ => htext.2) (fun _ => hreason.2) (fun _ _ _ => rfl) (fun _ _ _ => rfl)
      hbuilt
  have hgiven : ∀ e ∈ step, e.2.isNull = false :=
    forall_mem_build (fun hpresent => isNull_of_isEmpty hpresent)
      (fun hpresent => isNull_of_isEmpty hpresent) (fun _ _ _ => rfl) (fun _ _ _ => rfl) hbuilt
  have hnamed : ∀ e ∈ step, e.1 ∈ names :=
    forall_mem_build (fun _ => by simp [names]) (fun _ => by simp [names])
      (fun _ hnamed _ => hnamed) (fun _ hnamed _ => hnamed) hbuilt
  have hplain : (Value.dict step).IsPlain := ⟨hdocument, Value.isFiniteFields_iff.2 hfinite⟩
  cases hread : Entry.ofValue (.dict step) with
  | malformed raw why =>
    have hagain := Entry.malformed_of_ofValue hplain hread
    rwa [hread] at hagain
  | step s =>
    have hparsed := Entry.ofValue?_of_ofValue hread
    have hwellFormed := wellFormed_of_ofValue? hdocument hparsed
    obtain ⟨fields, hsame, -, -, -, hextras⟩ := exists_of_ofValue? hparsed
    cases hsame
    have hleft : ∀ e ∈ s.extras, e ∈ step := by
      rw [hextras]
      exact fun e hlisted => (List.mem_filter.1 hlisted).1
    -- the older names are none that a draft gives
    have hnewer : ∀ slot ∈ slots s.kind, slot.older ∉ keys s.extras := by
      intro slot hlisted hfound
      obtain ⟨e, hkept, hkey⟩ := List.mem_map.1 hfound
      have holder : slot.older ∈ names := hkey ▸ hnamed e (hleft e hkept)
      have hfree := hwellFormed.free slot hlisted
      have hplain : ∀ kind, ∀ slot ∈ slots kind, slot.older ∈ names → slot.older = slot.name := by
        intro kind
        cases kind <;> decide
      exact hfree (hplain s.kind slot hlisted holder ▸ hfound)
    rw [Entry.storedDocument, Entry.ofValue, ofValue?_storedDocument_self hwellFormed
      (isFinite_of_ofValue? hplain.2 hparsed) (isTrimmed_of_ofValue? hparsed)
      (fun e hkept => hgiven e (hleft e hkept)) hnewer]

end Step.Draft

end Dialogue

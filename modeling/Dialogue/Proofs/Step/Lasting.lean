import Dialogue.Proofs.Step.Again
import Dialogue.Proofs.Step.Grammar

/-!
# Entries that last

The first time that an entry is stored and read again it may become another one: a number that is
not finite is stored as null, and an older spelling of a field counts once the newer one was left
out.  After that it stays what it is (`Entry.alike_again`), because what is read from a stored step
leaves no field to its extras (`Step.settled_of_storedDocument`).
-/

namespace Dialogue

open Keyed (keys)

namespace Step

/-- Where a field is not there under its name, the extras have nothing under its older name. -/
theorem getD_extras_of_absent {slots : List Schema.Slot} {slot : Schema.Slot} {fields : Fields}
    (hlisted : slot ∈ slots) (habsent : Fields.get? fields slot.name = none) :
    Fields.getD (Schema.extras slots fields) slot.older = .null := by
  have hnothing : Fields.get? (Schema.extras slots fields) slot.older = none := by
    rw [Fields.get?, Keyed.get?_eq_none_iff]
    intro hleft
    obtain ⟨e, hkept, hkey⟩ := List.mem_map.1 hleft
    obtain ⟨hthere, huntaken⟩ := List.mem_filter.1 hkept
    have htaken : slot.older ∈ slot.taken fields := by
      cases hfound : Fields.get? fields slot.older with
      | none => exact absurd (hkey ▸ List.mem_map_of_mem hthere) (Keyed.get?_eq_none_iff.1 hfound)
      | some v => simp [Schema.Slot.taken, Schema.Slot.find?, habsent, hfound]
    have htaken : slot.older ∈ slots.flatMap (·.taken fields) :=
      List.mem_flatMap.2 ⟨slot, hlisted, htaken⟩
    simp [hkey, htaken] at huntaken
  rw [Fields.getD, hnothing]
  rfl

variable {s t : Step}

/-- A field that was left out of what is stored, and that was read as nothing, was not read from an
extra, and there is no extra for it. -/
theorem older_eq_none {α : Type} {f : Value → Option α} (hnothing : f .null = none)
    (hwellFormed : s.WellFormed) (hextras : t.extras = Schema.extras (slots s.kind) s.storedFields)
    {slot : Schema.Slot} (hlisted : slot ∈ slots s.kind) {v : Value}
    (hwritten : Fields.get? s.entries slot.name = some v) (hgiven : v.isNull = false → f v ≠ none)
    (hgone : f (slotValue s.storedFields slot) = none) : f (t.older slot) = none := by
  have hfound := get?_storedFields_name hwellFormed hlisted
  rw [hwritten] at hfound
  cases hnull : v.isNull with
  | true =>
    simp only [Option.filter, hnull, Bool.not_true, Bool.false_eq_true, if_false] at hfound
    rw [older, hextras, getD_extras_of_absent hlisted hfound, hnothing]
  | false =>
    simp only [Option.filter, hnull, Bool.not_false, if_true] at hfound
    rw [slotValue, Schema.Slot.find?, hfound] at hgone
    exact absurd hgone (hgiven hnull)

/-- What is read from a stored step is settled. -/
theorem settled_of_storedDocument (hwellFormed : s.WellFormed)
    (hread : ofValue? s.storedDocument = .ok t) : t.Settled := by
  intro expr thenTarget elseTarget hbranches
  obtain ⟨fields, hsame, hkind, -, haction, hextras⟩ := exists_of_ofValue? hread
  obtain rfl : s.storedFields = fields := Value.dict.inj hsame
  have hsame : s.kind = t.kind :=
    Except.ok.inj ((readKind_storedFields hwellFormed).symm.trans hkind)
  have hbranching : t.kind = .condition := by rw [Step.kind, hbranches]; rfl
  rw [hbranching, hbranches] at haction
  rw [← hsame] at hextras
  rw [hbranching] at hsame
  have hreads := Action.condition.inj (Except.ok.inj haction)
  obtain ⟨e, first, second, hdoes⟩ : ∃ e first second, s.action = .condition e first second := by
    cases hdoes : s.action with
    | condition e first second => exact ⟨e, first, second, rfl⟩
    | _ => simp [Step.kind, hdoes, Action.kind] at hsame
  have htarget {slot : Schema.Slot} {n : Option Int} (hlisted : slot ∈ slots s.kind)
      (hwritten : Fields.get? s.entries slot.name = some (.ofIndex n))
      (hgone : targetOfValue (slotValue s.storedFields slot) = none) :
      targetOfValue (t.older slot) = none := by
    refine older_eq_none rfl hwellFormed hextras hlisted hwritten ?_ hgone
    cases n <;> simp [Value.ofIndex, Value.isNull, targetOfValue]
  refine ⟨fun hgone => ?_, fun hgone => ?_, fun hgone => ?_⟩
  · have hwritten : Fields.get? s.entries exprSlot.name = some (.ofOption e) := by
      simp [entries, hdoes, Action.entries, Keyed.get?, exprSlot]
    refine older_eq_none rfl hwellFormed hextras (by rw [hsame]; decide) hwritten ?_
      (hreads.1.trans hgone)
    cases e <;> simp [Value.ofOption, Value.isNull, exprOfValue]
  · have hwritten : Fields.get? s.entries thenSlot.name = some (.ofIndex first) := by
      simp [entries, hdoes, Action.entries, Keyed.get?, thenSlot]
    exact htarget (by rw [hsame]; decide) hwritten (hreads.2.1.trans hgone)
  · have hwritten : Fields.get? s.entries elseSlot.name = some (.ofIndex second) := by
      simp [entries, hdoes, Action.entries, Keyed.get?, elseSlot]
    exact htarget (by rw [hsame]; decide) hwritten (hreads.2.2.trans hgone)

end Step

namespace Entry

/-- Both entries are steps of one identifier that do the same, or the same data that is no step, for
the same reason. -/
def Alike : Entry → Entry → Prop
  | .step s, .step t => s.id = t.id ∧ s.action = t.action
  | .malformed raw reason, .malformed raw' reason' => raw = raw' ∧ reason = reason'
  | _, _ => False

theorem Alike.refl (e : Entry) : e.Alike e := by
  cases e <;> exact ⟨rfl, rfl⟩

theorem ofValue_of_ofValue? {v : Value} {s : Step} (hread : Step.ofValue? v = .ok s) :
    ofValue v = .step s := by
  rw [ofValue, hread]

theorem get?_plainFields (fields : Fields) (key : String) :
    Fields.get? (Value.plainFields fields) key = (Fields.get? fields key).map Value.plain := by
  rw [Value.plainFields_eq_map]
  exact Keyed.get?_mapValues Value.plain fields key

theorem isText_of_plain {fields : Fields} {key text : String}
    (hthere : Step.IsText (Value.plainFields fields) key text) : Step.IsText fields key text := by
  rw [Step.IsText, get?_plainFields] at hthere
  obtain ⟨v, hfound, hplain⟩ := Option.map_eq_some_iff.1 hthere
  cases v with
  | str s =>
    cases hplain
    exact hfound
  | double d =>
    rw [Value.plain] at hplain
    split at hplain <;> cases hplain
  | _ => cases hplain

theorem isTextOr_of_plain {fields : Fields} {key default text : String}
    (hthere : Step.IsTextOr (Value.plainFields fields) key default text) :
    Step.IsTextOr fields key default text := by
  cases hthere with
  | text hthere => exact .text (isText_of_plain hthere)
  | absent habsent =>
    rw [get?_plainFields, Option.map_eq_none_iff] at habsent
    exact .absent habsent

theorem exists_of_plain_eq_dict {v : Value} {fields : Fields} (hplain : v.plain = .dict fields) :
    ∃ fields', v = .dict fields' ∧ Value.plainFields fields' = fields := by
  cases v with
  | dict fields' =>
    cases hplain
    exact ⟨fields', rfl, rfl⟩
  | double d =>
    rw [Value.plain] at hplain
    split at hplain <;> cases hplain
  | _ => cases hplain

/-- The plain form of data that is no step is not read as a condition, which would need no more than
a type and perhaps an identifier. -/
theorem settled_ofValue_plain {v : Value} (hnone : ∀ s, ofValue v ≠ .step s) :
    (ofValue v.plain).Settled := by
  cases hagain : ofValue v.plain with
  | malformed => trivial
  | step t =>
    intro expr thenTarget elseTarget hbranches
    obtain ⟨fields, hsame, htagged, hidentified, -⟩ :=
      Step.ofValue?_eq_ok_iff.1 (ofValue?_of_ofValue hagain)
    obtain ⟨fields', rfl, rfl⟩ := exists_of_plain_eq_dict hsame
    have hbranching : t.kind = .condition := by rw [Step.kind, hbranches]; rfl
    rw [hbranching] at htagged
    have hadmitted : Step.InGrammar (.dict fields') := ⟨fields', .condition, rfl,
      isText_of_plain htagged, ⟨_, isTextOr_of_plain hidentified⟩, trivial⟩
    obtain ⟨s, hmeans⟩ := Step.inGrammar_iff.1 hadmitted
    exact absurd (ofValue_of_ofValue? (Step.ofValue?_eq_ok_iff.2 hmeans)) (hnone s)

theorem settled_again {v : Value} (hdocument : v.IsDocument) :
    (ofValue (ofValue v).storedDocument).Settled := by
  cases hread : ofValue v with
  | malformed raw reason =>
    obtain rfl : raw = v := raw_of_ofValue hread
    exact settled_ofValue_plain (by simp [hread])
  | step s =>
    have hwellFormed := Step.wellFormed_of_ofValue? hdocument (ofValue?_of_ofValue hread)
    show (ofValue s.storedDocument).Settled
    cases hagain : ofValue s.storedDocument with
    | malformed => trivial
    | step t => exact Step.settled_of_storedDocument hwellFormed (ofValue?_of_ofValue hagain)

theorem alike_of_settled {v : Value} (hplain : v.IsPlain) (hsettled : (ofValue v).Settled) :
    Alike (ofValue v) (ofValue (ofValue v).storedDocument) := by
  cases hread : ofValue v with
  | malformed raw reason =>
    have hagain := malformed_of_ofValue hplain hread
    rw [hread] at hagain
    rw [hagain]
    exact .refl _
  | step s =>
    have hparsed := ofValue?_of_ofValue hread
    have hagain := Step.ofValue?_storedDocument (Step.wellFormed_of_ofValue? hplain.1 hparsed)
      (Step.isFinite_of_ofValue? hplain.2 hparsed) (Step.isTrimmed_of_ofValue? hparsed)
    rw [hread] at hsettled
    rw [storedDocument, ofValue_of_ofValue? hagain]
    exact ⟨rfl, ((Step.again_eq_iff s).2 hsettled).symm⟩

/-- An entry that was stored once is the same entry whenever it is read again. -/
theorem alike_again {v : Value} (hdocument : v.IsDocument) :
    Alike (ofValue (ofValue v).storedDocument)
      (ofValue (ofValue (ofValue v).storedDocument).storedDocument) :=
  alike_of_settled (isPlain_storedDocument (wellFormed_ofValue hdocument)) (settled_again hdocument)

end Entry

end Dialogue

import Dialogue.Proofs.Deployment.Operation
import Dialogue.Proofs.Engine.Discernment

/-!
# Contents that can be read

Contents are sound if they are tidy, all their flows can be read, and every flow lies under its own
name (`Store.Memory.Sound`).  Operations keep contents sound (`Operation.safe_sound`), and in sound
contents whatever an operation writes can be told from what it is written over
(`Operation.discerns`).
-/

namespace Dialogue

open Store

namespace Store.Memory

variable {m : Memory} {now now' clock : String} {key : Key} {flow : Flow} {tenant name : Value}

/-! ## Flows that are found -/

theorem flow?_now (htidy : m.Tidy) (now now' : String) (key : Key) :
    m.flow? now key = m.flow? now' key := by
  rw [flow?, flow?, document?_flows htidy]
  cases hfound : m.flows.get? key with
  | none => rfl
  | some doc =>
    obtain ⟨-, written, -, rfl⟩ := htidy.flows _ (Keyed.mem_of_get?_eq_some hfound)
    simp only [Option.bind_some, Flow.ofValue_document_now written now now']

theorem flow?_congr {m' : Memory} (hsame : m'.flows = m.flows) (now : String) (key : Key) :
    m'.flow? now key = m.flow? now key := by
  rw [flow?, flow?, hsame]

theorem flow?_withFlow_self (m : Memory) (now : String) (tenant : Value) (flow : Flow) :
    (m.withFlow tenant flow).flow? now (flowKey tenant (.str flow.name)) =
      (Flow.ofValue now (.dict flow.document)).toOption := by
  have hnonempty : (Value.dict flow.document).isEmpty = false := by
    simpa [Value.isEmpty] using flow.document_ne_nil
  simp [flow?, document?, withFlow, Option.filter, hnonempty]

theorem flow?_withFlow_of_ne (m : Memory) (now : String)
    (hdifferent : key ≠ flowKey tenant (.str flow.name)) :
    (m.withFlow tenant flow).flow? now key = m.flow? now key := by
  rw [flow?, flow?, document?, document?, withFlow, Keyed.get?_set_of_ne _ _ hdifferent]

theorem flow?_of_has (now : String) (habsent : m.flows.has key = false) :
    m.flow? now key = none := by
  have hnothing : m.flows.get? key = none := by simpa [Keyed.has] using habsent
  simp [flow?, document?, hnothing]

/-- Every flow lies under its own name. -/
def Named (m : Memory) : Prop :=
  ∀ {now key flow}, m.flow? now key = some flow →
    flow.name ≠ "" ∧ key.2 = Identifier.safeName (.str flow.name)

theorem named_withFlow (hnamed : m.Named) (tenant : Value) (hown : flow.name ≠ "") :
    (m.withFlow tenant flow).Named := by
  intro now key found hthere
  by_cases hsame : key = flowKey tenant (.str flow.name)
  · subst hsame
    rw [flow?_withFlow_self] at hthere
    cases hread : Flow.ofValue now (.dict flow.document) with
    | error mismatch => simp [hread, Except.toOption] at hthere
    | ok again =>
      obtain rfl : again = found := by simpa [hread, Except.toOption] using hthere
      have hkept := Flow.name_of_ofValue_document hown hread
      exact ⟨hkept ▸ hown, by rw [hkept]; rfl⟩
  · rw [flow?_withFlow_of_ne m now hsame] at hthere
    exact hnamed hthere

/-! ## Sound contents -/

/-- Contents that are tidy, with flows that can all be read and lie under their own names. -/
structure Sound (m : Memory) : Prop where
  tidy : m.Tidy
  readable : ∀ e ∈ m.flows, ∀ now, ∃ flow, Flow.ofValue now e.2 = .ok flow
  named : m.Named

theorem named_empty : Named {} := fun hthere => by
  simp [flow?, document?, Keyed.get?, Option.filter] at hthere

theorem sound_empty : Sound {} := ⟨tidy_empty, by simp, named_empty⟩

theorem Sound.reads (hsound : m.Sound) (now : String) (key : Key) : m.Reads now key := by
  intro doc hfound
  rw [document?_flows hsound.tidy] at hfound
  exact hsound.readable _ (Keyed.mem_of_get?_eq_some hfound) now

/-- A flow that has a name and can be read again is kept. -/
theorem Sound.withFlow (hsound : m.Sound) (tenant : Value) (hwellFormed : flow.WellFormed)
    (hown : flow.name ≠ "")
    (hagain : ∀ now, ∃ again, Flow.ofValue now (.dict flow.document) = .ok again) :
    (m.withFlow tenant flow).Sound where
  tidy := tidy_withFlow hsound.tidy tenant hwellFormed
  readable e he := by
    rcases Keyed.mem_set he with rfl | he
    · exact hagain
    · exact hsound.readable e he
  named := named_withFlow hsound.named tenant hown

theorem Sound.withChanged (hsound : m.Sound) (tenant : Value) (hwellFormed : flow.WellFormed)
    (hown : flow.name ≠ "") (hchanged : flow.updatedAt ≠ none) : (m.withFlow tenant flow).Sound :=
  hsound.withFlow tenant hwellFormed hown fun now =>
    Flow.exists_ofValue_document hwellFormed (fun hunchanged => absurd hunchanged hchanged) now

theorem Sound.withConversation (hsound : m.Sound) (hproper : key.IsOfConversation)
    {c : Conversation}
    (hplain : c.IsPlain) : (m.withConversation key (.dict c.document)).Sound where
  tidy := tidy_withConversation hsound.tidy hproper ⟨c, hplain, rfl⟩
  readable := hsound.readable
  named hthere := hsound.named hthere

/-- Sound contents are closed under what operations write. -/
theorem closed_sound (clock : String) :
    Closed clock (fun _ => True) (fun _ => True) Sound where
  tidy _ hsound := hsound.tidy
  creates tenant name hsound preset hmade _ := by
    obtain ⟨text, hsame, -⟩ := exists_of_ofPresetNamed hmade
    refine hsound.withFlow tenant (wellFormed_ofPresetNamed hmade)
      (hsame ▸ Flow.name_make_ne_empty _ _ _) fun now => ?_
    obtain ⟨again, hread, -⟩ := exists_ofValue_of_ofPresetNamed hmade now
    exact ⟨again, hread⟩
  appends tenant name hsound _ hdocument hfound :=
    hsound.withChanged tenant
      (wellFormed_withStep hdocument (wellFormed_of_flow? hsound.tidy hfound))
      (hsound.named hfound).1 (by simp [withStep])
  puts := by
    intro m tenant counterparty name text time limit key flow outcome saves hsound _ hkey _ _ c _ _
      hplain m' _ hsound'
    exact hsound'.withConversation (isOfConversation_of_counterpartyKey hkey tenant) hplain
  removes key hsound :=
    ⟨tidy_withoutConversation hsound.tidy key, hsound.readable, fun hthere => hsound.named hthere⟩

end Store.Memory

namespace Operation

variable {clock : String} {m : Memory} {op : Operation}

/-- A flow that is saved can be read again. -/
theorem readable_of_saves (hrevalidates : op.Revalidates) {tenant : Value} {flow : Flow}
    (hsaves : op.Saves clock tenant flow) (now : String) :
    ∃ again, Flow.ofValue now (.dict flow.document) = .ok again := by
  cases op with
  | saveFlow tenant' flow' =>
    obtain ⟨rfl, rfl⟩ := hsaves
    obtain ⟨now', again, hread⟩ := hrevalidates
    exact ⟨again, (Flow.ofValue_document_now _ _ _).trans hread⟩
  | createFlow tenant' name preset =>
    obtain ⟨-, name', -, hmade⟩ := hsaves
    obtain ⟨steps, hwellFormed, rfl⟩ := exists_of_fromPreset hmade
    exact Flow.exists_ofValue_document (Flow.wellFormed_make _ _ hwellFormed)
      (fun _ => List.not_mem_nil) now
  | _ => exact hsaves.elim

theorem kept_sound (hsound : m.Sound) (hvalid : op.Valid) (hrevalidates : op.Revalidates) :
    op.Kept clock Memory.Sound m := by
  intro tenant flow hsaves hown
  have hwellFormed := wellFormed_of_saves hvalid hsaves
  cases m.flow? clock (flowKey tenant (.str flow.name)) with
  | none => exact hsound.withFlow tenant hwellFormed hown (readable_of_saves hrevalidates hsaves)
  | some old =>
    exact hsound.withChanged tenant (wellFormed_revised hwellFormed (some old)) hown
      (by simp [revised])

theorem safe_sound (hsound : m.Sound) (hvalid : op.Valid) (hrevalidates : op.Revalidates) :
    (op.program clock).Safe clock Memory.Sound (fun _ _ => True) m :=
  op.safe (Memory.closed_sound clock) hsound hvalid (by cases op <;> trivial)
    (by cases op <;> trivial) (kept_sound hsound hvalid hrevalidates)

end Operation

/-! ## What is written can be told -/

namespace Store

variable {clock : String} {m : Memory} {tenant name step : Value}

theorem discerns_appendStep_of_sound (hsound : m.Sound) :
    (appendStep clock tenant name step).Discerns clock m :=
  discerns_appendStep hsound (fun _ hsound' => hsound'.tidy)
    ((Memory.closed_sound clock).creates tenant name hsound)
    fun _ _ hsound' hfound => (hsound'.named hfound).2

theorem discerns_tellAll (events : List Event) : (Program.tellAll events).Discerns clock m := by
  induction events with
  | nil => exact .done
  | cons e rest ih => exact .log ih

theorem discerns_addStep {draft : Step.Draft} (hsound : m.Sound) :
    (Authoring.addStep clock tenant name draft).Discerns clock m := by
  unfold Authoring.addStep
  cases draft.build with
  | error fault => exact .fail
  | ok step =>
    exact (discerns_appendStep_of_sound hsound).bind fun _ _ =>
      (discerns_tellAll _).bind fun _ _ => .done

theorem discerns_createFlow {preset : Value} (hsound : m.Sound) :
    (Authoring.createFlow clock tenant name preset).Discerns clock m := by
  unfold Authoring.createFlow
  cases hnamed : Authoring.newName name with
  | error f => exact .fail
  | ok name' =>
    cases hmade : Authoring.fromPreset clock preset name' with
    | error f =>
      show (Program.bind (Program.ofExcept id (Authoring.fromPreset clock preset name')) _).Discerns
        _ _
      rw [hmade]
      exact .fail
    | ok flow =>
      show (Program.bind (Program.ofExcept id (Authoring.fromPreset clock preset name')) _).Discerns
        _ _
      rw [hmade]
      exact discerns_saveFlow hsound.tidy (hsound.reads clock _)

end Store

theorem Operation.discerns {clock : String} {m : Memory} (hsound : m.Sound) (op : Operation) :
    (op.program clock).Discerns clock m := by
  cases op with
  | createFlow tenant name preset => exact (discerns_createFlow hsound).bind fun _ _ => .done
  | addStep tenant name draft => exact (discerns_addStep hsound).bind fun _ _ => .done
  | appendStep tenant name step =>
    exact (discerns_appendStep_of_sound hsound).bind fun _ _ => .done
  | saveFlow tenant flow =>
    exact (discerns_saveFlow hsound.tidy (hsound.reads clock _)).bind fun _ _ => .done
  | ensurePreset tenant name => exact discerns_ensurePreset.bind fun _ _ => .done
  | inbound tenant counterparty text flow time hops =>
    exact (Inbound.discerns_handle hsound.tidy hops text flow time).bind fun _ _ => .done
  | getConversation tenant counterparty => exact discerns_getConversation.bind fun _ _ => .done
  | resetConversation tenant counterparty => exact discerns_clearConversation.bind fun _ _ => .done
  | loadFlow | listFlows | listConversations => exact .access trivial fun _ _ => .done

end Dialogue

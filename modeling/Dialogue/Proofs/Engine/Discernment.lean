import Dialogue.Proofs.Engine.Contents

/-!
# What operations write can be told

A store may leave a document alone that counts as the same as the one that is put in its place.  In
tidy contents this makes no difference to what operations write (`Program.Discerns`).  A flow that
is written over another one has a higher version, and a conversation that a message stores goes on
from the one that was stored before it.

## Main statements

* `discerns_saveFlow`, `discerns_appendStep`: flows that are saved, and steps that are appended.
* `discerns_handle`: messages.
-/

namespace Dialogue

open Store

namespace Store

variable {clock : String} {m : Memory} {key : String} {tenant counterparty name : Value}
  {flow : Flow}

/-! ## Flows -/

/-- A flow of a higher version can be told from the one that it is written over. -/
theorem discerned_of_version (clock : String) {held : Option Value}
    (hlater : ∀ doc, held = some doc →
      ∃ old, Flow.ofValue clock doc = .ok old ∧ old.version < flow.version) :
    Discerned held (.dict flow.document) := by
  intro doc hthere hsame
  obtain ⟨old, hread, habove⟩ := hlater doc hthere
  exact absurd (Flow.version_eq_of_same hread hsame) (Int.ne_of_lt habove)

/-- A flow that is saved has a higher version than the one that is there, if that can be read. -/
theorem discerned_revised (htidy : m.Tidy)
    (hreads : m.Reads clock (flowKey tenant (.str flow.name))) :
    Discerned (m.flows.get? (flowKey tenant (.str flow.name)))
      (.dict (revised clock flow
        (m.flow? clock (flowKey tenant (.str flow.name)))).document) := by
  refine discerned_of_version clock fun doc hthere => ?_
  rw [← m.document?_flows htidy] at hthere
  obtain ⟨old, hread⟩ := hreads doc hthere
  refine ⟨old, hread, ?_⟩
  simp only [Memory.flow?, hthere, Option.bind_some, hread, Except.toOption, revised]
  omega

theorem discerns_saveFlow (htidy : m.Tidy)
    (hreads : m.Reads clock (flowKey tenant (.str flow.name))) :
    (saveFlow clock tenant flow).Discerns clock m := by
  cases hnamed : flow.name.isEmpty with
  | true =>
    rw [saveFlow_eq_fail hnamed]
    exact .fail
  | false =>
    rw [saveFlow_eq hnamed]
    refine .access trivial fun existing hsame => .access ?_ fun _ _ => .log .done
    obtain rfl : existing = m.flow? clock (flowKey tenant (.str flow.name)) := hsame
    show Discerned (m.flows.get? (flowKey tenant (.str (revised _ _ _).name))) _
    rw [name_revised]
    exact discerned_revised htidy hreads

/-- A flow that grows is written over itself, if it lies under its own name. -/
theorem discerned_withStep (htidy : m.Tidy) {step : Value}
    (hfound : m.flow? clock (flowKey tenant name) = some flow)
    (hnamed : Identifier.safeName name = Identifier.safeName (.str flow.name)) :
    m.Discerns (.writeFlow tenant (withStep clock step flow)) := by
  have hown : flowKey tenant (.str (withStep clock step flow).name) = flowKey tenant name :=
    congrArg (Prod.mk _) hnamed.symm
  refine discerned_of_version clock fun doc hthere => ⟨flow, ?_, ?_⟩
  · rw [hown] at hthere
    rw [Memory.flow?, m.document?_flows htidy, hthere, Option.bind_some] at hfound
    cases hread : Flow.ofValue clock doc with
    | ok flow' => simpa [hread, Except.toOption] using hfound
    | error mismatch => simp [hread, Except.toOption] at hfound
  · show flow.version < flow.version + 1
    omega

theorem discerns_appendStep {step : Value} {P : Memory → Prop} (hinv : P m)
    (htidy : ∀ m, P m → m.Tidy) (hcreates : Creates clock P tenant name m)
    (hnamed : ∀ m flow, P m → m.flow? clock (flowKey tenant name) = some flow →
      Identifier.safeName name = Identifier.safeName (.str flow.name)) :
    (appendStep clock tenant name step).Discerns clock m := by
  have hwrites (m' : Memory) (flow : Flow) (hinv' : P m')
      (hfound : m'.flow? clock (flowKey tenant name) = some flow) :
      (Program.access (.writeFlow tenant (withStep clock step flow)) fun _ =>
        .log (.stepAppended tenant name ((withStep clock step flow).size - 1)
          (withStep clock step flow).version)
          (.done (withStep clock step flow))).Discerns clock m' :=
    .access (discerned_withStep (htidy m' hinv') hfound (hnamed m' flow hinv' hfound)) fun _ _ =>
      .log .done
  rw [appendStep_eq, loadOrCreate_eq]
  refine .access trivial fun found hsame => ?_
  cases hthere : found with
  | some flow => exact hwrites m flow hinv (hsame.symm.trans hthere)
  | none =>
    cases hmade : Flow.ofPresetNamed clock .leadQualification name with
    | error mismatch => exact .fail
    | ok preset =>
      have hinv' : P (m.after (.createFlow tenant preset)) := by
        rw [Memory.after]
        split
        · exact hinv
        · rename_i habsent
          exact hcreates preset hmade (by simpa using habsent)
      refine .access trivial fun _ _ => .access trivial fun again hsame' => ?_
      cases hthere' : again with
      | some flow => exact hwrites _ flow hinv' (hsame'.symm.trans hthere')
      | none => exact .fail

theorem discerns_ensurePreset : (ensurePreset clock tenant name).Discerns clock m := by
  cases hmade : Flow.ofPresetNamed clock .leadQualification name with
  | error mismatch =>
    unfold ensurePreset
    rw [hmade]
    exact .fail
  | ok preset =>
    rw [ensurePreset_eq hmade]
    have hlocated (created : Bool) : (Program.access (.locateFlow tenant name) fun location =>
        .done (created, location)).Discerns clock (m.after (.createFlow tenant preset)) :=
      .access trivial fun _ _ => .done
    refine .access trivial fun created _ => ?_
    cases created with
    | true => exact .log (hlocated true)
    | false => exact hlocated false

/-! ## Conversations -/

theorem discerns_getConversation :
    (getConversation clock tenant counterparty).Discerns clock m := by
  cases hkey : counterpartyKey counterparty with
  | error f =>
    unfold getConversation
    rw [hkey]
    exact .fail
  | ok key =>
    rw [getConversation_eq hkey]
    refine .access trivial fun found _ => ?_
    cases found with
    | none => exact .done
    | some document =>
      dsimp only
      split
      · exact .done
      · split
        · exact .done
        · exact .log .done

theorem discerns_clearConversation : (clearConversation tenant counterparty).Discerns clock m := by
  cases hkey : counterpartyKey counterparty with
  | error f =>
    unfold clearConversation
    rw [hkey]
    exact .fail
  | ok key =>
    rw [clearConversation_eq hkey]
    refine .access trivial fun removed _ => ?_
    cases removed with
    | true => exact .log .done
    | false => exact .done

end Store

/-! ## Messages -/

namespace Inbound

open Store

variable {clock key : String} {m : Memory} {tenant counterparty : Value}

/-- A message stores what goes on from the conversation that is there. -/
theorem discerns_handle (htidy : m.Tidy) (hops : Int) (text : Option String) (name : String)
    (time : Option String) :
    (handle clock hops (ofTexts tenant counterparty text name time)).Discerns clock m := by
  rw [handle_eq]
  refine .access trivial fun found _ => ?_
  cases found with
  | none => exact .log .done
  | some flow =>
    by_cases hempty : flow.steps.isEmpty = true
    · simp only [if_pos hempty]
      exact .log .done
    · simp only [if_neg hempty]
      cases hkey : counterpartyKey counterparty with
      | error f =>
        unfold getConversation
        rw [hkey]
        exact .fail
      | ok key =>
        have hcarries : (afterReading hops tenant counterparty text name (timeOf clock time) flow
            (m.conversation? clock (Identifier.safeName tenant, key))).Discerns clock m := by
          obtain ⟨effects, outcome, hdoes, htold, hstores⟩ :=
            exists_afterReading_plain hops tenant counterparty text name (timeOf clock time) flow
              fun c hread => (m.exists_of_conversation? htidy hread).1
          rw [hdoes]
          exact (discerns_of_reference htidy hkey htold fun c hlisted => (hstores c hlisted).2).bind
            fun _ _ => .done
        obtain ⟨next, hfetches, hgoesOn⟩ := exists_getConversation hkey clock tenant m
        rw [hfetches]
        refine .access trivial fun r hsame => ?_
        obtain rfl :
            r = m.answer clock (.fetchConversation (Identifier.safeName tenant) key) := hsame
        rcases hgoesOn with hgoesOn | ⟨e, hgoesOn⟩ <;> rw [hgoesOn]
        · exact hcarries
        · exact .log hcarries

end Inbound

end Dialogue

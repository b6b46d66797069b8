import Dialogue.Proofs.Deployment.Stored
import Dialogue.Proofs.Step.Again

/-!
# Appending steps to flows of any origin

A flow is looked for under the storage key of the name that is asked for, and it is written under
that of the name in its document.  Other tooling, or a copied file, may make the two differ.  Where
they are the same, a step that is appended is the one thing that changes: the flow is found with the
step, in the next version, and what lies under other keys is as it was.  Where they differ, the flow
that was asked for stays as it is and another one is made or replaced
(`Deployment.appendsOnly_iff`).
-/

namespace Dialogue.Deployment

open Store

variable {d d' : Deployment} {clock : String} {tenant name : Value} {flow : Flow}
  {answer : Operation.Answer}

/-- The flow is found with one step more, which is the given one, and in the next version.  What
lies under other keys is as it was. -/
structure AppendsOnly (d d' : Deployment) (tenant name : Value) (flow : Flow) (step : Value) :
    Prop where
  loads : ∀ clock, ∃ again, (d'.call clock (.loadFlow tenant name)).1 = .ok (.found (some again)) ∧
    again.size = flow.size + 1 ∧ again.steps.getLast? = some (Entry.ofValue step) ∧
    again.version = flow.version + 1
  others : ∀ tenant' name', flowKey tenant' name' ≠ flowKey tenant name →
    d'.stored tenant' name' = d.stored tenant' name'

/-- A flow with a step that was drafted is read again with that step at its end. -/
theorem exists_again_withStep {draft : Step.Draft} (htext : draft.text.IsPlain)
    (hreason : draft.reason.IsPlain) {step : Fields} (hbuilt : draft.build = .ok step)
    (now clock : String) (flow : Flow) :
    ∃ again, Flow.ofValue now (.dict (withStep clock (.dict step) flow).document) = .ok again ∧
      again.size = flow.size + 1 ∧ again.steps.getLast? = some (Entry.ofValue (.dict step)) ∧
      again.version = flow.version + 1 := by
  have hchanged : (withStep clock (.dict step) flow).updatedAt = some clock := rfl
  obtain ⟨again, hread⟩ := Flow.exists_ofValue_document_of_updatedAt hchanged now
  have hsteps := Flow.steps_of_ofValue_document hread
  refine ⟨again, hread, ?_, ?_, Flow.version_of_ofValue_document hread⟩
  · rw [Flow.size, hsteps]
    simp [withStep, Flow.size]
  · rw [hsteps]
    simp [withStep, Step.Draft.again_build htext hreason hbuilt]

/-- A flow that grows has a higher version than the row that it was found in. -/
theorem not_retains_withStep {step : Value}
    (hfound : (d.stored tenant name).bind (Stored.load? clock) = some flow)
    (hsame : flowKey tenant (.str flow.name) = flowKey tenant name) :
    ¬ d.Retains tenant (withStep clock step flow) := by
  rintro ⟨row, held, halike⟩
  change d.stored tenant (.str flow.name) = _ at held
  rw [stored_congr hsame] at held
  rw [held, Option.bind_some] at hfound
  obtain ⟨doc, hdocument, hread⟩ := Stored.load?_eq_some_iff.1 hfound
  obtain rfl : row.document = doc := Option.some.inj hdocument
  have hkept : flow.version = flow.version + 1 := Flow.version_eq_of_same hread halike
  omega

/-- Appending a drafted step to a flow that is found does that and nothing else exactly if the flow
lies under the key of its own name. -/
theorem appendsOnly_iff {draft : Step.Draft} {step : Fields} (htext : draft.text.IsPlain)
    (hreason : draft.reason.IsPlain) (hbuilt : draft.build = .ok step)
    (hfound : (d.call clock (.loadFlow tenant name)).1 = .ok (.found (some flow)))
    (hdone : d.call clock (.appendStep tenant name (.dict step)) = (.ok answer, d')) :
    d.AppendsOnly d' tenant name flow (.dict step) ↔
      flowKey tenant (.str flow.name) = flowKey tenant name := by
  have hlies := load_iff.1 hfound
  have hdocument := Step.Draft.isDocument_build htext.1 hreason.1 hbuilt
  have hwrote := of_appendStep hlies hdocument hdone
  constructor
  · intro happends
    refine Classical.byContradiction fun hdifferent => ?_
    obtain ⟨old, hbefore, -⟩ := Option.bind_eq_some_iff.1 hlies
    -- the flow that was asked for is found as it was, one step too short
    obtain ⟨again, hloaded, hlonger, -⟩ := happends.loads clock
    rw [load_iff, hwrote.others hbefore (Ne.symm hdifferent), hlies] at hloaded
    cases hloaded
    omega
  · intro hsame
    refine ⟨fun clock' => ?_, fun tenant' name' hother => ?_⟩
    · obtain ⟨s, hthere, hread⟩ := hwrote.lies (not_retains_withStep hlies hsame)
      obtain ⟨again, hparsed, hgrown⟩ := exists_again_withStep htext hreason hbuilt clock' clock
        flow
      refine ⟨again, load_iff.2 ?_, hgrown⟩
      rw [← stored_congr hsame]
      rw [show (withStep clock (.dict step) flow).name = flow.name from rfl] at hthere
      rw [hthere, Option.bind_some]
      exact Stored.load?_eq_some_iff.2 ⟨_, hread, hparsed⟩
    · obtain ⟨old, hbefore, -⟩ := Option.bind_eq_some_iff.1 hlies
      exact hwrote.others hbefore fun hequal => hother (hequal.trans hsame)

/-! ## A flow under another key than that of its name -/

/-- The document of a flow with a name and no steps. -/
def blankDocument : Value := .dict [("name", .str "g"), ("version", .int 1), ("steps", .list [])]

/-- A deployment in memory with the document under a key. -/
def placed (name : Value) : Deployment :=
  (placeFlow (started {}).engine (.str "acme") name blankDocument (started {})).2

/-- A reply, as an author drafts it. -/
def greeting : Step.Draft := { kind := .str "reply", text := .str "hi" }

/-- The document of the reply. -/
def greetingStep : Fields :=
  [("id", .str Step.freshId), ("type", .str "reply"), ("text", .str "hi")]

/-- The flow that the document is read as. -/
def blankFlow : Flow := { id := "g", name := "g", createdAt := "t1" }

/-- Appends the reply to the flow that is asked for by a name. -/
def greet (name : Value) : Operation := .appendStep (.str "acme") name (.dict greetingStep)

/-- The reply is appended to the flow under the key of its name. -/
theorem appendsOnly_iff_placed :
    (placed (.str "g")).AppendsOnly ((placed (.str "g")).call "t1" (greet (.str "g"))).2
      (.str "acme") (.str "g") blankFlow (.dict greetingStep) := by
  have hbuilt : greeting.build = .ok greetingStep := rfl
  have hfound : ((placed (.str "g")).call "t1" (.loadFlow (.str "acme") (.str "g"))).1 =
      .ok (.found (some blankFlow)) := rfl
  have hdone : (placed (.str "g")).call "t1" (greet (.str "g")) =
      (.ok (.flow (withStep "t1" (.dict greetingStep) blankFlow)),
        ((placed (.str "g")).call "t1" (greet (.str "g"))).2) := rfl
  have hplain : greeting.text.IsPlain := Schema.isPlain_str "hi"
  have hiff := appendsOnly_iff hplain Schema.isPlain_null hbuilt hfound hdone
  exact hiff.2 rfl

/-- It does not always hold that a step that is appended to a flow that is found is found with it:
the flow may be one that a document of another name is read as. -/
theorem not_appendsOnly :
    ¬ ∀ (d d' : Deployment) (clock : String) (tenant name : Value) (flow : Flow)
      (draft : Step.Draft) (step : Fields) (answer : Operation.Answer),
      draft.text.IsPlain → draft.reason.IsPlain → draft.build = .ok step →
      (d.call clock (.loadFlow tenant name)).1 = .ok (.found (some flow)) →
      d.call clock (.appendStep tenant name (.dict step)) = (.ok answer, d') →
        d.AppendsOnly d' tenant name flow (.dict step) := by
  intro halways
  have hplain : greeting.text.IsPlain := Schema.isPlain_str "hi"
  have hbuilt : greeting.build = .ok greetingStep := rfl
  have hfound : ((placed (.str "f")).call "t1" (.loadFlow (.str "acme") (.str "f"))).1 =
      .ok (.found (some blankFlow)) := rfl
  have hdone : (placed (.str "f")).call "t1" (greet (.str "f")) =
      (.ok (.flow (withStep "t1" (.dict greetingStep) blankFlow)),
        ((placed (.str "f")).call "t1" (greet (.str "f"))).2) := rfl
  have happends := halways _ _ _ _ _ _ _ _ _ hplain Schema.isPlain_null hbuilt hfound hdone
  obtain ⟨again, hloaded, hlonger, -⟩ := happends.loads "t1"
  have hunchanged : (((placed (.str "f")).call "t1" (greet (.str "f"))).2.call "t1"
      (.loadFlow (.str "acme") (.str "f"))).1 = .ok (.found (some blankFlow)) := rfl
  rw [hunchanged] at hloaded
  obtain rfl : blankFlow = again :=
    Option.some.inj (Operation.Answer.found.inj (Except.ok.inj hloaded))
  exact absurd hlonger (by decide)

end Dialogue.Deployment

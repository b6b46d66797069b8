import Dialogue.Authoring
import Dialogue.Proofs.Deployment.Operation
import Dialogue.Proofs.Engine.Walk
import Dialogue.Proofs.Store.Directory.Orderly
import Dialogue.Proofs.Store.Trail

/-!
# What the surfaces ask of the stores

A failure is one of the caller's, or it is a fault that no caller can mend (`Failure.Kind.other`).
A program *mends* if it gives up with certain failures only, whatever it is answered
(`Program.Mends`).  Over a store that answers all accesses of such a program nothing else comes up
(`Program.Mends.run`): what the program comes to is a result, or one of these failures (`IsMended`).

Commands and requests do a handful of things: they list, create, show and check flows, take messages
through flows, and look at conversations or forget them.  All of these mend, and what each of them
gives up with is said of it.  Adding a step is the exception, because a flow may be unavailable;
what is left of it is whether its step can be built.

The names that they lead to are short enough for files (`Access.IsShort`) if the tenant and the flow
that the caller names are.
-/

namespace Dialogue

open Store

/-! ## Failures that can be mended -/

section

variable {α β σ : Type} {Allowed : Access → Prop} {Fails : Failure → Prop} {Q Q' : α → Prop}

/-- A result of which something holds, or a failure of which something holds. -/
def IsMended (Fails : Failure → Prop) (Q : α → Prop) : Except Failure α → Prop
  | .ok a => Q a
  | .error f => Fails f

namespace Program

/-- All accesses of a program are allowed, and so are the results that it comes to and the failures
with which it gives up. -/
inductive Mends (Allowed : Access → Prop) (Fails : Failure → Prop) (Q : α → Prop) :
    Program α → Prop where
  | done {a : α} (hholds : Q a) : Mends Allowed Fails Q (.done a)
  | fail {f : Failure} (hfails : Fails f) : Mends Allowed Fails Q (.fail f)
  | log {e : Event} {next : Program α} (hrest : Mends Allowed Fails Q next) :
      Mends Allowed Fails Q (.log e next)
  | access {a : Access} {next : a.Answer → Program α} (hallowed : Allowed a)
      (hrest : ∀ r, Mends Allowed Fails Q (next r)) : Mends Allowed Fails Q (.access a next)

theorem Mends.bind {R : β → Prop} {p : Program α} {k : α → Program β}
    (hmends : p.Mends Allowed Fails Q) (hnext : ∀ a, Q a → (k a).Mends Allowed Fails R) :
    (p.bind k).Mends Allowed Fails R := by
  induction hmends with
  | done hholds => exact hnext _ hholds
  | fail hfails => exact .fail hfails
  | log _ ih => exact .log ih
  | access hallowed _ ih => exact .access hallowed ih

/-- A program that mends comes to what is mended over a store that answers its accesses. -/
theorem Mends.run {access : (a : Access) → Run σ a.Answer} {log : Event → σ → σ} {Inv : σ → Prop}
    (hlogs : ∀ e s, Inv s → Inv (log e s))
    (hanswers : ∀ a s, Allowed a → Inv s → ∃ r t, access a s = (.ok r, t) ∧ Inv t)
    {p : Program α} (hmends : p.Mends Allowed Fails Q) {s : σ} (hinv : Inv s) :
    ∃ r t, p.run access log s = (r, t) ∧ IsMended Fails Q r ∧ Inv t := by
  induction hmends generalizing s with
  | @done a hholds => exact ⟨.ok a, s, rfl, hholds, hinv⟩
  | @fail f hfails => exact ⟨.error f, s, rfl, hfails, hinv⟩
  | log _ ih => exact ih (hlogs _ s hinv)
  | access hallowed _ ih =>
    obtain ⟨r, t, hanswered, hkept⟩ := hanswers _ s hallowed hinv
    obtain ⟨result, u, hran, hmended, hkept⟩ := ih r hkept
    refine ⟨result, u, ?_, hmended, hkept⟩
    rw [Program.run, Run.bind, hanswered]
    exact hran

end Program

end

open Program

/-! ## What is asked -/

namespace Store

/-- The file of that name leaves room for the file in the making. -/
def Directory.IsShort (name : String) : Prop :=
  (Directory.fileName name).utf8ByteSize + Directory.scratchLength ≤ Files.maxName

/-- The names that an access leads to are short. -/
def Access.IsShort : Access → Prop
  | .loadFlow tenant name =>
    Directory.IsShort (flowKey tenant name).1 ∧ Directory.IsShort (flowKey tenant name).2
  | .createFlow tenant flow | .writeFlow tenant flow =>
    Directory.IsShort (flowKey tenant (.str flow.name)).1 ∧
      Directory.IsShort (flowKey tenant (.str flow.name)).2
  | .listFlows tenant | .listConversations tenant =>
    Directory.IsShort (Identifier.safeName tenant)
  | .locateFlow _ _ => True
  | .fetchConversation tenant _ | .putConversation tenant _ _ | .deleteConversation tenant _ =>
    Identifier.IsName tenant ∧ Directory.IsShort tenant

end Store

variable {clock : String} {hops : Int} {tenant name counterparty : Value}

/-- The storage key of a name is short. -/
def Value.IsShort (name : Value) : Prop := Directory.IsShort (Identifier.safeName name)

/-- A value that a caller can give for a text: a text, or one that counts as absent. -/
def Value.IsArgument (v : Value) : Prop := v.isEmpty = true ∨ ∃ s, v = .str s

/-- A value that a caller can give for the target of a condition: none, an integer, or a value
that is cut off. -/
def Value.IsTarget (v : Value) : Prop := v = .null ∨ v = .list [] ∨ ∃ n, v = .int n

/-- The description of a step has texts and targets in the places where others would be stumbled
over. -/
structure Step.Draft.IsTyped (draft : Step.Draft) : Prop where
  field : draft.field.IsArgument
  condition : draft.condition.IsArgument
  thenTarget : draft.thenTarget.IsTarget
  elseTarget : draft.elseTarget.IsTarget

/-! ## Steps -/

namespace Step.Draft

variable {v : Value} {missing fault : Fault} {key : String} {draft : Step.Draft}

theorem eq_missing_of_needText (hargument : v.IsArgument)
    (hfailed : needText v missing = .error fault) : fault = missing := by
  unfold needText at hfailed
  split at hfailed
  · exact (Except.error.inj hfailed).symm
  · rename_i hgiven
    rcases hargument with hempty | ⟨s, rfl⟩
    · exact absurd hempty hgiven
    · simp only at hfailed
      split at hfailed
      · exact (Except.error.inj hfailed).symm
      · cases hfailed

theorem eq_notTarget_of_targetEntry (htarget : v.IsTarget)
    (hfailed : targetEntry key v = .error fault) : fault = .notTarget := by
  rcases htarget with rfl | rfl | ⟨n, rfl⟩
  · cases hfailed
  · exact (Except.error.inj hfailed).symm
  · cases hfailed

/-- What is wrong with a description, unless a target is cut off. -/
theorem IsTyped.eq_of_build (htyped : draft.IsTyped) (hbuild : draft.build = .error fault)
    (hwhole : fault ≠ .notTarget) :
    fault = .unknownKind draft.kind ∨ fault = .noField ∨ fault = .noText ∨
      fault = .noCondition := by
  unfold build at hbuild
  split at hbuild
  · exact .inl (Except.error.inj hbuild).symm
  · simp only at hbuild
    split at hbuild
    · rcases error_of_bind hbuild with hfield | ⟨s, -, hbuild⟩
      · exact .inr (.inl (eq_missing_of_needText htyped.field hfield))
      · cases hbuild
    · split at hbuild <;> cases hbuild
      exact .inr (.inr (.inl rfl))
    · split at hbuild <;> cases hbuild
      exact .inr (.inr (.inl rfl))
    · rcases error_of_bind hbuild with hcondition | ⟨s, -, hbuild⟩
      · exact .inr (.inr (.inr (eq_missing_of_needText htyped.condition hcondition)))
      · rcases error_of_bind hbuild with hthen | ⟨entry, -, hbuild⟩
        · exact absurd (eq_notTarget_of_targetEntry htyped.thenTarget hthen) hwhole
        · rcases error_of_bind hbuild with helse | ⟨entry', -, hbuild⟩
          · exact absurd (eq_notTarget_of_targetEntry htyped.elseTarget helse) hwhole
          · cases hbuild
    · cases hbuild

end Step.Draft

/-! ## What is worked out before anything is asked -/

variable {Fails : Failure → Prop}

theorem mends_counterpartyKey (hdigits : Fails (.noDigits counterparty)) :
    (ofExcept id (counterpartyKey counterparty)).Mends Access.IsShort Fails fun _ => True := by
  simp only [counterpartyKey]
  split
  · exact .fail hdigits
  · exact .done trivial

theorem mends_messageText {text : Value} (hargument : text.IsArgument) :
    (ofExcept id (Inbound.messageText text)).Mends Access.IsShort Fails fun _ => True := by
  unfold Inbound.messageText
  rcases hargument with hempty | ⟨s, rfl⟩
  · rw [if_pos hempty]
    exact .done trivial
  · split <;> exact .done trivial

/-- What is wrong with a flow that is no text, where a record needs its name. -/
inductive Inbound.Misfit (flow : Value) : Schema.Mismatch → Prop where
  | outcome (hflow : ∀ s, flow ≠ .str s) :
      Misfit flow ⟨"FlowResult", [⟨["flow"], .notText, flow⟩]⟩
  | start (hflow : ∀ s, flow ≠ .str s) :
      Misfit flow ⟨"Conversation", [⟨["flow"], .notText, flow⟩]⟩

theorem mends_outcomeName {flow : Value}
    (hmisfit : ∀ mismatch, Inbound.Misfit flow mismatch → Fails (.invalid mismatch)) :
    (ofExcept id (Inbound.outcomeName flow)).Mends Access.IsShort Fails fun _ => True := by
  unfold Inbound.outcomeName
  split
  · exact .done trivial
  · rename_i hflow
    exact .fail (hmisfit _ (.outcome hflow))

theorem misfit_of_start {flow : Value} {now : String} {mismatch : Schema.Mismatch}
    (hstart : Turn.start flow (.str now) = .error mismatch) : Inbound.Misfit flow mismatch := by
  cases flow with
  | str s => cases hstart
  | _ =>
    cases hstart
    exact .start (by simp)

/-- A flow that is no text keeps a conversation from being resumed; nothing else does. -/
theorem misfit_of_resume {flow : Value} {now : String} {stored : Option Conversation}
    {mismatch : Schema.Mismatch} (hresume : Turn.resume flow (.str now) stored = .error mismatch) :
    Inbound.Misfit flow mismatch := by
  unfold Turn.resume at hresume
  split at hresume
  · cases hresume
  · rcases error_of_bind hresume with hstart | ⟨c, -, hresume⟩
    · exact misfit_of_start hstart
    · cases hresume

/-- A turn whose time is a text has an outcome. -/
theorem now_ne_of_run {ctx : Turn.Context} {flow : Flow} {c : Conversation}
    {mismatch : Schema.Mismatch} (hrun : (Turn.run ctx flow c).2 = .error mismatch)
    (now : String) : ctx.now ≠ .str now := by
  intro hnow
  obtain ⟨outcome, hturn, -⟩ := Turn.told_walk hnow flow ctx.hops.toNat (Turn.record ctx.text c)
  rw [Turn.run, hturn] at hrun
  cases hrun

theorem mends_invalid {α : Type} {e : Except Schema.Mismatch α}
    (hfails : ∀ mismatch, e = .error mismatch → Fails (.invalid mismatch)) :
    (ofExcept .invalid e).Mends Access.IsShort Fails fun _ => True := by
  cases e with
  | ok a => exact .done trivial
  | error mismatch => exact .fail (hfails mismatch rfl)

/-- A name of a flow that is created is what is left of a text, and it is stored like the text. -/
theorem mends_newName (hname : Fails .nameRequired) (text : String) :
    (ofExcept id (Authoring.newName (.str text))).Mends Access.IsShort Fails fun name =>
      Identifier.safeName (.str name) = Identifier.safeName (.str text) := by
  unfold Authoring.newName
  split
  · exact .fail hname
  · simp only
    split
    · exact .fail hname
    · exact .done (Identifier.safeName_strip text)

theorem mends_fromPreset {preset : Value} (hpreset : Fails (.unknownPreset preset))
    (hargument : preset.IsArgument) (clock name : String) :
    (ofExcept id (Authoring.fromPreset clock preset name)).Mends Access.IsShort Fails fun flow =>
      Identifier.safeName (.str flow.name) = Identifier.safeName (.str name) := by
  cases hmade : Authoring.fromPreset clock preset name with
  | ok flow =>
    obtain ⟨steps, -, rfl⟩ := Operation.exists_of_fromPreset hmade
    exact .done (safeName_make clock name steps)
  | error f =>
    refine .fail ?_
    unfold Authoring.fromPreset at hmade
    split at hmade
    · rcases hargument with hempty | ⟨s, hsame⟩
      · cases hempty
      · cases hsame
    · rcases hargument with hempty | ⟨s, hsame⟩
      · cases hempty
      · cases hsame
    · split at hmade <;> cases hmade
      exact hpreset

section

variable (hshort : tenant.IsShort)

include hshort

/-! ## Conversations -/

theorem mends_getConversation (hdigits : Fails (.noDigits counterparty)) :
    (getConversation clock tenant counterparty).Mends Access.IsShort Fails fun _ => True := by
  refine (mends_counterpartyKey hdigits).bind fun key _ => ?_
  refine .access ⟨Identifier.isName_safeName tenant, hshort⟩ fun found => ?_
  cases found with
  | none => exact .done trivial
  | some document =>
    show (ite _ _ _ : Program (Option Conversation)).Mends _ _ _
    split
    · exact .done trivial
    · split
      · exact .done trivial
      · exact .log (.done trivial)

theorem mends_setConversation (hdigits : Fails (.noDigits counterparty)) (c : Conversation) :
    (setConversation tenant counterparty c).Mends Access.IsShort Fails fun _ => True := by
  refine (mends_counterpartyKey hdigits).bind fun key _ => ?_
  exact .access ⟨Identifier.isName_safeName tenant, hshort⟩ fun _ => .done trivial

theorem mends_clearConversation (hdigits : Fails (.noDigits counterparty)) :
    (clearConversation tenant counterparty).Mends Access.IsShort Fails fun _ => True := by
  refine (mends_counterpartyKey hdigits).bind fun key _ => ?_
  refine .access ⟨Identifier.isName_safeName tenant, hshort⟩ fun removed => ?_
  cases removed with
  | true => exact .log (.done trivial)
  | false => exact .done trivial

/-! ## Messages -/

theorem mends_carryOut (hdigits : Fails (.noDigits counterparty)) (effects : List Turn.Effect) :
    (Inbound.carryOut tenant counterparty effects).Mends Access.IsShort Fails fun _ => True := by
  induction effects with
  | nil => exact .done trivial
  | cons effect rest ih =>
    cases effect with
    | log e => exact .log ih
    | save c => exact (mends_setConversation hshort hdigits c).bind fun _ _ => ih

/-- Taking a message through a flow gives up only for what is wrong with the message. -/
theorem mends_handle {m : Inbound} {now : String} (hsame : m.tenant = tenant)
    (hflow : m.flow.IsShort) (hargument : m.text.IsArgument)
    (hnow : m.now.orElse (.str clock) = .str now) (hdigits : Fails (.noDigits m.counterparty))
    (hmisfit : ∀ mismatch, Inbound.Misfit m.flow mismatch → Fails (.invalid mismatch)) :
    (Inbound.handle clock hops m).Mends Access.IsShort Fails fun _ => True := by
  subst hsame
  refine .access ⟨hshort, hflow⟩ fun found => ?_
  cases found with
  | none => exact .log ((mends_outcomeName hmisfit).bind fun _ _ => .done trivial)
  | some flow =>
    show (ite _ _ _ : Program Outcome).Mends _ _ _
    split
    · exact .log ((mends_outcomeName hmisfit).bind fun _ _ => .done trivial)
    · refine (mends_getConversation hshort hdigits).bind fun stored _ => ?_
      refine (mends_invalid fun mismatch hresume => ?_).bind fun c _ => ?_
      · exact hmisfit mismatch (misfit_of_resume (hnow ▸ hresume))
      refine (mends_messageText hargument).bind fun text _ => ?_
      refine (mends_carryOut hshort hdigits _).bind fun _ _ => mends_invalid fun mismatch hrun => ?_
      exact absurd hnow (now_ne_of_run hrun now)

/-! ## Flows -/

theorem mends_showFlow (hflow : name.IsShort) (hfound : Fails (.flowNotFound name)) :
    (Authoring.showFlow tenant name).Mends Access.IsShort Fails fun _ => True := by
  refine .access ⟨hshort, hflow⟩ fun found => ?_
  cases found with
  | none => exact .fail hfound
  | some flow => exact .done trivial

theorem mends_checkFlow (hflow : name.IsShort) (hfound : Fails (.flowNotFound name)) :
    (Authoring.checkFlow tenant name).Mends Access.IsShort Fails fun _ => True :=
  (mends_showFlow hshort hflow hfound).bind fun _ _ => .done trivial

theorem mends_saveFlow {flow : Flow} (hflow : (Value.str flow.name).IsShort)
    (hunnamed : Fails .flowUnnamed) :
    (saveFlow clock tenant flow).Mends Access.IsShort Fails fun _ => True := by
  cases hempty : flow.name.isEmpty with
  | true =>
    rw [saveFlow_eq_fail hempty]
    exact .fail hunnamed
  | false =>
    rw [saveFlow_eq hempty]
    refine .access ⟨hshort, hflow⟩ fun existing => ?_
    refine .access ⟨hshort, ?_⟩ fun location => .log (.done trivial)
    rw [name_revised]
    exact hflow

/-- Creating a flow gives up only for the name and the preset that are asked for. -/
theorem mends_createFlow {text : String} {preset : Value} (hflow : (Value.str text).IsShort)
    (hargument : preset.IsArgument) (hname : Fails .nameRequired)
    (hpreset : Fails (.unknownPreset preset)) (hunnamed : Fails .flowUnnamed) :
    (Authoring.createFlow clock tenant (.str text) preset).Mends Access.IsShort Fails
      fun _ => True := by
  refine (mends_newName hname text).bind fun name hstored => ?_
  refine (mends_fromPreset hpreset hargument clock name).bind fun flow hmade => ?_
  refine mends_saveFlow hshort ?_ hunnamed
  rw [Value.IsShort, hmade, hstored]
  exact hflow

end

end Dialogue

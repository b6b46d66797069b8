import Dialogue.Authoring
import Dialogue.Proofs.Engine.Contents

/-!
# The operations of the library

What can be asked of the library, each operation as a program and with what it answers
(`Operation.program`).  Answers leave out where a flow lies, which is the one thing that kinds of
stores have a right to answer differently.

## Main statements

* `Operation.safe`: an operation keeps an invariant of contents that is closed under what operations
  write (`Closed`), if the flow that it saves keeps it.
-/

namespace Dialogue

open Program Store

/-- Something that is asked of the library. -/
inductive Operation where
  | createFlow (tenant name preset : Value)
  | addStep (tenant name : Value) (draft : Step.Draft)
  | appendStep (tenant name step : Value)
  | saveFlow (tenant : Value) (flow : Flow)
  | ensurePreset (tenant name : Value)
  | loadFlow (tenant name : Value)
  | listFlows (tenant : Value)
  | inbound (tenant counterparty : Value) (text : Option String) (flow : String)
      (time : Option String) (hops : Int)
  | getConversation (tenant counterparty : Value)
  | resetConversation (tenant counterparty : Value)
  | listConversations (tenant : Value)

namespace Operation

/-- What is answered, without where it lies. -/
inductive Answer where
  | flow (flow : Flow)
  | step (document : Fields) (flow : Flow)
  | created (created : Bool)
  | found (flow : Option Flow)
  | names (names : List String)
  | outcome (outcome : Outcome)
  | conversation (c : Option Conversation)
  | removed (removed : Bool)

/-- An operation as a program, at the time of a clock. -/
def program (clock : String) : Operation → Program Answer
  | createFlow tenant name preset =>
    (Authoring.createFlow clock tenant name preset).bind fun (flow, _) => .done (.flow flow)
  | addStep tenant name draft =>
    (Authoring.addStep clock tenant name draft).bind fun (document, flow) =>
      .done (.step document flow)
  | appendStep tenant name step =>
    (Store.appendStep clock tenant name step).bind fun flow => .done (.flow flow)
  | saveFlow tenant flow =>
    (Store.saveFlow clock tenant flow).bind fun (flow, _) => .done (.flow flow)
  | ensurePreset tenant name =>
    (Store.ensurePreset clock tenant name).bind fun (created, _) => .done (.created created)
  | loadFlow tenant name => .access (.loadFlow tenant name) fun flow => .done (.found flow)
  | listFlows tenant => .access (.listFlows tenant) fun names => .done (.names names)
  | inbound tenant counterparty text flow time hops =>
    (Inbound.handle clock hops (Inbound.ofTexts tenant counterparty text flow time)).bind
      fun outcome => .done (.outcome outcome)
  | getConversation tenant counterparty =>
    (Store.getConversation clock tenant counterparty).bind fun c => .done (.conversation c)
  | resetConversation tenant counterparty =>
    (Store.clearConversation tenant counterparty).bind fun removed => .done (.removed removed)
  | listConversations tenant =>
    .access (.listConversations tenant) fun numbers => .done (.names numbers)

/-- The arguments are what they can be: steps and the parts of a draft are documents, and a flow was
read from one. -/
def Valid : Operation → Prop
  | addStep _ _ draft => draft.text.IsDocument ∧ draft.reason.IsDocument
  | appendStep _ _ step => step.IsDocument
  | saveFlow _ flow => ∃ now v, v.IsDocument ∧ Flow.ofValue now v = .ok flow
  | _ => True

/-- The document of a flow that is saved can be read again. -/
def Revalidates : Operation → Prop
  | saveFlow _ flow => ∃ now again, Flow.ofValue now (.dict flow.document) = .ok again
  | _ => True

/-- The flow that an operation saves, possibly over another one. -/
def Saves (clock : String) : Operation → Value → Flow → Prop
  | saveFlow tenant flow, tenant', flow' => tenant = tenant' ∧ flow = flow'
  | createFlow tenant name preset, tenant', flow' => tenant = tenant' ∧
    ∃ name', Authoring.newName name = .ok name' ∧
      Authoring.fromPreset clock preset name' = .ok flow'
  | _, _, _ => False

/-- The time of a message, if the operation is one. -/
def At (clock : String) (Times : String → Prop) : Operation → Prop
  | inbound _ _ _ _ time _ => Times (Inbound.timeOf clock time)
  | _ => True

/-- The key of the flow that a step is appended to, if the operation appends one. -/
def On (Grows : Key → Prop) : Operation → Prop
  | addStep tenant name _ | appendStep tenant name _ => Grows (flowKey tenant name)
  | _ => True

end Operation

/-- An invariant of contents that is kept by what operations write, saved flows apart: messages at
some times, and steps that are appended to the flows under some keys. -/
structure Closed (clock : String) (Times : String → Prop) (Grows : Key → Prop)
    (P : Memory → Prop) : Prop where
  tidy : ∀ m, P m → m.Tidy
  creates : ∀ {m} tenant name, P m → Creates clock P tenant name m
  appends : ∀ {m step flow} tenant name, P m → Grows (flowKey tenant name) → step.IsDocument →
    m.flow? clock (flowKey tenant name) = some flow →
      P (m.withFlow tenant (withStep clock step flow))
  puts : ∀ {m tenant counterparty name text time limit key flow outcome saves}, P m → Times time →
    counterpartyKey counterparty = .ok key →
    m.flow? clock (flowKey tenant (.str name)) = some flow →
    Turn.Reference flow name text time limit
      (m.conversation? clock (Identifier.safeName tenant, key)) outcome saves →
    ∀ c ∈ saves, c.flow = name → c.IsPlain → ∀ m', m'.flows = m.flows → P m' →
      P (m'.withConversation (Identifier.safeName tenant, key) (.dict c.document))
  removes : ∀ {m} key, P m → P (m.withoutConversation key)

namespace Operation

variable {clock : String} {Times : String → Prop} {Grows : Key → Prop} {P : Memory → Prop}
  {m : Memory}

/-- A flow that is saved is kept as it is written. -/
def Kept (clock : String) (P : Memory → Prop) (m : Memory) (op : Operation) : Prop :=
  ∀ tenant flow, op.Saves clock tenant flow → flow.name ≠ "" →
    P (m.withFlow tenant (revised clock flow (m.flow? clock (flowKey tenant (.str flow.name)))))

/-- A flow that is created was made here, with the steps of a preset or with none. -/
theorem exists_steps_of_fromPreset {preset : Value} {name : String} {flow : Flow}
    (hmade : Authoring.fromPreset clock preset name = .ok flow) :
    ∃ steps, (steps = [] ∨ ∃ p : Preset, steps = p.steps) ∧
      flow = Flow.make clock name steps := by
  unfold Authoring.fromPreset at hmade
  split at hmade
  · cases hmade
  · cases hmade
  · split at hmade
    · rename_i hbuilt
      cases hmade
      unfold Flow.build? at hbuilt
      split at hbuilt
      · cases hbuilt
        exact ⟨[], .inl rfl, rfl⟩
      · obtain ⟨p, -, rfl⟩ := Option.map_eq_some_iff.1 hbuilt
        exact ⟨p.steps, .inr ⟨p, rfl⟩, rfl⟩
    · cases hmade

theorem exists_of_fromPreset {preset : Value} {name : String} {flow : Flow}
    (hmade : Authoring.fromPreset clock preset name = .ok flow) :
    ∃ steps, (∀ e ∈ steps, e.WellFormed) ∧ flow = Flow.make clock name steps := by
  obtain ⟨steps, rfl | ⟨p, rfl⟩, rfl⟩ := exists_steps_of_fromPreset hmade
  · exact ⟨[], List.forall_mem_nil _, rfl⟩
  · exact ⟨p.steps, Flow.wellFormed_steps p, rfl⟩

theorem wellFormed_of_saves {op : Operation} (hvalid : op.Valid) {tenant : Value} {flow : Flow}
    (hsaves : op.Saves clock tenant flow) : flow.WellFormed := by
  cases op with
  | saveFlow tenant' flow' =>
    obtain ⟨rfl, rfl⟩ := hsaves
    obtain ⟨now, v, hdocument, hread⟩ := hvalid
    exact Flow.wellFormed_of_ofValue hdocument hread
  | createFlow tenant' name preset =>
    obtain ⟨-, name', -, hmade⟩ := hsaves
    obtain ⟨steps, hwellFormed, rfl⟩ := exists_of_fromPreset hmade
    exact Flow.wellFormed_make _ _ hwellFormed
  | _ => exact hsaves.elim

theorem safe_tellAll (events : List Event) (m : Memory) :
    (tellAll events).Safe clock P (fun _ _ => True) m := by
  induction events with
  | nil => exact .done trivial
  | cons e rest ih => exact .log ih

/-- An operation that saves a flow does no more than that. -/
theorem program_of_saves {op : Operation} {tenant : Value} {flow : Flow}
    (hsaves : op.Saves clock tenant flow) :
    op.program clock =
      (Store.saveFlow clock tenant flow).bind fun (flow, _) => .done (.flow flow) := by
  cases op with
  | saveFlow tenant' flow' =>
    obtain ⟨rfl, rfl⟩ := hsaves
    rfl
  | createFlow tenant' name preset =>
    obtain ⟨rfl, name', hnamed, hmade⟩ := hsaves
    simp only [program, Authoring.createFlow, hnamed]
    show Program.bind (Program.bind (Program.ofExcept id (Authoring.fromPreset _ _ _)) _) _ = _
    rw [hmade]
    rfl
  | _ => exact hsaves.elim

theorem program_createFlow_or {tenant name preset : Value} :
    (∃ flow, (createFlow tenant name preset).Saves clock tenant flow) ∨
      ∃ f, (createFlow tenant name preset).program clock = .fail f := by
  cases hnamed : Authoring.newName name with
  | error f =>
    refine .inr ⟨f, ?_⟩
    simp only [program, Authoring.createFlow, hnamed]
    rfl
  | ok name' =>
    cases hmade : Authoring.fromPreset clock preset name' with
    | error f =>
      refine .inr ⟨f, ?_⟩
      simp only [program, Authoring.createFlow, hnamed]
      show Program.bind (Program.bind (Program.ofExcept id (Authoring.fromPreset _ _ _)) _) _ = _
      rw [hmade]
      rfl
    | ok flow => exact .inl ⟨flow, rfl, name', hnamed, hmade⟩

/-- An operation that saves a flow keeps an invariant that the flow keeps. -/
theorem safe_program_of_saves {op : Operation} (hinv : P m) (hvalid : op.Valid)
    (hkept : op.Kept clock P m) {tenant : Value} {flow : Flow}
    (hsaves : op.Saves clock tenant flow) :
    (op.program clock).Safe clock P (fun _ _ => True) m := by
  rw [program_of_saves hsaves]
  exact safe_saveFlow hinv (wellFormed_of_saves hvalid hsaves) (fun _ _ _ => rfl)
    (hkept tenant flow hsaves) fun _ _ _ _ => .done trivial

/-- An operation that saves a flow answers it as it was written, unless what is there counts as the
same, or it fails before that. -/
theorem ends_program_of_saves {Q : Memory → Answer → Prop} {op : Operation} (hinv : P m)
    (hvalid : op.Valid) {tenant : Value} {flow : Flow} (hsaves : op.Saves clock tenant flow)
    (hwrites : ∀ written, written.name = flow.name → written.WellFormed →
      Q (m.withFlow tenant written) (.flow written) ∧ Q m (.flow written)) :
    (op.program clock).Ends clock P Q m := by
  rw [program_of_saves hsaves]
  cases hnamed : flow.name.isEmpty with
  | true =>
    rw [saveFlow_eq_fail hnamed]
    exact .fail hinv
  | false =>
    rw [saveFlow_eq hnamed]
    let written := revised clock flow (m.flow? clock (flowKey tenant (.str flow.name)))
    have hwellFormed : written.WellFormed :=
      wellFormed_revised (wellFormed_of_saves hvalid hsaves) _
    obtain ⟨hchanged, hidle⟩ := hwrites written (name_revised _ _ _) hwellFormed
    exact .telling hinv trivial (fun r hsame => by rw [show r = _ from hsame])
      (.access hinv hwellFormed (fun r _ => rfl) (.log (.done hchanged)) fun _ =>
        .log (.done hidle))
      trivial

variable (hclosed : Closed clock Times Grows P) (hinv : P m)

include hclosed hinv

theorem safe_program_addStep {tenant name : Value} {draft : Step.Draft}
    (hvalid : (addStep tenant name draft).Valid) (hgrows : Grows (flowKey tenant name)) :
    ((addStep tenant name draft).program clock).Safe clock P (fun _ _ => True) m := by
  cases hbuilt : draft.build with
  | error f =>
    have hrefused : (addStep tenant name draft).program clock = .fail (.draft f) := by
      simp only [program, Authoring.addStep, hbuilt]
      rfl
    rw [hrefused]
    exact .fail
  | ok step =>
    have hdocument := Step.Draft.isDocument_build hvalid.1 hvalid.2 hbuilt
    have hadded : (Authoring.addStep clock tenant name draft).Safe clock P (fun _ _ => True) m := by
      unfold Authoring.addStep
      rw [hbuilt]
      show Program.Safe clock P _
        (Program.bind (Store.appendStep clock tenant name (.dict step)) _) m
      refine (safe_appendStep hinv hclosed.tidy hdocument
        (hclosed.creates tenant name hinv) ?_).bind hinv
        fun flow m' hinv' _ => (safe_tellAll _ m').bind hinv' fun _ _ _ _ => .done trivial
      exact fun m' flow hinv' hfound => hclosed.appends tenant name hinv' hgrows hdocument hfound
    exact hadded.bind hinv fun _ _ _ _ => .done trivial

theorem safe_program_inbound {tenant counterparty : Value} {text : Option String} {flow : String}
    {time : Option String} {hops : Int} (htimed : Times (Inbound.timeOf clock time)) :
    ((inbound tenant counterparty text flow time hops).program clock).Safe clock P
      (fun _ _ => True) m := by
  rw [program]
  refine (Inbound.safe_handle hinv hclosed.tidy ?_).bind hinv fun _ _ _ _ => .done trivial
  intro key flow outcome saves hkey hfound htold
  exact hclosed.puts hinv htimed hkey hfound htold

/-- An operation keeps a closed invariant. -/
theorem safe (op : Operation) (hvalid : op.Valid)
    (htimed : op.At clock Times) (hgrows : op.On Grows) (hkept : op.Kept clock P m) :
    (op.program clock).Safe clock P (fun _ _ => True) m := by
  cases op with
  | createFlow tenant name preset =>
    rcases program_createFlow_or with ⟨flow, hsaves⟩ | ⟨f, hrefused⟩
    · exact safe_program_of_saves hinv hvalid hkept hsaves
    · rw [hrefused]
      exact .fail
  | addStep tenant name draft => exact safe_program_addStep hclosed hinv hvalid hgrows
  | appendStep tenant name step =>
    rw [program]
    refine (safe_appendStep hinv hclosed.tidy hvalid (hclosed.creates tenant name hinv) ?_).bind
      hinv
      fun _ _ _ _ => .done trivial
    exact fun m' flow hinv' hfound => hclosed.appends tenant name hinv' hgrows hvalid hfound
  | saveFlow tenant flow =>
    have hsaves : (saveFlow tenant flow).Saves clock tenant flow := ⟨rfl, rfl⟩
    exact safe_program_of_saves hinv hvalid hkept hsaves
  | ensurePreset tenant name =>
    rw [program]
    exact safe_ensurePreset hinv (fun _ _ _ => rfl) (hclosed.creates tenant name hinv)
      fun _ _ _ _ => .done trivial
  | loadFlow tenant name =>
    exact .reading trivial (fun r hsame => by rw [show r = _ from hsame]) hinv (.done trivial)
      trivial
  | listFlows tenant =>
    exact .reading trivial (fun r hsame => by rw [show r = _ from hsame]) hinv (.done trivial)
      trivial
  | inbound tenant counterparty text flow time hops =>
    exact safe_program_inbound hclosed hinv htimed
  | getConversation tenant counterparty =>
    rw [program]
    exact (safe_getConversation hinv).bind hinv fun _ _ _ _ => .done trivial
  | resetConversation tenant counterparty =>
    rw [program]
    refine (safe_clearConversation ?_).bind hinv fun _ _ _ _ => .done trivial
    exact fun key _ => hclosed.removes _ hinv
  | listConversations tenant =>
    exact .reading trivial (fun r hsame => by rw [show r = _ from hsame]) hinv (.done trivial)
      trivial

end Operation

end Dialogue

import Dialogue.Proofs.Store.Mirror
import Dialogue.Store.Operations

/-!
# Operations on contents

What the operations of a store do on contents: which accesses they make, all of them proper, and
what they write.  Each operation is safe for an invariant (`Program.Safe`) if what it writes keeps
the invariant, which is the one hypothesis of the lemmas.

Where a flow lies is told to whoever goes on after a flow was saved or created, so these lemmas are
about the operation and what comes after it, and that must not care.

The first part spells the operations out as the sequences of accesses that they are.  An operation
that fails before its first access is left out there.
-/

/-! ## Operations, access by access -/

namespace Dialogue.Store

open Program

variable {now clock key : String} {tenant counterparty name : Value} {flow : Flow}

theorem setConversation_eq (hkey : counterpartyKey counterparty = .ok key) (c : Conversation) :
    setConversation tenant counterparty c =
      .access (.putConversation (Identifier.safeName tenant) key (.dict c.document)) .done := by
  unfold setConversation
  rw [hkey]
  rfl

/-- The conversation with a counterparty is read in one access. -/
theorem getConversation_eq (hkey : counterpartyKey counterparty = .ok key) :
    getConversation clock tenant counterparty =
      .access (.fetchConversation (Identifier.safeName tenant) key) fun found =>
        match found with
        | none => .done none
        | some document =>
          if document.isEmpty then .done none
          else
            match Conversation.ofValue clock document with
            | .ok c => .done (some c)
            | .error _ =>
              .log (.conversationUnreadable tenant (Identifier.redact counterparty))
                (.done none) := by
  unfold getConversation
  rw [hkey]
  show Program.access _ _ = _
  congr 1
  funext found
  cases found with
  | none => rfl
  | some document =>
    cases document.isEmpty with
    | true => rfl
    | false => cases Conversation.ofValue clock document <;> rfl

/-- A conversation is removed in one access. -/
theorem clearConversation_eq (hkey : counterpartyKey counterparty = .ok key) :
    clearConversation tenant counterparty =
      .access (.deleteConversation (Identifier.safeName tenant) key) fun removed =>
        if removed then
          .log (.conversationCleared tenant (Identifier.redact (.str key))) (.done true)
        else .done false := by
  unfold clearConversation
  rw [hkey]
  show Program.access _ _ = _
  congr 1
  funext removed
  cases removed <;> rfl

/-- A flow as it is saved over another one. -/
def revised (now : String) (flow : Flow) : Option Flow → Flow
  | some old => { flow with version := max flow.version old.version + 1, updatedAt := some now }
  | none => flow

theorem name_revised (now : String) (flow : Flow) (existing : Option Flow) :
    (revised now flow existing).name = flow.name := by
  cases existing <;> rfl

theorem saveFlow_eq_fail (hunnamed : flow.name.isEmpty = true) :
    saveFlow now tenant flow = .fail .flowUnnamed := by
  unfold saveFlow
  rw [hunnamed]
  rfl

/-- A flow with a name is saved over the one that is there. -/
theorem saveFlow_eq (hnamed : flow.name.isEmpty = false) :
    saveFlow now tenant flow =
      .access (.loadFlow tenant (.str flow.name)) fun existing =>
        .access (.writeFlow tenant (revised now flow existing)) fun location =>
          .log (.flowSaved tenant flow.name (revised now flow existing).version flow.size)
            (.done (revised now flow existing, location)) := by
  unfold saveFlow
  rw [hnamed]
  show Program.access _ _ = _
  congr 1
  funext existing
  cases existing <;> rfl

/-- A preset is created, and then it is told where it lies. -/
theorem ensurePreset_eq {preset : Flow}
    (hmade : Flow.ofPresetNamed now .leadQualification name = .ok preset) :
    ensurePreset now tenant name =
      .access (.createFlow tenant preset) fun created =>
        let located : Program (Bool × String) :=
          .access (.locateFlow tenant name) fun location => .done (created, location)
        if created then .log (.presetCreated tenant name) located else located := by
  unfold ensurePreset
  rw [hmade]
  rfl

/-- A flow that is missing is made from the preset and loaded again. -/
theorem loadOrCreate_eq (now : String) (tenant name : Value) :
    loadOrCreate now tenant name =
      .access (.loadFlow tenant name) fun found =>
        match found with
        | some flow => .done flow
        | none =>
          match Flow.ofPresetNamed now .leadQualification name with
          | .error mismatch => .fail (.invalid mismatch)
          | .ok preset =>
            .access (.createFlow tenant preset) fun _ =>
              .access (.loadFlow tenant name) fun found =>
                match found with
                | some flow => .done flow
                | none => .fail (.flowUnavailable name) := by
  unfold loadOrCreate
  show Program.access _ _ = _
  congr 1
  funext found
  cases found with
  | some flow => rfl
  | none => cases Flow.ofPresetNamed now .leadQualification name <;> rfl

/-- The flow that a step is appended to is written with the step. -/
theorem appendStep_eq (now : String) (tenant name step : Value) :
    appendStep now tenant name step = (loadOrCreate now tenant name).bind fun flow =>
      .access (.writeFlow tenant (withStep now step flow)) fun _ =>
        .log (.stepAppended tenant name ((withStep now step flow).size - 1)
          (withStep now step flow).version) (.done (withStep now step flow)) := rfl

end Dialogue.Store

/-! ## Operations on contents -/

namespace Dialogue.Store

open Program

variable {α : Type} {now : String} {P : Memory → Prop} {Q : Memory → α → Prop} {m : Memory}
  {tenant counterparty name : Value} {flow : Flow}

/-! ## Conversations -/

/-- The conversation under a key, none where there is none that can be read. -/
def Memory.conversation? (now : String) (m : Memory) (key : Key) : Option Conversation :=
  (Memory.document? m.conversations key).bind fun doc => (Conversation.ofValue now doc).toOption

theorem isNumber_of_counterpartyKey {key : String}
    (hfound : counterpartyKey counterparty = .ok key) :
    Identifier.IsNumber key := by
  simp only [counterpartyKey] at hfound
  split at hfound
  · cases hfound
  · rename_i hnonempty
    cases hfound
    exact Identifier.isNumber_digits (by simpa [String.isEmpty_iff] using hnonempty)

theorem isOfConversation_of_counterpartyKey {key : String}
    (hfound : counterpartyKey counterparty = .ok key) (tenant : Value) :
    Key.IsOfConversation (Identifier.safeName tenant, key) where
  tenant := Identifier.isName_safeName tenant
  number := isNumber_of_counterpartyKey hfound

/-- Reading a conversation is one fetch.  What it goes on to on contents is the conversation that is
there, possibly with a log that it cannot be read. -/
theorem exists_getConversation {key : String} (hkey : counterpartyKey counterparty = .ok key)
    (now : String) (tenant : Value) (m : Memory) :
    ∃ next, getConversation now tenant counterparty =
        .access (.fetchConversation (Identifier.safeName tenant) key) next ∧
      (next (m.answer now (.fetchConversation (Identifier.safeName tenant) key)) =
          .done (m.conversation? now (Identifier.safeName tenant, key)) ∨
        ∃ e, next (m.answer now (.fetchConversation (Identifier.safeName tenant) key)) =
          .log e (.done (m.conversation? now (Identifier.safeName tenant, key)))) := by
  refine ⟨_, getConversation_eq hkey, ?_⟩
  simp only [Memory.answer, Memory.conversation?]
  cases hthere : Memory.document? m.conversations (Identifier.safeName tenant, key) with
  | none => exact .inl rfl
  | some document =>
    have hnonempty : document.isEmpty = false := by
      unfold Memory.document? at hthere
      simpa using (Option.filter_eq_some_iff.1 hthere).2
    cases hread : Conversation.ofValue now document with
    | ok c =>
      simp only [hnonempty, hread, Option.bind_some, Except.toOption]
      exact .inl rfl
    | error mismatch =>
      simp only [hnonempty, hread, Option.bind_some, Except.toOption]
      exact .inr ⟨_, rfl⟩

/-- Reading a conversation comes to the one that is there. -/
theorem safe_getConversation (hinv : P m) :
    (getConversation now tenant counterparty).Safe now P
      (fun m' stored => m' = m ∧ ∃ key, counterpartyKey counterparty = .ok key ∧
        stored = m.conversation? now (Identifier.safeName tenant, key)) m := by
  cases hfound : counterpartyKey counterparty with
  | error f =>
    unfold getConversation
    rw [hfound]
    exact .fail
  | ok key =>
    obtain ⟨next, hfetches, hdoes⟩ := exists_getConversation hfound now tenant m
    rw [hfetches]
    refine .reading (isOfConversation_of_counterpartyKey hfound tenant)
      (fun r hsame => by rw [show r = _ from hsame]) hinv ?_ trivial
    rcases hdoes with hdoes | ⟨e, hdoes⟩
    · rw [hdoes]
      exact .done ⟨rfl, key, rfl, rfl⟩
    · rw [hdoes]
      exact .log (.done ⟨rfl, key, rfl, rfl⟩)

/-- Forgetting a conversation removes it. -/
theorem safe_clearConversation
    (hremoves : ∀ key, counterpartyKey counterparty = .ok key →
      P (m.withoutConversation (Identifier.safeName tenant, key))) :
    (clearConversation tenant counterparty).Safe now P (fun _ _ => True) m := by
  cases hfound : counterpartyKey counterparty with
  | error f =>
    unfold clearConversation
    rw [hfound]
    exact .fail
  | ok key =>
    rw [clearConversation_eq hfound]
    refine .reading (isOfConversation_of_counterpartyKey hfound tenant) (fun r hsame => ?_)
      (hremoves key hfound) ?_ trivial
    · rw [show r = _ from hsame]
    · cases Memory.answer now m (.deleteConversation (Identifier.safeName tenant) key) with
      | true => exact .log (.done trivial)
      | false => exact .done trivial

/-! ## Flows -/

theorem wellFormed_revised (hwellFormed : flow.WellFormed) (existing : Option Flow) :
    (revised now flow existing).WellFormed := by
  cases existing with
  | none => exact hwellFormed
  | some old => exact ⟨hwellFormed.identified, hwellFormed.rest, hwellFormed.steps⟩

theorem wellFormed_withStep {step : Value} (hdocument : step.IsDocument)
    (hwellFormed : flow.WellFormed) : (withStep now step flow).WellFormed where
  identified := hwellFormed.identified
  rest := hwellFormed.rest
  steps e he := by
    rcases List.mem_append.1 he with he | he
    · exact hwellFormed.steps e he
    · obtain rfl := List.mem_singleton.1 he
      exact Entry.wellFormed_ofValue hdocument

theorem exists_of_flow? {key : Key} (htidy : m.Tidy) (hfound : m.flow? now key = some flow) :
    ∃ written : Flow, written.WellFormed ∧ (key, .dict written.document) ∈ m.flows ∧
      Flow.ofValue now (.dict written.document) = .ok flow := by
  rw [Memory.flow?, Memory.document?_flows htidy] at hfound
  obtain ⟨doc, hthere, hread⟩ := Option.bind_eq_some_iff.1 hfound
  have hentry := Keyed.mem_of_get?_eq_some hthere
  obtain ⟨-, written, hwellFormed, rfl⟩ := htidy.flows _ hentry
  refine ⟨written, hwellFormed, hentry, ?_⟩
  cases hagain : Flow.ofValue now (.dict written.document) with
  | ok flow' => simpa [hagain, Except.toOption] using hread
  | error mismatch => simp [hagain, Except.toOption] at hread

theorem wellFormed_of_flow? {key : Key} (htidy : m.Tidy) (hfound : m.flow? now key = some flow) :
    flow.WellFormed := by
  obtain ⟨written, hwellFormed, -, hread⟩ := exists_of_flow? htidy hfound
  exact Flow.wellFormed_of_ofValue (Flow.isPlain_document hwellFormed).1 hread

/-- Saving a flow writes it, revised if there is one. -/
theorem safe_saveFlow {k : Flow × String → Program α} (hinv : P m) (hwellFormed : flow.WellFormed)
    (hblind : ∀ saved l l', k (saved, l) = k (saved, l'))
    (hwrites : flow.name ≠ "" →
      P (m.withFlow tenant (revised now flow (m.flow? now (flowKey tenant (.str flow.name))))))
    (hgoesOn : ∀ saved l m', P m' → (k (saved, l)).Safe now P Q m') :
    ((saveFlow now tenant flow).bind k).Safe now P Q m := by
  cases hnamed : flow.name.isEmpty with
  | true =>
    rw [saveFlow_eq_fail hnamed]
    exact .fail
  | false =>
    rw [saveFlow_eq hnamed]
    have hkept := hwrites (by simpa [String.isEmpty_iff] using hnamed)
    refine .reading trivial (fun r hsame => by rw [show r = _ from hsame]) hinv
      (.access (wellFormed_revised hwellFormed _) (fun r _ => ?_) hkept (.log (hgoesOn _ _ _ hkept))
        fun _ => .log (hgoesOn _ _ _ hinv)) trivial
    exact congrArg (Program.log _) (hblind _ _ _)

/-- A preset is created where no flow is. -/
theorem safe_createPreset {k : Bool → Program α} {preset : Flow} (hinv : P m)
    (hwellFormed : preset.WellFormed)
    (hcreates : m.flows.has (flowKey tenant (.str preset.name)) = false →
      P (m.withFlow tenant preset))
    (hgoesOn : ∀ created m', P m' → (k created).Safe now P Q m') :
    (Program.access (.createFlow tenant preset) k).Safe now P Q m := by
  have hkept : P (m.after (.createFlow tenant preset)) := by
    rw [Memory.after]
    split
    · exact hinv
    · rename_i habsent
      exact hcreates (by simpa using habsent)
  exact .reading hwellFormed (fun r hsame => by rw [show r = _ from hsame]) hkept
    (hgoesOn _ _ hkept)
    trivial

/-- A preset under a name is one under a text that is kept under the same key. -/
theorem exists_of_ofPresetNamed {preset : Flow}
    (hmade : Flow.ofPresetNamed now .leadQualification name = .ok preset) :
    ∃ text, preset = Flow.ofPreset now .leadQualification text ∧
      Identifier.safeName (.str text) = Identifier.safeName name := by
  unfold Flow.ofPresetNamed at hmade
  split at hmade
  · cases hmade
    exact ⟨_, rfl, rfl⟩
  · split at hmade
    · rename_i hempty
      cases hmade
      refine ⟨"", rfl, ?_⟩
      rw [Identifier.safeName, Identifier.safeName, if_pos hempty]
      rfl
    · cases hmade

theorem safeName_make (now name : String) (steps : List Entry) :
    Identifier.safeName (.str (Flow.make now name steps).name) =
      Identifier.safeName (.str name) := by
  rw [Flow.make]
  dsimp only
  split
  · exact Identifier.safeName_of_isName (Identifier.isName_safeName _)
  · rfl

theorem flowKey_ofPresetNamed {preset : Flow}
    (hmade : Flow.ofPresetNamed now .leadQualification name = .ok preset) :
    flowKey tenant (.str preset.name) = flowKey tenant name := by
  obtain ⟨text, rfl, hsame⟩ := exists_of_ofPresetNamed hmade
  exact congrArg (Prod.mk _) ((safeName_make _ _ _).trans hsame)

theorem wellFormed_ofPresetNamed {preset : Flow}
    (hmade : Flow.ofPresetNamed now .leadQualification name = .ok preset) : preset.WellFormed := by
  obtain ⟨text, rfl, -⟩ := exists_of_ofPresetNamed hmade
  exact Flow.wellFormed_make _ _ (Flow.wellFormed_steps _)

/-- A preset is read from its document under its own name. -/
theorem exists_ofValue_of_ofPresetNamed {preset : Flow}
    (hmade : Flow.ofPresetNamed now .leadQualification name = .ok preset) (clock : String) :
    ∃ again, Flow.ofValue clock (.dict preset.document) = .ok again ∧
      again.name = preset.name := by
  have hwellFormed := wellFormed_ofPresetNamed hmade
  obtain ⟨text, rfl, -⟩ := exists_of_ofPresetNamed hmade
  obtain ⟨again, hread⟩ :=
    Flow.exists_ofValue_document hwellFormed (fun _ => List.not_mem_nil) clock
  exact ⟨again, hread, Flow.name_of_ofValue_document (Flow.name_make_ne_empty _ _ _) hread⟩

/-- What a preset that is created writes. -/
def Creates (now : String) (P : Memory → Prop) (tenant name : Value) (m : Memory) : Prop :=
  ∀ preset, Flow.ofPresetNamed now .leadQualification name = .ok preset →
    m.flows.has (flowKey tenant (.str preset.name)) = false → P (m.withFlow tenant preset)

theorem safe_ensurePreset {k : Bool × String → Program α} (hinv : P m)
    (hblind : ∀ created l l', k (created, l) = k (created, l'))
    (hcreates : Creates now P tenant name m)
    (hgoesOn : ∀ created l m', P m' → (k (created, l)).Safe now P Q m') :
    ((ensurePreset now tenant name).bind k).Safe now P Q m := by
  cases hmade : Flow.ofPresetNamed now .leadQualification name with
  | error mismatch =>
    unfold ensurePreset
    rw [hmade]
    exact .fail
  | ok preset =>
    rw [ensurePreset_eq hmade]
    refine safe_createPreset hinv (wellFormed_ofPresetNamed hmade) (hcreates preset hmade) ?_
    intro created m' hinv'
    have hlocated : ∀ created, (Program.access (.locateFlow tenant name) fun location =>
        k (created, location)).Safe now P Q m' := fun created =>
      .reading trivial (fun r _ => hblind _ _ _) hinv' (hgoesOn _ _ _ hinv') trivial
    cases created with
    | true => exact .log (hlocated true)
    | false => exact hlocated false

/-- A flow that is loaded or created is one that is there. -/
theorem safe_loadOrCreate (hinv : P m) (hcreates : Creates now P tenant name m) :
    (loadOrCreate now tenant name).Safe now P
      (fun m' flow => m'.flow? now (flowKey tenant name) = some flow) m := by
  rw [loadOrCreate_eq]
  refine .reading trivial (fun r hsame => by rw [show r = _ from hsame]) hinv ?_ trivial
  simp only [Memory.answer, Memory.after]
  cases hfound : m.flow? now (flowKey tenant name) with
  | some flow => exact .done hfound
  | none =>
    cases hmade : Flow.ofPresetNamed now .leadQualification name with
    | error mismatch => exact .fail
    | ok preset =>
      refine safe_createPreset hinv (wellFormed_ofPresetNamed hmade) (hcreates preset hmade) ?_
      intro created m' hinv'
      refine .reading trivial (fun r hsame => by rw [show r = _ from hsame]) hinv' ?_ trivial
      simp only [Memory.answer, Memory.after]
      cases hfound : m'.flow? now (flowKey tenant name) with
      | some flow => exact .done hfound
      | none => exact .fail

/-- Appending a step writes the flow with one step more. -/
theorem safe_appendStep {step : Value} (hinv : P m) (htidy : ∀ m, P m → m.Tidy)
    (hdocument : step.IsDocument) (hcreates : Creates now P tenant name m)
    (happends : ∀ m' flow, P m' → m'.flow? now (flowKey tenant name) = some flow →
      P (m'.withFlow tenant (withStep now step flow))) :
    (appendStep now tenant name step).Safe now P (fun _ _ => True) m := by
  refine (safe_loadOrCreate hinv hcreates).bind hinv fun flow m' hinv' hfound => ?_
  have hkept := happends m' flow hinv' hfound
  exact .access (wellFormed_withStep hdocument (wellFormed_of_flow? (htidy m' hinv') hfound))
    (fun r _ => rfl) hkept (.log (.done trivial)) fun _ => .log (.done trivial)

end Dialogue.Store

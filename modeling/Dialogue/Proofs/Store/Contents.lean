import Dialogue.Proofs.Conversation.Document
import Dialogue.Proofs.Flow.Document
import Dialogue.Proofs.Run
import Dialogue.Store.Memory
import Dialogue.Value.Basic

/-!
# What a store holds

All kinds of stores hold the same: documents of flows and conversations under pairs of storage keys,
which is what a store in memory is.  This module says what an access answers of such contents
(`Memory.answer`) and what it makes of them (`Memory.after`), without any of the failures that a
kind of store adds.

## Main definitions

* `Memory.Tidy`: the documents are those of flows and conversations that can be stored.
* `Access.Proper`: an access that stores only such documents.
* `Access.Same`: answers that differ at most in where a flow is said to lie.
* `Memory.Discerns`: an access that writes nothing which counts as the same as what it replaces.

## Main statements

* `Memory.tidy_after`: proper accesses keep contents tidy.
* `Memory.access_spec`: the store in memory does what an access does to its contents.
-/

namespace Dialogue.Store

open Keyed (keys)

/-- The storage keys of a flow. -/
structure Key.IsOfFlow (key : Key) : Prop where
  tenant : Identifier.IsName key.1
  name : Identifier.IsName key.2

/-- The storage keys of a conversation. -/
structure Key.IsOfConversation (key : Key) : Prop where
  tenant : Identifier.IsName key.1
  number : Identifier.IsNumber key.2

theorem isOfFlow_flowKey (tenant name : Value) : (flowKey tenant name).IsOfFlow where
  tenant := Identifier.isName_safeName tenant
  name := Identifier.isName_safeName name

/-- What is stored for a flow. -/
def IsFlowDocument (v : Value) : Prop := ∃ flow : Flow, flow.WellFormed ∧ v = .dict flow.document

/-- What is stored for a conversation. -/
def IsConversationDocument (v : Value) : Prop :=
  ∃ c : Conversation, c.IsPlain ∧ v = .dict c.document

theorem IsFlowDocument.isPlain {v : Value} (hdocument : IsFlowDocument v) : v.IsPlain := by
  obtain ⟨flow, hwellFormed, rfl⟩ := hdocument
  exact flow.isPlain_document hwellFormed

theorem IsFlowDocument.nonempty {v : Value} (hdocument : IsFlowDocument v) : v.isEmpty = false := by
  obtain ⟨flow, -, rfl⟩ := hdocument
  simpa [Value.isEmpty] using flow.document_ne_nil

theorem IsConversationDocument.isPlain {v : Value} (hdocument : IsConversationDocument v) :
    v.IsPlain := by
  obtain ⟨c, hplain, rfl⟩ := hdocument
  exact hplain.isPlain_document

theorem IsConversationDocument.nonempty {v : Value} (hdocument : IsConversationDocument v) :
    v.isEmpty = false := by
  obtain ⟨c, hplain, rfl⟩ := hdocument
  simpa [Value.isEmpty] using hplain.document_ne_nil

/-! ## Accesses -/

/-- An access whose keys are storage keys, and that stores documents of flows and conversations. -/
def Access.Proper : Access → Prop
  | .createFlow _ flow | .writeFlow _ flow => flow.WellFormed
  | .fetchConversation tenant key | .deleteConversation tenant key =>
    Key.IsOfConversation (tenant, key)
  | .putConversation tenant key doc =>
    Key.IsOfConversation (tenant, key) ∧ IsConversationDocument doc
  | .loadFlow _ _ | .listFlows _ | .locateFlow _ _ | .listConversations _ => True

/-- Two answers to an access are the same, except that a flow may lie elsewhere. -/
def Access.Same : (a : Access) → a.Answer → a.Answer → Prop
  | .writeFlow _ _, _, _ => True
  | .locateFlow _ _, _, _ => True
  | .loadFlow _ _, r, r' => r = r'
  | .createFlow _ _, r, r' => r = r'
  | .listFlows _, r, r' => r = r'
  | .fetchConversation _ _, r, r' => r = r'
  | .putConversation _ _ _, r, r' => r = r'
  | .deleteConversation _ _, r, r' => r = r'
  | .listConversations _, r, r' => r = r'

/-- A document does not count as the same as the one that is held, unless it is that one. -/
def Discerned (held : Option Value) (doc : Value) : Prop :=
  ∀ old, held = some old → doc.same old = true → old = doc

namespace Memory

variable {now : String} {m : Memory} {a : Access}

/-- What an access writes can be told from what it is written over. -/
def Discerns (m : Memory) : Access → Prop
  | .writeFlow tenant flow =>
    Discerned (m.flows.get? (flowKey tenant (.str flow.name))) (.dict flow.document)
  | .putConversation tenant key doc => Discerned (m.conversations.get? (tenant, key)) doc
  | _ => True

/-- The flow under a key, none where there is none that can be read. -/
def flow? (now : String) (m : Memory) (key : Key) : Option Flow :=
  (document? m.flows key).bind fun doc => (Flow.ofValue now doc).toOption

/-- What an access answers. -/
def answer (now : String) (m : Memory) : (a : Access) → a.Answer
  | .loadFlow tenant name => m.flow? now (flowKey tenant name)
  | .createFlow tenant flow => !m.flows.has (flowKey tenant (.str flow.name))
  | .writeFlow tenant flow => location tenant (.str flow.name)
  | .listFlows tenant => listUnder (Identifier.safeName tenant) m.flows
  | .locateFlow tenant name => location tenant name
  | .fetchConversation tenant key => document? m.conversations (tenant, key)
  | .putConversation _ _ _ => ()
  | .deleteConversation tenant key => m.conversations.has (tenant, key)
  | .listConversations tenant => listUnder (Identifier.safeName tenant) m.conversations

/-- The contents with a flow. -/
def withFlow (m : Memory) (tenant : Value) (flow : Flow) : Memory :=
  { m with flows := m.flows.set (flowKey tenant (.str flow.name)) (.dict flow.document) }

/-- The contents with a document of a conversation. -/
def withConversation (m : Memory) (key : Key) (doc : Value) : Memory :=
  { m with conversations := m.conversations.set key doc }

/-- The contents without a conversation. -/
def withoutConversation (m : Memory) (key : Key) : Memory :=
  { m with conversations := m.conversations.erase key }

/-- The contents after an access. -/
def after (m : Memory) : Access → Memory
  | .createFlow tenant flow =>
    if m.flows.has (flowKey tenant (.str flow.name)) then m else m.withFlow tenant flow
  | .writeFlow tenant flow => m.withFlow tenant flow
  | .putConversation tenant key doc => m.withConversation (tenant, key) doc
  | .deleteConversation tenant key => m.withoutConversation (tenant, key)
  | .loadFlow _ _ | .listFlows _ | .locateFlow _ _ | .fetchConversation _ _
  | .listConversations _ => m

/-! ## Contents that are tidy -/

/-- Documents lie under distinct storage keys, and they are documents of flows and conversations. -/
structure Tidy (m : Memory) : Prop where
  flowKeys : (keys m.flows).Nodup
  conversationKeys : (keys m.conversations).Nodup
  flows : ∀ e ∈ m.flows, e.1.IsOfFlow ∧ IsFlowDocument e.2
  conversations : ∀ e ∈ m.conversations, e.1.IsOfConversation ∧ IsConversationDocument e.2

theorem tidy_empty : Tidy {} where
  flowKeys := List.nodup_nil
  conversationKeys := List.nodup_nil
  flows := by simp
  conversations := by simp

theorem tidy_withFlow (htidy : m.Tidy) (tenant : Value) {flow : Flow}
    (hwellFormed : flow.WellFormed) : (m.withFlow tenant flow).Tidy where
  flowKeys := Keyed.nodup_set htidy.flowKeys _ _
  conversationKeys := htidy.conversationKeys
  flows e he := by
    rcases Keyed.mem_set he with rfl | he
    · exact ⟨isOfFlow_flowKey _ _, flow, hwellFormed, rfl⟩
    · exact htidy.flows e he
  conversations := htidy.conversations

theorem tidy_withConversation (htidy : m.Tidy) {key : Key} (hproper : key.IsOfConversation)
    {doc : Value} (hdocument : IsConversationDocument doc) : (m.withConversation key doc).Tidy where
  flowKeys := htidy.flowKeys
  conversationKeys := Keyed.nodup_set htidy.conversationKeys _ _
  flows := htidy.flows
  conversations e he := by
    rcases Keyed.mem_set he with rfl | he
    · exact ⟨hproper, hdocument⟩
    · exact htidy.conversations e he

theorem tidy_withoutConversation (htidy : m.Tidy) (key : Key) :
    (m.withoutConversation key).Tidy where
  flowKeys := htidy.flowKeys
  conversationKeys := Keyed.nodup_erase htidy.conversationKeys key
  flows := htidy.flows
  conversations e he := htidy.conversations e (Keyed.mem_of_mem_erase he)

theorem tidy_after (htidy : m.Tidy) (hproper : a.Proper) : (m.after a).Tidy := by
  cases a with
  | createFlow tenant flow =>
    rw [after]
    split
    · exact htidy
    · exact tidy_withFlow htidy tenant hproper
  | writeFlow tenant flow => exact tidy_withFlow htidy tenant hproper
  | putConversation tenant key doc => exact tidy_withConversation htidy hproper.1 hproper.2
  | deleteConversation tenant key => exact tidy_withoutConversation htidy _
  | loadFlow | listFlows | locateFlow | fetchConversation | listConversations => exact htidy

theorem document?_flows (htidy : m.Tidy) (key : Key) :
    document? m.flows key = m.flows.get? key := by
  cases hfound : m.flows.get? key with
  | none => simp [document?, hfound]
  | some doc =>
    have hnonempty := (htidy.flows _ (Keyed.mem_of_get?_eq_some hfound)).2.nonempty
    simp [document?, hfound, hnonempty]

theorem document?_conversations (htidy : m.Tidy) (key : Key) :
    document? m.conversations key = m.conversations.get? key := by
  cases hfound : m.conversations.get? key with
  | none => simp [document?, hfound]
  | some doc =>
    have hnonempty := (htidy.conversations _ (Keyed.mem_of_get?_eq_some hfound)).2.nonempty
    simp [document?, hfound, hnonempty]

/-! ## Lists of keys -/

theorem pairwise_sortTexts {xs : List String} (hnodup : xs.Nodup) :
    (sortTexts xs).Pairwise (· < ·) := by
  have hsorted : (sortTexts xs).Pairwise fun a b => (!decide (b < a)) = true := by
    refine List.pairwise_mergeSort (fun a b c hab hbc => ?_) (fun a b => ?_) xs
    · simp only [Bool.not_eq_true', decide_eq_false_iff_not] at hab hbc ⊢
      exact String.le_trans hab hbc
    · simp only [Bool.or_eq_true, Bool.not_eq_true', decide_eq_false_iff_not]
      exact String.le_total a b
  have hdistinct : (sortTexts xs).Nodup := (List.mergeSort_perm xs _).nodup_iff.2 hnodup
  refine (hsorted.and hdistinct).imp fun {a b} ⟨hle, hdifferent⟩ => ?_
  simp only [Bool.not_eq_true', decide_eq_false_iff_not] at hle
  exact Classical.byContradiction fun hreversed => hdifferent (String.le_antisymm hle hreversed)

theorem pairwise_listUnder {entries : Keyed Key Value} (hnodup : (keys entries).Nodup)
    (tenant : String) : (listUnder tenant entries).Pairwise (· < ·) := by
  refine pairwise_sortTexts (List.Pairwise.filterMap _ ?_ hnodup)
  rintro ⟨t, n⟩ ⟨t', n'⟩ hdifferent b hb b' hb' rfl
  simp only [Option.ite_none_right_eq_some, Option.some.injEq] at hb hb'
  exact hdifferent (Prod.ext (hb.1.trans hb'.1.symm) (hb.2.trans hb'.2.symm))

theorem mem_listUnder {entries : Keyed Key Value} {tenant name : String} :
    name ∈ listUnder tenant entries ↔ (tenant, name) ∈ keys entries := by
  simp only [listUnder, sortTexts, List.mem_mergeSort, List.mem_filterMap]
  constructor
  · rintro ⟨⟨t, n⟩, hlisted, hsame⟩
    simp only [Option.ite_none_right_eq_some, Option.some.injEq] at hsame
    obtain ⟨rfl, rfl⟩ := hsame
    exact hlisted
  · exact fun hlisted => ⟨_, hlisted, by simp⟩

/-! ## The store in memory -/

/-- A flow that is there can be read. -/
def Reads (now : String) (m : Memory) (key : Key) : Prop :=
  ∀ doc, document? m.flows key = some doc → ∃ flow, Flow.ofValue now doc = .ok flow

theorem access_loadFlow {tenant name : Value} {events : List Event}
    (hreads : m.Reads now (flowKey tenant name)) :
    access now (.loadFlow tenant name) ⟨m, events⟩ =
      (.ok (m.flow? now (flowKey tenant name)), ⟨m, events⟩) := by
  simp only [access, Run.read_bind, flow?]
  cases hfound : document? m.flows (flowKey tenant name) with
  | none => rfl
  | some doc =>
    obtain ⟨flow, hread⟩ := hreads doc hfound
    simp only [Option.bind_some, hread]
    rfl

/-- The store in memory does what an access does to its contents.  The one failure is a flow that
cannot be read, and it leaves the contents as they are. -/
theorem access_spec (now : String) (htidy : m.Tidy) (a : Access) (events : List Event) :
    access now a ⟨m, events⟩ = (.ok (m.answer now a), ⟨m.after a, events⟩) ∨
      ∃ tenant name f, a = .loadFlow tenant name ∧ ¬ m.Reads now (flowKey tenant name) ∧
        access now a ⟨m, events⟩ = (.error f, ⟨m, events⟩) := by
  cases a with
  | loadFlow tenant name =>
    by_cases hreads : m.Reads now (flowKey tenant name)
    · exact .inl (access_loadFlow hreads)
    · refine .inr ⟨tenant, name, ?_⟩
      simp only [Reads, Classical.not_forall] at hreads
      obtain ⟨doc, hfound, hunreadable⟩ := hreads
      cases hread : Flow.ofValue now doc with
      | ok flow => exact absurd ⟨flow, hread⟩ hunreadable
      | error mismatch =>
        refine ⟨.invalid mismatch, rfl, ?_, ?_⟩
        · intro hreads
          exact hunreadable (hreads doc hfound)
        · simp only [access, Run.read_bind, hfound, hread]
          rfl
  | createFlow tenant flow =>
    refine .inl ?_
    simp only [access, Run.read_bind, answer, after]
    by_cases htaken : m.flows.has (flowKey tenant (.str flow.name)) = true
    · simp [htaken]
    · simp [htaken, withFlow]
  | deleteConversation tenant key =>
    refine .inl ?_
    have hthere : ((m.conversations.get? (tenant, key)).map fun v => !v.isNull).getD false =
        m.conversations.has (tenant, key) := by
      cases hfound : m.conversations.get? (tenant, key) with
      | none => simp [Keyed.has, hfound]
      | some doc =>
        obtain ⟨c, -, rfl⟩ := (htidy.conversations _ (Keyed.mem_of_get?_eq_some hfound)).2
        simp [Keyed.has, hfound, Value.isNull]
    simp [access, answer, after, withoutConversation, hthere]
  | writeFlow | listFlows | locateFlow | fetchConversation | putConversation
  | listConversations => exact .inl rfl

end Memory

end Dialogue.Store

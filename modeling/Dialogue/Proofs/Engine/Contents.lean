import Dialogue.Proofs.Conversation.Same
import Dialogue.Proofs.Engine.Message
import Dialogue.Proofs.Engine.Steady
import Dialogue.Proofs.Store.Ending
import Dialogue.Proofs.Store.Operations

/-!
# A message on contents

On contents, a message reads its flow and its conversation and then puts the conversations that are
told of it (`exists_afterReading_plain`).  These are plain, so what they are stored as can be read
again.

## Main statements

* `safe_handle`: a message keeps an invariant that the conversations keep that are told of it.
* `ends_handle`: a message comes to the outcome that is told of it, with the last of these
  conversations stored, or it fails with one of those before it.
* `comes_handle`: where its accesses are granted, it comes to that outcome and does not fail.
-/

/-! ## Conversations that a message stores, one after the other

Whatever is told of a conversation carries its data and its extras (`Turn.carries_of_told`), so
each conversation that a message stores goes on from the one before it, and the first of them from
the one that was stored (`Conversation.Continues`).  They can therefore be told from what they are
written over (`Inbound.discerns_carryOut`).
-/

namespace Dialogue

open Store

namespace Turn

variable {flow : Flow} {name text now : String} {limit : Nat} {b c : Conversation}
  {outcome : Outcome} {saves : List Conversation}

theorem continues_answered (b : Conversation) (name now text : String) :
    b.Continues (answered text (resumed name now (some b))) := by
  unfold resumed
  dsimp only
  split
  · unfold answered
    cases b.waiting with
    | none => exact ⟨.inr (.inl rfl), .inr rfl⟩
    | some w =>
      by_cases hempty : text = ""
      · simp only [if_pos hempty]
        exact ⟨.inr (.inl rfl), .inr rfl⟩
      · simp only [if_neg hempty]
        exact ⟨.inr (.inr ⟨_, _, rfl⟩), .inr rfl⟩
  · exact ⟨.inl rfl, .inl rfl⟩

theorem continues_of_reference (htold : Reference flow name text now limit (some b) outcome saves) :
    ∀ c ∈ saves, b.Continues c := by
  intro c hlisted
  have hcarries := carries_of_told htold c hlisted
  obtain ⟨hcontinues, hkept⟩ := continues_answered b name now text
  exact ⟨hcarries.data ▸ hcontinues, hcarries.extras ▸ hkept⟩

theorem continues_of_told (htold : Told flow text now limit c outcome saves) :
    ∀ b ∈ saves, ∀ c ∈ saves, b.Continues c := by
  intro b hfirst c' hsecond
  have hone := carries_of_told htold b hfirst
  have hother := carries_of_told htold c' hsecond
  exact ⟨.inr (.inl (hother.data.trans hone.data.symm)),
    .inr (hother.extras.trans hone.extras.symm)⟩

end Turn

theorem Store.discerned_of_continues {b c : Conversation} (hstored : b.IsPlain) (hplain : c.IsPlain)
    (hcontinues : b.Continues c) : Discerned (some (.dict b.document)) (.dict c.document) := by
  rintro _ ⟨⟩ hsame
  rw [hcontinues.eq_of_same hplain.isSound (hstored.ofValue_document "") hsame]

namespace Inbound

variable {clock key : String} {m : Memory} {tenant counterparty : Value}

/-- Effects store what goes on from the conversation that is there, and from each other. -/
theorem discerns_carryOut (hkey : counterpartyKey counterparty = .ok key)
    (effects : List Turn.Effect) (hplain : ∀ c ∈ Turn.saved effects, c.IsPlain)
    (hbetween : ∀ b ∈ Turn.saved effects, ∀ c ∈ Turn.saved effects, b.Continues c)
    (hfirst : ∀ doc, m.conversations.get? (Identifier.safeName tenant, key) = some doc →
      ∃ b : Conversation, b.IsPlain ∧ doc = .dict b.document ∧
        ∀ c ∈ Turn.saved effects, b.Continues c) :
    (carryOut tenant counterparty effects).Discerns clock m := by
  induction effects generalizing m with
  | nil => exact .done
  | cons effect rest ih =>
    cases effect with
    | log e => exact .log (ih hplain hbetween hfirst)
    | save c =>
      rw [carryOut, setConversation_eq hkey]
      rw [Turn.saved_save] at hplain hbetween hfirst
      refine .access ?_ fun _ _ => ih (fun c' hlisted => hplain c' (List.mem_cons_of_mem _ hlisted))
        (fun b hearlier c' hlater => hbetween b (List.mem_cons_of_mem _ hearlier) c'
          (List.mem_cons_of_mem _ hlater)) fun doc hthere => ?_
      · intro doc hthere
        obtain ⟨b, hstored, rfl, hcontinues⟩ := hfirst doc hthere
        exact discerned_of_continues hstored (hplain c List.mem_cons_self)
          (hcontinues c List.mem_cons_self) _ rfl
      · rw [Memory.after, Memory.withConversation, Keyed.get?_set_self] at hthere
        cases hthere
        exact ⟨c, hplain c List.mem_cons_self, rfl,
          fun c' hlater => hbetween c List.mem_cons_self c' (List.mem_cons_of_mem _ hlater)⟩

end Inbound

/-! ## Messages on contents -/

open Program

namespace Store.Memory

variable {now : String} {m : Memory} {key : Key} {c : Conversation}

theorem exists_of_conversation? (htidy : m.Tidy) (hfound : m.conversation? now key = some c) :
    c.IsPlain ∧ (key, .dict c.document) ∈ m.conversations := by
  rw [conversation?, document?_conversations htidy] at hfound
  obtain ⟨doc, hthere, hread⟩ := Option.bind_eq_some_iff.1 hfound
  have hentry := Keyed.mem_of_get?_eq_some hthere
  obtain ⟨-, written, hplain, rfl⟩ := htidy.conversations _ hentry
  rw [hplain.ofValue_document] at hread
  obtain rfl : written = c := by simpa [Except.toOption] using hread
  exact ⟨hplain, hentry⟩

theorem conversation?_of_mem (htidy : m.Tidy) (now : String) (hplain : c.IsPlain)
    (hthere : (key, .dict c.document) ∈ m.conversations) : m.conversation? now key = some c := by
  rw [conversation?, document?_conversations htidy,
    Keyed.get?_eq_some_of_mem htidy.conversationKeys hthere]
  simp [hplain.ofValue_document, Except.toOption]

/-- A flow that is found is granted to whoever loads it. -/
theorem grants_loadFlow {Takes : Access → Prop} {tenant name : Value} {flow : Flow} (htidy : m.Tidy)
    (hfound : m.flow? now (flowKey tenant name) = some flow) :
    m.Grants now Takes (.loadFlow tenant name) := by
  obtain ⟨written, -, hlisted, hread⟩ := exists_of_flow? htidy hfound
  refine ⟨fun doc hthere => ?_, .inl (Keyed.mem_keys_of_mem hlisted)⟩
  rw [document?_flows htidy, Keyed.get?_eq_some_of_mem htidy.flowKeys hlisted] at hthere
  cases hthere
  exact ⟨flow, hread⟩

theorem conversation?_now (htidy : m.Tidy) (now now' : String) (key : Key) :
    m.conversation? now key = m.conversation? now' key := by
  cases hfound : m.conversation? now' key with
  | some c =>
    obtain ⟨hplain, hthere⟩ := m.exists_of_conversation? htidy hfound
    exact conversation?_of_mem htidy now hplain hthere
  | none =>
    refine Option.eq_none_iff_forall_ne_some.2 fun c hother => ?_
    obtain ⟨hplain, hthere⟩ := m.exists_of_conversation? htidy hother
    rw [conversation?_of_mem htidy now' hplain hthere] at hfound
    cases hfound

/-- The contents after conversations were put under a key, one over the other. -/
def withConversations (m : Memory) (key : Key) (cs : List Conversation) : Memory :=
  cs.foldl (fun m c => m.withConversation key (.dict c.document)) m

@[simp] theorem withConversations_cons (m : Memory) (key : Key) (c : Conversation)
    (cs : List Conversation) : m.withConversations key (c :: cs) =
      (m.withConversation key (.dict c.document)).withConversations key cs := rfl

@[simp] theorem flows_withConversations (m : Memory) (key : Key) (cs : List Conversation) :
    (m.withConversations key cs).flows = m.flows := by
  induction cs generalizing m with
  | nil => rfl
  | cons c rest ih => exact ih _

theorem tidy_withConversations (htidy : m.Tidy) (hproper : key.IsOfConversation)
    {cs : List Conversation} (hplain : ∀ c ∈ cs, c.IsPlain) :
    (m.withConversations key cs).Tidy := by
  induction cs generalizing m with
  | nil => exact htidy
  | cons c rest ih =>
    obtain ⟨hfirst, hothers⟩ := List.forall_mem_cons.1 hplain
    exact ih (tidy_withConversation htidy hproper ⟨c, hfirst, rfl⟩) hothers

theorem conversation?_withConversation_self (m : Memory) (now : String) (key : Key)
    (hplain : c.IsPlain) :
    (m.withConversation key (.dict c.document)).conversation? now key = some c := by
  have hnonempty : (Value.dict c.document).isEmpty = false := by
    simpa [Value.isEmpty] using hplain.document_ne_nil
  simp [conversation?, document?, withConversation, Option.filter, hnonempty,
    hplain.ofValue_document, Except.toOption]

/-- Of the conversations that were put, the last one is read. -/
theorem conversation?_withConversations (m : Memory) (now : String) (key : Key)
    {cs : List Conversation} (hplain : ∀ c ∈ cs, c.IsPlain) :
    (m.withConversations key cs).conversation? now key =
      cs.getLast?.or (m.conversation? now key) := by
  induction cs generalizing m with
  | nil => rfl
  | cons c rest ih =>
    obtain ⟨hfirst, hothers⟩ := List.forall_mem_cons.1 hplain
    rw [withConversations_cons, ih _ hothers, conversation?_withConversation_self m now key hfirst]
    cases rest with
    | nil => rfl
    | cons c' rest => simp [List.getLast?_cons]

end Store.Memory

namespace Inbound

open Store

variable {clock : String} {P : Memory → Prop} {m : Memory} {tenant counterparty : Value}
  {text time : Option String} {name : String} {hops : Int}

/-- What effects store keeps an invariant that each of the conversations keeps. -/
theorem safe_carryOut {key : String} (hkey : counterpartyKey counterparty = .ok key)
    (effects : List Turn.Effect) (hinv : P m) (hplain : ∀ c ∈ Turn.saved effects, c.IsPlain)
    (hputs : ∀ c ∈ Turn.saved effects, ∀ m', m'.flows = m.flows → P m' →
      P (m'.withConversation (Identifier.safeName tenant, key) (.dict c.document))) :
    (carryOut tenant counterparty effects).Safe clock P (fun _ _ => True) m := by
  induction effects generalizing m with
  | nil => exact .done trivial
  | cons effect rest ih =>
    cases effect with
    | log e => exact .log (ih hinv hplain hputs)
    | save c =>
      rw [carryOut, setConversation_eq hkey]
      have hstored : Turn.saved (.save c :: rest) = c :: Turn.saved rest := rfl
      rw [hstored] at hplain hputs
      obtain ⟨hfirst, hothers⟩ := List.forall_mem_cons.1 hplain
      have hkept := hputs c List.mem_cons_self m rfl hinv
      have hgoesOn : ∀ c' ∈ Turn.saved rest, ∀ m', m'.flows = m.flows → P m' →
          P (m'.withConversation (Identifier.safeName tenant, key) (.dict c'.document)) :=
        fun c' hlisted => hputs c' (List.mem_cons_of_mem _ hlisted)
      exact .access ⟨isOfConversation_of_counterpartyKey hkey tenant, c, hfirst, rfl⟩
        (fun r _ => rfl) hkept (ih hkept hothers hgoesOn) fun _ => ih hinv hothers hgoesOn

/-- Effects end with what they store, and fail with what was stored before that. -/
theorem ends_carryOut {key : String} (hkey : counterpartyKey counterparty = .ok key)
    (effects : List Turn.Effect) (hplain : ∀ c ∈ Turn.saved effects, c.IsPlain)
    (hkept : ∀ before after, Turn.saved effects = before ++ after → after ≠ [] →
      P (m.withConversations (Identifier.safeName tenant, key) before))
    (hdiscerns : (carryOut tenant counterparty effects).Discerns clock m) :
    (carryOut tenant counterparty effects).Ends clock P
      (fun m' _ => m' = m.withConversations (Identifier.safeName tenant, key)
        (Turn.saved effects)) m := by
  induction effects generalizing m with
  | nil => exact .done rfl
  | cons effect rest ih =>
    cases effect with
    | log e => exact .log (ih hplain hkept hdiscerns.of_log)
    | save c =>
      rw [carryOut, setConversation_eq hkey] at hdiscerns ⊢
      rw [Turn.saved_save] at hplain hkept ⊢
      obtain ⟨hfirst, hothers⟩ := List.forall_mem_cons.1 hplain
      obtain ⟨htold, hgoesOn⟩ := hdiscerns.of_access
      refine .telling (hkept [] _ rfl (List.cons_ne_nil _ _))
        ⟨isOfConversation_of_counterpartyKey hkey tenant, c, hfirst, rfl⟩ (fun r _ => rfl)
        (ih hothers (fun before after hsplit hmore => ?_) (hgoesOn () rfl)) htold
      exact hkept (c :: before) after (by rw [hsplit, List.cons_append]) hmore

/-- What a message does after its reads: it stores what is told of it, and comes to the outcome that
is told. -/
theorem exists_afterReading (hops : Int) (tenant counterparty : Value) (text : Option String)
    (name time : String) (flow : Flow) (stored : Option Conversation) :
    ∃ effects outcome, afterReading hops tenant counterparty text name time flow stored =
        (carryOut tenant counterparty effects).bind (fun _ => .done outcome) ∧
      Turn.Reference flow name (stripped text) time hops.toNat stored outcome
        (Turn.saved effects) ∧
      ∀ c ∈ Turn.saved effects, c.flow = name := by
  let ctx := context hops tenant counterparty text time
  let start := Turn.answered (stripped text) (Turn.resumed name time stored)
  have htaken : Turn.run ctx flow (Turn.resumed name time stored) =
      Turn.walk ctx flow hops.toNat start := by
    rw [Turn.run, record_eq]
    rfl
  obtain ⟨outcome, hfine, htold⟩ := Turn.told_walk (show ctx.now = _ from rfl) flow hops.toNat start
  have hnamed : start.flow = name := Turn.flow_answered_resumed _ _ _ _
  refine ⟨_, outcome, ?_, htold, fun c hlisted =>
    (Turn.carries_of_told htold c hlisted).flow.trans hnamed⟩
  rw [afterReading, htaken, hfine]
  rfl

/-- Where a plain conversation was stored, what a message stores is plain. -/
theorem exists_afterReading_plain (hops : Int) (tenant counterparty : Value) (text : Option String)
    (name time : String) (flow : Flow) {stored : Option Conversation}
    (hplain : ∀ c, stored = some c → c.IsPlain) :
    ∃ effects outcome, afterReading hops tenant counterparty text name time flow stored =
        (carryOut tenant counterparty effects).bind (fun _ => .done outcome) ∧
      Turn.Reference flow name (stripped text) time hops.toNat stored outcome
        (Turn.saved effects) ∧
      ∀ c ∈ Turn.saved effects, c.flow = name ∧ c.IsPlain := by
  obtain ⟨effects, outcome, hdoes, htold, hnamed⟩ :=
    exists_afterReading hops tenant counterparty text name time flow stored
  have hstores := Turn.inherited_isPlain.reference htold hplain
  exact ⟨effects, outcome, hdoes, htold, fun c hlisted => ⟨hnamed c hlisted, hstores c hlisted⟩⟩

/-- What is told of the conversation that is there can be told from it. -/
theorem discerns_of_reference {key : String} {flow : Flow} {said now : String} {limit : Nat}
    {outcome : Outcome} {effects : List Turn.Effect} (htidy : m.Tidy)
    (hkey : counterpartyKey counterparty = .ok key)
    (htold : Turn.Reference flow name said now limit
      (m.conversation? clock (Identifier.safeName tenant, key)) outcome (Turn.saved effects))
    (hplain : ∀ c ∈ Turn.saved effects, c.IsPlain) :
    (carryOut tenant counterparty effects).Discerns clock m := by
  refine discerns_carryOut hkey effects hplain (Turn.continues_of_told htold) fun doc hthere => ?_
  have hlisted := Keyed.mem_of_get?_eq_some hthere
  obtain ⟨-, b, hstored, rfl⟩ := htidy.conversations _ hlisted
  rw [Memory.conversation?_of_mem htidy clock hstored hlisted] at htold
  exact ⟨b, hstored, rfl, Turn.continues_of_reference htold⟩

/-- A message keeps an invariant that the conversations keep that are told of it. -/
theorem safe_handle (hinv : P m) (htidy : ∀ m, P m → m.Tidy)
    (hputs : ∀ {key flow outcome saves}, counterpartyKey counterparty = .ok key →
      m.flow? clock (flowKey tenant (.str name)) = some flow →
      Turn.Reference flow name (stripped text) (timeOf clock time) hops.toNat
        (m.conversation? clock (Identifier.safeName tenant, key)) outcome saves →
      ∀ c ∈ saves, c.flow = name → c.IsPlain → ∀ m', m'.flows = m.flows → P m' →
        P (m'.withConversation (Identifier.safeName tenant, key) (.dict c.document))) :
    (handle clock hops (ofTexts tenant counterparty text name time)).Safe clock P
      (fun _ _ => True) m := by
  rw [handle_eq]
  refine .reading trivial (fun r hsame => by rw [show r = _ from hsame]) hinv ?_ trivial
  simp only [Memory.answer, Memory.after]
  cases hfound : m.flow? clock (flowKey tenant (.str name)) with
  | none => exact .log (.done trivial)
  | some flow =>
    by_cases hempty : flow.steps.isEmpty = true
    · simp only [if_pos hempty]
      exact .log (.done trivial)
    · simp only [if_neg hempty]
      refine (safe_getConversation hinv).bind hinv ?_
      rintro stored m' hinv' ⟨rfl, key, hkey, rfl⟩
      obtain ⟨effects, outcome, hdoes, htold, hstores⟩ :=
        exists_afterReading_plain hops tenant counterparty text name (timeOf clock time) flow
          fun c hread => (m'.exists_of_conversation? (htidy m' hinv) hread).1
      rw [hdoes]
      refine (safe_carryOut hkey effects hinv (fun c hlisted => (hstores c hlisted).2) ?_).bind hinv
        fun _ _ _ _ => .done trivial
      exact fun c hlisted => hputs hkey hfound htold c hlisted (hstores c hlisted).1
        (hstores c hlisted).2

/-- A message comes to the outcome that is told of it, with all the conversations stored that are
told; where it fails, the last of them was not. -/
theorem ends_handle {Q : Memory → Outcome → Prop} (hinv : P m) (htidy : m.Tidy)
    (hmissing : Q m (.notFound name)) (hempty : Q m (.empty name))
    (hkept : ∀ {key flow outcome saves}, counterpartyKey counterparty = .ok key →
      m.flow? clock (flowKey tenant (.str name)) = some flow →
      Turn.Reference flow name (stripped text) (timeOf clock time) hops.toNat
        (m.conversation? clock (Identifier.safeName tenant, key)) outcome saves →
      (∀ c ∈ saves, c.flow = name ∧ c.IsPlain) →
      (∀ before after, saves = before ++ after → after ≠ [] →
        P (m.withConversations (Identifier.safeName tenant, key) before)) ∧
      Q (m.withConversations (Identifier.safeName tenant, key) saves) outcome) :
    (handle clock hops (ofTexts tenant counterparty text name time)).Ends clock P Q m := by
  rw [handle_eq]
  refine .telling hinv trivial (fun r hsame => by rw [show r = _ from hsame]) ?_ trivial
  simp only [Memory.answer, Memory.after]
  cases hfound : m.flow? clock (flowKey tenant (.str name)) with
  | none => exact .log (.done hmissing)
  | some flow =>
    by_cases hnone : flow.steps.isEmpty = true
    · simp only [if_pos hnone]
      exact .log (.done hempty)
    · simp only [if_neg hnone]
      refine ((safe_getConversation hinv).ends hinv).bind ?_
      rintro stored m' ⟨-, rfl, key, hkey, rfl⟩
      obtain ⟨effects, outcome, hdoes, htold, hstores⟩ :=
        exists_afterReading_plain hops tenant counterparty text name (timeOf clock time) flow
          fun c hread => (m'.exists_of_conversation? htidy hread).1
      obtain ⟨hbefore, hafter⟩ := hkept hkey hfound htold hstores
      rw [hdoes]
      have hplain : ∀ c ∈ Turn.saved effects, c.IsPlain := fun c hlisted => (hstores c hlisted).2
      refine (ends_carryOut hkey effects hplain hbefore
        (discerns_of_reference htidy hkey htold hplain)).bind ?_
      rintro _ m'' rfl
      exact .done hafter

/-! ## Messages whose accesses are granted -/

variable {Takes : Access → Prop} {key : String} {flow : Flow}

/-- Effects store all that they are to store. -/
theorem comes_carryOut (hkey : counterpartyKey counterparty = .ok key)
    (htakes : ∀ doc, Takes (.putConversation (Identifier.safeName tenant) key doc))
    (effects : List Turn.Effect) (htidy : m.Tidy) (hplain : ∀ c ∈ Turn.saved effects, c.IsPlain) :
    (carryOut tenant counterparty effects).Comes clock Takes
      (fun m' _ => m' = m.withConversations (Identifier.safeName tenant, key)
        (Turn.saved effects)) m := by
  induction effects generalizing m with
  | nil => exact .done rfl
  | cons effect rest ih =>
    cases effect with
    | log e => exact .log (ih htidy hplain)
    | save c =>
      rw [carryOut, setConversation_eq hkey]
      rw [Turn.saved_save] at hplain ⊢
      obtain ⟨hfirst, hothers⟩ := List.forall_mem_cons.1 hplain
      have hproper := isOfConversation_of_counterpartyKey hkey tenant
      have hdocument : IsConversationDocument (.dict c.document) := ⟨c, hfirst, rfl⟩
      exact .access htidy ⟨hproper, hdocument⟩ (htakes _) (fun r hsame => rfl)
        (ih (Memory.tidy_withConversation htidy hproper hdocument) hothers)

/-- A message to a flow that is found comes to the outcome that is told of it, with the
conversations stored that are told. -/
theorem comes_handle (hkey : counterpartyKey counterparty = .ok key) (htidy : m.Tidy)
    (hfound : m.flow? clock (flowKey tenant (.str name)) = some flow) (hsteps : flow.steps ≠ [])
    (hfetches : Takes (.fetchConversation (Identifier.safeName tenant) key))
    (htakes : ∀ doc, Takes (.putConversation (Identifier.safeName tenant) key doc)) :
    (handle clock hops (ofTexts tenant counterparty text name time)).Comes clock Takes
      (fun m' outcome => ∃ saves,
        Turn.Reference flow name (stripped text) (timeOf clock time) hops.toNat
          (m.conversation? clock (Identifier.safeName tenant, key)) outcome saves ∧
        (∀ c ∈ saves, c.flow = name ∧ c.IsPlain) ∧
        m' = m.withConversations (Identifier.safeName tenant, key) saves) m := by
  have hproper := isOfConversation_of_counterpartyKey hkey tenant
  rw [handle_eq]
  refine .access htidy trivial (m.grants_loadFlow htidy hfound) (fun r hsame => by
    rw [show r = _ from hsame]) ?_
  have hnonempty : ¬ flow.steps.isEmpty = true := by simpa using hsteps
  simp only [Memory.answer, Memory.after, hfound, if_neg hnonempty]
  have hplain : ∀ c, m.conversation? clock (Identifier.safeName tenant, key) = some c →
      c.IsPlain := fun c hread => (m.exists_of_conversation? htidy hread).1
  obtain ⟨effects, outcome, hdoes, htold, hstores⟩ :=
    exists_afterReading_plain hops tenant counterparty text name (timeOf clock time) flow hplain
  have hcarries : (afterReading hops tenant counterparty text name (timeOf clock time) flow
      (m.conversation? clock (Identifier.safeName tenant, key))).Comes clock Takes
        (fun m' outcome => ∃ saves,
          Turn.Reference flow name (stripped text) (timeOf clock time) hops.toNat
            (m.conversation? clock (Identifier.safeName tenant, key)) outcome saves ∧
          (∀ c ∈ saves, c.flow = name ∧ c.IsPlain) ∧
          m' = m.withConversations (Identifier.safeName tenant, key) saves) m := by
    rw [hdoes]
    refine (comes_carryOut hkey htakes effects htidy fun c hlisted => (hstores c hlisted).2).bind ?_
    rintro _ m' rfl
    exact .done ⟨_, htold, hstores, rfl⟩
  obtain ⟨next, hreads, hgoesOn⟩ := exists_getConversation hkey clock tenant m
  rw [hreads]
  refine .access htidy hproper (.inr hfetches) (fun r hsame => by rw [show r = _ from hsame]) ?_
  rcases hgoesOn with hgoesOn | ⟨e, hgoesOn⟩
  · rw [hgoesOn]
    exact hcarries
  · rw [hgoesOn]
    exact .log hcarries

end Inbound

end Dialogue

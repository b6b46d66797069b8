import Dialogue.Engine.Inbound
import Dialogue.Proofs.Engine.Walk
import Dialogue.Proofs.Store.Operations
import Dialogue.Proofs.Store.Trail
import Dialogue.Store.Memory

/-!
# From a turn to a message

`Inbound.handle` loads, takes a turn and carries out its effects.  For a message whose parts are the
texts that they should be, this module takes it apart and puts the reference semantics of a turn in
the place of the walk.

The store is any interpretation of accesses and events; of it nothing is assumed but that it answers
the two reads and takes the conversations of the counterparty (`Takes`).

## Main statements

* `handle_eq`: the reads of a message, and what it does after them.
* `carryOut_spec`: carrying out effects stores and logs them in order.
* `handle_spec`: a message comes to what its turn comes to.
* `handle_refines_reference`: a message comes to what is told of it, and stores the conversations
  that are told of it.
-/

namespace Dialogue.Inbound

open Program

/-- A message whose text, flow and time are texts, as far as they are given. -/
def ofTexts (tenant counterparty : Value) (text : Option String) (name : String)
    (now : Option String) : Inbound :=
  { tenant, counterparty, text := .ofOption text, flow := .str name, now := .ofOption now }

/-- The time of a message: its own, or that of the clock where it has none. -/
def timeOf (clock : String) : Option String → String
  | some now => if now = "" then clock else now
  | none => clock

/-- The text of a message without white space around it. -/
def stripped (text : Option String) : String := Text.strip (text.getD "")

/-- What is fixed for the turn of a message. -/
def context (hops : Int) (tenant counterparty : Value) (text : Option String) (time : String) :
    Turn.Context :=
  { tenant, counterparty := Identifier.redact counterparty, hops, text := stripped text,
    now := .str time }

theorem orElse_clock (clock : String) (now : Option String) :
    (Value.ofOption now).orElse (.str clock) = .str (timeOf clock now) := by
  cases now with
  | none => rfl
  | some t =>
    by_cases hempty : t = "" <;>
      simp [Value.ofOption, Value.orElse, Value.isEmpty, timeOf, hempty]

theorem messageText_ofOption (text : Option String) :
    messageText (.ofOption text) = .ok (stripped text) := by
  cases text with
  | none => rfl
  | some t =>
    by_cases hempty : t = ""
    · subst hempty
      rfl
    · simp [messageText, Value.ofOption, Value.isEmpty, hempty, stripped]

theorem resume_eq (name time : String) (stored : Option Conversation) :
    Turn.resume (.str name) (.str time) stored = .ok (Turn.resumed name time stored) := by
  cases stored with
  | none => rfl
  | some c =>
    have hsameName : (Value.str name == .str c.flow) = decide (c.flow = name) := by
      simp [BEq.beq, Value.eq, eq_comm]
    have hongoing : Turn.ongoing? (.str name) (some c) =
        if c.flow = name ∧ c.isCompleted = false then some c else none := by
      rw [Turn.ongoing?, Option.filter_some, hsameName]
      simp
    by_cases hgoesOn : c.flow = name ∧ c.isCompleted = false
    · rw [if_pos hgoesOn] at hongoing
      simp only [Turn.resume, hongoing, Turn.resumed, if_pos hgoesOn]
      rfl
    · rw [if_neg hgoesOn] at hongoing
      simp only [Turn.resume, hongoing, Turn.resumed, if_neg hgoesOn]
      rfl

theorem record_eq (text : String) (c : Conversation) :
    Turn.record text c = Turn.answered text c := by
  unfold Turn.record Turn.answered
  cases c.waiting with
  | none => rfl
  | some w => by_cases hempty : text = "" <;> simp [hempty]

/-! ## What a message reads -/

variable {σ : Type} {access : (a : Store.Access) → Run σ a.Answer} {log : Event → σ → σ}
  {tenant counterparty : Value} {key name clock : String} {s s₁ s₂ : σ}

variable (access log tenant clock) in
/-- A conversation is fetched once, whatever is found. -/
theorem accesses_getConversation (hkey : Store.counterpartyKey counterparty = .ok key) (s : σ) :
    (Store.getConversation clock tenant counterparty).accesses access log s =
      [.fetchConversation (Identifier.safeName tenant) key] := by
  rw [Store.getConversation_eq hkey, Program.accesses, trail]
  simp only [List.filterMap_cons, Deed.access?, List.cons.injEq, true_and]
  split
  · rename_i found _
    cases found with
    | none => rfl
    | some document =>
      by_cases hempty : document.isEmpty = true
      · simp only [if_pos hempty]
        rfl
      · simp only [if_neg hempty]
        cases Conversation.ofValue clock document <;> rfl
  · rfl

theorem events_getConversation (hkey : Store.counterpartyKey counterparty = .ok key) (s : σ) :
    ∀ e ∈ (Store.getConversation clock tenant counterparty).events access log s,
      e = .conversationUnreadable tenant (Identifier.redact counterparty) := by
  rw [Store.getConversation_eq hkey, Program.events, trail]
  simp only [List.filterMap_cons, Deed.event?]
  intro e he
  split at he
  · rename_i found _
    cases found with
    | none => simp [trail] at he
    | some document =>
      by_cases hempty : document.isEmpty = true
      · simp [if_pos hempty, trail] at he
      · simp only [if_neg hempty] at he
        cases hread : Conversation.ofValue clock document with
        | ok c => simp [hread, trail] at he
        | error _ => simpa [hread, trail, Deed.event?] using he
  · simp at he

/-- What a message does once its flow and its conversation are read. -/
def afterReading (hops : Int) (tenant counterparty : Value) (text : Option String)
    (name time : String) (flow : Flow) (stored : Option Conversation) : Program Outcome :=
  let turn := Turn.run (context hops tenant counterparty text time) flow
    (Turn.resumed name time stored)
  (carryOut tenant counterparty turn.1).bind fun _ => Program.ofExcept .invalid turn.2

/-- A message to a flow with steps reads the flow and the conversation, and then takes its turn. -/
theorem handle_eq (clock : String) (hops : Int) (tenant counterparty : Value)
    (text : Option String) (name : String) (now : Option String) :
    handle clock hops (ofTexts tenant counterparty text name now) =
      .access (.loadFlow tenant (.str name)) fun found =>
        match found with
        | none => .log (.flowNotFound tenant (.str name)) (.done (.notFound name))
        | some flow =>
          if flow.steps.isEmpty then
            .log (.flowEmpty tenant (.str name)) (.done (.empty name))
          else
            (Store.getConversation clock tenant counterparty).bind
              (afterReading hops tenant counterparty text name (timeOf clock now) flow) := by
  show Program.access _ _ = _
  congr 1
  funext found
  cases found with
  | none => rfl
  | some flow =>
    by_cases hempty : flow.steps.isEmpty = true
    · simp only [if_pos hempty]
      show ite _ _ _ = _
      rw [if_pos hempty]
      rfl
    · simp only [if_neg hempty]
      show ite _ _ _ = _
      rw [if_neg hempty]
      simp only [ofTexts, orElse_clock, resume_eq, messageText_ofOption]
      rfl

/-- Running a message whose flow and conversation are found. -/
theorem run_handle {flow : Flow} {stored : Option Conversation} {hops : Int}
    {text now : Option String} (hsteps : flow.steps ≠ [])
    (hloaded : access (.loadFlow tenant (.str name)) s = (.ok (some flow), s₁))
    (hfetched : (Store.getConversation clock tenant counterparty).run access log s₁ =
      (.ok stored, s₂)) :
    (handle clock hops (ofTexts tenant counterparty text name now)).run access log s =
      (afterReading hops tenant counterparty text name (timeOf clock now) flow stored).run
        access log s₂ := by
  have hnonempty : ¬ flow.steps.isEmpty = true := by simpa using hsteps
  rw [handle_eq]
  simp only [Program.run, Run.bind, hloaded, if_neg hnonempty, run_bind_apply, hfetched]

/-- The trail of a message whose flow and conversation are found. -/
theorem trail_handle {flow : Flow} {stored : Option Conversation} {hops : Int}
    {text now : Option String} (hsteps : flow.steps ≠ [])
    (hloaded : access (.loadFlow tenant (.str name)) s = (.ok (some flow), s₁))
    (hfetched : (Store.getConversation clock tenant counterparty).run access log s₁ =
      (.ok stored, s₂)) :
    (handle clock hops (ofTexts tenant counterparty text name now)).trail access log s =
      .asked s (.loadFlow tenant (.str name)) s₁ ::
        ((Store.getConversation clock tenant counterparty).trail access log s₁ ++
          (afterReading hops tenant counterparty text name (timeOf clock now) flow stored).trail
            access log s₂) := by
  have hnonempty : ¬ flow.steps.isEmpty = true := by simpa using hsteps
  rw [handle_eq]
  simp only [trail, hloaded, if_neg hnonempty, trail_bind, hfetched]

/-! ## Carrying out what a turn does -/

/-- From a good state on, a store takes whatever conversation is put under a key and stays good. -/
structure Takes (access : (a : Store.Access) → Run σ a.Answer) (log : Event → σ → σ)
    (tenant key : String) (Good : σ → Prop) : Prop where
  put : ∀ (c : Conversation) (s : σ), Good s →
    ∃ t, access (.putConversation tenant key (.dict c.document)) s = (.ok (), t) ∧ Good t
  log : ∀ (e : Event) (s : σ), Good s → Good (log e s)

/-- The store in memory takes every conversation. -/
theorem takes_memory (now tenant key : String) :
    Takes (Store.Memory.access now) Traced.log tenant key fun _ => True where
  put _ _ _ := ⟨_, rfl, trivial⟩
  log _ _ _ := trivial

variable {Good : σ → Prop}

variable (log) in
/-- Effects are carried out in order: what is to be stored is put, what is to be logged is told. -/
theorem carryOut_spec (hkey : Store.counterpartyKey counterparty = .ok key)
    (htakes : Takes access log (Identifier.safeName tenant) key Good)
    (effects : List Turn.Effect) (s : σ) (hgood : Good s) :
    (∃ t, (carryOut tenant counterparty effects).run access log s = (.ok (), t) ∧ Good t) ∧
      (carryOut tenant counterparty effects).accesses access log s =
        (Turn.saved effects).map (fun c =>
          .putConversation (Identifier.safeName tenant) key (.dict c.document)) ∧
      (carryOut tenant counterparty effects).events access log s = Turn.logged effects := by
  induction effects generalizing s with
  | nil => exact ⟨⟨s, rfl, hgood⟩, rfl, rfl⟩
  | cons effect rest ih =>
    cases effect with
    | log e =>
      obtain ⟨hran, hasked, htold⟩ := ih (log e s) (htakes.log e s hgood)
      refine ⟨hran, hasked, ?_⟩
      simp only [Program.events, carryOut, trail, List.filterMap_cons, Deed.event?, Turn.logged]
        at htold ⊢
      rw [htold]
    | save c =>
      obtain ⟨t, htaken, hkept⟩ := htakes.put c s hgood
      obtain ⟨⟨u, hran, hstill⟩, hasked, htold⟩ := ih t hkept
      refine ⟨⟨u, ?_, hstill⟩, ?_⟩
      · simp only [carryOut, Store.setConversation_eq hkey, Program.bind, Program.run, Run.bind,
          htaken, hran]
      · simp only [Program.accesses, Program.events, carryOut, Store.setConversation_eq hkey,
          Program.bind, trail, htaken, List.filterMap_cons, Deed.access?, Deed.event?, Turn.saved,
          Turn.logged, List.map_cons] at hasked htold ⊢
        exact ⟨by rw [hasked], htold⟩

/-! ## What a message comes to -/

variable (log) in
/-- A message to a flow with steps comes to what its turn comes to; it reads the flow and the
conversation and then stores and logs what the turn does. -/
theorem handle_spec {flow : Flow} {stored : Option Conversation} {hops : Int}
    {text now : Option String} (hkey : Store.counterpartyKey counterparty = .ok key)
    (hsteps : flow.steps ≠ [])
    (hloaded : access (.loadFlow tenant (.str name)) s = (.ok (some flow), s₁))
    (hfetched : (Store.getConversation clock tenant counterparty).run access log s₁ =
      (.ok stored, s₂))
    (htakes : Takes access log (Identifier.safeName tenant) key Good) (hgood : Good s₂)
    {turn : Turn.Result}
    (htaken : Turn.run (context hops tenant counterparty text (timeOf clock now)) flow
      (Turn.resumed name (timeOf clock now) stored) = turn)
    {outcome : Outcome} (hfine : turn.2 = .ok outcome) :
    let message := handle clock hops (ofTexts tenant counterparty text name now)
    (message.run access log s).1 = .ok outcome ∧
      message.accesses access log s =
        .loadFlow tenant (.str name) :: .fetchConversation (Identifier.safeName tenant) key ::
          (Turn.saved turn.1).map (fun c =>
            .putConversation (Identifier.safeName tenant) key (.dict c.document)) ∧
      message.events access log s =
        (Store.getConversation clock tenant counterparty).events access log s₁ ++
          Turn.logged turn.1 := by
  obtain ⟨⟨t, hran, -⟩, hasked, htold⟩ :=
    carryOut_spec log hkey htakes turn.1 s₂ hgood
  have hreads := accesses_getConversation access log tenant clock hkey s₁
  have hsilent : ∀ u,
      (Program.ofExcept (α := Outcome) .invalid turn.2).trail access log u = [] := by
    intro u
    rw [hfine]
    rfl
  intro message
  refine ⟨?_, ?_, ?_⟩
  · rw [run_handle hsteps hloaded hfetched, afterReading, htaken]
    simp only [run_bind_apply, hran, hfine]
    rfl
  · rw [Program.accesses, trail_handle hsteps hloaded hfetched, afterReading, htaken]
    simp only [Program.accesses] at hreads hasked
    simp only [trail_bind, hran, hsilent, List.append_nil, List.filterMap_cons, Deed.access?,
      List.filterMap_append, hreads, hasked, List.singleton_append]
  · rw [Program.events, trail_handle hsteps hloaded hfetched, afterReading, htaken]
    simp only [Program.events] at htold ⊢
    simp only [trail_bind, hran, hsilent, List.append_nil, List.filterMap_cons, Deed.event?,
      List.filterMap_append, htold]

/-- What is told of a conversation went well, or it is the error of the hop limit. -/
theorem isOk_or_hopLimit {flow : Flow} {text now : String} {limit : Nat} {c : Conversation}
    {outcome : Outcome} {saves : List Conversation}
    (htold : Turn.Told flow text now limit c outcome saves) :
    outcome.isOk = true ∧ outcome.reason = none ∨
      outcome.isOk = false ∧ outcome.actionWord = some "error" ∧
        outcome.reason = some "condition_hop_limit" ∧ outcome.message = none := by
  cases htold with
  | limit hpath hspent hcondition => exact .inr ⟨rfl, rfl, rfl, rfl⟩
  | ends hpath hwithin hspoken => exact .inl ⟨rfl, rfl⟩

/-- A message to a flow with steps comes to the one outcome that the reference semantics tells of
the stored conversation.  It reads the flow and the conversation, and then stores the conversations
that are told, in their order. -/
theorem handle_refines_reference {flow : Flow} {stored : Option Conversation} (hops : Int)
    (text : Option String) {now : String} (hkey : Store.counterpartyKey counterparty = .ok key)
    (htimed : now ≠ "") (hsteps : flow.steps ≠ [])
    (hloaded : access (.loadFlow tenant (.str name)) s = (.ok (some flow), s₁))
    (hfetched : (Store.getConversation clock tenant counterparty).run access log s₁ =
      (.ok stored, s₂))
    (htakes : Takes access log (Identifier.safeName tenant) key Good) (hgood : Good s₂) :
    let message := handle clock hops (ofTexts tenant counterparty text name (some now))
    ∃ outcome saves,
      Turn.Reference flow name (stripped text) now hops.toNat stored outcome saves ∧
      (∀ other others,
        Turn.Reference flow name (stripped text) now hops.toNat stored other others →
          other = outcome ∧ others = saves) ∧
      (message.run access log s).1 = .ok outcome ∧
      (outcome.isOk = true ∧ outcome.reason = none ∨
        outcome.isOk = false ∧ outcome.actionWord = some "error" ∧
          outcome.reason = some "condition_hop_limit" ∧ outcome.message = none) ∧
      message.accesses access log s =
        .loadFlow tenant (.str name) :: .fetchConversation (Identifier.safeName tenant) key ::
          saves.map fun c =>
            .putConversation (Identifier.safeName tenant) key (.dict c.document) := by
  have htime : timeOf clock (some now) = now := by simp [timeOf, htimed]
  let ctx := context hops tenant counterparty text now
  let start := Turn.answered (stripped text) (Turn.resumed name now stored)
  have htaken : Turn.run (context hops tenant counterparty text (timeOf clock (some now))) flow
      (Turn.resumed name (timeOf clock (some now)) stored) =
        Turn.walk ctx flow hops.toNat start := by
    rw [htime, Turn.run, record_eq]
    rfl
  obtain ⟨outcome, hfine, htold⟩ := Turn.told_walk (show ctx.now = _ from rfl) flow hops.toNat start
  obtain ⟨hran, hasked, -⟩ := handle_spec log hkey hsteps hloaded hfetched htakes hgood htaken hfine
  refine ⟨outcome, _, htold, fun other others hreference => ?_, hran,
    isOk_or_hopLimit htold, hasked⟩
  obtain ⟨hresult, hstores⟩ := Turn.walk_of_told (show ctx.now = _ from rfl) hreference
  exact ⟨Except.ok.inj (hresult.symm.trans hfine), hstores.symm⟩

/-- A flow of one question. -/
def cityFlow : Flow where
  id := "intake"
  name := "intake"
  createdAt := "t0"
  steps := [.step { id := Step.freshId, action := .question "city" "Where?" }]

/-- A conversation that waits for the answer to the question of `cityFlow`. -/
def cityConversation : Conversation where
  flow := "intake"
  waiting := some ⟨"city", 0⟩
  startedAt := "t0"
  updatedAt := .str "t0"

/-- A store in memory with that flow and that conversation. -/
def cityStore : Traced Store.Memory where
  state :=
    { flows := [(("acme", "intake"), .dict cityFlow.document)]
      conversations := [(("acme", "1555"), .dict cityConversation.document)] }

/-- The answer to the question of `cityFlow` comes to what is told of it. -/
theorem handle_refines_reference_city :
    ∃ outcome saves,
      Turn.Reference cityFlow "intake" "Pune" "t2" 8 (some cityConversation) outcome saves ∧
      ((handle "t1" 8 (ofTexts (.str "Acme") (.str "+1 555") (some " Pune ") "intake"
        (some "t2"))).run (Store.Memory.access "t1") Traced.log cityStore).1 = .ok outcome := by
  have hloaded : Store.Memory.access "t1" (.loadFlow (.str "Acme") (.str "intake")) cityStore =
      (.ok (some cityFlow), cityStore) := rfl
  have hfetched : (Store.getConversation "t1" (.str "Acme") (.str "+1 555")).run
      (Store.Memory.access "t1") Traced.log cityStore = (.ok (some cityConversation), cityStore) :=
    rfl
  have hkey : Store.counterpartyKey (.str "+1 555") = .ok "1555" := rfl
  obtain ⟨outcome, saves, htold, -, hran, -⟩ :=
    handle_refines_reference 8 (some " Pune ") hkey (show "t2" ≠ "" by decide)
      (List.cons_ne_nil _ _) hloaded hfetched
      (takes_memory "t1" "acme" "1555") trivial
  exact ⟨outcome, saves, htold, hran⟩

end Dialogue.Inbound

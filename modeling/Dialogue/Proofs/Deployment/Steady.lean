import Dialogue.Proofs.Deployment.Reading

/-!
# Conversations agree with the flows that are stored

While no flow is saved over another one, every conversation that is stored agrees with the flow that
is stored under the name that the conversation tells (`Store.Memory.Steady`).  Flows may grow in the
meantime: a step that is appended leaves the questions before it where they are
(`Conversation.IsSteady.withStep`).
-/

namespace Dialogue

open Store

theorem Conversation.IsPlain.eq_of_document {c c' : Conversation} (hplain : c.IsPlain)
    (hplain' : c'.IsPlain) (hsame : Value.dict c.document = .dict c'.document) : c = c' := by
  have hread := hplain.ofValue_document ""
  rw [hsame, hplain'.ofValue_document ""] at hread
  exact (Except.ok.inj hread).symm

/-- A question of a flow is still there after a step was appended to the flow. -/
theorem Turn.IsQuestion.withStep {flow again : Flow} {now now' field text : String} {index : Int}
    {step : Value} (hasks : IsQuestion flow index field text)
    (htrimmed : ∀ s, .step s ∈ flow.steps → s.IsTrimmed)
    (hread : Flow.ofValue now' (.dict (withStep now step flow).document) = .ok again) :
    IsQuestion again index field text := by
  obtain ⟨s, hentry, haction⟩ := hasks
  by_cases hnonneg : 0 ≤ index
  · rw [Flow.entry?, if_pos hnonneg] at hentry
    have hstays : (Store.withStep now step flow).steps[index.toNat]? = some (.step s) := by
      show (flow.steps ++ _)[_]? = _
      rw [List.getElem?_append_left (List.getElem?_eq_some_iff.1 hentry).1, hentry]
    obtain ⟨s', hentry', haction'⟩ := Flow.exists_question_of_ofValue_document hread hstays haction
      (htrimmed s (List.mem_of_getElem? hentry))
    refine ⟨s', ?_, haction'⟩
    rw [Flow.entry?, if_pos hnonneg, hentry']
  · rw [Flow.entry?, if_neg hnonneg] at hentry
    cases hentry

/-- A step that is appended to a flow is appended behind the question that is waited for. -/
theorem Conversation.IsSteady.withStep {c : Conversation} {flow again : Flow} {now now' : String}
    {step : Value} (hsteady : c.IsSteady flow)
    (htrimmed : ∀ s, .step s ∈ flow.steps → s.IsTrimmed)
    (hread : Flow.ofValue now' (.dict (withStep now step flow).document) = .ok again) :
    c.IsSteady again where
  index := hsteady.index
  waits w hwaits := by
    obtain ⟨hsame, hwithin, ⟨text, hasks⟩, hgoesOn⟩ := hsteady.waits w hwaits
    have hgrown : again.size = flow.size + 1 := by
      simp [Flow.size, Flow.steps_of_ofValue_document hread, Store.withStep]
    exact ⟨hsame, by omega, ⟨text, hasks.withStep htrimmed hread⟩, hgoesOn⟩
  completes := hsteady.completes
  hands := hsteady.hands
  timed := hsteady.timed

namespace Store.Memory

variable {m : Memory} {now now' clock : String} {key : Key} {flow : Flow} {tenant name : Value}

/-! ## Contents that agree -/

/-- Every flow lies under its own name, and every conversation agrees with the flow that lies under
the name that it tells. -/
structure Steady (m : Memory) : Prop where
  tidy : m.Tidy
  named : m.Named
  agrees : ∀ {key} {c : Conversation}, (key, .dict c.document) ∈ m.conversations → c.IsPlain →
    ∃ flow, (∀ now, m.flow? now (key.1, Identifier.safeName (.str c.flow)) = some flow) ∧
      c.IsSteady flow ∧ c.IsDated

theorem steady_empty : Steady {} where
  tidy := tidy_empty
  named := named_empty
  agrees := by simp

/-- Contents stay steady when a flow is written that agrees with whatever agreed with the one in its
place. -/
theorem Steady.withFlow (hsteady : m.Steady) (clock : String) (tenant : Value)
    (hwellFormed : flow.WellFormed) (hnamed : flow.name ≠ "")
    (hreplaces : ∀ old, m.flow? clock (flowKey tenant (.str flow.name)) = some old →
      ∃ again, Flow.ofValue clock (.dict flow.document) = .ok again ∧
        ∀ c : Conversation, c.IsSteady old → c.IsSteady again) :
    (m.withFlow tenant flow).Steady where
  tidy := tidy_withFlow hsteady.tidy tenant hwellFormed
  named := named_withFlow hsteady.named tenant hnamed
  agrees {key c} hlisted hplain := by
    obtain ⟨old, hthere, hagrees, hdated⟩ := hsteady.agrees hlisted hplain
    by_cases hsame : (key.1, Identifier.safeName (.str c.flow)) = flowKey tenant (.str flow.name)
    · obtain ⟨again, hread, hkeeps⟩ := hreplaces old (hsame ▸ hthere clock)
      refine ⟨again, fun now => ?_, hkeeps c hagrees, hdated⟩
      rw [hsame, flow?_withFlow_self, Flow.ofValue_document_now flow now clock, hread]
      rfl
    · refine ⟨old, fun now => ?_, hagrees, hdated⟩
      rw [flow?_withFlow_of_ne m now hsame, hthere now]

/-- Contents stay steady when a flow is written where none was. -/
theorem Steady.withNewFlow (hsteady : m.Steady) (tenant : Value) (hwellFormed : flow.WellFormed)
    (hnamed : flow.name ≠ "") (habsent : m.flow? clock (flowKey tenant (.str flow.name)) = none) :
    (m.withFlow tenant flow).Steady :=
  hsteady.withFlow clock tenant hwellFormed hnamed fun old hthere => by
    rw [habsent] at hthere
    cases hthere

/-- Contents stay steady when a flow grows. -/
theorem Steady.withStep (hsteady : m.Steady) {step : Value} (hdocument : step.IsDocument)
    (hfound : m.flow? clock (flowKey tenant name) = some flow) :
    (m.withFlow tenant (Store.withStep clock step flow)).Steady := by
  obtain ⟨hnamed, hunder⟩ := hsteady.named hfound
  have hwellFormed : (Store.withStep clock step flow).WellFormed :=
    wellFormed_withStep hdocument (wellFormed_of_flow? hsteady.tidy hfound)
  have hsame : flowKey tenant name = flowKey tenant (.str flow.name) := by
    rw [flowKey, flowKey, show Identifier.safeName name = _ from hunder]
  obtain ⟨written, -, -, hread⟩ := exists_of_flow? hsteady.tidy hfound
  refine hsteady.withFlow clock tenant hwellFormed hnamed fun old hthere => ?_
  obtain rfl : old = flow := by
    rw [show flowKey tenant (.str (Store.withStep clock step flow).name) = _ from hsame.symm,
      hfound] at hthere
    exact (Option.some.inj hthere).symm
  obtain ⟨again, hreadAgain⟩ :=
    Flow.exists_ofValue_document hwellFormed (by simp [Store.withStep]) clock
  exact ⟨again, hreadAgain, fun c hagrees =>
    hagrees.withStep (fun s hlisted => Flow.isTrimmed_of_ofValue_document hread hlisted) hreadAgain⟩

/-- Contents stay steady when a conversation is stored that agrees with its flow. -/
theorem Steady.withConversation (hsteady : m.Steady) (hproper : key.IsOfConversation)
    {c : Conversation} (hplain : c.IsPlain)
    (hfound : m.flow? clock (key.1, Identifier.safeName (.str c.flow)) = some flow)
    (hagrees : c.IsSteady flow) (hdated : c.IsDated) :
    (m.withConversation key (.dict c.document)).Steady where
  tidy := tidy_withConversation hsteady.tidy hproper ⟨c, hplain, rfl⟩
  named hthere := hsteady.named hthere
  agrees {key' c'} hlisted hplain' := by
    rcases Keyed.mem_set hlisted with hsame | hlisted
    · obtain ⟨rfl, hwritten⟩ := Prod.mk.inj hsame
      obtain rfl := hplain'.eq_of_document hplain hwritten
      exact ⟨flow, fun now => (flow?_now hsteady.tidy now clock _).trans hfound, hagrees, hdated⟩
    · exact hsteady.agrees hlisted hplain'

/-- What a message stores agrees with its flow, if contents are steady when the message comes. -/
theorem Steady.of_reference (hsteady : m.Steady) {key : Key} {name text time : String} {limit : Nat}
    {outcome : Outcome} {saves : List Conversation}
    (hfound : m.flow? clock (key.1, Identifier.safeName (.str name)) = some flow)
    (htimed : time ≠ "")
    (htold : Turn.Reference flow name text time limit (m.conversation? clock key) outcome saves) :
    ∀ c ∈ saves, c.IsSteady flow ∧ c.IsDated := by
  refine Turn.isSteady_of_told htold (Turn.Ready.answered (Turn.ready_resumed ?_) text) htimed
  intro c hstored hsameFlow
  obtain ⟨hplain, hlisted⟩ := m.exists_of_conversation? hsteady.tidy hstored
  obtain ⟨flow', hthere, hagrees, hdated⟩ := hsteady.agrees hlisted hplain
  obtain rfl : flow' = flow := by
    rw [← hsameFlow, hthere clock] at hfound
    exact Option.some.inj hfound
  exact ⟨hagrees, hdated⟩

/-- Steady contents are closed under what operations write, when messages have a time. -/
theorem closed_steady (clock : String) :
    Closed clock (· ≠ "") (fun _ => True) Steady where
  tidy _ hsteady := hsteady.tidy
  creates tenant name hsteady preset hmade habsent := by
    obtain ⟨text, rfl, -⟩ := exists_of_ofPresetNamed hmade
    exact hsteady.withNewFlow tenant (wellFormed_ofPresetNamed hmade)
      (Flow.name_make_ne_empty _ _ _)
      (flow?_of_has clock habsent)
  appends tenant name hsteady _ hdocument hfound := hsteady.withStep hdocument hfound
  puts := by
    intro m tenant counterparty name text time limit key flow outcome saves hsteady htimed hkey
      hfound
      htold c hlisted hsameFlow hplain m' hsameFlows hsteady'
    obtain ⟨hagrees, hdated⟩ := hsteady.of_reference hfound htimed htold c hlisted
    have hproper := isOfConversation_of_counterpartyKey hkey tenant
    have hstill : m'.flow? clock (flowKey tenant (.str c.flow)) = some flow := by
      rw [flow?_congr hsameFlows, hsameFlow, hfound]
    exact hsteady'.withConversation hproper hplain hstill hagrees hdated
  removes key hsteady :=
    { tidy := tidy_withoutConversation hsteady.tidy key
      named := hsteady.named
      agrees := fun hlisted => hsteady.agrees (Keyed.mem_of_mem_erase hlisted) }

end Store.Memory

/-- What is saved where no flow is found keeps contents steady. -/
theorem Operation.kept_steady {op : Operation} {clock : String} {m : Memory} (hsteady : m.Steady)
    (hvalid : op.Valid)
    (hspares : ∀ tenant flow, op.Saves clock tenant flow →
      m.flow? clock (flowKey tenant (.str flow.name)) = none) : op.Kept clock Memory.Steady m := by
  intro tenant flow hsaves hnamed
  have habsent := hspares tenant flow hsaves
  rw [habsent]
  exact hsteady.withNewFlow tenant (wellFormed_of_saves hvalid hsaves) hnamed habsent

namespace Deployment

/-! ## Histories that overwrite no flow -/

/-- What can be asked, where no flow is saved over one that is found, and a message has a time. -/
structure Spares (d : Deployment) (clock : String) (op : Operation) : Prop where
  valid : op.Valid
  timed : op.At clock (· ≠ "")
  saves : ∀ tenant flow, op.Saves clock tenant flow → ∀ old,
    (d.call clock (.loadFlow tenant (.str flow.name))).1 ≠ .ok (.found (some old))

/-- A history in which no flow is saved over one that is found. -/
def IsSparing (r : Backend.Request) : List Act → Deployment → Prop
  | [], _ => True
  | .restart :: rest, d => IsSparing r rest (d.again r)
  | .call clock op :: rest, d => d.Spares clock op ∧ IsSparing r rest (d.call clock op).2

/-- The states in the middle of a call, after each of its accesses. -/
def statesOf (clock : String) (op : Operation) (d : Deployment) : List Deployment :=
  ((op.program clock).trail (access d.engine) log { d with clock }).filterMap Program.Deed.after?

/-- The states of a deployment in the course of a history. -/
def states (r : Backend.Request) : List Act → Deployment → List Deployment
  | [], d => [d]
  | .restart :: rest, d => d :: states r rest (d.again r)
  | .call clock op :: rest, d =>
    d :: (d.statesOf clock op ++ states r rest (d.call clock op).2)

theorem after_mem_states_append (r : Backend.Request) (history later : List Act)
    (d : Deployment) : d.after r history ∈ d.states r (history ++ later) := by
  induction history generalizing d with
  | nil =>
    cases later with
    | nil => exact List.mem_singleton_self d
    | cons act rest => cases act <;> exact List.mem_cons_self
  | cons act rest ih =>
    cases act with
    | restart => exact List.mem_cons_of_mem _ (ih _)
    | call clock op => exact List.mem_cons_of_mem _ (List.mem_append_right _ (ih _))

theorem after_mem_states (r : Backend.Request) (history : List Act) (d : Deployment) :
    d.after r history ∈ d.states r history := by
  simpa using after_mem_states_append r history [] d

variable {k : Storage} {r : Backend.Request} {now clock : String} {n : Nat} {d s : Deployment}
  {m : Memory} {op : Operation}

/-- A call that spares flows keeps contents steady at every access. -/
theorem steady_of_call (hserves : k.Serves r now n d m) (hsteady : m.Steady)
    (hspares : d.Spares clock op) :
    (∀ s ∈ d.statesOf clock op, ∃ m', k.Serves r clock n s m' ∧ m'.Steady) ∧
      ∃ m', k.Serves r clock n (d.call clock op).2 m' ∧ m'.Steady := by
  have hsafe : (op.program clock).Safe clock Memory.Steady (fun _ _ => True) m := by
    refine op.safe (Memory.closed_steady clock) hsteady hspares.valid hspares.timed
      (by cases op <;> trivial)
      (Operation.kept_steady hsteady hspares.valid fun tenant flow hsaves => ?_)
    cases hthere : m.flow? clock (flowKey tenant (.str flow.name)) with
    | none => rfl
    | some old =>
      exact absurd (hserves.load_of_flow? hsteady.tidy hthere) (hspares.saves _ _ hsaves old)
  have hkept := (Storage.mirrors k r clock n).shows_trail (fun _ hsteady => hsteady.tidy) _
    (hserves.setClock clock) hsteady hsafe
  rw [← hserves.engine] at hkept
  exact hkept

/-- In every state in the course of a history, contents are steady. -/
theorem steady_of_mem_states {history : List Act} (hserves : k.Serves r now n d m)
    (hsteady : m.Steady) (hsparing : d.IsSparing r history) (hreached : s ∈ d.states r history) :
    ∃ now n m, k.Serves r now n s m ∧ m.Steady := by
  induction history generalizing now n d m with
  | nil =>
    obtain rfl := List.mem_singleton.1 hreached
    exact ⟨now, n, m, hserves, hsteady⟩
  | cons act rest ih =>
    cases act with
    | restart =>
      rcases List.mem_cons.1 hreached with rfl | hlater
      · exact ⟨now, n, m, hserves, hsteady⟩
      · obtain ⟨n', m', hserves', hsame⟩ := hserves.again
        refine ih hserves' ?_ hsparing hlater
        rcases hsame with rfl | rfl
        · exact hsteady
        · exact Memory.steady_empty
    | call clock op =>
      obtain ⟨hspares, hothers⟩ := hsparing
      obtain ⟨hbetween, m', hserves', hsteady'⟩ := steady_of_call hserves hsteady hspares
      rcases List.mem_cons.1 hreached with rfl | hlater
      · exact ⟨now, n, m, hserves, hsteady⟩
      · rcases List.mem_append.1 hlater with hinside | hlater
        · exact ⟨clock, n, hbetween s hinside⟩
        · exact ih hserves' hsteady' hothers hlater

/-- Every conversation that is stored at any time agrees with the flow that is then stored under its
name. -/
theorem isSteady_of_mem_states {history : List Act} (hfresh : k.Fresh r d)
    (hsparing : d.IsSparing r history) (hreached : s ∈ d.states r history)
    {tenant counterparty : Value} {c : Conversation}
    (hstored : (s.call clock (.getConversation tenant counterparty)).1 =
      .ok (.conversation (some c))) :
    ∃ flow, (∀ clock', (s.call clock' (.loadFlow tenant (.str c.flow))).1 =
      .ok (.found (some flow))) ∧ c.IsSteady flow ∧ c.IsDated := by
  obtain ⟨n, hserves⟩ := hfresh.serves
  obtain ⟨_, _, m, hserves, hsteady⟩ :=
    steady_of_mem_states hserves Memory.steady_empty hsparing hreached
  obtain ⟨key, -, hplain, hlisted⟩ := hserves.mem_of_call hsteady.tidy hstored
  obtain ⟨flow, hthere, hagrees, hdated⟩ := hsteady.agrees hlisted hplain
  exact ⟨flow, fun clock' => hserves.load_of_flow? hsteady.tidy (hthere clock'), hagrees, hdated⟩

/-! ### A conversation that was just begun -/

/-- A message without a text. -/
def hello : Operation := .inbound (.str "Acme") (.str "+1 555") none "intake" (some "t2") 8

/-- A flow of one question is saved, and a message comes. -/
def opening : List Act := [.call "t1" (.saveFlow (.str "Acme") Inbound.cityFlow), .call "t2" hello]

/-- A conversation that waits for the answer to the question. -/
def asked : Conversation where
  flow := "intake"
  waiting := some ⟨"city", 0⟩
  startedAt := "t2"
  updatedAt := .str "t2"
  lastInboundAt := .str "t2"

theorem isSparing_opening : (started {}).IsSparing {} opening := by
  refine ⟨⟨valid_cityFlow _, trivial, ?_⟩, ⟨trivial, ?_, fun _ _ hsaves => hsaves.elim⟩, trivial⟩
  · rintro tenant flow ⟨rfl, rfl⟩ old
    have hnothing : ((started {}).call "t1" (.loadFlow (.str "Acme") (.str "intake"))).1 =
        .ok (.found none) := rfl
    simp [show Inbound.cityFlow.name = "intake" from rfl, hnothing]
  · show Inbound.timeOf "t2" (some "t2") ≠ ""
    decide

/-- A call with a message answers its outcome. -/
theorem call_inbound_eq (clock : String) (tenant counterparty : Value) (text : Option String)
    (flow : String) (time : Option String) (hops : Int) (d : Deployment) :
    d.call clock (.inbound tenant counterparty text flow time hops) =
      match (Inbound.handle clock hops (Inbound.ofTexts tenant counterparty text flow time)).run
        (access d.engine) log { d with clock } with
      | (.ok outcome, t) => (.ok (.outcome outcome), t)
      | (.error f, t) => (.error f, t) := by
  rw [call, Deployment.run, Operation.program, Program.run_bind_apply]
  rcases (Inbound.handle clock hops (Inbound.ofTexts tenant counterparty text flow time)).run
    (access d.engine) log { d with clock } with ⟨f | outcome, t⟩ <;> rfl

/-- What a deployment answers to a message once its turn is taken. -/
def carry (tenant counterparty : Value) (turn : Turn.Result) (d : Deployment) :
    Except Failure Operation.Answer × Deployment :=
  match ((Inbound.carryOut tenant counterparty turn.1).bind fun _ =>
      Program.ofExcept .invalid turn.2).run (access d.engine) log d with
  | (.ok outcome, t) => (.ok (.outcome outcome), t)
  | (.error f, t) => (.error f, t)

/-- A call with a message takes a turn once its flow and its conversation are found. -/
theorem call_inbound_of_turn {clock name : String} {tenant counterparty : Value}
    {text time : Option String} {hops : Int} {d : Deployment} {flow : Flow}
    {stored : Option Conversation} {turn : Turn.Result} (hsteps : flow.steps ≠ [])
    (hloaded : access d.engine (.loadFlow tenant (.str name)) { d with clock } =
      (.ok (some flow), { d with clock }))
    (hfetched : (Store.getConversation clock tenant counterparty).run (access d.engine) log
      { d with clock } = (.ok stored, { d with clock }))
    (htaken : Turn.run (Inbound.context hops tenant counterparty text (Inbound.timeOf clock time))
      flow (Turn.resumed name (Inbound.timeOf clock time) stored) = turn) :
    d.call clock (.inbound tenant counterparty text name time hops) =
      carry tenant counterparty turn { d with clock } := by
  rw [call_inbound_eq, Inbound.run_handle hsteps hloaded hfetched, Inbound.afterReading, htaken]
  rfl

/-- The turn that asks the question. -/
def askingTurn : Turn.Result :=
  Turn.speak (Inbound.context 8 (.str "Acme") (.str "+1 555") none "t2") Inbound.cityFlow
    (Turn.resumed "intake" "t2" none) (.question "city" "Where?")

/-- A deployment in which the flow was saved. -/
def begun : Deployment := ((started {}).call "t1" (.saveFlow (.str "Acme") Inbound.cityFlow)).2

theorem call_hello : begun.call "t2" hello =
    carry (.str "Acme") (.str "+1 555") askingTurn { begun with clock := "t2" } := by
  have hnonempty : Inbound.cityFlow.steps ≠ [] := List.cons_ne_nil _ _
  refine call_inbound_of_turn hnonempty rfl rfl ?_
  rw [Turn.run, Turn.walk]
  rfl

theorem after_opening : (started {}).after {} opening =
    (carry (.str "Acme") (.str "+1 555") askingTurn { begun with clock := "t2" }).2 :=
  congrArg Prod.snd call_hello

theorem stored_opening :
    (((started {}).after {} opening).call "t3"
      (.getConversation (.str "Acme") (.str "+1 555"))).1 = .ok (.conversation (some asked)) := by
  rw [after_opening]
  rfl

/-- A conversation that was just begun agrees with the flow that was saved before. -/
theorem isSteady_of_mem_states_opening :
    ∃ flow, (∀ clock, (((started {}).after {} opening).call clock
      (.loadFlow (.str "Acme") (.str asked.flow))).1 = .ok (.found (some flow))) ∧
      asked.IsSteady flow ∧ asked.IsDated :=
  isSteady_of_mem_states fresh_started isSparing_opening (after_mem_states {} opening _)
    stored_opening

end Deployment

end Dialogue

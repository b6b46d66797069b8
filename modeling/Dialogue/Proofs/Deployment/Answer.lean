import Dialogue.Proofs.Deployment.Exchange

/-!
# Answers are recorded for the question put last

Whenever a message sets a field of what is collected, the question that was put last is about that
field (`Deployment.askedLast_of_sets`).  Between the question and the answer nothing is said, as
long as the flow is not saved anew.  After that, messages without text may be replied to, so it need
not be the question that was said last (`Deployment.not_asksLast`).
-/

namespace Dialogue

open Store

variable {tenant counterparty : Value} {name field : String} {text time : Option String}

/-- The last thing that was said is a question about a field. -/
def AsksLast (field : String) (past : List Exchange) : Prop :=
  ∃ earlier ask later, past = earlier ++ ask :: later ∧ ask.Asks field ∧
    ∀ e ∈ later, e.message = none

namespace Storage

variable {k : Storage} {r : Backend.Request} {now clock : String} {n : Nat} {d : Deployment}
  {m : Memory} {hops : Int} {outcome : Outcome}

/-- A message that a deployment answers with a conversation comes to what is told of the one that
was stored. -/
theorem Serves.exists_told (hserves : k.Serves r now n d m) (htidy : m.Tidy)
    (hcame : (d.call clock (.inbound tenant counterparty text name time hops)).1 =
      .ok (.outcome outcome)) :
    outcome.state = none ∨ ∃ number flow saves, counterpartyKey counterparty = .ok number ∧
      Turn.Reference flow name (Inbound.stripped text) (Inbound.timeOf clock time) hops.toNat
        (m.conversation? clock (Identifier.safeName tenant, number)) outcome saves := by
  let Comes (o : Outcome) : Prop := o.state = none ∨ ∃ number flow saves,
    counterpartyKey counterparty = .ok number ∧
      Turn.Reference flow name (Inbound.stripped text) (Inbound.timeOf clock time) hops.toNat
        (m.conversation? clock (Identifier.safeName tenant, number)) o saves
  have handled : (Inbound.handle clock hops
      (Inbound.ofTexts tenant counterparty text name time)).Ends clock Memory.Tidy
        (fun _ o => Comes o) m := by
    refine Inbound.ends_handle htidy htidy (.inl rfl) (.inl rfl) ?_
    intro key flow o saves hkey _ htold hstores
    refine ⟨fun before after hsplit _ => ?_, .inr ⟨key, flow, saves, hkey, htold⟩⟩
    exact Memory.tidy_withConversations htidy (isOfConversation_of_counterpartyKey hkey tenant)
      fun c hlisted => (hstores c (hsplit ▸ List.mem_append_left _ hlisted)).2
  have hends : ((Operation.inbound tenant counterparty text name time hops).program clock).Ends
      clock Memory.Tidy (fun _ a => ∀ o, a = .outcome o → Comes o) m := by
    refine handled.bind fun o _ hcomes => .done ?_
    rintro _ ⟨⟩
    exact hcomes
  rcases hserves.ends (fun _ htidy => htidy) hends with
    ⟨a, _, hanswered, -, hcomes⟩ | ⟨f, _, hfailed, -, -⟩
  · exact hcomes outcome (Except.ok.inj (hanswered.symm.trans hcame))
  · rw [hfailed] at hcame
    cases hcame

end Storage

namespace Deployment

variable {k : Storage} {r : Backend.Request} {now clock clock' : String} {n : Nat} {d : Deployment}
  {m : Memory} {history : List Act} {stored : Option Conversation} {outcome : Outcome} {hops : Int}

/-- In a run that starts without a conversation, a message sets a field only if the question put
last is about the field.  What was said after it are replies to messages without text, and these
only after the flow was saved anew. -/
theorem askedLast_of_sets (hserves : k.Serves r now n d m) (htidy : m.Tidy)
    (habsent : ∀ number, counterpartyKey counterparty = .ok number →
      (Identifier.safeName tenant, number) ∉ Keyed.keys m.conversations)
    (hrun : IsRunWith tenant counterparty name history)
    (hfound : ((d.after r history).call clock (.getConversation tenant counterparty)).1 =
      .ok (.conversation stored))
    (hcame : ((d.after r history).call clock'
      (.inbound tenant counterparty text name time hops)).1 = .ok (.outcome outcome))
    (hsets : Turn.Sets name (Inbound.stripped text) stored outcome field) :
    AskedLast tenant name field (d.exchanges r history) := by
  obtain ⟨number, hkey⟩ := Storage.exists_counterpartyKey_of_call hfound
  obtain ⟨_, _, m', hserves', hrecalls⟩ :=
    hserves.recalls_after (Memory.recalls_of_notMem htidy (habsent number hkey)) hkey hrun
  rw [List.nil_append] at hrecalls
  obtain ⟨number', hkey', hthere⟩ := hserves'.conversation_eq hrecalls.tidy hfound
  obtain rfl : number = number' := Except.ok.inj (hkey.symm.trans hkey')
  obtain ⟨after, hstate, -⟩ := id hsets
  rcases hserves'.exists_told hrecalls.tidy hcame with hnothing |
    ⟨number', flow, saves, hkey', htold⟩
  · rw [hnothing] at hstate
    cases hstate
  · obtain rfl : number = number' := Except.ok.inj (hkey.symm.trans hkey')
    rw [hthere clock'] at htold
    obtain ⟨⟨c, rfl, hgoesOn, w, hwaits, rfl⟩, -⟩ := (Turn.sets_iff htold).1 hsets
    exact (hrecalls.pends (hthere clock) hgoesOn hwaits).askedLast

/-! ### A flow that is saved anew while a question waits -/

/-- A flow of one reply, under the name of the flow that asks for a city. -/
def welcomeFlow : Flow where
  id := "intake"
  name := "intake"
  createdAt := "t0"
  steps := [.step { id := Step.freshId, action := .reply "Welcome" }]

/-- The flow as it is found after it was saved over the other one. -/
def savedFlow : Flow := { welcomeFlow with version := 2, updatedAt := some "t3" }

/-- A message without a text. -/
def nudge : Operation := .inbound (.str "Acme") (.str "+1 555") none "intake" (some "t4") 8

/-- The name of a city. -/
def cityName : Operation :=
  .inbound (.str "Acme") (.str "+1 555") (some "Pune") "intake" (some "t5") 8

/-- The question is asked, and the flow is saved anew. -/
def editing : List Act := opening ++ [.call "t3" (.saveFlow (.str "Acme") welcomeFlow)]

/-- After that a message comes without a text. -/
def nudging : List Act := editing ++ [.call "t4" nudge]

/-- The conversation after that still waits for the answer to the question. -/
def nudged : Conversation :=
  { asked with stepIndex := 1, updatedAt := .str "t4", lastInboundAt := .str "t4" }

/-- The conversation after the city was named. -/
def answeredCity : Conversation where
  flow := "intake"
  stepIndex := 1
  data := [("city", .str "Pune")]
  startedAt := "t2"
  updatedAt := .str "t5"
  lastInboundAt := .str "t5"

/-- The turn that replies. -/
def replyingTurn : Turn.Result :=
  Turn.speak (Inbound.context 8 (.str "Acme") (.str "+1 555") none "t4") savedFlow
    { nudged with stepIndex := 0 } (.reply "Welcome")

theorem call_nudge : ((started {}).after {} editing).call "t4" nudge =
    carry (.str "Acme") (.str "+1 555") replyingTurn
      { (started {}).after {} editing with clock := "t4" } := by
  have hnonempty : savedFlow.steps ≠ [] := List.cons_ne_nil _ _
  rw [editing, after_concat, after_opening]
  refine call_inbound_of_turn hnonempty rfl rfl ?_
  rw [Turn.run, Turn.walk]
  rfl

theorem after_nudging : (started {}).after {} nudging =
    (carry (.str "Acme") (.str "+1 555") replyingTurn
      { (started {}).after {} editing with clock := "t4" }).2 := by
  rw [nudging, after_concat, call_nudge]

theorem answer_nudge : (((started {}).after {} editing).call "t4" nudge).1 =
    .ok (.outcome (.acted .reply (some "Welcome") nudged)) := by
  have htext : Template.render "Welcome" [] = "Welcome" := by cbv
  rw [call_nudge, editing, after_concat, after_opening, ← htext]
  rfl

theorem stored_nudging :
    (((started {}).after {} nudging).call "t5" (.getConversation (.str "Acme") (.str "+1 555"))).1 =
      .ok (.conversation (some nudged)) := by
  rw [after_nudging, editing, after_concat, after_opening]
  rfl

theorem answer_cityName : (((started {}).after {} nudging).call "t5" cityName).1 =
    .ok (.outcome (.acted .noop none answeredCity)) := by
  have hnonempty : savedFlow.steps ≠ [] := List.cons_ne_nil _ _
  let ctx := Inbound.context 8 (.str "Acme") (.str "+1 555") (some "Pune") "t5"
  have htaken : Turn.run ctx savedFlow (Turn.resumed "intake" "t5" (some nudged)) =
      Turn.emit ctx answeredCity .noop none := by
    have hrecorded : Turn.record ctx.text (Turn.resumed "intake" "t5" (some nudged)) =
        answeredCity := rfl
    rw [Turn.run, hrecorded, Turn.walk]
    rfl
  have hcame : ((started {}).after {} nudging).call "t5" cityName = carry (.str "Acme")
      (.str "+1 555") (Turn.emit ctx answeredCity .noop none)
        { (started {}).after {} nudging with clock := "t5" } := by
    rw [after_nudging, editing, after_concat, after_opening]
    exact call_inbound_of_turn hnonempty rfl rfl htaken
  rw [hcame, after_nudging, editing, after_concat, after_opening]
  rfl

theorem sets_cityName : Turn.Sets "intake" (Inbound.stripped (some "Pune")) (some nudged)
    (.acted .noop none answeredCity) "city" := by
  have hnothing : (Turn.collected "intake" (some nudged)).get? "city" = none := rfl
  exact ⟨answeredCity, rfl, rfl, .inl (by simp [hnothing])⟩

theorem valid_welcomeFlow (tenant : Value) : (Operation.saveFlow tenant welcomeFlow).Valid := by
  have hwellFormed : welcomeFlow.WellFormed :=
    ⟨by decide, Schema.isRest_nil _, List.forall_mem_singleton.2 (Schema.isRest_nil _)⟩
  have hsame : Flow.ofValue "t0" (.dict welcomeFlow.document) = .ok welcomeFlow := rfl
  exact valid_saveFlow tenant hwellFormed hsame

theorem isRunWith_nudging : IsRunWith (.str "Acme") (.str "+1 555") "intake" nudging := by
  intro clock op hlisted
  simp only [nudging, editing, opening, List.cons_append, List.nil_append, List.mem_cons,
    Act.call.injEq, List.not_mem_nil, or_false] at hlisted
  rcases hlisted with ⟨rfl, rfl⟩ | ⟨rfl, rfl⟩ | ⟨rfl, rfl⟩ | ⟨rfl, rfl⟩
  · exact ⟨valid_cityFlow _, trivial⟩
  · exact ⟨trivial, rfl, rfl, rfl, by decide⟩
  · exact ⟨valid_welcomeFlow _, trivial⟩
  · exact ⟨trivial, rfl, rfl, rfl, by decide⟩

/-- The city was asked for, though a reply was said last. -/
theorem askedLast_of_sets_nudging :
    AskedLast (.str "Acme") "intake" "city" ((started {}).exchanges {} nudging) := by
  obtain ⟨n, hserves⟩ := fresh_started.serves
  exact askedLast_of_sets hserves Memory.tidy_empty (fun _ _ => List.not_mem_nil) isRunWith_nudging
    stored_nudging answer_cityName sets_cityName

/-- The question that an answer is recorded for need not be what was said last: the flow was saved
anew while the question waited, and a message without a text was replied to. -/
theorem not_asksLast :
    ¬ ∀ (k : Storage) (r : Backend.Request) (now : String) (n : Nat) (d : Deployment) (m : Memory)
      (tenant counterparty : Value) (name : String) (history : List Act) (clock clock' : String)
      (text time : Option String) (hops : Int) (stored : Option Conversation) (outcome : Outcome)
      (field : String),
      k.Serves r now n d m → m.Tidy →
      (∀ number, counterpartyKey counterparty = .ok number →
        (Identifier.safeName tenant, number) ∉ Keyed.keys m.conversations) →
      IsRunWith tenant counterparty name history →
      ((d.after r history).call clock (.getConversation tenant counterparty)).1 =
        .ok (.conversation stored) →
      ((d.after r history).call clock'
        (.inbound tenant counterparty text name time hops)).1 = .ok (.outcome outcome) →
      Turn.Sets name (Inbound.stripped text) stored outcome field →
        AsksLast field (d.exchanges r history) := by
  intro halways
  obtain ⟨n, hserves⟩ := fresh_started.serves
  obtain ⟨earlier, ask, later, hsplit, ⟨message, c, hasked, -⟩, hsilent⟩ :=
    halways _ _ _ _ _ _ _ _ _ _ _ _ _ _ _ _ _ _ hserves Memory.tidy_empty
      (fun _ _ => List.not_mem_nil) isRunWith_nudging stored_nudging answer_cityName sets_cityName
  rw [nudging, exchanges_concat, answer_nudge] at hsplit
  rcases List.eq_nil_or_concat later with rfl | ⟨init, last, rfl⟩
  · -- the reply would be the question
    obtain ⟨-, hsame⟩ := List.append_inj' hsplit rfl
    rw [← (List.cons.inj hsame).1] at hasked
    cases hasked
  · -- the reply comes after the question, but it is not silent
    rw [List.concat_eq_append] at hsplit hsilent
    have hinner := hsplit.trans (List.append_assoc earlier (ask :: init) [last]).symm
    obtain ⟨-, hsame⟩ := List.append_inj' hinner rfl
    have hnothing := hsilent last (List.mem_append_right _ List.mem_cons_self)
    rw [← (List.cons.inj hsame).1] at hnothing
    cases hnothing

end Deployment

end Dialogue

import Dialogue.Proofs.Deployment.Holding
import Dialogue.Proofs.Engine.Rest
import Mathlib.Data.List.TakeWhile

/-!
# Idle messages

A counterparty without a conversation sends messages to one flow, and one of them is asked a
question.  Every message without a text that follows, one or many, is asked the same question, alone
and in the same words, even if a greeting came with it the first time.  If instead nothing was done,
nothing is done about any message that follows.  Of the conversation that is stored only the times
change (`Deployment.idles_after_messages`).

A run keeps the conversation of which it is told, and this one is at its question
(`Storage.Holds.after_messages`); from there idle messages leave it where it is
(`Storage.Holds.idles`).
-/

namespace Dialogue

open Store

/-- A message of a counterparty, with or without a text: the time of the clock, the text, the time
that the message brings, and the number of conditions that may pass. -/
structure Message where
  clock : String
  text : Option String
  time : Option String := none
  hops : Int := 8

namespace Message

variable {m : Message}

/-- The message to a flow as an operation. -/
def op (tenant counterparty : Value) (name : String) (m : Message) : Operation :=
  .inbound tenant counterparty m.text name m.time m.hops

/-- The call for the message. -/
def act (tenant counterparty : Value) (name : String) (m : Message) : Act :=
  .call m.clock (m.op tenant counterparty name)

/-- The text of the message as it is heard, without white space around it. -/
def heard (m : Message) : String := Inbound.stripped m.text

/-- The time of the message. -/
def moment (m : Message) : String := Inbound.timeOf m.clock m.time

/-- The message has no text, or one of white space. -/
def IsBlank (m : Message) : Prop := ∀ text, m.text = some text → Text.isBlankText text = true

theorem IsBlank.heard (hblank : m.IsBlank) : m.heard = "" := by
  rw [Message.heard, Inbound.stripped]
  cases htext : m.text with
  | none => rfl
  | some t =>
    have hall := List.all_eq_true.1 (hblank t htext)
    rw [Option.getD_some, Text.strip, Text.stripChars, Text.trimChars,
      List.dropWhile_eq_nil_iff.2 hall]
    rfl

end Message

/-- The conversation after messages that change its times only. -/
def Conversation.touchedBy (messages : List Message) (c : Conversation) : Conversation :=
  messages.foldl (fun c m => c.touched m.moment) c

/-- Messages are all answered with one action and one text, and of the conversation that is stored
they change the times only. -/
structure Deployment.Idles (d : Deployment) (r : Backend.Request) (tenant counterparty : Value)
    (name : String) (action : TurnAction) (message : Option String) (c : Conversation)
    (messages : List Message) : Prop where
  answers : d.answers r (messages.map (Message.act tenant counterparty name)) =
    messages.map fun m => .ok (.outcome (.acted action message (c.touched m.moment)))
  stored : ∀ clock, ((d.after r (messages.map (Message.act tenant counterparty name))).call clock
    (.getConversation tenant counterparty)).1 = .ok (.conversation (some (c.touchedBy messages)))

namespace Storage

variable {k : Storage} {r : Backend.Request} {n : Nat} {d : Deployment}
  {tenant counterparty doc : Value} {found : Option Value} {name key clock : String} {flow : Flow}
  {stored : Option Conversation} {c : Conversation} {m : Message}

section

variable (holds : k.Holds n tenant (.str name) key doc found d) (hwrites : k.Writes tenant)
  (hread : Flow.ofValue clock doc = .ok flow) (hkey : counterpartyKey counterparty = .ok key)

include holds hwrites hread hkey

/-- A message comes to what is told of the conversation that is kept, and the last one that is told
is kept afterwards; a flow without steps tells nothing. -/
theorem Holds.call_message (hkept : Conversation.Kept found stored) (m : Message) :
    ∃ outcome found' stored',
      (d.call m.clock (m.op tenant counterparty name)).1 = .ok (.outcome outcome) ∧
      k.Holds n tenant (.str name) key doc found'
        (d.call m.clock (m.op tenant counterparty name)).2 ∧
      Conversation.Kept found' stored' ∧
      (flow.steps = [] ∧ outcome = .empty name ∧ stored' = stored ∨
        flow.steps ≠ [] ∧ ∃ saves, Turn.Reference flow name m.heard m.moment m.hops.toNat stored
          outcome saves ∧ stored' = saves.getLast?.or stored) := by
  obtain ⟨flow', hread', hsame⟩ := Flow.exists_ofValue_now hread m.clock
  obtain ⟨outcome, found', stored', t, hran, ⟨-, hafter⟩, hkept', htold⟩ :=
    (holding k n key hwrites hread').handle_kept hkey ⟨rfl, holds.setClock m.clock⟩ hkept m.clock
      m.hops m.text m.time
  rw [← holds.engine] at hran
  rw [Message.op, Deployment.call_inbound_eq, hran]
  rw [hsame] at htold
  refine ⟨outcome, found', stored', rfl, hafter, hkept', htold.imp_right ?_⟩
  rintro ⟨hsteps, saves, htold, hlast⟩
  exact ⟨hsteps, saves, htold.of_steps hsame.symm, hlast⟩

/-- A run of messages keeps the conversation, and a question that waits in it stands at its step. -/
theorem Holds.after_messages (hkept : Conversation.Kept found stored)
    (hatQuestion : ∀ c, stored = some c → c.IsAtQuestion flow) (messages : List Message) :
    ∃ found' stored', k.Holds n tenant (.str name) key doc found'
        (d.after r (messages.map (Message.act tenant counterparty name))) ∧
      Conversation.Kept found' stored' ∧ ∀ c, stored' = some c → c.IsAtQuestion flow := by
  induction messages generalizing d found stored with
  | nil => exact ⟨found, stored, holds, hkept, hatQuestion⟩
  | cons m rest ih =>
    obtain ⟨outcome, found', stored', -, holds', hkept', ⟨-, -, rfl⟩ | ⟨-, saves, htold, rfl⟩⟩ :=
      holds.call_message hwrites hread hkey hkept m
    · exact ih holds' hkept' hatQuestion
    · refine ih holds' hkept' fun c hlast => ?_
      have hstands := Turn.isAtQuestion_of_told
        (Turn.isAtQuestion_answered_resumed hatQuestion) htold
      rcases Option.or_eq_some_iff.1 hlast with hlast | ⟨-, hlast⟩
      · exact hstands c (List.mem_of_getLast? hlast)
      · exact hatQuestion c hlast

/-- Messages that leave a conversation at rest are idle. -/
theorem Holds.idles {Idle : String → Prop} {action : TurnAction} {message : Option String}
    (hkept : Conversation.Kept found (some c)) (hgoesOn : Turn.GoesOn name c)
    (hrests : Turn.Rests flow c Idle action message) (hsteps : flow.steps ≠ [])
    {messages : List Message} (hidle : ∀ m ∈ messages, Idle m.heard) :
    d.Idles r tenant counterparty name action message c messages := by
  induction messages generalizing d found c with
  | nil =>
    refine ⟨rfl, fun clock' => ?_⟩
    exact (holds.call_getConversation hkey clock').trans (by rw [hkept.reads]; rfl)
  | cons m rest ih =>
    obtain ⟨hfirst, hothers⟩ := List.forall_mem_cons.1 hidle
    obtain ⟨outcome, found', stored', hanswered, holds', hkept',
      ⟨hstepless, -⟩ | ⟨-, saves, htold, rfl⟩⟩ := holds.call_message hwrites hread hkey hkept m
    · exact absurd hstepless hsteps
    · obtain ⟨rfl, rfl⟩ := hrests.told hgoesOn hfirst htold
      have hafter := ih holds' hkept' hgoesOn (hrests.touched m.moment) hothers
      refine ⟨?_, hafter.stored⟩
      rw [List.map_cons, List.map_cons, Message.act, Deployment.answers, hanswered, hafter.answers]
      rfl

omit hwrites in
/-- Where a message of a run does something, conversations are written. -/
theorem Holds.writes_of_acted {action : TurnAction} {message : Option String}
    (messages : List Message)
    (hanswered : ((d.after r (messages.map (Message.act tenant counterparty name))).call m.clock
      (m.op tenant counterparty name)).1 = .ok (.outcome (.acted action message c))) :
    k.Writes tenant := by
  by_contra hrefuses
  induction messages generalizing d with
  | nil =>
    have hsteps : flow.steps ≠ [] := fun hstepless => by
      cases (holds.call_inbound_stepless hread hstepless m.text m.time m.hops).1.symm.trans
        hanswered
    have htold := (holds.call_inbound_refused hrefuses hread hsteps hkey _ _ _).2 _ hanswered
    cases Turn.getLast?_of_told htold
  | cons m' rest ih =>
    by_cases hstepless : flow.steps = []
    · exact ih (holds.call_inbound_stepless hread hstepless m'.text m'.time m'.hops).2 hanswered
    · exact ih (holds.call_inbound_refused hrefuses hread hstepless hkey m'.text m'.time m'.hops).1
        hanswered

end

end Storage

namespace Deployment

open Storage

variable {k : Storage} {r : Backend.Request} {n : Nat} {d : Deployment}
  {tenant counterparty : Value} {name key clock : String} {flow : Flow} {c : Conversation}
  {action : TurnAction} {message : Option String}

/-- After a message that was asked a question, every message without a text is asked the same
question; after a message about which nothing was done, nothing is done about any message. -/
theorem idles_after_messages (hkeeps : k.Keeps n d)
    (hloaded : (d.call clock (.loadFlow tenant (.str name))).1 = .ok (.found (some flow)))
    (hkey : counterpartyKey counterparty = .ok key)
    (hnobody : (access d.engine (.fetchConversation (Identifier.safeName tenant) key) d).1 =
      .ok none)
    {messages : List Message} {m : Message}
    (hanswered : ((d.after r (messages.map (Message.act tenant counterparty name))).call m.clock
      (m.op tenant counterparty name)).1 = .ok (.outcome (.acted action message c))) :
    let after := ((d.after r (messages.map (Message.act tenant counterparty name))).call m.clock
      (m.op tenant counterparty name)).2
    (action = .ask → ∃ field question, c.waiting = some ⟨field, c.stepIndex⟩ ∧
      Turn.IsQuestion flow c.stepIndex field question ∧
      ∀ blanks : List Message, (∀ b ∈ blanks, b.IsBlank) →
        after.Idles r tenant counterparty name .ask (some (Template.render question c.data)) c
          blanks) ∧
    (action = .noop → message = none ∧
      ∀ others : List Message, after.Idles r tenant counterparty name .noop none c others) := by
  have hengine := engine_of_keeps hkeeps
  have hnobody' : (d.call d.clock (.getConversation tenant counterparty)).1 =
      .ok (.conversation none) := by
    rw [call_getConversation_eq hkey]
    exact congrArg (Except.map _) hnobody
  obtain ⟨doc, found, holds, hread, -⟩ := hkeeps.exists_holds hkey hloaded hnobody'
  obtain rfl : found = none := by
    rw [hengine] at hnobody
    exact Except.ok.inj (holds.fetch.1.symm.trans hnobody)
  have hwrites := holds.writes_of_acted hread hkey messages hanswered
  obtain ⟨found₁, stored, holds₁, hkept, hatQuestion⟩ :=
    holds.after_messages (r := r) hwrites hread hkey Conversation.kept_none (by simp) messages
  obtain ⟨outcome, found₂, stored', hanswered', holds₂, hkept', htold⟩ :=
    holds₁.call_message hwrites hread hkey hkept m
  obtain rfl : outcome = .acted action message c := by
    simpa using hanswered'.symm.trans hanswered
  rcases htold with ⟨-, hempty, -⟩ | ⟨hsteps, saves, htold, rfl⟩
  · cases hempty
  rw [Turn.getLast?_of_told htold, Option.some_or] at hkept'
  have hgoesOn := Turn.goesOn_of_told (Turn.goesOn_answered_resumed _ _ _ _) htold
  obtain ⟨hasked, hpassed⟩ :=
    Turn.rests_of_told (Turn.isAtQuestion_answered_resumed hatQuestion) htold
  refine ⟨fun hask => ?_, fun hnoop => ?_⟩
  · obtain ⟨field, question, hwaits, hasks⟩ := hasked hask
    refine ⟨field, question, hwaits, hasks, fun blanks hblank => ?_⟩
    exact holds₂.idles hwrites hread hkey hkept' (hgoesOn (.inl hask)) (.question hwaits hasks)
      hsteps
      fun b hlisted => (hblank b hlisted).heard
  · obtain ⟨hsilent, hrests⟩ := hpassed hnoop
    refine ⟨hsilent, fun others => ?_⟩
    exact holds₂.idles hwrites hread hkey hkept' (hgoesOn (.inr hnoop)) hrests hsteps fun _ _ =>
      trivial

/-! ### A city that is asked for, and a flow that says nothing -/

/-- The first message, without a text. -/
def opener : Message := { clock := "t2", text := none, time := some "t2" }

/-- A message of white space and one without a text. -/
def blanks : List Message :=
  [{ clock := "t3", text := some " \n" }, { clock := "t4", text := none }]

/-- A flow of one condition, which leads out of it. -/
def passage : Flow where
  id := "intake"
  name := "intake"
  createdAt := "t0"
  steps := [.step { id := Step.freshId, action := .condition none none none }]

/-- A deployment in which that flow was saved. -/
def passing : Deployment := ((started {}).call "t1" (.saveFlow (.str "Acme") passage)).2

/-- The conversation behind the condition. -/
def passed : Conversation := { asked with stepIndex := 1, waiting := none }

theorem call_passing : (passing.call "t2" hello).1 = .ok (.outcome (.acted .noop none passed)) := by
  have hsteps : passage.steps ≠ [] := List.cons_ne_nil _ _
  let ctx := Inbound.context 8 (.str "Acme") (.str "+1 555") none "t2"
  have htaken : Turn.run ctx passage (Turn.resumed "intake" "t2" none) =
      (Turn.unreadableEvents none ++ .save passed :: (Turn.emit ctx passed .noop none).1,
        (Turn.emit ctx passed .noop none).2) := by
    refine (Turn.walk_condition_succ ⟨_, rfl, rfl⟩ none rfl).trans ?_
    rw [Turn.walk_outside rfl]
    rfl
  have hcame : passing.call "t2" hello =
      carry (.str "Acme") (.str "+1 555") _ { passing with clock := "t2" } :=
    call_inbound_of_turn hsteps rfl rfl htaken
  rw [hcame]
  rfl

/-- The question is asked again, and behind the condition nothing is done any more. -/
theorem idles_after_messages_opener :
    (begun.call "t2" hello).2.Idles {} (.str "Acme") (.str "+1 555") "intake" .ask (some "Where?")
        asked blanks ∧
      (passing.call "t2" hello).2.Idles {} (.str "Acme") (.str "+1 555") "intake" .noop none passed
        [{ clock := "t3", text := some "Hello?" }] := by
  have hkey : counterpartyKey (.str "+1 555") = .ok "1555" := rfl
  constructor
  · have hkeeps : memory.Keeps 0 begun := keeps_memory rfl rfl (by decide)
    have hloaded : (begun.call "t1" (.loadFlow (.str "Acme") (.str "intake"))).1 =
      .ok (.found (some Inbound.cityFlow)) := rfl
    have hasks : (begun.call "t2" hello).1 =
        .ok (.outcome (.acted .ask (some (Template.render "Where?" [])) asked)) := by
      rw [call_hello]
      rfl
    obtain ⟨field, question, -, ⟨s, hentry, haction⟩, hidles⟩ :=
      (idles_after_messages hkeeps hloaded hkey rfl (m := opener)
        (show ((begun.after {} ([].map _)).call _ _).1 = _ from hasks)).1 rfl
    obtain rfl : question = "Where?" := by
      cases hentry
      cases haction
      rfl
    have hrendered : Template.render "Where?" asked.data = "Where?" := by decide +kernel
    rw [hrendered] at hidles
    refine hidles blanks (List.forall_mem_cons.2 ⟨?_, List.forall_mem_singleton.2 ?_⟩)
    · rintro _ ⟨⟩
      decide
    · rintro _ ⟨⟩
  · have hkeeps : memory.Keeps 0 passing := keeps_memory rfl rfl (by decide)
    have hloaded : (passing.call "t1" (.loadFlow (.str "Acme") (.str "intake"))).1 =
      .ok (.found (some passage)) := rfl
    exact ((idles_after_messages hkeeps hloaded hkey rfl (m := opener)
      (show ((passing.after {} ([].map _)).call _ _).1 = _ from call_passing)).2 rfl).2 _

end Deployment

end Dialogue

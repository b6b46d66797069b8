import Dialogue.Proofs.Engine.Holding
import Dialogue.Proofs.Engine.Waiting

/-!
# Conversations that rest

A conversation rests where it waits for an answer and gets none, and where it has left the flow: a
message that leaves it there is told the same as the one before, and only the times of the
conversation change (`Turn.Rests.told`).  After a question was asked, a conversation rests for texts
that are empty; after nothing was done, for all texts (`Turn.rests_of_told`).

What carries this through a run is that a question waits only at the step of the conversation
(`Conversation.IsAtQuestion`), whatever the jumps of the flow: so the turn of an empty text ends
where it starts, and a turn does nothing only if no question waits.
-/

namespace Dialogue

/-- The conversation after a message at a time that changes nothing else. -/
def Conversation.touched (c : Conversation) (now : String) : Conversation :=
  { c with updatedAt := .str now, lastInboundAt := .str now }

/-- A question that waits stands at the step of the conversation. -/
def Conversation.IsAtQuestion (flow : Flow) (c : Conversation) : Prop :=
  ∀ w, c.waiting = some w →
    w.stepIndex = c.stepIndex ∧ ∃ question, Turn.IsQuestion flow c.stepIndex w.field question

namespace Turn

variable {flow : Flow} {name text now field question : String} {limit : Nat}
  {c final : Conversation} {stored : Option Conversation} {action : TurnAction}
  {message : Option String} {outcome : Outcome} {saves : List Conversation}
  {Idle : String → Prop}

/-- A conversation that messages of some texts leave where it is, and what is done about them: a
question waits and no answer comes, or the flow was left. -/
inductive Rests (flow : Flow) (c : Conversation) :
    (String → Prop) → TurnAction → Option String → Prop where
  | question {field question : String} (waits : c.waiting = some ⟨field, c.stepIndex⟩)
      (asks : IsQuestion flow c.stepIndex field question) :
      Rests flow c (· = "") .ask (some (Template.render question c.data))
  | outside (idle : c.waiting = none) (nothing : flow.entry? c.stepIndex = none) :
      Rests flow c (fun _ => True) .noop none

/-! ## Turns that change nothing -/

theorem resumed_eq_touched (hgoesOn : GoesOn name c) : resumed name now (some c) = c.touched now :=
  if_pos hgoesOn

theorem eq_of_told_question (htold : Told flow text now limit c outcome saves)
    (hasks : IsQuestion flow c.stepIndex field question) :
    outcome = .acted .ask (some (Template.render question c.data))
        { c with waiting := some ⟨field, c.stepIndex⟩ } ∧
      saves = [{ c with waiting := some ⟨field, c.stepIndex⟩ }] :=
  htold.unique (.ends (.here c.stepIndex) limit.zero_le (.question hasks))

theorem eq_of_told_waiting (htold : Told flow text now limit c outcome saves)
    (hwaits : c.waiting = some ⟨field, c.stepIndex⟩)
    (hasks : IsQuestion flow c.stepIndex field question) :
    outcome = .acted .ask (some (Template.render question c.data)) c ∧ saves = [c] := by
  have hkept : { c with waiting := some ⟨field, c.stepIndex⟩ } = c := by rw [← hwaits]
  have hended := eq_of_told_question htold hasks
  rwa [hkept] at hended

theorem eq_of_told_outside (htold : Told flow text now limit c outcome saves)
    (hnothing : flow.entry? c.stepIndex = none) : outcome = .acted .noop none c ∧ saves = [c] :=
  htold.unique (.ends (.here c.stepIndex) limit.zero_le (.outside hnothing))

/-- A message that leaves a conversation at rest is told what is done there, and changes its times.
-/
theorem Rests.told (hrests : Rests flow c Idle action message) (hgoesOn : GoesOn name c)
    (hidle : Idle text) (htold : Reference flow name text now limit (some c) outcome saves) :
    outcome = .acted action message (c.touched now) ∧ saves = [c.touched now] := by
  rw [Reference, resumed_eq_touched hgoesOn] at htold
  cases hrests with
  | question hwaits hasks =>
    have hsame : answered text (c.touched now) = c.touched now := by
      simp [answered, Conversation.touched, hwaits, show text = "" from hidle]
    exact eq_of_told_waiting (c := c.touched now) (hsame ▸ htold) hwaits hasks
  | outside hwaits hnothing =>
    have hsame : answered text (c.touched now) = c.touched now := by
      simp [answered, Conversation.touched, hwaits]
    exact eq_of_told_outside (c := c.touched now) (hsame ▸ htold) hnothing

theorem Rests.touched (hrests : Rests flow c Idle action message) (now : String) :
    Rests flow (c.touched now) Idle action message := by
  cases hrests with
  | question hwaits hasks => exact .question (c := c.touched now) hwaits hasks
  | outside hidle hnothing => exact .outside hidle hnothing

/-! ## What a turn leaves at rest -/

/-- A question that waits after a turn stands at the step of the conversation, if one that waited
before did. -/
theorem isAtQuestion_of_told (hatQuestion : c.IsAtQuestion flow)
    (htold : Told flow text now limit c outcome saves) : ∀ c' ∈ saves, c'.IsAtQuestion flow := by
  intro c' hlisted
  cases hwaits : c.waiting with
  | some w =>
    obtain ⟨-, question, hasks⟩ := hatQuestion w hwaits
    obtain ⟨-, rfl⟩ := eq_of_told_question htold hasks
    obtain rfl := List.mem_singleton.1 hlisted
    rintro _ ⟨⟩
    exact ⟨rfl, question, hasks⟩
  | none =>
    have hidle (c' : Conversation) (hstill : c'.waiting = none) : c'.IsAtQuestion flow := by
      intro w hwaits
      rw [hstill] at hwaits
      cases hwaits
    obtain ⟨ks, j, -, ⟨k, -, rfl⟩ | ⟨action, message, hspoken⟩⟩ := mem_saves_of_told htold hlisted
    · exact hidle _ hwaits
    · cases hspoken with
      | question hasks | replyAndQuestion _ _ hasks =>
        rintro _ ⟨⟩
        exact ⟨rfl, _, hasks⟩
      | outside | reply | handoff | finish => exact hidle _ hwaits

/-- After a question was asked or nothing was done, the conversation rests. -/
theorem rests_of_told (hatQuestion : c.IsAtQuestion flow)
    (htold : Told flow text now limit c (.acted action message final) saves) :
    (action = .ask → ∃ field question, final.waiting = some ⟨field, final.stepIndex⟩ ∧
      IsQuestion flow final.stepIndex field question) ∧
    (action = .noop → message = none ∧ Rests flow final (fun _ => True) .noop none) := by
  constructor
  · rintro rfl
    cases htold with
    | ends hpath hwithin hspoken =>
      cases hspoken with
      | question hasks | replyAndQuestion _ _ hasks => exact ⟨_, _, rfl, hasks⟩
  · rintro rfl
    have hidle : c.waiting = none := by
      cases hwaits : c.waiting with
      | none => rfl
      | some w =>
        obtain ⟨-, question, hasks⟩ := hatQuestion w hwaits
        obtain ⟨hasked, -⟩ := eq_of_told_question htold hasks
        cases hasked
    cases htold with
    | ends hpath hwithin hspoken =>
      cases hspoken with
      | outside hnothing => exact ⟨rfl, .outside hidle hnothing⟩

/-- What is stored last is the conversation of the outcome. -/
theorem getLast?_of_told (htold : Told flow text now limit c (.acted action message final) saves) :
    saves.getLast? = some final := by
  cases htold with
  | ends hpath hwithin hspoken => exact List.getLast?_concat

/-- The conversation goes on after a question was asked or nothing was done. -/
theorem goesOn_of_told (hgoesOn : GoesOn name c)
    (htold : Told flow text now limit c (.acted action message final) saves)
    (hpauses : action = .ask ∨ action = .noop) : GoesOn name final := by
  cases htold with
  | ends hpath hwithin hspoken =>
    cases hspoken with
    | outside | question | replyAndQuestion => exact hgoesOn
    | reply | handoff | finish => simp at hpauses

/-! ## The conversation that a message comes to -/

theorem goesOn_answered_resumed (name text now : String) (stored : Option Conversation) :
    GoesOn name (answered text (resumed name now stored)) := by
  have hgoesOn : GoesOn name (resumed name now stored) := by
    cases stored with
    | none => exact ⟨rfl, rfl⟩
    | some c =>
      rw [resumed]
      split
      · assumption
      · exact ⟨rfl, rfl⟩
  unfold answered
  split
  · split <;> exact hgoesOn
  · exact hgoesOn

theorem isAtQuestion_answered_resumed (hatQuestion : ∀ c, stored = some c → c.IsAtQuestion flow) :
    (answered text (resumed name now stored)).IsAtQuestion flow := by
  intro w hwaits
  obtain ⟨-, c, hthere, -, hwaits', hsame⟩ := waiting_answered_resumed hwaits
  rw [hsame]
  exact hatQuestion c hthere w hwaits'

end Turn

/-! ## Messages where a conversation is kept -/

/-- What is found is nothing, or the document of a sound conversation, whenever it is read. -/
structure Conversation.Kept (found : Option Value) (stored : Option Conversation) : Prop where
  reads : ∀ clock, Conversation.read? clock found = stored
  sound : ∀ c, stored = some c → c.IsSound
  nothing : stored = none → found = none

theorem Conversation.kept_none : Kept none none :=
  ⟨fun _ => rfl, by simp, fun _ => rfl⟩

namespace Inbound

open Conversation

variable {σ : Type} {access : (a : Store.Access) → Run σ a.Answer} {log : Event → σ → σ}
  {tenant counterparty : Value} {key name : String} {s : σ} {flow : Flow}
  {Holds : Option Value → σ → Prop} {found : Option Value} {stored : Option Conversation}

/-- A store that holds a conversation keeps it. -/
theorem Holding.keeping (holding : Holding access log tenant name key flow Holds) :
    Holding access log tenant name key flow
      fun found s => Holds found s ∧ ∃ stored, Kept found stored where
  load holds := by
    obtain ⟨t, hloaded, hafter⟩ := holding.load holds.1
    exact ⟨t, hloaded, hafter, holds.2⟩
  fetch holds := by
    obtain ⟨t, hfetched, hafter⟩ := holding.fetch holds.1
    exact ⟨t, hfetched, hafter, holds.2⟩
  put {found s c} hsound holds := by
    obtain ⟨doc, t, htaken, hafter, hput⟩ := holding.put hsound holds.1
    refine ⟨doc, t, htaken, ⟨hafter, ?_⟩, hput⟩
    rcases hput with rfl | ⟨rfl, -⟩
    · exact ⟨some c, hsound.read?_written, fun _ hsame => Option.some.inj hsame ▸ hsound, by simp⟩
    · exact holds.2
  log e holds := ⟨holding.log e holds.1, holds.2⟩

/-- A message comes to what is told of the conversation that is kept, and the last conversation that
is told of it is kept afterwards; a flow without steps tells nothing. -/
theorem Holding.handle_kept (holding : Holding access log tenant name key flow Holds)
    (hkey : Store.counterpartyKey counterparty = .ok key) (holds : Holds found s)
    (hkept : Kept found stored) (clock : String) (hops : Int) (text now : Option String) :
    ∃ outcome found' stored' t,
      (Inbound.handle clock hops (ofTexts tenant counterparty text name now)).run access log s =
        (.ok outcome, t) ∧ Holds found' t ∧ Kept found' stored' ∧
      (flow.steps = [] ∧ outcome = .empty name ∧ stored' = stored ∨
        flow.steps ≠ [] ∧ ∃ saves, Turn.Reference flow name (stripped text) (timeOf clock now)
          hops.toNat stored outcome saves ∧ stored' = saves.getLast?.or stored) := by
  by_cases hstepless : flow.steps = []
  · obtain ⟨t, hloaded, hafter⟩ := holding.load holds
    exact ⟨.empty name, found, stored, log (.flowEmpty tenant (.str name)) t,
      run_handle_stepless hloaded hstepless clock hops text now, holding.log _ hafter, hkept,
        .inl ⟨hstepless, rfl, rfl⟩⟩
  · obtain ⟨outcome, saves, found', t, hran, htold, -, ⟨hafter, stored', hkept'⟩, hlast⟩ :=
      holding.keeping.handle hkey hstepless ⟨holds, stored, hkept⟩ clock
        (fun c hthere => hkept.sound c ((hkept.reads clock).symm.trans hthere)) hops text now
    rw [hkept.reads] at htold
    refine ⟨outcome, found', stored', t, hran, hafter, hkept', .inr ⟨hstepless, saves, htold, ?_⟩⟩
    have hsurvives : ∀ c, saves.head? = some c → c.Survives found := by
      intro c hfirst
      cases stored with
      | none => simp [Survives, hkept.nothing rfl]
      | some b =>
        exact htold.survives (hkept.reads "") (hkept.sound b rfl) c (List.mem_of_head? hfirst)
    rw [← hkept'.reads clock, hlast hsurvives, hkept.reads]

end Inbound

end Dialogue

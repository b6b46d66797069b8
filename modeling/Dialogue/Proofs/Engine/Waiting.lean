import Dialogue.Proofs.Engine.Steady

/-!
# The question that waits after a turn

After a turn the question waits that it asked, or the conversation is completed, or what waited
before waits still; then the turn said nothing, or it replied (`Leaves`).  A conversation that
stands at a question is asked that question (`leaves_of_question`).

A message sets a field of the data that are collected (`Sets`) if a question about the field waits
and the message is not empty, and only then (`sets_iff`).
-/

namespace Dialogue.Turn

variable {flow : Flow} {text now name field : String} {limit : Nat} {c : Conversation}
  {outcome : Outcome} {saves : List Conversation}

/-- A conversation goes on in a flow. -/
def GoesOn (name : String) (c : Conversation) : Prop := c.flow = name ∧ c.isCompleted = false

/-- A question about a field waits in a conversation. -/
def WaitsFor (field : String) (c : Conversation) : Prop := ∃ w, c.waiting = some w ∧ w.field = field

/-! ## What waits after a turn -/

/-- How a turn with an outcome leaves a conversation, by the conversations that it stores. -/
inductive Leaves (flow : Flow) (c : Conversation) : Outcome → List Conversation → Prop where
  | asked {before : List Conversation} {message field question : String} {final : Conversation}
      (waits : final.waiting = some ⟨field, final.stepIndex⟩)
      (asks : IsQuestion flow final.stepIndex field question) :
      Leaves flow c (.acted .ask (some message) final) (before ++ [final])
  | silent {outcome : Outcome} {saves : List Conversation} (spoke : outcome.message = none)
      (moves : ∀ c' ∈ saves, ∃ k, c' = c.moved k) : Leaves flow c outcome saves
  | replied {before : List Conversation} {message : Option String} {k : Int} :
      Leaves flow c (.acted .reply message (c.moved k)) (before ++ [c.moved k])
  | completed {outcome : Outcome} {before : List Conversation} {final : Conversation}
      (completes : final.isCompleted = true) : Leaves flow c outcome (before ++ [final])

theorem isCompleted_of_completedAt {c : Conversation} (hcompleted : c.completedAt = .str now)
    (htimed : now ≠ "") : c.isCompleted = true := by
  simp [Conversation.isCompleted, hcompleted, Value.isEmpty, htimed]

/-- How a conversation is left by what is spoken at the end of a path. -/
theorem Spoken.leaves {before : List Conversation} {j : Int} {action : TurnAction}
    {message : Option String} {final : Conversation} (htimed : now ≠ "")
    (hmoves : ∀ c' ∈ before, ∃ k, c' = c.moved k)
    (hspoken : Spoken flow now (c.moved j) action message final) :
    Leaves flow c (.acted action message final) (before ++ [final]) := by
  cases hspoken with
  | outside hnothing =>
    refine .silent rfl fun c' hlisted => ?_
    rcases List.mem_append.1 hlisted with hlisted | hlisted
    · exact hmoves c' hlisted
    · exact ⟨j, List.mem_singleton.1 hlisted⟩
  | question hasks => exact .asked rfl hasks
  | replyAndQuestion hentry hreplies hasks => exact .asked rfl hasks
  | reply hentry hreplies halone => exact .replied
  | handoff hentry hands => exact .completed (isCompleted_of_completedAt rfl htimed)
  | finish hentry hends => exact .completed (isCompleted_of_completedAt rfl htimed)

/-- How a conversation is left by what is told of it.  As long as something remains to be stored it
has only moved. -/
theorem leaves_of_told (htold : Told flow text now limit c outcome saves) (htimed : now ≠ "") :
    Leaves flow c outcome saves ∧
      ∀ before after, saves = before ++ after → after ≠ [] →
        ∀ c' ∈ before, ∃ k, c' = c.moved k := by
  have hmoves : ∀ ks : List Int, ∀ c' ∈ ks.map c.moved, ∃ k, c' = c.moved k := by
    intro ks c' hlisted
    obtain ⟨k, -, rfl⟩ := List.mem_map.1 hlisted
    exact ⟨k, rfl⟩
  cases htold with
  | @limit ks j expr thenTarget elseTarget hpath hspent hcondition =>
    refine ⟨.silent rfl (hmoves ks), fun before after hsplit _ c' hlisted => hmoves ks c' ?_⟩
    rw [hsplit]
    exact List.mem_append_left _ hlisted
  | @ends ks j action message final hpath hwithin hspoken =>
    refine ⟨hspoken.leaves htimed (hmoves ks), fun before after hsplit hmore c' hlisted =>
      hmoves ks c' ?_⟩
    have hearlier : ks.map c.moved = before ++ after.dropLast := by
      rw [← List.dropLast_append_of_ne_nil hmore, ← hsplit, List.dropLast_concat]
    rw [hearlier]
    exact List.mem_append_left _ hlisted

/-- A conversation that stands at a question is asked that question. -/
theorem leaves_of_question (htold : Told flow text now limit c outcome saves) {question : String}
    (hasks : IsQuestion flow c.stepIndex field question) :
    ∃ message final, outcome = .acted .ask (some message) final ∧ saves = [final] ∧
      final.waiting = some ⟨field, final.stepIndex⟩ ∧ final.stepIndex = c.stepIndex := by
  obtain ⟨s, hentry, haction⟩ := hasks
  have hsame : ∀ {s' : Step}, flow.entry? c.stepIndex = some (.step s') → s' = s := by
    intro s' hentry'
    simpa [hentry'] using hentry
  cases htold with
  | limit hpath hspent hcondition =>
    obtain ⟨-, rfl⟩ := hpath.of_question ⟨s, hentry, haction⟩
    obtain ⟨s', hentry', haction'⟩ := hcondition
    rw [hsame hentry', haction] at haction'
    cases haction'
  | ends hpath hwithin hspoken =>
    obtain ⟨rfl, rfl⟩ := hpath.of_question ⟨s, hentry, haction⟩
    cases hspoken with
    | outside hnothing =>
      rw [Conversation.stepIndex_moved, hentry] at hnothing
      cases hnothing
    | question hasks =>
      obtain ⟨s', hentry', haction'⟩ := hasks
      rw [hsame hentry', haction] at haction'
      cases haction'
      exact ⟨_, _, rfl, rfl, rfl, rfl⟩
    | replyAndQuestion hentry' hreplies _ | reply hentry' hreplies _ | handoff hentry' hreplies
    | finish hentry' hreplies =>
      rw [hsame hentry', haction] at hreplies
      cases hreplies

/-- What a message lets wait was stored as waiting, and the message is empty. -/
theorem waiting_answered_resumed {stored : Option Conversation} {w : Waiting}
    (hwaits : (answered text (resumed name now stored)).waiting = some w) :
    text = "" ∧ ∃ c, stored = some c ∧ GoesOn name c ∧ c.waiting = some w ∧
      (answered text (resumed name now stored)).stepIndex = c.stepIndex := by
  have hresumes : ∀ {w}, (resumed name now stored).waiting = some w →
      ∃ c, stored = some c ∧ GoesOn name c ∧ c.waiting = some w ∧
        (resumed name now stored).stepIndex = c.stepIndex := by
    intro w hwaits
    cases stored with
    | none => cases hwaits
    | some c =>
      simp only [resumed] at hwaits ⊢
      split at hwaits
      · rename_i hgoesOn
        exact ⟨c, rfl, hgoesOn, hwaits, by rw [if_pos hgoesOn]⟩
      · cases hwaits
  unfold answered at hwaits ⊢
  split at hwaits
  · rename_i w' hwaits'
    split at hwaits
    · rename_i hempty
      simp only [if_pos hempty]
      exact ⟨hempty, hresumes hwaits⟩
    · cases hwaits
  · rename_i hidle
    rw [hidle] at hwaits
    cases hwaits

/-! ## What is collected -/

/-- What was collected in the conversation that a message comes to. -/
def collected (name : String) (stored : Option Conversation) : Fields :=
  (resumed name "" stored).data

/-- The conversation that a message comes to has a question waiting about the field. -/
def IsAsked (name field : String) (stored : Option Conversation) : Prop :=
  ∃ c, stored = some c ∧ GoesOn name c ∧ WaitsFor field c

/-- A message sets a field of the collected data to its text.  If it was the same text before, that
is seen only from the question that waited. -/
def Sets (name text : String) (stored : Option Conversation) (outcome : Outcome)
    (field : String) : Prop :=
  ∃ after, outcome.state = some after ∧ after.data.get? field = some (.str text) ∧
    ((collected name stored).get? field ≠ some (.str text) ∨ IsAsked name field stored ∧ text ≠ "")

theorem data_resumed (name now : String) (stored : Option Conversation) :
    (resumed name now stored).data = collected name stored := by
  cases stored with
  | none => rfl
  | some c =>
    simp only [collected, resumed]
    split <;> rfl

theorem waitsFor_resumed_iff {stored : Option Conversation} :
    WaitsFor field (resumed name now stored) ↔ IsAsked name field stored := by
  cases stored with
  | none => simp [WaitsFor, IsAsked, resumed, Conversation.start]
  | some c =>
    simp only [IsAsked, resumed, Option.some.injEq, exists_eq_left']
    split
    · rename_i hgoesOn
      exact ⟨fun hwaits => ⟨hgoesOn, hwaits⟩, fun hasked => hasked.2⟩
    · rename_i hends
      refine ⟨fun hwaits => ?_, fun hasked => absurd hasked.1 hends⟩
      obtain ⟨w, hwaits, -⟩ := hwaits
      cases hwaits

theorem Spoken.data_eq {action : TurnAction} {message : Option String} {final : Conversation}
    (hspoken : Spoken flow now c action message final) : final.data = c.data := by
  cases hspoken <;> rfl

theorem exists_state_of_told (htold : Told flow text now limit c outcome saves) :
    ∃ after, outcome.state = some after ∧ after.data = c.data := by
  cases htold with
  | limit hpath hspent hcondition => exact ⟨_, rfl, rfl⟩
  | ends hpath hwithin hspoken => exact ⟨_, rfl, hspoken.data_eq⟩

/-- A message that is not empty is collected under the field of the question that waits, and nothing
else is. -/
theorem get?_data_answered (text field : String) (c : Conversation) :
    WaitsFor field c ∧ text ≠ "" ∧ (answered text c).data.get? field = some (.str text) ∨
      ¬ (WaitsFor field c ∧ text ≠ "") ∧
        (answered text c).data.get? field = c.data.get? field := by
  cases hwaits : c.waiting with
  | none => exact .inr ⟨by simp [WaitsFor, hwaits], by simp [answered, hwaits]⟩
  | some w =>
    by_cases hempty : text = ""
    · exact .inr ⟨by simp [hempty], by simp [answered, hwaits, hempty]⟩
    · have hdata : (answered text c).data = c.data.set w.field (.str text) := by
        simp [answered, hwaits, hempty]
      rw [hdata]
      by_cases hsame : w.field = field
      · subst hsame
        exact .inl ⟨⟨w, hwaits, rfl⟩, hempty, Keyed.get?_set_self _ _ _⟩
      · exact .inr ⟨by simp [WaitsFor, hwaits, hsame], Keyed.get?_set_of_ne _ _ (Ne.symm hsame)⟩

theorem sets_iff {stored : Option Conversation}
    (htold : Reference flow name text now limit stored outcome saves) :
    Sets name text stored outcome field ↔ IsAsked name field stored ∧ text ≠ "" := by
  obtain ⟨after, hstate, hdata⟩ := exists_state_of_told htold
  have hanswers := get?_data_answered text field (resumed name now stored)
  rw [waitsFor_resumed_iff, ← hdata, data_resumed] at hanswers
  constructor
  · rintro ⟨after', hstate', hthere, hsets⟩
    obtain rfl : after = after' := Option.some.inj (hstate.symm.trans hstate')
    rcases hanswers with ⟨hasked, hgiven, -⟩ | ⟨-, hunchanged⟩
    · exact ⟨hasked, hgiven⟩
    · exact hsets.resolve_left fun hdifferent => hdifferent (hunchanged.symm.trans hthere)
  · rintro ⟨hasked, hgiven⟩
    rcases hanswers with ⟨-, -, hthere⟩ | ⟨hother, -⟩
    · exact ⟨after, hstate, hthere, .inr ⟨hasked, hgiven⟩⟩
    · exact absurd ⟨hasked, hgiven⟩ hother

end Dialogue.Turn

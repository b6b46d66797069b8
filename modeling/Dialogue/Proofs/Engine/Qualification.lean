import Dialogue.Proofs.Engine.Waiting
import Dialogue.Proofs.Template

/-!
# The built-in flow, turn by turn

The built-in flow greets and collects four answers.  The fourth names a budget, and what follows
rests on whether it is high (`IsHigh`): either the conversation is handed over, or a fifth answer is
asked for and all of them are summed up.

Each turn is told of a conversation that waits for an answer (`awaiting`), with the answers before
it under their fields (`collected`).  The texts are those of the templates with the answers in their
places, whatever the answers look like.

## Main statements

* `reference_greeting`: the first message is greeted and asked for a name.
* `reference_question`: an answer is recorded, and the next question is put.
* `reference_high`, `reference_low`: what the answer about the budget leads to.
* `reference_summary`: the answers are summed up.
-/

namespace Dialogue

namespace Condition

/-- The condition on the budget. -/
def budgetOfMillion : Condition := ⟨"budget", .ge, ⟨"10L", false, some (Double.ofInt 1000000)⟩⟩

theorem parse?_budget : parse? "budget >= 10L" = some budgetOfMillion := by decide +kernel

end Condition

theorem Text.isBlankText_of_strip {s : String} (hstripped : Text.strip s = s) (hgiven : s ≠ "") :
    Text.isBlankText s = false := by
  refine Bool.eq_false_iff.2 fun hblank => hgiven ?_
  have hnothing : s.toList.dropWhile Text.isBlank = [] :=
    List.dropWhile_eq_nil_iff.2 fun c hlisted => List.all_eq_true.1 hblank c hlisted
  rw [← hstripped, Text.strip, Text.stripChars, Text.trimChars, hnothing]
  rfl

namespace Qualification

open Turn

/-- The answer about the budget names an amount of a million or more, or it names no amount and does
not come before `10l` in lower case. -/
def IsHigh (answer : String) : Prop :=
  (∃ amount, Amount.read? answer = some amount ∧ (Double.ofInt 1000000).le amount = true) ∨
    Amount.read? answer = none ∧ "10l" ≤ Text.lower answer

/-- The fields that are asked for. -/
def fields : List String := ["name", "requirement", "location", "budget", "timeline"]

/-- Answers under the fields that were asked for, in order. -/
def collected (answers : List String) : Fields := fields.zip (answers.map .str)

variable {flow : Flow} {name begun earlier now text : String} {limit : Nat}

theorem holdsOfTexts_ge_iff (a b : String) :
    Comparator.holdsOfTexts .ge a b = true ↔ b ≤ a := by
  simp only [Comparator.holdsOfTexts, Bool.or_eq_true, decide_eq_true_eq, beq_iff_eq]
  constructor
  · rintro (hlater | rfl)
    · exact String.not_lt.1 (String.lt_asymm hlater)
    · exact String.le_refl _
  · intro hle
    by_cases hlater : b < a
    · exact .inl hlater
    · exact .inr (String.le_antisymm (String.not_lt.1 hlater) hle)

theorem holdsOf_budget_iff {answer : String} (hstripped : Text.strip answer = answer)
    (hgiven : answer ≠ "") :
    Condition.budgetOfMillion.holdsOf (.str answer) = true ↔ IsHigh answer := by
  have hunblank := Text.isBlankText_of_strip hstripped hgiven
  have hown : Condition.comparable answer = Text.lower answer := by
    rw [Condition.comparable, hstripped]
  have hten : Condition.comparable "10L" = "10l" := by decide +kernel
  simp only [Condition.holdsOf, Value.isNull, Value.display, hunblank, Condition.budgetOfMillion,
    Amount.ofValue?, IsHigh, Bool.or_self, Bool.false_eq_true, if_false]
  cases Amount.read? answer with
  | some amount =>
    simp only [Option.some.injEq, exists_eq_left', reduceCtorEq, false_and, or_false]
    rfl
  | none =>
    simp only [reduceCtorEq, false_and, exists_false, true_and, false_or]
    rw [hown, hten]
    exact holdsOfTexts_ge_iff _ _

/-- The branch to take is a matter of the answer about the budget. -/
theorem favours_budget_iff {answer : String} (hstripped : Text.strip answer = answer)
    (hgiven : answer ≠ "") {data : Fields} (hfound : Fields.getD data "budget" = .str answer) :
    Favours text data (some "budget >= 10L") ↔ IsHigh answer := by
  have hvalue : Fields.getD (Fields.set data "_last" (.str text)) "budget" = .str answer := by
    rw [← hfound, Fields.getD, Fields.getD, Fields.get?, Fields.get?, Fields.set,
      Keyed.get?_set_of_ne _ _ (by decide)]
  have holds : Condition.budgetOfMillion.holds (Fields.set data "_last" (.str text)) = true ↔
      IsHigh answer := by
    rw [Condition.holds, ← holdsOf_budget_iff hstripped hgiven, ← hvalue]
    rfl
  rw [← holds, Favours]
  constructor
  · rintro ⟨_, condition, ⟨⟩, hparsed, hfavours⟩
    obtain rfl := Option.some.inj (Condition.parse?_budget.symm.trans hparsed)
    exact hfavours
  · intro hfavours
    exact ⟨_, _, rfl, Condition.parse?_budget, hfavours⟩

/-! ## Conversations of the flow -/

/-- The conversation that stands at a step since a message came in. -/
def standing (name begun now : String) (index : Int) (data : Fields) : Conversation where
  flow := name
  stepIndex := index
  data := data
  startedAt := begun
  updatedAt := .str now
  lastInboundAt := .str now

theorem data_standing (name begun now : String) (index : Int) (data : Fields) :
    (standing name begun now index data).data = data := rfl

/-- The conversation that waits for the answer to the question at a step. -/
def awaiting (name begun now : String) (index : Int) (field : String) (data : Fields) :
    Conversation :=
  { standing name begun now index data with waiting := some ⟨field, index⟩ }

/-- The conversation that was handed over at the end of a flow. -/
def handedOver (name begun now : String) (size : Nat) (reason : String) (data : Fields) :
    Conversation :=
  { standing name begun now size data with
    completedAt := .str now
    handoff := some ⟨reason, now⟩ }

/-- The conversation that came to the end of a flow. -/
def finished (name begun now : String) (size : Nat) (data : Fields) : Conversation :=
  { standing name begun now size data with completedAt := .str now }

/-- An answer is recorded, and the conversation stands at the next step. -/
theorem answered_awaiting (hgiven : text ≠ "") {index : Int} {field : String} {data : Fields} :
    answered text (resumed name now (some (awaiting name begun earlier index field data))) =
      standing name begun now (index + 1) (Fields.set data field (.str text)) := by
  have hgoesOn : (awaiting name begun earlier index field data).flow = name ∧
      (awaiting name begun earlier index field data).isCompleted = false := ⟨rfl, rfl⟩
  have hnext : max index (index + 1) = index + 1 := by omega
  rw [resumed, if_pos hgoesOn]
  simp only [answered, awaiting, if_neg hgiven, standing, hnext]

/-- What an answer comes to is told from the step behind its question on. -/
theorem reference_awaiting (hgiven : text ≠ "") {index j : Int} {ks : List Int} {field : String}
    {data data' : Fields} (hanswers : data' = Fields.set data field (.str text))
    (hpath : SilentPath flow text data' (index + 1) ks j) (hwithin : ks.length ≤ limit)
    {action : TurnAction} {message : Option String} {final : Conversation}
    (hspoken : Spoken flow now (standing name begun now j data') action message final) :
    Reference flow name text now limit (some (awaiting name begun earlier index field data))
      (.acted action message final)
      ((ks.map fun k => standing name begun now k data') ++ [final]) := by
  subst hanswers
  rw [Reference, answered_awaiting hgiven]
  exact .ends hpath hwithin hspoken

/-! ## The built-in flow -/

theorem isWord_of_mem_fields {name : String} (hlisted : name ∈ fields) : Template.IsWord name := by
  simp only [fields, List.mem_cons, List.not_mem_nil, or_false] at hlisted
  rcases hlisted with rfl | rfl | rfl | rfl | rfl <;>
    exact ⟨by decide, List.all_eq_true.1 (by decide)⟩

section

variable (hmade : flow.steps = Preset.leadQualification.steps)

include hmade

theorem entry?_of_made (index : Nat) :
    flow.entry? index = Preset.leadQualification.steps[index]? := by
  rw [Flow.entry?, hmade]
  rfl

theorem size_of_made : flow.size = 9 := by
  rw [Flow.size, hmade]
  rfl

/-- A question stands behind another step. -/
theorem isQuestion_of_made {index : Nat} {field question : String}
    (hthere : Preset.leadQualification.steps[index + 1]? =
      some (Preset.step (.question field question))) :
    IsQuestion flow ((index : Int) + 1) field question :=
  ⟨_, (entry?_of_made hmade (index + 1)).trans hthere, rfl⟩

theorem isCondition_of_made :
    IsCondition flow 5 (some "budget >= 10L") (some 6) (some 7) :=
  ⟨_, entry?_of_made hmade 5, rfl⟩

/-- The first message is greeted and asked for a name, whatever it says. -/
theorem reference_greeting :
    Reference flow name text now limit none
      (.acted .ask (some ("Thanks for contacting us. I will ask a few quick questions to help you."
          ++ "\n\n" ++ "What is your name?"))
        (awaiting name now now 1 "name" (collected [])))
      [awaiting name now now 1 "name" (collected [])] := by
  have hfirst : answered text (resumed name now none) = standing name now now 0 [] := rfl
  have hasks : IsQuestion flow 1 "name" "What is your name?" :=
    ⟨_, entry?_of_made hmade 1, rfl⟩
  have hspoken : Spoken flow now (standing name now now 0 []) .ask _
      (awaiting name now now 1 "name" (collected [])) :=
    .replyAndQuestion (entry?_of_made hmade 0) rfl hasks
  rw [Template.render_bare (by decide), Template.render_bare (by decide)] at hspoken
  rw [Reference, hfirst]
  exact .ends (.here _) (Nat.zero_le _) hspoken

/-- An answer that a question follows is recorded, and the question is put. -/
theorem reference_question (hgiven : text ≠ "") {index : Nat} {field next question : String}
    {data data' : Fields} (hanswers : data' = Fields.set data field (.str text))
    (hthere : Preset.leadQualification.steps[index + 1]? =
      some (Preset.step (.question next question))) (hbare : Template.IsBare question) :
    Reference flow name text now limit (some (awaiting name begun earlier index field data))
      (.acted .ask (some question) (awaiting name begun now ((index : Int) + 1) next data'))
      [awaiting name begun now ((index : Int) + 1) next data'] := by
  have hspoken : Spoken flow now (standing name begun now ((index : Int) + 1) data') .ask _
      (awaiting name begun now ((index : Int) + 1) next data') :=
    .question (isQuestion_of_made hmade hthere)
  rw [data_standing, Template.render_bare hbare] at hspoken
  exact reference_awaiting hgiven hanswers (.here _) (Nat.zero_le _) hspoken

variable {s1 s2 s3 s4 s5 : String}

/-- A budget that is high hands the conversation over. -/
theorem reference_high (hstripped : Text.strip s4 = s4) (hgiven : s4 ≠ "") (high : IsHigh s4)
    (hops : 1 ≤ limit) :
    Reference flow name s4 now limit
      (some (awaiting name begun earlier 4 "budget" (collected [s1, s2, s3])))
      (.acted .handoff
        (some ("Thanks " ++ s1 ++ ". Noted. Our senior advisor will contact you shortly."))
        (handedOver name begun now 9 "high_budget" (collected [s1, s2, s3, s4])))
      [standing name begun now 6 (collected [s1, s2, s3, s4]),
        handedOver name begun now 9 "high_budget" (collected [s1, s2, s3, s4])] := by
  have hanswers : collected [s1, s2, s3, s4] =
      Fields.set (collected [s1, s2, s3]) "budget" (.str s4) := rfl
  have hfavours : Favours s4 (collected [s1, s2, s3, s4]) (some "budget >= 10L") :=
    (favours_budget_iff hstripped hgiven rfl).2 high
  have hpath : SilentPath flow s4 (collected [s1, s2, s3, s4]) (4 + 1) [6] 6 :=
    .holds (isCondition_of_made hmade) hfavours (.here 6)
  have hands : Spoken flow now (standing name begun now 6 (collected [s1, s2, s3, s4])) .handoff
      _ _ := .handoff (entry?_of_made hmade 6) rfl
  have hthanks : Template.render ("Thanks " ++ Preset.field "name" ++
      ". Noted. Our senior advisor will contact you shortly.") (collected [s1, s2, s3, s4]) =
        "Thanks " ++ s1 ++ ". Noted. Our senior advisor will contact you shortly." := by
    rw [String.append_assoc, Template.render_bare_append (by decide),
      Template.render_field_append (isWord_of_mem_fields (by decide)) rfl,
      Template.render_bare (by decide), ← String.append_assoc]
  rw [Option.filter_some, if_pos (by decide), Option.map_some, data_standing, hthanks,
    size_of_made hmade, if_neg (by decide)] at hands
  exact reference_awaiting hgiven hanswers hpath hops hands

/-- After a budget that is not high the timeline is asked for. -/
theorem reference_low (hstripped : Text.strip s4 = s4) (hgiven : s4 ≠ "") (hlow : ¬ IsHigh s4)
    (hops : 1 ≤ limit) :
    Reference flow name s4 now limit
      (some (awaiting name begun earlier 4 "budget" (collected [s1, s2, s3])))
      (.acted .ask (some "When do you want to proceed?")
        (awaiting name begun now 7 "timeline" (collected [s1, s2, s3, s4])))
      [standing name begun now 7 (collected [s1, s2, s3, s4]),
        awaiting name begun now 7 "timeline" (collected [s1, s2, s3, s4])] := by
  have hanswers : collected [s1, s2, s3, s4] =
      Fields.set (collected [s1, s2, s3]) "budget" (.str s4) := rfl
  have hdisfavours : ¬ Favours s4 (collected [s1, s2, s3, s4]) (some "budget >= 10L") :=
    mt (favours_budget_iff hstripped hgiven rfl).1 hlow
  have hpath : SilentPath flow s4 (collected [s1, s2, s3, s4]) (4 + 1) [7] 7 :=
    .fails (isCondition_of_made hmade) hdisfavours (.here 7)
  have hasks : IsQuestion flow 7 "timeline" "When do you want to proceed?" :=
    ⟨_, entry?_of_made hmade 7, rfl⟩
  have hspoken : Spoken flow now (standing name begun now 7 (collected [s1, s2, s3, s4])) .ask _
      (awaiting name begun now 7 "timeline" (collected [s1, s2, s3, s4])) := .question hasks
  rw [Template.render_bare (by decide)] at hspoken
  exact reference_awaiting hgiven hanswers hpath hops hspoken

/-- What was collected is summed up at the end, the answers as they are. -/
theorem reference_summary (hgiven : s5 ≠ "") :
    Reference flow name s5 now limit
      (some (awaiting name begun earlier 7 "timeline" (collected [s1, s2, s3, s4])))
      (.acted .finish
        (some ("Thanks " ++ s1 ++ ". Noted: " ++ s2 ++ " in " ++ s3 ++ ", budget " ++ s4 ++
          ", timeline " ++ s5 ++ ". Our team will get back shortly."))
        (finished name begun now 9 (collected [s1, s2, s3, s4, s5])))
      [finished name begun now 9 (collected [s1, s2, s3, s4, s5])] := by
  have hends : Spoken flow now (standing name begun now 8 (collected [s1, s2, s3, s4, s5])) .finish
      _ _ := .finish (entry?_of_made hmade 8) rfl
  have hsummary : Template.render ("Thanks " ++ Preset.field "name" ++ ". Noted: " ++
      Preset.field "requirement" ++ " in " ++ Preset.field "location" ++ ", budget " ++
      Preset.field "budget" ++ ", timeline " ++ Preset.field "timeline" ++
      ". Our team will get back shortly.") (collected [s1, s2, s3, s4, s5]) =
        "Thanks " ++ s1 ++ ". Noted: " ++ s2 ++ " in " ++ s3 ++ ", budget " ++ s4 ++
          ", timeline " ++ s5 ++ ". Our team will get back shortly." := by
    have hword {name : String} (hlisted : name ∈ fields) := isWord_of_mem_fields hlisted
    simp only [String.append_assoc]
    rw [
      Template.render_bare_append (by decide), Template.render_field_append (hword (by decide)) rfl,
      Template.render_bare_append (by decide), Template.render_field_append (hword (by decide)) rfl,
      Template.render_bare_append (by decide), Template.render_field_append (hword (by decide)) rfl,
      Template.render_bare_append (by decide), Template.render_field_append (hword (by decide)) rfl,
      Template.render_bare_append (by decide), Template.render_field_append (hword (by decide)) rfl,
      Template.render_bare (by decide)]
  rw [Option.filter_some, if_pos (by decide), Option.map_some, data_standing, hsummary,
    size_of_made hmade] at hends
  exact reference_awaiting hgiven rfl (.here _) (Nat.zero_le _) hends

end

end Qualification

end Dialogue

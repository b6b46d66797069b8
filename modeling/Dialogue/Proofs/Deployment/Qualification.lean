import Dialogue.Proofs.Deployment.Holding
import Dialogue.Proofs.Deployment.Script
import Dialogue.Proofs.Engine.Qualification

/-!
# The built-in flow from the first message to the last

A counterparty without a conversation is greeted and asked for a name, a requirement, a location and
a budget, in this order.  A budget that is high hands the conversation over; otherwise the timeline
is asked for, and then all is summed up (`Deployment.answers_qualification`).  Every answer is taken
as it was heard, whatever it looks like: what it says about fields or conditions is not looked at.

The flow may stand under any name, and it does not matter what else the deployment keeps.
-/

namespace Dialogue

open Store Qualification

namespace Remark

/-- The time of a message. -/
def moment (s : Remark) : String := Inbound.timeOf s.clock s.time

end Remark

namespace Qualification

variable (name : String) (first a₁ a₂ a₃ a₄ a₅ : Remark)

/-- The conversation that waits for the answer to the question at a step, after some answers. -/
def waits (last : Remark) (index : Nat) (field : String) (answers : List Remark) : Conversation :=
  awaiting name first.moment last.moment index field (collected (answers.map Remark.heard))

/-- What is said until the budget is named. -/
def questions : List Outcome :=
  [.acted .ask (some ("Thanks for contacting us. I will ask a few quick questions to help you." ++
      "\n\n" ++ "What is your name?")) (waits name first first 1 "name" []),
   .acted .ask (some "What are you looking for?") (waits name first a₁ 2 "requirement" [a₁]),
   .acted .ask (some "Which area/location?") (waits name first a₂ 3 "location" [a₁, a₂]),
   .acted .ask (some "What is your budget range?") (waits name first a₃ 4 "budget" [a₁, a₂, a₃])]

/-- What is said to a budget that is high. -/
def handover : Outcome :=
  .acted .handoff
    (some ("Thanks " ++ a₁.heard ++ ". Noted. Our senior advisor will contact you shortly."))
    (handedOver name first.moment a₄.moment 9 "high_budget"
      (collected [a₁.heard, a₂.heard, a₃.heard, a₄.heard]))

/-- What is said to another budget. -/
def lastQuestion : Outcome :=
  .acted .ask (some "When do you want to proceed?")
    (waits name first a₄ 7 "timeline" [a₁, a₂, a₃, a₄])

/-- What is said in the end, when the timeline is known. -/
def summary : Outcome :=
  .acted .finish
    (some ("Thanks " ++ a₁.heard ++ ". Noted: " ++ a₂.heard ++ " in " ++ a₃.heard ++
      ", budget " ++ a₄.heard ++ ", timeline " ++ a₅.heard ++
      ". Our team will get back shortly."))
    (finished name first.moment a₅.moment 9
      (collected [a₁.heard, a₂.heard, a₃.heard, a₄.heard, a₅.heard]))

end Qualification

namespace Storage

variable {k : Storage} {r : Backend.Request} {n : Nat} {d : Deployment}
  {tenant counterparty doc : Value} {found : Option Value} {name key clock : String} {flow : Flow}
  {stored : Option Conversation} {outcome : Outcome} {saves : List Conversation}
  {final : Conversation} {s : Remark}

/-- A message is answered as it is told of the conversation that is held, and the last conversation
that is told of it is read afterwards, if the first survives what was found. -/
theorem Holds.call_act (holds : k.Holds n tenant (.str name) key doc found d)
    (hwrites : k.Writes tenant) (hread : Flow.ofValue clock doc = .ok flow)
    (hsteps : flow.steps ≠ []) (hkey : counterpartyKey counterparty = .ok key)
    (hreads : Conversation.read? s.clock found = stored) (hsound : ∀ c, stored = some c → c.IsSound)
    (htold : Turn.Reference flow name s.heard s.moment s.hops.toNat stored outcome saves)
    (hfirst : ∀ c, saves.head? = some c → c.Survives found) (hlast : saves.getLast? = some final) :
    ∃ d', (∀ acts, d.answers r (s.act tenant counterparty name :: acts) =
          .ok (.outcome outcome) :: d'.answers r acts ∧
        d.after r (s.act tenant counterparty name :: acts) = d'.after r acts) ∧
      final.IsSound ∧ ∃ found', k.Holds n tenant (.str name) key doc found' d' ∧
        ∀ clock', Conversation.read? clock' found' = some final := by
  subst hreads
  obtain ⟨outcome', saves', found', hanswered, htold', hsounds, holds', hreads'⟩ :=
    holds.call_inbound hwrites hread hsteps hkey hsound (some s.text) s.time s.hops
  obtain ⟨rfl, rfl⟩ := Turn.Told.unique htold' htold
  refine ⟨_, fun acts => ⟨?_, rfl⟩, hsounds _ (List.mem_of_getLast? hlast), found', holds',
    fun clock' => ?_⟩
  · rw [Remark.act, Deployment.answers, hanswered]
  · rw [hreads' hfirst, hlast, Option.some_or]

/-- A message is answered as it is told of the sound conversation that is read whenever. -/
theorem Holds.call_act_read {c : Conversation}
    (holds : k.Holds n tenant (.str name) key doc found d)
    (hreads : ∀ clock, Conversation.read? clock found = some c) (hsound : c.IsSound)
    (hwrites : k.Writes tenant) (hread : Flow.ofValue clock doc = .ok flow)
    (hsteps : flow.steps ≠ []) (hkey : counterpartyKey counterparty = .ok key)
    (htold : Turn.Reference flow name s.heard s.moment s.hops.toNat (some c) outcome saves)
    (hlast : saves.getLast? = some final) :
    ∃ d', (∀ acts, d.answers r (s.act tenant counterparty name :: acts) =
          .ok (.outcome outcome) :: d'.answers r acts ∧
        d.after r (s.act tenant counterparty name :: acts) = d'.after r acts) ∧
      final.IsSound ∧ ∃ found', k.Holds n tenant (.str name) key doc found' d' ∧
        ∀ clock', Conversation.read? clock' found' = some final :=
  holds.call_act hwrites hread hsteps hkey (hreads s.clock)
    (fun _ hsame => Option.some.inj hsame ▸ hsound) htold
    (fun c hnext => htold.survives (hreads s.clock) hsound c (List.mem_of_head? hnext)) hlast

end Storage

namespace Deployment

open Storage

theorem steps_again : (Preset.leadQualification.steps.map fun e => Entry.ofValue e.storedDocument) =
    Preset.leadQualification.steps := by rfl

/-- A flow that is made from the preset under a name and saved has the steps of the preset when it
is loaded. -/
theorem exists_made_of_saves {d d' : Deployment} {tenant : Value} {name clock begun : String}
    {op : Operation} {answer : Operation.Answer} (hasStore : d.HasStore)
    (hsaves : op.Saves clock tenant (Flow.ofPreset begun .leadQualification name))
    (hsaved : d.call clock op = (.ok answer, d')) (clock' : String) :
    ∃ flow, (d'.call clock' (.loadFlow tenant
        (.str (Flow.ofPreset begun .leadQualification name).name))).1 = .ok (.found (some flow)) ∧
      flow.steps = Preset.leadQualification.steps := by
  have hwellFormed : (Flow.ofPreset begun .leadQualification name).WellFormed :=
    Flow.wellFormed_make _ _ (Flow.wellFormed_steps .leadQualification)
  rw [call, Operation.program_of_saves hsaves] at hsaved
  obtain ⟨existing, hloaded, -, hwrote⟩ := of_saveFlow hasStore hwellFormed hsaved
  have htaken : ¬ d.Retains tenant
      (revised clock (Flow.ofPreset begun .leadQualification name) existing) :=
    hloaded ▸ not_retains_revised (Flow.name_make_ne_empty _ _ _) rfl
      (show Int.natAbs 1 < Nat.pow 2 63 by decide)
  obtain ⟨s, hlies, hdocument⟩ := hwrote.lies htaken
  rw [name_revised] at hlies
  have hbare :
      (revised clock (Flow.ofPreset begun .leadQualification name) existing).extras = [] := by
    cases existing <;> rfl
  have hsteps : (revised clock (Flow.ofPreset begun .leadQualification name) existing).steps =
      Preset.leadQualification.steps := by
    cases existing <;> rfl
  have hsettled : "updated_at" ∉ Keyed.keys
      (revised clock (Flow.ofPreset begun .leadQualification name) existing).extras := by
    simp [hbare]
  obtain ⟨flow, hread⟩ := Flow.exists_ofValue_document (wellFormed_revised hwellFormed existing)
    (fun _ => hsettled) clock'
  refine ⟨flow, load_iff.2 ?_, ?_⟩
  · rw [hlies, Option.bind_some]
    exact Stored.load?_eq_some_iff.2 ⟨_, hdocument, hread⟩
  · rw [Flow.steps_of_ofValue_document hread, hsteps, steps_again]

/-- The built-in flow asks for name, requirement, location and budget.  To a high budget it hands
the conversation over; to another one it asks for the timeline and then sums up.  What is collected
are the answers as they were heard. -/
theorem answers_qualification {k : Storage} {r : Backend.Request} {n : Nat} {d : Deployment}
    {tenant counterparty : Value} {name clock : String} {flow : Flow} {first a₁ a₂ a₃ a₄ : Remark}
    (hkeeps : k.Keeps n d) (hwrites : k.Writes tenant)
    (hloaded : (d.call clock (.loadFlow tenant (.str name))).1 = .ok (.found (some flow)))
    (hmade : flow.steps = Preset.leadQualification.steps)
    (hnobody : (d.call first.clock (.getConversation tenant counterparty)).1 =
      .ok (.conversation none))
    (hgiven : ∀ a ∈ [a₁, a₂, a₃, a₄], a.heard ≠ "") (hops : 1 ≤ a₄.hops) :
    (IsHigh a₄.heard →
      let acts := [first, a₁, a₂, a₃, a₄].map (Remark.act tenant counterparty name)
      d.answers r acts = (questions name first a₁ a₂ a₃ ++ [handover name first a₁ a₂ a₃ a₄]).map
          (fun o => .ok (.outcome o)) ∧
        ∀ clock', ((d.after r acts).call clock' (.getConversation tenant counterparty)).1 =
          .ok (.conversation (handover name first a₁ a₂ a₃ a₄).state)) ∧
    (¬ IsHigh a₄.heard → ∀ a₅ : Remark, a₅.heard ≠ "" →
      let acts := [first, a₁, a₂, a₃, a₄, a₅].map (Remark.act tenant counterparty name)
      d.answers r acts = (questions name first a₁ a₂ a₃ ++
            [lastQuestion name first a₁ a₂ a₃ a₄, summary name first a₁ a₂ a₃ a₄ a₅]).map
          (fun o => .ok (.outcome o)) ∧
        ∀ clock', ((d.after r acts).call clock' (.getConversation tenant counterparty)).1 =
          .ok (.conversation (summary name first a₁ a₂ a₃ a₄ a₅).state)) := by
  have hsteps : flow.steps ≠ [] := by
    rw [hmade]
    exact List.cons_ne_nil _ _
  obtain ⟨hgiven₁, hgiven₂, hgiven₃, hgiven₄⟩ :
      a₁.heard ≠ "" ∧ a₂.heard ≠ "" ∧ a₃.heard ≠ "" ∧ a₄.heard ≠ "" := by simpa using hgiven
  obtain ⟨key, hkey⟩ := exists_counterpartyKey_of_call hnobody
  obtain ⟨doc, found, holds, hread, hreads⟩ := hkeeps.exists_holds hkey hloaded hnobody
  have hgreeting : Turn.Reference flow name first.heard first.moment first.hops.toNat none _ _ :=
    reference_greeting hmade
  have hsurvives : ∀ c, [waits name first first 1 "name" []].head? = some c → c.Survives found := by
    rintro c ⟨⟩
    exact hgreeting.survives_of_none List.mem_cons_self
      (show Int.natAbs 1 < Nat.pow 2 63 by decide)
  -- the first message and the answers up to the location, one call after the other
  obtain ⟨d₁, hgreets, hsound₁, found₁, holds₁, hreads₁⟩ :=
    holds.call_act (r := r) hwrites hread hsteps
    hkey hreads (by simp) hgreeting hsurvives rfl
  obtain ⟨d₂, hasks₁, hsound₂, found₂, holds₂, hreads₂⟩ :=
    holds₁.call_act_read (r := r) hreads₁ hsound₁
    hwrites hread hsteps hkey
    (reference_question hmade hgiven₁ (show collected [a₁.heard] = _ from rfl) rfl (by decide)) rfl
  obtain ⟨d₃, hasks₂, hsound₃, found₃, holds₃, hreads₃⟩ :=
    holds₂.call_act_read (r := r) hreads₂ hsound₂
    hwrites hread hsteps hkey
    (reference_question hmade hgiven₂ (show collected [a₁.heard, a₂.heard] = _ from rfl) rfl
      (by decide)) rfl
  obtain ⟨d₄, hasks₃, hsound₄, found₄, holds₄, hreads₄⟩ :=
    holds₃.call_act_read (r := r) hreads₃ hsound₃
    hwrites hread hsteps hkey
    (reference_question hmade hgiven₃ (show collected [a₁.heard, a₂.heard, a₃.heard] = _ from rfl)
      rfl (by decide)) rfl
  have hstripped : Text.strip a₄.heard = a₄.heard := Step.strip_strip a₄.text
  have hpasses : 1 ≤ a₄.hops.toNat := by omega
  refine ⟨fun high => ?_, fun hlow a₅ hgiven₅ => ?_⟩
  · obtain ⟨d₅, hands, hsound₅, found₅, holds₅, hreads₅⟩ := holds₄.call_act_read (r := r)
      hreads₄ hsound₄ hwrites hread hsteps hkey
        (reference_high hmade hstripped hgiven₄ high hpasses) rfl
    refine ⟨?_, fun clock' => ?_⟩
    · simp only [List.map_cons, List.map_nil, hgreets, hasks₁, hasks₂, hasks₃, hands,
        Deployment.answers]
      rfl
    · simp only [List.map_cons, List.map_nil, hgreets, hasks₁, hasks₂, hasks₃, hands,
        Deployment.after]
      rw [holds₅.call_getConversation hkey, hreads₅]
      rfl
  · obtain ⟨d₅, hasks₄, hsound₅, found₅, holds₅, hreads₅⟩ := holds₄.call_act_read (r := r)
      hreads₄ hsound₄ hwrites hread hsteps hkey (reference_low hmade hstripped hgiven₄ hlow hpasses)
        rfl
    obtain ⟨d₆, hends, hsound₆, found₆, holds₆, hreads₆⟩ := holds₅.call_act_read (r := r)
      hreads₅ hsound₅ hwrites hread hsteps hkey (reference_summary hmade hgiven₅) rfl
    refine ⟨?_, fun clock' => ?_⟩
    · simp only [List.map_cons, List.map_nil, hgreets, hasks₁, hasks₂, hasks₃, hasks₄, hends,
        Deployment.answers]
      rfl
    · simp only [List.map_cons, List.map_nil, hgreets, hasks₁, hasks₂, hasks₃, hasks₄, hends,
        Deployment.after]
      rw [holds₆.call_getConversation hkey, hreads₆]
      rfl

/-! ### A budget of ten lakh -/

/-- A deployment in which the built-in flow was made under a name. -/
def qualifying : Deployment :=
  ((started {}).call "t1" (.createFlow (.str "Acme") (.str "leads") (.str "lead-qualification"))).2

/-- Someone greets and answers, once with what looks like a placeholder. -/
def visit : Nat → Remark
  | 0 => { clock := "t2", text := "hi" }
  | 1 => { clock := "t3", text := " Asha " }
  | 2 => { clock := "t4", text := "\x7b\x7bbudget\x7d\x7d" }
  | 3 => { clock := "t5", text := "Pune" }
  | _ => { clock := "t6", text := "10L", hops := 1 }

theorem isHigh_tenLakh : IsHigh (visit 4).heard :=
  .inl ⟨Double.ofInt 1000000, by decide +kernel, by decide +kernel⟩

/-- The conversation is handed over after the fourth answer. -/
theorem answers_qualification_visit :
    qualifying.answers {} ([visit 0, visit 1, visit 2, visit 3, visit 4].map
        (Remark.act (.str "Acme") (.str "+1 555") "leads")) =
      (questions "leads" (visit 0) (visit 1) (visit 2) (visit 3) ++
        [handover "leads" (visit 0) (visit 1) (visit 2) (visit 3) (visit 4)]).map
          fun o => .ok (.outcome o) := by
  have hkeeps : memory.Keeps 0 qualifying := keeps_memory rfl rfl (by decide)
  have hnobody :
      (qualifying.call (visit 0).clock (.getConversation (.str "Acme") (.str "+1 555"))).1 =
        .ok (.conversation none) := rfl
  have hasStore : (started {}).HasStore := Nat.one_pos
  have hsaved : (started {}).call "t1" (.createFlow (.str "Acme") (.str "leads")
      (.str "lead-qualification")) = (.ok _, qualifying) := rfl
  obtain ⟨flow, hloaded, hmade⟩ := exists_made_of_saves hasStore
    (show Operation.Saves "t1" (.createFlow (.str "Acme") (.str "leads")
      (.str "lead-qualification")) (.str "Acme")
        (Flow.ofPreset "t1" .leadQualification "leads") from ⟨rfl, "leads", rfl, rfl⟩) hsaved "t1"
  have hnamed : (Flow.ofPreset "t1" .leadQualification "leads").name = "leads" := rfl
  rw [hnamed] at hloaded
  have hgiven : ∀ a ∈ [visit 1, visit 2, visit 3, visit 4], a.heard ≠ "" := by decide +kernel
  exact ((answers_qualification hkeeps trivial hloaded hmade hnobody hgiven (by decide)).1
    isHigh_tenLakh).1

end Deployment

end Dialogue

import Dialogue.Proofs.Engine.Message
import Dialogue.Proofs.Flow.Cycles

/-!
# A flow without problems never gets stuck

`Flow.problems` reads a flow and a turn walks it, and the two were made apart: the search for cycles
knows no answers, and the walk knows no graph.  They agree on what matters.  Every move that a turn
can make from a condition is an edge of the graph (`after_of_condition`), so without cycles the
conditions on a silent path are all different (`Visits.cons`), and a turn that may pass as
many conditions as the flow has is never cut off.

## Main statements

* `length_lt_conditions`: a silent path to a condition passes fewer conditions than the flow has.
* `told_isOk`: a turn through a flow without problems goes well.
* `handle_of_problems_eq_nil`: so does a message.
-/

namespace Dialogue

/-- Whether what stands at a place of a flow is a condition. -/
def Entry.isCondition : Entry → Bool
  | .step ⟨_, .condition _ _ _, _⟩ => true
  | _ => false

/-- Whether an event complains about the flow of a turn: a step that was skipped, an expression that
could not be read, or too many conditions. -/
def Event.isComplaint : Event → Bool
  | .stepSkipped _ _ | .conditionUnreadable _ | .hopLimit _ _ _ _ _ => true
  | _ => false

namespace Flow

open Turn

/-- The number of conditions in a flow. -/
def conditions (flow : Flow) : Nat := flow.steps.countP Entry.isCondition

variable {flow : Flow} {i : Int} {expr : Option String} {thenTarget elseTarget taken : Option Int}

theorem entry?_eq_some_iff {e : Entry} :
    flow.entry? i = some e ↔ 0 ≤ i ∧ flow.steps[i.toNat]? = some e := by
  unfold entry?
  by_cases hnonneg : 0 ≤ i <;> simp [hnonneg]

/-! ## What an empty report says -/

theorem steps_ne_nil (hclean : flow.problems = []) : flow.steps ≠ [] := by
  intro hempty
  simp [problems, hempty] at hclean

theorem cycles_eq_nil (hclean : flow.problems = []) : flow.cycles = [] := by
  simp only [problems, List.append_eq_nil_iff, List.map_eq_nil_iff] at hclean
  exact hclean.2

theorem entryProblems_eq_nil (hclean : flow.problems = []) {e : Entry}
    (hentry : flow.entry? i = some e) : flow.entryProblems i.toNat e = [] := by
  simp only [problems, List.append_eq_nil_iff, List.flatMap_eq_nil_iff] at hclean
  exact hclean.1.2 (e, i.toNat) (List.mem_zipIdx_iff_getElem?.2 (entry?_eq_some_iff.1 hentry).2)

theorem not_malformed (hclean : flow.problems = []) (raw : Value) (reason : String) :
    flow.entry? i ≠ some (.malformed raw reason) := fun hentry =>
  List.cons_ne_nil _ _ (entryProblems_eq_nil hclean hentry)

/-- A condition in a flow without problems can be read, and its targets are steps of the flow. -/
theorem condition_of_problems_eq_nil (hclean : flow.problems = [])
    (hcondition : IsCondition flow i expr thenTarget elseTarget) :
    (∃ e c, expr = some e ∧ Condition.parse? e = some c) ∧
      (∀ target, thenTarget = some target ∨ elseTarget = some target →
        flow.inRange target = true) := by
  obtain ⟨s, hentry, haction⟩ := hcondition
  have hnone := entryProblems_eq_nil hclean hentry
  simp only [entryProblems, haction, List.append_eq_nil_iff] at hnone
  obtain ⟨⟨hreadable, hthenInside⟩, helseInside⟩ := hnone
  refine ⟨?_, ?_⟩
  · cases expr with
    | none => exact absurd hreadable (List.cons_ne_nil _ _)
    | some e =>
      by_cases hblank : Text.isBlankText e = true
      · simp [expressionProblem, hblank] at hreadable
      · cases hparsed : Condition.parse? e with
        | none => simp [expressionProblem, hblank, hparsed] at hreadable
        | some c => exact ⟨e, c, rfl, hparsed⟩
  · rintro target (rfl | rfl)
    · simpa [targetProblem] using hthenInside
    · simpa [targetProblem] using helseInside

/-! ## The conditions on a silent path -/

/-- Where a branch leads inside the flow is an edge of the graph of silent steps. -/
theorem after_of_condition (hcondition : IsCondition flow i expr thenTarget elseTarget)
    (hbranches : taken = thenTarget ∨ taken = elseTarget)
    (hinside : flow.inRange (landing i taken) = true) :
    flow.After (landing i taken).toNat i.toNat := by
  obtain ⟨s, hentry, haction⟩ := hcondition
  obtain ⟨hnonneg, hplace⟩ := entry?_eq_some_iff.1 hentry
  have hlands : branch i.toNat taken = landing i taken := by
    rw [← nextIndex_eq_landing, branch, nextIndex, Int.toNat_of_nonneg hnonneg]
  refine List.mem_filterMap.2 ⟨landing i taken, ?_, if_pos hinside⟩
  simp only [silentSuccessors, hplace, haction, List.mem_cons, List.not_mem_nil, or_false]
  rcases hbranches with rfl | rfl
  · exact .inl hlands.symm
  · exact .inr hlands.symm

theorem inRange_of_condition (hcondition : IsCondition flow i expr thenTarget elseTarget) :
    flow.inRange i = true := by
  obtain ⟨s, hentry, -⟩ := hcondition
  rw [← isSome_entry?, hentry]
  rfl

theorem isCondition_of_condition (hcondition : IsCondition flow i expr thenTarget elseTarget) :
    ∃ e, flow.steps[i.toNat]? = some e ∧ e.isCondition = true := by
  obtain ⟨⟨id, action, extras⟩, hentry, rfl⟩ := hcondition
  exact ⟨_, (entry?_eq_some_iff.1 hentry).2, rfl⟩

/-- As many different conditions, all of them at a step or silently after it. -/
def Visits (flow : Flow) (i : Int) (n : Nat) : Prop :=
  flow.inRange i = true ∧ ∃ visited : List Nat, visited.length = n ∧ visited.Nodup ∧
    ∀ v ∈ visited, (∃ e, flow.steps[v]? = some e ∧ e.isCondition = true) ∧
      (v = i.toNat ∨ Relation.TransGen flow.After v i.toNat)

theorem Visits.one (hcondition : IsCondition flow i expr thenTarget elseTarget) :
    flow.Visits i 1 := by
  refine ⟨inRange_of_condition hcondition, [i.toNat], rfl, by simp, fun v hv => ?_⟩
  rw [List.mem_singleton.1 hv]
  exact ⟨isCondition_of_condition hcondition, .inl rfl⟩

/-- A condition in front is a new one, since otherwise it would lead back to itself. -/
theorem Visits.cons (hclean : flow.problems = []) {n : Nat}
    (hcondition : IsCondition flow i expr thenTarget elseTarget)
    (hbranches : taken = thenTarget ∨ taken = elseTarget)
    (hrest : flow.Visits (landing i taken) n) :
    flow.Visits i (n + 1) := by
  obtain ⟨hinside, visited, hlength, hnodup, hall⟩ := hrest
  have hafter := after_of_condition hcondition hbranches hinside
  have hbelow : ∀ v ∈ visited, Relation.TransGen flow.After v i.toNat := by
    intro v hv
    rcases (hall v hv).2 with rfl | hfurther
    · exact .single hafter
    · exact .tail hfurther hafter
  have hstart := inRange_of_condition hcondition
  have hinFlow : i.toNat < flow.size := by
    simp only [inRange, Bool.and_eq_true, decide_eq_true_eq] at hstart
    omega
  have hfresh : i.toNat ∉ visited := fun hback =>
    not_comesBack (quiet_of_cycles_eq_nil (cycles_eq_nil hclean) hinFlow) (hbelow _ hback)
  refine ⟨hstart, i.toNat :: visited, by simp [hlength], List.nodup_cons.2 ⟨hfresh, hnodup⟩,
    fun v hv => ?_⟩
  rcases List.mem_cons.1 hv with rfl | hv
  · exact ⟨isCondition_of_condition hcondition, .inl rfl⟩
  · exact ⟨(hall v hv).1, .inr (hbelow v hv)⟩

/-- In a flow without problems the conditions on a silent path to a condition, that one included,
are all different. -/
theorem visits_of_path (hclean : flow.problems = []) {text : String} {data : Fields}
    {ks : List Int} {j : Int} (hpath : SilentPath flow text data i ks j)
    (hcondition : IsCondition flow j expr thenTarget elseTarget) :
    flow.Visits i (ks.length + 1) := by
  induction hpath with
  | here i => exact .one hcondition
  | skip hmalformed _ _ => exact absurd hmalformed (not_malformed hclean _ _)
  | holds here _ _ ih => exact .cons hclean here (.inl rfl) (ih hcondition)
  | fails here _ _ ih => exact .cons hclean here (.inr rfl) (ih hcondition)

/-- Places of a list without repetition at which something is true are no more than it is true of.
-/
theorem length_le_countP {α : Type} (p : α → Bool) (xs : List α) {places : List Nat}
    (hnodup : places.Nodup) (hall : ∀ v ∈ places, ∃ x, xs[v]? = some x ∧ p x = true) :
    places.length ≤ xs.countP p := by
  have hinside : places ⊆ (xs.zipIdx.filter fun e => p e.1).map (·.2) := by
    intro v hv
    obtain ⟨x, hplace, holds⟩ := hall v hv
    exact List.mem_map.2
      ⟨(x, v), List.mem_filter.2 ⟨List.mem_zipIdx_iff_getElem?.2 hplace, holds⟩, rfl⟩
  have hbound := hnodup.length_le_of_subset hinside
  rw [List.length_map, ← List.countP_eq_length_filter] at hbound
  calc places.length ≤ xs.zipIdx.countP fun e => p e.1 := hbound
    _ = (xs.zipIdx.map (·.1)).countP p := by rw [List.countP_map]; rfl
    _ = xs.countP p := by rw [List.zipIdx_map_fst]

/-- On a silent path to a condition fewer conditions are passed than the flow has. -/
theorem length_lt_conditions (hclean : flow.problems = []) {text : String} {data : Fields}
    {ks : List Int} {j : Int} (hpath : SilentPath flow text data i ks j)
    (hcondition : IsCondition flow j expr thenTarget elseTarget) : ks.length < flow.conditions := by
  obtain ⟨-, visited, hlength, hnodup, hall⟩ := visits_of_path hclean hpath hcondition
  have hbound := length_le_countP Entry.isCondition flow.steps hnodup fun v hv => (hall v hv).1
  rw [hlength] at hbound
  exact hbound

/-! ## Turns and messages -/

/-- A turn through a flow without problems goes well if it may pass as many conditions as the flow
has. -/
theorem told_isOk (hclean : flow.problems = []) {text now : String} {limit : Nat}
    (henough : flow.conditions ≤ limit) {c : Conversation} {outcome : Outcome}
    {saves : List Conversation} (htold : Told flow text now limit c outcome saves) :
    outcome.isOk = true := by
  cases htold with
  | limit hpath hspent hcondition =>
    have hfewer := length_lt_conditions hclean hpath hcondition
    omega
  | ends hpath hwithin hspoken => rfl

/-- A condition leads to a step of the flow, or past its end where a missing target falls through
from the last step. -/
theorem landing_of_condition (hclean : flow.problems = [])
    (hcondition : IsCondition flow i expr thenTarget elseTarget)
    (hbranches : taken = thenTarget ∨ taken = elseTarget) :
    flow.inRange (landing i taken) = true ∨ taken = none ∧ i + 1 = flow.size := by
  have hinside := inRange_of_condition hcondition
  simp only [inRange, Bool.and_eq_true, decide_eq_true_eq] at hinside ⊢
  cases taken with
  | none =>
    by_cases hlast : i + 1 = flow.size
    · exact .inr ⟨rfl, hlast⟩
    · exact .inl (by simp only [landing]; omega)
  | some target =>
    have hplace := (condition_of_problems_eq_nil hclean hcondition).2 target
      (hbranches.imp Eq.symm Eq.symm)
    simp only [inRange, Bool.and_eq_true, decide_eq_true_eq] at hplace
    simp only [landing]
    split <;> omega

theorem logged_emit (ctx : Context) (c : Conversation) (action : TurnAction)
    (message : Option String) :
    ∀ e ∈ logged (emit ctx c action message).1, e.isComplaint = false := by
  simp [emit, logged, Event.isComplaint]

theorem logged_speak (ctx : Context) (flow : Flow) (c : Conversation) (action : Step.Action) :
    ∀ e ∈ logged (speak ctx flow c action).1, e.isComplaint = false := by
  cases action with
  | question field text => exact logged_emit _ _ _ _
  | reply text =>
    simp only [speak]
    split <;> exact logged_emit _ _ _ _
  | handoff reason text =>
    simp only [speak, handOver]
    split
    · exact logged_emit _ _ _ _
    · simp [logged]
  | finish text => exact logged_emit _ _ _ _
  | condition expr thenTarget elseTarget => exact logged_emit _ _ _ _

/-- A walk through a flow without problems complains of nothing, unless it is stuck. -/
theorem logged_walk (hclean : flow.problems = []) (ctx : Context) (budget : Nat)
    (c : Conversation) :
    (∃ state, (walk ctx flow budget c).2 = .ok (.stuck state)) ∨
      ∀ e ∈ logged (walk ctx flow budget c).1, e.isComplaint = false := by
  induction budget, c using walk.induct ctx flow with
  | case1 budget c hnothing =>
    rw [walk_outside hnothing]
    exact .inr (logged_emit _ _ _ _)
  | case2 budget c raw reason hmalformed => exact absurd hmalformed (not_malformed hclean _ _)
  | case3 c s hentry expr thenTarget elseTarget haction =>
    rw [walk_condition_zero ⟨s, hentry, haction⟩]
    exact .inl ⟨c, rfl⟩
  | case4 c s hentry expr thenTarget elseTarget haction budget taken c' _ _ _ ih =>
    have hcondition : IsCondition flow c.stepIndex expr thenTarget elseTarget :=
      ⟨s, hentry, haction⟩
    obtain ⟨⟨e, parsed, rfl, hreadable⟩, -⟩ := condition_of_problems_eq_nil hclean hcondition
    have hsilent : unreadableEvents (some e) = [] := by simp [unreadableEvents, hreadable]
    have hmoved : c' = c.moved (landing c.stepIndex taken) := by
      rw [← nextIndex_eq_landing]
      rfl
    rw [walk_condition_succ hcondition taken (by simp [taken]), ← hmoved, hsilent]
    exact ih
  | case5 budget c s hentry hspeaks =>
    rw [walk_speaks hentry fun expr thenTarget elseTarget h => hspeaks _ _ _ h]
    exact .inr (logged_speak _ _ _ _)

/-- A message to a flow without problems goes well if it may pass as many conditions as the flow
has.  No event on the way complains of the flow.  Wherever the silent path from its first step
leads, nothing malformed stands there, and a condition that stands there can be read and leads to a
step of the flow, or past its end where a missing target falls through from the last step. -/
theorem handle_of_problems_eq_nil {σ : Type} {access : (a : Store.Access) → Run σ a.Answer}
    {log : Event → σ → σ} {tenant counterparty : Value} {key name clock : String} {s s₁ s₂ : σ}
    {Good : σ → Prop} {stored : Option Conversation} {hops : Int} (text now : Option String)
    (hclean : flow.problems = []) (henough : (flow.conditions : Int) ≤ hops)
    (hkey : Store.counterpartyKey counterparty = .ok key)
    (hloaded : access (.loadFlow tenant (.str name)) s = (.ok (some flow), s₁))
    (hfetched : (Store.getConversation clock tenant counterparty).run access log s₁ =
      (.ok stored, s₂))
    (htakes : Inbound.Takes access log (Identifier.safeName tenant) key Good) (hgood : Good s₂) :
    let message :=
      Inbound.handle clock hops (Inbound.ofTexts tenant counterparty text name now)
    let start := answered (Inbound.stripped text)
      (resumed name (Inbound.timeOf clock now) stored)
    (∃ outcome, (message.run access log s).1 = .ok outcome ∧ outcome.isOk = true) ∧
      (∀ e ∈ message.events access log s, e.isComplaint = false) ∧
      ∀ ks j, SilentPath flow (Inbound.stripped text) start.data start.stepIndex ks j →
        (∀ raw reason, flow.entry? j ≠ some (.malformed raw reason)) ∧
        ∀ expr thenTarget elseTarget, IsCondition flow j expr thenTarget elseTarget →
          (∃ e c, expr = some e ∧ Condition.parse? e = some c) ∧
          ∀ taken, taken = thenTarget ∨ taken = elseTarget →
            flow.inRange (landing j taken) = true ∨ taken = none ∧ j + 1 = flow.size := by
  intro message start
  let ctx := Inbound.context hops tenant counterparty text (Inbound.timeOf clock now)
  have htaken : Turn.run ctx flow (resumed name (Inbound.timeOf clock now) stored) =
      walk ctx flow hops.toNat start := by
    rw [Turn.run, Inbound.record_eq]
    rfl
  obtain ⟨outcome, hfine, htold⟩ := told_walk (show ctx.now = _ from rfl) flow hops.toNat start
  have hok := told_isOk hclean (by omega) htold
  have hquiet : ∀ e ∈ logged (walk ctx flow hops.toNat start).1, e.isComplaint = false := by
    rcases logged_walk hclean ctx hops.toNat start with ⟨state, hstuck⟩ | hquiet
    · rw [Except.ok.inj (hfine.symm.trans hstuck)] at hok
      cases hok
    · exact hquiet
  obtain ⟨hran, -, hevents⟩ := Inbound.handle_spec log hkey (steps_ne_nil hclean) hloaded
    hfetched htakes hgood htaken hfine
  refine ⟨⟨outcome, hran, hok⟩, fun e he => ?_, fun ks j _ => ⟨fun raw reason =>
    not_malformed hclean raw reason, fun expr thenTarget elseTarget hcondition =>
    ⟨(condition_of_problems_eq_nil hclean hcondition).1, fun taken hbranches =>
      landing_of_condition hclean hcondition hbranches⟩⟩⟩
  rw [hevents] at he
  rcases List.mem_append.1 he with he | he
  · rw [Inbound.events_getConversation hkey s₁ e he]
    rfl
  · exact hquiet e he

/-- A flow that thanks whoever named a city and otherwise asks for it. -/
def thanksFlow : Flow where
  id := "intake"
  name := "intake"
  createdAt := "t0"
  steps :=
    [.step { id := Step.freshId, action := .condition (some "city != none") (some 1) (some 2) },
     .step { id := Step.freshId, action := .finish (some "Thanks.") },
     .step { id := Step.freshId, action := .question "city" "Where?" }]

/-- A store in memory with that flow and no conversation. -/
def thanksStore : Traced Store.Memory where
  state := { flows := [(("acme", "intake"), .dict thanksFlow.document)] }

/-- A message to `thanksFlow` goes well. -/
theorem handle_of_problems_eq_nil_thanks :
    thanksFlow.problems = [] ∧ thanksFlow.conditions = 1 ∧
      ∃ outcome, ((Inbound.handle "t1" 1 (Inbound.ofTexts (.str "Acme") (.str "+1 555")
        (some "Hello") "intake" (some "t2"))).run (Store.Memory.access "t1") Traced.log
          thanksStore).1 = .ok outcome ∧ outcome.isOk = true := by
  have hacyclic : thanksFlow.cycles = [] := by
    simp [cycles, thanksFlow, size, List.range, List.range.loop, visit, follow, silentEdges,
      silentSuccessors, branch, inRange, Step.target?, Option.filter]
  have hclean : thanksFlow.problems = [] := by
    rw [problems, hacyclic]
    rfl
  have hloaded : Store.Memory.access "t1" (.loadFlow (.str "Acme") (.str "intake")) thanksStore =
      (.ok (some thanksFlow), thanksStore) := rfl
  have hfetched : (Store.getConversation "t1" (.str "Acme") (.str "+1 555")).run
      (Store.Memory.access "t1") Traced.log thanksStore = (.ok none, thanksStore) := rfl
  refine ⟨hclean, by decide, ?_⟩
  have hkey : Store.counterpartyKey (.str "+1 555") = .ok "1555" := rfl
  exact (handle_of_problems_eq_nil (some "Hello") (some "t2") hclean (by decide) hkey hloaded
    hfetched
    (Inbound.takes_memory "t1" "acme" "1555") trivial).1

end Flow

end Dialogue

import Dialogue.Proofs.Engine.Holding
import Dialogue.Proofs.Engine.Rounds
import Dialogue.Proofs.Flow.Checked

/-!
# Steps behind the last one

A flow grows when steps are put behind its last one.  Every step number that it had means what it
meant, so a silent path is still one (`SilentPath.of_grows`).  Whether a turn notices the new steps
depends on where it ended: it does not if it was stuck, asked, handed over or finished, or if it
replied before the last step (`Outcome.IsWithin`).  A turn that reached the end of the flow may go
on where there are new steps, and so may the look behind a reply at the last step.

What a turn leaves behind is then the same, but for the step number of a conversation that is over,
which is always that behind the last step (`Outcome.grown`).
-/

namespace Dialogue

namespace Outcome

/-- A turn that ended before the end of a flow of so many steps. -/
inductive IsWithin (size : Nat) : Outcome → Prop where
  | stuck (c : Conversation) : IsWithin size (.stuck c)
  | asked (message : Option String) (c : Conversation) : IsWithin size (.acted .ask message c)
  | replied (message : Option String) {c : Conversation} (inside : c.stepIndex < size) :
      IsWithin size (.acted .reply message c)
  | handedOver (message : Option String) (c : Conversation) :
      IsWithin size (.acted .handoff message c)
  | finished (message : Option String) (c : Conversation) :
      IsWithin size (.acted .finish message c)

/-- The outcome in a flow of so many steps: a conversation that is over stands behind them. -/
def grown (size : Nat) : Outcome → Outcome
  | .acted .handoff message c => .acted .handoff message (c.moved size)
  | .acted .finish message c => .acted .finish message (c.moved size)
  | outcome => outcome

end Outcome

namespace Turn

variable {flow flow' : Flow} {text now : String} {limit : Nat} {c : Conversation}

section

variable (hgrows : flow.steps <+: flow'.steps)

include hgrows

theorem entry?_of_grows {index : Int} {e : Entry} (hentry : flow.entry? index = some e) :
    flow'.entry? index = some e := by
  obtain ⟨hnonneg, hthere⟩ := Flow.entry?_eq_some_iff.1 hentry
  obtain ⟨hinside, -⟩ := List.getElem?_eq_some_iff.1 hthere
  obtain ⟨added, hwhole⟩ := hgrows
  refine Flow.entry?_eq_some_iff.2 ⟨hnonneg, ?_⟩
  rw [← hwhole, List.getElem?_append_left hinside, hthere]

theorem entry?_eq_of_grows {index : Int} (hinside : index < flow.size) :
    flow'.entry? index = flow.entry? index := by
  by_cases hnonneg : 0 ≤ index
  · obtain ⟨e, hentry⟩ : ∃ e, flow.entry? index = some e := by
      refine Option.isSome_iff_exists.1 ?_
      rw [Flow.isSome_entry?]
      simp [Flow.inRange, hnonneg, hinside]
    rw [hentry, entry?_of_grows hgrows hentry]
  · rw [Flow.entry?, Flow.entry?, if_neg hnonneg, if_neg hnonneg]

theorem IsCondition.of_grows {index : Int} {expr : Option String}
    {thenTarget elseTarget : Option Int}
    (hcondition : IsCondition flow index expr thenTarget elseTarget) :
    IsCondition flow' index expr thenTarget elseTarget := by
  obtain ⟨s, hentry, haction⟩ := hcondition
  exact ⟨s, entry?_of_grows hgrows hentry, haction⟩

/-- A silent path leads through steps of the flow, and so it is one in the grown flow. -/
theorem SilentPath.of_grows {data : Fields} {i j : Int} {ks : List Int}
    (hpath : SilentPath flow text data i ks j) : SilentPath flow' text data i ks j := by
  induction hpath with
  | here i => exact .here i
  | skip hmalformed hrest ih => exact .skip (entry?_of_grows hgrows hmalformed) ih
  | holds hcondition hfavours hrest ih => exact .holds (hcondition.of_grows hgrows) hfavours ih
  | fails hcondition hdisfavours hrest ih =>
    exact .fails (hcondition.of_grows hgrows) hdisfavours ih

/-- What is said before the end of the flow is said in the grown flow. -/
theorem Spoken.of_grows {action : TurnAction} {message : Option String} {final : Conversation}
    (hspoken : Spoken flow now c action message final)
    (hwithin : (Outcome.acted action message final).IsWithin flow.size) :
    ∃ final', Spoken flow' now c action message final' ∧
      Outcome.acted action message final' =
        (Outcome.acted action message final).grown flow'.size := by
  cases hspoken with
  | outside hnothing => cases hwithin
  | question hasks =>
    obtain ⟨s, hentry, haction⟩ := hasks
    exact ⟨_, .question ⟨s, entry?_of_grows hgrows hentry, haction⟩, rfl⟩
  | replyAndQuestion hentry hreplies hasks =>
    obtain ⟨s, hnext, haction⟩ := hasks
    exact ⟨_, .replyAndQuestion (entry?_of_grows hgrows hentry) hreplies
      ⟨s, entry?_of_grows hgrows hnext, haction⟩, rfl⟩
  | reply hentry hreplies halone =>
    -- the step behind the reply is one of the flow, so there is no new question behind it
    have hinside : c.stepIndex + 1 < flow.size := by
      cases hwithin with
      | replied _ hinside => exact hinside
    refine ⟨_, .reply (entry?_of_grows hgrows hentry) hreplies ?_, rfl⟩
    intro field question hasks
    obtain ⟨s, hnext, haction⟩ := hasks
    rw [entry?_eq_of_grows hgrows hinside] at hnext
    exact halone field question ⟨s, hnext, haction⟩
  | handoff hentry hands => exact ⟨_, .handoff (entry?_of_grows hgrows hentry) hands, rfl⟩
  | finish hentry hends => exact ⟨_, .finish (entry?_of_grows hgrows hentry) hends, rfl⟩

theorem Told.of_grows {outcome : Outcome} {saves : List Conversation}
    (htold : Told flow text now limit c outcome saves) (hwithin : outcome.IsWithin flow.size) :
    ∃ saves', Told flow' text now limit c (outcome.grown flow'.size) saves' := by
  cases htold with
  | limit hpath hspent hcondition =>
    exact ⟨_, .limit (hpath.of_grows hgrows) hspent (hcondition.of_grows hgrows)⟩
  | ends hpath hinLimit hspoken =>
    obtain ⟨final', hspoken', hsame⟩ := hspoken.of_grows hgrows hwithin
    rw [← hsame]
    exact ⟨_, .ends (hpath.of_grows hgrows) hinLimit hspoken'⟩

end

end Turn

namespace Inbound

open Program

variable {σ : Type} {access : (a : Store.Access) → Run σ a.Answer} {log : Event → σ → σ}
  {Good : σ → Prop} {tenant counterparty : Value} {key name clock : String} {s s₁ s₂ t t₁ t₂ : σ}

/-- A message to a flow with steps comes to an outcome exactly if that is told of it. -/
theorem run_handle_eq_ok_iff {flow : Flow} {stored : Option Conversation} {outcome : Outcome}
    (hops : Int) (text now : Option String) (hkey : Store.counterpartyKey counterparty = .ok key)
    (hsteps : flow.steps ≠ [])
    (hloaded : access (.loadFlow tenant (.str name)) s = (.ok (some flow), s₁))
    (hfetched : (Store.getConversation clock tenant counterparty).run access log s₁ =
      (.ok stored, s₂))
    (htakes : Takes access log (Identifier.safeName tenant) key Good) (hgood : Good s₂) :
    ((handle clock hops (ofTexts tenant counterparty text name now)).run access log s).1 =
        .ok outcome ↔
      ∃ saves, Turn.Reference flow name (stripped text) (timeOf clock now) hops.toNat stored outcome
        saves := by
  obtain ⟨effects, reached, hdoes, htold, -⟩ :=
    exists_afterReading hops tenant counterparty text name (timeOf clock now) flow stored
  obtain ⟨⟨u, hcarried, -⟩, -, -⟩ := carryOut_spec log hkey htakes effects s₂ hgood
  have hcomes : ((handle clock hops (ofTexts tenant counterparty text name now)).run
      access log s).1 = .ok reached := by
    rw [run_handle hsteps hloaded hfetched, hdoes, run_bind_apply, hcarried]
    rfl
  rw [hcomes]
  constructor
  · intro hsame
    cases hsame
    exact ⟨_, htold⟩
  · rintro ⟨saves, htold'⟩
    obtain ⟨rfl, -⟩ := htold.unique htold'
    rfl

/-- Steps may be put behind the last one while conversations go on: a message whose turn ends before
the end of the flow comes to the same in the grown flow. -/
theorem handle_of_grows {flow flow' : Flow} {stored : Option Conversation} {outcome : Outcome}
    (hops : Int) (text now : Option String)
    (hkey : Store.counterpartyKey counterparty = .ok key) (hgrows : flow.steps <+: flow'.steps)
    (hloaded : access (.loadFlow tenant (.str name)) s = (.ok (some flow), s₁))
    (hloaded' : access (.loadFlow tenant (.str name)) t = (.ok (some flow'), t₁))
    (hfetched : (Store.getConversation clock tenant counterparty).run access log s₁ =
      (.ok stored, s₂))
    (hfetched' : (Store.getConversation clock tenant counterparty).run access log t₁ =
      (.ok stored, t₂))
    (htakes : Takes access log (Identifier.safeName tenant) key Good) (hgood : Good s₂)
    (hgood' : Good t₂)
    (hran : ((handle clock hops (ofTexts tenant counterparty text name now)).run
      access log s).1 = .ok outcome)
    (hwithin : outcome.IsWithin flow.size) :
    ((handle clock hops (ofTexts tenant counterparty text name now)).run
      access log t).1 = .ok (outcome.grown flow'.size) := by
  have hsteps : flow.steps ≠ [] := by
    intro hempty
    have hnothing : ((handle clock hops (ofTexts tenant counterparty text name now)).run
        access log s).1 = .ok (.empty name) := (handle_empty hops text now hloaded hempty).1
    rw [hran] at hnothing
    cases hnothing
    cases hwithin
  have hsteps' : flow'.steps ≠ [] := by
    intro hempty
    exact hsteps (List.prefix_nil.1 (hempty ▸ hgrows))
  obtain ⟨saves, htold⟩ :=
    (run_handle_eq_ok_iff hops text now hkey hsteps hloaded hfetched htakes hgood).1 hran
  obtain ⟨saves', htold'⟩ := htold.of_grows hgrows hwithin
  exact (run_handle_eq_ok_iff hops text now hkey hsteps' hloaded' hfetched' htakes hgood').2
    ⟨saves', htold'⟩

/-- A flow that says goodbye at once. -/
def farewell : Flow where
  id := "intake"
  name := "intake"
  createdAt := "t0"
  steps := [.step { id := Step.freshId, action := .finish (some "Bye.") }]

/-- The flow `farewell` with a question behind its last step. -/
def farewellAndMore : Flow :=
  { farewell with
    steps := farewell.steps ++ [.step { id := Step.freshId, action := .question "city" "Where?" }] }

/-- A store in memory with a flow and no conversation. -/
def storeOf (flow : Flow) : Traced Store.Memory where
  state := { flows := [(("acme", "intake"), .dict flow.document)] }

/-- A message to `farewell` comes to the same where there is more behind it. -/
theorem handle_of_grows_farewell :
    ∃ outcome, outcome.IsWithin farewell.size ∧
      ((handle "t1" 8 (ofTexts (.str "Acme") (.str "+1 555") (some "Hi") "intake"
        (some "t2"))).run (Store.Memory.access "t1") Traced.log (storeOf farewell)).1 =
          .ok outcome ∧
      ((handle "t1" 8 (ofTexts (.str "Acme") (.str "+1 555") (some "Hi") "intake"
        (some "t2"))).run (Store.Memory.access "t1") Traced.log (storeOf farewellAndMore)).1 =
          .ok (outcome.grown farewellAndMore.size) := by
  have hloaded : Store.Memory.access "t1" (.loadFlow (.str "Acme") (.str "intake"))
      (storeOf farewell) = (.ok (some farewell), storeOf farewell) := rfl
  have hloaded' : Store.Memory.access "t1" (.loadFlow (.str "Acme") (.str "intake"))
      (storeOf farewellAndMore) = (.ok (some farewellAndMore), storeOf farewellAndMore) := rfl
  have hfetched (flow : Flow) : (Store.getConversation "t1" (.str "Acme") (.str "+1 555")).run
      (Store.Memory.access "t1") Traced.log (storeOf flow) = (.ok none, storeOf flow) := rfl
  have hkey : Store.counterpartyKey (.str "+1 555") = .ok "1555" := rfl
  have htakes := takes_memory "t1" "acme" "1555"
  have hsteps : farewell.steps ≠ [] := List.cons_ne_nil _ _
  have hsaid : Turn.Reference farewell "intake" "Hi" "t2" 8 none _ _ :=
    .ends (.here 0) (Nat.zero_le 8) (.finish rfl rfl)
  have hran := (run_handle_eq_ok_iff 8 (some "Hi") (some "t2") hkey hsteps hloaded
    (hfetched farewell)
    htakes trivial).2 ⟨_, hsaid⟩
  refine ⟨_, .finished _ _, hran, ?_⟩
  exact handle_of_grows 8 (some "Hi") (some "t2") hkey ⟨_, rfl⟩ hloaded hloaded' (hfetched farewell)
    (hfetched farewellAndMore) htakes trivial trivial hran (.finished _ _)

end Inbound

end Dialogue

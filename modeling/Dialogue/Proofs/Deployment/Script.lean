import Dialogue.Proofs.Deployment.Exchange
import Dialogue.Proofs.Engine.Script
import Mathlib.Data.List.Forall2

/-!
# Scripts are told completely

A counterparty without a conversation is told a flow without conditions from its first step on, as
the script of the flow has it (`Deployment.answers_tell_script`).  Every text that is not blank
brings the next emission, whatever kind of store there is, and the text after a question is what is
collected for it, without the white space around it.

A flow without steps tells nothing, and a message to it is no success; and white space around a text
is not collected (`Deployment.not_answers_tell_script`).
-/

namespace Dialogue

open Store Script

/-- A message of a counterparty as it comes in: the time of the clock, its text, the time that it
brings, and the number of conditions that may pass. -/
structure Remark where
  clock : String
  text : String
  time : Option String := none
  hops : Int := 8

namespace Remark

/-- The call for a message to a flow. -/
def act (tenant counterparty : Value) (name : String) (s : Remark) : Act :=
  .call s.clock (.inbound tenant counterparty (some s.text) name s.time s.hops)

/-- The text of a message as it is heard, without white space around it. -/
def heard (s : Remark) : String := Text.strip s.text

/-- A message that is not blank, at some time. -/
structure IsGiven (s : Remark) : Prop where
  given : s.heard ≠ ""
  timed : Inbound.timeOf s.clock s.time ≠ ""

end Remark

/-- A call answers what is reported. -/
def Script.Report.IsAnsweredBy (r : Report) (answer : Except Failure Operation.Answer) : Prop :=
  ∃ outcome, answer = .ok (.outcome outcome) ∧ r.IsOf outcome

theorem Script.Report.IsAnsweredBy.data_eq {r r' : Report}
    {answer : Except Failure Operation.Answer} (hfirst : r.IsAnsweredBy answer)
    (hsecond : r'.IsAnsweredBy answer) : r.data = r'.data := by
  obtain ⟨_, hanswered, c, rfl, hdata⟩ := hfirst
  obtain ⟨_, hanswered', c', rfl, hdata'⟩ := hsecond
  have hsame := hanswered.symm.trans hanswered'
  simp only [Except.ok.injEq, Operation.Answer.outcome.injEq, Outcome.acted.injEq] at hsame
  rw [← hdata, ← hdata', hsame.2.2]

/-- What a run of calls comes to that a flow is told in from its first step on. -/
def Flow.reports (flow : Flow) (texts : List String) : List Report :=
  Script.reports flow.script { todo := flow.script } texts

namespace Storage

variable {k : Storage} {r : Backend.Request} {now clock name key : String} {n : Nat}
  {d : Deployment} {m : Memory} {tenant counterparty : Value} {flow : Flow}

theorem Serves.flow?_of_load (hserves : k.Serves r now n d m) (htidy : m.Tidy) {name : Value}
    {found : Option Flow}
    (hloaded : (d.call clock (.loadFlow tenant name)).1 = .ok (.found found)) :
    m.flow? clock (flowKey tenant name) = found := by
  have hfollows := hserves.follows htidy clock (.loadFlow tenant name) trivial
  rw [call_eq (.loadFlow tenant name) rfl] at hloaded
  revert hfollows hloaded
  rcases Deployment.access d.engine (.loadFlow tenant name) { d with clock } with ⟨f | answer, t⟩
  · intro hloaded
    cases hloaded
  · intro hloaded hfollows
    cases hloaded
    exact hfollows.1.symm

/-- A call whose accesses are granted comes to what its program comes to on contents. -/
theorem Serves.comes {op : Operation} {Q : Memory → Operation.Answer → Prop}
    (hserves : k.Serves r now n d m) (hcomes : (op.program clock).Comes clock k.Takes Q m)
    (hdiscerns : (op.program clock).Discerns clock m) :
    ∃ a m', (d.call clock op).1 = .ok a ∧ k.Serves r clock n (d.call clock op).2 m' ∧ Q m' a := by
  have hcame := (mirrors k r clock n).comes (hserves.setClock clock) hcomes hdiscerns
  rw [← hserves.engine] at hcame
  exact hcame

/-- A message to a flow that is found comes to what is told of it. -/
theorem Serves.call_inbound (hserves : k.Serves r now n d m) (htidy : m.Tidy)
    (hkey : counterpartyKey counterparty = .ok key)
    (hfound : m.flow? clock (flowKey tenant (.str name)) = some flow) (hsteps : flow.steps ≠ [])
    (hfetches : k.Takes (.fetchConversation (Identifier.safeName tenant) key))
    (hputs : ∀ doc, k.Takes (.putConversation (Identifier.safeName tenant) key doc))
    (text time : Option String) (hops : Int) :
    ∃ outcome saves,
      (d.call clock (.inbound tenant counterparty text name time hops)).1 =
        .ok (.outcome outcome) ∧
      k.Serves r clock n (d.call clock (.inbound tenant counterparty text name time hops)).2
        (m.withConversations (Identifier.safeName tenant, key) saves) ∧
      Turn.Reference flow name (Inbound.stripped text) (Inbound.timeOf clock time) hops.toNat
        (m.conversation? clock (Identifier.safeName tenant, key)) outcome saves ∧
      ∀ c ∈ saves, c.IsPlain := by
  have hcomes : ((Operation.inbound tenant counterparty text name time hops).program clock).Comes
      clock k.Takes (fun m' a => ∃ outcome saves, a = .outcome outcome ∧
        m' = m.withConversations (Identifier.safeName tenant, key) saves ∧
        Turn.Reference flow name (Inbound.stripped text) (Inbound.timeOf clock time) hops.toNat
          (m.conversation? clock (Identifier.safeName tenant, key)) outcome saves ∧
        ∀ c ∈ saves, c.IsPlain) m := by
    rw [Operation.program]
    refine (Inbound.comes_handle hkey htidy hfound hsteps hfetches hputs).bind ?_
    rintro outcome m' ⟨saves, htold, hstores, rfl⟩
    exact .done ⟨outcome, saves, rfl, rfl, htold, fun c hlisted => (hstores c hlisted).2⟩
  obtain ⟨a, m', hanswered, hserves', outcome, saves, rfl, rfl, htold, hplain⟩ :=
    hserves.comes hcomes ((Inbound.discerns_handle htidy hops text name time).bind fun _ _ => .done)
  exact ⟨outcome, saves, hanswered, hserves', htold, hplain⟩

/-- A run of messages is told the script from where it is. -/
theorem Serves.answers_of_stands {remarks : List Remark} {t : Telling}
    (hserves : k.Serves r now n d m) (htidy : m.Tidy) (hlinear : flow.IsLinear)
    (hsteps : flow.steps ≠ []) (hkey : counterpartyKey counterparty = .ok key)
    (hfound : ∀ now, m.flow? now (flowKey tenant (.str name)) = some flow)
    (hstands : ∀ now, Stands flow name t
      (m.conversation? now (Identifier.safeName tenant, key)))
    (hfetches : k.Takes (.fetchConversation (Identifier.safeName tenant) key))
    (hputs : ∀ doc, k.Takes (.putConversation (Identifier.safeName tenant) key doc))
    (hgiven : ∀ s ∈ remarks, s.IsGiven) :
    List.Forall₂ Report.IsAnsweredBy (Script.reports flow.script t (remarks.map Remark.heard))
      (d.answers r (remarks.map (Remark.act tenant counterparty name))) := by
  induction remarks generalizing now d m t with
  | nil => exact .nil
  | cons s rest ih =>
    obtain ⟨hfirst, hothers⟩ := List.forall_mem_cons.1 hgiven
    obtain ⟨outcome, saves, hanswered, hserves', htold, hplain⟩ :=
      hserves.call_inbound htidy hkey (hfound s.clock) hsteps hfetches hputs (some s.text) s.time
        s.hops
    obtain ⟨hreported, final, rfl, hstands'⟩ :=
      ((hstands s.clock).goes hfirst.given).told hlinear hfirst.timed htold
    refine .cons ⟨outcome, hanswered, hreported⟩ ?_
    have htidy' := Memory.tidy_withConversations htidy
      (isOfConversation_of_counterpartyKey hkey tenant) hplain
    refine ih hserves' htidy' (fun now => ?_) (fun now => ?_) hothers
    · exact (Memory.flow?_congr (Memory.flows_withConversations _ _ _) _ _).trans (hfound now)
    · rw [Memory.conversation?_withConversations m now _ hplain]
      exact hstands'

end Storage

namespace Deployment

open Storage

/-- A counterparty without a conversation is told the script of a flow without conditions, from its
first step on. -/
theorem answers_tell_script {k : Storage} {r : Backend.Request} {now clock name key : String}
    {n : Nat} {d : Deployment} {m : Memory} {tenant counterparty : Value} {flow : Flow}
    {remarks : List Remark} (hserves : k.Serves r now n d m) (htidy : m.Tidy)
    (hloaded : (d.call clock (.loadFlow tenant (.str name))).1 = .ok (.found (some flow)))
    (hlinear : flow.IsLinear) (hsteps : flow.steps ≠ [])
    (hnobody : (d.call clock (.getConversation tenant counterparty)).1 = .ok (.conversation none))
    (hkey : counterpartyKey counterparty = .ok key)
    (hfetches : k.Takes (.fetchConversation (Identifier.safeName tenant) key))
    (hputs : ∀ doc, k.Takes (.putConversation (Identifier.safeName tenant) key doc))
    (hgiven : ∀ s ∈ remarks, s.IsGiven) :
    flow.IsToldBy flow.script ∧
      List.Forall₂ Report.IsAnsweredBy (flow.reports (remarks.map Remark.heard))
        (d.answers r (remarks.map (Remark.act tenant counterparty name))) := by
  have hfound : ∀ now, m.flow? now (flowKey tenant (.str name)) = some flow := fun now =>
    (Memory.flow?_now htidy now clock _).trans (hserves.flow?_of_load htidy hloaded)
  obtain ⟨key', hkey', hnone⟩ := hserves.conversation_eq htidy hnobody
  obtain rfl : key = key' := Except.ok.inj (hkey.symm.trans hkey')
  refine ⟨flow.isToldBy_script, hserves.answers_of_stands htidy hlinear hsteps hkey hfound
    (fun now => .starts fun c hthere => ?_) hfetches hputs hgiven⟩
  rw [hnone now] at hthere
  cases hthere

/-! ### A flow of one question -/

/-- Someone says hello, and then the name of a city. -/
def greetings (city : String) : List Remark :=
  [{ clock := "t2", text := "hi" }, { clock := "t3", text := city }]

/-- What is stored once the flow of one question was saved. -/
def begunContents : Memory := Memory.withFlow {} (.str "Acme") Inbound.cityFlow

theorem serves_begun : memory.Serves {} "t1" 0 begun begunContents := ⟨rfl, rfl, rfl, rfl⟩

theorem tidy_begunContents : begunContents.Tidy :=
  Memory.tidy_withFlow Memory.tidy_empty _
    ⟨by decide, Schema.isRest_nil _, List.forall_mem_singleton.2 (Schema.isRest_nil _)⟩

theorem given_greetings : ∀ s ∈ greetings " Pune ", s.IsGiven := by
  refine List.forall_mem_cons.2 ⟨⟨?_, ?_⟩, List.forall_mem_singleton.2 ⟨?_, ?_⟩⟩ <;>
    decide +kernel

theorem isLinear_cityFlow : Inbound.cityFlow.IsLinear := by
  intro s hlisted
  obtain rfl := Entry.step.inj (List.mem_singleton.1 hlisted)
  decide

/-- The name of the city is asked for and recorded, and then nothing is said. -/
theorem answers_tell_script_greetings :
    List.Forall₂ Report.IsAnsweredBy
      [⟨some (.alone 0 (.question "city" "Where?")), []⟩, ⟨none, [("city", .str "Pune")]⟩]
      (begun.answers {} ((greetings " Pune ").map
        (Remark.act (.str "Acme") (.str "+1 555") "intake"))) := by
  have hloaded : (begun.call "t1" (.loadFlow (.str "Acme") (.str "intake"))).1 =
    .ok (.found (some Inbound.cityFlow)) := rfl
  have hnobody : (begun.call "t1" (.getConversation (.str "Acme") (.str "+1 555"))).1 =
    .ok (.conversation none) := rfl
  exact (answers_tell_script serves_begun tidy_begunContents hloaded isLinear_cityFlow
    (List.cons_ne_nil _ _) hnobody rfl trivial (fun _ => trivial) given_greetings).2

/-! ### What is not told -/

/-- Every run of messages is told the script, whatever the flow has to fulfil and in whatever way a
message is heard. -/
def TellsScripts (Among : Flow → Prop) (heard : Remark → String) : Prop :=
  ∀ (k : Storage) (r : Backend.Request) (now clock name key : String) (n : Nat) (d : Deployment)
    (m : Memory) (tenant counterparty : Value) (flow : Flow) (remarks : List Remark),
    k.Serves r now n d m → m.Tidy →
    (d.call clock (.loadFlow tenant (.str name))).1 = .ok (.found (some flow)) →
    flow.IsLinear → Among flow →
    (d.call clock (.getConversation tenant counterparty)).1 = .ok (.conversation none) →
    counterpartyKey counterparty = .ok key →
    k.Takes (.fetchConversation (Identifier.safeName tenant) key) →
    (∀ doc, k.Takes (.putConversation (Identifier.safeName tenant) key doc)) →
    (∀ s ∈ remarks, s.IsGiven) →
      List.Forall₂ Report.IsAnsweredBy (flow.reports (remarks.map heard))
        (d.answers r (remarks.map (Remark.act tenant counterparty name)))

/-- A flow without steps. -/
def stepless : Flow where
  id := "intake"
  name := "intake"
  createdAt := "t0"

/-- The deployment in which the flow without steps was saved. -/
def unspoken : Deployment := ((started {}).call "t1" (.saveFlow (.str "Acme") stepless)).2

/-- A message to a flow without steps is no success, and white space around a text is not
collected. -/
theorem not_answers_tell_script :
    ¬ TellsScripts (fun _ => True) Remark.heard ∧
      ¬ TellsScripts (fun flow => flow.steps ≠ []) Remark.text := by
  constructor
  · intro halways
    have hserves : memory.Serves {} "t1" 0 unspoken (Memory.withFlow {} (.str "Acme") stepless) :=
      ⟨rfl, rfl, rfl, rfl⟩
    have htidy : (Memory.withFlow {} (.str "Acme") stepless).Tidy :=
      Memory.tidy_withFlow Memory.tidy_empty _ ⟨by decide, Schema.isRest_nil _, by simp [stepless]⟩
    have hlinear : stepless.IsLinear := fun _ hlisted => nomatch hlisted
    have hgiven : ∀ s ∈ [({ clock := "t2", text := "hi" } : Remark)], s.IsGiven :=
      List.forall_mem_singleton.2 ⟨by decide +kernel, by decide +kernel⟩
    have htold : List.Forall₂ Report.IsAnsweredBy [⟨none, []⟩] _ :=
      halways memory {} "t1" "t1" "intake" "1555" 0 unspoken _ (.str "Acme") (.str "+1 555")
        stepless _ hserves htidy rfl hlinear trivial rfl rfl trivial (fun _ => trivial) hgiven
    obtain ⟨⟨outcome, hsame, c, hacted, -⟩, -⟩ := List.forall₂_cons.1 htold
    rw [hacted] at hsame
    cases hsame
  · intro halways
    have htold : List.Forall₂ Report.IsAnsweredBy [_, ⟨none, [("city", .str " Pune ")]⟩] _ :=
      halways memory {} "t1" "t1" "intake" "1555" 0 begun _ (.str "Acme") (.str "+1 555")
        Inbound.cityFlow (greetings " Pune ") serves_begun tidy_begunContents rfl isLinear_cityFlow
        (List.cons_ne_nil _ _) rfl rfl trivial (fun _ => trivial) given_greetings
    have hfound : ∀ now, begunContents.flow? now (flowKey (.str "Acme") (.str "intake")) =
        some Inbound.cityFlow := fun _ => rfl
    have heard : List.Forall₂ Report.IsAnsweredBy [_, ⟨none, [("city", .str "Pune")]⟩] _ :=
      serves_begun.answers_of_stands tidy_begunContents isLinear_cityFlow (List.cons_ne_nil _ _)
        (show counterpartyKey (.str "+1 555") = .ok "1555" from rfl) hfound
        (fun _ => .starts fun _ hthere => nomatch hthere) trivial (fun _ => trivial) given_greetings
    have hsecond := (List.forall₂_cons.1 (List.forall₂_cons.1 htold).2).1
    have hsecond' := (List.forall₂_cons.1 (List.forall₂_cons.1 heard).2).1
    have hsame := hsecond.data_eq hsecond'
    simp at hsame

end Deployment

end Dialogue

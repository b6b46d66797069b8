import Dialogue.Proofs.Deployment.Holding
import Dialogue.Proofs.Engine.Resumption
import Dialogue.Proofs.Flow.Checked

/-!
# Messages that are stuck

A message that is stuck, because it passed as many conditions as it may, loses nothing.  What was
said is recorded, and the conversation is stored behind the last condition; an empty message of the
same time goes on from there and comes to what the first message comes to with both limits together
(`Deployment.call_resumes`).  This holds whatever else the deployment keeps and whoever wrote the
conversation, for flows that do not test the text of a message (`Flow.IsBlind`) and whose steps can
be counted in sixty-three bits, as those of every list in memory can.
-/

namespace Dialogue

open Store

variable {tenant counterparty : Value} {name key clock : String} {flow : Flow}

namespace Storage

variable {k : Storage} {n : Nat} {d : Deployment} {doc : Value} {found : Option Value}
  {text now : Option String} {hops : Int} {c : Conversation}

/-- A message is stuck behind a condition only in a flow with steps, and where conversations are
written. -/
theorem Holds.writes_of_stuck (holds : k.Holds n tenant (.str name) key doc found d)
    (hread : Flow.ofValue clock doc = .ok flow) (hkey : counterpartyKey counterparty = .ok key)
    (hpositive : 1 ≤ hops.toNat)
    (hfailed : (d.call clock (.inbound tenant counterparty text name now hops)).1 =
      .ok (.outcome (.stuck c))) : flow.steps ≠ [] ∧ k.Writes tenant := by
  have hsteps : flow.steps ≠ [] := fun hstepless => by
    cases (holds.call_inbound_stepless hread hstepless text now hops).1.symm.trans hfailed
  refine ⟨hsteps, by_contra fun hrefuses => ?_⟩
  have htold := (holds.call_inbound_refused hrefuses hread hsteps hkey text now hops).2 _ hfailed
  -- nothing was stored, so no condition was passed
  obtain ⟨ks, j, -, -, -, hlast⟩ := Turn.Reference.exists_last hpositive htold
  cases hlast

/-- What a turn that is stuck stores survives what was found. -/
theorem survives_of_stuck {saves : List Conversation} {stored : Option Conversation}
    {said time : String} {limit : Nat} {stuck : Conversation} (hsized : flow.size < Nat.pow 2 63)
    (hreads : Conversation.read? clock found = stored) (hsound : ∀ c, stored = some c → c.IsSound)
    (htold : Turn.Reference flow name said time limit stored (.stuck stuck) saves) :
    ∀ c ∈ saves, c.Survives found := by
  intro c hlisted
  cases stored with
  | some b => exact htold.survives hreads (hsound b rfl) c hlisted
  | none =>
    have hwithin := htold.inRange_of_stuck c hlisted
    simp only [Flow.inRange, Bool.and_eq_true, decide_eq_true_eq] at hwithin
    exact htold.survives_of_none hlisted (by omega)

end Storage

namespace Deployment

open Storage

/-- A message that is stuck loses nothing: its answer is recorded, and the conversation is stored
behind as many conditions as may pass.  An empty message of the same time that follows answers the
same, and leaves the same conversation, as the message does with both limits together. -/
theorem call_resumes {k : Storage} {n : Nat} {d : Deployment} {stored : Option Conversation}
    {stuck : Conversation} {text : Option String} {now : String} {limit : Int}
    (hkeeps : k.Keeps n d)
    (hloaded : (d.call clock (.loadFlow tenant (.str name))).1 = .ok (.found (some flow)))
    (hsized : flow.size < Nat.pow 2 63) (hblind : flow.IsBlind)
    (hfetched : (d.call clock (.getConversation tenant counterparty)).1 =
      .ok (.conversation stored))
    (hsound : ∀ c, stored = some c → c.IsSound) (htimed : now ≠ "") (hpositive : 1 ≤ limit)
    (hfailed : (d.call clock (.inbound tenant counterparty text name (some now) limit)).1 =
      .ok (.outcome (.stuck stuck))) :
    let start := Turn.answered (Inbound.stripped text) (Turn.resumed name now stored)
    let between := (d.call clock (.inbound tenant counterparty text name (some now) limit)).2
    (∃ ks index, (ks.length : Int) = limit ∧
      Turn.SilentPath flow (Inbound.stripped text) start.data start.stepIndex ks index ∧
      ∀ clock', (between.call clock' (.getConversation tenant counterparty)).1 =
        .ok (.conversation (some (start.moved index)))) ∧
    ∀ (clock' : String) (blank : Option String) (limit' : Int), Inbound.stripped blank = "" →
      0 ≤ limit' →
      let follows :=
        between.call clock' (.inbound tenant counterparty blank name (some now) limit')
      let single :=
        d.call clock (.inbound tenant counterparty text name (some now) (limit + limit'))
      follows.1 = single.1 ∧
        ∃ c, ∀ d' ∈ [follows.2, single.2], ∀ clock',
          (d'.call clock' (.getConversation tenant counterparty)).1 =
            .ok (.conversation (some c)) := by
  intro start between
  obtain ⟨key, hkey⟩ := exists_counterpartyKey_of_call hfetched
  obtain ⟨doc, found, holds, hread, rfl⟩ := hkeeps.exists_holds hkey hloaded hfetched
  have htime : Inbound.timeOf clock (some now) = now := by simp [Inbound.timeOf, htimed]
  obtain ⟨hsteps, hwrites⟩ := holds.writes_of_stuck hread hkey (by omega) hfailed
  obtain ⟨outcome, saves, found₁, hanswered, htold, hsounds, holds₁, hreads₁⟩ :=
    holds.call_inbound hwrites hread hsteps hkey hsound text (some now) limit
  obtain rfl : outcome = .stuck stuck := by
    have hsame := hanswered.symm.trans hfailed
    simpa using hsame
  rw [htime] at htold
  obtain ⟨ks, index, hspent, hpath, -, hlast⟩ := Turn.Reference.exists_last (by omega) htold
  have hsurvives : ∀ c ∈ saves, c.Survives found := survives_of_stuck hsized rfl hsound htold
  have hreads (clock' : String) : Conversation.read? clock' found₁ = some (start.moved index) := by
    rw [hreads₁ fun c hfirst => hsurvives c (List.mem_of_head? hfirst), hlast, Option.some_or]
  refine ⟨⟨ks, index, by omega, hpath, fun clock' => ?_⟩,
    fun clock' blank limit' hempty hnonneg => ?_⟩
  · rw [holds₁.call_getConversation hkey, hreads]
  · have htime' : Inbound.timeOf clock' (some now) = now := by simp [Inbound.timeOf, htimed]
    have hsound₁ : (start.moved index).IsSound := hsounds _ (List.mem_of_getLast? hlast)
    obtain ⟨outcome', saves', found₂, hfollows, htold', hsounds', holds₂, hreads₂⟩ :=
      holds₁.call_inbound hwrites hread hsteps hkey (by simp [hreads, hsound₁]) blank (some now)
        limit'
    obtain ⟨outcome'', saves'', found₃, hsingle, htold'', hsounds'', holds₃, hreads₃⟩ :=
      holds.call_inbound hwrites hread hsteps hkey hsound text (some now) (limit + limit')
    rw [htime', hempty, hreads] at htold'
    rw [htime, show (limit + limit').toNat = limit.toNat + limit'.toNat by omega] at htold''
    have hwhole := Turn.Reference.resumes hblind (by omega) htold (hlast ▸ htold')
    obtain ⟨rfl, rfl⟩ := Turn.Told.unique hwhole htold''
    refine ⟨hfollows.trans hsingle.symm, ?_⟩
    obtain ⟨c, hfinal⟩ : ∃ c, (saves ++ saves').getLast? = some c := by
      rw [List.getLast?_append, hlast]
      cases saves'.getLast? <;> simp
    -- the first conversation that is stored is the same with both limits together
    have hfirst : ∀ c, (saves ++ saves').head? = some c → c.Survives found := by
      intro c hfirst
      cases saves with
      | nil => cases hlast
      | cons c' rest => exact hsurvives c (by simpa using .inl (Option.some.inj hfirst).symm)
    refine ⟨c, List.forall_mem_cons.2
      ⟨fun clock'' => ?_, List.forall_mem_singleton.2 fun clock'' => ?_⟩⟩
    · rw [holds₂.call_getConversation hkey,
        hreads₂ fun c hfirst =>
          htold'.survives (hreads clock') hsound₁ c (List.mem_of_head? hfirst), hreads,
        ← hlast, ← List.getLast?_append, hfinal]
    · rw [holds₃.call_getConversation hkey, hreads₃ hfirst, hfinal, Option.some_or]

/-- A flow that asks for a city and passes two conditions before it ends. -/
def crossroads : Flow where
  id := "intake"
  name := "intake"
  createdAt := "t0"
  steps :=
    [.step { id := Step.freshId, action := .question "city" "Where?" },
     .step { id := Step.freshId, action := .condition (some "city == Pune") (some 2) none },
     .step { id := Step.freshId, action := .condition (some "city == Pune") (some 3) none },
     .step { id := Step.freshId, action := .finish (some "Bye") }]

/-- A conversation that waits for the city, with a note that someone else put there. -/
def noted : Conversation := { Inbound.cityConversation with extras := [("note", .str "vip")] }

/-- A deployment with that flow and that conversation. -/
def crossing : Deployment where
  clock := "t0"
  stores := [.memory
    { flows := [(("acme", "intake"), .dict crossroads.document)]
      conversations := [(("acme", "1555"), .dict noted.document)] }]

theorem parse?_city : Condition.parse? "city == Pune" =
    some ⟨"city", .eq, ⟨"Pune", false, none⟩⟩ := by decide +kernel

theorem isBlind_crossroads : crossroads.IsBlind := by
  rintro index expr thenTarget elseTarget condition ⟨s, hentry, haction⟩ hparsed
  obtain ⟨-, hthere⟩ := Flow.entry?_eq_some_iff.1 hentry
  have hlisted := List.mem_of_getElem? hthere
  simp only [crossroads, List.mem_cons, Entry.step.injEq, List.not_mem_nil, or_false] at hlisted
  rcases hlisted with rfl | rfl | rfl | rfl <;> cases haction <;>
    obtain rfl := Option.some.inj (parse?_city.symm.trans hparsed) <;> decide

theorem isSound_noted : noted.IsSound where
  rest := ⟨by decide, List.forall_mem_singleton.2 trivial, by decide⟩
  extras := by decide
  data := Value.isPlain_dict_iff.2 ⟨List.nodup_nil, fun e hlisted => nomatch hlisted⟩
  updated := ⟨"t0", rfl⟩
  inbound := ⟨none, rfl⟩
  completed := ⟨none, rfl⟩

theorem favours_pune : Turn.Favours "Pune" [("city", .str "Pune")] (some "city == Pune") :=
  ⟨_, _, rfl, parse?_city, by decide +kernel⟩

theorem call_crossing : ∃ stuck, (crossing.call "t1"
    (.inbound (.str "Acme") (.str "+1 555") (some " Pune ") "intake" (some "t2") 1)).1 =
      .ok (.outcome (.stuck stuck)) := by
  have holds : memory.Holds 0 (.str "Acme") (.str "intake") "1555" (.dict crossroads.document)
      (some noted.written) crossing := ⟨rfl, _, rfl, rfl, rfl⟩
  have hread : Flow.ofValue "t1" (.dict crossroads.document) = .ok crossroads := rfl
  have hsound : ∀ c, Conversation.read? "t1" (some noted.written) = some c → c.IsSound := by
    intro c hthere
    rw [isSound_noted.read?_written] at hthere
    exact Option.some.inj hthere ▸ isSound_noted
  obtain ⟨outcome, saves, -, hanswered, htold, -, -, -⟩ := holds.call_inbound trivial hread
    (List.cons_ne_nil _ _) (show counterpartyKey (.str "+1 555") = .ok "1555" from rfl) hsound
    (some " Pune ") (some "t2") 1
  have heard : Inbound.stripped (some " Pune ") = "Pune" := by decide +kernel
  have hfirst : Turn.IsCondition crossroads 1 (some "city == Pune") (some 2) none := ⟨_, rfl, rfl⟩
  have hsecond : Turn.IsCondition crossroads 2 (some "city == Pune") (some 3) none := ⟨_, rfl, rfl⟩
  have hpath : Turn.SilentPath crossroads "Pune" [("city", .str "Pune")] 1 [2] 2 :=
    .holds hfirst favours_pune (.here 2)
  rw [heard, isSound_noted.read?_written] at htold
  have hstuck : Turn.Told crossroads "Pune" "t2" 1
      (Turn.answered "Pune" (Turn.resumed "intake" "t2" (some noted))) _ _ :=
    .limit hpath rfl hsecond
  exact ⟨_, (Turn.Told.unique htold hstuck).1 ▸ hanswered⟩

/-- The conversation goes on behind the first condition and comes to the end of the flow, as it does
at once where two conditions may pass. -/
theorem call_resumes_crossing :
    let failed := crossing.call "t1"
      (.inbound (.str "Acme") (.str "+1 555") (some " Pune ") "intake" (some "t2") 1)
    let follows := failed.2.call "t3"
      (.inbound (.str "Acme") (.str "+1 555") (some "  ") "intake" (some "t2") 1)
    let single := crossing.call "t1"
      (.inbound (.str "Acme") (.str "+1 555") (some " Pune ") "intake" (some "t2") 2)
    follows.1 = single.1 ∧ ∃ c, ∀ d ∈ [follows.2, single.2], ∀ clock,
      (d.call clock (.getConversation (.str "Acme") (.str "+1 555"))).1 =
        .ok (.conversation (some c)) := by
  have hkeeps : memory.Keeps 0 crossing := keeps_memory rfl rfl (by decide)
  have hloaded : (crossing.call "t1" (.loadFlow (.str "Acme") (.str "intake"))).1 =
    .ok (.found (some crossroads)) := rfl
  have hfetched : (crossing.call "t1" (.getConversation (.str "Acme") (.str "+1 555"))).1 =
    .ok (.conversation (some noted)) := rfl
  obtain ⟨stuck, hfailed⟩ := call_crossing
  exact (call_resumes hkeeps hloaded (by decide) isBlind_crossroads hfetched
    (fun c hthere => Option.some.inj hthere ▸ isSound_noted) (by decide) (by decide) hfailed).2
    "t3" (some "  ") 1 (by decide +kernel) (by decide)

end Deployment

end Dialogue

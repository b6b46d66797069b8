import Dialogue.Proofs.Deployment.Steady
import Dialogue.Proofs.Engine.Waiting

/-!
# Questions and answers in the course of a history

A history leaves a list of exchanges, each a call with what it answered (`Deployment.exchanges`).
This module reads off that list which question was put last (`AskedLast`), and says what contents
know of it: a conversation that waits for an answer waits for the one to that question
(`Store.Memory.Recalls`).

The flow may be saved anew while a question waits.  What is stored of the question then speaks of
steps that are gone, and a message without text may be replied to while the question still waits.
Until the flow is saved anew, the conversation stands at its question (`Store.Memory.Offers`), so a
message without text has the question put again.

## Main statements

* `Store.Memory.Recalls.ends_program`: what a call makes of contents that recall the question.
* `Storage.Serves.recalls_after`: they recall it after every history.
-/

namespace Dialogue

open Store

/-- A call with what it answered. -/
structure Exchange where
  clock : String
  op : Operation
  answer : Except Failure Operation.Answer

namespace Exchange

/-- The text that was sent for a message. -/
def message (e : Exchange) : Option String :=
  match e.op, e.answer with
  | .inbound .., .ok (.outcome o) => o.message
  | _, _ => none

/-- A question about a field was put, and waits. -/
def Asks (field : String) (e : Exchange) : Prop :=
  ∃ message c, e.answer = .ok (.outcome (.acted .ask message c)) ∧ Turn.WaitsFor field c

/-- A message without text was replied to, and nothing was asked. -/
def RepliesToBlank (e : Exchange) : Prop :=
  (∃ tenant counterparty text name time hops,
    e.op = .inbound tenant counterparty text name time hops ∧ Inbound.stripped text = "") ∧
  ∃ message c, e.answer = .ok (.outcome (.acted .reply message c))

/-- A flow was saved under the key of a name. -/
def Overwrites (tenant : Value) (name : String) (e : Exchange) : Prop :=
  (∃ tenant' flow, e.op.Saves e.clock tenant' flow ∧
    flowKey tenant' (.str flow.name) = flowKey tenant (.str name)) ∧
  ∃ answer, e.answer = .ok answer

end Exchange

/-- Nothing was said but replies to messages without text, and these only after the flow was
saved. -/
def IsQuiet (tenant : Value) (name : String) (later : List Exchange) : Prop :=
  ∀ before e after, later = before ++ e :: after → e.message ≠ none →
    e.RepliesToBlank ∧ ∃ s ∈ before, s.Overwrites tenant name

/-- The question that was put last is about a field. -/
def AskedLast (tenant : Value) (name field : String) (past : List Exchange) : Prop :=
  ∃ earlier ask later, past = earlier ++ ask :: later ∧ ask.Asks field ∧ IsQuiet tenant name later

variable {tenant : Value} {name field : String} {past later : List Exchange} {e : Exchange}

theorem isQuiet_nil : IsQuiet tenant name [] := by
  intro before e after hsplit
  simp at hsplit

theorem IsQuiet.concat (hquiet : IsQuiet tenant name later)
    (hlast : e.message ≠ none → e.RepliesToBlank ∧ ∃ s ∈ later, s.Overwrites tenant name) :
    IsQuiet tenant name (later ++ [e]) := by
  intro before e' after hsplit hspoke
  rcases List.eq_nil_or_concat after with rfl | ⟨init, final, rfl⟩
  · obtain ⟨rfl, hsame⟩ := List.append_inj' hsplit rfl
    obtain rfl := (List.cons.inj hsame).1
    exact hlast hspoke
  · have hinner : later ++ [e] = (before ++ e' :: init) ++ [final] := by simpa using hsplit
    obtain ⟨rfl, -⟩ := List.append_inj' hinner rfl
    exact hquiet before e' init rfl hspoke

namespace Store.Memory

variable {m : Memory} {clock number : String} {index index' : Int} {tenant' : Value} {flow : Flow}

/-! ## A question that stands -/

/-- A flow is found that has a question about a field at a step. -/
def Offers (key : Key) (index : Int) (field : String) (m : Memory) : Prop :=
  ∃ flow question, (∀ now, m.flow? now key = some flow) ∧
    Turn.IsQuestion flow index field question

theorem Offers.withFlow_of_ne {key : Key} (hoffers : m.Offers key index field)
    (hdifferent : key ≠ flowKey tenant' (.str flow.name)) :
    (m.withFlow tenant' flow).Offers key index field := by
  obtain ⟨found, question, hthere, hasks⟩ := hoffers
  exact ⟨found, question, fun now => (flow?_withFlow_of_ne m now hdifferent).trans (hthere now),
    hasks⟩

theorem Offers.withStep {key : Key} {step : Value} (hoffers : m.Offers key index field)
    (htidy : m.Tidy) (hdocument : step.IsDocument) (hfound : m.flow? clock key = some flow) :
    (m.withFlow tenant' (Store.withStep clock step flow)).Offers key index field := by
  by_cases hsame : key = flowKey tenant' (.str flow.name)
  · obtain ⟨found', question, hthere, hasks⟩ := hoffers
    obtain rfl : flow = found' := Option.some.inj (hfound.symm.trans (hthere clock))
    obtain ⟨written, -, -, hread⟩ := exists_of_flow? htidy hfound
    have hwellFormed : (Store.withStep clock step flow).WellFormed :=
      wellFormed_withStep hdocument (wellFormed_of_flow? htidy hfound)
    obtain ⟨again, hreadAgain⟩ :=
      Flow.exists_ofValue_document hwellFormed (by simp [Store.withStep]) clock
    refine ⟨again, question, fun now => ?_, hasks.withStep
      (fun s hlisted => Flow.isTrimmed_of_ofValue_document hread hlisted) hreadAgain⟩
    have hkey : key = flowKey tenant' (.str (Store.withStep clock step flow).name) := hsame
    rw [hkey, flow?_withFlow_self, Flow.ofValue_document_now _ now clock, hreadAgain]
    rfl
  · exact hoffers.withFlow_of_ne hsame

/-! ## Contents that recall the question -/

/-- The question put last is about a field, and it stands at a step unless the flow was saved
since. -/
def Pends (tenant : Value) (name field : String) (index : Int) (past : List Exchange)
    (m : Memory) : Prop :=
  ∃ earlier ask later, past = earlier ++ ask :: later ∧ ask.Asks field ∧
    IsQuiet tenant name later ∧
    ((∃ s ∈ later, s.Overwrites tenant name) ∨ m.Offers (flowKey tenant (.str name)) index field)

/-- A conversation under a number that waits for an answer waits for the one to the question put
last. -/
structure Recalls (tenant : Value) (name number : String) (past : List Exchange)
    (m : Memory) : Prop where
  tidy : m.Tidy
  pends : ∀ {now c w}, m.conversation? now (Identifier.safeName tenant, number) = some c →
    Turn.GoesOn name c → c.waiting = some w → m.Pends tenant name w.field c.stepIndex past

theorem Pends.askedLast (hpends : m.Pends tenant name field index past) :
    AskedLast tenant name field past := by
  obtain ⟨earlier, ask, later, hsplit, hasks, hquiet, -⟩ := hpends
  exact ⟨earlier, ask, later, hsplit, hasks, hquiet⟩

theorem Pends.concat_ask (hasks : e.Asks field)
    (hoffers : m.Offers (flowKey tenant (.str name)) index field) :
    m.Pends tenant name field index (past ++ [e]) :=
  ⟨past, e, [], rfl, hasks, isQuiet_nil, .inr hoffers⟩

theorem Pends.concat (hpends : m.Pends tenant name field index past) (hsilent : e.message = none) :
    m.Pends tenant name field index (past ++ [e]) := by
  obtain ⟨earlier, ask, later, rfl, hasks, hquiet, hstands⟩ := hpends
  refine ⟨earlier, ask, later ++ [e], by simp, hasks, hquiet.concat fun hspoke =>
    absurd hsilent hspoke, hstands.imp_left ?_⟩
  rintro ⟨s, hlisted, hoverwrites⟩
  exact ⟨s, List.mem_append_left _ hlisted, hoverwrites⟩

/-- A question pends on, wherever its conversation stands, when its flow is saved. -/
theorem Pends.concat_overwrites {m' : Memory} (hpends : m.Pends tenant name field index past)
    (hsilent : e.message = none) (hoverwrites : e.Overwrites tenant name) :
    m'.Pends tenant name field index' (past ++ [e]) := by
  obtain ⟨earlier, ask, later, rfl, hasks, hquiet, -⟩ := hpends
  exact ⟨earlier, ask, later ++ [e], by simp, hasks, hquiet.concat fun hspoke =>
    absurd hsilent hspoke, .inl ⟨e, List.mem_append_right _ List.mem_cons_self, hoverwrites⟩⟩

/-- A question that no longer stands pends on, wherever its conversation stands, when a message
without text is replied to or nothing is said. -/
theorem Pends.concat_of_not_offers (hpends : m.Pends tenant name field index past)
    (hgone : ¬ m.Offers (flowKey tenant (.str name)) index field)
    (hspoke : e.message = none ∨ e.RepliesToBlank) :
    m.Pends tenant name field index' (past ++ [e]) := by
  obtain ⟨earlier, ask, later, rfl, hasks, hquiet, hstands⟩ := hpends
  obtain ⟨s, hlisted, hoverwrites⟩ := hstands.resolve_right hgone
  exact ⟨earlier, ask, later ++ [e], by simp, hasks,
    hquiet.concat fun hspoken => ⟨hspoke.resolve_left hspoken, s, hlisted, hoverwrites⟩,
    .inl ⟨s, List.mem_append_left _ hlisted, hoverwrites⟩⟩

/-- A question that no longer stands pends wherever its conversation stands. -/
theorem Pends.of_not_offers (hpends : m.Pends tenant name field index past)
    (hgone : ¬ m.Offers (flowKey tenant (.str name)) index field) :
    m.Pends tenant name field index' past := by
  obtain ⟨earlier, ask, later, hsplit, hasks, hquiet, hstands⟩ := hpends
  exact ⟨earlier, ask, later, hsplit, hasks, hquiet, .inl (hstands.resolve_right hgone)⟩

/-- A question pends on while it stands. -/
theorem Pends.congr {m' : Memory} (hpends : m.Pends tenant name field index past)
    (hkeeps : m.Offers (flowKey tenant (.str name)) index field →
      m'.Offers (flowKey tenant (.str name)) index field) :
    m'.Pends tenant name field index past := by
  obtain ⟨earlier, ask, later, hsplit, hasks, hquiet, hstands⟩ := hpends
  exact ⟨earlier, ask, later, hsplit, hasks, hquiet, hstands.imp_right hkeeps⟩

/-- Nothing is recalled where no conversation is. -/
theorem recalls_of_notMem (htidy : m.Tidy)
    (habsent : (Identifier.safeName tenant, number) ∉ Keyed.keys m.conversations) :
    m.Recalls tenant name number past where
  tidy := htidy
  pends hfound := by
    obtain ⟨-, hlisted⟩ := m.exists_of_conversation? htidy hfound
    exact absurd (Keyed.mem_keys_of_mem hlisted) habsent

theorem Recalls.concat (hrecalls : m.Recalls tenant name number past) (hsilent : e.message = none) :
    m.Recalls tenant name number (past ++ [e]) where
  tidy := hrecalls.tidy
  pends hfound hgoesOn hwaits := (hrecalls.pends hfound hgoesOn hwaits).concat hsilent

theorem Recalls.withFlow (hrecalls : m.Recalls tenant name number past) (tenant' : Value)
    (hwellFormed : flow.WellFormed)
    (hkeeps : ∀ {index field}, m.Offers (flowKey tenant (.str name)) index field →
      (m.withFlow tenant' flow).Offers (flowKey tenant (.str name)) index field) :
    (m.withFlow tenant' flow).Recalls tenant name number past where
  tidy := tidy_withFlow hrecalls.tidy tenant' hwellFormed
  pends hfound hgoesOn hwaits := (hrecalls.pends hfound hgoesOn hwaits).congr hkeeps

theorem Recalls.withoutConversation (hrecalls : m.Recalls tenant name number past) (key : Key) :
    (m.withoutConversation key).Recalls tenant name number past where
  tidy := tidy_withoutConversation hrecalls.tidy key
  pends {now c w} hfound hgoesOn hwaits := by
    obtain ⟨hplain, hlisted⟩ := exists_of_conversation?
      (tidy_withoutConversation hrecalls.tidy key) hfound
    have hthere := conversation?_of_mem hrecalls.tidy now hplain (Keyed.mem_of_mem_erase hlisted)
    exact hrecalls.pends hthere hgoesOn hwaits

/-- Contents recall the question through what operations write, messages and flows that are saved
apart, if steps are appended to no flow but the one in question. -/
theorem closed_recalls (clock : String) (tenant : Value) (name number : String)
    (past : List Exchange) :
    Closed clock (fun _ => False) (· = flowKey tenant (.str name))
      (Recalls tenant name number past) where
  tidy _ hrecalls := hrecalls.tidy
  creates tenant' name' hrecalls preset hmade habsent := by
    refine hrecalls.withFlow tenant' (wellFormed_ofPresetNamed hmade) fun hoffers =>
      hoffers.withFlow_of_ne fun hsame => ?_
    obtain ⟨found, -, hthere, -⟩ := hoffers
    have hfound := hthere clock
    rw [hsame, flow?_of_has clock habsent] at hfound
    cases hfound
  appends tenant' name' hrecalls hgrows hdocument hfound := by
    rw [hgrows] at hfound
    exact hrecalls.withFlow tenant' (wellFormed_withStep hdocument
      (wellFormed_of_flow? hrecalls.tidy hfound)) fun hoffers =>
        hoffers.withStep hrecalls.tidy hdocument hfound
  puts _ htimed := htimed.elim
  removes key hrecalls := hrecalls.withoutConversation key

/-! ## What calls make of contents that recall the question -/

variable {counterparty : Value} {text time : Option String} {hops : Int} {op : Operation}

theorem Offers.withConversations {key key' : Key} {cs : List Conversation}
    (hoffers : m.Offers key index field) :
    (m.withConversations key' cs).Offers key index field := by
  obtain ⟨flow, question, hthere, hasks⟩ := hoffers
  exact ⟨flow, question, fun now =>
    (flow?_congr (flows_withConversations m key' cs) now key).trans (hthere now), hasks⟩

/-- Contents recall the question after conversations were put if that of the last one pends. -/
theorem recalls_withConversations {cs : List Conversation} (htidy : m.Tidy)
    (hproper : Key.IsOfConversation (Identifier.safeName tenant, number))
    (hplain : ∀ c ∈ cs, c.IsPlain) (hidle : cs = [] → m.Recalls tenant name number past)
    (hlast : ∀ c w, cs.getLast? = some c → Turn.GoesOn name c → c.waiting = some w →
      m.Pends tenant name w.field c.stepIndex past) :
    (m.withConversations (Identifier.safeName tenant, number) cs).Recalls tenant name number
      past where
  tidy := tidy_withConversations htidy hproper hplain
  pends {now c w} hfound hgoesOn hwaits := by
    rw [conversation?_withConversations m now _ hplain] at hfound
    refine Pends.congr ?_ Offers.withConversations
    cases hfinal : cs.getLast? with
    | none =>
      rw [hfinal, Option.none_or] at hfound
      exact (hidle (List.getLast?_eq_none_iff.1 hfinal)).pends hfound hgoesOn hwaits
    | some c' =>
      rw [hfinal, Option.some_or] at hfound
      cases hfound
      exact hlast c w hfinal hgoesOn hwaits

/-- A question that still waits when a message was taken for an answer pends, and the message is
empty. -/
theorem Recalls.pends_answered (hrecalls : m.Recalls tenant name number past) {said now : String}
    {w : Waiting}
    (hwaits : (Turn.answered said (Turn.resumed name now
      (m.conversation? clock (Identifier.safeName tenant, number)))).waiting = some w) :
    said = "" ∧ m.Pends tenant name w.field (Turn.answered said (Turn.resumed name now
      (m.conversation? clock (Identifier.safeName tenant, number)))).stepIndex past := by
  obtain ⟨hempty, c, hfound, hgoesOn, hwaits, hindex⟩ := Turn.waiting_answered_resumed hwaits
  rw [hindex]
  exact ⟨hempty, hrecalls.pends hfound hgoesOn hwaits⟩

/-- A question that stands where a turn starts is put again. -/
theorem Offers.leaves_of_told {c : Conversation} {said now : String} {limit : Nat}
    {outcome : Outcome} {saves : List Conversation}
    (hoffers : m.Offers (flowKey tenant (.str name)) c.stepIndex field)
    (hfound : m.flow? clock (flowKey tenant (.str name)) = some flow)
    (htold : Turn.Told flow said now limit c outcome saves) :
    ∃ message final, outcome = .acted .ask (some message) final ∧ saves = [final] := by
  obtain ⟨found', question, hthere, hasks⟩ := hoffers
  obtain rfl : flow = found' := Option.some.inj (hfound.symm.trans (hthere clock))
  obtain ⟨message, final, hasked, hstored, -⟩ := Turn.leaves_of_question htold hasks
  exact ⟨message, final, hasked, hstored⟩

/-- A message leaves contents that recall the question put last, which may be a new one. -/
theorem Recalls.ends_inbound (hrecalls : m.Recalls tenant name number past)
    (hkey : counterpartyKey counterparty = .ok number) (htimed : Inbound.timeOf clock time ≠ "") :
    ((Operation.inbound tenant counterparty text name time hops).program clock).Ends clock
      (Recalls tenant name number past)
      (fun m' a => m'.Recalls tenant name number
        (past ++ [⟨clock, .inbound tenant counterparty text name time hops, .ok a⟩])) m := by
  rw [Operation.program]
  refine Program.Ends.bind (Q := fun m' o => m'.Recalls tenant name number
    (past ++ [⟨clock, .inbound tenant counterparty text name time hops, .ok (.outcome o)⟩]))
    (Inbound.ends_handle hrecalls hrecalls.tidy (hrecalls.concat rfl) (hrecalls.concat rfl) ?_)
    fun _ _ hrecalls' => .done hrecalls'
  intro key flow outcome saves hkey' hfound htold hstores
  obtain rfl : number = key := Except.ok.inj (hkey.symm.trans hkey')
  have hproper := isOfConversation_of_counterpartyKey hkey tenant
  have hplain : ∀ c ∈ saves, c.IsPlain := fun c hlisted => (hstores c hlisted).2
  obtain ⟨hleaves, hmoves⟩ := Turn.leaves_of_told htold htimed
  constructor
  · intro before after hsplit hmore
    refine recalls_withConversations hrecalls.tidy hproper
      (fun c hlisted => hplain c (hsplit ▸ List.mem_append_left _ hlisted)) (fun _ => hrecalls)
      fun c w hlast hgoesOn hwaits => ?_
    obtain ⟨k, rfl⟩ := hmoves before after hsplit hmore c (List.mem_of_getLast? hlast)
    obtain ⟨-, hpends⟩ := hrecalls.pends_answered hwaits
    refine hpends.of_not_offers fun hoffers => ?_
    -- the question would be put again, and the one conversation that is stored comes after it
    obtain ⟨message, final, -, hsingle⟩ := hoffers.leaves_of_told hfound htold
    rw [hsingle] at hsplit
    rcases List.singleton_eq_append_iff.1 hsplit with ⟨rfl, -⟩ | ⟨-, rfl⟩
    · cases hlast
    · exact hmore rfl
  · cases hleaves with
    | asked hwaits hasks =>
      refine recalls_withConversations hrecalls.tidy hproper hplain (by simp)
        fun c w hlast hgoesOn hwaits' => ?_
      rw [List.getLast?_concat] at hlast
      cases hlast
      obtain rfl := Option.some.inj (hwaits.symm.trans hwaits')
      exact .concat_ask ⟨_, _, rfl, _, hwaits, rfl⟩
        ⟨flow, _, fun now => (flow?_now hrecalls.tidy now clock _).trans hfound, hasks⟩
    | silent hspoke hmoved =>
      refine recalls_withConversations hrecalls.tidy hproper hplain
        (fun _ => hrecalls.concat hspoke)
        fun c w hlast hgoesOn hwaits => ?_
      obtain ⟨k, rfl⟩ := hmoved c (List.mem_of_getLast? hlast)
      obtain ⟨-, hpends⟩ := hrecalls.pends_answered hwaits
      refine hpends.concat_of_not_offers (fun hoffers => ?_) (.inl hspoke)
      obtain ⟨message, final, rfl, -⟩ := hoffers.leaves_of_told hfound htold
      cases hspoke
    | replied =>
      refine recalls_withConversations hrecalls.tidy hproper hplain (by simp)
        fun c w hlast hgoesOn hwaits => ?_
      rw [List.getLast?_concat] at hlast
      cases hlast
      obtain ⟨hempty, hpends⟩ := hrecalls.pends_answered hwaits
      refine hpends.concat_of_not_offers (fun hoffers => ?_)
        (.inr ⟨⟨_, _, _, _, _, _, rfl, hempty⟩, _, _, rfl⟩)
      obtain ⟨message, final, hasked, -⟩ := hoffers.leaves_of_told hfound htold
      cases hasked
    | completed hcompletes =>
      refine recalls_withConversations hrecalls.tidy hproper hplain (by simp)
        fun c w hlast hgoesOn hwaits => ?_
      rw [List.getLast?_concat] at hlast
      cases hlast
      rw [hgoesOn.2] at hcompletes
      cases hcompletes

/-- A call that is no message leaves contents that recall the question put last. -/
theorem Recalls.ends_of_silent (hrecalls : m.Recalls tenant name number past) (hvalid : op.Valid)
    (hsilent : ∀ answer, Exchange.message ⟨clock, op, answer⟩ = none)
    (hmessages : op.At clock fun _ => False) (happends : op.On (· = flowKey tenant (.str name))) :
    (op.program clock).Ends clock (Recalls tenant name number past)
      (fun m' a => m'.Recalls tenant name number (past ++ [⟨clock, op, .ok a⟩])) m := by
  by_cases hoverwrites : ∃ tenant' flow, op.Saves clock tenant' flow ∧
      flowKey tenant' (.str flow.name) = flowKey tenant (.str name)
  · obtain ⟨tenant', flow, hsaves, hsame⟩ := hoverwrites
    refine op.ends_program_of_saves hrecalls hvalid hsaves fun written hnamed hwellFormed => ?_
    have hoverwrites : Exchange.Overwrites tenant name ⟨clock, op, .ok (.flow written)⟩ :=
      ⟨⟨tenant', flow, hsaves, hsame⟩, _, rfl⟩
    exact
      ⟨{ tidy := tidy_withFlow hrecalls.tidy tenant' hwellFormed
         pends := fun hfound hgoesOn hwaits =>
           (hrecalls.pends hfound hgoesOn hwaits).concat_overwrites (hsilent _) hoverwrites },
        hrecalls.concat (hsilent _)⟩
  · have hkept : op.Kept clock (Recalls tenant name number past) m := by
      intro tenant' flow hsaves _
      have hwellFormed := Operation.wellFormed_of_saves hvalid hsaves
      refine hrecalls.withFlow tenant' (wellFormed_revised hwellFormed _) fun hoffers =>
        hoffers.withFlow_of_ne fun hsame => hoverwrites ⟨tenant', flow, hsaves, ?_⟩
      rw [hsame, name_revised]
    have hsafe := op.safe (closed_recalls clock tenant name number past) hrecalls hvalid hmessages
      happends hkept
    exact (hsafe.ends hrecalls).mono (fun _ hkept => hkept) fun m' a hkept =>
      hkept.1.concat (hsilent _)

end Store.Memory

/-- What is asked in a run with one counterparty in one flow.  Messages are those of the
counterparty to the flow and have a time, and steps are appended to no other flow. -/
def Operation.Concerns (clock : String) (tenant counterparty : Value) (name : String) :
    Operation → Prop
  | inbound tenant' counterparty' _ name' time _ =>
    tenant' = tenant ∧ counterparty' = counterparty ∧ name' = name ∧
      Inbound.timeOf clock time ≠ ""
  | addStep tenant' name' _ | appendStep tenant' name' _ =>
    flowKey tenant' name' = flowKey tenant (.str name)
  | _ => True

/-- A history of what can be asked in a run with one counterparty in one flow. -/
def IsRunWith (tenant counterparty : Value) (name : String) (history : List Act) : Prop :=
  ∀ clock op, .call clock op ∈ history → op.Valid ∧ op.Concerns clock tenant counterparty name

/-- A call of a run leaves contents that recall the question put last. -/
theorem Store.Memory.Recalls.ends_program {m : Memory} {clock number : String}
    {counterparty : Value} {op : Operation} (hrecalls : m.Recalls tenant name number past)
    (hkey : counterpartyKey counterparty = .ok number) (hvalid : op.Valid)
    (hconcerns : op.Concerns clock tenant counterparty name) :
    (op.program clock).Ends clock (Recalls tenant name number past)
      (fun m' a => m'.Recalls tenant name number (past ++ [⟨clock, op, .ok a⟩])) m := by
  cases op with
  | inbound tenant' counterparty' text name' time hops =>
    obtain ⟨rfl, rfl, rfl, htimed⟩ := hconcerns
    exact hrecalls.ends_inbound hkey htimed
  | addStep | appendStep =>
    exact hrecalls.ends_of_silent hvalid (fun _ => rfl) trivial hconcerns
  | _ => exact hrecalls.ends_of_silent hvalid (fun _ => rfl) trivial trivial

namespace Deployment

/-- What a deployment that was started by a request is asked in the course of a history, and what it
answers. -/
def exchanges (r : Backend.Request) : List Act → Deployment → List Exchange
  | [], _ => []
  | .restart :: rest, d => exchanges r rest (d.again r)
  | .call clock op :: rest, d =>
    ⟨clock, op, (d.call clock op).1⟩ :: exchanges r rest (d.call clock op).2

theorem after_concat (r : Backend.Request) (history : List Act) (clock : String) (op : Operation)
    (d : Deployment) :
    d.after r (history ++ [.call clock op]) = ((d.after r history).call clock op).2 := by
  induction history generalizing d with
  | nil => rfl
  | cons act rest ih => cases act <;> exact ih _

/-- The exchange of a call comes last. -/
theorem exchanges_concat (r : Backend.Request) (history : List Act) (clock : String)
    (op : Operation) (d : Deployment) :
    d.exchanges r (history ++ [.call clock op]) =
      d.exchanges r history ++ [⟨clock, op, ((d.after r history).call clock op).1⟩] := by
  induction history generalizing d with
  | nil => rfl
  | cons act rest ih =>
    cases act with
    | restart => exact ih _
    | call clock' op' => exact congrArg (_ :: ·) (ih _)

end Deployment

namespace Storage

variable {k : Storage} {r : Backend.Request} {now clock number : String} {n : Nat}
  {d : Deployment} {m : Memory} {counterparty : Value} {op : Operation}

/-- A call ends as its program ends on contents, or it fails. -/
theorem Serves.ends {E : Memory → Prop} {Q : Memory → Operation.Answer → Prop}
    (hserves : k.Serves r now n d m) (htidy : ∀ m, E m → m.Tidy)
    (hends : (op.program clock).Ends clock E Q m) :
    (∃ a m', (d.call clock op).1 = .ok a ∧ k.Serves r clock n (d.call clock op).2 m' ∧ Q m' a) ∨
      ∃ f m', (d.call clock op).1 = .error f ∧ k.Serves r clock n (d.call clock op).2 m' ∧
        E m' := by
  have hended := (mirrors k r clock n).ends htidy (hserves.setClock clock) hends
  rw [← hserves.engine] at hended
  exact hended

/-- After a call of a run, a deployment keeps contents that recall the question put last. -/
theorem Serves.recalls_call (hserves : k.Serves r now n d m)
    (hrecalls : m.Recalls tenant name number past)
    (hkey : counterpartyKey counterparty = .ok number)
    (hvalid : op.Valid) (hconcerns : op.Concerns clock tenant counterparty name) :
    ∃ m', k.Serves r clock n (d.call clock op).2 m' ∧
      m'.Recalls tenant name number (past ++ [⟨clock, op, (d.call clock op).1⟩]) := by
  rcases hserves.ends (fun _ hrecalls => hrecalls.tidy)
    (hrecalls.ends_program hkey hvalid hconcerns) with
    ⟨a, m', hanswered, hserves', hrecalls'⟩ | ⟨f, m', hfailed, hserves', hrecalls'⟩
  · exact ⟨m', hserves', hanswered ▸ hrecalls'⟩
  · refine ⟨m', hserves', hrecalls'.concat ?_⟩
    rw [hfailed]
    cases op <;> rfl

/-- After every history of a run, a deployment keeps contents that recall the question put last. -/
theorem Serves.recalls_after {history : List Act} (hserves : k.Serves r now n d m)
    (hrecalls : m.Recalls tenant name number past)
    (hkey : counterpartyKey counterparty = .ok number)
    (hrun : IsRunWith tenant counterparty name history) :
    ∃ now' n' m', k.Serves r now' n' (d.after r history) m' ∧
      m'.Recalls tenant name number (past ++ d.exchanges r history) := by
  induction history generalizing now n d m past with
  | nil => exact ⟨now, n, m, hserves, by rwa [Deployment.exchanges, List.append_nil]⟩
  | cons act rest ih =>
    have hothers : IsRunWith tenant counterparty name rest :=
      fun clock op hlisted => hrun clock op (List.mem_cons_of_mem _ hlisted)
    cases act with
    | restart =>
      obtain ⟨n', m', hserves', hsame⟩ := hserves.again
      refine ih hserves' ?_ hothers
      rcases hsame with rfl | rfl
      · exact hrecalls
      · exact Memory.recalls_of_notMem Memory.tidy_empty (by simp)
    | call clock op =>
      obtain ⟨hvalid, hconcerns⟩ := hrun clock op List.mem_cons_self
      obtain ⟨m', hserves', hrecalls'⟩ := hserves.recalls_call hrecalls hkey hvalid hconcerns
      have hsplit : past ++ d.exchanges r (.call clock op :: rest) =
          past ++ [⟨clock, op, (d.call clock op).1⟩] ++ (d.call clock op).2.exchanges r rest := by
        rw [Deployment.exchanges, List.append_assoc, List.singleton_append]
      rw [hsplit]
      exact ih hserves' hrecalls' hothers

end Storage

end Dialogue

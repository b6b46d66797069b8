import Dialogue.Proofs.Deployment.Holding
import Dialogue.Proofs.Engine.Spelling

/-!
# Spellings of the name of a flow

All spellings of a name load the same flow, but a conversation goes on under one of them only, the
one that it was begun under (`Deployment.GoesOn`).  A message under another spelling starts afresh,
and all messages that start afresh are answered alike, whoever sends them and under whatever
spelling (`Deployment.reply_congr`).  So a message is answered alike under two spellings unless a
conversation goes on under one of them only; under the other one it is then answered as that of a
counterparty of whom no conversation is found (`Deployment.reply_of_spelling`).

Nothing is assumed of what the deployment keeps.  Where conversations cannot be put, a message fails
that puts one, and this is a matter of the tenant alone (`Storage.Receives`).
-/

namespace Dialogue

open Store Run

namespace Storage

variable {k : Storage} {n : Nat} {d d' : Deployment} {tenant name : Value} {takes : Bool}

/-! ## What is read -/

/-- The same lies in the stores of a number of two deployments. -/
def Equal (k : Storage) (n : Nat) (d d' : Deployment) : Prop :=
  k.Relates (· = ·) (fun _ files files' => files = files') n d d'

theorem Keeps.equal (hkeeps : k.Keeps n d) : k.Equal n d d := by
  have hrelates := (hkeeps ("default", "") Identifier.isName_default).relates
  cases k with
  | memory =>
    obtain ⟨m, -, hshows, -, -⟩ := hrelates
    exact ⟨m, m, hshows, hshows, rfl⟩
  | files dir =>
    obtain ⟨hthere, -, -⟩ := hrelates
    exact ⟨hthere, hthere, rfl⟩
  | table location =>
    obtain ⟨m, -, hshows, -, -⟩ := hrelates
    exact ⟨m, m, hshows, hshows, rfl⟩

/-- A flow is loaded, or a conversation is fetched. -/
def Looks : Access → Prop
  | .loadFlow _ _ | .fetchConversation _ _ => True
  | _ => False

/-- Looking finds the same where the same lies. -/
theorem agrees_of_looks {a : Access} (hlooks : Looks a) :
    Agrees (fun d d' => d.clock = d'.clock ∧ k.Equal n d d') (Deployment.accessStore n a) := by
  cases a with
  | loadFlow tenant name =>
    refine agrees_of_relates (agrees_reads fun m m' hsame => by rw [hsame]) fun dir _ now => ?_
    exact Directory.loadFlow_of_composes (composes_agrees _) agrees_note
      (Directory.agrees_readJson_of_content fun _ _ hsame => by rw [hsame])
  | fetchConversation tenant number =>
    refine agrees_of_relates (agrees_reads fun m m' hsame => by rw [hsame]) fun dir _ now => ?_
    rintro ⟨files, events⟩ ⟨files', events'⟩ rfl
    rw [Directory.fetchConversation_eq, Directory.fetchConversation_eq]
    exact ⟨rfl, rfl⟩
  | _ => exact hlooks.elim

theorem spares_of_looks {a : Access} (hlooks : Looks a) :
    Spares (k.Equal n) (Deployment.accessStore n a) := by
  cases a with
  | loadFlow tenant name =>
    exact spares_of_relates (spares_reads _) fun dir _ now t t' hsame =>
      (Directory.of_loadFlow t).2.trans hsame
  | fetchConversation tenant number =>
    refine spares_of_relates (spares_reads _) fun dir _ now => ?_
    rintro ⟨files, events⟩ ⟨files', events'⟩ rfl
    rw [Directory.fetchConversation_eq]
    rfl
  | _ => exact hlooks.elim

/-- Spellings of one name load the same flow. -/
theorem Equal.load_congr (hequal : k.Equal n d d) {name name' : Value}
    (hsame : Identifier.safeName name = Identifier.safeName name') (tenant : Value) :
    (Deployment.accessStore n (.loadFlow tenant name) d).1 =
      (Deployment.accessStore n (.loadFlow tenant name') d).1 := by
  have hkey : flowKey tenant name = flowKey tenant name' := congrArg (Prod.mk _) hsame
  unfold Deployment.accessStore
  cases k with
  | memory =>
    obtain ⟨m, -, hthere, -, -⟩ := hequal
    rw [store_eq hthere]
    simp only [Deployment.onMemory, Run.zoom_apply, Memory.loadFlow_eq, hkey]
  | files dir =>
    obtain ⟨hthere, -, -⟩ := hequal
    have hpath : Directory.flowPath dir tenant name = Directory.flowPath dir tenant name' := by
      rw [Directory.flowPath, Directory.flowPath, hsame]
    rw [store_eq hthere]
    simp only [Directory.access, hpath]
  | table location =>
    obtain ⟨m, -, ⟨address, f, c, hthere, hknown, hshows⟩, -, -⟩ := hequal
    rw [store_eq hthere]
    have htold (name : Value) := (Table.access_comesTo hknown hshows d.clock d.settings.database.url
      d.events (.loadFlow tenant name)).result
    refine (htold name).trans (Eq.trans ?_ (htold name').symm)
    simp only [Table.outcome, hkey]

/-! ## What is put -/

/-- A store takes all the conversations of a tenant, or none.  In files, it depends on the one that
has them: whether it can be read, and whether its name is too long. -/
def Receives (k : Storage) (tenant : Value) (takes : Bool) (n : Nat) (d : Deployment) : Prop :=
  k.Has (fun _ => takes = true) (fun dir files => (∃ base, Directory.Laid dir base files) ∧
    takes = ((Directory.stateIn dir (Identifier.safeName tenant) files).isOk &&
      !Directory.isTooLong (Directory.statePath dir (Identifier.safeName tenant)))) n d

theorem Keeps.exists_receives (hkeeps : k.Keeps n d) (tenant : Value) :
    ∃ takes, k.Receives tenant takes n d := by
  have hrelates :=
    (hkeeps (Identifier.safeName tenant, "") (Identifier.isName_safeName tenant)).relates
  cases k with
  | files dir =>
    obtain ⟨hthere, -, base, hsees⟩ := hrelates
    exact ⟨_, hthere, ⟨base, hsees.laid⟩, rfl⟩
  | memory | table =>
    obtain ⟨m, -, hshows, -, -⟩ := hrelates
    exact ⟨true, m, hshows, rfl⟩

theorem Receives.log (hreceives : k.Receives tenant takes n d) (e : Event) :
    k.Receives tenant takes n (Deployment.log e d) := by
  cases k <;> exact hreceives

theorem Receives.setClock (hreceives : k.Receives tenant takes n d) (clock : String) :
    k.Receives tenant takes n { d with clock } := by
  cases k <;> exact hreceives

theorem Receives.of_equal (hreceives : k.Receives tenant takes n d) (hequal : k.Equal n d' d) :
    k.Receives tenant takes n d' := by
  cases k with
  | memory =>
    obtain ⟨m, -, hshows, -, -⟩ := hequal
    obtain ⟨-, -, htaken⟩ := hreceives
    exact ⟨m, hshows, htaken⟩
  | files dir =>
    obtain ⟨hthere, -, hsame⟩ := hequal
    obtain ⟨-, hlies⟩ := hreceives
    exact ⟨hthere, hsame ▸ hlies⟩
  | table location =>
    obtain ⟨m, -, hshows, -, -⟩ := hequal
    obtain ⟨-, -, htaken⟩ := hreceives
    exact ⟨m, hshows, htaken⟩

theorem Receives.put {c : Conversation} (hreceives : k.Receives tenant takes n d)
    (hsound : c.IsSound) (number : String) :
    (Deployment.accessStore n
        (.putConversation (Identifier.safeName tenant) number c.written) d).1.isOk = takes ∧
      k.Receives tenant takes n (Deployment.accessStore n
        (.putConversation (Identifier.safeName tenant) number c.written) d).2 := by
  refine Has.accessStore (a := .putConversation (Identifier.safeName tenant) number c.written)
    (Q := (·.isOk = takes)) hreceives (fun m events htaken => ?_) (fun m htaken => ?_)
    fun dir _ files events hlies => ?_
  · exact ⟨htaken.symm, htaken⟩
  · obtain ⟨row, hmade, -⟩ := Table.conversationRow_of_isSound hsound
      ((m.conversations.get? (Identifier.safeName tenant, number)).map
        fun document => ⟨.null, .null, document⟩)
    have hran : Table.outcome d.clock
        (.putConversation (Identifier.safeName tenant) number c.written) ⟨m, []⟩ =
          (.ok (), ⟨m.withConversation (Identifier.safeName tenant, number) row.document, []⟩) := by
      simp only [Table.outcome, Memory.reads_bind, hmade]
      rfl
    rw [hran]
    exact ⟨htaken.symm, htaken⟩
  · obtain ⟨⟨base, hlaid⟩, htaken⟩ := hlies
    obtain ⟨r, files', events', hran, hputs⟩ := Directory.exists_putConversation hlaid
      (Identifier.isName_safeName tenant) d.clock number
      (Value.IsPlain.isJson _ hsound.isPlain_written) events
    rw [hran]
    refine ⟨?_, ⟨base, hputs.laid⟩, ?_⟩
    · rw [hputs.result, htaken]
      cases Directory.stateIn dir (Identifier.safeName tenant) files <;>
        cases Directory.isTooLong (Directory.statePath dir (Identifier.safeName tenant)) <;> rfl
    · rw [hputs.state, htaken]
      cases Directory.stateIn dir (Identifier.safeName tenant) files <;> rfl

/-- A deployment treats all conversations of a tenant alike. -/
theorem treats (k : Storage) (n : Nat) (tenant : Value) (takes : Bool) :
    Inbound.Treats (Deployment.accessStore n) Deployment.log tenant takes
      (k.Receives tenant takes n) where
  put number hsound hreceives := by
    obtain ⟨hanswer, hafter⟩ := hreceives.put hsound number
    exact ⟨_, _, rfl, hanswer, hafter⟩
  log e hreceives := hreceives.log e

theorem looks_getConversation (now : String) (tenant counterparty : Value) :
    (getConversation now tenant counterparty).Makes Looks := by
  cases hkey : counterpartyKey counterparty with
  | error f =>
    unfold getConversation
    rw [hkey]
    exact .fail f
  | ok key =>
    rw [getConversation_eq hkey]
    refine .access trivial fun found => ?_
    cases found with
    | none => exact .done none
    | some document =>
      dsimp only
      split
      · exact .done none
      · cases Conversation.ofValue now document with
        | ok c => exact .done (some c)
        | error _ => exact .log _ (.done none)

end Storage

namespace Deployment

open Storage

variable {k : Storage} {n : Nat} {d : Deployment} {clock name name' : String}
  {tenant counterparty counterparty' : Value} {flow : Flow} {stored : Option Conversation}
  {takes : Bool} {text time : Option String} {hops : Int}

/-- What is found of a conversation. -/
def found (d : Deployment) (clock : String) (tenant counterparty : Value) :
    Except Failure (Option Conversation) :=
  (run d.engine (getConversation clock tenant counterparty) { d with clock }).1

/-- What is answered to a message, names of flows aside. -/
def reply (d : Deployment) (clock : String) (tenant : Value) (text time : Option String)
    (hops : Int) (counterparty : Value) (name : String) : Option Outcome :=
  (run d.engine (Inbound.handle clock hops
    (Inbound.ofTexts tenant counterparty text name time)) { d with clock }).1.toOption.map
      Outcome.unnamed

/-- A conversation with a counterparty is found that goes on under a name. -/
def GoesOn (d : Deployment) (clock : String) (tenant counterparty : Value) (name : String) : Prop :=
  ∃ c, d.found clock tenant counterparty = .ok (some c) ∧ c.isCompleted = false ∧ c.flow = name

theorem exists_counterpartyKey_of_found
    (hfetched : d.found clock tenant counterparty = .ok stored) :
    ∃ key, counterpartyKey counterparty = .ok key := by
  cases hkey : counterpartyKey counterparty with
  | ok key => exact ⟨key, rfl⟩
  | error f =>
    unfold found getConversation at hfetched
    rw [hkey] at hfetched
    cases hfetched

/-! ## What is answered -/

section

variable (hkeeps : k.Keeps n d)

include hkeeps

/-- After the flow was loaded, the conversation is found that was there before. -/
theorem exists_found {loaded : Except Failure (Option Flow)} {s : Deployment}
    (hreceives : k.Receives tenant takes n d)
    (hloads : accessStore n (.loadFlow tenant (.str name)) { d with clock } = (loaded, s)) :
    ∃ t, (getConversation clock tenant counterparty).run (accessStore n) log s =
      (d.found clock tenant counterparty, t) ∧ k.Receives tenant takes n t := by
  have hequal : k.Equal n { d with clock } { d with clock } := hkeeps.equal.at _ _ _ _
  have hafter : k.Equal n s { d with clock } := by
    have hspared := spares_of_looks (a := .loadFlow tenant (.str name)) trivial _ _ hequal
    rwa [hloads] at hspared
  have hmoved : s.clock = clock := by
    have hmoved := Deployment.clock_accessStore n (.loadFlow tenant (.str name)) { d with clock }
    rwa [hloads] at hmoved
  have haccesses : access d.engine = accessStore n := by rw [engine_of_keeps hkeeps, access_one]
  have hmakes := looks_getConversation clock tenant counterparty
  have hfinds : ((getConversation clock tenant counterparty).run (accessStore n) log s).1 =
      d.found clock tenant counterparty := by
    rw [found, run, haccesses]
    exact (Program.agrees_of_makes
      (fun e s s' hsame => ⟨hsame.1, hsame.2.at s.clock s'.clock (e :: s.events) (e :: s'.events)⟩)
      (fun a hlooks => agrees_of_looks (k := k) hlooks) hmakes s _ ⟨hmoved, hafter⟩).1
  have hleaves : k.Equal n ((getConversation clock tenant counterparty).run (accessStore n) log s).2
      { d with clock } :=
    Program.spares_of_makes
      (fun e s s' hsame => hsame.at s.clock s'.clock (e :: s.events) s'.events)
      (fun a hlooks => spares_of_looks hlooks) hmakes s _ hafter
  rcases hran : (getConversation clock tenant counterparty).run (accessStore n) log s with ⟨r, t⟩
  rw [hran] at hfinds hleaves
  obtain rfl : r = d.found clock tenant counterparty := hfinds
  exact ⟨t, rfl, (hreceives.setClock clock).of_equal hleaves⟩

/-- A message is answered as the flow says that is loaded, if what is told of it can be stored. -/
theorem exists_reply (text time : Option String) (hops : Int)
    (hreceives : k.Receives tenant takes n d)
    (hloaded : (accessStore n (.loadFlow tenant (.str name)) { d with clock }).1 = .ok (some flow))
    (hsteps : flow.steps ≠ []) (hfetched : d.found clock tenant counterparty = .ok stored)
    (hsound : ∀ outcome saves, Turn.Reference flow name (Inbound.stripped text)
      (Inbound.timeOf clock time) hops.toNat stored outcome saves → ∀ c ∈ saves, c.IsSound) :
    ∃ outcome saves, Turn.Reference flow name (Inbound.stripped text) (Inbound.timeOf clock time)
        hops.toNat stored outcome saves ∧
      d.reply clock tenant text time hops counterparty name =
        if saves.isEmpty || takes then some outcome.unnamed else none := by
  obtain ⟨s, hloads⟩ : ∃ s, accessStore n (.loadFlow tenant (.str name)) { d with clock } =
      (.ok (some flow), s) := ⟨_, Prod.ext hloaded rfl⟩
  obtain ⟨t, hlooked, hreceives⟩ := exists_found hkeeps hreceives hloads
  rw [hfetched] at hlooked
  obtain ⟨effects, outcome, hran, htold⟩ := Inbound.exists_run_handle hsteps hloads hlooked
  obtain ⟨number, hkey⟩ := exists_counterpartyKey_of_found hfetched
  have haccesses : access d.engine = accessStore n := by rw [engine_of_keeps hkeeps, access_one]
  refine ⟨outcome, _, htold, ?_⟩
  rw [reply, run, haccesses, hran,
    (treats k n tenant takes).answer hkey (hsound outcome _ htold) hreceives]
  split <;> rfl

/-- Where nothing goes on under a name, a message starts afresh. -/
theorem exists_reply_of_starts (text time : Option String) (hops : Int)
    (hreceives : k.Receives tenant takes n d)
    (hloaded : (accessStore n (.loadFlow tenant (.str name)) { d with clock }).1 = .ok (some flow))
    (hsteps : flow.steps ≠ []) (hfetched : d.found clock tenant counterparty = .ok stored)
    (hstarts : ¬ d.GoesOn clock tenant counterparty name) :
    ∃ outcome saves, Turn.Reference flow name (Inbound.stripped text) (Inbound.timeOf clock time)
        hops.toNat none outcome saves ∧
      d.reply clock tenant text time hops counterparty name =
        if saves.isEmpty || takes then some outcome.unnamed else none := by
  have hfresh {outcome : Outcome} {saves : List Conversation}
      (htold : Turn.Reference flow name (Inbound.stripped text) (Inbound.timeOf clock time)
        hops.toNat stored outcome saves) :
      Turn.Reference flow name (Inbound.stripped text) (Inbound.timeOf clock time) hops.toNat none
        outcome saves :=
    htold.of_starts fun c hthere hown hgoesOn => hstarts ⟨c, hthere ▸ hfetched, hown, hgoesOn⟩
  obtain ⟨outcome, saves, htold, hanswered⟩ :=
    exists_reply hkeeps text time hops hreceives hloaded hsteps hfetched fun outcome saves htold =>
      Turn.inherited_isSound.reference (hfresh htold) (by simp)
  exact ⟨outcome, saves, hfresh htold, hanswered⟩

/-- Where it fails to look for the conversation, nothing is answered to a flow with steps. -/
theorem reply_of_error {f : Failure}
    (hloaded : (accessStore n (.loadFlow tenant (.str name)) { d with clock }).1 = .ok (some flow))
    (hsteps : flow.steps ≠ []) (hfailed : d.found clock tenant counterparty = .error f) :
    d.reply clock tenant text time hops counterparty name = none := by
  obtain ⟨takes, hreceives⟩ := hkeeps.exists_receives tenant
  obtain ⟨s, hloads⟩ : ∃ s, accessStore n (.loadFlow tenant (.str name)) { d with clock } =
      (.ok (some flow), s) := ⟨_, Prod.ext hloaded rfl⟩
  obtain ⟨t, hlooked, -⟩ := exists_found hkeeps hreceives hloads
  rw [hfailed] at hlooked
  have haccesses : access d.engine = accessStore n := by rw [engine_of_keeps hkeeps, access_one]
  have hnonempty : ¬ flow.steps.isEmpty = true := by simpa using hsteps
  rw [reply, run, haccesses, Inbound.handle_eq]
  simp only [Program.run, Run.bind, hloads, if_neg hnonempty, Program.run_bind_apply, hlooked]
  rfl

/-- Where no flow with steps is loaded, what is answered does not depend on the conversation. -/
theorem reply_of_stepless
    (hsame : Identifier.safeName (.str name) = Identifier.safeName (.str name'))
    (hstepless : ∀ flow, (accessStore n (.loadFlow tenant (.str name)) { d with clock }).1 =
      .ok (some flow) → flow.steps = []) :
    d.reply clock tenant text time hops counterparty name =
      d.reply clock tenant text time hops counterparty' name' := by
  have hequal : k.Equal n { d with clock } { d with clock } := hkeeps.equal.at _ _ _ _
  have haccesses : access d.engine = accessStore n := by rw [engine_of_keeps hkeeps, access_one]
  have hcongr := hequal.load_congr hsame tenant
  rw [reply, reply, run, run, haccesses, Inbound.handle_eq, Inbound.handle_eq]
  simp only [Program.run, Run.bind]
  revert hstepless hcongr
  rcases accessStore n (.loadFlow tenant (.str name)) { d with clock } with ⟨f | _ | flow, t⟩ <;>
    rcases accessStore n (.loadFlow tenant (.str name')) { d with clock } with
      ⟨f' | _ | flow', t'⟩ <;>
    intro hstepless hcongr <;> cases hcongr
  · rfl
  · rfl
  · simp only [hstepless flow rfl, List.isEmpty_nil, if_true]
    rfl

/-- Where it fails to look for the conversation, a message is answered alike under all spellings. -/
theorem reply_congr_of_error {f : Failure}
    (hsame : Identifier.safeName (.str name) = Identifier.safeName (.str name'))
    (hfailed : d.found clock tenant counterparty = .error f) :
    d.reply clock tenant text time hops counterparty name =
      d.reply clock tenant text time hops counterparty name' := by
  by_cases hstepless : ∀ flow, (accessStore n (.loadFlow tenant (.str name)) { d with clock }).1 =
      .ok (some flow) → flow.steps = []
  · exact reply_of_stepless hkeeps hsame hstepless
  · push Not at hstepless
    obtain ⟨flow, hloaded, hsteps⟩ := hstepless
    have hequal : k.Equal n { d with clock } { d with clock } := hkeeps.equal.at _ _ _ _
    have hloaded' := (hequal.load_congr hsame tenant).symm.trans hloaded
    rw [reply_of_error hkeeps hloaded hsteps hfailed, reply_of_error hkeeps hloaded' hsteps hfailed]

/-- Messages that start afresh are answered alike, whoever sends them and under whatever spelling of
the name of the flow. -/
theorem reply_congr (hsame : Identifier.safeName (.str name) = Identifier.safeName (.str name'))
    {stored' : Option Conversation} (hfetched : d.found clock tenant counterparty = .ok stored)
    (hfetched' : d.found clock tenant counterparty' = .ok stored')
    (hstarts : ¬ d.GoesOn clock tenant counterparty name)
    (hstarts' : ¬ d.GoesOn clock tenant counterparty' name') :
    d.reply clock tenant text time hops counterparty name =
      d.reply clock tenant text time hops counterparty' name' := by
  by_cases hstepless : ∀ flow, (accessStore n (.loadFlow tenant (.str name)) { d with clock }).1 =
      .ok (some flow) → flow.steps = []
  · exact reply_of_stepless hkeeps hsame hstepless
  · push Not at hstepless
    obtain ⟨flow, hloaded, hsteps⟩ := hstepless
    have hequal : k.Equal n { d with clock } { d with clock } := hkeeps.equal.at _ _ _ _
    have hloaded' := (hequal.load_congr hsame tenant).symm.trans hloaded
    obtain ⟨takes, hreceives⟩ := hkeeps.exists_receives tenant
    obtain ⟨outcome, saves, htold, hanswered⟩ :=
      exists_reply_of_starts hkeeps text time hops hreceives hloaded hsteps hfetched hstarts
    obtain ⟨outcome', saves', htold', hanswered'⟩ :=
      exists_reply_of_starts hkeeps text time hops hreceives hloaded' hsteps hfetched' hstarts'
    obtain ⟨rfl, rfl⟩ := htold.named htold'
    rw [hanswered, hanswered', List.isEmpty_map, Outcome.unnamed_named]

end

/-- Spellings of the name of a flow: a message is answered alike under both, unless a conversation
goes on under one of them only.  Under the other it starts afresh, and is answered as that of a
counterparty of whom no conversation is found. -/
theorem reply_of_spelling (hkeeps : k.Keeps n d)
    (hsame : Identifier.safeName (.str name) = Identifier.safeName (.str name')) :
    ((d.GoesOn clock tenant counterparty name ↔ d.GoesOn clock tenant counterparty name') →
      d.reply clock tenant text time hops counterparty name' =
        d.reply clock tenant text time hops counterparty name) ∧
    (d.GoesOn clock tenant counterparty name → ¬ d.GoesOn clock tenant counterparty name' →
      ∀ nobody, d.found clock tenant nobody = .ok none →
        d.reply clock tenant text time hops counterparty name' =
          d.reply clock tenant text time hops nobody name') := by
  constructor
  · intro hboth
    by_cases hgoesOn : d.GoesOn clock tenant counterparty name
    · obtain ⟨c, hfetched, hown, rfl⟩ := hgoesOn
      obtain ⟨c', hfetched', -, rfl⟩ := hboth.1 ⟨c, hfetched, hown, rfl⟩
      obtain ⟨⟩ := hfetched.symm.trans hfetched'
      rfl
    · cases hfetched : d.found clock tenant counterparty with
      | ok stored =>
        exact reply_congr hkeeps hsame.symm hfetched hfetched (mt hboth.2 hgoesOn) hgoesOn
      | error f => exact reply_congr_of_error hkeeps hsame.symm hfetched
  · rintro ⟨c, hfetched, -, rfl⟩ hstarts' nobody habsent
    refine reply_congr hkeeps rfl hfetched habsent hstarts' ?_
    rintro ⟨c', hfetched', -⟩
    cases habsent.symm.trans hfetched'

/-! ### A conversation under another spelling -/

/-- A flow of two questions. -/
def survey : Flow where
  id := "lead"
  name := "Lead"
  createdAt := "t0"
  steps := [.step ⟨"stp_1", .question "city" "City?", []⟩,
    .step ⟨"stp_2", .question "area" "Area?", []⟩]

/-- A conversation that waits for an answer to the first question. -/
def cityAsked : Conversation :=
  { flow := "Lead", startedAt := "t1", updatedAt := .str "t1", waiting := some ⟨"city", 0⟩ }

/-- A deployment with the flow and the conversation. -/
def surveyed : Deployment :=
  { clock := "t0"
    stores := [.memory { flows := [(("acme", "lead"), .dict survey.document)]
                         conversations := [(("acme", "1"), .dict cityAsked.document)] }] }

theorem keeps_surveyed : memory.Keeps 0 surveyed := keeps_memory rfl rfl (by decide)

theorem found_surveyed : surveyed.found "t2" (.str "acme") (.str "+1") = .ok (some cityAsked) := rfl

/-- Under another spelling, an answer is taken for a first message. -/
theorem reply_of_spelling_surveyed :
    Identifier.safeName (.str "Lead") = Identifier.safeName (.str "lead") ∧
      surveyed.GoesOn "t2" (.str "acme") (.str "+1") "Lead" ∧
      ¬ surveyed.GoesOn "t2" (.str "acme") (.str "+1") "lead" ∧
      ∀ (text time : Option String) (hops : Int),
        surveyed.reply "t2" (.str "acme") text time hops (.str "+1") "lead" =
          surveyed.reply "t2" (.str "acme") text time hops (.str "+2") "lead" := by
  have hgoesOn : surveyed.GoesOn "t2" (.str "acme") (.str "+1") "Lead" :=
    ⟨_, found_surveyed, rfl, rfl⟩
  have hstarts : ¬ surveyed.GoesOn "t2" (.str "acme") (.str "+1") "lead" := by
    rintro ⟨c, hfetched, -, hnamed⟩
    obtain ⟨⟩ := found_surveyed.symm.trans hfetched
    simp [cityAsked] at hnamed
  have hsame : Identifier.safeName (.str "Lead") = Identifier.safeName (.str "lead") := by
    decide +kernel
  exact ⟨hsame, hgoesOn, hstarts, fun text time hops =>
    (reply_of_spelling keeps_surveyed hsame).2 hgoesOn hstarts (.str "+2") rfl⟩

theorem reply_surveyed {name field text : String} {index : Int}
    (hloaded : (accessStore 0 (.loadFlow (.str "acme") (.str name))
      { surveyed with clock := "t2" }).1 = .ok (some survey))
    (hreached : (Turn.answered "Pune" (Turn.resumed name "t2" (some cityAsked))).stepIndex = index)
    (hasks : Turn.IsQuestion survey index field text) :
    ∃ message c, surveyed.reply "t2" (.str "acme") (some "Pune") none 8 (.str "+1") name =
      some (.acted .ask message c) ∧ c.stepIndex = index := by
  subst hreached
  have hplain : cityAsked.IsPlain :=
    ⟨rfl, Value.isPlain_dict_iff.2 ⟨.nil, by simp [cityAsked]⟩, ⟨_, rfl⟩, ⟨none, rfl⟩, ⟨none, rfl⟩⟩
  have hreceives : memory.Receives (.str "acme") true 0 surveyed := ⟨_, rfl, rfl⟩
  have hsteps : survey.steps ≠ [] := List.cons_ne_nil _ _
  obtain ⟨outcome, saves, htold, hanswered⟩ := exists_reply keeps_surveyed (some "Pune") none 8
    hreceives hloaded hsteps found_surveyed fun outcome saves htold =>
      Turn.inherited_isSound.reference htold fun c hthere => Option.some.inj hthere ▸ hplain.isSound
  have hstripped : Inbound.stripped (some "Pune") = "Pune" := rfl
  have htime : Inbound.timeOf "t2" none = "t2" := rfl
  rw [hstripped, htime] at htold
  obtain ⟨hsame, -⟩ := htold.unique (.ends (.here _) (Nat.zero_le _) (.question hasks))
  rw [Bool.or_true, if_pos rfl, hsame] at hanswered
  exact ⟨_, _, hanswered, rfl⟩

/-- An answer under another spelling is not always taken for one. -/
theorem not_reply_of_spelling :
    ¬ ∀ (k : Storage) (n : Nat) (d : Deployment) (clock : String) (tenant counterparty : Value)
      (text time : Option String) (hops : Int) (name name' : String), k.Keeps n d →
        Identifier.safeName (.str name) = Identifier.safeName (.str name') →
        d.GoesOn clock tenant counterparty name →
          d.reply clock tenant text time hops counterparty name' =
            d.reply clock tenant text time hops counterparty name := by
  intro halways
  have hsame : Identifier.safeName (.str "Lead") = Identifier.safeName (.str "lead") := by
    decide +kernel
  have halike := halways memory 0 surveyed "t2" (.str "acme") (.str "+1") (some "Pune") none 8
    "Lead"
    "lead" keeps_surveyed hsame ⟨_, found_surveyed, rfl, rfl⟩
  obtain ⟨_, c, hcity, hfirst⟩ := @reply_surveyed "lead" _ _ 0 rfl rfl ⟨_, rfl, rfl⟩
  obtain ⟨_, c', harea, hsecond⟩ := @reply_surveyed "Lead" _ _ 1 rfl rfl ⟨_, rfl, rfl⟩
  obtain ⟨⟩ := Option.some.inj (hcity.symm.trans (halike.trans harea))
  cases hfirst.symm.trans hsecond

end Deployment

end Dialogue

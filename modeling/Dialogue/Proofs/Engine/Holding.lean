import Dialogue.Proofs.Conversation.Again
import Dialogue.Proofs.Engine.Contents

/-!
# A message where one conversation is held

A message has to do with one flow and one conversation.  A store *holds* a conversation if it loads
the flow and finds the document of the conversation, takes every conversation in its place, and
finds this one from then on, or what was found before if that counts as the same
(`Inbound.Holding`).  Nothing is assumed of what else lies there.

There a message comes to what is told of the conversation that is read, and the last conversation
that is told of it is read afterwards (`Inbound.Holding.handle`).  Since a conversation is read
again as it was written, what was found first may have been written by others, with extras, as long
as its numbers are finite.  Where nothing could be read of what was found, it must not stay in the
place of the first conversation that is told (`Conversation.Survives`), which takes a step number of
sixty-three bits.
-/

namespace Dialogue

/-- When a flow is read only matters for the time of its creation. -/
theorem Flow.exists_ofValue_now {now : String} {v : Value} {flow : Flow}
    (hread : Flow.ofValue now v = .ok flow) (now' : String) :
    ∃ flow', Flow.ofValue now' v = .ok flow' ∧ flow'.steps = flow.steps := by
  obtain ⟨fields, rfl, hparts⟩ := Flow.exists_of_ofValue hread
  obtain ⟨id, hreadId, -⟩ := hparts.identified
  have hcreated : ∃ createdAt, Schema.optional (Flow.nameFromId fields) Flow.createdSlot now'
      Schema.readText = .ok createdAt := by
    have hreadCreated := hparts.createdAt
    unfold Schema.optional at hreadCreated ⊢
    cases hfound : Flow.createdSlot.find? (Flow.nameFromId fields) with
    | none => exact ⟨now', rfl⟩
    | some entry =>
      rw [hfound] at hreadCreated
      exact ⟨_, hreadCreated⟩
  obtain ⟨createdAt, hreadCreated⟩ := hcreated
  simp only [Flow.ofValue, Flow.ofFields, hreadId, hparts.name, hparts.version, hreadCreated,
    hparts.updatedAt, hparts.steps, Schema.Checked.pair, Schema.Checked.map,
      Schema.Checked.toExcept]
  exact ⟨_, rfl, rfl⟩

namespace Turn

variable {flow flow' : Flow} {text now : String} {limit : Nat} {c : Conversation}

/-! ## Only the steps of a flow matter -/

section

variable (hsame : flow'.steps = flow.steps)

include hsame

theorem entry?_of_steps (index : Int) : flow'.entry? index = flow.entry? index := by
  rw [Flow.entry?, Flow.entry?, hsame]

theorem SilentPath.of_steps {data : Fields} {i j : Int} {ks : List Int}
    (hpath : SilentPath flow text data i ks j) : SilentPath flow' text data i ks j := by
  have hentries := entry?_of_steps hsame
  induction hpath with
  | here i => exact .here i
  | skip hmalformed hrest ih => exact .skip ((hentries _).trans hmalformed) ih
  | holds hcondition hfavours hrest ih =>
    obtain ⟨s, hentry, haction⟩ := hcondition
    exact .holds ⟨s, (hentries _).trans hentry, haction⟩ hfavours ih
  | fails hcondition hdisfavours hrest ih =>
    obtain ⟨s, hentry, haction⟩ := hcondition
    exact .fails ⟨s, (hentries _).trans hentry, haction⟩ hdisfavours ih

theorem Spoken.of_steps {action : TurnAction} {message : Option String} {final : Conversation}
    (hspoken : Spoken flow now c action message final) :
    Spoken flow' now c action message final := by
  have hentries := entry?_of_steps hsame
  have hsize : flow.size = flow'.size := by rw [Flow.size, Flow.size, hsame]
  cases hspoken with
  | outside hnothing => exact .outside ((hentries _).trans hnothing)
  | question hasks =>
    obtain ⟨s, hentry, haction⟩ := hasks
    exact .question ⟨s, (hentries _).trans hentry, haction⟩
  | replyAndQuestion hentry hreplies hasks =>
    obtain ⟨s, hentry', haction⟩ := hasks
    exact .replyAndQuestion ((hentries _).trans hentry) hreplies
      ⟨s, (hentries _).trans hentry', haction⟩
  | reply hentry hreplies halone =>
    refine .reply ((hentries _).trans hentry) hreplies fun field question hasks => ?_
    obtain ⟨s, hentry', haction⟩ := hasks
    exact halone field question ⟨s, (hentries _).symm.trans hentry', haction⟩
  | handoff hentry hands =>
    rw [hsize]
    exact .handoff ((hentries _).trans hentry) hands
  | finish hentry hends =>
    rw [hsize]
    exact .finish ((hentries _).trans hentry) hends

theorem Told.of_steps {outcome : Outcome} {saves : List Conversation}
    (htold : Told flow text now limit c outcome saves) :
    Told flow' text now limit c outcome saves := by
  cases htold with
  | limit hpath hspent hcondition =>
    obtain ⟨s, hentry, haction⟩ := hcondition
    exact .limit (hpath.of_steps hsame) hspent ⟨s, (entry?_of_steps hsame _).trans hentry, haction⟩
  | ends hpath hwithin hspoken =>
    exact .ends (hpath.of_steps hsame) hwithin (hspoken.of_steps hsame)

end

/-- One thing is told of a conversation. -/
theorem Told.unique {outcome outcome' : Outcome} {saves saves' : List Conversation}
    (htold : Told flow text now limit c outcome saves)
    (htold' : Told flow text now limit c outcome' saves') :
      outcome = outcome' ∧ saves = saves' := by
  let ctx : Context := { tenant := .null, counterparty := "", hops := 0, text, now := .str now }
  obtain ⟨hresult, hstores⟩ := walk_of_told (show ctx.now = _ from rfl) htold
  obtain ⟨hresult', hstores'⟩ := walk_of_told (show ctx.now = _ from rfl) htold'
  exact ⟨Except.ok.inj (hresult.symm.trans hresult'), hstores.symm.trans hstores'⟩

theorem inherited_isSound : Inherited Conversation.IsSound where
  starts flow now := (inherited_isPlain.starts flow now).isSound
  resumes now hsound :=
    ⟨hsound.rest, hsound.extras, hsound.data, ⟨now, rfl⟩, ⟨some now, rfl⟩, hsound.completed⟩
  answers field text index hsound := by
    obtain ⟨hnodup, hentries⟩ := Value.isPlain_dict_iff.1 hsound.data
    refine ⟨hsound.rest, hsound.extras,
      Value.isPlain_dict_iff.2 ⟨Keyed.nodup_set hnodup _ _, fun e he => ?_⟩, hsound.updated,
      hsound.inbound, hsound.completed⟩
    rcases Keyed.mem_set he with rfl | he
    · exact Schema.isPlain_str text
    · exact hentries e he
  moves index waiting hsound :=
    ⟨hsound.rest, hsound.extras, hsound.data, hsound.updated, hsound.inbound, hsound.completed⟩
  completes index now handoff hsound :=
    ⟨hsound.rest, hsound.extras, hsound.data, hsound.updated, hsound.inbound, ⟨some now, rfl⟩⟩

end Turn

/-! ## The document of a conversation -/

namespace Conversation

/-- The conversation that is read from the document that was found, if there is one. -/
def read? (clock : String) (found : Option Value) : Option Conversation :=
  (found.filter fun doc => !doc.isEmpty).bind fun doc => (ofValue clock doc).toOption

/-- The document of a conversation. -/
def written (c : Conversation) : Value := .dict c.document

variable {c : Conversation}

theorem IsSound.isPlain_written (hsound : c.IsSound) : c.written.IsPlain :=
  hsound.isWritable.isPlain_document

theorem IsSound.isEmpty_written (hsound : c.IsSound) : c.written.isEmpty = false := by
  have hfirst : ("flow", .str c.flow) ∈ c.document := by
    rw [hsound.document_eq, hsound.entries_eq]
    simp
  simpa [written, Value.isEmpty] using List.ne_nil_of_mem hfirst

@[simp] theorem IsSound.read?_written (hsound : c.IsSound) (clock : String) :
    read? clock (some c.written) = some c := by
  have hnonempty : (!c.written.isEmpty) = true := by rw [hsound.isEmpty_written, Bool.not_false]
  rw [read?, Option.filter_some, if_pos hnonempty, Option.bind_some, written,
    hsound.ofValue_document]
  rfl

/-- What is found is read as the conversation where it counts as the same as its document. -/
def Survives (found : Option Value) (c : Conversation) : Prop :=
  ∀ doc, found = some doc → c.written.same doc = true → ∀ clock, read? clock (some doc) = some c

theorem read?_of_ofValue {clock : String} {doc : Value} (hread : ofValue clock doc = .ok c) :
    read? clock (some doc) = some c := by
  have hnonempty : doc.isEmpty = false := by
    cases doc with
    | dict fields =>
      cases fields with
      | nil =>
        have hparts := (ofValue_dict_eq_ok_iff.1 hread).flow
        cases hparts
      | cons e rest => rfl
    | _ => cases hread
  simp [read?, Option.filter, hnonempty, hread, Except.toOption]

/-- A conversation that goes on from the one that is read survives what is found. -/
theorem Survives.of_continues {b : Conversation} {clock : String} {found : Option Value}
    (hsound : c.IsSound) (hreads : read? clock found = some b) (hcontinues : b.Continues c) :
    Survives found c := by
  rintro doc rfl hsame clock'
  obtain ⟨doc', held, hread⟩ := Option.bind_eq_some_iff.1 hreads
  obtain rfl : doc = doc' := by simpa using (Option.filter_eq_some_iff.1 held).1
  refine read?_of_ofValue ?_
  cases hthere : ofValue clock doc with
  | error mismatch => simp [hthere, Except.toOption] at hread
  | ok b' =>
    obtain rfl : b' = b := by simpa [hthere, Except.toOption] using hread
    exact hcontinues.ofValue_of_same hsound hthere hsame clock'

/-- A conversation without data and extras survives whatever is found, if its step numbers take
fewer than sixty-three bits. -/
theorem Survives.of_bare {found : Option Value} (hsound : c.IsSound) (hbare : c.extras = [])
    (hempty : c.data = []) (hsmall : c.stepIndex.natAbs < Nat.pow 2 63)
    (hasks : ∀ w, c.waiting = some w → w.stepIndex = c.stepIndex) : Survives found c := by
  intro doc _ hsame clock
  exact read?_of_ofValue
    (ofValue_eq_of_same hsound hbare hempty hsmall (fun w hwaits => hasks w hwaits ▸ hsmall) hsame)

end Conversation

namespace Inbound

open Program Conversation

variable {σ : Type} {access : (a : Store.Access) → Run σ a.Answer} {log : Event → σ → σ}
  {tenant counterparty : Value} {key name clock : String} {s : σ} {flow : Flow}
  {Holds : Option Value → σ → Prop} {found : Option Value}

/-- A store loads a flow and finds a document under the key of a conversation, and it takes every
conversation there, unless what is found counts as the same. -/
structure Holding (access : (a : Store.Access) → Run σ a.Answer) (log : Event → σ → σ)
    (tenant : Value) (name key : String) (flow : Flow) (Holds : Option Value → σ → Prop) :
    Prop where
  load : ∀ {found s}, Holds found s →
    ∃ t, access (.loadFlow tenant (.str name)) s = (.ok (some flow), t) ∧ Holds found t
  fetch : ∀ {found s}, Holds found s →
    ∃ t, access (.fetchConversation (Identifier.safeName tenant) key) s = (.ok found, t) ∧
      Holds found t
  put : ∀ {found s} {c : Conversation}, c.IsSound → Holds found s →
    ∃ doc t, access (.putConversation (Identifier.safeName tenant) key c.written) s = (.ok (), t) ∧
      Holds (some doc) t ∧ (doc = c.written ∨ found = some doc ∧ c.written.same doc = true)
  log : ∀ {found s} e, Holds found s → Holds found (log e s)

/-- Looking for a conversation reads the document that is found. -/
theorem exists_run_getConversation (hkey : Store.counterpartyKey counterparty = .ok key) {t : σ}
    (hfetched : access (.fetchConversation (Identifier.safeName tenant) key) s = (.ok found, t)) :
    ∃ u, (Store.getConversation clock tenant counterparty).run access log s =
        (.ok (read? clock found), u) ∧
      (u = t ∨ ∃ e, u = log e t) := by
  rw [Store.getConversation_eq hkey]
  simp only [Program.run, Run.bind, hfetched]
  cases found with
  | none => exact ⟨t, rfl, .inl rfl⟩
  | some doc =>
    simp only [read?, Option.filter_some]
    cases doc.isEmpty with
    | true => exact ⟨t, rfl, .inl rfl⟩
    | false =>
      simp only [Bool.false_eq_true, Bool.not_false, if_true, if_false, Option.bind_some]
      cases Conversation.ofValue clock doc with
      | ok c => exact ⟨t, rfl, .inl rfl⟩
      | error mismatch => exact ⟨_, rfl, .inr ⟨_, rfl⟩⟩

/-- A message to a flow without steps is told so. -/
theorem run_handle_stepless {s₁ : σ}
    (hloaded : access (.loadFlow tenant (.str name)) s = (.ok (some flow), s₁))
    (hstepless : flow.steps = []) (clock : String) (hops : Int) (text now : Option String) :
    (handle clock hops (ofTexts tenant counterparty text name now)).run access log s =
      (.ok (.empty name), log (.flowEmpty tenant (.str name)) s₁) := by
  rw [handle_eq]
  simp only [Program.run, Run.bind, hloaded, hstepless, List.isEmpty_nil, if_true, Run.pure]

/-- A message whose flow and conversation are found carries out what its turn stores. -/
theorem exists_run_handle {s₁ s₂ : σ} {stored : Option Conversation} {hops : Int}
    {text now : Option String} (hsteps : flow.steps ≠ [])
    (hloaded : access (.loadFlow tenant (.str name)) s = (.ok (some flow), s₁))
    (hfetched : (Store.getConversation clock tenant counterparty).run access log s₁ =
      (.ok stored, s₂)) :
    ∃ effects outcome,
      (handle clock hops (ofTexts tenant counterparty text name now)).run access log s =
        ((carryOut tenant counterparty effects).bind fun _ => .done outcome).run access log s₂ ∧
      Turn.Reference flow name (stripped text) (timeOf clock now) hops.toNat stored outcome
        (Turn.saved effects) := by
  obtain ⟨effects, outcome, hdoes, htold, -⟩ :=
    exists_afterReading hops tenant counterparty text name (timeOf clock now) flow stored
  exact ⟨effects, outcome, (run_handle hsteps hloaded hfetched).trans (by rw [hdoes]), htold⟩

/-! ## Where nothing can be put -/

section

variable {Good : σ → Prop} (hkey : Store.counterpartyKey counterparty = .ok key)
  (hlogs : ∀ e s, Good s → Good (log e s))
  (hrefuses : ∀ doc s, Good s → ∃ f t,
    access (.putConversation (Identifier.safeName tenant) key doc) s = (.error f, t) ∧ Good t)

include hkey hlogs hrefuses

/-- Effects that store something fail where nothing can be put. -/
theorem run_carryOut_refused (effects : List Turn.Effect) (hgood : Good s) :
    Good ((carryOut tenant counterparty effects).run access log s).2 ∧
      (Turn.saved effects ≠ [] →
        ∃ f, ((carryOut tenant counterparty effects).run access log s).1 = .error f) := by
  induction effects generalizing s with
  | nil => exact ⟨hgood, fun hstores => absurd rfl hstores⟩
  | cons effect rest ih =>
    cases effect with
    | log e => exact ih (hlogs e s hgood)
    | save c =>
      obtain ⟨f, t, hrefused, hafter⟩ := hrefuses (.dict c.document) s hgood
      simp only [carryOut, Store.setConversation_eq hkey, Program.bind, Program.run, Run.bind,
        hrefused]
      exact ⟨hafter, fun _ => ⟨f, rfl⟩⟩

/-- A message that is answered where nothing can be put stores nothing. -/
theorem run_handle_refused {s₁ s₂ : σ} {stored : Option Conversation} (hsteps : flow.steps ≠ [])
    (hloaded : access (.loadFlow tenant (.str name)) s = (.ok (some flow), s₁))
    (hfetched : (Store.getConversation clock tenant counterparty).run access log s₁ =
      (.ok stored, s₂)) (hgood : Good s₂) (hops : Int) (text now : Option String) :
    Good ((handle clock hops (ofTexts tenant counterparty text name now)).run access log s).2 ∧
      ∀ outcome, ((handle clock hops (ofTexts tenant counterparty text name now)).run access log
          s).1 = .ok outcome →
        Turn.Reference flow name (stripped text)
          (timeOf clock now) hops.toNat stored outcome [] := by
  obtain ⟨effects, outcome, handled, htold⟩ := exists_run_handle hsteps hloaded hfetched
  obtain ⟨hafter, hfailed⟩ := run_carryOut_refused hkey hlogs hrefuses effects hgood
  rw [handled, Program.run_bind_apply]
  rcases hran : (carryOut tenant counterparty effects).run access log s₂ with ⟨f | _, t⟩ <;>
    rw [hran] at hafter hfailed
  · exact ⟨hafter, nofun⟩
  · have hstores : Turn.saved effects = [] := by
      by_contra hsome
      obtain ⟨f, hrefused⟩ := hfailed hsome
      cases hrefused
    rw [hstores] at htold
    exact ⟨hafter, fun outcome' hended => Except.ok.inj hended ▸ htold⟩

end

/-! ## Where a conversation is held -/

section

variable (holding : Holding access log tenant name key flow Holds)
  (hkey : Store.counterpartyKey counterparty = .ok key)

include holding hkey

theorem Holding.getConversation (holds : Holds found s) (clock : String) :
    ∃ t, (Store.getConversation clock tenant counterparty).run access log s =
        (.ok (read? clock found), t) ∧ Holds found t := by
  obtain ⟨t, hfetched, holds⟩ := holding.fetch holds
  obtain ⟨u, hran, rfl | ⟨e, rfl⟩⟩ : ∃ u,
      (Store.getConversation clock tenant counterparty).run access log s =
        (.ok (read? clock found), u) ∧ (u = t ∨ ∃ e, u = log e t) :=
    exists_run_getConversation hkey hfetched
  · exact ⟨_, hran, holds⟩
  · exact ⟨_, hran, holding.log e holds⟩

/-- The last conversation that effects store is read afterwards, if the first survives what was
found. -/
theorem Holding.carryOut {effects : List Turn.Effect}
    (hsound : ∀ c ∈ Turn.saved effects, c.IsSound)
    (hbetween : ∀ b ∈ Turn.saved effects, ∀ c ∈ Turn.saved effects, b.Continues c)
    (holds : Holds found s) :
    ∃ found' t, (carryOut tenant counterparty effects).run access log s = (.ok (), t) ∧
      Holds found' t ∧ ((∀ c, (Turn.saved effects).head? = some c → c.Survives found) →
        ∀ clock, read? clock found' = (Turn.saved effects).getLast?.or (read? clock found)) := by
  induction effects generalizing s found with
  | nil => exact ⟨found, s, rfl, holds, fun _ _ => rfl⟩
  | cons effect rest ih =>
    cases effect with
    | log e => exact ih hsound hbetween (holding.log e holds)
    | save c =>
      rw [Turn.saved_save] at hsound hbetween ⊢
      obtain ⟨hsound₁, hothers⟩ := List.forall_mem_cons.1 hsound
      obtain ⟨doc, t, htaken, holds, hput⟩ := holding.put hsound₁ holds
      obtain ⟨found', u, hran, holds, hlast⟩ := ih hothers
        (fun b hearlier c' hlater => hbetween b (List.mem_cons_of_mem _ hearlier) c'
          (List.mem_cons_of_mem _ hlater)) holds
      refine ⟨found', u, ?_, holds, fun hfirst clock => ?_⟩
      · simp only [written] at htaken
        simp only [Inbound.carryOut, Store.setConversation_eq hkey, Program.bind, Program.run,
          Run.bind, htaken, hran]
      · have hreads (clock : String) : read? clock (some doc) = some c := by
          rcases hput with rfl | ⟨rfl, hsame⟩
          · exact hsound₁.read?_written clock
          · exact hfirst c rfl doc rfl hsame clock
        have hgoesOn : ∀ c', (Turn.saved rest).head? = some c' → c'.Survives (some doc) :=
          fun c' hnext => .of_continues (hothers c' (List.mem_of_head? hnext)) (hreads clock)
            (hbetween c List.mem_cons_self c' (List.mem_cons_of_mem _ (List.mem_of_head? hnext)))
        rw [hlast hgoesOn, hreads, List.getLast?_cons]
        cases (Turn.saved rest).getLast? <;> rfl

/-- A message comes to what is told of the conversation that is read, and the last conversation that
is told of it is read afterwards, if the first survives what was found. -/
theorem Holding.handle (hsteps : flow.steps ≠ []) (holds : Holds found s)
    (clock : String) (hsound : ∀ c, read? clock found = some c → c.IsSound) (hops : Int)
    (text now : Option String) :
    ∃ outcome saves found' t,
      (handle clock hops (ofTexts tenant counterparty text name now)).run access log s =
        (.ok outcome, t) ∧
      Turn.Reference flow name (stripped text) (timeOf clock now) hops.toNat (read? clock found)
        outcome saves ∧
      (∀ c ∈ saves, c.IsSound) ∧ Holds found' t ∧
      ((∀ c, saves.head? = some c → c.Survives found) →
        ∀ clock', read? clock' found' = saves.getLast?.or (read? clock' found)) := by
  obtain ⟨s₁, hloaded, holds⟩ := holding.load holds
  obtain ⟨s₂, hfetched, holds⟩ := holding.getConversation hkey holds clock
  obtain ⟨effects, outcome, hran, htold⟩ := exists_run_handle hsteps hloaded hfetched
  have hsound := Turn.inherited_isSound.reference htold hsound
  obtain ⟨found', t, hcarried, holds, hlast⟩ :=
    holding.carryOut hkey hsound (Turn.continues_of_told htold) holds
  refine ⟨outcome, _, found', t, hran.trans ?_, htold, hsound, holds, hlast⟩
  rw [run_bind_apply, hcarried]
  rfl

end

end Inbound

/-! ## What is told survives -/

namespace Turn

variable {flow : Flow} {name text now clock : String} {limit : Nat} {found : Option Value}
  {b c : Conversation} {outcome : Outcome} {saves : List Conversation}

/-- What is told of the conversation that is read survives what is found. -/
theorem Reference.survives (htold : Reference flow name text now limit (some b) outcome saves)
    (hreads : Conversation.read? clock found = some b) (hsound : b.IsSound) :
    ∀ c ∈ saves, c.Survives found := by
  have hsounds := inherited_isSound.reference htold fun c hsame => Option.some.inj hsame ▸ hsound
  exact fun c hlisted => .of_continues (hsounds c hlisted) hreads
    (continues_of_reference htold c hlisted)

/-- What is told of nobody survives what is found, if its step number takes fewer than sixty-three
bits. -/
theorem Reference.survives_of_none (htold : Reference flow name text now limit none outcome saves)
    (hlisted : c ∈ saves) (hsmall : c.stepIndex.natAbs < Nat.pow 2 63) : c.Survives found := by
  have hsounds := inherited_isSound.reference htold (by simp)
  have hcarries := carries_of_told htold c hlisted
  have hasks : ∀ w, c.waiting = some w → w.stepIndex = c.stepIndex := by
    obtain ⟨ks, j, -, ⟨k, -, rfl⟩ | ⟨action, message, hspoken⟩⟩ := mem_saves_of_told htold hlisted
    · simp [resumed, answered, Conversation.moved, Conversation.start]
    · cases hspoken <;> simp [resumed, answered, Conversation.moved, Conversation.start]
  exact .of_bare (hsounds c hlisted) hcarries.extras hcarries.data hsmall hasks

end Turn

end Dialogue

import Dialogue.Proofs.Deployment.Beside
import Dialogue.Proofs.Deployment.Steady
import Dialogue.Proofs.Engine.Holding

/-!
# What a deployment holds of one conversation

A deployment may keep anything.  Of it, this module follows the document of one flow and the
document of one conversation (`Storage.Holds`): accesses of these answer and change what they
should, whatever else lies there (`Storage.holding`), so a message comes to what is told of the
conversation (`Storage.Holds.call_inbound`).

In files, a conversation is put only if the file of its tenant has a name that is not too long
(`Storage.Writes`).  Else nothing changes, and only a message that stores nothing is answered
(`Storage.Holds.call_inbound_refused`).
-/

namespace Dialogue

open Run Store

namespace Store

variable {tenant name : Value} {number : String} {doc : Value} {found : Option Value}
  {flow : Flow} {c : Conversation}

/-! ## Contents -/

/-- Contents have the document of a flow and what is found of a conversation. -/
structure Memory.Holds (tenant name : Value) (number : String) (doc : Value)
    (found : Option Value) (m : Memory) : Prop where
  flow : m.flows.get? (flowKey tenant name) = some doc
  entry : Memory.document? m.conversations (Identifier.safeName tenant, number) = found

theorem isEmpty_of_ofValue {now : String} (hread : Flow.ofValue now doc = .ok flow) :
    doc.isEmpty = false := by
  cases hempty : doc.isEmpty with
  | false => rfl
  | true =>
    obtain ⟨fields, rfl, hparts⟩ := Flow.exists_of_ofValue hread
    obtain rfl : fields = [] := by simpa [Value.isEmpty] using hempty
    have hunnamed := hparts.name
    cases hunnamed

namespace Memory

variable {m : Memory} {t : Traced Memory}

theorem Holds.put (holds : m.Holds tenant name number doc found) (hsound : c.IsSound) :
    (m.withConversation (Identifier.safeName tenant, number) c.written).Holds tenant name number doc
      (some c.written) where
  flow := holds.flow
  entry := by
    simp [document?, withConversation, Option.filter, hsound.isEmpty_written]

end Memory

/-! ## Tables -/

/-- A conversation is put in a row that may keep its document. -/
theorem Memory.Holds.put_kept {m : Memory} (holds : m.Holds tenant name number doc found)
    (hsound : c.IsSound) {written : Value}
    (hkept : written = Table.kept (m.conversations.get? (Identifier.safeName tenant, number))
      c.written) :
    ∃ found', (∃ held, found' = some held ∧
        (held = c.written ∨ found = some held ∧ c.written.same held = true)) ∧
      (m.withConversation (Identifier.safeName tenant, number) written).Holds tenant name number doc
        found' := by
  rcases Table.kept_cases (m.conversations.get? (Identifier.safeName tenant, number)) c.written with
    ⟨hsame, -⟩ | ⟨held, hthere, halike, hsame⟩
  · rw [hkept, hsame]
    exact ⟨_, ⟨_, rfl, .inl rfl⟩, holds.put hsound⟩
  · have hnonempty : held.isEmpty = false := hsound.isEmpty_of_same halike
    have hentry : found = some held := by
      rw [← holds.entry, Memory.document?, hthere]
      simp [Option.filter, hnonempty]
    refine ⟨some held, ⟨held, rfl, .inr ⟨hentry, halike⟩⟩, holds.flow, ?_⟩
    rw [hkept, hsame]
    simp [Memory.document?, Memory.withConversation, Option.filter, hnonempty]

namespace Table

open Database

theorem conversationRow_of_isSound (hsound : c.IsSound) (old : Option ConversationRow) :
    ∃ row, conversationRow old c.written = .ok row ∧
      row.document = kept (old.map (·.document)) c.written := by
  obtain ⟨t, hcompleted⟩ := hsound.completed
  have hcolumn (t : Option String) : textColumn (.ofOption t) = .ok (.ofOption t) := by
    cases t <;> rfl
  have hentries := hsound.document_eq
  rw [hsound.entries_eq] at hentries
  have hflow : Fields.get? c.document "flow" = some (.str c.flow) := by
    simp [hentries, Keyed.get?]
  have hcompletedAt : Fields.getD c.document "completedAt" = .ofOption t := by
    simp [hentries, Fields.getD, Keyed.get?, hcompleted]
  refine ⟨⟨.str c.flow, .ofOption t, kept (old.map (·.document)) c.written⟩, ?_, rfl⟩
  simp only [conversationRow, Conversation.written, hflow, hcompletedAt, Option.getD_some, hcolumn]
  cases old <;> rfl

end Table

/-! ## Files -/

namespace Directory

variable {dir : Path} {files : Files}

/-- Files have the document of a flow and what is found of a conversation. -/
structure Holds (dir : Path) (tenant name : Value) (number : String) (doc : Value)
    (found : Option Value) (files : Files) : Prop where
  laid : ∃ base, Laid dir base files
  flow : ∃ s, stored dir files tenant name = some s ∧ s.document? = some doc
  entry : (stateIn dir (Identifier.safeName tenant) files).map
    (fun state => conversationOf (Fields.get? state number)) = .ok found

theorem Holds.fetch (holds : Holds dir tenant name number doc found files) (now : String)
    (events : List Event) :
    ∃ events', access now dir (.fetchConversation (Identifier.safeName tenant) number)
      ⟨files, events⟩ = (.ok found, ⟨files, events'⟩) := by
  obtain ⟨events', hran⟩ :=
    exists_fetchConversation now dir (Identifier.safeName tenant) number files events
  refine ⟨events', hran.trans ?_⟩
  have hentry := holds.entry
  cases hstate : stateIn dir (Identifier.safeName tenant) files with
  | error f =>
    rw [hstate] at hentry
    cases hentry
  | ok fields =>
    rw [hstate] at hentry
    exact Prod.ext hentry rfl

theorem Holds.put (holds : Holds dir tenant name number doc found files)
    (hshort : isTooLong (statePath dir (Identifier.safeName tenant)) = false) (hsound : c.IsSound)
    (now : String) (events : List Event) :
    ∃ files' events', access now dir
        (.putConversation (Identifier.safeName tenant) number c.written) ⟨files, events⟩ =
          (.ok (), ⟨files', events'⟩) ∧
      Holds dir tenant name number doc (some c.written) files' := by
  obtain ⟨base, hlaid⟩ := holds.laid
  obtain ⟨s, hlies, hread⟩ := holds.flow
  obtain ⟨r, files', events', hran, hputs⟩ := exists_putConversation hlaid
    (Identifier.isName_safeName tenant) now number (Value.IsPlain.isJson _ hsound.isPlain_written)
    events
  have hentry := holds.entry
  cases hstate : stateIn dir (Identifier.safeName tenant) files with
  | error f =>
    rw [hstate] at hentry
    cases hentry
  | ok fields =>
    have hresult := hputs.result
    rw [hstate, hshort] at hresult
    obtain rfl : r = .ok () := hresult
    refine ⟨files', events', hran, ⟨base, hputs.laid⟩, ⟨s, ?_, hread⟩, ?_⟩
    · rw [← hlies, stored, stored, hputs.flows]
    · rw [hputs.state, hstate, hshort]
      simp [Except.map, Fields.get?, conversationOf, Conversation.written]

/-- Where the file of a tenant has a name that is too long, no conversation is put there, and the
files stay as they are. -/
theorem exists_putConversation_error {base : Place} {tenant : String} (hlaid : Laid dir base files)
    (hname : Identifier.IsName tenant) (hlong : isTooLong (statePath dir tenant) = true)
    (now number : String) (doc : Value) (events : List Event) :
    ∃ f events', access now dir (.putConversation tenant number doc) ⟨files, events⟩ =
      (.error f, ⟨files, events'⟩) := by
  obtain ⟨events', hread⟩ := exists_readState dir tenant files events
  cases hfound : stateIn dir tenant files with
  | error f =>
    rw [hfound] at hread
    exact ⟨f, _, Run.bind_error hread⟩
  | ok state =>
    rw [hfound] at hread
    rcases writeJson_state hlaid hname hfound (.dict (Fields.set state number doc)) events' with
      ⟨-, hfailed⟩ | ⟨hshort, -⟩
    · exact ⟨_, _, (Run.bind_ok hread).trans hfailed⟩
    · rw [hlong] at hshort
      cases hshort

end Directory

end Store

namespace Storage

variable {k : Storage} {n : Nat} {d d' : Deployment} {tenant name : Value} {number : String}
  {doc : Value} {found : Option Value} {a : Access}

/-- The store of a number has contents of some kind, or lies in files of some kind. -/
def Has (Seen : Memory → Prop) (Lies : Path → Files → Prop) : Storage → Nat → Deployment → Prop
  | files dir, n, d => d.stores[n]? = some (.directory dir) ∧ Lies dir d.files
  | k, n, d => ∃ m, k.Shows n d m ∧ Seen m

/-- An access does to a deployment what it does to contents and to files. -/
theorem Has.accessStore {Seen Seen' : Memory → Prop} {Lies Lies' : Path → Files → Prop}
    {Q : Except Failure a.Answer → Prop} (has : k.Has Seen Lies n d)
    (hinMemory : ∀ m events, Seen m → Q (Memory.access d.clock a ⟨m, events⟩).1 ∧
      Seen' (Memory.access d.clock a ⟨m, events⟩).2.state)
    (hinTables : ∀ m, Seen m → Q (Table.outcome d.clock a ⟨m, []⟩).1 ∧
      Seen' (Table.outcome d.clock a ⟨m, []⟩).2.state)
    (hinFiles : ∀ dir, k = files dir → ∀ files events, Lies dir files →
      Q (Directory.access d.clock dir a ⟨files, events⟩).1 ∧
        Lies' dir (Directory.access d.clock dir a ⟨files, events⟩).2.state) :
    Q (Deployment.accessStore n a d).1 ∧ k.Has Seen' Lies' n (Deployment.accessStore n a d).2 := by
  unfold Deployment.accessStore
  cases k with
  | memory =>
    obtain ⟨m, hshows, hseen⟩ := has
    obtain ⟨hanswer, hafter⟩ := hinMemory m d.events hseen
    rw [store_eq hshows]
    exact ⟨hanswer, _, getElem?_setStore hshows, hafter⟩
  | files dir =>
    obtain ⟨hthere, hlies⟩ := has
    obtain ⟨hanswer, hafter⟩ := hinFiles dir rfl d.files d.events hlies
    rw [store_eq hthere]
    exact ⟨hanswer, hthere, hafter⟩
  | table location =>
    obtain ⟨m, ⟨address, f, c, hthere, hknown, hshows⟩, hseen⟩ := has
    obtain ⟨hanswer, hafter⟩ := hinTables m hseen
    have htold := Table.access_comesTo hknown hshows d.clock d.settings.database.url d.events a
    rw [store_eq hthere]
    exact ⟨htold.result ▸ hanswer, _, ⟨address, _, _, getElem?_setStore hthere, hknown,
      htold.shows⟩, hafter⟩

/-- A deployment at work has the document of a flow and what is found of a conversation. -/
structure Holds (k : Storage) (n : Nat) (tenant name : Value) (number : String) (doc : Value)
    (found : Option Value) (d : Deployment) : Prop where
  engine : d.engine = ⟨n, n⟩
  has : k.Has (Memory.Holds tenant name number doc found)
    (fun dir => Directory.Holds dir tenant name number doc found) n d

/-- In files, the one with the conversations of a tenant has a name that is not too long. -/
def Writes : Storage → Value → Prop
  | files dir, tenant =>
    Directory.isTooLong (Directory.statePath dir (Identifier.safeName tenant)) = false
  | _, _ => True

theorem Holds.setClock (holds : k.Holds n tenant name number doc found d) (clock : String) :
    k.Holds n tenant name number doc found { d with clock } := by
  obtain ⟨hengine, has⟩ := holds
  refine ⟨hengine, ?_⟩
  cases k <;> exact has

theorem Holds.log (holds : k.Holds n tenant name number doc found d) (e : Event) :
    k.Holds n tenant name number doc found (d.log e) := by
  obtain ⟨hengine, has⟩ := holds
  refine ⟨hengine, ?_⟩
  cases k <;> exact has

/-- What an access answers and leaves, if it does so with contents and with files. -/
theorem Holds.access {Q : Except Failure a.Answer → Prop} {After : Option Value → Prop}
    (holds : k.Holds n tenant name number doc found d)
    (hinMemory : ∀ m events, m.Holds tenant name number doc found →
      Q (Memory.access d.clock a ⟨m, events⟩).1 ∧ ∃ found', After found' ∧
        (Memory.access d.clock a ⟨m, events⟩).2.state.Holds tenant name number doc found')
    (hinTables : ∀ m : Memory, m.Holds tenant name number doc found →
      Q (Table.outcome d.clock a ⟨m, []⟩).1 ∧ ∃ found', After found' ∧
        (Table.outcome d.clock a ⟨m, []⟩).2.state.Holds tenant name number doc found')
    (hinFiles : ∀ dir, k = files dir → ∀ files events,
      Directory.Holds dir tenant name number doc found files →
        Q (Directory.access d.clock dir a ⟨files, events⟩).1 ∧ ∃ found', After found' ∧
          Directory.Holds dir tenant name number doc found'
            (Directory.access d.clock dir a ⟨files, events⟩).2.state) :
    Q (Deployment.access ⟨n, n⟩ a d).1 ∧ (Deployment.access ⟨n, n⟩ a d).2.clock = d.clock ∧
      ∃ found', After found' ∧
        k.Holds n tenant name number doc found' (Deployment.access ⟨n, n⟩ a d).2 := by
  have hsame : Deployment.access ⟨n, n⟩ a d = Deployment.accessStore n a d := by
    simp [Deployment.access]
  obtain ⟨hanswer, has⟩ : Q (Deployment.accessStore n a d).1 ∧
      k.Has (fun m => ∃ found', After found' ∧ m.Holds tenant name number doc found')
        (fun dir files => ∃ found', After found' ∧
          Directory.Holds dir tenant name number doc found' files) n
        (Deployment.accessStore n a d).2 := holds.has.accessStore hinMemory hinTables hinFiles
  rw [hsame]
  refine ⟨hanswer, Deployment.clock_accessStore n a d, ?_⟩
  have hengine := (Deployment.engine_accessStore n a d).trans holds.engine
  cases k with
  | files dir =>
    obtain ⟨hthere, found', hafter, hlies⟩ := has
    exact ⟨found', hafter, hengine, hthere, hlies⟩
  | memory | table =>
    obtain ⟨m, hshows, found', hafter, hseen⟩ := has
    exact ⟨found', hafter, hengine, m, hshows, hseen⟩

/-- What an access answers that leaves what it found. -/
theorem Holds.access_of_same {Q : Except Failure a.Answer → Prop}
    (holds : k.Holds n tenant name number doc found d)
    (hinMemory : ∀ m events, m.Holds tenant name number doc found →
      Q (Memory.access d.clock a ⟨m, events⟩).1 ∧
        (Memory.access d.clock a ⟨m, events⟩).2.state.Holds tenant name number doc found)
    (hinTables : ∀ m : Memory, m.Holds tenant name number doc found →
      Q (Table.outcome d.clock a ⟨m, []⟩).1 ∧
        (Table.outcome d.clock a ⟨m, []⟩).2.state.Holds tenant name number doc found)
    (hinFiles : ∀ dir, k = files dir → ∀ files events,
      Directory.Holds dir tenant name number doc found files →
        Q (Directory.access d.clock dir a ⟨files, events⟩).1 ∧
          Directory.Holds dir tenant name number doc found
            (Directory.access d.clock dir a ⟨files, events⟩).2.state) :
    Q (Deployment.access ⟨n, n⟩ a d).1 ∧ (Deployment.access ⟨n, n⟩ a d).2.clock = d.clock ∧
      k.Holds n tenant name number doc found (Deployment.access ⟨n, n⟩ a d).2 := by
  obtain ⟨hanswer, hclock, _, rfl, hafter⟩ : Q (Deployment.access ⟨n, n⟩ a d).1 ∧
      (Deployment.access ⟨n, n⟩ a d).2.clock = d.clock ∧ ∃ found', found' = found ∧
        k.Holds n tenant name number doc found' (Deployment.access ⟨n, n⟩ a d).2 :=
    holds.access
      (fun m events hseen => (hinMemory m events hseen).imp_right fun hafter =>
        ⟨found, rfl, hafter⟩)
      (fun m hseen => (hinTables m hseen).imp_right fun hafter => ⟨found, rfl, hafter⟩)
      fun dir hkind files events hlies =>
        (hinFiles dir hkind files events hlies).imp_right fun hafter => ⟨found, rfl, hafter⟩
  exact ⟨hanswer, hclock, hafter⟩

section

variable (holds : k.Holds n tenant name number doc found d)

include holds

/-- The flow is loaded. -/
theorem Holds.load {flow : Flow} (hread : Flow.ofValue d.clock doc = .ok flow) :
    (Deployment.access ⟨n, n⟩ (.loadFlow tenant name) d).1 = .ok (some flow) ∧
      (Deployment.access ⟨n, n⟩ (.loadFlow tenant name) d).2.clock = d.clock ∧
      k.Holds n tenant name number doc found
        (Deployment.access ⟨n, n⟩ (.loadFlow tenant name) d).2 := by
  refine holds.access_of_same (a := .loadFlow tenant name) (Q := (· = .ok (some flow)))
     (fun m events holds => ?_) (fun m holds => ?_)
    fun dir _ files events holds => ?_
  · have hnonempty : (!doc.isEmpty) = true := by rw [isEmpty_of_ofValue hread, Bool.not_false]
    rw [Memory.loadFlow_eq, Memory.document?, holds.flow, Option.filter_some, if_pos hnonempty]
    simp only [hread]
    exact ⟨trivial, holds⟩
  · have hran : Table.outcome d.clock (.loadFlow tenant name) ⟨m, []⟩ =
        (.ok (some flow), ⟨m, []⟩) := by
      rw [Table.outcome, Memory.reads_bind, holds.flow, Option.bind_some, hread]
      rfl
    rw [hran]
    exact ⟨rfl, holds⟩
  · obtain ⟨s, hlies, hdocument⟩ := holds.flow
    obtain ⟨hloads, hunchanged⟩ :=
      @Directory.of_loadFlow d.clock tenant name dir (⟨files, events⟩ : Traced Files)
    refine ⟨(hloads flow).2 ?_, hunchanged ▸ holds⟩
    rw [hlies, Option.bind_some]
    exact Stored.load?_eq_some_iff.2 ⟨doc, hdocument, hread⟩

/-- The document of the conversation is fetched. -/
theorem Holds.fetch :
    (Deployment.access ⟨n, n⟩ (.fetchConversation (Identifier.safeName tenant) number) d).1 =
        .ok found ∧
      (Deployment.access ⟨n, n⟩
        (.fetchConversation (Identifier.safeName tenant) number) d).2.clock = d.clock ∧
      k.Holds n tenant name number doc found
        (Deployment.access ⟨n, n⟩
          (.fetchConversation (Identifier.safeName tenant) number) d).2 := by
  refine holds.access_of_same (a := .fetchConversation _ number) (Q := (· = .ok found))
    (fun m events holds => ?_) (fun m holds => ?_)
    fun dir _ files events holds => ?_
  · exact ⟨congrArg Except.ok holds.entry, holds⟩
  · exact ⟨congrArg Except.ok holds.entry, holds⟩
  · obtain ⟨events', hran⟩ := holds.fetch d.clock events
    rw [hran]
    exact ⟨rfl, holds⟩

/-- A conversation is put in the place of what was found, unless that counts as the same. -/
theorem Holds.put {c : Conversation} (hwrites : k.Writes tenant) (hsound : c.IsSound) :
    (Deployment.access ⟨n, n⟩
        (.putConversation (Identifier.safeName tenant) number c.written) d).1 = .ok () ∧
      (Deployment.access ⟨n, n⟩
        (.putConversation (Identifier.safeName tenant) number c.written) d).2.clock = d.clock ∧
      ∃ found', (∃ held, found' = some held ∧
          (held = c.written ∨ found = some held ∧ c.written.same held = true)) ∧
        k.Holds n tenant name number doc found' (Deployment.access ⟨n, n⟩
          (.putConversation (Identifier.safeName tenant) number c.written) d).2 := by
  refine holds.access (a := .putConversation _ number c.written) (Q := (· = .ok ()))
    (fun m events holds => ?_) (fun m holds => ?_)
    fun dir hkind files events hlies => ?_
  · exact ⟨rfl, _, ⟨_, rfl, .inl rfl⟩, holds.put hsound⟩
  · obtain ⟨row, hmade, hdocument⟩ := Table.conversationRow_of_isSound hsound
      ((m.conversations.get? (Identifier.safeName tenant, number)).map
        fun document => ⟨.null, .null, document⟩)
    have hran : Table.outcome d.clock
        (.putConversation (Identifier.safeName tenant) number c.written) ⟨m, []⟩ =
          (.ok (), ⟨m.withConversation (Identifier.safeName tenant, number) row.document, []⟩) := by
      simp only [Table.outcome, Memory.reads_bind, hmade]
      rfl
    rw [hran]
    refine ⟨rfl, holds.put_kept hsound ?_⟩
    rw [hdocument]
    cases m.conversations.get? (Identifier.safeName tenant, number) <;> rfl
  · subst hkind
    obtain ⟨files', events', hran, hlies'⟩ := hlies.put hwrites hsound d.clock events
    rw [hran]
    exact ⟨rfl, _, ⟨_, rfl, .inl rfl⟩, hlies'⟩

end

/-- The conversation is looked for, and what was found stays. -/
theorem Holds.getConversation {counterparty : Value}
    (holds : k.Holds n tenant name number doc found d)
    (hkey : counterpartyKey counterparty = .ok number) (clock : String) :
    ∃ t, (Store.getConversation clock tenant counterparty).run (Deployment.access ⟨n, n⟩)
        Deployment.log d = (.ok (Conversation.read? clock found), t) ∧
      k.Holds n tenant name number doc found t := by
  obtain ⟨hanswer, -, hafter⟩ := holds.fetch
  obtain ⟨u, hran, rfl | ⟨e, rfl⟩⟩ := Inbound.exists_run_getConversation hkey
    (show Deployment.access ⟨n, n⟩ (.fetchConversation (Identifier.safeName tenant) number) d =
      (.ok found, _) from Prod.ext hanswer rfl)
  · exact ⟨_, hran, hafter⟩
  · exact ⟨_, hran, hafter.log e⟩

/-- Where conversations are not written, they are refused, and what was found stays. -/
theorem Holds.put_refused (holds : k.Holds n tenant name number doc found d)
    (hrefuses : ¬ k.Writes tenant) (v : Value) :
    ∃ f t, Deployment.access ⟨n, n⟩ (.putConversation (Identifier.safeName tenant) number v) d =
      (.error f, t) ∧ k.Holds n tenant name number doc found t := by
  cases k with
  | memory | table => exact absurd trivial hrefuses
  | files dir =>
    obtain ⟨hengine, hthere, hlies⟩ := holds
    obtain ⟨base, hlaid⟩ := hlies.laid
    obtain ⟨f, events', hrefused⟩ := Directory.exists_putConversation_error hlaid
      (Identifier.isName_safeName tenant) (eq_true_of_ne_false hrefuses) d.clock number v d.events
    refine ⟨f, { d with events := events' }, ?_, hengine, hthere, hlies⟩
    show Deployment.accessStore n _ d = _
    rw [Deployment.accessStore, store_eq hthere]
    simp only [Deployment.onFiles, Run.zoom_apply, hrefused]

/-- A deployment at work holds the conversation. -/
theorem holding (k : Storage) (n : Nat) (number : String) {flow : Flow} {name clock : String}
    (hwrites : k.Writes tenant) (hread : Flow.ofValue clock doc = .ok flow) :
    Inbound.Holding (Deployment.access ⟨n, n⟩) Deployment.log tenant name number flow
      fun found d => d.clock = clock ∧ k.Holds n tenant (.str name) number doc found d where
  load holds := by
    obtain ⟨rfl, holds⟩ := holds
    obtain ⟨hanswer, hclock, holds⟩ := holds.load hread
    exact ⟨_, Prod.ext hanswer rfl, hclock, holds⟩
  fetch holds := by
    obtain ⟨rfl, holds⟩ := holds
    obtain ⟨hanswer, hclock, holds⟩ := holds.fetch
    exact ⟨_, Prod.ext hanswer rfl, hclock, holds⟩
  put hsound holds := by
    obtain ⟨rfl, holds⟩ := holds
    obtain ⟨hanswer, hclock, _, ⟨held, rfl, hput⟩, holds⟩ := holds.put hwrites hsound
    exact ⟨held, _, Prod.ext hanswer rfl, ⟨hclock, holds⟩, hput⟩
  log e holds := ⟨holds.1, holds.2.log e⟩

/-! ## Calls -/

variable {key : String} {counterparty : Value}

/-- A message comes to what is told of the conversation that is held.  The last conversation that is
told of it is read afterwards, if the first survives what was found. -/
theorem Holds.call_inbound {name clock clock' : String} {flow : Flow}
    (holds : k.Holds n tenant (.str name) key doc found d) (hwrites : k.Writes tenant)
    (hread : Flow.ofValue clock' doc = .ok flow) (hsteps : flow.steps ≠ [])
    (hkey : counterpartyKey counterparty = .ok key)
    (hsound : ∀ c, Conversation.read? clock found = some c → c.IsSound) (text time : Option String)
    (hops : Int) :
    ∃ outcome saves found',
      (d.call clock (.inbound tenant counterparty text name time hops)).1 =
        .ok (.outcome outcome) ∧
      Turn.Reference flow name (Inbound.stripped text) (Inbound.timeOf clock time) hops.toNat
        (Conversation.read? clock found) outcome saves ∧
      (∀ c ∈ saves, c.IsSound) ∧
      k.Holds n tenant (.str name) key doc found'
        (d.call clock (.inbound tenant counterparty text name time hops)).2 ∧
      ((∀ c, saves.head? = some c → c.Survives found) → ∀ clock',
        Conversation.read? clock' found' =
          saves.getLast?.or (Conversation.read? clock' found)) := by
  obtain ⟨flow', hread', hsame⟩ := Flow.exists_ofValue_now hread clock
  have hsteps' : flow'.steps ≠ [] := hsame ▸ hsteps
  obtain ⟨outcome, saves, found', t, hran, htold, hsounds, ⟨-, holds'⟩, hlast⟩ :=
    (holding k n key hwrites hread').handle hkey hsteps' ⟨rfl, holds.setClock clock⟩ clock hsound
      hops
      text time
  rw [← holds.engine] at hran
  rw [Deployment.call_inbound_eq, hran]
  exact ⟨outcome, saves, found', rfl, htold.of_steps hsame.symm, hsounds, holds', hlast⟩

/-- A message to a flow without steps is told so, and what was found stays. -/
theorem Holds.call_inbound_stepless {name clock clock' : String} {flow : Flow}
    (holds : k.Holds n tenant (.str name) key doc found d)
    (hread : Flow.ofValue clock' doc = .ok flow) (hstepless : flow.steps = [])
    (text time : Option String) (hops : Int) :
    (d.call clock (.inbound tenant counterparty text name time hops)).1 =
        .ok (.outcome (.empty name)) ∧
      k.Holds n tenant (.str name) key doc found
        (d.call clock (.inbound tenant counterparty text name time hops)).2 := by
  obtain ⟨flow', hread', hsame⟩ := Flow.exists_ofValue_now hread clock
  obtain ⟨t, hloaded, holds'⟩ : ∃ t, Deployment.access ⟨n, n⟩ (.loadFlow tenant (.str name))
      { d with clock } = (.ok (some flow'), t) ∧ k.Holds n tenant (.str name) key doc found t := by
    obtain ⟨hanswer, -, hafter⟩ := (holds.setClock clock).load hread'
    exact ⟨_, Prod.ext hanswer rfl, hafter⟩
  have hran : (Inbound.handle clock hops (Inbound.ofTexts tenant counterparty text name time)).run
      (Deployment.access ⟨n, n⟩) Deployment.log { d with clock } = _ :=
    Inbound.run_handle_stepless hloaded (hsame.trans hstepless) clock hops text time
  rw [← holds.engine] at hran
  rw [Deployment.call_inbound_eq, hran]
  exact ⟨rfl, holds'.log _⟩

/-- Where conversations are not written, what was found stays, and a message is answered only if
nothing is stored. -/
theorem Holds.call_inbound_refused {name clock clock' : String} {flow : Flow}
    (holds : k.Holds n tenant (.str name) key doc found d) (hrefuses : ¬ k.Writes tenant)
    (hread : Flow.ofValue clock' doc = .ok flow) (hsteps : flow.steps ≠ [])
    (hkey : counterpartyKey counterparty = .ok key) (text time : Option String) (hops : Int) :
    k.Holds n tenant (.str name) key doc found
        (d.call clock (.inbound tenant counterparty text name time hops)).2 ∧
      ∀ outcome, (d.call clock (.inbound tenant counterparty text name time hops)).1 =
          .ok (.outcome outcome) →
        Turn.Reference flow name (Inbound.stripped text) (Inbound.timeOf clock time) hops.toNat
          (Conversation.read? clock found) outcome [] := by
  obtain ⟨flow', hread', hsame⟩ := Flow.exists_ofValue_now hread clock
  obtain ⟨hanswer, -, holds₁⟩ := (holds.setClock clock).load hread'
  have hloaded : Deployment.access ⟨n, n⟩ (.loadFlow tenant (.str name)) { d with clock } =
      (.ok (some flow'), _) := Prod.ext hanswer rfl
  obtain ⟨u, hfetched, hgood⟩ := holds₁.getConversation hkey clock
  obtain ⟨hkept, hanswered⟩ := Inbound.run_handle_refused hkey (fun e u hgood => Holds.log hgood e)
    (fun v u hgood => Holds.put_refused hgood hrefuses v) (hsame ▸ hsteps) hloaded hfetched hgood
      hops text
    time
  rw [← holds.engine] at hkept hanswered
  rw [Deployment.call_inbound_eq]
  rcases hran : (Inbound.handle clock hops (Inbound.ofTexts tenant counterparty text name time)).run
    (Deployment.access d.engine) Deployment.log { d with clock } with ⟨f | outcome, t⟩ <;>
    rw [hran] at hkept hanswered
  · exact ⟨hkept, nofun⟩
  · refine ⟨hkept, fun outcome' hended => ?_⟩
    cases hended
    exact (hanswered outcome rfl).of_steps hsame.symm

/-- The conversation that is held is found. -/
theorem Holds.call_getConversation {name : Value}
    (holds : k.Holds n tenant name key doc found d)
    (hkey : counterpartyKey counterparty = .ok key) (clock : String) :
    (d.call clock (.getConversation tenant counterparty)).1 =
      .ok (.conversation (Conversation.read? clock found)) := by
  have hengine : ({ d with clock } : Deployment).engine = ⟨n, n⟩ := holds.engine
  have hfetched := (holds.setClock clock).fetch.1
  rw [← hengine] at hfetched
  rw [call_getConversation_eq hkey]
  exact congrArg _ hfetched

section

variable {clock clock' : String} {flow : Flow} (hengine : d.engine = ⟨n, n⟩)
  (hloaded : (Deployment.accessStore n (.loadFlow tenant name) { d with clock }).1 =
    .ok (some flow))
  (hfetched : (Deployment.accessStore n (.fetchConversation (Identifier.safeName tenant) key)
    { d with clock := clock' }).1 = .ok found)

include hengine hloaded hfetched

theorem exists_holds_memory {m : Memory} (hshows : d.stores[n]? = some (.memory m)) :
    ∃ doc, memory.Holds n tenant name key doc found d ∧ Flow.ofValue clock doc = .ok flow := by
  rw [Deployment.accessStore, store_eq (d := { d with clock }) hshows] at hloaded
  rw [Deployment.accessStore, store_eq (d := { d with clock := clock' }) hshows] at hfetched
  obtain ⟨s, hlies, hload⟩ := Option.bind_eq_some_iff.1 (Memory.load_iff.1 hloaded)
  obtain ⟨doc, hflow, rfl⟩ := Option.map_eq_some_iff.1 hlies
  obtain ⟨doc', hdocument, hparsed⟩ := Stored.load?_eq_some_iff.1 hload
  obtain ⟨-, rfl⟩ : doc.isEmpty = false ∧ doc = doc' := by
    simpa [Stored.document?] using hdocument
  exact ⟨doc, ⟨hengine, m, hshows, hflow, Except.ok.inj hfetched⟩, hparsed⟩

/-- Files hold what is read from them. -/
theorem exists_holds_files {dir : Path} {base : Place}
    (hthere : d.stores[n]? = some (.directory dir)) (hlaid : Directory.Laid dir base d.files) :
    ∃ doc, (files dir).Holds n tenant name key doc found d ∧
      Flow.ofValue clock doc = .ok flow := by
  rw [Deployment.accessStore, store_eq (d := { d with clock }) hthere] at hloaded
  rw [Deployment.accessStore, store_eq (d := { d with clock := clock' }) hthere] at hfetched
  have hlies := ((@Directory.of_loadFlow clock tenant name dir
    (⟨d.files, d.events⟩ : Traced Files)).1 flow).1 hloaded
  obtain ⟨s, hlies, hload⟩ := Option.bind_eq_some_iff.1 hlies
  obtain ⟨doc, hdocument, hparsed⟩ := Stored.load?_eq_some_iff.1 hload
  obtain ⟨events', hran⟩ := Directory.exists_fetchConversation clock' dir
    (Identifier.safeName tenant) key d.files d.events
  have hentry : ((Directory.stateIn dir (Identifier.safeName tenant) d.files).bind fun state =>
      Except.ok (Directory.conversationOf (Fields.get? state key))) = .ok found := by
    rw [← hfetched]
    exact (congrArg Prod.fst hran).symm
  refine ⟨doc, ⟨hengine, hthere, ⟨base, hlaid⟩, ⟨s, hlies, hdocument⟩, ?_⟩, hparsed⟩
  rw [← hentry]
  cases Directory.stateIn dir (Identifier.safeName tenant) d.files <;> rfl

/-- Tables hold what is found in their rows. -/
theorem exists_holds_table {location : Database.Location} {m : Memory}
    (hshows : (table location).Shows n d m) :
    ∃ doc, (table location).Holds n tenant name key doc found d ∧
      Flow.ofValue clock doc = .ok flow := by
  obtain ⟨address, f, c, hthere, hknown, hshows⟩ := hshows
  rw [Deployment.accessStore, store_eq (d := { d with clock }) hthere] at hloaded
  rw [Deployment.accessStore, store_eq (d := { d with clock := clock' }) hthere] at hfetched
  have hloads := (Table.access_comesTo hknown hshows clock d.settings.database.url d.events
    (.loadFlow tenant name)).result.symm.trans hloaded
  have hfetches := (Table.access_comesTo hknown hshows clock' d.settings.database.url d.events
    (.fetchConversation (Identifier.safeName tenant) key)).result.symm.trans hfetched
  have hload : (m.flows.get? (flowKey tenant name)).bind
      (fun doc => (Flow.ofValue clock doc).toOption) = some flow := Except.ok.inj hloads
  obtain ⟨doc, hlies, hload⟩ := Option.bind_eq_some_iff.1 hload
  refine ⟨doc, ⟨hengine, m, ⟨address, f, c, hthere, hknown, hshows⟩, hlies, Except.ok.inj hfetches⟩,
    ?_⟩
  cases hparsed : Flow.ofValue clock doc with
  | error mismatch =>
    rw [hparsed] at hload
    cases hload
  | ok flow' =>
    rw [hparsed] at hload
    exact congrArg Except.ok (Option.some.inj hload)

end

/-- Whatever a deployment keeps, it holds the flow that is loaded and the conversation that is
found.
-/
theorem Keeps.exists_holds {clock clock' : String} {flow : Flow} {stored : Option Conversation}
    (hkeeps : k.Keeps n d) (hkey : counterpartyKey counterparty = .ok key)
    (hloaded : (d.call clock (.loadFlow tenant name)).1 = .ok (.found (some flow)))
    (hfetched : (d.call clock' (.getConversation tenant counterparty)).1 =
      .ok (.conversation stored)) :
    ∃ doc found, k.Holds n tenant name key doc found d ∧ Flow.ofValue clock doc = .ok flow ∧
      Conversation.read? clock' found = stored := by
  have hsees := hkeeps (Identifier.safeName tenant, key) (Identifier.isName_safeName tenant)
  have hengine := hsees.engine
  have hsame (a : Access) : Deployment.access d.engine a = Deployment.accessStore n a := by
    rw [hengine]
    simp [Deployment.access]
  rw [call_eq (.loadFlow tenant name) rfl, hsame] at hloaded
  rw [call_getConversation_eq hkey, hsame] at hfetched
  have hloaded' : (Deployment.accessStore n (.loadFlow tenant name) { d with clock }).1 =
      .ok (some flow) := by
    revert hloaded
    rcases Deployment.accessStore n (.loadFlow tenant name) { d with clock } with ⟨f | found, t⟩ <;>
      intro hloaded <;> cases hloaded
    rfl
  obtain ⟨found, hfetched', hread⟩ : ∃ found, (Deployment.accessStore n
      (.fetchConversation (Identifier.safeName tenant) key) { d with clock := clock' }).1 =
        .ok found ∧ Conversation.read? clock' found = stored := by
    revert hfetched
    rcases (Deployment.accessStore n (.fetchConversation (Identifier.safeName tenant) key)
      { d with clock := clock' }).1 with f | found <;> intro hfetched <;> cases hfetched
    exact ⟨found, rfl, rfl⟩
  have hrelates := hsees.relates
  obtain ⟨doc, holds, hparsed⟩ :
      ∃ doc, k.Holds n tenant name key doc found d ∧ Flow.ofValue clock doc = .ok flow := by
    cases k with
    | memory =>
      obtain ⟨m, -, hshows, -⟩ := hrelates
      exact exists_holds_memory hengine hloaded' hfetched' hshows
    | files dir =>
      obtain ⟨hthere, -, base, hsees⟩ := hrelates
      exact exists_holds_files hengine hloaded' hfetched' hthere hsees.laid
    | table location =>
      obtain ⟨m, -, hshows, -⟩ := hrelates
      exact exists_holds_table hengine hloaded' hfetched' hshows
  exact ⟨doc, found, holds, hparsed, hread⟩

end Storage

end Dialogue

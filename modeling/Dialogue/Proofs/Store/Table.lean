import Dialogue.Proofs.Database.Site
import Dialogue.Proofs.Store.Mirror
import Dialogue.Proofs.Value.Same
import Dialogue.Store.Table

/-!
# The store in a database mirrors contents

The rows of the tables hold the documents of flows and conversations under their storage keys, so
the tables show contents (`Table.contents`).  The store takes every access but those that write a
flow whose version does not fit into its column (`Access.Fits`).  A row that is written over may
keep its document (`kept_cases`), and then the contents stay as they are.
-/

namespace Dialogue.Store

open Database Keyed

/-- The version of a flow that is written fits into its column. -/
def Access.Fits : Access → Prop
  | .createFlow _ flow | .writeFlow _ flow => Table.fits flow.version = true
  | _ => True

namespace Table

/-- The contents that tables show. -/
def contents (tables : Tables) : Memory :=
  { flows := mapValues FlowRow.document tables.flows
    conversations := mapValues ConversationRow.document tables.conversations }

/-- The tables are there, behind a connection that is open. -/
structure Ready (location : Location) (s : State) (tables : Tables) : Prop where
  serves : s.site.Serves location (some tables)
  connected : s.site.connection.isSome = true

/-- Contents are held by tables that are there, behind a connection that is open. -/
def Holds (location : Location) (s : State) (m : Memory) : Prop :=
  ∃ tables, Ready location s tables ∧ contents tables = m

/-- The store shows the contents of the tables at a location, which it makes when it needs them. -/
def Shows (location : Location) (s : State) (m : Memory) : Prop :=
  ∃ found, s.site.Serves location found ∧ contents (found.getD {}) = m ∧
    (s.flowsReady = true ∨ s.conversationsReady = true →
      found.isSome = true ∧ s.site.connection.isSome = true)

variable {location : Location} {s : State} {m : Memory} {tables : Tables} {connection : Connection}
  {address : Value}

theorem Ready.shows (hready : Ready location s tables) : Shows location s (contents tables) :=
  ⟨some tables, hready.serves, rfl, fun _ => ⟨rfl, hready.connected⟩⟩

theorem Ready.holds (hready : Ready location s tables) : Holds location s (contents tables) :=
  ⟨tables, hready, rfl⟩

theorem Holds.shows (holds : Holds location s m) : Shows location s m := by
  obtain ⟨tables, hready, rfl⟩ := holds
  exact hready.shows

theorem Shows.unique {m' : Memory} (hshows : Shows location s m) (hshows' : Shows location s m') :
    m = m' := by
  obtain ⟨found, hserves, rfl, -⟩ := hshows
  obtain ⟨found', hserves', rfl, -⟩ := hshows'
  rw [hserves.unique hserves']

/-- Whether the tables that an access is about are known to be there. -/
def State.isReady (s : State) (a : Access) : Bool :=
  if a.isAboutFlows then s.flowsReady else s.conversationsReady

/-- An access reaches contents at a location: what is open leads there, and where nothing is open
the address does that is used; `ready` says whether the tables are known to be there. -/
structure Reaches (location : Location) (address configured : Value) (ready : Bool) (s : State)
    (m : Memory) : Prop where
  serves : ∃ found, s.site.Serves location found ∧ contents (found.getD {}) = m ∧
    (ready = true → found.isSome = true)
  made : ready = false → s.site.connection = none → IsAddressOf address location
  later : ready = true → s.site.connection = none → IsAddressOf configured location

/-- A store that shows contents reaches them. -/
theorem Shows.reaches (hshows : Shows location s m) (hknown : IsAddressOf address location)
    (configured : Value) {ready : Bool}
    (hflag : ready = true → s.flowsReady = true ∨ s.conversationsReady = true) :
    Reaches location address configured ready s m := by
  obtain ⟨found, hserves, hsame, hthere⟩ := hshows
  exact ⟨⟨found, hserves, hsame, fun hset => (hthere (hflag hset)).1⟩, fun _ _ => hknown,
    fun hset hclosed => by simpa [hclosed] using (hthere (hflag hset)).2⟩

section

variable {configured : Value}

/-- Tables that are made are those that were found before, or empty ones. -/
theorem onSite_createTables {found : Option Tables}
    (hknown : s.site.connection = none → IsAddressOf address location)
    (hserves : s.site.Serves location found) (events : List Event) :
    ∃ site' events', onSite (createTables address) ⟨s, events⟩ =
        (.ok (), ⟨{ s with site := site' }, events'⟩) ∧
      site'.Serves location (some (found.getD {})) ∧ site'.connection.isSome = true := by
  obtain ⟨site', events', hmade, hserves', hconnected⟩ := createTables_spec hknown hserves events
  exact ⟨site', events', by rw [onSite, Run.zoom_apply, hmade], hserves', hconnected⟩

/-- The tables that are there are found. -/
theorem onSite_current (hknown : s.site.connection = none → IsAddressOf configured location)
    (hserves : s.site.Serves location (some tables)) (events : List Event) :
    ∃ c s' events', c.location = location ∧ Ready location s' tables ∧
      onSite (current configured) ⟨s, events⟩ = (.ok (c, tables), ⟨s', events'⟩) := by
  obtain ⟨c, site', events', hpoints, hfound, hserves', hconnected⟩ :=
    current_spec hknown hserves events
  exact ⟨c, { s with site := site' }, events', hpoints, ⟨hserves', hconnected⟩,
    by rw [onSite, Run.zoom_apply, hfound]⟩

theorem onSite_store (hready : Ready location s tables) (hpoints : connection.location = location)
    (changed : Tables) (events : List Event) :
    ∃ s', onSite (store connection changed) ⟨s, events⟩ = (.ok (), ⟨s', events⟩) ∧
      Ready location s' changed := by
  obtain ⟨site', hstored, hserves, hconnected⟩ :=
    store_spec hready.serves hpoints hready.connected changed events
  exact ⟨{ s with site := site' }, by rw [onSite, Run.zoom_apply, hstored], hserves, hconnected⟩

/-- Whatever is done with flows is done with the tables that are found, or with empty ones. -/
theorem withFlows_tables {found : Option Tables}
    (hreaches : Reaches location address configured s.flowsReady s m)
    (hserves : s.site.Serves location found) (events : List Event) :
    ∃ c s' events', c.location = location ∧ Ready location s' (found.getD {}) ∧
      ∀ {α : Type} (k : Connection × Tables → Run (Traced State) α),
        (readyFlows address >>= fun _ => onSite (current configured) >>= k) ⟨s, events⟩ =
          k (c, found.getD {}) ⟨s', events'⟩ := by
  obtain ⟨⟨found', hserves', -, hthere⟩, hknown, hlater⟩ := hreaches
  obtain rfl := hserves.unique hserves'
  cases hflag : s.flowsReady with
  | true =>
    obtain ⟨tables, rfl⟩ := Option.isSome_iff_exists.1 (hthere hflag)
    obtain ⟨c, s', events', hpoints, hready, hfound⟩ := onSite_current (hlater hflag) hserves events
    have hmade : readyFlows address ⟨s, events⟩ = (.ok (), ⟨s, events⟩) := by
      simp [readyFlows, hflag]
    exact ⟨c, s', events', hpoints, hready, fun k => by
      rw [Run.bind_ok hmade, Run.bind_ok hfound]
      rfl⟩
  | false =>
    obtain ⟨site₁, events₁, hmade, hserves, hconnected⟩ :=
      onSite_createTables (hknown hflag) hserves events
    have hmade : readyFlows address ⟨s, events⟩ =
        (.ok (), ⟨{ s with site := site₁, flowsReady := true }, events₁⟩) := by
      simp only [readyFlows, Run.read_bind, hflag]
      exact Run.bind_ok hmade
    have hopen : site₁.connection = none → IsAddressOf configured location := fun hclosed => by
      rw [hclosed] at hconnected
      cases hconnected
    obtain ⟨c, s', events', hpoints, hready, hfound⟩ :=
      onSite_current (s := { s with site := site₁, flowsReady := true }) hopen hserves events₁
    exact ⟨c, s', events', hpoints, hready, fun k => by
      rw [Run.bind_ok hmade, Run.bind_ok hfound]⟩

/-- Whatever is done with flows is done with the tables, which are there. -/
theorem withFlows_spec (hreaches : Reaches location address configured s.flowsReady s m)
    (events : List Event) :
    ∃ c tables s' events', c.location = location ∧ Ready location s' tables ∧
      contents tables = m ∧ ∀ {α : Type} (k : Connection × Tables → Run (Traced State) α),
        (readyFlows address >>= fun _ => onSite (current configured) >>= k) ⟨s, events⟩ =
          k (c, tables) ⟨s', events'⟩ := by
  obtain ⟨found, hserves, hsame, -⟩ := hreaches.serves
  obtain ⟨c, s', events', hpoints, hready, hran⟩ := withFlows_tables hreaches hserves events
  exact ⟨c, found.getD {}, s', events', hpoints, hready, hsame, hran⟩

/-- Whatever is done with conversations is done with the tables that are found, or with empty ones.
-/
theorem withConversations_tables {found : Option Tables}
    (hreaches : Reaches location address configured s.conversationsReady s m)
    (hserves : s.site.Serves location found) (events : List Event) :
    ∃ c s' events', c.location = location ∧ Ready location s' (found.getD {}) ∧
      ∀ {α : Type} (k : Connection × Tables → Run (Traced State) α),
        (readyConversations address >>= fun _ => onSite (current configured) >>= k) ⟨s, events⟩ =
          k (c, found.getD {}) ⟨s', events'⟩ := by
  obtain ⟨⟨found', hserves', -, hthere⟩, hknown, hlater⟩ := hreaches
  obtain rfl := hserves.unique hserves'
  cases hflag : s.conversationsReady with
  | true =>
    obtain ⟨tables, rfl⟩ := Option.isSome_iff_exists.1 (hthere hflag)
    obtain ⟨c, s', events', hpoints, hready, hfound⟩ := onSite_current (hlater hflag) hserves events
    have hmade : readyConversations address ⟨s, events⟩ = (.ok (), ⟨s, events⟩) := by
      simp [readyConversations, hflag]
    exact ⟨c, s', events', hpoints, hready, fun k => by
      rw [Run.bind_ok hmade, Run.bind_ok hfound]
      rfl⟩
  | false =>
    obtain ⟨site₁, events₁, hmade, hserves, hconnected⟩ :=
      onSite_createTables (hknown hflag) hserves events
    have hmade : readyConversations address ⟨s, events⟩ =
        (.ok (), ⟨{ s with site := site₁, conversationsReady := true }, events₁⟩) := by
      simp only [readyConversations, Run.read_bind, hflag]
      exact Run.bind_ok hmade
    have hopen : site₁.connection = none → IsAddressOf configured location := fun hclosed => by
      rw [hclosed] at hconnected
      cases hconnected
    obtain ⟨c, s', events', hpoints, hready, hfound⟩ :=
      onSite_current (s := { s with site := site₁, conversationsReady := true })
        hopen hserves events₁
    exact ⟨c, s', events', hpoints, hready, fun k => by
      rw [Run.bind_ok hmade, Run.bind_ok hfound]⟩

/-- Whatever is done with conversations is done with the tables, which are there. -/
theorem withConversations_spec
    (hreaches : Reaches location address configured s.conversationsReady s m)
    (events : List Event) :
    ∃ c tables s' events', c.location = location ∧ Ready location s' tables ∧
      contents tables = m ∧ ∀ {α : Type} (k : Connection × Tables → Run (Traced State) α),
        (readyConversations address >>= fun _ => onSite (current configured) >>= k) ⟨s, events⟩ =
          k (c, tables) ⟨s', events'⟩ := by
  obtain ⟨found, hserves, hsame, -⟩ := hreaches.serves
  obtain ⟨c, s', events', hpoints, hready, hran⟩ := withConversations_tables hreaches hserves events
  exact ⟨c, found.getD {}, s', events', hpoints, hready, hsame, hran⟩

end

/-! ## Rows -/

/-- A row has the document that is written, or it keeps the one that counts as the same. -/
theorem kept_cases (held : Option Value) (doc : Value) :
    kept held doc = doc ∧ (∀ old, held = some old → doc.same old = false) ∨
      ∃ old, held = some old ∧ doc.same old = true ∧ kept held doc = old := by
  cases held with
  | none => exact .inl ⟨rfl, fun old hthere => by cases hthere⟩
  | some old =>
    cases hsame : doc.same old with
    | true => exact .inr ⟨old, rfl, hsame, by simp [kept, hsame]⟩
    | false =>
      refine .inl ⟨by simp [kept, hsame], ?_⟩
      rintro _ ⟨⟩
      exact hsame

/-- A plain conversation goes into a row, over whatever row. -/
theorem conversationRow_spec {c : Conversation} (hplain : c.IsPlain)
    (old : Option ConversationRow) :
    ∃ row, conversationRow old (.dict c.document) = .ok row ∧
      row.document = kept (old.map (·.document)) (.dict c.document) := by
  obtain ⟨t, hcompleted⟩ := hplain.completed
  have hflow : Fields.get? c.document "flow" = some (.str c.flow) := by
    simp [hplain.document_eq, Keyed.get?]
  have hcompletedAt : Fields.getD c.document "completedAt" = .ofOption t := by
    simp [hplain.document_eq, Fields.getD, Keyed.get?, hcompleted]
  have hcolumn : ∀ t, textColumn (.ofOption t) = .ok (.ofOption t) := by
    intro t
    cases t <;> rfl
  refine ⟨⟨.str c.flow, .ofOption t, kept (old.map (·.document)) (.dict c.document)⟩, ?_, rfl⟩
  simp only [conversationRow, hflow, hcompletedAt, Option.getD_some, hcolumn]
  cases old <;> rfl

/-- Of an old row only the document matters. -/
theorem conversationRow_congr {old old' : Option ConversationRow}
    (hsame : old.map (·.document) = old'.map (·.document)) (doc : Value) :
    conversationRow old doc = conversationRow old' doc := by
  unfold conversationRow
  rw [hsame]
  cases old <;> cases old' <;> first | rfl | simp at hsame

/-- A flow goes into a row if its version fits. -/
theorem flowRow_spec (old : Option FlowRow) (flow : Flow) :
    (fits flow.version = true ∧ ∃ row, flowRow old flow = .ok row ∧
        row.document = kept (old.map (·.document)) (.dict flow.document)) ∨
      fits flow.version ≠ true ∧ flowRow old flow = .error (.database .numberTooLarge) := by
  by_cases hfit : fits flow.version = true
  · exact .inl ⟨hfit, _, if_pos hfit, rfl⟩
  · exact .inr ⟨hfit, if_neg hfit⟩

/-- The tables with a row of a flow. -/
def withFlowRow (tables : Tables) (key : Key) (row : FlowRow) : Tables :=
  { tables with flows := tables.flows.set key row }

/-- The tables with a row of a conversation. -/
def withConversationRow (tables : Tables) (key : Key) (row : ConversationRow) : Tables :=
  { tables with conversations := tables.conversations.set key row }

/-- The tables without a row of a conversation. -/
def withoutConversationRow (tables : Tables) (key : Key) : Tables :=
  { tables with conversations := tables.conversations.erase key }

theorem contents_withFlowRow (tenant : Value) {flow : Flow} {row : FlowRow}
    (hdocument : row.document = .dict flow.document) :
    contents (withFlowRow tables (flowKey tenant (.str flow.name)) row) =
      (contents tables).withFlow tenant flow := by
  simp [contents, withFlowRow, Memory.withFlow, mapValues_set, hdocument]

/-- A row that keeps its document leaves the contents as they are. -/
theorem contents_withFlowRow_self {key : Key} {row : FlowRow}
    (hthere : (contents tables).flows.get? key = some row.document) :
    contents (withFlowRow tables key row) = contents tables := by
  have hsame : (mapValues FlowRow.document tables.flows).set key row.document =
      mapValues FlowRow.document tables.flows := Keyed.set_eq_self hthere
  simp only [contents, withFlowRow, mapValues_set, hsame]

theorem contents_withConversationRow (key : Key) (row : ConversationRow) :
    contents (withConversationRow tables key row) =
      (contents tables).withConversation key row.document := by
  simp [contents, withConversationRow, Memory.withConversation, mapValues_set]

theorem get?_contents_flows (tables : Tables) (key : Key) :
    (contents tables).flows.get? key = (tables.flows.get? key).map FlowRow.document :=
  get?_mapValues _ _ _

theorem get?_contents_conversations (tables : Tables) (key : Key) :
    (contents tables).conversations.get? key =
      (tables.conversations.get? key).map ConversationRow.document :=
  get?_mapValues _ _ _

theorem contents_withoutConversationRow (key : Key) :
    contents (withoutConversationRow tables key) = (contents tables).withoutConversation key := by
  simp [contents, withoutConversationRow, Memory.withoutConversation, mapValues_erase]

/-! ## Accesses -/

/-- What an access comes to that finds the tables ready. -/
abbrev Does (location : Location) (now : String) (m : Memory) (a : Access) :=
  Follows now Access.Fits (fun (t : Traced State) m => Shows location t.state m) m a

section

variable (hknown : IsAddressOf address location) (hshows : Shows location s m) (now : String)
  (configured : Value) (events : List Event)

include hknown hshows

theorem does_loadFlow (htidy : m.Tidy) (tenant name : Value) :
    Does location now m (.loadFlow tenant name)
      (access now address configured (.loadFlow tenant name) ⟨s, events⟩) := by
  obtain ⟨c, tables, s', events', hpoints, hready, rfl, hran⟩ :=
    withFlows_spec (hshows.reaches hknown configured .inl) events
  have hdocument := Memory.document?_flows htidy (flowKey tenant name)
  rw [contents, get?_mapValues] at hdocument
  cases hfound : tables.flows.get? (flowKey tenant name) with
  | none =>
    refine .of_ok (r := none) (t := ⟨s', events'⟩) ((hran _).trans ?_) ?_ hready.shows
    · simp [hfound]
    · simp [Access.Same, Memory.answer, Memory.flow?, contents, hdocument, hfound]
  | some row =>
    cases hread : Flow.ofValue now row.document with
    | ok flow =>
      refine .of_ok (r := some flow) (t := ⟨s', events'⟩) ((hran _).trans ?_) ?_ hready.shows
      · simp [hfound, hread]
      · simp [Access.Same, Memory.answer, Memory.flow?, contents, hdocument, hfound, hread,
          Except.toOption]
    | error mismatch =>
      refine .of_ok (r := none) (t := ⟨s', .flowRowUnreadable tenant name :: events'⟩)
        ((hran _).trans ?_) ?_ hready.shows
      · simp [hfound, hread, Traced.log]
      · simp [Access.Same, Memory.answer, Memory.flow?, contents, hdocument, hfound, hread,
          Except.toOption]

theorem does_createFlow (tenant : Value) (flow : Flow) :
    Does location now m (.createFlow tenant flow)
      (access now address configured (.createFlow tenant flow) ⟨s, events⟩) := by
  obtain ⟨c, tables, s', events', hpoints, hready, rfl, hran⟩ :=
    withFlows_spec (hshows.reaches hknown configured .inl) events
  cases htaken : tables.flows.has (flowKey tenant (.str flow.name)) with
  | true =>
    refine .of_ok (r := false) (t := ⟨s', events'⟩) ((hran _).trans ?_) ?_ ?_
    · simp [htaken]
    · simp [Access.Same, Memory.answer, contents, htaken]
    · simpa [Memory.after, contents, htaken] using hready.shows
  | false =>
    rcases flowRow_spec none flow with ⟨hfit, row, hmade, hdocument⟩ | ⟨hunfit, hrefused⟩
    · obtain ⟨s₃, hstored, hready₃⟩ := onSite_store hready hpoints
        (withFlowRow tables (flowKey tenant (.str flow.name)) row) events'
      refine .of_ok (r := true) (t := ⟨s₃, events'⟩) ((hran _).trans ?_) ?_ ?_
      · simp only [htaken, hmade]
        exact Run.bind_ok hstored
      · simp [Access.Same, Memory.answer, contents, htaken]
      · have hshows₃ := hready₃.shows
        rw [contents_withFlowRow tenant hdocument] at hshows₃
        simpa [Memory.after, contents, htaken] using hshows₃
    · refine .of_error (f := .database .numberTooLarge) (t := ⟨s', events'⟩) ((hran _).trans ?_)
        hunfit hready.shows
      simp only [htaken, hrefused]
      exact Run.bind_error (Run.ofExcept_error _ _ _)

theorem does_writeFlow (tenant : Value) (flow : Flow) :
    Does location now m (.writeFlow tenant flow)
      (access now address configured (.writeFlow tenant flow) ⟨s, events⟩) := by
  obtain ⟨c, tables, s', events', hpoints, hready, rfl, hran⟩ :=
    withFlows_spec (hshows.reaches hknown configured .inl) events
  have held := get?_contents_flows tables (flowKey tenant (.str flow.name))
  rcases flowRow_spec (tables.flows.get? (flowKey tenant (.str flow.name))) flow with
    ⟨hfit, row, hmade, hdocument⟩ | ⟨hunfit, hrefused⟩
  · obtain ⟨s₃, hstored, hready₃⟩ := onSite_store hready hpoints
      (withFlowRow tables (flowKey tenant (.str flow.name)) row) events'
    have hwrote : access now address configured (.writeFlow tenant flow) ⟨s, events⟩ =
        (.ok (Table.location tenant (.str flow.name)), ⟨s₃, events'⟩) := by
      refine (hran _).trans ?_
      simp only [hmade]
      exact Run.bind_ok hstored
    have hshows₃ := hready₃.shows
    rw [← held] at hdocument
    rcases kept_cases ((contents tables).flows.get? (flowKey tenant (.str flow.name)))
      (.dict flow.document) with ⟨hwritten, -⟩ | ⟨old, hthere, hsame, hleft⟩
    · rw [contents_withFlowRow tenant (hdocument.trans hwritten)] at hshows₃
      exact .of_ok hwrote trivial hshows₃
    · -- the row keeps its document, so the contents are those of before
      rw [hleft] at hdocument
      rw [contents_withFlowRow_self (hdocument ▸ hthere)] at hshows₃
      by_cases hequal : old = .dict flow.document
      · have hunchanged : (contents tables).after (.writeFlow tenant flow) = contents tables := by
          rw [Memory.after, Memory.withFlow, Keyed.set_eq_self (hequal ▸ hthere)]
        refine .of_ok hwrote trivial ?_
        rwa [hunchanged]
      · exact .of_idle hwrote trivial (fun hdiscerns => hequal (hdiscerns old hthere hsame)) hshows₃
  · refine .of_error (f := .database .numberTooLarge) (t := ⟨s', events'⟩) ((hran _).trans ?_)
      hunfit hready.shows
    simp only [hrefused]
    exact Run.bind_error (Run.ofExcept_error _ _ _)

theorem does_putConversation (tenant key : String) {doc : Value}
    (hdocument : IsConversationDocument doc) :
    Does location now m (.putConversation tenant key doc)
      (access now address configured (.putConversation tenant key doc) ⟨s, events⟩) := by
  obtain ⟨c, tables, s', events', hpoints, hready, rfl, hran⟩ :=
    withConversations_spec (hshows.reaches hknown configured .inr) events
  obtain ⟨conversation, hplain, rfl⟩ := hdocument
  obtain ⟨row, hmade, hdocument⟩ :=
    conversationRow_spec hplain (tables.conversations.get? (tenant, key))
  obtain ⟨s₃, hstored, hready₃⟩ := onSite_store hready hpoints
    (withConversationRow tables (tenant, key) row) events'
  have hput : access now address configured
      (.putConversation tenant key (.dict conversation.document)) ⟨s, events⟩ =
        (.ok (), ⟨s₃, events'⟩) := by
    refine (hran _).trans ?_
    simp only [hmade]
    exact hstored
  have hshows₃ := hready₃.shows
  rw [contents_withConversationRow] at hshows₃
  rw [← get?_contents_conversations] at hdocument
  rcases kept_cases ((contents tables).conversations.get? (tenant, key))
    (.dict conversation.document) with ⟨hwritten, -⟩ | ⟨old, hthere, hsame, hleft⟩
  · rw [hdocument.trans hwritten] at hshows₃
    exact .of_ok hput rfl hshows₃
  · -- the row keeps its document, so the contents are those of before
    rw [hdocument, hleft] at hshows₃
    have hunchanged : (contents tables).withConversation (tenant, key) old = contents tables := by
      rw [Memory.withConversation, Keyed.set_eq_self hthere]
    by_cases hequal : old = .dict conversation.document
    · exact .of_ok hput rfl (hequal ▸ hshows₃)
    · exact .of_idle hput rfl (fun hdiscerns => hequal (hdiscerns old hthere hsame))
        (hunchanged ▸ hshows₃)

theorem does_deleteConversation (tenant key : String) :
    Does location now m (.deleteConversation tenant key)
      (access now address configured (.deleteConversation tenant key) ⟨s, events⟩) := by
  obtain ⟨c, tables, s', events', hpoints, hready, rfl, hran⟩ :=
    withConversations_spec (hshows.reaches hknown configured .inr) events
  cases hthere : tables.conversations.has (tenant, key) with
  | true =>
    obtain ⟨s₃, hstored, hready₃⟩ := onSite_store hready hpoints
      (withoutConversationRow tables (tenant, key)) events'
    refine .of_ok (r := true) (t := ⟨s₃, events'⟩) ((hran _).trans ?_) ?_ ?_
    · simp only [hthere]
      exact Run.bind_ok hstored
    · simp [Access.Same, Memory.answer, contents, hthere]
    · have hshows₃ := hready₃.shows
      rwa [contents_withoutConversationRow] at hshows₃
  | false =>
    have habsent : (tenant, key) ∉ keys (contents tables).conversations := by
      rw [contents, keys_mapValues, ← has_eq_true_iff, hthere]
      simp
    refine .of_ok (r := false) (t := ⟨s', events'⟩) ((hran _).trans ?_) ?_ ?_
    · simp [hthere]
    · simp [Access.Same, Memory.answer, contents, hthere]
    · simpa [Memory.after, Memory.withoutConversation, erase_of_notMem habsent] using hready.shows

end

/-- The store in a database mirrors the contents of its tables. -/
theorem mirrors (hknown : IsAddressOf address location) (configured : Value) (now : String) :
    Mirrors (access now address configured) Traced.log now Access.Fits
      fun t m => Shows location t.state m where
  log _ hshows := hshows
  access := by
    rintro ⟨s, events⟩ m a hshows htidy hproper
    cases a with
    | loadFlow tenant name =>
      exact does_loadFlow hknown hshows now configured events htidy tenant name
    | createFlow tenant flow =>
      exact does_createFlow hknown hshows now configured events tenant flow
    | writeFlow tenant flow => exact does_writeFlow hknown hshows now configured events tenant flow
    | listFlows tenant =>
      obtain ⟨c, tables, s', events', hpoints, hready, rfl, hran⟩ :=
        withFlows_spec (hshows.reaches hknown configured .inl) events
      refine .of_ok ((hran _).trans rfl) ?_ hready.shows
      simp [Access.Same, Memory.answer, listUnder, contents]
    | locateFlow tenant name => exact .of_ok rfl trivial hshows
    | fetchConversation tenant key =>
      obtain ⟨c, tables, s', events', hpoints, hready, rfl, hran⟩ :=
        withConversations_spec (hshows.reaches hknown configured .inr) events
      refine .of_ok ((hran _).trans rfl) ?_ hready.shows
      simp [Access.Same, Memory.answer, Memory.document?, contents]
    | putConversation tenant key doc =>
      exact does_putConversation hknown hshows now configured events tenant key hproper.2
    | deleteConversation tenant key =>
      exact does_deleteConversation hknown hshows now configured events tenant key
    | listConversations tenant =>
      obtain ⟨c, tables, s', events', hpoints, hready, rfl, hran⟩ :=
        withConversations_spec (hshows.reaches hknown configured .inr) events
      refine .of_ok ((hran _).trans rfl) ?_ hready.shows
      simp [Access.Same, Memory.answer, listUnder, contents]

end Table

end Dialogue.Store

import Dialogue.Proofs.Deployment.Steady
import Dialogue.Proofs.Store.Table

/-!
# Columns that mirror documents

A row of the tables holds a document, and copies of some of its entries in columns for looking up.
No load reads the columns, so what keeps them right has to be followed access by access.

What an access makes of the tables is `Table.after`, and the tables that are found after an access
are those that it makes of the ones found before (`Table.serves_access`).  A row that is written
gets its columns from the new document, and where it keeps the old document, because the new one
counts as the same, the copied entries are the same in both.  So columns that tell what their
documents say go on doing so (`Table.aligned_after`).

In a deployment that keeps what it stores in a database, the columns of all rows tell what the
documents say, after every access of every operation and when the process is started over
(`Deployment.lineUp_of_mem_states`).  A version that does not fit into its column is not written at
all, so it does not matter how great versions are.
-/

namespace Dialogue.Store

open Database Keyed

/-! ## Rows -/

/-- The columns of a flow under a storage key: the version is that of the document, and the key is
that of its name. -/
def FlowAligned (key : Key) (row : FlowRow) : Prop :=
  ∃ fields name, row.document = .dict fields ∧
    Fields.get? fields "version" = some (.int row.version) ∧
    Fields.get? fields "name" = some (.str name) ∧ key.2 = Identifier.safeName (.str name)

/-- The columns of a conversation: its flow and the time of its completion are those of the
document. -/
def ConversationAligned (row : ConversationRow) : Prop :=
  ∃ fields, row.document = .dict fields ∧ Fields.get? fields "flow" = some row.flow ∧
    Fields.get? fields "completedAt" = some row.completedAt

namespace Table

/-- The columns of all rows tell what the documents say. -/
structure Aligned (tables : Tables) : Prop where
  flows : ∀ e ∈ tables.flows, FlowAligned e.1 e.2
  conversations : ∀ e ∈ tables.conversations, ConversationAligned e.2

theorem aligned_empty : Aligned {} := ⟨by simp, by simp⟩

/-- The tables that a site serves at a location have columns that tell what the documents say, where
there are any. -/
def LineUp (location : Location) (site : Site) : Prop :=
  ∃ found, site.Serves location found ∧ Aligned (found.getD {})

variable {tables : Tables}

/-- The document that a row gets is the one that is written, or it has entries that count as the
same. -/
theorem exists_kept (held : Option Value) (doc : Fields) :
    ∃ fields, kept held (.dict doc) = .dict fields ∧
      (fields = doc ∨ held = some (.dict fields)) ∧
      ∀ {name v}, Fields.get? doc name = some v →
        ∃ w, Fields.get? fields name = some w ∧ (w = v ∨ v.same w = true) := by
  rcases kept_cases held (.dict doc) with ⟨hwritten, -⟩ | ⟨old, hthere, hsame, hleft⟩
  · exact ⟨doc, hwritten, .inl rfl, fun hfound => ⟨_, hfound, .inl rfl⟩⟩
  · obtain ⟨fields, rfl, -, hentries⟩ := Value.exists_of_same_dict hsame
    refine ⟨fields, hleft, .inr hthere, fun hfound => ?_⟩
    obtain ⟨w, hfound', hcounts⟩ := hentries (mem_of_get?_eq_some hfound)
    exact ⟨w, hfound', .inr hcounts⟩

/-- The row of a flow is aligned, over one that is. -/
theorem flowAligned_of_flowRow {tenant : Value} {flow : Flow} {old : Option FlowRow} {row : FlowRow}
    (hbefore : ∀ r, old = some r → FlowAligned (flowKey tenant (.str flow.name)) r)
    (hmade : flowRow old flow = .ok row) :
    FlowAligned (flowKey tenant (.str flow.name)) row := by
  unfold flowRow at hmade
  split at hmade
  · cases hmade
    obtain ⟨fields, hdocument, horigin, hentries⟩ :=
      exists_kept (old.map (·.document)) flow.document
    obtain ⟨v, hversion, hsameVersion⟩ := hentries flow.get?_document_version
    obtain ⟨n, hname, hsameName⟩ := hentries flow.get?_document_name
    have hnamed : n = .str flow.name := hsameName.elim id Value.eq_str_of_same
    refine ⟨fields, flow.name, hdocument, ?_, hnamed ▸ hname, rfl⟩
    rcases horigin with rfl | held
    · exact flow.get?_document_version
    · -- the version that is held is an integer, because the old row is aligned
      obtain ⟨r, rfl, hthere⟩ := Option.map_eq_some_iff.1 held
      obtain ⟨fields', name', hdocument', hversion', -⟩ := hbefore r rfl
      obtain rfl : fields = fields' := Value.dict.inj (hthere.symm.trans hdocument')
      rw [hversion, Option.some.injEq] at hversion'
      subst hversion'
      rcases hsameVersion with hsame | hcounts
      · rw [hversion, hsame]
      · have hwhole := Value.whole?_of_same hcounts
        simp only [Value.whole?, Option.some.injEq] at hwhole
        rw [hversion, hwhole]
  · cases hmade

theorem conversationAligned_of_conversationRow {doc : Value} {old : Option ConversationRow}
    {row : ConversationRow} (hdocument : IsConversationDocument doc)
    (hmade : conversationRow old doc = .ok row) : ConversationAligned row := by
  obtain ⟨c, hplain, rfl⟩ := hdocument
  obtain ⟨t, hcompleted⟩ := hplain.completed
  have hflow : Fields.get? c.document "flow" = some (.str c.flow) := by
    simp [hplain.document_eq, get?]
  have hcompletedAt : Fields.get? c.document "completedAt" = some (.ofOption t) := by
    simp [hplain.document_eq, get?, hcompleted]
  have hcolumns : row = ⟨.str c.flow, .ofOption t,
      kept (old.map (·.document)) (.dict c.document)⟩ := by
    have hcolumn : textColumn (.ofOption t) = .ok (.ofOption t) := by cases t <;> rfl
    have hcompletedAt' : Fields.getD c.document "completedAt" = .ofOption t := by
      simp [Fields.getD, hcompletedAt]
    simp only [conversationRow, hflow, hcompletedAt', Option.getD_some, hcolumn] at hmade
    cases old <;> exact (Except.ok.inj hmade).symm
  obtain ⟨fields, held, -, hentries⟩ := exists_kept (old.map (·.document)) c.document
  obtain ⟨v, hflow', hsameFlow⟩ := hentries hflow
  obtain ⟨w, hcompletedAt', hsameTime⟩ := hentries hcompletedAt
  subst hcolumns
  refine ⟨fields, held, ?_, ?_⟩
  · rw [hflow', hsameFlow.elim id Value.eq_str_of_same]
  · rw [hcompletedAt', hsameTime.elim id Value.eq_ofOption_of_same]

/-! ## Accesses -/

/-- The tables after an access. -/
def after (tables : Tables) : Access → Tables
  | .createFlow tenant flow =>
    let key := flowKey tenant (.str flow.name)
    if tables.flows.has key then tables
    else
      match flowRow none flow with
      | .ok row => withFlowRow tables key row
      | .error _ => tables
  | .writeFlow tenant flow =>
    let key := flowKey tenant (.str flow.name)
    match flowRow (tables.flows.get? key) flow with
    | .ok row => withFlowRow tables key row
    | .error _ => tables
  | .putConversation tenant number doc =>
    match conversationRow (tables.conversations.get? (tenant, number)) doc with
    | .ok row => withConversationRow tables (tenant, number) row
    | .error _ => tables
  | .deleteConversation tenant number =>
    if tables.conversations.has (tenant, number) then
      withoutConversationRow tables (tenant, number)
    else tables
  | .loadFlow _ _ | .listFlows _ | .locateFlow _ _ | .fetchConversation _ _
  | .listConversations _ => tables

theorem aligned_withFlowRow (haligned : Aligned tables) {key : Key} {row : FlowRow}
    (here : FlowAligned key row) : Aligned (withFlowRow tables key row) where
  flows e hlisted := by
    rcases mem_set hlisted with rfl | hlisted
    · exact here
    · exact haligned.flows e hlisted
  conversations := haligned.conversations

theorem aligned_withConversationRow (haligned : Aligned tables) (key : Key) {row : ConversationRow}
    (here : ConversationAligned row) : Aligned (withConversationRow tables key row) where
  flows := haligned.flows
  conversations e hlisted := by
    rcases mem_set hlisted with rfl | hlisted
    · exact here
    · exact haligned.conversations e hlisted

theorem aligned_withoutConversationRow (haligned : Aligned tables) (key : Key) :
    Aligned (withoutConversationRow tables key) :=
  ⟨haligned.flows, fun e hlisted => haligned.conversations e (mem_of_mem_erase hlisted)⟩

theorem aligned_after (haligned : Aligned tables) {a : Access} (hproper : a.Proper) :
    Aligned (after tables a) := by
  cases a with
  | createFlow tenant flow =>
    simp only [after]
    split
    · exact haligned
    · split
      · rename_i row hmade
        exact aligned_withFlowRow haligned (flowAligned_of_flowRow (by simp) hmade)
      · exact haligned
  | writeFlow tenant flow =>
    simp only [after]
    split
    · rename_i row hmade
      refine aligned_withFlowRow haligned (flowAligned_of_flowRow (fun r hthere => ?_) hmade)
      exact haligned.flows _ (mem_of_get?_eq_some hthere)
    · exact haligned
  | putConversation tenant number doc =>
    simp only [after]
    split
    · rename_i row hmade
      exact aligned_withConversationRow haligned _
        (conversationAligned_of_conversationRow hproper.2 hmade)
    · exact haligned
  | deleteConversation tenant number =>
    simp only [after]
    split
    · exact aligned_withoutConversationRow haligned _
    · exact haligned
  | loadFlow | listFlows | locateFlow | fetchConversation | listConversations => exact haligned

section

variable {location : Location} {s : State} {m : Memory} {found : Option Tables} {address : Value}
  {connection : Connection}

/-- Tables that are stored last are the ones that are left. -/
theorem ready_store {α : Type} (hready : Ready location s tables)
    (hpoints : connection.location = location) (changed : Tables) (events : List Event) (a : α) :
    Ready location ((onSite (store connection changed) >>= fun _ => pure a) ⟨s, events⟩).2.state
      changed := by
  obtain ⟨s', hstored, hready'⟩ := onSite_store hready hpoints changed events
  rw [Run.bind_ok hstored]
  exact hready'

variable (hknown : IsAddressOf address location) (hshows : Shows location s m)

include hknown hshows

/-- What is done with the table of flows decides what tables are found then. -/
theorem exists_serves_flows (hserves : s.site.Serves location found) (configured : Value)
    (events : List Event) {α : Type} {k : Connection × Tables → Run (Traced State) α}
    {changed : Tables}
    (hleaves : ∀ c s' events', c.location = location → Ready location s' (found.getD {}) →
      Ready location (k (c, found.getD {}) ⟨s', events'⟩).2.state changed) :
    ∃ found', Site.Serves location ((readyFlows address >>= fun _ =>
        onSite (current configured) >>= k) ⟨s, events⟩).2.state.site found' ∧
      found'.getD {} = changed := by
  obtain ⟨c, s', events', hpoints, hready, hran⟩ :=
    withFlows_tables (hshows.reaches hknown configured .inl) hserves events
  rw [hran]
  exact ⟨some changed, (hleaves c s' events' hpoints hready).serves, rfl⟩

/-- What is done with the table of conversations decides what tables are found then. -/
theorem exists_serves_conversations (hserves : s.site.Serves location found) (configured : Value)
    (events : List Event) {α : Type} {k : Connection × Tables → Run (Traced State) α}
    {changed : Tables}
    (hleaves : ∀ c s' events', c.location = location → Ready location s' (found.getD {}) →
      Ready location (k (c, found.getD {}) ⟨s', events'⟩).2.state changed) :
    ∃ found', Site.Serves location ((readyConversations address >>= fun _ =>
        onSite (current configured) >>= k) ⟨s, events⟩).2.state.site found' ∧
      found'.getD {} = changed := by
  obtain ⟨c, s', events', hpoints, hready, hran⟩ :=
    withConversations_tables (hshows.reaches hknown configured .inr) hserves events
  rw [hran]
  exact ⟨some changed, (hleaves c s' events' hpoints hready).serves, rfl⟩

/-- The tables that are found after an access are those that it makes of the tables before. -/
theorem serves_access (hserves : s.site.Serves location found) (now : String) (configured : Value)
    (events : List Event) (a : Access) :
    ∃ found', (access now address configured a ⟨s, events⟩).2.state.site.Serves location found' ∧
      found'.getD {} = after (found.getD {}) a := by
  cases a with
  | loadFlow tenant name =>
    refine exists_serves_flows hknown hshows hserves configured events
      fun c s' events' hpoints hready => ?_
    cases hthere : (found.getD {}).flows.get? (flowKey tenant name) with
    | none => simpa [hthere, after] using hready
    | some row =>
      cases hread : Flow.ofValue now row.document <;>
        simpa [hthere, hread, after, Traced.log] using hready
  | createFlow tenant flow =>
    refine exists_serves_flows hknown hshows hserves configured events
      fun c s' events' hpoints hready => ?_
    simp only [after]
    split
    · exact hready
    · cases hmade : flowRow none flow with
      | ok row => exact ready_store hready hpoints _ events' true
      | error f => exact hready
  | writeFlow tenant flow =>
    refine exists_serves_flows hknown hshows hserves configured events
      fun c s' events' hpoints hready => ?_
    simp only [after]
    cases hmade : flowRow ((found.getD {}).flows.get? (flowKey tenant (.str flow.name))) flow with
    | ok row => exact ready_store hready hpoints _ events' _
    | error f => exact hready
  | listFlows tenant =>
    exact exists_serves_flows hknown hshows hserves configured events fun _ _ _ _ hready => hready
  | locateFlow tenant name => exact ⟨found, hserves, rfl⟩
  | fetchConversation tenant number =>
    exact exists_serves_conversations hknown hshows hserves configured events
      fun _ _ _ _ hready => hready
  | putConversation tenant number doc =>
    refine exists_serves_conversations hknown hshows hserves configured events
      fun c s' events' hpoints hready => ?_
    simp only [after]
    cases hmade : conversationRow ((found.getD {}).conversations.get? (tenant, number)) doc with
    | ok row =>
      obtain ⟨s₃, hstored, hready₃⟩ := onSite_store hready hpoints
        (withConversationRow (found.getD {}) (tenant, number) row) events'
      show Ready location (onSite (store c (withConversationRow _ _ _)) _).2.state _
      rw [hstored]
      exact hready₃
    | error f => exact hready
  | deleteConversation tenant number =>
    refine exists_serves_conversations hknown hshows hserves configured events
      fun c s' events' hpoints hready => ?_
    simp only [after]
    split
    · exact ready_store hready hpoints _ events' true
    · exact hready
  | listConversations tenant =>
    exact exists_serves_conversations hknown hshows hserves configured events
      fun _ _ _ _ hready => hready

/-- Accesses that store documents of flows and conversations keep the columns right of the tables
that are found. -/
theorem lineUp_access (hlineUp : LineUp location s.site) (now : String) (configured : Value)
    (events : List Event) {a : Access} (hproper : a.Proper) :
    LineUp location (access now address configured a ⟨s, events⟩).2.state.site := by
  obtain ⟨found, hserves, haligned⟩ := hlineUp
  obtain ⟨found', hserves', hsame⟩ := serves_access hknown hshows hserves now configured events a
  exact ⟨found', hserves', hsame ▸ aligned_after haligned hproper⟩

end

end Table

/-! ## Stores that mirror contents and keep an invariant -/

/-- A store mirrors contents in the states that have a property, if accesses keep the property. -/
theorem Mirrors.and {σ : Type} {access : (a : Access) → Run σ a.Answer} {log : Event → σ → σ}
    {now : String} {Takes : Access → Prop} {Shows : σ → Memory → Prop} {I : σ → Prop}
    (hmirrors : Mirrors access log now Takes Shows) (hlogs : ∀ s e, I s → I (log e s))
    (hkeeps : ∀ {s m} a, Shows s m → a.Proper → I s → I (access a s).2) :
    Mirrors access log now Takes fun s m => Shows s m ∧ I s where
  log e hshows := ⟨hmirrors.log e hshows.1, hlogs _ e hshows.2⟩
  access {s m} a hshows htidy hproper := by
    have hfollows := hmirrors.access a hshows.1 htidy hproper
    have hkept := hkeeps a hshows.1 hproper hshows.2
    revert hfollows hkept
    rcases access a s with ⟨f | r, t⟩ <;> intro hfollows hkept
    · exact ⟨hfollows.1, hfollows.2, hkept⟩
    · exact ⟨hfollows.1, hfollows.2.imp (fun hshown => ⟨hshown, hkept⟩)
        fun hidle => ⟨hidle.1, hidle.2, hkept⟩⟩

end Dialogue.Store

/-! ## Columns in a deployment -/

namespace Dialogue

open Store Database

namespace Store.Memory

/-- Tidy contents are closed under what operations write. -/
theorem closed_tidy (clock : String) :
    Closed clock (fun _ => True) (fun _ => True) Tidy where
  tidy _ htidy := htidy
  creates tenant _ htidy _ hmade _ := tidy_withFlow htidy tenant (wellFormed_ofPresetNamed hmade)
  appends tenant _ htidy _ hdocument hfound :=
    tidy_withFlow htidy tenant (wellFormed_withStep hdocument (wellFormed_of_flow? htidy hfound))
  puts := by
    intro m tenant counterparty name text time limit key flow outcome saves _ _ hkey _ _ c _ _
      hplain m' _ htidy'
    exact tidy_withConversation htidy' (isOfConversation_of_counterpartyKey hkey tenant)
      ⟨c, hplain, rfl⟩
  removes key htidy := tidy_withoutConversation htidy key

end Store.Memory

theorem Operation.kept_tidy {op : Operation} {clock : String} {m : Memory} (htidy : m.Tidy)
    (hvalid : op.Valid) : op.Kept clock Memory.Tidy m :=
  fun tenant _ hsaves _ =>
    Memory.tidy_withFlow htidy tenant (wellFormed_revised (wellFormed_of_saves hvalid hsaves) _)

namespace Deployment

/-- The tables at a location have columns that tell what the documents say. -/
def LineUp (location : Location) (d : Deployment) : Prop :=
  Table.LineUp location ⟨d.files, d.connection⟩

variable {location : Location} {r : Backend.Request} {now clock : String} {n : Nat}
  {d s : Deployment} {m : Memory} {op : Operation}

/-- An access keeps the columns right. -/
theorem lineUp_accessStore (hserves : (Storage.table location).Serves r now n d m) {a : Access}
    (hproper : a.Proper) (hlineUp : d.LineUp location) :
    (accessStore n a d).2.LineUp location := by
  obtain ⟨address, flowsReady, conversationsReady, hthere, hknown, hshows⟩ := hserves.shows
  rw [accessStore, Storage.store_eq hthere]
  exact Table.lineUp_access hknown hshows hlineUp d.clock d.settings.database.url d.events hproper

/-- A deployment mirrors the contents of its tables, while their columns are right. -/
theorem mirrors_lineUp (location : Location) (r : Backend.Request) (now : String) (n : Nat) :
    Mirrors (access ⟨n, n⟩) log now (Storage.table location).Takes fun d m =>
      (Storage.table location).Serves r now n d m ∧ d.LineUp location := by
  refine (Storage.mirrors _ r now n).and (fun d e hlineUp => hlineUp)
    fun a hserves hproper hlineUp => ?_
  have hsame : access ⟨n, n⟩ a = accessStore n a := by simp [access]
  rw [hsame]
  exact lineUp_accessStore hserves hproper hlineUp

/-- The tables that are found when the process is started over are those of before, or there are
none. -/
theorem lineUp_again (hserves : (Storage.table location).Serves r now n d m)
    (hlineUp : d.LineUp location) : (d.again r).LineUp location := by
  obtain ⟨found, hbefore, haligned⟩ := hlineUp
  obtain ⟨_, _, hafter, -⟩ := hserves.again
  obtain ⟨_, _, _, -, -, found', hafter, -⟩ := hafter.shows
  obtain ⟨events, hrestarted⟩ := restart_eq r d
  obtain ⟨d', hstarted, hfiles, hopens⟩ := start_table hserves.asked.1 (d.ended events)
  have hclosed : (d.again r).connection = none := by
    rw [again, hrestarted, hstarted]
    exact hopens.connection
  have hsame : (d.again r).files = d.files := by
    rw [again, hrestarted, hstarted]
    exact hfiles
  refine ⟨found', hafter, ?_⟩
  cases found' with
  | none => exact Table.aligned_empty
  | some tables =>
    have holds : Site.Holds ⟨(d.again r).files, (d.again r).connection⟩ (some tables) location :=
      hafter.holds
    have hthere : found = some tables := by
      refine hbefore.unique ⟨hbefore.connected, ?_⟩
      cases location with
      | memory =>
        rw [hclosed] at holds
        cases holds
      | file path makes =>
        rw [hsame] at holds
        exact holds
      | nowhere => exact holds
    subst hthere
    exact haligned

/-- A call keeps the columns right, at every access. -/
theorem lineUp_of_call (hserves : (Storage.table location).Serves r now n d m) (htidy : m.Tidy)
    (hlineUp : d.LineUp location) (hvalid : op.Valid) :
    (∀ s ∈ d.statesOf clock op, s.LineUp location) ∧
      ∃ m', (Storage.table location).Serves r clock n (d.call clock op).2 m' ∧ m'.Tidy ∧
        (d.call clock op).2.LineUp location := by
  have hsafe : (op.program clock).Safe clock Memory.Tidy (fun _ _ => True) m :=
    op.safe (Memory.closed_tidy clock) htidy hvalid (by cases op <;> trivial)
      (by cases op <;> trivial) (Operation.kept_tidy htidy hvalid)
  have hkept := (mirrors_lineUp location r clock n).shows_trail (fun _ htidy => htidy) _
    ⟨hserves.setClock clock, hlineUp⟩ htidy hsafe
  rw [← hserves.engine] at hkept
  obtain ⟨hbetween, m', ⟨hserves', hlineUp'⟩, htidy'⟩ := hkept
  refine ⟨fun s hlisted => ?_, m', hserves', htidy', hlineUp'⟩
  obtain ⟨_, ⟨-, here⟩, -⟩ := hbetween s hlisted
  exact here

/-- While columns are right they stay right in every state in the course of a history. -/
theorem LineUp.of_mem_states {history : List Act}
    (hlineUp : d.LineUp location) (hserves : (Storage.table location).Serves r now n d m)
    (htidy : m.Tidy) (hvalid : ∀ clock op, .call clock op ∈ history → op.Valid)
    (hreached : s ∈ d.states r history) : s.LineUp location := by
  induction history generalizing now n d m with
  | nil =>
    obtain rfl := List.mem_singleton.1 hreached
    exact hlineUp
  | cons act rest ih =>
    have hothers : ∀ clock op, .call clock op ∈ rest → op.Valid :=
      fun clock op hlisted => hvalid clock op (List.mem_cons_of_mem _ hlisted)
    cases act with
    | restart =>
      rcases List.mem_cons.1 hreached with rfl | hlater
      · exact hlineUp
      · obtain ⟨_, m', hserves', hsame⟩ := hserves.again
        refine ih (lineUp_again hserves hlineUp) hserves' ?_ hothers hlater
        rcases hsame with rfl | rfl
        · exact htidy
        · exact Memory.tidy_empty
    | call clock op =>
      obtain ⟨hbetween, m', hserves', htidy', hlineUp'⟩ :=
        lineUp_of_call hserves htidy hlineUp (hvalid clock op List.mem_cons_self)
      rcases List.mem_cons.1 hreached with rfl | hlater
      · exact hlineUp
      · rcases List.mem_append.1 hlater with hinside | hlater
        · exact hbetween s hinside
        · exact ih hlineUp' hserves' htidy' hothers hlater

theorem lineUp_of_fresh (hfresh : (Storage.table location).Fresh r d) : d.LineUp location := by
  obtain ⟨found, hserves, hnothing⟩ := hfresh.empty
  have hflows : Keyed.mapValues FlowRow.document (found.getD {}).flows = [] :=
    congrArg Memory.flows hnothing
  have hconversations :
      Keyed.mapValues ConversationRow.document (found.getD {}).conversations = [] :=
    congrArg Memory.conversations hnothing
  refine ⟨found, hserves, ⟨?_, ?_⟩⟩
  · rw [List.map_eq_nil_iff.1 hflows]
    exact List.forall_mem_nil _
  · rw [List.map_eq_nil_iff.1 hconversations]
    exact List.forall_mem_nil _

/-- In every state in the course of a history that began with nothing stored, the columns of all
rows tell what the documents say: the version of a flow and the storage key of its name, and the
flow of a conversation and the time of its completion. -/
theorem aligned_of_mem_states {history : List Act} (hfresh : (Storage.table location).Fresh r d)
    (hvalid : ∀ clock op, .call clock op ∈ history → op.Valid)
    (hreached : s ∈ d.states r history) :
    ∃ found, Site.Serves location ⟨s.files, s.connection⟩ found ∧
      Table.Aligned (found.getD {}) := by
  obtain ⟨n, hserves⟩ := hfresh.serves
  exact (lineUp_of_fresh hfresh).of_mem_states hserves Memory.tidy_empty hvalid hreached

/-! ### A conversation that is begun and reset -/

/-- A flow is saved, a message begins a conversation, the process starts over, and the conversation
is reset. -/
def begunAndReset : List Act :=
  [.call "t1" (.saveFlow (.str "Acme") Inbound.cityFlow), .call "t2" hello, .restart,
    .call "t3" (.resetConversation (.str "Acme") (.str "+1 555"))]

theorem accessesOf_hello : begun.accessesOf "t2" hello =
    [.loadFlow (.str "Acme") (.str "intake"), .fetchConversation "acme" "1555",
      .putConversation "acme" "1555" (.dict asked.document)] := by
  have hnonempty : Inbound.cityFlow.steps ≠ [] := List.cons_ne_nil _ _
  have hloaded : access begun.engine (.loadFlow (.str "Acme") (.str "intake"))
      { begun with clock := "t2" } = (.ok (some Inbound.cityFlow), { begun with clock := "t2" }) :=
    rfl
  have hfetched : (Store.getConversation "t2" (.str "Acme") (.str "+1 555")).run
      (access begun.engine) log { begun with clock := "t2" } =
        (.ok none, { begun with clock := "t2" }) := rfl
  have hturn : Turn.run (Inbound.context 8 (.str "Acme") (.str "+1 555") none "t2")
      Inbound.cityFlow (Turn.resumed "intake" "t2" none) = askingTurn := by
    rw [Turn.run, Turn.walk]
    rfl
  rw [accessesOf, hello, Operation.program, Program.accesses, Program.trail_bind,
    Inbound.trail_handle hnonempty hloaded hfetched, Inbound.afterReading, Inbound.timeOf,
    if_neg (by decide), hturn]
  -- Passing the outcome on asks for nothing more.
  split <;> rfl

theorem fits_opening : ∀ a ∈ (started {}).accesses {} opening, a.Fits := by
  have hsaves : (started {}).accesses {} opening =
      .loadFlow (.str "Acme") (.str "intake") :: .writeFlow (.str "Acme") Inbound.cityFlow ::
        (begun.accessesOf "t2" hello ++ []) := rfl
  have hversion : Table.fits Inbound.cityFlow.version = true := by decide
  rw [hsaves, accessesOf_hello]
  simpa [Access.Fits] using hversion

theorem valid_begunAndReset :
    ∀ clock op, .call clock op ∈ begunAndReset → op.Valid := by
  intro clock op hlisted
  simp only [begunAndReset, List.mem_cons, List.not_mem_nil, or_false, reduceCtorEq, false_or,
    Act.call.injEq] at hlisted
  rcases hlisted with ⟨rfl, rfl⟩ | ⟨rfl, rfl⟩ | ⟨rfl, rfl⟩
  · exact valid_cityFlow _
  · exact trivial
  · exact trivial

/-- Once the conversation is begun there is a row for it. -/
theorem exists_row_opening : ∃ tables row,
    Site.Serves (.file ⟨"", ["flows.db"]⟩ true)
      ⟨((started tabled).after tabled opening).files,
        ((started tabled).after tabled opening).connection⟩ (some tables) ∧
    tables.conversations = [(("acme", "1555"), row)] := by
  obtain ⟨n, hmemory⟩ := fresh_started.serves
  obtain ⟨n', htable⟩ := fresh_tabled.serves
  have hhistory : Storage.IsHistory opening := by
    intro clock op hlisted
    simp only [opening, List.mem_cons, List.not_mem_nil, or_false, Act.call.injEq] at hlisted
    rcases hlisted with ⟨rfl, rfl⟩ | ⟨rfl, rfl⟩
    · exact ⟨valid_cityFlow _, "t0", Inbound.cityFlow, rfl⟩
    · exact ⟨trivial, trivial⟩
  obtain ⟨-, m, now, now', n'', hmemory, htable, -⟩ :=
    Storage.answers_eq hhistory hmemory htable Memory.sound_empty (.inl ⟨_, _, rfl⟩) fits_opening
  obtain ⟨address, flowsReady, conversationsReady, -, -, found, hserves, hcontents, -⟩ :=
    htable.shows
  have hafter : (started {}).after {} (opening.filter Act.isCall) = _ := after_opening
  have hengine := hmemory.engine
  have hshows := hmemory.shows
  rw [hafter] at hengine hshows
  obtain rfl : 0 = n := congrArg Engine.flows hengine
  have hlies : m.conversations = [(("acme", "1555"), .dict asked.document)] := by
    rw [← Backend.memory.inj (Option.some.inj hshows)]
    rfl
  rw [← hcontents] at hlies
  cases found with
  | none => cases hlies
  | some tables =>
    obtain ⟨⟨key, row⟩, hrow, hsame⟩ := List.map_eq_singleton_iff.1 hlies
    obtain rfl : key = ("acme", "1555") := congrArg Prod.fst hsame
    exact ⟨tables, row, hserves, hrow⟩

/-- The columns are right in a new database while a conversation is stored that is reset later. -/
theorem aligned_before_reset : ∃ s ∈ (started tabled).states tabled begunAndReset, ∃ tables row,
    Site.Serves (.file ⟨"", ["flows.db"]⟩ true) ⟨s.files, s.connection⟩ (some tables) ∧
      tables.conversations = [(("acme", "1555"), row)] ∧ Table.Aligned tables := by
  have hreached := after_mem_states_append tabled opening
    [.restart, .call "t3" (.resetConversation (.str "Acme") (.str "+1 555"))] (started tabled)
  obtain ⟨tables, row, hserves, hrow⟩ := exists_row_opening
  obtain ⟨found, hfound, haligned⟩ :=
    aligned_of_mem_states fresh_tabled valid_begunAndReset hreached
  obtain rfl : found = some tables := hfound.unique hserves
  exact ⟨_, hreached, tables, row, hserves, hrow, haligned⟩

end Deployment

end Dialogue

import Dialogue.Proofs.Json.RoundTrip
import Dialogue.Proofs.Store.Directory.Access
import Dialogue.Proofs.Store.Table

/-!
# What lies under the key of a flow

Whatever put it there, something lies under the storage key of a flow or nothing does: a document in
memory, the content of a file, or a row of a table (`Stored`).  Loading a flow comes down to reading
what lies there (`load_iff` of each kind of store) and changes nothing of it; writing a flow puts
its document there, and, as long as its tenant has a flow already, touches nothing else.  A row
keeps a document that counts as the same (`Table.stored_of_writeFlow`).
-/

namespace Dialogue.Store

open Database Files Keyed

/-- What lies under the storage key of a flow. -/
inductive Stored where
  | document (doc : Value)
  | content (content : Content)
  | row (row : FlowRow)

namespace Stored

/-- The document that is read there, none where nothing can be read. -/
def document? : Stored → Option Value
  | .document doc => if doc.isEmpty then none else some doc
  | .content (.text s) => (Json.read s).toOption
  | .content _ => none
  | .row r => some r.document

/-- The flow that is read there, none where none can be read. -/
def load? (now : String) (s : Stored) : Option Flow :=
  s.document?.bind fun doc => (Flow.ofValue now doc).toOption

theorem load?_eq_some_iff {now : String} {s : Stored} {flow : Flow} :
    s.load? now = some flow ↔
      ∃ doc, s.document? = some doc ∧ Flow.ofValue now doc = .ok flow := by
  rw [load?, Option.bind_eq_some_iff]
  refine exists_congr fun doc => and_congr_right fun _ => ?_
  cases Flow.ofValue now doc <;> simp [Except.toOption]

end Stored

variable {now : String} {tenant name tenant' name' : Value} {flow : Flow}

/-! ## In memory -/

namespace Memory

/-- What lies under a key. -/
def stored (m : Memory) (key : Key) : Option Stored := (m.flows.get? key).map .document

/-- Loading reads what lies there and changes nothing. -/
theorem loadFlow_eq (t : Traced Memory) :
    access now (.loadFlow tenant name) t =
      (match document? t.state.flows (flowKey tenant name) with
        | none => .ok none
        | some doc =>
          match Flow.ofValue now doc with
          | .ok flow => .ok (some flow)
          | .error mismatch => .error (.invalid mismatch), t) := by
  rw [access, Run.read_bind]
  cases document? t.state.flows (flowKey tenant name) with
  | none => rfl
  | some doc =>
    simp only
    cases hread : Flow.ofValue now doc
    · exact Run.bind_error (Run.ofExcept_error _ _ _)
    · exact Run.bind_ok (Run.ofExcept_ok _ _ _)

theorem load_iff {t : Traced Memory} :
    (access now (.loadFlow tenant name) t).1 = .ok (some flow) ↔
      (t.state.stored (flowKey tenant name)).bind (Stored.load? now) = some flow := by
  rw [loadFlow_eq, document?, stored]
  cases t.state.flows.get? (flowKey tenant name) with
  | none => simp [Option.filter]
  | some doc =>
    cases hempty : doc.isEmpty <;> cases hread : Flow.ofValue now doc <;>
      simp [Option.filter, hempty, Stored.load?, Stored.document?, hread, Except.toOption]

/-- A flow that is written lies under its key, and it is all that changes. -/
theorem stored_withFlow (m : Memory) (tenant : Value) (flow : Flow) (key : Key) :
    (m.withFlow tenant flow).stored key =
      if key = flowKey tenant (.str flow.name) then some (.document (.dict flow.document))
      else m.stored key := by
  split
  · rename_i hsame
    simp [stored, withFlow, hsame]
  · rename_i hother
    simp [stored, withFlow, get?_set_of_ne _ _ hother]

theorem writeFlow_eq (t : Traced Memory) :
    access now (.writeFlow tenant flow) t =
      (.ok (location tenant (.str flow.name)), ⟨t.state.withFlow tenant flow, t.events⟩) := rfl

end Memory

/-! ## In files -/

namespace Directory

/-- What lies under a key. -/
def stored (dir : Path) (files : Files) (tenant name : Value) : Option Stored :=
  match files.content? (flowPath dir tenant name) with
  | .ok (some content) => some (.content content)
  | _ => none

variable {dir : Path}

/-- What a look at a file finds is the document that can be read there. -/
def Reading.ofContent (content : Content) : Reading :=
  match (Stored.content content).document? with
  | some v => .value v
  | none => .unreadable

/-- Reading a file changes nothing. -/
theorem readJson_eq (path : Path) (t : Traced Files) :
    readJson path t =
      (((t.state.content? path).mapError .files).map fun content =>
        content.elim .absent .ofContent, t) := by
  obtain ⟨files, events⟩ := t
  cases hfound : files.content? path with
  | error fault => exact readJson_of_error hfound
  | ok r =>
    cases r with
    | none => exact readJson_of_nothing hfound
    | some content =>
      rw [readJson_of_content hfound, Run.bind_ok (Run.ofExcept_ok _ _ _)]
      show _ = (Except.ok (Reading.ofContent content), (⟨files, events⟩ : Traced Files))
      cases content with
      | text s =>
        simp only [Reading.ofContent, Stored.document?]
        cases Json.read s <;> rfl
      | binary bytes => rfl
      | database tables => rfl

/-- Loading reads what lies there and changes nothing. -/
theorem of_loadFlow (t : Traced Files) :
    (∀ flow, (access now dir (.loadFlow tenant name) t).1 = .ok (some flow) ↔
      (stored dir t.state tenant name).bind (Stored.load? now) = some flow) ∧
    (access now dir (.loadFlow tenant name) t).2.state = t.state := by
  have hread := readJson_eq (flowPath dir tenant name) t
  rw [access, stored]
  cases hfound : t.state.content? (flowPath dir tenant name) with
  | error fault =>
    rw [hfound] at hread
    rw [Run.bind_error hread]
    simp
  | ok r =>
    cases r with
    | none =>
      rw [hfound] at hread
      rw [Run.bind_ok hread]
      simp
    | some content =>
      rw [hfound] at hread
      change _ = (Except.ok (Reading.ofContent content), t) at hread
      rw [Run.bind_ok hread, Reading.ofContent, Option.bind_some, Stored.load?]
      cases (Stored.content content).document? with
      | none => simp [Traced.log]
      | some v => cases hparsed : Flow.ofValue now v <;> simp [hparsed, Except.toOption, Traced.log]

/-- A flow that is written is a file that is written, once the directories above it are made. -/
theorem of_writeFlow {t t' : Traced Files} {l : String}
    (hdone : access now dir (.writeFlow tenant flow) t = (.ok l, t')) :
    ∃ files, Files.ensureDirectories (flowsPath dir tenant) t.state = (.ok (), files) ∧
      files.write (flowPath dir tenant (.str flow.name))
        (.text (Json.pretty (.dict flow.document))) = .ok t'.state := by
  obtain ⟨_, t₁, hwrote, hrest⟩ := Run.exists_of_bind hdone
  cases hrest
  obtain ⟨files, events⟩ := t
  rcases hran : (do
    prepare (flowPath dir tenant (.str flow.name))
    Files.apply fun files => files.write (flowPath dir tenant (.str flow.name))
      (.text (Json.pretty (.dict flow.document))) : Run Files Unit) files with ⟨r, files'⟩
  simp only [writeJson, Run.silently_apply, hran] at hwrote
  obtain ⟨rfl, rfl⟩ := Prod.mk.inj hwrote
  obtain ⟨_, made, hprepared, hwrites⟩ := Run.exists_of_bind hran
  obtain ⟨_, made', hensured, hrest⟩ := Run.exists_of_bind hprepared
  have habove : (flowPath dir tenant (.str flow.name)).parent = flowsPath dir tenant :=
    Path.parent_below_singleton _ _
  rw [habove] at hensured
  have hunchanged : made = made' := by
    split at hrest <;> cases hrest
    rfl
  refine ⟨made', hensured, ?_⟩
  subst hunchanged
  cases hwritten : made.write (flowPath dir tenant (.str flow.name))
      (.text (Json.pretty (.dict flow.document))) with
  | error fault =>
    simp only [Files.apply, hwritten] at hwrites
    cases hwrites
  | ok written' =>
    simp only [Files.apply, hwritten] at hwrites
    cases hwrites
    rfl

/-- The document of a flow that is written lies under its key. -/
theorem stored_of_writeFlow {t t' : Traced Files} {l : String}
    (hdone : access now dir (.writeFlow tenant flow) t = (.ok l, t')) :
    stored dir t'.state tenant (.str flow.name) =
      some (.content (.text (Json.pretty (.dict flow.document)))) := by
  obtain ⟨files, -, hwritten⟩ := of_writeFlow hdone
  rw [stored, content?_of_write hwritten]

/-- Where something lies, the directory of the flows of its tenant is there. -/
theorem place_parent_of_stored {files : Files} {s : Stored}
    (hthere : stored dir files tenant name = some s) :
    ∃ q, files.place (flowsPath dir tenant) = .ok q ∧ files.node? q = some .directory := by
  unfold stored at hthere
  cases hleads : files.place (flowPath dir tenant name) with
  | error fault => cases fault <;> simp [content?, find?, hleads] at hthere
  | ok p => exact place_parent hleads (isLegible_of_child (isLegible_of_place hleads))

/-- A flow that is written is all that changes, if its tenant has a flow. -/
theorem stored_of_writeFlow_ne {t t' : Traced Files} {l : String}
    (hdone : access now dir (.writeFlow tenant flow) t = (.ok l, t')) {s : Stored}
    (hthere : stored dir t.state tenant name = some s)
    (hother : flowKey tenant' name' ≠ flowKey tenant (.str flow.name)) :
    stored dir t'.state tenant' name' = stored dir t.state tenant' name' := by
  obtain ⟨files, hmade, hwritten⟩ := of_writeFlow hdone
  -- the directory is there, because it has the file of a flow
  have hunmade : files = t.state := by
    obtain ⟨q, hleads, hdirectory⟩ := place_parent_of_stored hthere
    rw [ensureDirectories_of_directory hleads hdirectory] at hmade
    exact (Prod.mk.inj hmade).2.symm
  subst hunmade
  obtain ⟨p, hleads, hfree, hsame⟩ := exists_of_write hwritten
  rw [stored, stored, hsame, content?_set_file hfree]
  intro hleads'
  rw [flowPath_eq] at hleads hleads'
  have hnames := names_eq_of_place (isOrdinary_flowPath (isOfFlow_flowKey tenant' name'))
    (isOrdinary_flowPath (isOfFlow_flowKey tenant (.str flow.name))) hleads' hleads
  simp only [flowNames, List.cons.injEq, fileName_inj, and_true, true_and] at hnames
  exact hother (Prod.ext hnames.1 hnames.2)

end Directory

/-! ## In a database -/

namespace Table

/-- The tables that lie where the next access to flows looks for them. -/
def tables? (address configured : Value) (s : State) : Option Tables :=
  s.site.stored (if s.flowsReady then configured else address)

/-- What lies under a key. -/
def stored (address configured : Value) (s : State) (key : Key) : Option Stored :=
  (tables? address configured s).bind fun tables => (tables.flows.get? key).map .row

variable {address configured : Value} {t t₁ t' : Traced State} {connection : Connection}
  {tables : Tables}

/-- What is done on the site is done on the whole. -/
theorem of_onSite {α : Type} {m : Run (Traced Site) α} {a : α}
    (hdone : onSite m t = (.ok a, t')) :
    ∃ site, m ⟨t.state.site, t.events⟩ = (.ok a, ⟨site, t'.events⟩) ∧
      t'.state = { t.state with site } := by
  rw [onSite, Run.zoom_apply] at hdone
  rcases hran : m ⟨t.state.site, t.events⟩ with ⟨r, u⟩
  rw [hran] at hdone
  obtain ⟨rfl, rfl⟩ := Prod.mk.inj hdone
  exact ⟨u.state, rfl, rfl⟩

theorem tables?_of_ready {location : Location} {s : State} (hready : Ready location s tables)
    (address configured : Value) : tables? address configured s = some tables :=
  hready.serves.stored_eq hready.connected _

/-- The tables that an access to flows works on are those that are stored, or empty ones, and they
are ready from then on. -/
theorem of_look (hprepared : readyFlows address t = (.ok (), t₁))
    (hlooked : onSite (current configured) t₁ = (.ok (connection, tables), t')) :
    tables = (tables? address configured t.state).getD {} ∧ t'.state.flowsReady = true ∧
      Ready connection.location t'.state tables := by
  obtain ⟨site, hfound, hsame⟩ := of_onSite hlooked
  obtain ⟨hlies, hserves, hconnected⟩ := of_current hfound
  have hready : Ready connection.location t'.state tables := by
    rw [hsame]
    exact ⟨hserves, hconnected⟩
  unfold readyFlows at hprepared
  rw [Run.read_bind] at hprepared
  cases hflag : t.state.flowsReady with
  | true =>
    rw [hflag] at hprepared
    cases hprepared
    refine ⟨?_, by rw [hsame]; exact hflag, hready⟩
    rw [tables?, hflag, if_pos rfl, hlies, Option.getD_some]
  | false =>
    rw [hflag] at hprepared
    obtain ⟨_, t₂, hmade, hrest⟩ := Run.exists_of_bind hprepared
    cases hrest
    obtain ⟨site', hmade, hsame'⟩ := of_onSite hmade
    obtain ⟨location, hserves', hconnected'⟩ := of_createTables hmade
    refine ⟨?_, by rw [hsame], hready⟩
    have hstored : t₂.state.site.stored configured =
        some ((t.state.site.stored address).getD {}) := by
      rw [hsame']
      exact hserves'.stored_eq hconnected' configured
    rw [tables?, hflag, if_neg Bool.false_ne_true]
    exact Option.some.inj (hlies.symm.trans hstored)

/-- The rows that an access to flows works on are what is stored, and stay so. -/
theorem stored_of_look (hprepared : readyFlows address t = (.ok (), t₁))
    (hlooked : onSite (current configured) t₁ = (.ok (connection, tables), t')) (key : Key) :
    stored address configured t.state key = (tables.flows.get? key).map .row ∧
      stored address configured t'.state key = (tables.flows.get? key).map .row := by
  obtain ⟨hsame, -, hready⟩ := of_look hprepared hlooked
  refine ⟨?_, by rw [stored, tables?_of_ready hready, Option.bind_some]⟩
  rw [stored, hsame]
  cases tables? address configured t.state <;> rfl

theorem exists_look (hlies : tables? address configured t.state = some tables) :
    ∃ c t₁ t', readyFlows address t = (.ok (), t₁) ∧
      onSite (current configured) t₁ = (.ok (c, tables), t') := by
  have hprepared : ∃ t₁, readyFlows address t = (.ok (), t₁) ∧
      t₁.state.site.stored configured = some tables := by
    unfold readyFlows
    rw [Run.read_bind]
    cases hflag : t.state.flowsReady with
    | true =>
      rw [tables?, hflag, if_pos rfl] at hlies
      exact ⟨t, rfl, hlies⟩
    | false =>
      rw [tables?, hflag, if_neg Bool.false_ne_true] at hlies
      obtain ⟨u, hmade⟩ := createTables_of_stored hlies t.events
      obtain ⟨location, hserves, hconnected⟩ := of_createTables hmade
      rw [hlies, Option.getD_some] at hserves
      have hran : onSite (createTables address) t =
          (.ok (), ⟨{ t.state with site := u.state }, u.events⟩) := by
        rw [onSite, Run.zoom_apply, hmade]
      refine ⟨_, Run.bind_ok hran, ?_⟩
      exact hserves.stored_eq hconnected configured
  obtain ⟨t₁, hprepared, hlies⟩ := hprepared
  obtain ⟨c, u, hfound⟩ := current_of_stored hlies t₁.events
  refine ⟨c, t₁, ⟨{ t₁.state with site := u.state }, u.events⟩, hprepared, ?_⟩
  rw [onSite, Run.zoom_apply, hfound]

/-- Reads the flow of a row. -/
def readRow (now : String) (tenant name : Value) (tables : Tables) :
    Run (Traced State) (Option Flow) :=
  match tables.flows.get? (flowKey tenant name) with
  | none => pure none
  | some row =>
    match Flow.ofValue now row.document with
    | .ok flow => pure (some flow)
    | .error _ => do
      Run.note (.flowRowUnreadable tenant name)
      pure none

theorem readRow_spec (now : String) (tenant name : Value) (tables : Tables) (t : Traced State) :
    ∃ events, readRow now tenant name tables t =
      (.ok (((tables.flows.get? (flowKey tenant name)).map .row).bind (Stored.load? now)),
        ⟨t.state, events⟩) := by
  unfold readRow
  cases tables.flows.get? (flowKey tenant name) with
  | none => exact ⟨t.events, rfl⟩
  | some row =>
    simp only [Option.map_some, Option.bind_some, Stored.load?, Stored.document?]
    cases Flow.ofValue now row.document with
    | ok flow => exact ⟨t.events, rfl⟩
    | error mismatch => exact ⟨_, rfl⟩

theorem loadFlow_eq (now : String) (address configured tenant name : Value) :
    access now address configured (.loadFlow tenant name) =
      readyFlows address >>= fun _ => onSite (current configured) >>= fun found =>
        readRow now tenant name found.2 := rfl

/-- What is loaded is what lies there, and loading changes nothing of what lies anywhere. -/
theorem of_loadFlow {r : Option Flow}
    (hloaded : access now address configured (.loadFlow tenant name) t = (.ok r, t')) :
    r = (stored address configured t.state (flowKey tenant name)).bind (Stored.load? now) ∧
      ∀ key, stored address configured t'.state key = stored address configured t.state key := by
  rw [loadFlow_eq] at hloaded
  obtain ⟨_, t₁, hprepared, hrest⟩ := Run.exists_of_bind hloaded
  obtain ⟨⟨connection, tables⟩, t₂, hlooked, hrest⟩ := Run.exists_of_bind hrest
  obtain ⟨events, hread⟩ := readRow_spec now tenant name tables t₂
  simp only [hread, Prod.mk.injEq, Except.ok.injEq] at hrest
  obtain ⟨rfl, rfl⟩ := hrest
  refine ⟨?_, fun key => ?_⟩
  · rw [(stored_of_look hprepared hlooked (flowKey tenant name)).1]
  · obtain ⟨hbefore, hafter⟩ := stored_of_look hprepared hlooked key
    rw [hbefore, ← hafter]

/-- A flow is loaded exactly if it is what lies there. -/
theorem load_iff :
    (access now address configured (.loadFlow tenant name) t).1 = .ok (some flow) ↔
      (stored address configured t.state (flowKey tenant name)).bind (Stored.load? now) =
        some flow := by
  constructor
  · intro hloaded
    exact (of_loadFlow (Prod.ext hloaded rfl)).1.symm
  · intro hlies
    obtain ⟨s, hthere, -⟩ := Option.bind_eq_some_iff.1 hlies
    obtain ⟨tables, hthere, -⟩ := Option.bind_eq_some_iff.1 hthere
    obtain ⟨c, t₁, t₂, hprepared, hlooked⟩ := exists_look hthere
    obtain ⟨events, hread⟩ := readRow_spec now tenant name tables t₂
    rw [(stored_of_look hprepared hlooked (flowKey tenant name)).1] at hlies
    rw [loadFlow_eq, Run.bind_ok hprepared, Run.bind_ok hlooked, hread, hlies]

/-- A row of a flow that is written lies under its key, and it is all that changes. -/
theorem stored_of_writeFlow {l : String}
    (hdone : access now address configured (.writeFlow tenant flow) t = (.ok l, t')) :
    (∃ row : FlowRow, row.document =
        kept ((stored address configured t.state (flowKey tenant (.str flow.name))).bind
          Stored.document?) (.dict flow.document) ∧
      stored address configured t'.state (flowKey tenant (.str flow.name)) = some (.row row)) ∧
    ∀ key, key ≠ flowKey tenant (.str flow.name) →
      stored address configured t'.state key = stored address configured t.state key := by
  obtain ⟨_, t₁, hprepared, hrest⟩ := Run.exists_of_bind hdone
  obtain ⟨⟨connection, tables⟩, t₂, hlooked, hrest⟩ := Run.exists_of_bind hrest
  obtain ⟨-, -, hready⟩ := of_look hprepared hlooked
  obtain ⟨row, t₃, hmade, hrest⟩ := Run.exists_of_bind hrest
  obtain ⟨_, t₄, hstores, hrest⟩ := Run.exists_of_bind hrest
  cases hrest
  have held := (stored_of_look hprepared hlooked (flowKey tenant (.str flow.name))).1
  rcases flowRow_spec (tables.flows.get? (flowKey tenant (.str flow.name))) flow with
    ⟨-, row', hmade', hdocument⟩ | ⟨-, hrefused⟩
  · rw [hmade'] at hmade
    cases hmade
    obtain ⟨s', hstored', hready'⟩ := onSite_store hready rfl
      (withFlowRow tables (flowKey tenant (.str flow.name)) row) t₂.events
    obtain rfl : ⟨s', t₂.events⟩ = t' := (Prod.mk.inj (hstored'.symm.trans hstores)).2
    have hafter := tables?_of_ready hready' address configured
    refine ⟨⟨row, ?_, ?_⟩, fun key hother => ?_⟩
    · rw [hdocument, held]
      cases tables.flows.get? (flowKey tenant (.str flow.name)) <;> rfl
    · rw [stored, hafter]
      simp [withFlowRow]
    · rw [(stored_of_look hprepared hlooked key).1, stored, hafter]
      simp [withFlowRow, get?_set_of_ne _ _ hother]
  · rw [hrefused] at hmade
    cases hmade

end Table

end Dialogue.Store

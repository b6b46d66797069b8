import Dialogue.Proofs.Deployment.Reading
import Dialogue.Proofs.Flow.Document
import Dialogue.Proofs.Store.Stored

/-!
# What lies under the key of a flow in a deployment

A deployment may be given any documents, by hand or by other tools, so what it finds cannot always
be described by contents that were written here.  This module follows single flows instead: what
lies under the key of a flow in the store in use (`Deployment.stored`) is what a call that loads the
flow finds (`load_iff`), and loading leaves it as it is.  A flow that is written can be read under
the key of its name from then on (`of_writeFlow`).

A flow is saved as a document and read again whenever it is loaded.  That leaves out what is null,
and a field that was null in the document that the flow came from may be there once more under its
older name, which did not count then.  So a flow that is saved is found again, doing the same step
by step, exactly if it is settled and no row keeps its document instead
(`Deployment.reloads_iff`): the older spellings that it keeps do not stand in for anything that was
left out.
-/

namespace Dialogue.Deployment

open Store

/-- What lies under the key of a flow in the store in use. -/
def stored (d : Deployment) (tenant name : Value) : Option Stored :=
  match d.store d.engine.flows with
  | .memory documents => documents.stored (flowKey tenant name)
  | .directory dir => Directory.stored dir d.files tenant name
  | .table address flowsReady conversationsReady =>
    Table.stored (d.addressOr address) d.settings.database.url
      ⟨⟨d.files, d.connection⟩, flowsReady, conversationsReady⟩ (flowKey tenant name)

/-- The store for flows that is in use was made. -/
def HasStore (d : Deployment) : Prop := d.engine.flows < d.stores.length

/-- The store for flows that is in use keeps them in files. -/
def IsInFiles (d : Deployment) : Prop := ∃ dir, d.store d.engine.flows = .directory dir

variable {d d' : Deployment} {clock : String} {tenant name : Value} {flow : Flow}

theorem store_setStore (d : Deployment) (n : Nat) (b : Backend) :
    (d.setStore n b).store n = if n < d.stores.length then b else .memory {} := by
  by_cases hmade : n < d.stores.length <;> simp [store, setStore, hmade]

theorem store_of_not_lt {n : Nat} (hmissing : ¬ n < d.stores.length) : d.store n = .memory {} := by
  simp [store, hmissing]

theorem store_setStore_of_eq {n : Nat} {b : Backend} (hsame : d.store n = b) :
    (d.setStore n b).store n = b := by
  rw [store_setStore]
  split
  · rfl
  · rename_i hmissing
    rw [← hsame, store_of_not_lt hmissing]

section

variable {documents : Memory} {dir : Path} {address : Value} {flowsReady conversationsReady : Bool}

theorem stored_of_memory (hlies : d.store d.engine.flows = .memory documents) :
    d.stored tenant name = documents.stored (flowKey tenant name) := by
  rw [stored, hlies]

theorem stored_of_directory (hlies : d.store d.engine.flows = .directory dir) :
    d.stored tenant name = Directory.stored dir d.files tenant name := by
  rw [stored, hlies]

theorem stored_of_table
    (hlies : d.store d.engine.flows = .table address flowsReady conversationsReady) :
    d.stored tenant name = Table.stored (d.addressOr address) d.settings.database.url
      ⟨⟨d.files, d.connection⟩, flowsReady, conversationsReady⟩ (flowKey tenant name) := by
  rw [stored, hlies]

theorem isRow_of_table
    (hlies : d.store d.engine.flows = .table address flowsReady conversationsReady) {s : Stored}
    (hthere : d.stored tenant name = some s) : ∃ row, s = .row row := by
  rw [stored_of_table hlies] at hthere
  obtain ⟨tables, -, hfound⟩ := Option.bind_eq_some_iff.1 hthere
  obtain ⟨row, -, rfl⟩ := Option.map_eq_some_iff.1 hfound
  exact ⟨row, rfl⟩

end

/-- What lies somewhere depends on the storage keys only. -/
theorem stored_congr {tenant' name' : Value}
    (hsame : flowKey tenant name = flowKey tenant' name') :
    d.stored tenant name = d.stored tenant' name' := by
  cases hlies : d.store d.engine.flows with
  | memory documents => rw [stored_of_memory hlies, stored_of_memory hlies, hsame]
  | directory dir =>
    rw [stored_of_directory hlies, stored_of_directory hlies, Directory.stored, Directory.stored,
      Directory.flowPath_eq, Directory.flowPath_eq, hsame]
  | table address flowsReady conversationsReady =>
    rw [stored_of_table hlies, stored_of_table hlies, hsame]

theorem hasStore_of_stored {s : Stored} (hlies : d.stored tenant name = some s) : d.HasStore := by
  refine Classical.byContradiction fun hmissing => ?_
  rw [stored_of_memory (store_of_not_lt hmissing)] at hlies
  cases hlies

theorem isDocument_of_isInFiles (hinFiles : d.IsInFiles)
    {s : Stored} (hlies : d.stored tenant name = some s) {doc : Value}
    (hread' : s.document? = some doc) : doc.IsDocument := by
  obtain ⟨dir, hthere⟩ := hinFiles
  rw [stored_of_directory hthere, Directory.stored] at hlies
  split at hlies
  · rename_i content _
    cases hlies
    cases content with
    | text s =>
      cases hparsed : Json.read s with
      | error e => simp [Stored.document?, hparsed, Except.toOption] at hread'
      | ok v =>
        obtain rfl : v = doc := by simpa [Stored.document?, hparsed, Except.toOption] using hread'
        exact Json.isDocument_of_read hparsed
    | binary bytes => cases hread'
    | database tables => cases hread'
  · cases hlies

/-! ## Loading -/

theorem access_loadFlow_iff :
    (access d.engine (.loadFlow tenant name) d).1 = .ok (some flow) ↔
      (d.stored tenant name).bind (Stored.load? d.clock) = some flow := by
  show (accessStore d.engine.flows (.loadFlow tenant name) d).1 = _ ↔ _
  rw [accessStore, stored]
  cases d.store d.engine.flows with
  | memory documents => exact Memory.load_iff
  | directory dir => exact (Directory.of_loadFlow _).1 flow
  | table address flowsReady conversationsReady => exact Table.load_iff

theorem load_iff :
    (d.call clock (.loadFlow tenant name)).1 = .ok (.found (some flow)) ↔
      (d.stored tenant name).bind (Stored.load? clock) = some flow := by
  have hsame : (d.stored tenant name).bind (Stored.load? clock) = some flow ↔
      (access d.engine (.loadFlow tenant name) { d with clock }).1 = .ok (some flow) :=
    (access_loadFlow_iff (d := { d with clock })).symm
  rw [hsame, Storage.call_eq (.loadFlow tenant name) rfl]
  rcases access d.engine (.loadFlow tenant name) { d with clock } with ⟨f | found, t⟩ <;> simp

/-- A deployment that goes on with the same stores and the same flows in them. -/
structure Unaltered (d d' : Deployment) : Prop where
  engine : d'.engine = d.engine
  clock : d'.clock = d.clock
  made : d.HasStore → d'.HasStore
  stored : ∀ tenant name, d'.stored tenant name = d.stored tenant name

theorem unaltered_of_loadFlow {r : Option Flow}
    (hloaded : access d.engine (.loadFlow tenant name) d = (.ok r, d')) : d.Unaltered d' := by
  change accessStore d.engine.flows (.loadFlow tenant name) d = _ at hloaded
  rw [accessStore] at hloaded
  cases hlies : d.store d.engine.flows with
  | memory documents =>
    simp only [hlies, onMemory, Run.zoom_apply, Memory.loadFlow_eq] at hloaded
    have hafter := (Prod.mk.inj hloaded).2
    have hlies' : d'.store d'.engine.flows = .memory documents := by
      rw [← hafter]
      exact store_setStore_of_eq hlies
    refine ⟨by rw [← hafter]; rfl, by rw [← hafter]; rfl, fun hmade => ?_, fun tenant' name' => ?_⟩
    · rw [← hafter]
      simpa [HasStore, setStore] using hmade
    · rw [stored_of_memory hlies, stored_of_memory hlies']
  | directory dir =>
    simp only [hlies, onFiles, Run.zoom_apply] at hloaded
    have hafter := (Prod.mk.inj hloaded).2
    have hlies' : d'.store d'.engine.flows = .directory dir := by
      rw [← hafter]
      exact hlies
    have hfiles : d'.files = d.files := by
      rw [← hafter]
      exact (Directory.of_loadFlow _).2
    refine ⟨by rw [← hafter], by rw [← hafter], fun hmade => ?_, fun tenant' name' => ?_⟩
    · rw [← hafter]
      exact hmade
    · rw [stored_of_directory hlies, stored_of_directory hlies', hfiles]
  | table address flowsReady conversationsReady =>
    simp only [hlies, onTable, Run.zoom_apply] at hloaded
    rcases hran : Table.access d.clock (d.addressOr address) d.settings.database.url
      (.loadFlow tenant name) ⟨⟨⟨d.files, d.connection⟩, flowsReady, conversationsReady⟩, d.events⟩
      with ⟨r', t⟩
    simp only [hran] at hloaded
    obtain ⟨rfl, hafter⟩ := Prod.mk.inj hloaded
    have hmade : d.HasStore := by
      refine Classical.byContradiction fun hmissing => ?_
      rw [store_of_not_lt hmissing] at hlies
      cases hlies
    have hlies' : d'.store d'.engine.flows =
        .table address t.state.flowsReady t.state.conversationsReady := by
      rw [← hafter]
      exact (store_setStore _ _ _).trans (if_pos hmade)
    refine ⟨by rw [← hafter]; rfl, by rw [← hafter]; rfl, fun hmade => ?_, fun tenant' name' => ?_⟩
    · rw [← hafter]
      simpa [HasStore, setStore] using hmade
    · rw [stored_of_table hlies, stored_of_table hlies',
        ← (Table.of_loadFlow hran).2 (flowKey tenant' name'), ← hafter]
      rfl

/-! ## Writing -/

/-- A row is there whose document counts as the same as that of a flow, so that it stays when the
flow is written. -/
def Retains (d : Deployment) (tenant : Value) (flow : Flow) : Prop :=
  ∃ row, d.stored tenant (.str flow.name) = some (.row row) ∧
    (Value.dict flow.document).same row.document = true

theorem Unaltered.retains_iff (hunaltered : d.Unaltered d') :
    d'.Retains tenant flow ↔ d.Retains tenant flow := by
  rw [Retains, Retains, hunaltered.stored]

/-- A flow that is written lies under the key of its name, unless a row is there that stays.
Nothing else is altered, if its tenant has a flow already. -/
structure Wrote (d d' : Deployment) (tenant : Value) (flow : Flow) : Prop where
  engine : d'.engine = d.engine
  lies : ¬ d.Retains tenant flow → ∃ s, d'.stored tenant (.str flow.name) = some s ∧
    s.document? = some (.dict flow.document)
  stays : d.Retains tenant flow → ∃ s s', d.stored tenant (.str flow.name) = some s ∧
    d'.stored tenant (.str flow.name) = some s' ∧ s'.document? = s.document?
  others : ∀ {name s}, d.stored tenant name = some s → ∀ {tenant' name'},
    flowKey tenant' name' ≠ flowKey tenant (.str flow.name) →
      d'.stored tenant' name' = d.stored tenant' name'

/-- What was loaded in between makes no difference. -/
theorem Wrote.of_unaltered {d₁ : Deployment} (hunaltered : d.Unaltered d₁)
    (hwrote : d₁.Wrote d' tenant flow) : d.Wrote d' tenant flow where
  engine := hwrote.engine.trans hunaltered.engine
  lies hfresh := hwrote.lies (mt hunaltered.retains_iff.1 hfresh)
  stays hretains := by
    obtain ⟨s, s', hbefore, hafter, hsame⟩ := hwrote.stays (hunaltered.retains_iff.2 hretains)
    exact ⟨s, s', (hunaltered.stored _ _).symm.trans hbefore, hafter, hsame⟩
  others hthere _ _ hother :=
    (hwrote.others ((hunaltered.stored _ _).trans hthere) hother).trans (hunaltered.stored _ _)

theorem Wrote.of_setClock (hwrote : { d with clock }.Wrote d' tenant flow) (e : Event) :
    d.Wrote (log e d') tenant flow :=
  ⟨hwrote.engine, hwrote.lies, hwrote.stays, hwrote.others⟩

/-- A flow that is written to memory lies there. -/
theorem wrote_of_memory (hmade : d.HasStore) {documents : Memory} {l : String}
    (hlies : d.store d.engine.flows = .memory documents)
    (hdone : access d.engine (.writeFlow tenant flow) d = (.ok l, d')) :
    d.Wrote d' tenant flow := by
  change accessStore d.engine.flows (.writeFlow tenant flow) d = _ at hdone
  simp only [accessStore, hlies, onMemory, Run.zoom_apply, Memory.writeFlow_eq] at hdone
  have hafter := (Prod.mk.inj hdone).2
  have hlies' : d'.store d'.engine.flows = .memory (documents.withFlow tenant flow) := by
    rw [← hafter]
    exact (store_setStore _ _ _).trans (if_pos hmade)
  refine ⟨by rw [← hafter]; rfl, fun _ => ⟨.document (.dict flow.document), ?_, ?_⟩, ?_,
    fun _ tenant' name' hother => ?_⟩
  · rw [stored_of_memory hlies', Memory.stored_withFlow, if_pos rfl]
  · have hnonempty : (Value.dict flow.document).isEmpty = false := by
      simpa [Value.isEmpty] using Flow.document_ne_nil flow
    rw [Stored.document?, hnonempty]
    rfl
  · rintro ⟨row, hthere, -⟩
    rw [stored_of_memory hlies, Memory.stored] at hthere
    simp at hthere
  · rw [stored_of_memory hlies, stored_of_memory hlies', Memory.stored_withFlow, if_neg hother]

/-- A flow that text can hold lies in its file after it was written. -/
theorem wrote_of_directory (hplain : (Value.dict flow.document).IsPlain) {dir : Path} {l : String}
    (hlies : d.store d.engine.flows = .directory dir)
    (hdone : access d.engine (.writeFlow tenant flow) d = (.ok l, d')) :
    d.Wrote d' tenant flow := by
  change accessStore d.engine.flows (.writeFlow tenant flow) d = _ at hdone
  simp only [accessStore, hlies, onFiles, Run.zoom_apply] at hdone
  rcases hran : Directory.access d.clock dir (.writeFlow tenant flow) ⟨d.files, d.events⟩ with
    ⟨r, t⟩
  simp only [hran] at hdone
  obtain ⟨rfl, hafter⟩ := Prod.mk.inj hdone
  have hlies' : d'.store d'.engine.flows = .directory dir := by
    rw [← hafter]
    exact hlies
  have hfiles : d'.files = t.state := by rw [← hafter]
  refine ⟨by rw [← hafter],
    fun _ => ⟨.content (.text (Json.pretty (.dict flow.document))), ?_, ?_⟩, ?_, ?_⟩
  · rw [stored_of_directory hlies', hfiles, Directory.stored_of_writeFlow hran]
  · rw [Stored.document?, Json.read_pretty hplain]
    rfl
  · rintro ⟨row, hthere, -⟩
    rw [stored_of_directory hlies, Directory.stored] at hthere
    split at hthere <;> cases hthere
  · intro name s hthere tenant' name' hother
    rw [stored_of_directory hlies] at hthere
    rw [stored_of_directory hlies, stored_of_directory hlies', hfiles,
      Directory.stored_of_writeFlow_ne hran hthere hother]

/-- A flow that is written to a table lies in its row, unless the row keeps its document. -/
theorem wrote_of_table (hmade : d.HasStore) {address : Value} {flowsReady conversationsReady : Bool}
    {l : String} (hlies : d.store d.engine.flows = .table address flowsReady conversationsReady)
    (hdone : access d.engine (.writeFlow tenant flow) d = (.ok l, d')) :
    d.Wrote d' tenant flow := by
  change accessStore d.engine.flows (.writeFlow tenant flow) d = _ at hdone
  simp only [accessStore, hlies, onTable, Run.zoom_apply] at hdone
  rcases hran : Table.access d.clock (d.addressOr address) d.settings.database.url
    (.writeFlow tenant flow)
    ⟨⟨⟨d.files, d.connection⟩, flowsReady, conversationsReady⟩, d.events⟩ with ⟨r, t⟩
  simp only [hran] at hdone
  obtain ⟨rfl, hafter⟩ := Prod.mk.inj hdone
  have hlies' : d'.store d'.engine.flows =
      .table address t.state.flowsReady t.state.conversationsReady := by
    rw [← hafter]
    exact (store_setStore _ _ _).trans (if_pos hmade)
  have hstored' : ∀ tenant' name', d'.stored tenant' name' = Table.stored (d.addressOr address)
      d.settings.database.url t.state (flowKey tenant' name') := by
    intro tenant' name'
    rw [stored_of_table hlies', ← hafter]
    rfl
  obtain ⟨⟨row, hdocument, hown⟩, hothers⟩ := Table.stored_of_writeFlow hran
  rw [← stored_of_table hlies] at hdocument
  refine ⟨by rw [← hafter]; rfl, fun hfresh => ⟨.row row, (hstored' _ _).trans hown, ?_⟩, ?_,
    fun _ tenant' name' hother => ?_⟩
  · rw [Stored.document?, hdocument]
    cases held : d.stored tenant (.str flow.name) with
    | none => rfl
    | some s =>
      obtain ⟨old, rfl⟩ := isRow_of_table hlies held
      have hdifferent : (Value.dict flow.document).same old.document = false :=
        Bool.eq_false_iff.2 fun hsame => hfresh ⟨old, held, hsame⟩
      simp [Stored.document?, Table.kept, hdifferent]
  · rintro ⟨old, held, hsame⟩
    refine ⟨.row old, .row row, held, (hstored' _ _).trans hown, ?_⟩
    rw [Stored.document?, Stored.document?, hdocument, held]
    simp [Stored.document?, Table.kept, hsame]
  · rw [hstored', stored_of_table hlies, hothers _ hother]

/-- Writing a flow puts it under the key of its name; in files it has to be one that text can
hold. -/
theorem wrote_of_writeFlow (hmade : d.HasStore)
    (hplain : d.IsInFiles → (Value.dict flow.document).IsPlain) {l : String}
    (hdone : access d.engine (.writeFlow tenant flow) d = (.ok l, d')) :
    d.Wrote d' tenant flow := by
  cases hlies : d.store d.engine.flows with
  | memory documents => exact wrote_of_memory hmade hlies hdone
  | directory dir => exact wrote_of_directory (hplain ⟨dir, hlies⟩) hlies hdone
  | table address flowsReady conversationsReady => exact wrote_of_table hmade hlies hdone

/-- A row keeps its document only where no flow can be read from it, since a flow that is revised
has a higher version. -/
theorem load?_eq_none_of_retains {s : Stored} (hlies : d.stored tenant (.str flow.name) = some s)
    (hretains : d.Retains tenant
      (revised clock flow ((d.stored tenant (.str flow.name)).bind (Stored.load? clock)))) :
    s.load? clock = none := by
  refine Option.eq_none_iff_forall_ne_some.2 fun old hloaded => ?_
  obtain ⟨row, held, halike⟩ := hretains
  rw [name_revised, hlies] at held
  obtain rfl := Option.some.inj held
  obtain ⟨doc, hdocument, hread'⟩ := Stored.load?_eq_some_iff.1 hloaded
  obtain rfl : row.document = doc := Option.some.inj hdocument
  have hkept := Flow.version_eq_of_same hread' halike
  rw [hlies, Option.bind_some, hloaded] at hkept
  simp only [revised] at hkept
  omega

/-- A flow that has a name and no extras does not find its document kept, if its version takes fewer
than sixty-three bits. -/
theorem not_retains_revised (hnamed : flow.name ≠ "") (hbare : flow.extras = [])
    (hsmall : flow.version.natAbs < Nat.pow 2 63) : ¬ d.Retains tenant
      (revised clock flow ((d.stored tenant (.str flow.name)).bind (Stored.load? clock))) := by
  intro hretains
  obtain ⟨row, hlies, hsame⟩ := id hretains
  rw [name_revised] at hlies
  have hunread := load?_eq_none_of_retains hlies hretains
  rw [hlies, Option.bind_some, hunread] at hsame
  obtain ⟨again, hread'⟩ := Flow.exists_ofValue_of_same hnamed hbare hsmall hsame clock
  rw [Stored.load?_eq_some_iff.2 ⟨_, rfl, hread'⟩] at hunread
  cases hunread

/-! ## Calls that write -/

variable {answer : Operation.Answer}

/-- A flow that is saved is written, revised if there was one that can be read. -/
theorem of_saveFlow (hmade : d.HasStore) (hwellFormed : flow.WellFormed)
    (hdone : d.call clock (.saveFlow tenant flow) = (.ok answer, d')) :
    ∃ existing, existing = (d.stored tenant (.str flow.name)).bind (Stored.load? clock) ∧
      answer = .flow (revised clock flow existing) ∧
      d.Wrote d' tenant (revised clock flow existing) := by
  rw [call, run, Operation.program] at hdone
  cases hnamed : flow.name.isEmpty with
  | true =>
    have hrefused : saveFlow clock tenant flow = .fail .flowUnnamed := by
      unfold saveFlow
      rw [hnamed]
      rfl
    rw [hrefused] at hdone
    cases hdone
  | false =>
    rw [saveFlow_eq hnamed] at hdone
    obtain ⟨existing, d₁, hloaded, hrest⟩ := Run.exists_of_bind hdone
    obtain ⟨location, d₂, hwrote, hrest⟩ := Run.exists_of_bind hrest
    cases hrest
    have hfound : existing = (d.stored tenant (.str flow.name)).bind (Stored.load? clock) := by
      refine Option.ext fun old => ?_
      have hiff : (access d.engine (.loadFlow tenant (.str flow.name)) { d with clock }).1 =
          .ok (some old) ↔
            (d.stored tenant (.str flow.name)).bind (Stored.load? clock) = some old :=
        access_loadFlow_iff (d := { d with clock })
      rw [hloaded] at hiff
      simpa using hiff
    have hunaltered := unaltered_of_loadFlow (d := { d with clock }) hloaded
    have hwrote' : access d₁.engine (.writeFlow tenant (revised clock flow existing)) d₁ =
        (.ok location, d₂) := by
      rw [hunaltered.engine]
      exact hwrote
    have hput := wrote_of_writeFlow (hunaltered.made hmade)
      (fun _ => Flow.isPlain_document (wellFormed_revised hwellFormed existing)) hwrote'
    exact ⟨existing, hfound, rfl, (hput.of_unaltered hunaltered).of_setClock _⟩

/-- A step that is appended to a flow that is there makes a flow that lies under the key of its own
name. -/
theorem of_appendStep {step : Value}
    (hfound : (d.stored tenant name).bind (Stored.load? clock) = some flow)
    (hdocument : step.IsDocument)
    (hdone : d.call clock (.appendStep tenant name step) = (.ok answer, d')) :
    d.Wrote d' tenant (withStep clock step flow) := by
  obtain ⟨s, hlies, hread'⟩ := Option.bind_eq_some_iff.1 hfound
  obtain ⟨doc, hwritten, hparsed⟩ := Stored.load?_eq_some_iff.1 hread'
  have hthere : (access d.engine (.loadFlow tenant name) { d with clock }).1 = .ok (some flow) :=
    (access_loadFlow_iff (d := { d with clock })).2 hfound
  rcases hloaded : access d.engine (.loadFlow tenant name) { d with clock } with ⟨r, d₁⟩
  rw [hloaded] at hthere
  obtain rfl : r = .ok (some flow) := hthere
  have hunaltered := unaltered_of_loadFlow (d := { d with clock }) hloaded
  -- the program goes on with the flow that was loaded
  have hgoesOn : ∃ location d₂, access d.engine (.writeFlow tenant (withStep clock step flow)) d₁ =
      (.ok location, d₂) ∧ ∃ e, d' = log e d₂ := by
    rw [call, run, Operation.program, Program.run_bind, appendStep_eq, Program.run_bind,
      loadOrCreate_eq] at hdone
    obtain ⟨grown, d₃, happended, hrest⟩ := Run.exists_of_bind hdone
    obtain ⟨flow', d₂, hfirst, hsecond⟩ := Run.exists_of_bind happended
    obtain ⟨r, d₄, hloaded', hgoes⟩ := Run.exists_of_bind hfirst
    obtain ⟨hsame, rfl⟩ := Prod.mk.inj (hloaded.symm.trans hloaded')
    obtain rfl := Except.ok.inj hsame
    cases hgoes
    obtain ⟨location, d₅, hwrote, hlast⟩ := Run.exists_of_bind hsecond
    cases hlast
    cases hrest
    exact ⟨location, d₅, hwrote, _, rfl⟩
  obtain ⟨location, d₂, hwrote, e, rfl⟩ := hgoesOn
  have hwrote' : access d₁.engine (.writeFlow tenant (withStep clock step flow)) d₁ =
      (.ok location, d₂) := by
    rw [hunaltered.engine]
    exact hwrote
  have hplain : d₁.IsInFiles → (Value.dict (withStep clock step flow).document).IsPlain := by
    intro hinFiles
    have hlies' : d₁.stored tenant name = some s := (hunaltered.stored tenant name).trans hlies
    exact Flow.isPlain_document (wellFormed_withStep hdocument
      (Flow.wellFormed_of_ofValue (isDocument_of_isInFiles hinFiles hlies' hwritten) hparsed))
  have hput := wrote_of_writeFlow (hunaltered.made (hasStore_of_stored hlies)) hplain hwrote'
  exact (hput.of_unaltered hunaltered).of_setClock e

end Dialogue.Deployment

/-! ## Flows that are saved and loaded -/

namespace Dialogue.Deployment

open Store

variable {d d' : Deployment} {now clock : String} {tenant : Value} {flow saved : Flow} {v : Value}

/-- A flow is found, at whatever time, that does step by step what the given one does. -/
def Reloads (d : Deployment) (tenant : Value) (flow : Flow) : Prop :=
  ∀ clock, ∃ again, (d.call clock (.loadFlow tenant (.str flow.name))).1 =
    .ok (.found (some again)) ∧ List.Forall₂ Entry.Same flow.steps again.steps

/-- A flow that was read from a document with finite numbers is saved and found again, doing the
same, exactly if it is settled as it is saved and no row keeps its document instead. -/
theorem reloads_iff (hmade : d.HasStore) (hplain : v.IsPlain)
    (hread' : Flow.ofValue now v = .ok flow)
    (hdone : d.call clock (.saveFlow tenant flow) = (.ok (.flow saved), d')) :
    d'.Reloads tenant flow ↔ saved.Settled ∧ ¬ d.Retains tenant saved := by
  have hwellFormed := Flow.wellFormed_of_ofValue hplain.1 hread'
  obtain ⟨existing, hloaded, hsame, hwrote⟩ := of_saveFlow hmade hwellFormed hdone
  obtain rfl : saved = revised clock flow existing := Operation.Answer.flow.inj hsame
  by_cases hretains : d.Retains tenant (revised clock flow existing)
  · obtain ⟨s, s', hbefore, hafter, hdocument⟩ := hwrote.stays hretains
    rw [name_revised] at hbefore hafter
    rw [hloaded] at hretains
    have hunread := load?_eq_none_of_retains hbefore hretains
    refine iff_of_false (fun hreloads => ?_) fun hboth => hboth.2 (hloaded ▸ hretains)
    obtain ⟨again, hfound, -⟩ := hreloads clock
    rw [load_iff, hafter, Option.bind_some, Stored.load?, hdocument] at hfound
    rw [Stored.load?, hfound] at hunread
    cases hunread
  obtain ⟨s, hlies, hwritten⟩ := hwrote.lies hretains
  rw [name_revised] at hlies
  rw [and_iff_left hretains]
  have hfound : ∀ {clock' again}, (d'.call clock' (.loadFlow tenant (.str flow.name))).1 =
      .ok (.found (some again)) ↔
        Flow.ofValue clock' (.dict (revised clock flow existing).document) = .ok again := by
    intro clock' again
    rw [load_iff, hlies, Option.bind_some, Stored.load?_eq_some_iff, hwritten]
    simp
  have hsteps : (revised clock flow existing).steps = flow.steps := by cases existing <;> rfl
  have hfinite : (revised clock flow existing).IsFinite := by
    have hall := Flow.isFinite_of_ofValue hplain hread'
    cases existing <;> exact hall
  have hread : (revised clock flow existing).IsRead := by
    rw [Flow.IsRead, hsteps]
    exact Flow.isRead_of_ofValue hplain hread'
  have hagain : ∀ clock', (∃ again, Flow.ofValue clock'
      (.dict (revised clock flow existing).document) = .ok again ∧
        List.Forall₂ Entry.Same flow.steps again.steps) ↔
          (revised clock flow existing).Settled := by
    intro clock'
    have hiff := Flow.exists_same_again_iff (wellFormed_revised hwellFormed existing) hfinite hread
      clock'
    rwa [hsteps] at hiff
  simp only [Reloads, hfound]
  exact ⟨fun hreloads => (hagain clock).1 (hreloads clock),
    fun hsettled clock' => (hagain clock').2 hsettled⟩

/-! ## A condition in an older spelling -/

/-- The document of a flow of one condition. -/
def conditionDocument (condition : Fields) : Value :=
  .dict [("name", .str "f"), ("steps", .list [.dict (("type", .str "condition") :: condition)])]

/-- The flow of one condition that such a document is read as. -/
def conditionFlow (expr : Option String) (extras : Fields) : Flow :=
  { id := "f"
    name := "f"
    createdAt := "t1"
    steps := [.step { id := Step.freshId, action := .condition expr none none, extras }] }

theorem isPlain_conditionDocument {condition : Fields} (hplain : ∀ e ∈ condition, e.2.IsPlain)
    (hnodup : (Keyed.keys (("type", Value.str "condition") :: condition)).Nodup) :
    (conditionDocument condition).IsPlain := by
  have hstep : (Value.dict (("type", .str "condition") :: condition)).IsPlain :=
    Value.isPlain_dict_iff.2 ⟨hnodup, List.forall_mem_cons.2 ⟨Schema.isPlain_str _, hplain⟩⟩
  have hsteps : (Value.list [.dict (("type", .str "condition") :: condition)]).IsPlain :=
    Value.isPlain_list_iff.2 (List.forall_mem_singleton.2 hstep)
  refine Value.isPlain_dict_iff.2 ⟨by simp, List.forall_mem_cons.2 ⟨Schema.isPlain_str _, ?_⟩⟩
  exact List.forall_mem_singleton.2 hsteps

/-- Saves the flow in a new store in memory. -/
def keep (flow : Flow) : Except Failure Operation.Answer × Deployment :=
  (started {}).call "t1" (.saveFlow (.str "acme") flow)

/-- A condition in the newer spelling is the same when it is found again. -/
theorem reloads_iff_condition :
    (keep (conditionFlow (some "a == 1") [])).2.Reloads (.str "acme")
      (conditionFlow (some "a == 1") []) := by
  have hmade : (started {}).HasStore := Nat.zero_lt_one
  have hplain : (conditionDocument [("if", .str "a == 1")]).IsPlain :=
    isPlain_conditionDocument (by simp [Schema.isPlain_str]) (by simp)
  have hread' : Flow.ofValue "t1" (conditionDocument [("if", .str "a == 1")]) =
      .ok (conditionFlow (some "a == 1") []) := rfl
  have hdone : (started {}).call "t1" (.saveFlow (.str "acme") (conditionFlow (some "a == 1") [])) =
      (.ok (.flow (conditionFlow (some "a == 1") [])),
        (keep (conditionFlow (some "a == 1") [])).2) := rfl
  refine (reloads_iff hmade hplain hread' hdone).2 ⟨⟨fun _ => ⟨none, rfl⟩, ?_⟩, ?_⟩
  · refine List.forall_mem_singleton.2 (Step.settled_of_newer ?_)
    simp
  · rintro ⟨row, hthere, -⟩
    cases hthere

/-- It does not always hold that a flow that is saved is found again doing the same: a condition
that was null in the newer spelling takes the one that stands there in the older. -/
theorem not_reloads :
    ¬ ∀ (d d' : Deployment) (now clock : String) (tenant v : Value) (flow saved : Flow),
      d.HasStore → v.IsPlain → Flow.ofValue now v = .ok flow →
      d.call clock (.saveFlow tenant flow) = (.ok (.flow saved), d') → d'.Reloads tenant flow := by
  intro halways
  have hmade : (started {}).HasStore := Nat.zero_lt_one
  have hplain : (conditionDocument [("if", .null), ("expr", .str "a == 1")]).IsPlain :=
    isPlain_conditionDocument (by simp [Schema.isPlain_str, Schema.isPlain_null]) (by simp)
  have hread' : Flow.ofValue "t1" (conditionDocument [("if", .null), ("expr", .str "a == 1")]) =
      .ok (conditionFlow none [("expr", .str "a == 1")]) := rfl
  have hdone : (started {}).call "t1"
      (.saveFlow (.str "acme") (conditionFlow none [("expr", .str "a == 1")])) =
      (.ok (.flow (conditionFlow none [("expr", .str "a == 1")])),
        (keep (conditionFlow none [("expr", .str "a == 1")])).2) := rfl
  have hreloads := halways _ _ _ _ _ _ _ _ hmade hplain hread' hdone
  obtain ⟨again, hloaded, hsame⟩ := hreloads "t1"
  have hchanged : ((keep (conditionFlow none [("expr", .str "a == 1")])).2.call "t1"
      (.loadFlow (.str "acme") (.str "f"))).1 =
        .ok (.found (some (conditionFlow (some "a == 1") []))) := rfl
  obtain rfl : conditionFlow (some "a == 1") [] = again :=
    Option.some.inj (Operation.Answer.found.inj (Except.ok.inj (hchanged.symm.trans hloaded)))
  simp [conditionFlow, Entry.Same] at hsame

end Dialogue.Deployment

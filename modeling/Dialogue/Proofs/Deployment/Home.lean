import Dialogue.Migration
import Dialogue.Proofs.Deployment.Storage
import Dialogue.Proofs.Store.Home
import Dialogue.Service.Handler

/-!
# Stores that keep to their database

A store in a database goes through many incidents: it is used, the connection is closed, a service
stops, a migration is run (`Incident`).  It keeps to its database if every access is answered from
what the store last wrote, no other file is changed, and no connection stays open that leads
elsewhere (`Deployment.Abides`).

A connection that was closed is opened again by the next access, and if the tables are known to be
there this goes to the address in the settings, not to the one that the store was made with.  So a
store keeps to its database through all incidents exactly if the address in the settings is one of
the same file (`Deployment.abides_iff_points`); otherwise three incidents are enough to lead it
astray (`Deployment.points_of_abides`).
-/

namespace Dialogue

open Database Run Store

/-! ## Closing, and preparing the database -/

namespace Deployment

theorem exists_closeDatabase (d : Deployment) :
    ∃ events, closeDatabase d = (.ok (), { d with connection := none, events }) := by
  obtain ⟨clock, settings, files, open_, stores, flows, conversations, engine, events⟩ := d
  cases open_ with
  | none => exact ⟨events, rfl⟩
  | some c => exact ⟨.connectionClosed :: events, rfl⟩

end Deployment

section

variable {files : Files} {place : Place} {home : Location} {site : Site} {found : Option Tables}
  {address : Value} {connection : Connection} {t t' : Traced Site}

theorem Database.holds_closed {files' : Files} (hleads : home.LeadsTo files place)
    {open_ : Option Connection} (holds : Site.Holds ⟨files', open_⟩ found home) :
    Site.Holds ⟨files', none⟩ found home := by
  cases home with
  | file path makes => exact holds
  | memory | nowhere => exact hleads.elim

/-- A connection is open, or is opened to an address of the place. -/
theorem Database.exists_connect (hminds : site.Minds files place)
    (hpoints : Points files place address)
    (events : List Event) :
    ∃ c events', connect address ⟨site, events⟩ =
        (.ok c, ⟨{ site with connection := some c }, events'⟩) ∧
      c.location.LeadsTo files place := by
  obtain ⟨files', open_⟩ := site
  unfold connect
  rw [Run.read_bind]
  cases open_ with
  | some c => exact ⟨c, events, rfl, hminds.connected c rfl⟩
  | none =>
    obtain ⟨location, ⟨shown, hknown⟩, hleads⟩ := hpoints
    rw [hknown]
    exact ⟨_, _, rfl, hleads⟩

/-- A connection that is opened is one to the address. -/
theorem Database.isAddressOf_of_connect (hclosed : t.state.connection = none)
    (hopened : connect address t = (.ok connection, t')) :
    IsAddressOf address connection.location := by
  unfold connect at hopened
  rw [Run.read_bind, hclosed] at hopened
  cases hknown : Connection.ofAddress address with
  | error fault =>
    rw [hknown] at hopened
    cases hopened
  | ok c =>
    rw [hknown] at hopened
    cases hopened
    exact isAddressOf_of_location (by rw [hknown]; rfl)

namespace Migration

/-- A migration finds the tables that are there, or makes empty ones. -/
theorem holds_prepare (hminds : site.Minds files place) (hleads : home.LeadsTo files place)
    (hopen : site.connection = some connection) (holds : site.Holds found home) (check : Bool)
    (address : Value) (events : List Event) :
    ∃ found', (prepare check address connection ⟨site, events⟩).2.state.Holds found' home ∧
      (found' = found ∨ found = none ∧ found' = some {}) := by
  have hleads' := hminds.connected connection hopen
  have hlooked := tables?_of_holds holds (hleads.of_extends hminds.tree.grows)
    (hleads'.of_extends hminds.tree.grows) events
  have hminds' := (maintains_tables? hleads' ⟨site, events⟩ hminds).1
  unfold prepare
  cases check with
  | true =>
    rcases hlooked with ⟨f, hlooked⟩ | ⟨site', hlooked, holds'⟩
    · refine ⟨found, ?_, .inl rfl⟩
      simpa only [if_true, Run.bind_error hlooked] using holds
    · refine ⟨found, ?_, .inl rfl⟩
      simp only [if_true, Run.bind_ok hlooked]
      split <;> exact holds'
  | false =>
    have hconnected : connect address ⟨site, events⟩ = (.ok connection, ⟨site, events⟩) := by
      simp only [connect, Run.read_bind, hopen]
      rfl
    have hmade : ∃ r site' events' found', createTables address ⟨site, events⟩ =
        (r, ⟨site', events'⟩) ∧ site'.Holds found' home ∧
          (found' = found ∨ found = none ∧ found' = some {}) := by
      unfold createTables
      rw [Run.bind_ok hconnected]
      rcases hlooked with ⟨f, hlooked⟩ | ⟨site', hlooked, holds'⟩
      · exact ⟨_, site, events, found, Run.bind_error hlooked, holds, .inl rfl⟩
      · rw [hlooked] at hminds'
        have hgrows := hminds'.tree.grows
        rw [Run.bind_ok hlooked]
        cases found with
        | some tables => exact ⟨_, site', _, some tables, rfl, holds', .inl rfl⟩
        | none =>
          obtain ⟨site'', hstored, holds''⟩ := store_of_leadsTo
            (free_of_holds holds' (hleads.of_extends hgrows)) (hleads.of_extends hgrows)
            (hleads'.of_extends hgrows) {} events
          exact ⟨_, site'', _, some {}, Run.bind_ok hstored, holds'', .inr ⟨rfl, rfl⟩⟩
    obtain ⟨r, site', events', found', hmade, holds', hsame⟩ := hmade
    refine ⟨found', ?_, hsame⟩
    cases r with
    | error f => simpa only [Bool.false_eq_true, if_false, Run.bind_error hmade] using holds'
    | ok _ =>
      simp only [Bool.false_eq_true, if_false, Run.bind_ok hmade]
      exact holds'

theorem maintains_prepare (hpoints : Points files place address)
    (hleads : connection.location.LeadsTo files place) (check : Bool) :
    Maintains (fun t : Traced Site => t.state.Minds files place)
      (prepare check address connection) fun _ => True := by
  unfold prepare
  dsimp only
  split
  · refine (maintains_tables? hleads).bind fun found _ => ?_
    split <;> exact maintains_pure trivial
  · exact (maintains_createTables hpoints).bind fun _ _ => maintains_pure trivial

end Migration

end

/-! ## Incidents -/

/-- What happens to a deployment: a store is used, the connection is closed, a service stops, or a
migration is run with settings that are read. -/
inductive Incident where
  | access (clock : String) (a : Access)
  | close
  | stop
  | migrate (check : Bool) (load : Files → Except Failure Settings)

namespace Incident

/-- The deployment after an incident; what is used is the store of a number. -/
def after (n : Nat) (d : Deployment) : Incident → Deployment
  | access clock a => (Deployment.accessStore n a { d with clock }).2
  | close => (Deployment.closeDatabase d).2
  | stop => (Service.stop d).2
  | migrate check load => (Migration.run check load d).2

/-- The contents after an incident: those that the access leaves, and the same after anything else.
-/
def leaves (m : Memory) : Incident → Memory
  | access clock a => (Table.outcome clock a ⟨m, []⟩).2.state
  | _ => m

/-- A migration reads settings with the given address. -/
def Keeps (url : Value) : Incident → Prop
  | migrate _ load => ∀ files settings, load files = .ok settings → settings.database.url = url
  | _ => True

end Incident

namespace Deployment

variable {n : Nat} {d : Deployment} {m : Memory} {files : Files} {place : Place} {home : Location}
  {path : Path} {makes : Bool} {url : Value} {i : Incident}

/-- In an incident the store keeps to the database in the file at a place: an access is answered
from the contents, no other file changes, and a connection that is open afterwards leads there. -/
structure Abides (n : Nat) (place : Place) (d : Deployment) (m : Memory) (i : Incident) : Prop where
  answers : ∀ clock a, i = .access clock a →
    (accessStore n a { d with clock }).1 = (Table.outcome clock a ⟨m, []⟩).1
  away : ∀ p, p ≠ place → (i.after n d).files.node? p = d.files.node? p
  connected : ∀ c, (i.after n d).connection = some c →
    c.location.LeadsTo (i.after n d).files place

/-- The store of a number has the contents, its own location being `home`; since the tree of files
was `files` nothing but the place was minded. -/
structure Settled (n : Nat) (files : Files) (place : Place) (home : Location) (url : Value)
    (d : Deployment) (m : Memory) : Prop where
  settings : d.settings.database.url = url
  store : ∃ address flowsReady conversationsReady,
    d.stores[n]? = some (.table address flowsReady conversationsReady) ∧
      IsAddressOf (d.addressOr address) home ∧
      Table.Stays home ⟨⟨d.files, d.connection⟩, flowsReady, conversationsReady⟩ m
  minds : Site.Minds files place ⟨d.files, d.connection⟩

theorem settled_of_shows (hshows : (Storage.table home).Shows n d m)
    (hleads : home.LeadsTo d.files place) :
    Settled n d.files place home d.settings.database.url d m := by
  obtain ⟨address, f, c, hthere, hknown, hshows⟩ := hshows
  refine ⟨rfl, ⟨address, f, c, hthere, hknown, hshows.stays⟩, .refl _ _, fun other hopen => ?_⟩
  obtain ⟨found, hserves, -⟩ := hshows
  exact hserves.connected other hopen ▸ hleads

/-- An access is answered from the contents. -/
theorem Settled.access (hsettled : Settled n files place home url d m)
    (hleads : home.LeadsTo files place) (hpoints : Points files place url) (clock : String)
    (a : Access) :
    (accessStore n a { d with clock }).1 = (Table.outcome clock a ⟨m, []⟩).1 ∧
      Settled n files place home url (accessStore n a { d with clock }).2
        (Table.outcome clock a ⟨m, []⟩).2.state := by
  obtain ⟨rfl, ⟨address, f, c, hthere, hknown, hstays⟩, hminds⟩ := hsettled
  have hthere' : ({ d with clock } : Deployment).stores[n]? = some (.table address f c) := hthere
  rw [accessStore, Storage.store_eq hthere']
  obtain ⟨hresult, hstays', hminds'⟩ :=
    hstays.access hminds hleads hknown hpoints clock d.events a
  exact ⟨hresult, rfl, ⟨address, _, _, Storage.getElem?_setStore hthere', hknown, hstays'⟩, hminds'⟩

/-- Whatever happens without the store being used, its contents are there. -/
theorem Settled.of_closed (hsettled : Settled n files place home url d m) {d' : Deployment}
    (hsettings : d'.settings.database.url = url)
    (hstores : d'.stores = d.stores) (hclosed : d'.connection = none)
    (htree : files.SameBut place d'.files)
    (holds : ∀ found, Site.Holds ⟨d.files, d.connection⟩ found home →
      ∃ found', Site.Holds ⟨d'.files, none⟩ found' home ∧
        (found' = found ∨ found = none ∧ found' = some {})) :
    Settled n files place home url d' m := by
  obtain ⟨rfl, ⟨address, f, c, hthere, hknown, found, hstays, hsame, hflags⟩, hminds⟩ := hsettled
  obtain ⟨found', holds', hsame'⟩ := holds found hstays.holds
  refine ⟨hsettings, ⟨address, f, c, hstores ▸ hthere, ?_, found', ⟨?_, ?_⟩, ?_, ?_⟩, htree, ?_⟩
  · rwa [addressOr, hsettings]
  · rwa [hclosed]
  · simp [hclosed]
  · rcases hsame' with rfl | ⟨rfl, rfl⟩ <;> exact hsame
  · rcases hsame' with rfl | ⟨rfl, rfl⟩
    · exact hflags
    · exact fun _ => rfl
  · simp [hclosed]

theorem Settled.closeDatabase (hsettled : Settled n files place home url d m)
    (hleads : home.LeadsTo files place) : Settled n files place home url (closeDatabase d).2 m := by
  obtain ⟨events, hclosed⟩ := exists_closeDatabase d
  rw [hclosed]
  exact hsettled.of_closed hsettled.settings rfl rfl hsettled.minds.tree fun found holds =>
    ⟨found, holds_closed hleads holds, .inl rfl⟩

/-- After a migration the contents are there. -/
theorem Settled.migrate (hsettled : Settled n files place home url d m)
    (hleads : home.LeadsTo files place) (hpoints : Points files place url) (check : Bool)
    {load : Files → Except Failure Settings}
    (hkeeps : ∀ files settings, load files = .ok settings → settings.database.url = url) :
    Settled n files place home url (Migration.run check load d).2 m := by
  cases hloaded : load d.files with
  | error f =>
    have hran : Migration.run check load d = (.error f, d) := by
      unfold Migration.run
      rw [Run.bind_ok (Run.get_apply d), hloaded]
      rfl
    rwa [hran]
  | ok settings =>
    have hsame := hkeeps _ _ hloaded
    obtain ⟨c, events, hconnected, hleads'⟩ := exists_connect hsettled.minds hpoints d.events
    let opened : Deployment := { d with settings, connection := some c, events }
    have hconnects : onSite (connect settings.database.url) { d with settings } =
        (.ok c, opened) := by
      rw [onSite, Run.zoom_apply, hsame, hconnected]
    have hran : (Migration.run check load d).2 =
        (Deployment.closeDatabase (onSite (Migration.prepare check settings.database.url c)
          opened).2).2 := by
      unfold Migration.run
      rw [Run.bind_ok (Run.get_apply d), hloaded]
      exact congrArg Prod.snd (Run.bind_ok hconnects)
    have hminds : Site.Minds files place ⟨d.files, some c⟩ :=
      ⟨hsettled.minds.tree, by rintro _ ⟨⟩; exact hleads'⟩
    have hprepared := (Migration.maintains_prepare (hsame ▸ hpoints) hleads' check
      ⟨⟨d.files, some c⟩, events⟩ hminds).1
    obtain ⟨events', hclosed⟩ := exists_closeDatabase
      (onSite (Migration.prepare check settings.database.url c) opened).2
    rw [hran, hclosed]
    refine hsettled.of_closed hsame rfl rfl hprepared.tree fun found holds => ?_
    have holds' : Site.Holds ⟨d.files, some c⟩ found home := by
      cases home with
      | file path makes => exact holds
      | memory | nowhere => exact hleads.elim
    obtain ⟨found', held, hsame'⟩ :=
      Migration.holds_prepare hminds hleads rfl holds' check settings.database.url events
    exact ⟨found', holds_closed hleads held, hsame'⟩

/-- A store that is settled before and after an incident keeps to its database in it, if it answers
from the contents. -/
theorem Settled.abides {m' : Memory} (hsettled : Settled n files place home url d m)
    (hsettled' : Settled n files place home url (i.after n d) m')
    (hanswers : ∀ clock a, i = .access clock a →
      (accessStore n a { d with clock }).1 = (Table.outcome clock a ⟨m, []⟩).1) :
    Abides n place d m i where
  answers := hanswers
  away p hother := (hsettled'.minds.tree.away p hother).trans
    (hsettled.minds.tree.away p hother).symm
  connected c hopen := (hsettled'.minds.connected c hopen).of_extends hsettled'.minds.tree.grows

/-- Every incident leaves the contents there, and the store keeps to its database in it. -/
theorem Settled.after (hsettled : Settled n files place home url d m)
    (hleads : home.LeadsTo files place) (hpoints : Points files place url) (hkeeps : i.Keeps url) :
    Settled n files place home url (i.after n d) (i.leaves m) ∧ Abides n place d m i := by
  cases i with
  | access clock a =>
    obtain ⟨hanswer, hsettled'⟩ := hsettled.access hleads hpoints clock a
    refine ⟨hsettled', hsettled.abides hsettled' ?_⟩
    rintro _ _ ⟨⟩
    exact hanswer
  | close =>
    have hsettled' := hsettled.closeDatabase hleads
    exact ⟨hsettled', hsettled.abides hsettled' (by simp)⟩
  | stop =>
    have hsettled' : Settled n files place home url (Service.stop d).2 m := by
      have hlogged {d' : Deployment} (hsettled : Settled n files place home url d' m) :
          Settled n files place home url (d'.log .serviceStopped) m :=
        ⟨hsettled.settings, hsettled.store, hsettled.minds⟩
      unfold Service.stop
      refine hlogged ?_
      split
      · exact hsettled.closeDatabase hleads
      · exact hsettled
    exact ⟨hsettled', hsettled.abides hsettled' (by simp)⟩
  | migrate check load =>
    have hsettled' := hsettled.migrate hleads hpoints check hkeeps
    exact ⟨hsettled', hsettled.abides hsettled' (by simp)⟩

/-- Through all incidents the contents are there. -/
theorem Settled.after_all (hsettled : Settled n files place home url d m)
    (hleads : home.LeadsTo files place) (hpoints : Points files place url) {past : List Incident}
    (hkeep : ∀ j ∈ past, j.Keeps url) :
    Settled n files place home url (past.foldl (Incident.after n) d)
      (past.foldl Incident.leaves m) := by
  induction past generalizing d m with
  | nil => exact hsettled
  | cons i rest ih =>
    obtain ⟨hfirst, hothers⟩ := List.forall_mem_cons.1 hkeep
    exact ih (hsettled.after hleads hpoints hfirst).1 hothers

/-! ## Three incidents -/

/-- An access that lists flows, and is answered, knows the tables to be there. -/
theorem flowsReady_of_listFlows {now : String} {address configured tenant : Value}
    {t : Traced Table.State} {names : List String}
    (hlisted : (Table.access now address configured (.listFlows tenant) t).1 = .ok names) :
    (Table.access now address configured (.listFlows tenant) t).2.state.flowsReady = true := by
  rcases hran : Table.access now address configured (.listFlows tenant) t with ⟨r, t'⟩
  rw [hran] at hlisted
  obtain rfl : r = .ok names := hlisted
  obtain ⟨_, t₁, hreadied, hrest⟩ := Run.exists_of_bind hran
  obtain ⟨found, t₂, hlooked, hrest⟩ := Run.exists_of_bind hrest
  cases hrest
  have hready : t₁.state.flowsReady = true := by
    unfold Table.readyFlows at hreadied
    rw [Run.read_bind] at hreadied
    split at hreadied
    · obtain ⟨_, _, -, hset⟩ := Run.exists_of_bind hreadied
      cases hset
      rfl
    · rename_i hknown
      cases hreadied
      simpa using hknown
  have hkept : t'.state.flowsReady = t₁.state.flowsReady := by
    rw [Table.onSite, Run.zoom_apply] at hlooked
    exact (congrArg (·.2.state.flowsReady) hlooked).symm
  exact hkept.trans hready

/-- A list of flows, asked for where the connection is closed and the tables are known to be there,
comes from the address in the settings. -/
theorem isAddressOf_of_listFlows {now : String} {address configured tenant : Value}
    {t : Traced Table.State} {names : List String} (hclosed : t.state.site.connection = none)
    (hready : t.state.flowsReady = true)
    (hlisted : (Table.access now address configured (.listFlows tenant) t).1 = .ok names) :
    ∃ c tables, IsAddressOf configured c.location ∧
      (Table.access now address configured (.listFlows tenant) t).2.state.site.connection =
        some c ∧
      (Table.access now address configured (.listFlows tenant) t).2.state.site.Holds (some tables)
        c.location := by
  rcases hran : Table.access now address configured (.listFlows tenant) t with ⟨r, t'⟩
  rw [hran] at hlisted
  obtain rfl : r = .ok names := hlisted
  obtain ⟨_, t₁, hreadied, hrest⟩ := Run.exists_of_bind hran
  obtain ⟨⟨c, tables⟩, t₂, hlooked, hrest⟩ := Run.exists_of_bind hrest
  cases hrest
  have hsame : t₁ = t := by
    unfold Table.readyFlows at hreadied
    rw [Run.read_bind, hready] at hreadied
    cases hreadied
    rfl
  subst hsame
  rw [Table.onSite, Run.zoom_apply] at hlooked
  obtain ⟨hfound, rfl⟩ := Prod.mk.inj hlooked
  rcases hsite : current configured ⟨t₁.state.site, t₁.events⟩ with ⟨r, t₂⟩
  rw [hsite] at hfound
  obtain rfl : r = .ok (c, tables) := hfound
  obtain ⟨-, hserves, -⟩ := of_current hsite
  obtain ⟨c', t₃, hconnected, hrest⟩ := Run.exists_of_bind hsite
  obtain ⟨found, t₄, hsearched, hrest⟩ := Run.exists_of_bind hrest
  cases found with
  | none => cases hrest
  | some tables' =>
    cases hrest
    obtain ⟨hopened, -⟩ := of_connect hconnected
    obtain ⟨-, hstill, -⟩ := of_tables? hsearched
    exact ⟨c, tables, isAddressOf_of_connect hclosed hconnected, hstill.trans hopened,
      hserves.holds⟩

/-- A store that has listed flows knows the tables to be there.  If it did so before and the
connection was closed, they come from the address in the settings. -/
theorem of_listFlows {address : Value} {flowsReady conversationsReady : Bool} {names : List String}
    (hthere : d.stores[n]? = some (.table address flowsReady conversationsReady))
    (hlisted : (accessStore n (.listFlows .null) d).1 = .ok names) :
    let d' := (accessStore n (.listFlows .null) d).2
    d'.settings = d.settings ∧
      (∃ conversationsReady', d'.stores[n]? = some (.table address true conversationsReady')) ∧
      (flowsReady = true → d.connection = none → ∃ c tables,
        IsAddressOf d.settings.database.url c.location ∧ d'.connection = some c ∧
          Site.Holds ⟨d'.files, d'.connection⟩ (some tables) c.location) := by
  rcases hlooked : Table.access d.clock (d.addressOr address) d.settings.database.url
    (.listFlows .null) ⟨⟨⟨d.files, d.connection⟩, flowsReady, conversationsReady⟩, d.events⟩
    with ⟨r, t⟩
  have hran : accessStore n (.listFlows .null) d =
      (r, { d.setStore n (.table address t.state.flowsReady t.state.conversationsReady) with
        files := t.state.site.files, connection := t.state.site.connection,
        events := t.events }) := by
    rw [accessStore, Storage.store_eq hthere]
    dsimp only
    rw [onTable, Run.zoom_apply, hlooked]
  rw [hran] at hlisted ⊢
  have hready := flowsReady_of_listFlows (congrArg Prod.fst hlooked |>.trans hlisted)
  have hfound := fun hclosed hknown =>
    isAddressOf_of_listFlows hclosed hknown (congrArg Prod.fst hlooked |>.trans hlisted)
  rw [hlooked] at hready hfound
  refine ⟨rfl, ⟨t.state.conversationsReady, ?_⟩, fun hknown hclosed => hfound hclosed hknown⟩
  rw [← hready]
  exact Storage.getElem?_setStore hthere

/-- Flows are listed, the connection is closed and flows are listed again: a store that keeps to its
database in this has settings with an address of the same file. -/
theorem points_of_abides {address : Value} {flowsReady conversationsReady : Bool}
    (hthere : d.stores[n]? = some (.table address flowsReady conversationsReady))
    (habides : ∀ (past : List Incident) (i : Incident),
      (∀ j ∈ i :: past, j.Keeps d.settings.database.url) →
        Abides n place (past.foldl (Incident.after n) d) (past.foldl Incident.leaves m) i) :
    Points d.files place d.settings.database.url := by
  let list : Incident := .access d.clock (.listFlows .null)
  have hfirst : Abides n place d m list := habides [] list (by simp [list, Incident.Keeps])
  have hclosing : Abides n place (list.after n d) (list.leaves m) .close :=
    habides [list] .close (by simp [list, Incident.Keeps])
  have hagain : Abides n place (Incident.close.after n (list.after n d)) (list.leaves m) list :=
    habides [list, .close] list (by simp [list, Incident.Keeps])
  have hlists : (list.after n d).settings = d.settings ∧ ∃ conversationsReady',
      (list.after n d).stores[n]? = some (.table address true conversationsReady') := by
    obtain ⟨hsettings, hready, -⟩ := of_listFlows hthere (hfirst.answers _ _ rfl)
    exact ⟨hsettings, hready⟩
  have haway := hfirst.away
  generalize list.after n d = d₁ at hclosing hagain hlists haway
  obtain ⟨hsettings, conversationsReady', hready⟩ := hlists
  obtain ⟨events, hclosed⟩ := exists_closeDatabase d₁
  have hcloses : Incident.close.after n d₁ = { d₁ with connection := none, events } :=
    congrArg Prod.snd hclosed
  rw [hcloses] at hagain
  let d₂ : Deployment := { d₁ with connection := none, events, clock := d.clock }
  have hthere₂ : d₂.stores[n]? = some (.table address true conversationsReady') := hready
  obtain ⟨-, -, hfound⟩ := of_listFlows hthere₂ (hagain.answers _ _ rfl)
  obtain ⟨c, tables, hknown, hopen, holds⟩ := hfound rfl rfl
  have hleads := hagain.connected c hopen
  -- away from the place nothing was changed, and there lies a file
  refine ⟨c.location, hsettings ▸ hknown, hleads.of_extends fun p hdirectory => ?_⟩
  have hother : p ≠ place := by
    rintro rfl
    exact free_of_holds holds hleads hdirectory
  rw [← haway p hother]
  exact (hagain.away p hother).symm.trans hdirectory

/-- A store whose database lies in a file keeps to it through all incidents exactly if the address
in the settings is one of the same file. -/
theorem abides_iff_points (hshows : (Storage.table (.file path makes)).Shows n d m)
    (hleads : d.files.place path = .ok place) :
    (∀ (past : List Incident) (i : Incident),
      (∀ j ∈ i :: past, j.Keeps d.settings.database.url) →
        Abides n place (past.foldl (Incident.after n) d) (past.foldl Incident.leaves m) i) ↔
      Points d.files place d.settings.database.url := by
  have hleads : (Location.file path makes).LeadsTo d.files place := hleads
  constructor
  · obtain ⟨address, f, c, hthere, -⟩ := hshows
    exact points_of_abides hthere
  · intro hpoints past i hkeep
    obtain ⟨hlast, hbefore⟩ := List.forall_mem_cons.1 hkeep
    have hsettled := (settled_of_shows hshows hleads).after_all hleads hpoints hbefore
    exact (hsettled.after hleads hpoints hlast).2

/-! ### Two addresses -/

/-- A deployment with a flow in a database in a file, and with an address in its settings that need
not be the one that the store was made with. -/
def readdressed (url : String) : Deployment :=
  { clock := "t0"
    settings := { Settings.shipped with database := { url := .str url } }
    files := [(["flows.db"], .file (.database
      { flows := [(("acme", "f"), { document := .dict [("name", .str "f")] })] }))]
    stores := [.table (.str "sqlite:///flows.db") false false] }

theorem shows_readdressed (url : String) :
    (Storage.table (.file ⟨"", ["flows.db"]⟩ true)).Shows 0 (readdressed url)
      { flows := [(("acme", "f"), .dict [("name", .str "f")])] } := by
  have hknown : IsAddressOf (.str "sqlite:///flows.db") (.file ⟨"", ["flows.db"]⟩ true) :=
    isAddressOf_of_location (by decide +kernel)
  have hserves : Site.Serves (.file ⟨"", ["flows.db"]⟩ true)
      ⟨(readdressed url).files, (readdressed url).connection⟩ (some _) :=
    { connected := fun _ hopen => nomatch hopen
      holds := ⟨["flows.db"], rfl, rfl⟩ }
  exact ⟨_, false, false, rfl, hknown, _, hserves, rfl, by simp⟩

/-- The settings may have an address of the same file that does not make it where it is missing. -/
theorem abides_iff_points_readdressed :
    let d := readdressed "sqlite:///file:flows.db?mode=rw&uri=true"
    let m : Memory := { flows := [(("acme", "f"), .dict [("name", .str "f")])] }
    (Storage.table (.file ⟨"", ["flows.db"]⟩ true)).Shows 0 d m ∧
      d.files.place ⟨"", ["flows.db"]⟩ = .ok ["flows.db"] ∧
      ∀ (past : List Incident) (i : Incident),
        (∀ j ∈ i :: past, j.Keeps d.settings.database.url) →
          Abides 0 ["flows.db"] (past.foldl (Incident.after 0) d) (past.foldl Incident.leaves m)
            i := by
  have hpoints : Points (readdressed "sqlite:///file:flows.db?mode=rw&uri=true").files ["flows.db"]
      (.str "sqlite:///file:flows.db?mode=rw&uri=true") :=
    ⟨.file ⟨"", ["flows.db"]⟩ false, isAddressOf_of_location (by decide +kernel), rfl⟩
  exact ⟨shows_readdressed _, rfl, (abides_iff_points (shows_readdressed _) rfl).2 hpoints⟩

/-- A store does not always keep to its database: with the address of another file in the settings
it is led astray when the connection was closed. -/
theorem not_abides :
    ¬ ∀ (n : Nat) (d : Deployment) (m : Memory) (path : Path) (makes : Bool) (place : Place),
      (Storage.table (.file path makes)).Shows n d m → d.files.place path = .ok place →
        ∀ (past : List Incident) (i : Incident),
          (∀ j ∈ i :: past, j.Keeps d.settings.database.url) →
            Abides n place (past.foldl (Incident.after n) d) (past.foldl Incident.leaves m) i := by
  intro halways
  have habides := halways 0 (readdressed "sqlite:///./other.db") _ ⟨"", ["flows.db"]⟩ true
    ["flows.db"] (shows_readdressed _) rfl
  obtain ⟨location, ⟨shown, hknown⟩, hleads⟩ := points_of_abides (d := readdressed _) rfl habides
  have hother : (Connection.ofAddress (.str "sqlite:///./other.db")).toOption.map (·.location) =
      some (.file ⟨"", ["other.db"]⟩ true) := by decide +kernel
  have hknown : Connection.ofAddress (.str "sqlite:///./other.db") = .ok { shown, location } :=
    hknown
  rw [hknown] at hother
  obtain rfl : location = .file ⟨"", ["other.db"]⟩ true := Option.some.inj hother
  have helsewhere : (readdressed "sqlite:///./other.db").files.place ⟨"", ["other.db"]⟩ =
      .ok ["other.db"] := rfl
  have hsame := Except.ok.inj (helsewhere.symm.trans hleads)
  simp at hsame

end Deployment

end Dialogue

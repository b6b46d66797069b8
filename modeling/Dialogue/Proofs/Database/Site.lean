import Dialogue.Database.Connection
import Dialogue.Proofs.Files.Tree
import Dialogue.Proofs.Run

/-!
# A database behind its connection

A site *serves* tables at a location if these are what a connection to the location finds, whether
it is open or is still to be opened (`Site.Serves`).  Tables that were made are found as they were
stored last, by the connection that is open and, where they lie in a file, by every later one.
-/

namespace Dialogue.Database

/-- The tables at a location, none where they were not made. -/
def Site.Holds (site : Site) (tables : Option Tables) : Location → Prop
  | .memory => site.connection.bind (·.tables) = tables
  | .file path makes => ∃ place, site.files.place path = .ok place ∧
    match tables with
    | none => makes = true ∧ site.files.node? place = none ∨
        site.files.node? place = some (.file (.text ""))
    | some tables => site.files.node? place = some (.file (.database tables))
  | .nowhere => False

/-- The tables are what a connection to the location finds, and no other connection is open. -/
structure Site.Serves (location : Location) (site : Site) (tables : Option Tables) : Prop where
  connected : ∀ c, site.connection = some c → c.location = location
  holds : site.Holds tables location

variable {location : Location} {site : Site} {tables : Tables} {found : Option Tables}
  {connection : Connection} {address : Value}

theorem Site.Serves.unique {found' : Option Tables} (hserves : site.Serves location found)
    (hserves' : site.Serves location found') : found = found' := by
  have holds := hserves.holds
  have holds' := hserves'.holds
  cases location with
  | memory => exact holds.symm.trans holds'
  | nowhere => exact holds.elim
  | file path makes =>
    obtain ⟨place, hleads, hlies⟩ := holds
    obtain ⟨place', hleads', hlies'⟩ := holds'
    obtain rfl : place = place' := Except.ok.inj (hleads.symm.trans hleads')
    cases found <;> cases found' <;> simp_all

/-- An address is that of a location. -/
def IsAddressOf (address : Value) (location : Location) : Prop :=
  ∃ shown, Connection.ofAddress address = .ok { shown, location }

/-- A connection that is made has no tables of its own. -/
theorem tables_of_ofAddress (hmade : Connection.ofAddress address = .ok connection) :
    connection.tables = none := by
  unfold Connection.ofAddress at hmade
  split at hmade
  · rename_i s
    cases hparsed : Address.parse (driverAddress s) with
    | error fault =>
      rw [hparsed] at hmade
      cases hmade
    | ok a =>
      rw [hparsed] at hmade
      cases hpoints : a.location? with
      | error fault =>
        simp only [bind, Except.bind, hpoints] at hmade
        cases hmade
      | ok l =>
        simp only [bind, Except.bind, hpoints] at hmade
        cases hmade
        rfl
  · cases hmade

theorem isAddressOf_of_location
    (hknown : (Connection.ofAddress address).toOption.map (·.location) = some location) :
    IsAddressOf address location := by
  cases hmade : Connection.ofAddress address with
  | error fault => simp [hmade, Except.toOption] at hknown
  | ok c =>
    obtain ⟨shown, l, tables⟩ := c
    obtain rfl : tables = none := tables_of_ofAddress hmade
    obtain rfl : l = location := by simpa [hmade, Except.toOption] using hknown
    exact ⟨shown, hmade⟩

/-- A connection is opened, or is open already. -/
theorem connect_spec (hknown : site.connection = none → IsAddressOf address location)
    (hserves : site.Serves location found) (events : List Event) :
    ∃ c site' events', connect address ⟨site, events⟩ = (.ok c, ⟨site', events'⟩) ∧
      site'.Serves location found ∧ site'.connection.isSome = true ∧ c.location = location := by
  cases hopen : site.connection with
  | some c =>
    refine ⟨c, site, events, ?_, hserves, by simp [hopen], hserves.connected c hopen⟩
    simp only [connect, Run.read_bind, hopen]
    rfl
  | none =>
    obtain ⟨shown, hknown⟩ := hknown hopen
    refine ⟨{ shown, location }, { site with connection := some { shown, location } },
      .connectionOpened "sqlite" shown :: events, ?_, ⟨?_, ?_⟩, rfl, rfl⟩
    · simp only [connect, Run.read_bind, hopen, hknown]
      rfl
    · rintro c ⟨⟩
      rfl
    · have holds := hserves.holds
      cases location with
      | memory =>
        simp only [Site.Holds, hopen, Option.bind_none] at holds
        subst holds
        rfl
      | file path makes => exact holds
      | nowhere => exact holds

theorem fileTables_of_nothing {files : Files} {path : Path} {place : Place}
    (hleads : files.place path = .ok place) (hnothing : files.node? place = none) :
    fileTables path true files = (.ok none, files.set place (.file (.text ""))) := by
  have hfree : files.node? place ≠ some .directory := by simp [hnothing]
  have hmade : Files.apply (fun files => files.write path (.text "")) files =
      (.ok (), files.set place (.file (.text ""))) := by
    simp [Files.apply, Files.write_of_place hleads hfree]
  rw [fileTables, Run.bind_ok (Run.get_apply _)]
  simp only [hleads, hnothing]
  exact Run.bind_ok hmade

/-- What a connection finds are the tables that are served. -/
theorem tables?_spec (hserves : site.Serves location found)
    (hpoints : connection.location = location) (events : List Event) :
    ∃ site', tables? connection ⟨site, events⟩ = (.ok found, ⟨site', events⟩) ∧
      site'.Serves location found ∧ site'.connection = site.connection ∧
      (found.isSome = true → site' = site) := by
  have holds := hserves.holds
  cases location with
  | nowhere => exact holds.elim
  | memory =>
    refine ⟨site, ?_, hserves, rfl, fun _ => rfl⟩
    simp only [tables?, hpoints, Run.read_bind, Run.pure_apply]
    rw [show site.connection.bind (·.tables) = found from holds]
  | file path makes =>
    obtain ⟨place, hleads, hlies⟩ := holds
    simp only [tables?, hpoints, onFiles, Run.silently_apply, Run.zoom_apply]
    cases found with
    | some tables =>
      refine ⟨site, ?_, hserves, rfl, fun _ => rfl⟩
      rw [fileTables, Run.bind_ok (Run.get_apply _)]
      simp only [hleads, hlies, Run.pure_apply]
    | none =>
      rcases hlies with ⟨rfl, hnothing⟩ | hempty
      · have hfree : site.files.node? place ≠ some .directory := by simp [hnothing]
        exact ⟨{ site with files := site.files.set place (.file (.text "")) },
          by rw [fileTables_of_nothing hleads hnothing],
          ⟨hserves.connected, place, (Files.extends_set hfree _).place hleads,
            .inr (Files.node?_set_self hfree _)⟩, rfl, by simp⟩
      · refine ⟨site, ?_, hserves, rfl, by simp⟩
        rw [fileTables, Run.bind_ok (Run.get_apply _)]
        simp [hleads, hempty]

/-- Tables that are stored are served. -/
theorem store_spec (hserves : site.Serves location found) (hpoints : connection.location = location)
    (hopen : site.connection.isSome = true) (tables : Tables) (events : List Event) :
    ∃ site', store connection tables ⟨site, events⟩ = (.ok (), ⟨site', events⟩) ∧
      site'.Serves location (some tables) ∧ site'.connection.isSome = true := by
  obtain ⟨c, hopened⟩ := Option.isSome_iff_exists.1 hopen
  have holds := hserves.holds
  cases location with
  | nowhere => exact holds.elim
  | memory =>
    refine ⟨{ site with connection := some { c with tables := some tables } }, ?_, ⟨?_, rfl⟩, rfl⟩
    · simp [store, hpoints, hopened]
    · rintro d ⟨⟩
      exact hserves.connected c hopened
  | file path makes =>
    obtain ⟨place, hleads, hlies⟩ := holds
    have hfree : site.files.node? place ≠ some .directory := by
      cases found with
      | some tables => simp [show site.files.node? place = _ from hlies]
      | none => rcases hlies with ⟨-, hnothing⟩ | hempty <;> simp [*]
    refine ⟨{ site with files := site.files.set place (.file (.database tables)) }, ?_,
      ⟨hserves.connected, place, (Files.extends_set hfree _).place hleads,
        Files.node?_set_self hfree _⟩, hopen⟩
    simp [store, hpoints, onFiles, Run.silently_apply, Run.zoom_apply, Files.apply,
      Files.write_of_place hleads hfree]

/-- Once the tables are made there are tables: those that were there, or empty ones. -/
theorem createTables_spec (hknown : site.connection = none → IsAddressOf address location)
    (hserves : site.Serves location found) (events : List Event) :
    ∃ site' events', createTables address ⟨site, events⟩ = (.ok (), ⟨site', events'⟩) ∧
      site'.Serves location (some (found.getD {})) ∧ site'.connection.isSome = true := by
  obtain ⟨c, site₁, events₁, hconnected, hserves₁, hopen₁, hpoints⟩ :=
    connect_spec hknown hserves events
  obtain ⟨site₂, hlooked, hserves₂, hsame, -⟩ := tables?_spec hserves₁ hpoints events₁
  have hopen₂ : site₂.connection.isSome = true := by rw [hsame, hopen₁]
  unfold createTables
  rw [Run.bind_ok hconnected, Run.bind_ok hlooked]
  cases found with
  | some tables => exact ⟨site₂, _, rfl, hserves₂, hopen₂⟩
  | none =>
    obtain ⟨site₃, hstored, hserves₃, hopen₃⟩ :=
      store_spec hserves₂ hpoints hopen₂ {} events₁
    exact ⟨site₃, _, Run.bind_ok hstored, hserves₃, hopen₃⟩

/-- The tables behind the connection that is open, or that is opened. -/
theorem current_spec (hknown : site.connection = none → IsAddressOf address location)
    (hserves : site.Serves location (some tables)) (events : List Event) :
    ∃ c site' events', c.location = location ∧
      current address ⟨site, events⟩ = (.ok (c, tables), ⟨site', events'⟩) ∧
      site'.Serves location (some tables) ∧ site'.connection.isSome = true := by
  obtain ⟨c, site₁, events₁, hconnected, hserves₁, hopen₁, hpoints⟩ :=
    connect_spec hknown hserves events
  obtain ⟨site₂, hlooked, -, -, hsame⟩ := tables?_spec hserves₁ hpoints events₁
  obtain rfl := hsame rfl
  refine ⟨c, site₂, events₁, hpoints, ?_, hserves₁, hopen₁⟩
  unfold current
  rw [Run.bind_ok hconnected, Run.bind_ok hlooked]
  rfl

theorem Site.Serves.disconnected {path : Path} {makes : Bool}
    (hserves : site.Serves (.file path makes) found) :
    Site.Serves (.file path makes) { site with connection := none } found :=
  ⟨by simp, hserves.holds⟩

/-! ## What is logged -/

/-- What opening a connection logs; nothing where one is open. -/
def opening (address : Value) (isOpen : Bool) : List Event :=
  if isOpen then []
  else (Connection.ofAddress address).toOption.toList.map fun c =>
    .connectionOpened "sqlite" c.shown

theorem events_connect (address : Value) (t : Traced Site) :
    (connect address t).2.events = opening address t.state.connection.isSome ++ t.events := by
  unfold connect
  rw [Run.read_bind]
  cases t.state.connection with
  | some c => rfl
  | none =>
    dsimp only
    cases hmade : Connection.ofAddress address with
    | error fault =>
      rw [Run.bind_error (Run.ofExcept_error _ _ _)]
      simp [opening, hmade, Except.toOption]
    | ok c =>
      rw [Run.bind_ok (Run.ofExcept_ok _ _ _)]
      simp [opening, hmade, Except.toOption, Traced.log]

theorem events_tables? (connection : Connection) (t : Traced Site) :
    (tables? connection t).2.events = t.events := by
  unfold tables?
  cases connection.location <;> rfl

theorem events_store (connection : Connection) (tables : Tables) (t : Traced Site) :
    (store connection tables t).2.events = t.events := by
  unfold store
  cases connection.location <;> rfl

theorem events_of_current {t t' : Traced Site} {r : Connection × Tables}
    (hlooked : current address t = (.ok r, t')) :
    t'.events = opening address t.state.connection.isSome ++ t.events := by
  obtain ⟨c, t₁, hconnected, hrest⟩ := Run.exists_of_bind hlooked
  obtain ⟨found, t₂, hsearched, hrest⟩ := Run.exists_of_bind hrest
  have hopened := events_connect address t
  have hsame := events_tables? c t₁
  rw [hconnected] at hopened
  rw [hsearched] at hsame
  cases found with
  | none => cases hrest
  | some tables =>
    cases hrest
    exact hsame.trans hopened

theorem events_of_createTables {t t' : Traced Site}
    (hmade : createTables address t = (.ok (), t')) :
    t'.events = .schemaReady "sqlite" Tables.names ::
      (opening address t.state.connection.isSome ++ t.events) := by
  obtain ⟨c, t₁, hconnected, hrest⟩ := Run.exists_of_bind hmade
  obtain ⟨found, t₂, hsearched, hstores⟩ := Run.exists_of_bind hrest
  clear hrest
  have hopened := events_connect address t
  have hsame := events_tables? c t₁
  rw [hconnected] at hopened
  rw [hsearched] at hsame
  cases found with
  | none =>
    obtain ⟨_, t₃, hstored, hrest⟩ := Run.exists_of_bind hstores
    have hkept := events_store c {} t₂
    rw [hstored] at hkept
    cases hrest
    exact congrArg (List.cons _) (hkept.trans (hsame.trans hopened))
  | some tables =>
    cases hstores
    exact congrArg (List.cons _) (hsame.trans hopened)

/-! ## What lies at a site -/

/-- The tables that lie at a location, if there are any. -/
def Site.tablesAt (site : Site) : Location → Option Tables
  | .memory => site.connection.bind (·.tables)
  | .file path _ =>
    match site.files.content? path with
    | .ok (some (.database tables)) => some tables
    | _ => none
  | .nowhere => none

/-- The location that the connection to an address leads to: that of the connection that is open, if
one is. -/
def Site.location? (address : Value) (site : Site) : Option Location :=
  match site.connection with
  | some connection => some connection.location
  | none => (Connection.ofAddress address).toOption.map (·.location)

/-- The tables that lie where the connection to an address leads. -/
def Site.stored (address : Value) (site : Site) : Option Tables :=
  (site.location? address).bind site.tablesAt

theorem holds_iff : site.Holds (some tables) location ↔ site.tablesAt location = some tables := by
  cases location with
  | memory => rfl
  | nowhere => simp [Site.Holds, Site.tablesAt]
  | file path makes =>
    simp only [Site.Holds, Site.tablesAt, Files.content?, Files.find?]
    constructor
    · rintro ⟨place, hleads, hlies⟩
      simp [hleads, hlies]
    · intro hfound
      cases hleads : site.files.place path with
      | error fault => cases fault <;> simp [hleads] at hfound
      | ok place =>
        refine ⟨place, rfl, ?_⟩
        simp only [hleads] at hfound
        cases hlies : site.files.node? place with
        | none => simp [hlies] at hfound
        | some node =>
          cases node with
          | directory => simp [hlies] at hfound
          | file content => cases content <;> simp [hlies] at hfound ⊢; exact hfound

/-- Tables that are served through a connection that is open are what is stored. -/
theorem Site.Serves.stored_eq (hserves : site.Serves location (some tables))
    (hopen : site.connection.isSome = true) (address : Value) :
    site.stored address = some tables := by
  obtain ⟨c, hopened⟩ := Option.isSome_iff_exists.1 hopen
  rw [Site.stored, Site.location?, hopened]
  exact holds_iff.1 (hserves.connected c hopened ▸ hserves.holds)

theorem of_connect {t t' : Traced Site} (hopened : connect address t = (.ok connection, t')) :
    t'.state.connection = some connection ∧
      t'.state.tablesAt connection.location = t.state.stored address := by
  obtain ⟨⟨files, open_⟩, events⟩ := t
  unfold connect at hopened
  rw [Run.read_bind] at hopened
  cases open_ with
  | some c =>
    cases hopened
    exact ⟨rfl, rfl⟩
  | none =>
    obtain ⟨c, t₁, hmade, hrest⟩ := Run.exists_of_bind hopened
    cases hknown : Connection.ofAddress address with
    | error fault =>
      rw [hknown] at hmade
      cases hmade
    | ok c' =>
      rw [hknown] at hmade
      cases hmade
      cases hrest
      refine ⟨rfl, ?_⟩
      have hfresh := tables_of_ofAddress hknown
      simp only [Site.stored, Site.location?, hknown, Except.toOption, Option.map_some,
        Option.bind_some]
      cases connection.location <;> simp [Site.tablesAt, Traced.log, hfresh]

/-- What a connection finds is what lies where it leads; nothing changes where tables are found. -/
theorem of_fileTables {files files' : Files} {path : Path} {makes : Bool} {found : Option Tables}
    (hlooked : fileTables path makes files = (.ok found, files')) :
    found = Site.tablesAt ⟨files, none⟩ (.file path makes) ∧
      (found.isSome = true → files' = files) := by
  unfold fileTables at hlooked
  rw [Run.bind_ok (Run.get_apply files)] at hlooked
  cases hleads : files.place path with
  | error fault =>
    rw [hleads] at hlooked
    cases fault <;> cases hlooked
  | ok place =>
    rw [hleads] at hlooked
    simp only [Site.tablesAt, Files.content?, Files.find?, hleads]
    cases hlies : files.node? place with
    | none =>
      simp only [hlies] at hlooked
      cases makes with
      | true =>
        obtain ⟨_, _, -, hrest⟩ := Run.exists_of_bind hlooked
        cases hrest
        exact ⟨rfl, by simp⟩
      | false => cases hlooked
    | some node =>
      simp only [hlies] at hlooked
      cases node with
      | directory => cases hlooked
      | file content =>
        cases content with
        | database tables =>
          cases hlooked
          exact ⟨rfl, fun _ => rfl⟩
        | binary bytes => cases hlooked
        | text s =>
          cases hempty : s.isEmpty with
          | true =>
            simp only [hempty] at hlooked
            cases hlooked
            exact ⟨rfl, by simp⟩
          | false =>
            simp only [hempty] at hlooked
            cases hlooked

/-- What a connection finds is what lies where it leads; nothing changes where tables are found. -/
theorem of_tables? {t t' : Traced Site} (hlooked : tables? connection t = (.ok found, t')) :
    found = t.state.tablesAt connection.location ∧ t'.state.connection = t.state.connection ∧
      (found.isSome = true → t' = t) := by
  unfold tables? at hlooked
  cases hpoints : connection.location with
  | memory =>
    rw [hpoints] at hlooked
    obtain ⟨hsame, rfl⟩ := Prod.mk.inj hlooked
    exact ⟨(Except.ok.inj hsame).symm, rfl, fun _ => rfl⟩
  | file path makes =>
    obtain ⟨⟨files, open_⟩, events⟩ := t
    rw [hpoints] at hlooked
    simp only [onFiles, Run.silently_apply, Run.zoom_apply] at hlooked
    rcases hran : fileTables path makes files with ⟨r, files'⟩
    simp only [hran] at hlooked
    obtain ⟨rfl, rfl⟩ := Prod.mk.inj hlooked
    obtain ⟨hlies, hsame⟩ := of_fileTables hran
    refine ⟨hlies, rfl, fun hthere => ?_⟩
    rw [hsame hthere]
  | nowhere =>
    rw [hpoints] at hlooked
    cases hlooked

/-- Tables that were stored are served. -/
theorem serves_of_store {t t' : Traced Site}
    (hconnected : ∀ c, t.state.connection = some c → c.location = connection.location)
    (hopen : t.state.connection.isSome = true)
    (hdone : store connection tables t = (.ok (), t')) :
    t'.state.Serves connection.location (some tables) ∧ t'.state.connection.isSome = true := by
  obtain ⟨c, hopened⟩ := Option.isSome_iff_exists.1 hopen
  unfold store at hdone
  cases hpoints : connection.location with
  | memory =>
    rw [hpoints] at hdone hconnected
    cases hdone
    refine ⟨⟨?_, by simp [Site.Holds, hopened]⟩, by simp [hopened]⟩
    simp only [hopened, Option.map_some, Option.some.injEq]
    rintro _ rfl
    exact hconnected c hopened
  | file path makes =>
    obtain ⟨⟨files, open_⟩, events⟩ := t
    rw [hpoints] at hdone hconnected
    simp only [onFiles, Run.silently_apply, Run.zoom_apply, Files.apply] at hdone
    cases hwritten : files.write path (.database tables) with
    | error fault =>
      simp only [hwritten] at hdone
      cases hdone
    | ok files' =>
      simp only [hwritten] at hdone
      cases hdone
      refine ⟨⟨hconnected, holds_iff.2 ?_⟩, hopen⟩
      simp [Site.tablesAt, Files.content?_of_write hwritten]
  | nowhere =>
    rw [hpoints] at hdone
    cases hdone

/-- Tables that are found are what is stored, and are served from then on. -/
theorem of_current {t t' : Traced Site}
    (hlooked : current address t = (.ok (connection, tables), t')) :
    t.state.stored address = some tables ∧
      t'.state.Serves connection.location (some tables) ∧ t'.state.connection.isSome = true := by
  obtain ⟨c, t₁, hconnected, hrest⟩ := Run.exists_of_bind hlooked
  obtain ⟨hopened, hlies⟩ := of_connect hconnected
  obtain ⟨found, t₂, hsearched, hrest⟩ := Run.exists_of_bind hrest
  cases found with
  | none => cases hrest
  | some tables' =>
    cases hrest
    obtain ⟨hfound, -, hsame⟩ := of_tables? hsearched
    obtain rfl := hsame rfl
    refine ⟨(hfound.trans hlies).symm, ⟨fun other hopen => ?_, holds_iff.2 hfound.symm⟩,
      by simp [hopened]⟩
    rw [hopened] at hopen
    exact congrArg Connection.location (Option.some.inj hopen).symm

/-- Tables that were made are those that were stored, or empty ones, and are served. -/
theorem of_createTables {t t' : Traced Site}
    (hmade : createTables address t = (.ok (), t')) :
    ∃ location, t'.state.Serves location (some ((t.state.stored address).getD {})) ∧
      t'.state.connection.isSome = true := by
  obtain ⟨c, t₁, hconnected, hrest⟩ := Run.exists_of_bind hmade
  obtain ⟨hopened, hlies⟩ := of_connect hconnected
  obtain ⟨found, t₂, hsearched, hstores⟩ := Run.exists_of_bind hrest
  clear hrest
  obtain ⟨hsame, hopen, hunchanged⟩ := of_tables? hsearched
  have hpoints : ∀ other, t₂.state.connection = some other → other.location = c.location := by
    intro other hthere
    rw [hopen, hopened] at hthere
    exact congrArg Connection.location (Option.some.inj hthere).symm
  have hstill : t₂.state.connection.isSome = true := by simp [hopen, hopened]
  rw [← hlies, ← hsame]
  cases found with
  | none =>
    obtain ⟨_, t₃, hstored, hrest⟩ := Run.exists_of_bind hstores
    obtain ⟨hserves, hconnected⟩ := serves_of_store hpoints hstill hstored
    cases hrest
    exact ⟨c.location, hserves, hconnected⟩
  | some tables =>
    obtain rfl := hunchanged rfl
    cases hstores
    exact ⟨c.location, ⟨hpoints, holds_iff.2 hsame.symm⟩, hstill⟩

theorem connect_of_stored (hlies : site.stored address = some tables) (events : List Event) :
    ∃ c site' events', connect address ⟨site, events⟩ = (.ok c, ⟨site', events'⟩) ∧
      site'.Serves c.location (some tables) ∧ site'.connection.isSome = true := by
  have hopened : ∃ c site' events', connect address ⟨site, events⟩ = (.ok c, ⟨site', events'⟩) := by
    cases hopen : site.connection with
    | some c =>
      refine ⟨c, site, events, ?_⟩
      simp only [connect, Run.read_bind, hopen]
      rfl
    | none =>
      rw [Site.stored, Site.location?, hopen] at hlies
      obtain ⟨location, hknown, -⟩ := Option.bind_eq_some_iff.1 hlies
      obtain ⟨shown, hmade⟩ := isAddressOf_of_location hknown
      refine ⟨{ shown, location }, { site with connection := some { shown, location } },
        .connectionOpened "sqlite" shown :: events, ?_⟩
      simp only [connect, Run.read_bind, hopen, hmade]
      rfl
  obtain ⟨c, site', events', hconnected⟩ := hopened
  obtain ⟨hopen, hthere⟩ := of_connect hconnected
  have hopen : site'.connection = some c := hopen
  refine ⟨c, site', events', hconnected, ⟨fun other hsame => ?_, ?_⟩, by simp [hopen]⟩
  · rw [hopen] at hsame
    exact congrArg Connection.location (Option.some.inj hsame).symm
  · exact holds_iff.2 (hthere.trans hlies)

theorem current_of_stored (hlies : site.stored address = some tables) (events : List Event) :
    ∃ c t, current address ⟨site, events⟩ = (.ok (c, tables), t) := by
  obtain ⟨c, site', events', hconnected, hserves, -⟩ := connect_of_stored hlies events
  obtain ⟨site'', hlooked, -⟩ := tables?_spec hserves rfl events'
  unfold current
  rw [Run.bind_ok hconnected, Run.bind_ok hlooked]
  exact ⟨c, _, rfl⟩

theorem createTables_of_stored (hlies : site.stored address = some tables) (events : List Event) :
    ∃ t, createTables address ⟨site, events⟩ = (.ok (), t) := by
  obtain ⟨c, site', events', hconnected, hserves, -⟩ := connect_of_stored hlies events
  obtain ⟨site'', hlooked, -⟩ := tables?_spec hserves rfl events'
  unfold createTables
  rw [Run.bind_ok hconnected, Run.bind_ok hlooked]
  exact ⟨_, rfl⟩

end Dialogue.Database

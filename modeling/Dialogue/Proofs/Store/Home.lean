import Dialogue.Proofs.Store.Outcome

/-!
# Keeping to one place

A store in a database that lies in a file keeps to the place of the file: whatever an access does,
and whether it succeeds or fails, the tree of files stays as it is away from that place, and no
connection is opened that leads elsewhere (`Site.Minds`, `Table.minds_access`).  This takes no more
than addresses that lead there (`Points`).

As long as nothing but that place is minded, it does not matter which of the addresses opened the
connection: what the tables hold is found all the same, also by an access that finds the connection
closed (`Table.Stays.reaches`).
-/

namespace Dialogue

/-! ## Invariants of runs -/

namespace Run

variable {σ τ α β ε : Type} {I : σ → Prop} {Q : α → Prop}

/-- The run keeps an invariant whatever it ends in, and its result has a property. -/
def Maintains (I : σ → Prop) (m : Run σ α) (Q : α → Prop) : Prop :=
  ∀ s, I s → I (m s).2 ∧ ∀ a, (m s).1 = .ok a → Q a

theorem maintains_pure {a : α} (has : Q a) : Maintains I (Pure.pure a : Run σ α) Q :=
  fun _ hkept => ⟨hkept, by rintro _ ⟨⟩; exact has⟩

theorem maintains_fail (f : Failure) : Maintains I (Run.fail f : Run σ α) Q :=
  fun _ hkept => ⟨hkept, fun _ hdone => nomatch hdone⟩

theorem maintains_ofExcept {toFailure : ε → Failure} {r : Except ε α}
    (has : ∀ a, r = .ok a → Q a) : Maintains I (Run.ofExcept toFailure r : Run σ α) Q := by
  cases r with
  | ok a => exact maintains_pure (has a rfl)
  | error e => exact maintains_fail _

theorem Maintains.bind {R : β → Prop} {m : Run σ α} {k : α → Run σ β} (hfirst : Maintains I m Q)
    (hsecond : ∀ a, Q a → Maintains I (k a) R) : Maintains I (m >>= k) R := by
  intro s hkept
  obtain ⟨hafter, hresult⟩ := hfirst s hkept
  rcases hran : m s with ⟨f | a, t⟩
  · rw [bind_error hran]
    rw [hran] at hafter
    exact ⟨hafter, fun _ hdone => nomatch hdone⟩
  · rw [bind_ok hran]
    rw [hran] at hafter hresult
    exact hsecond a (hresult a rfl) t hafter

theorem Maintains.zoom {J : τ → Prop} {get : σ → τ} {put : τ → σ → σ} {m : Run τ α}
    (hpart : Maintains J m Q) (hin : ∀ s, I s → J (get s))
    (hout : ∀ s t, I s → J t → I (put t s)) : Maintains I (Run.zoom get put m) Q := fun s hkept =>
  ⟨hout s _ hkept (hpart _ (hin s hkept)).1, (hpart _ (hin s hkept)).2⟩

theorem Maintains.silently {m : Run σ α} (hpart : Maintains I m Q) :
    Maintains (fun t => I t.state) (Run.silently m) Q := fun t hkept => hpart t.state hkept

theorem maintains_note (e : Event) : Maintains (fun t => I t.state) (Run.note e) fun _ => True :=
  fun _ hkept => ⟨hkept, fun _ _ => trivial⟩

end Run

/-! ## Trees that differ at one place -/

namespace Files

variable {files files' : Files} {p : Place} {path : Path}

/-- Away from a place the trees are the same, and what was a directory still is one. -/
structure SameBut (place : Place) (files files' : Files) : Prop where
  away : ∀ p, p ≠ place → files'.node? p = files.node? p
  grows : Extends files files'

theorem SameBut.refl (place : Place) (files : Files) : SameBut place files files :=
  ⟨fun _ _ => rfl, .refl files⟩

theorem SameBut.set (hsame : SameBut p files files') (hfree : files'.node? p ≠ some .directory)
    (node : Node) : SameBut p files (files'.set p node) :=
  ⟨fun q hother => (node?_set_of_ne hother node).trans (hsame.away q hother),
    hsame.grows.trans (extends_set hfree node)⟩

end Files

namespace Database

open Run

variable {files : Files} {place : Place} {site : Site} {address : Value} {location other : Location}
  {connection : Connection} {tables : Tables} {found : Option Tables}

/-! ## Where connections lead -/

/-- A database at the location lies in the file at a place. -/
def Location.LeadsTo (files : Files) (place : Place) : Location → Prop
  | .file path _ => files.place path = .ok place
  | .memory | .nowhere => False

theorem Location.LeadsTo.of_extends {files' : Files} (hleads : location.LeadsTo files place)
    (hgrows : files.Extends files') : location.LeadsTo files' place := by
  cases location with
  | file path makes => exact hgrows.place hleads
  | memory | nowhere => exact hleads.elim

/-- An address is that of a database in the file at a place. -/
def Points (files : Files) (place : Place) (address : Value) : Prop :=
  ∃ location, IsAddressOf address location ∧ location.LeadsTo files place

/-- Files are touched at a place only, and what is open leads there. -/
structure Site.Minds (files : Files) (place : Place) (site : Site) : Prop where
  tree : files.SameBut place site.files
  connected : ∀ c, site.connection = some c → c.location.LeadsTo files place

theorem maintains_connect (hpoints : Points files place address) :
    Maintains (fun t : Traced Site => t.state.Minds files place) (connect address)
      fun c => c.location.LeadsTo files place := by
  intro t hminds
  unfold connect
  rw [Run.read_bind]
  cases hopen : t.state.connection with
  | some c =>
    refine ⟨hminds, ?_⟩
    rintro _ ⟨⟩
    exact hminds.connected c hopen
  | none =>
    obtain ⟨location, ⟨shown, hknown⟩, hleads⟩ := hpoints
    rw [hknown]
    refine ⟨⟨hminds.tree, ?_⟩, ?_⟩ <;> rintro _ ⟨⟩ <;> exact hleads

theorem maintains_fileTables {path : Path} (hleads : files.place path = .ok place) (makes : Bool) :
    Maintains (fun files' => files.SameBut place files') (fileTables path makes) fun _ => True := by
  intro files' hsame
  rw [fileTables, Run.bind_ok (Run.get_apply _)]
  simp only [hsame.grows.place hleads]
  cases hlies : files'.node? place with
  | none =>
    cases makes with
    | false => exact maintains_fail _ files' hsame
    | true =>
      have hfree : files'.node? place ≠ some .directory := by simp [hlies]
      have hmade : Files.apply (fun files => files.write path (.text "")) files' =
          (.ok (), files'.set place (.file (.text ""))) := by
        simp [Files.apply, Files.write_of_place (hsame.grows.place hleads) hfree]
      simp only [if_true, Run.bind_ok hmade]
      exact ⟨hsame.set hfree _, fun _ _ => trivial⟩
  | some node =>
    cases node with
    | directory => exact maintains_fail _ files' hsame
    | file content =>
      cases content with
      | database tables => exact ⟨hsame, fun _ _ => trivial⟩
      | binary bytes => exact maintains_fail _ files' hsame
      | text s =>
        dsimp only
        split
        · exact ⟨hsame, fun _ _ => trivial⟩
        · exact maintains_fail _ files' hsame

theorem maintains_onFiles {α : Type} {m : Run Files α}
    (hpart : Maintains (fun files' => files.SameBut place files') m fun _ => True) :
    Maintains (fun t : Traced Site => t.state.Minds files place) (onFiles m) fun _ => True :=
  (hpart.zoom (fun _ hminds => hminds.tree) fun _ _ hminds hsame =>
    ⟨hsame, hminds.connected⟩).silently

theorem maintains_tables? (hleads : connection.location.LeadsTo files place) :
    Maintains (fun t : Traced Site => t.state.Minds files place) (tables? connection)
      fun _ => True := by
  unfold tables?
  cases hpoints : connection.location with
  | file path makes =>
    rw [hpoints] at hleads
    exact maintains_onFiles (maintains_fileTables hleads makes)
  | memory | nowhere =>
    rw [hpoints] at hleads
    exact hleads.elim

theorem maintains_store (hleads : connection.location.LeadsTo files place) (tables : Tables) :
    Maintains (fun t : Traced Site => t.state.Minds files place) (store connection tables)
      fun _ => True := by
  unfold store
  cases hpoints : connection.location with
  | file path makes =>
    rw [hpoints] at hleads
    refine maintains_onFiles fun files' hsame => ⟨?_, fun _ _ => trivial⟩
    cases hwritten : files'.write path (.database tables) with
    | error fault => simpa only [Files.apply, hwritten] using hsame
    | ok files'' =>
      obtain ⟨p, hleads', hfree, rfl⟩ := Files.exists_of_write hwritten
      obtain rfl : place = p := Except.ok.inj ((hsame.grows.place hleads).symm.trans hleads')
      simpa only [Files.apply, hwritten] using hsame.set hfree _
  | memory | nowhere =>
    rw [hpoints] at hleads
    exact hleads.elim

theorem maintains_createTables (hpoints : Points files place address) :
    Maintains (fun t : Traced Site => t.state.Minds files place) (createTables address)
      fun _ => True := by
  refine (maintains_connect hpoints).bind fun c hleads =>
    (maintains_tables? hleads).bind fun found _ => ?_
  split
  · exact (maintains_store hleads {}).bind fun _ _ => maintains_note _
  · exact maintains_note _

theorem maintains_current (hpoints : Points files place address) :
    Maintains (fun t : Traced Site => t.state.Minds files place) (current address)
      fun found => found.1.location.LeadsTo files place := by
  refine (maintains_connect hpoints).bind fun c hleads =>
    (maintains_tables? hleads).bind fun found _ => ?_
  cases found with
  | some tables => exact maintains_pure hleads
  | none => exact maintains_fail _

/-! ## What is found there -/

/-- Tables that are there are found through every location that leads to the place. -/
theorem holds_of_leadsTo (holds : site.Holds (some tables) location)
    (hleads : location.LeadsTo site.files place) (hleads' : other.LeadsTo site.files place) :
    site.Holds (some tables) other := by
  cases location with
  | memory | nowhere => exact hleads.elim
  | file path makes =>
    cases other with
    | memory | nowhere => exact hleads'.elim
    | file path' makes' =>
      obtain ⟨p, hfound, hlies⟩ := holds
      obtain rfl : place = p := Except.ok.inj (hleads.symm.trans hfound)
      exact ⟨place, hleads', hlies⟩

theorem free_of_holds (holds : site.Holds found location)
    (hleads : location.LeadsTo site.files place) : site.files.node? place ≠ some .directory := by
  cases location with
  | memory | nowhere => exact hleads.elim
  | file path makes =>
    obtain ⟨p, hleads', hlies⟩ := holds
    obtain rfl : place = p := Except.ok.inj (hleads.symm.trans hleads')
    cases found with
    | some tables => simp [show site.files.node? place = _ from hlies]
    | none => rcases hlies with ⟨-, hnothing⟩ | hempty <;> simp [*]

/-- A connection to the place finds the tables that are there, or none can be made through it. -/
theorem tables?_of_holds (holds : site.Holds found location)
    (hleads : location.LeadsTo site.files place)
    (hleads' : connection.location.LeadsTo site.files place) (events : List Event) :
    (∃ f, tables? connection ⟨site, events⟩ = (.error f, ⟨site, events⟩)) ∨
      ∃ site', tables? connection ⟨site, events⟩ = (.ok found, ⟨site', events⟩) ∧
        site'.Holds found location := by
  cases hat : location with
  | memory | nowhere =>
    rw [hat] at hleads
    exact hleads.elim
  | file path makes =>
    cases hpoints : connection.location with
    | memory | nowhere =>
      rw [hpoints] at hleads'
      exact hleads'.elim
    | file path' makes' =>
      rw [hpoints] at hleads'
      rw [hat] at hleads holds
      obtain ⟨p, hfound, hlies⟩ := holds
      obtain rfl : place = p := Except.ok.inj (hleads.symm.trans hfound)
      simp only [tables?, hpoints, onFiles, Run.silently_apply, Run.zoom_apply]
      rw [fileTables, Run.bind_ok (Run.get_apply _)]
      simp only [show site.files.place path' = .ok place from hleads']
      cases found with
      | some tables =>
        simp only [hlies]
        exact .inr ⟨site, rfl, place, hleads, hlies⟩
      | none =>
        rcases hlies with ⟨rfl, hnothing⟩ | hempty
        · simp only [hnothing]
          cases makes' with
          | false => exact .inl ⟨_, rfl⟩
          | true =>
            have hfree : site.files.node? place ≠ some .directory := by simp [hnothing]
            have hmade : Files.apply (fun files => files.write path' (.text "")) site.files =
                (.ok (), site.files.set place (.file (.text ""))) := by
              simp [Files.apply, Files.write_of_place hleads' hfree]
            simp only [if_true, Run.bind_ok hmade]
            exact .inr ⟨_, rfl, place, (Files.extends_set hfree _).place hleads,
              .inr (Files.node?_set_self hfree _)⟩
        · simp only [hempty]
          exact .inr ⟨site, rfl, place, hleads, .inr hempty⟩

/-- Tables that are stored through a connection to the place are found there. -/
theorem store_of_leadsTo (hfree : site.files.node? place ≠ some .directory)
    (hleads : location.LeadsTo site.files place)
    (hleads' : connection.location.LeadsTo site.files place) (tables : Tables)
    (events : List Event) :
    ∃ site', store connection tables ⟨site, events⟩ = (.ok (), ⟨site', events⟩) ∧
      site'.Holds (some tables) location := by
  cases location with
  | memory | nowhere => exact hleads.elim
  | file path makes =>
    cases hpoints : connection.location with
    | memory | nowhere =>
      rw [hpoints] at hleads'
      exact hleads'.elim
    | file path' makes' =>
      rw [hpoints] at hleads'
      refine ⟨{ site with files := site.files.set place (.file (.database tables)) }, ?_,
        place, (Files.extends_set hfree _).place hleads, Files.node?_set_self hfree _⟩
      simp [store, hpoints, onFiles, Run.silently_apply, Run.zoom_apply, Files.apply,
        Files.write_of_place hleads' hfree]

/-- The tables of a location are there, whatever connection to them is open: another one than to the
location itself was opened to tables that were there. -/
structure Site.Stays (home : Location) (site : Site) (found : Option Tables) : Prop where
  holds : site.Holds found home
  connected : ∀ c, site.connection = some c → c.location = home ∨ found.isSome = true

theorem Site.Serves.stays (hserves : site.Serves location found) : site.Stays location found :=
  ⟨hserves.holds, fun c hopen => .inl (hserves.connected c hopen)⟩

end Database

namespace Store.Table

open Database Run

variable {files : Files} {place : Place} {address configured : Value}

theorem maintains_onSite {α : Type} {m : Run (Traced Site) α} {Q : α → Prop}
    (hpart : Maintains (fun t : Traced Site => t.state.Minds files place) m Q) :
    Maintains (fun t : Traced State => t.state.site.Minds files place) (onSite m) Q :=
  hpart.zoom (fun _ hminds => hminds) fun _ _ _ hminds => hminds

theorem maintains_readyFlows (hpoints : Points files place address) :
    Maintains (fun t : Traced State => t.state.site.Minds files place) (readyFlows address)
      fun _ => True := by
  intro t hminds
  unfold readyFlows
  rw [Run.read_bind]
  split
  · exact (maintains_onSite (maintains_createTables hpoints)).bind
      (fun _ _ _ hminds => ⟨hminds, fun _ _ => trivial⟩) t hminds
  · exact ⟨hminds, fun _ _ => trivial⟩

theorem maintains_readyConversations (hpoints : Points files place address) :
    Maintains (fun t : Traced State => t.state.site.Minds files place) (readyConversations address)
      fun _ => True := by
  intro t hminds
  unfold readyConversations
  rw [Run.read_bind]
  split
  · exact (maintains_onSite (maintains_createTables hpoints)).bind
      (fun _ _ _ hminds => ⟨hminds, fun _ _ => trivial⟩) t hminds
  · exact ⟨hminds, fun _ _ => trivial⟩

/-- Whatever is done with flows leaves alone what the rest of it does. -/
theorem maintains_withFlows {α : Type} {k : Connection × Tables → Run (Traced State) α}
    (hpoints : Points files place address) (hpoints' : Points files place configured)
    (hrest : ∀ c tables, c.location.LeadsTo files place →
      Maintains (fun t : Traced State => t.state.site.Minds files place) (k (c, tables))
        fun _ => True) :
    Maintains (fun t : Traced State => t.state.site.Minds files place)
      (readyFlows address >>= fun _ => onSite (current configured) >>= k) fun _ => True :=
  (maintains_readyFlows hpoints).bind fun _ _ =>
    (maintains_onSite (maintains_current hpoints')).bind fun found hleads =>
      hrest found.1 found.2 hleads

/-- Whatever is done with conversations leaves alone what the rest of it does. -/
theorem maintains_withConversations {α : Type} {k : Connection × Tables → Run (Traced State) α}
    (hpoints : Points files place address) (hpoints' : Points files place configured)
    (hrest : ∀ c tables, c.location.LeadsTo files place →
      Maintains (fun t : Traced State => t.state.site.Minds files place) (k (c, tables))
        fun _ => True) :
    Maintains (fun t : Traced State => t.state.site.Minds files place)
      (readyConversations address >>= fun _ => onSite (current configured) >>= k) fun _ => True :=
  (maintains_readyConversations hpoints).bind fun _ _ =>
    (maintains_onSite (maintains_current hpoints')).bind fun found hleads =>
      hrest found.1 found.2 hleads

/-- An access keeps to the place of the database. -/
theorem maintains_access (hpoints : Points files place address)
    (hpoints' : Points files place configured) (now : String) (a : Access) :
    Maintains (fun t : Traced State => t.state.site.Minds files place)
      (access now address configured a) fun _ => True := by
  have hstore {c : Connection} (hleads : c.location.LeadsTo files place) (tables : Tables) :=
    maintains_onSite (maintains_store hleads tables)
  have hofExcept {ε α : Type} (f : ε → Failure) (r : Except ε α) :
      Maintains (fun t : Traced State => t.state.site.Minds files place) (Run.ofExcept f r)
        fun _ => True := maintains_ofExcept fun _ _ => trivial
  cases a with
  | loadFlow tenant name =>
    refine maintains_withFlows hpoints hpoints' fun c tables hleads => ?_
    dsimp only
    split
    · exact maintains_pure trivial
    · split
      · exact maintains_pure trivial
      · exact Maintains.bind (Q := fun _ => True) (fun _ hminds => ⟨hminds, fun _ _ => trivial⟩)
          fun _ _ => maintains_pure trivial
  | createFlow tenant flow =>
    refine maintains_withFlows hpoints hpoints' fun c tables hleads => ?_
    dsimp only
    split
    · exact maintains_pure trivial
    · exact (hofExcept _ _).bind fun row _ =>
        (hstore hleads _).bind fun _ _ => maintains_pure trivial
  | writeFlow tenant flow =>
    exact maintains_withFlows hpoints hpoints' fun c tables hleads =>
      (hofExcept _ _).bind fun row _ =>
      (hstore hleads _).bind fun _ _ => maintains_pure trivial
  | listFlows tenant =>
    exact maintains_withFlows hpoints hpoints' fun c tables hleads => maintains_pure trivial
  | locateFlow tenant name => exact maintains_pure trivial
  | fetchConversation tenant key =>
    exact maintains_withConversations hpoints hpoints' fun c tables hleads => maintains_pure trivial
  | putConversation tenant key doc =>
    exact maintains_withConversations hpoints hpoints' fun c tables hleads =>
      (hofExcept _ _).bind fun row _ => hstore hleads _
  | deleteConversation tenant key =>
    refine maintains_withConversations hpoints hpoints' fun c tables hleads => ?_
    dsimp only
    split
    · exact (hstore hleads _).bind fun _ _ => maintains_pure trivial
    · exact maintains_pure trivial
  | listConversations tenant =>
    exact maintains_withConversations hpoints hpoints' fun c tables hleads => maintains_pure trivial

/-! ## What accesses find -/

variable {home location : Location} {s : State} {m : Memory}

/-- The contents of a store whose own location is `home` are there, and the tables that are known to
be ready are. -/
def Stays (home : Location) (s : State) (m : Memory) : Prop :=
  ∃ found, s.site.Stays home found ∧ contents (found.getD {}) = m ∧
    (s.flowsReady = true ∨ s.conversationsReady = true → found.isSome = true)

theorem Shows.stays (hshows : Shows location s m) : Stays location s m := by
  obtain ⟨found, hserves, hsame, hready⟩ := hshows
  exact ⟨found, hserves.stays, hsame, fun hflag => (hready hflag).1⟩

section

variable (hminds : s.site.Minds files place) (hleads : home.LeadsTo files place)

include hminds hleads

theorem Holds.stays (holds : Holds location s m) (hthere : location.LeadsTo files place) :
    Stays home s m := by
  obtain ⟨tables, ⟨hserves, -⟩, hsame⟩ := holds
  exact ⟨some tables, ⟨holds_of_leadsTo hserves.holds (hthere.of_extends hminds.tree.grows)
    (hleads.of_extends hminds.tree.grows), fun _ _ => .inr rfl⟩, hsame, fun _ => rfl⟩

/-- An access reaches the contents, through the connection that is open or the one that it opens. -/
theorem Stays.reaches (hstays : Stays home s m) (hknown : IsAddressOf address home)
    (hpoints : Points files place configured) (a : Access) :
    ∃ location, location.LeadsTo files place ∧
      Reaches location address configured (s.isReady a) s m := by
  obtain ⟨found, ⟨holds, hconnected⟩, hsame, hflags⟩ := hstays
  have hready : s.isReady a = true → found.isSome = true := by
    intro hset
    refine hflags ?_
    unfold State.isReady at hset
    split at hset
    · exact .inl hset
    · exact .inr hset
  have helsewhere {other : Location} (hleads' : other.LeadsTo files place)
      (hthere : found.isSome = true) : s.site.Holds found other := by
    obtain ⟨tables, rfl⟩ := Option.isSome_iff_exists.1 hthere
    exact holds_of_leadsTo holds (hleads.of_extends hminds.tree.grows)
      (hleads'.of_extends hminds.tree.grows)
  cases hopen : s.site.connection with
  | some c =>
    have hleads' := hminds.connected c hopen
    have holds' : s.site.Holds found c.location := by
      rcases hconnected c hopen with hsame | hthere
      · exact hsame ▸ holds
      · exact helsewhere hleads' hthere
    refine ⟨c.location, hleads', ⟨found, ⟨?_, holds'⟩, hsame, hready⟩, ?_, ?_⟩
    · rintro _ hagain
      rw [hopen] at hagain
      cases hagain
      rfl
    all_goals
      intro _ hclosed
      rw [hopen] at hclosed
      cases hclosed
  | none =>
    have hclosed {c : Connection} : s.site.connection ≠ some c := by simp [hopen]
    cases hflag : s.isReady a with
    | false =>
      exact ⟨home, hleads, ⟨found, ⟨fun _ hopen => (hclosed hopen).elim, holds⟩, hsame, by simp⟩,
        fun _ _ => hknown, by simp⟩
    | true =>
      obtain ⟨location, hknown', hleads'⟩ := hpoints
      exact ⟨location, hleads', ⟨found, ⟨fun _ hopen => (hclosed hopen).elim,
        helsewhere hleads' (hready hflag)⟩, hsame, fun _ => hready hflag⟩, by simp,
        fun _ _ => hknown'⟩

/-- An access comes to what it comes to on the contents, which are there afterwards. -/
theorem Stays.access (hstays : Stays home s m) (hknown : IsAddressOf address home)
    (hpoints : Points files place configured) (now : String) (events : List Event) (a : Access) :
    ComesTo (fun s' m' => Stays home s' m' ∧ s'.site.Minds files place)
      (access now address configured a ⟨s, events⟩) (outcome now a ⟨m, []⟩) := by
  have hminds' := (maintains_access ⟨home, hknown, hleads⟩ hpoints now a ⟨s, events⟩ hminds).1
  by_cases hlooks : Looks a
  · obtain ⟨location, hthere, hreaches⟩ := hstays.reaches hminds hleads hknown hpoints a
    obtain ⟨hresult, holds⟩ := comesTo_of_reaches now events hlooks hreaches
    exact ⟨hresult, holds.stays hminds' hleads hthere, hminds'⟩
  · cases a with
    | locateFlow tenant name => exact ⟨rfl, hstays, hminds⟩
    | _ => exact absurd trivial hlooks

end

end Store.Table

end Dialogue

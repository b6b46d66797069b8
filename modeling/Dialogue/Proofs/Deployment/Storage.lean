import Dialogue.Deployment
import Dialogue.Proofs.Run
import Dialogue.Proofs.Store.Directory.Access
import Dialogue.Proofs.Store.Outcome
import Dialogue.Proofs.Store.Table

/-!
# What a deployment stores

A deployment keeps what it stores in memory, in files or in a database (`Storage`).  Whichever it
is, the deployment shows contents, and its accesses go as these say (`Storage.mirrors`).

What lies in files and in a database in a file outlasts the process: a deployment that is started
over keeps the same contents as before (`Storage.Serves.restart`).  Otherwise it is empty then
(`Storage.Serves.restart_empty`), as is one that is started where nothing lies
(`Storage.Fresh.serves`).

Stores of two deployments are related if the contents that they show are, or the files that they lie
in (`Storage.Relates`).  An access agrees on related deployments, or spares what they show, if it
does so on contents and on files.

Starting over leaves the files as they are and drops everything else (`restart_eq`).  Then the
stores that a request asks for are made: in memory and in a database this never fails, and in files
it comes down to making two directories (`start_files`).
-/

/-! ## Deployments that start over -/

namespace Dialogue.Deployment

open Store

/-- What a program comes to may be passed through a function. -/
theorem run_bind_done {α β : Type} {e : Engine} {p : Program α} {d d' : Deployment}
    {r : Except Failure α} (hran : run e p d = (r, d')) (f : α → β) :
    run e (p.bind fun a => .done (f a)) d = (r.map f, d') := by
  rw [run, Program.run_bind_apply]
  rw [run] at hran
  rw [hran]
  cases r <;> rfl

/-- A deployment whose process has ended. -/
def ended (d : Deployment) (events : List Event) : Deployment :=
  { d with connection := none, flows := none, conversations := none, events }

/-- Starting over closes the connection and makes the stores that are asked for. -/
theorem restart_eq (r : Backend.Request) (d : Deployment) :
    ∃ events, restart (openStores r) d = start (makeStores r) (d.ended events) := by
  cases hopened : d.connection with
  | none =>
    refine ⟨d.events, ?_⟩
    obtain ⟨⟩ := d
    subst hopened
    rfl
  | some c =>
    refine ⟨.connectionClosed :: d.events, ?_⟩
    obtain ⟨⟩ := d
    subst hopened
    rfl

/-- A deployment with a store that was made last and is in use. -/
structure Opens (d d' : Deployment) (b : Backend) : Prop where
  clock : d'.clock = d.clock
  settings : d'.settings = d.settings
  connection : d'.connection = d.connection
  engine : d'.engine = ⟨d.stores.length, d.stores.length⟩
  store : d'.stores = d.stores ++ [b]

variable {r : Backend.Request} {d d' : Deployment} {b : Backend}

theorem Opens.getElem? (hopens : Opens d d' b) : d'.stores[d.stores.length]? = some b := by
  rw [hopens.store]
  simp

theorem start_memory (hasked : r.backend = .str "memory") (d : Deployment) :
    ∃ d', start (makeStores r) d = (.ok (), d') ∧ d'.files = d.files ∧ Opens d d' (.memory {}) := by
  rw [makeStores, hasked]
  exact ⟨_, rfl, rfl, rfl, rfl, rfl, rfl, rfl⟩

theorem start_table (hasked : r.backend = .str "sql") (d : Deployment) :
    ∃ d', start (makeStores r) d = (.ok (), d') ∧ d'.files = d.files ∧
      Opens d d' (.table r.address false false) := by
  rw [makeStores, hasked]
  exact ⟨_, rfl, rfl, rfl, rfl, rfl, rfl, rfl⟩

/-- Makes the directories of a store in files. -/
def makeDirectories (dir : Path) : Run Files Unit :=
  Run.bind (Files.ensureDirectories dir) fun _ =>
    Files.ensureDirectories (Directory.stateDirectory dir)

theorem onFiles_openFlows (dir : Path) (d : Deployment) :
    onFiles (Directory.openFlows dir) d =
      match Files.ensureDirectories dir d.files with
      | (.ok _, files) => (.ok (), { d with
          files, events := .fileFlowsReady dir.text :: d.events })
      | (.error f, files) => (.error f, { d with files }) := by
  rw [onFiles, Run.zoom_apply, Directory.openFlows]
  rcases hmade : Files.ensureDirectories dir d.files with ⟨f | _, files⟩
  · rw [Run.bind_error (t := ⟨files, d.events⟩) (by rw [Run.silently_apply, hmade])]
  · rw [Run.bind_ok (t := ⟨files, d.events⟩) (by rw [Run.silently_apply, hmade])]
    rfl

theorem onFiles_openConversations (dir : Path) (d : Deployment) :
    onFiles (Directory.openConversations dir) d =
      match Files.ensureDirectories (Directory.stateDirectory dir) d.files with
      | (.ok _, files) => (.ok (), { d with
          files
          events := .fileConversationsReady (Directory.stateDirectory dir).text :: d.events })
      | (.error f, files) => (.error f, { d with files }) := by
  rw [onFiles, Run.zoom_apply, Directory.openConversations]
  rcases hmade : Files.ensureDirectories (Directory.stateDirectory dir) d.files with ⟨f | _, files⟩
  · rw [Run.bind_error (t := ⟨files, d.events⟩) (by rw [Run.silently_apply, hmade])]
  · rw [Run.bind_ok (t := ⟨files, d.events⟩) (by rw [Run.silently_apply, hmade])]
    rfl

/-- A store in files is made if its directories are. -/
theorem start_files {s : String} (hasked : r.backend = .str "file") (hdir : r.dir = .str s)
    (d : Deployment) :
    match makeDirectories (Path.ofText s) d.files with
    | (.ok _, files) => ∃ d', start (makeStores r) d = (.ok (), d') ∧ d'.files = files ∧
        Opens d d' (.directory (Path.ofText s))
    | (.error f, _) => ∃ d', start (makeStores r) d = (.error f, d') := by
  rw [makeStores, hasked]
  simp only [start, makeDirectory, hdir, makeDirectories, bind, Run.bind, onFiles_openFlows]
  rcases Files.ensureDirectories (Path.ofText s) d.files with ⟨f | _, files⟩
  · exact ⟨_, rfl⟩
  · simp only [addStore, keepFlows, Run.modify, onFiles_openConversations]
    rcases Files.ensureDirectories (Directory.stateDirectory (Path.ofText s)) files with
      ⟨f | _, files'⟩
    · exact ⟨_, rfl⟩
    · exact ⟨_, rfl, rfl, rfl, rfl, rfl, rfl, rfl⟩

end Dialogue.Deployment

/-! ## Where a deployment keeps what it stores -/

namespace Dialogue

open Store

/-- Where a deployment keeps what it stores. -/
inductive Storage where
  | memory
  | files (dir : Path)
  | table (location : Database.Location)

namespace Storage

/-- The accesses that are taken: in files the names have to be accepted, in a database the versions
have to fit. -/
def Takes : Storage → Access → Prop
  | memory => fun _ => True
  | files dir => Access.SuitsFiles dir
  | table _ => Access.Fits

/-- The storage outlasts the process. -/
def Lasts : Storage → Prop
  | memory => False
  | files _ => True
  | table location => ∃ path makes, location = .file path makes

/-- The store of a number shows contents. -/
def Shows : Storage → Nat → Deployment → Memory → Prop
  | memory, n, d, m => d.stores[n]? = some (.memory m)
  | files dir, n, d, m =>
    d.stores[n]? = some (.directory dir) ∧ ∃ base, Directory.Shows dir base d.files m
  | table location, n, d, m => ∃ address flowsReady conversationsReady,
    d.stores[n]? = some (.table address flowsReady conversationsReady) ∧
      Database.IsAddressOf (d.addressOr address) location ∧
      Table.Shows location ⟨⟨d.files, d.connection⟩, flowsReady, conversationsReady⟩ m

/-- A request asks for the storage, where the settings give the address of a database. -/
def IsOf : Storage → Backend.Request → Value → Prop
  | memory, r, _ => r.backend = .str "memory"
  | files dir, r, _ => r.backend = .str "file" ∧ ∃ s, r.dir = .str s ∧ Path.ofText s = dir
  | table location, r, url =>
    r.backend = .str "sql" ∧ Database.IsAddressOf (r.address.orElse url) location

/-- A deployment, started by a request, keeps contents in the store of a number. -/
structure Serves (k : Storage) (r : Backend.Request) (now : String) (n : Nat) (d : Deployment)
    (m : Memory) : Prop where
  clock : d.clock = now
  engine : d.engine = ⟨n, n⟩
  asked : k.IsOf r d.settings.database.url
  shows : k.Shows n d m

end Storage

/-- What goes well on a part of a state goes well on the whole. -/
theorem Store.Follows.zoom {σ τ : Type} {now : String} {Takes : Access → Prop}
    {Shows : τ → Memory → Prop} {Shows' : σ → Memory → Prop} {m : Memory} {a : Access} {s : σ}
    {get : σ → τ} {put : τ → σ → σ} {run : Run τ a.Answer}
    (hfollows : Follows now Takes Shows m a (run (get s)))
    (hlift : ∀ t m', Shows t m' → Shows' (put t s) m') :
    Follows now Takes Shows' m a (Run.zoom get put run s) := by
  rw [Run.zoom_apply]
  revert hfollows
  rcases run (get s) with ⟨f | r, t⟩ <;> intro hfollows
  · exact ⟨hfollows.1, hlift t m hfollows.2⟩
  · exact ⟨hfollows.1, hfollows.2.imp (hlift t _) fun hidle => ⟨hidle.1, hlift t m hidle.2⟩⟩

namespace Storage

variable {k : Storage} {n : Nat} {d : Deployment} {m : Memory} {now : String}

theorem store_eq {b : Backend} (hthere : d.stores[n]? = some b) : d.store n = b := by
  rw [Deployment.store, hthere]
  rfl

theorem getElem?_setStore {b c : Backend} (hthere : d.stores[n]? = some b) :
    (d.setStore n c).stores[n]? = some c := by
  obtain ⟨hwithin, -⟩ := List.getElem?_eq_some_iff.1 hthere
  simp [Deployment.setStore, hwithin]

theorem Serves.accessStore {r : Backend.Request} (hserves : k.Serves r now n d m) (a : Access)
    (htidy : m.Tidy) (hproper : a.Proper) :
    Follows now k.Takes (k.Serves r now n) m a (Deployment.accessStore n a d) := by
  obtain ⟨rfl, hengine, hasked, hshows⟩ := hserves
  unfold Deployment.accessStore
  cases k with
  | memory =>
    have hfollows := (mirrors_memory d.clock).access a (s := ⟨m, d.events⟩) rfl htidy hproper
    rw [store_eq hshows]
    show Follows _ _ _ _ _ (Run.zoom _ _ _ d)
    refine Follows.zoom hfollows fun t m' hsame => ⟨rfl, hengine, hasked, ?_⟩
    subst hsame
    exact getElem?_setStore hshows
  | files dir =>
    obtain ⟨hthere, base, hshows⟩ := hshows
    have hfollows := (Directory.mirrors dir base d.clock).access a (s := ⟨d.files, d.events⟩) hshows
      htidy hproper
    rw [store_eq hthere]
    show Follows _ _ _ _ _ (Run.zoom _ _ _ d)
    exact Follows.zoom hfollows fun t m' hshows' => ⟨rfl, hengine, hasked, hthere, base, hshows'⟩
  | table location =>
    obtain ⟨address, flowsReady, conversationsReady, hthere, hknown, hshows⟩ := hshows
    have hfollows := (Table.mirrors hknown d.settings.database.url d.clock).access a
      (s := ⟨⟨⟨d.files, d.connection⟩, flowsReady, conversationsReady⟩, d.events⟩) hshows htidy
        hproper
    rw [store_eq hthere]
    show Follows _ _ _ _ _ (Run.zoom _ _ _ d)
    exact Follows.zoom hfollows fun t m' hshows' =>
      ⟨rfl, hengine, hasked, address, _, _, getElem?_setStore hthere, hknown, hshows'⟩

/-- What an access to files answers, the access in the directory answers. -/
theorem Serves.exists_directory_access {r : Backend.Request} {dir : Path} {a : Access}
    {answer : a.Answer} {d' : Deployment} (hserves : (files dir).Serves r now n d m)
    (hdone : Deployment.accessStore n a d = (.ok answer, d')) :
    ∃ base t, Directory.Shows dir base d.files m ∧
      Directory.access d.clock dir a ⟨d.files, d.events⟩ = (.ok answer, t) := by
  obtain ⟨hthere, base, hshows⟩ := hserves.shows
  rw [Deployment.accessStore, store_eq hthere] at hdone
  dsimp only [Deployment.onFiles] at hdone
  rw [Run.zoom_apply] at hdone
  rcases hran : Directory.access d.clock dir a ⟨d.files, d.events⟩ with ⟨result, t⟩
  rw [hran] at hdone
  obtain rfl : result = .ok answer := (Prod.mk.inj hdone).1
  exact ⟨base, t, hshows, rfl⟩

theorem Serves.log {r : Backend.Request} (hserves : k.Serves r now n d m) (e : Event) :
    k.Serves r now n (d.log e) m where
  clock := hserves.clock
  engine := hserves.engine
  asked := hserves.asked
  shows := by
    have hshows := hserves.shows
    cases k <;> exact hshows

/-- A deployment mirrors the contents that it keeps, wherever it keeps them. -/
theorem mirrors (k : Storage) (r : Backend.Request) (now : String) (n : Nat) :
    Mirrors (Deployment.access ⟨n, n⟩) Deployment.log now k.Takes (k.Serves r now n) where
  log e hserves := hserves.log e
  access {d} {m} a hserves htidy hproper := by
    have hsame : Deployment.access ⟨n, n⟩ a d = Deployment.accessStore n a d := by
      simp [Deployment.access]
    rw [hsame]
    exact hserves.accessStore a htidy hproper

theorem Serves.setClock {r : Backend.Request} (hserves : k.Serves r now n d m) (clock : String) :
    k.Serves r clock n { d with clock } m where
  clock := rfl
  engine := hserves.engine
  asked := hserves.asked
  shows := by
    have hshows := hserves.shows
    cases k <;> exact hshows

/-! ## Starting over -/

variable {r : Backend.Request}

/-- What outlasts the process is there when the deployment is started over. -/
theorem Serves.restart (hserves : k.Serves r now n d m) (hlasts : k.Lasts) :
    ∃ n' d', Deployment.restart (Deployment.openStores r) d = (.ok (), d') ∧
      k.Serves r now n' d' m := by
  obtain ⟨rfl, -, hasked, hshows⟩ := hserves
  obtain ⟨events, hrestarted⟩ := Deployment.restart_eq r d
  cases k with
  | memory => exact hlasts.elim
  | files dir =>
    obtain ⟨hasked, s, hwritten, rfl⟩ := hasked
    obtain ⟨-, base, hshows⟩ := hshows
    have hstarted := Deployment.start_files hasked hwritten (d.ended events)
    have hmade : Deployment.makeDirectories (Path.ofText s) (d.ended events).files =
        (.ok (), d.files) := by
      show Run.bind _ _ d.files = _
      rw [Run.bind, Files.ensureDirectories_of_directory hshows.place hshows.directory]
      exact Files.ensureDirectories_of_directory hshows.statePlace hshows.stateMade
    rw [hmade] at hstarted
    obtain ⟨d', hstarted, hsame, hopens⟩ := hstarted
    refine ⟨_, d', hrestarted.trans hstarted, hopens.clock, hopens.engine,
      ⟨hasked, s, hwritten, rfl⟩, hopens.getElem?, base, ?_⟩
    rw [hsame]
    exact hshows
  | table location =>
    obtain ⟨path, makes, rfl⟩ := hlasts
    obtain ⟨hasked, hknown⟩ := hasked
    obtain ⟨_, _, _, -, -, found, hserves, hsame, -⟩ := hshows
    obtain ⟨d', hstarted, hunchanged, hopens⟩ := Deployment.start_table hasked (d.ended events)
    have hsettings : d'.settings = d.settings := hopens.settings
    refine ⟨_, d', hrestarted.trans hstarted, hopens.clock, hopens.engine, ⟨hasked, ?_⟩,
      r.address, false, false, hopens.getElem?, ?_, found, ?_, hsame, by simp⟩
    · rw [hsettings]
      exact hknown
    · rw [Deployment.addressOr, hsettings]
      exact hknown
    · rw [hopens.connection, hunchanged]
      exact hserves.disconnected

/-- What does not outlast the process is gone when the deployment is started over. -/
theorem Serves.restart_empty (hserves : k.Serves r now n d m) (hpasses : ¬ k.Lasts) :
    ∃ n' d', Deployment.restart (Deployment.openStores r) d = (.ok (), d') ∧
      k.Serves r now n' d' {} := by
  obtain ⟨rfl, -, hasked, hshows⟩ := hserves
  obtain ⟨events, hrestarted⟩ := Deployment.restart_eq r d
  cases k with
  | memory =>
    obtain ⟨d', hstarted, -, hopens⟩ := Deployment.start_memory hasked (d.ended events)
    exact ⟨_, d', hrestarted.trans hstarted, hopens.clock, hopens.engine, hasked, hopens.getElem?⟩
  | files dir => exact absurd trivial hpasses
  | table location =>
    obtain ⟨hasked, hknown⟩ := hasked
    obtain ⟨d', hstarted, -, hopens⟩ := Deployment.start_table hasked (d.ended events)
    have hsettings : d'.settings = d.settings := hopens.settings
    have hclosed : d'.connection = none := hopens.connection
    have hserves : Database.Site.Serves location ⟨d'.files, d'.connection⟩ none := by
      rw [hclosed]
      refine ⟨by simp, ?_⟩
      cases location with
      | memory => rfl
      | file path makes => exact absurd ⟨path, makes, rfl⟩ hpasses
      | nowhere =>
        obtain ⟨_, _, _, -, -, _, hserves, -⟩ := hshows
        exact hserves.holds.elim
    refine ⟨_, d', hrestarted.trans hstarted, hopens.clock, hopens.engine, ⟨hasked, ?_⟩,
      r.address, false, false, hopens.getElem?, ?_, none, hserves, rfl, by simp⟩
    · rw [hsettings]
      exact hknown
    · rw [Deployment.addressOr, hsettings]
      exact hknown

/-- Nothing is stored. -/
def IsEmpty : Storage → Deployment → Prop
  | memory, _ => True
  | files dir, d => Directory.IsEmptyAt dir d.files
  | table location, d => ∃ found, Database.Site.Serves location ⟨d.files, d.connection⟩ found ∧
    Table.contents (found.getD {}) = {}

/-- A deployment that was just started by a request, with nothing stored. -/
structure Fresh (k : Storage) (r : Backend.Request) (d : Deployment) : Prop where
  started : ∃ d₀, Deployment.restart (Deployment.openStores r) d₀ = (.ok (), d)
  asked : k.IsOf r d.settings.database.url
  empty : k.IsEmpty d

/-- The directories of a store in files are there once they were made. -/
theorem directories_of_makeDirectories {dir : Path} {files files' : Files}
    (hmade : Deployment.makeDirectories dir files = (.ok (), files')) :
    ∃ base, files'.place dir = .ok base ∧ files'.node? base = some .directory ∧
      files'.place (Directory.stateDirectory dir) = .ok (base ++ ["state"]) ∧
      files'.node? (base ++ ["state"]) = some .directory := by
  unfold Deployment.makeDirectories Run.bind at hmade
  split at hmade
  · obtain ⟨q, hleads, hdirectory⟩ := Files.directory_of_ensureDirectories
      (by simp [Directory.stateDirectory, Path.below]) hmade
    obtain ⟨base, habove, hdirectory'⟩ :=
      Files.place_parent hleads (Files.isLegible_of_child (Files.isLegible_of_place hleads))
    rcases Files.place_child habove hdirectory' Directory.isOrdinary_state with hchild | ⟨hnone, -⟩
    · have hsame : base ++ ["state"] = q := Except.ok.inj (hchild.symm.trans hleads)
      exact ⟨base, habove, hdirectory', hchild, hsame ▸ hdirectory⟩
    · have hnowhere := hleads.symm.trans hnone
      cases hnowhere
  · cases hmade

theorem Fresh.serves (hfresh : k.Fresh r d) : ∃ n, k.Serves r d.clock n d {} := by
  obtain ⟨⟨d₀, hstarted⟩, hasked, hempty⟩ := hfresh
  obtain ⟨events, hrestarted⟩ := Deployment.restart_eq r d₀
  rw [hrestarted] at hstarted
  cases k with
  | memory =>
    obtain ⟨d', hopened, -, hopens⟩ := Deployment.start_memory hasked (d₀.ended events)
    obtain rfl : d' = d := (Prod.mk.inj (hopened.symm.trans hstarted)).2
    exact ⟨_, rfl, hopens.engine, hasked, hopens.getElem?⟩
  | files dir =>
    obtain ⟨hnamed, s, hwritten, rfl⟩ := hasked
    have hopened := Deployment.start_files hnamed hwritten (d₀.ended events)
    rcases hmade : Deployment.makeDirectories (Path.ofText s) (d₀.ended events).files with
      ⟨f | _, files⟩
    · rw [hmade] at hopened
      obtain ⟨d', hfailed⟩ := hopened
      have himpossible := hfailed.symm.trans hstarted
      cases himpossible
    · rw [hmade] at hopened
      obtain ⟨d', hopened, rfl, hopens⟩ := hopened
      obtain rfl : d' = d := (Prod.mk.inj (hopened.symm.trans hstarted)).2
      obtain ⟨base, hplace, hdirectory, hstatePlace, hstateMade⟩ :=
        directories_of_makeDirectories hmade
      exact ⟨_, rfl, hopens.engine, ⟨hnamed, s, hwritten, rfl⟩, hopens.getElem?, base,
        Directory.shows_of_isEmptyAt hplace hdirectory hstatePlace hstateMade hempty⟩
  | table location =>
    obtain ⟨hnamed, hknown⟩ := hasked
    obtain ⟨d', hopened, -, hopens⟩ := Deployment.start_table hnamed (d₀.ended events)
    obtain rfl : d' = d := (Prod.mk.inj (hopened.symm.trans hstarted)).2
    obtain ⟨found, hserves, hnothing⟩ := hempty
    exact ⟨_, rfl, hopens.engine, ⟨hnamed, hknown⟩, r.address, false, false, hopens.getElem?,
      hknown, found, hserves, hnothing, by simp⟩

end Storage

/-! ## Related deployments -/

open Run

theorem Deployment.engine_accessStore (n : Nat) (a : Access) (d : Deployment) :
    (accessStore n a d).2.engine = d.engine := by
  rw [accessStore]
  cases d.store n <;> rfl

namespace Storage

variable {Seen : Memory → Memory → Prop} {Lies : Path → Files → Files → Prop} {k : Storage}
  {n : Nat} {a : Access}

/-- The stores of a number are related in two deployments. -/
def Relates (Seen : Memory → Memory → Prop) (Lies : Path → Files → Files → Prop) :
    Storage → Nat → Deployment → Deployment → Prop
  | files dir, n, d, d' =>
    d.stores[n]? = some (.directory dir) ∧ d'.stores[n]? = some (.directory dir) ∧
      Lies dir d.files d'.files
  | k, n, d, d' => ∃ m m', k.Shows n d m ∧ k.Shows n d' m' ∧ Seen m m'

/-- Time and log make no difference. -/
theorem Relates.at {d d' : Deployment} (hrelated : k.Relates Seen Lies n d d')
    (clock clock' : String) (events events' : List Event) :
    k.Relates Seen Lies n { d with clock, events }
      { d' with clock := clock', events := events' } := by
  cases k <;> exact hrelated

/-- An access agrees on related deployments if it does so on related contents and files. -/
theorem agrees_of_relates (hcontents : a.RestsOn fun {_} m => Agrees (Silent Seen) m)
    (hinFiles : ∀ dir, k = files dir → ∀ now,
      Agrees (Silent (Lies dir)) (Directory.access now dir a)) :
    Agrees (fun d d' => d.clock = d'.clock ∧ k.Relates Seen Lies n d d')
      (Deployment.accessStore n a) := by
  rintro d d' ⟨hclock, hrelated⟩
  unfold Deployment.accessStore
  cases k with
  | memory =>
    obtain ⟨m, m', hshows, hshows', hseen⟩ := hrelated
    obtain ⟨hsame, hafter⟩ := Memory.access_of_restsOn (composes_agrees _) d.clock hcontents
      ⟨m, d.events⟩ ⟨m', d'.events⟩ hseen
    rw [store_eq hshows, store_eq hshows', ← hclock]
    exact ⟨hsame, hclock, _, _, getElem?_setStore hshows, getElem?_setStore hshows', hafter⟩
  | files dir =>
    obtain ⟨hthere, hthere', hlie⟩ := hrelated
    obtain ⟨hsame, hafter⟩ := hinFiles dir rfl d.clock ⟨d.files, d.events⟩ ⟨d'.files, d'.events⟩
      hlie
    rw [store_eq hthere, store_eq hthere', ← hclock]
    exact ⟨hsame, hclock, hthere, hthere', hafter⟩
  | table location =>
    obtain ⟨m, m', ⟨address, f, c, hthere, hknown, hshows⟩,
      ⟨address', f', c', hthere', hknown', hshows'⟩, hseen⟩ := hrelated
    obtain ⟨hsame, hafter⟩ := Table.outcome_of_restsOn (composes_agrees _) d.clock hcontents
      ⟨m, []⟩ ⟨m', []⟩ hseen
    have htold := Table.access_comesTo hknown hshows d.clock d.settings.database.url d.events a
    have htold' := Table.access_comesTo hknown' hshows' d.clock d'.settings.database.url d'.events a
    rw [store_eq hthere, store_eq hthere', ← hclock]
    exact ⟨htold.result.trans (hsame.trans htold'.result.symm), hclock, _, _,
      ⟨address, _, _, getElem?_setStore hthere, hknown, htold.shows⟩,
      ⟨address', _, _, getElem?_setStore hthere', hknown', htold'.shows⟩, hafter⟩

/-- An access spares what deployments show if it does so with contents and files. -/
theorem spares_of_relates (hcontents : a.RestsOn fun {_} m => Spares (Silent Seen) m)
    (hinFiles : ∀ dir, k = files dir → ∀ now,
      Spares (Silent (Lies dir)) (Directory.access now dir a)) :
    Spares (k.Relates Seen Lies n) (Deployment.accessStore n a) := by
  intro d d' hrelated
  unfold Deployment.accessStore
  cases k with
  | memory =>
    obtain ⟨m, m', hshows, hshows', hseen⟩ := hrelated
    have hafter := Memory.access_of_restsOn (composes_spares _) d.clock hcontents
      ⟨m, d.events⟩ ⟨m', d'.events⟩ hseen
    rw [store_eq hshows]
    exact ⟨_, m', getElem?_setStore hshows, hshows', hafter⟩
  | files dir =>
    obtain ⟨hthere, hthere', hlie⟩ := hrelated
    have hafter := hinFiles dir rfl d.clock ⟨d.files, d.events⟩ ⟨d'.files, d'.events⟩ hlie
    rw [store_eq hthere]
    exact ⟨hthere, hthere', hafter⟩
  | table location =>
    obtain ⟨m, m', ⟨address, f, c, hthere, hknown, hshows⟩, hshows', hseen⟩ := hrelated
    have hafter := Table.outcome_of_restsOn (composes_spares _) d.clock hcontents
      ⟨m, []⟩ ⟨m', []⟩ hseen
    have htold := Table.access_comesTo hknown hshows d.clock d.settings.database.url d.events a
    rw [store_eq hthere]
    exact ⟨_, m', ⟨address, _, _, getElem?_setStore hthere, hknown, htold.shows⟩, hshows', hafter⟩

end Storage

end Dialogue

import Dialogue.Proofs.Store.Directory.Orderly

/-!
# Where a store keeps its files

The files of a store lie at `<tenant>/flows/<flow>.json` and `state/<tenant>.json` below its
directory, and every name there is a safe name, so it is one component of a path and leads neither
up nor elsewhere (`Path.ofText_of_isName`).  Two flows have one path only if their tenants and their
names are the same as storage keys.

A store makes directories on the way to its files and nowhere else: whatever program runs on it, a
directory that is there afterwards and was not there before lies where such a path leads
(`Directory.grown_access`, `Directory.grows_run`).  None of these is the path of a file
(`Directory.IsMade.ne_flowPath`, `Directory.IsMade.ne_statePath`).
-/

namespace Dialogue

open Run Files

/-! ## Trees in which directories are made -/

namespace Files

variable {made : Path → Prop} {files files' : Files} {path : Path}

/-- No directory is lost, and a new one lies where a path of a kind leads. -/
structure Grows (made : Path → Prop) (files files' : Files) : Prop where
  extends_ : Extends files files'
  new : ∀ place, files'.node? place = some .directory →
    files.node? place = some .directory ∨ ∃ path, made path ∧ files'.place path = .ok place

theorem Grows.refl (made : Path → Prop) (files : Files) : Grows made files files :=
  ⟨.refl files, fun _ hdirectory => .inl hdirectory⟩

theorem Grows.trans {files'' : Files} (hfirst : Grows made files files')
    (hsecond : Grows made files' files'') : Grows made files files'' where
  extends_ := hfirst.extends_.trans hsecond.extends_
  new place hdirectory := by
    rcases hsecond.new place hdirectory with hbefore | hlater
    · rcases hfirst.new place hbefore with hthere | ⟨path, hmade, hleads⟩
      · exact .inl hthere
      · exact .inr ⟨path, hmade, hsecond.extends_.place hleads⟩
    · exact .inr hlater

theorem grows_write {content : Content} (hwritten : files.write path content = .ok files') :
    Grows made files files' := by
  obtain ⟨p, -, hfree, rfl⟩ := exists_of_write hwritten
  refine ⟨extends_set hfree _, fun place hdirectory => .inl ?_⟩
  by_cases hsame : place = p
  · rw [hsame, node?_set_self hfree] at hdirectory
    cases hdirectory
  · rwa [node?_set_of_ne hsame] at hdirectory

theorem grows_ensureDirectory (hmade : made path) (files : Files) :
    Grows made files (ensureDirectory path files).2 := by
  unfold ensureDirectory
  split
  · rename_i changed hdone
    unfold makeDirectory at hdone
    split at hdone
    · cases hdone
    · rename_i p hleads
      split at hdone
      · cases hdone
      · rename_i hnothing
        cases hdone
        have hfree : files.node? p ≠ some .directory := by simp [hnothing]
        have hgrown := extends_set hfree .directory
        refine ⟨hgrown, fun place hdirectory => ?_⟩
        by_cases hsame : place = p
        · exact .inr ⟨path, hmade, hsame ▸ hgrown.place hleads⟩
        · exact .inl (by rwa [node?_set_of_ne hsame] at hdirectory)
  · split
    · exact .refl made files
    · exact .refl made files

/-- Every directory that is made on the way to a path is one above it, or the path itself. -/
theorem grows_ensureAll {root : String} {names : List String}
    (habove : ∀ names', names' <:+ names → made ⟨root, names'.reverse⟩) (files : Files) :
    Grows made files (ensureAll root names files).2 := by
  induction names generalizing files with
  | nil => exact .refl made files
  | cons name names ih =>
    have here : made ⟨root, (name :: names).reverse⟩ := habove _ List.suffix_rfl
    simp only [ensureAll]
    split
    · have hbefore := ih
        (fun names' hshorter => habove names' (hshorter.trans (List.suffix_cons _ _))) files
      unfold Run.bind
      split
      · rename_i hmade
        rw [hmade] at hbefore
        exact hbefore.trans (grows_ensureDirectory here _)
      · rename_i hfailed
        rwa [hfailed] at hbefore
    · exact grows_ensureDirectory here files

theorem grows_ensureDirectories
    (habove : ∀ names, names <+: path.parts → made ⟨path.root, names⟩) (files : Files) :
    Grows made files (ensureDirectories path files).2 :=
  grows_ensureAll (fun names' hshorter => habove _ (by simpa using List.reverse_prefix.2 hshorter))
    files

end Files

/-! ## Names in paths -/

theorem Text.splitOn_of_notMem {sep : Char} {cs : List Char} (h : sep ∉ cs) :
    Text.splitOn sep cs = [cs] := by
  induction cs with
  | nil => rfl
  | cons c rest ih =>
    obtain ⟨hother, hlater⟩ := not_or.1 (mt List.mem_cons.2 h)
    rw [Text.splitOn, ih hlater]
    exact if_neg (Ne.symm hother)

namespace Path

theorem ofText_of_noSlash {s : String} (hnoSlash : '/' ∉ s.toList) (hnonempty : s ≠ "")
    (hnotHere : s ≠ ".") : ofText s = ⟨"", [s]⟩ := by
  have hstart : s.toList.takeWhile (· = '/') = [] := by
    cases htext : s.toList with
    | nil => rfl
    | cons c rest =>
      have hother : c ≠ '/' := fun hsame => hnoSlash (by simp [htext, hsame])
      simp [hother]
  simp [ofText, hstart, rootOf, Text.splitOn_of_notMem hnoSlash, hnonempty, hnotHere]

theorem ofText_of_isName {s : String} (hname : Identifier.IsName s) : ofText s = ⟨"", [s]⟩ :=
  ofText_of_noSlash (hname.notMem rfl) hname.ne_empty
    (hname.ne_of_head (show Identifier.isTrimmed '.' = true from rfl) rfl)

theorem flat_below (dir : Path) {names : List String} (hdown : ∀ name ∈ names, name ≠ "..") :
    (dir.below names).flat = dir.flat.below names := by
  have hkept (fromRoot : Bool) (front : List String) :
      flatParts fromRoot (front ++ names) = flatParts fromRoot front ++ names := by
    unfold flatParts
    rw [List.foldl_append]
    generalize front.foldl _ [] = stack
    induction names generalizing stack with
    | nil => simp
    | cons name names ih =>
      obtain ⟨hfirst, hothers⟩ := List.forall_mem_cons.1 hdown
      simp [hfirst, ih hothers]
  simp only [flat, below, hkept]

end Path

namespace Store.Directory

variable {dir path : Path} {names : List String} {now : String}

/-! ## Directories on the way -/

/-- The path is that of the directory of the conversations or of the flows of a tenant, or one above
it. -/
def IsMade (dir path : Path) : Prop :=
  ∃ ending, path.below ending = stateDirectory dir ∨
    ∃ tenant, path.below ending = flowsPath dir tenant

theorem isMade_of_prefix_state (habove : names <+: (stateDirectory dir).parts) :
    IsMade dir ⟨dir.root, names⟩ := by
  obtain ⟨ending, hwhole⟩ := habove
  exact ⟨ending, .inl (by rw [Path.below, hwhole]; rfl)⟩

theorem isMade_of_prefix_flows {tenant : Value} (habove : names <+: (flowsPath dir tenant).parts) :
    IsMade dir ⟨dir.root, names⟩ := by
  obtain ⟨ending, hwhole⟩ := habove
  exact ⟨ending, .inr ⟨tenant, by rw [Path.below, hwhole]; rfl⟩⟩

theorem IsMade.ne_flowPath (hmade : IsMade dir path) (tenant name : Value) :
    path ≠ flowPath dir tenant name := by
  rintro rfl
  obtain ⟨ending, hstate | ⟨tenant', hflows⟩⟩ := hmade
  · have hparts := congrArg (List.length ∘ Path.parts) hstate
    simp [flowPath, flowsPath, stateDirectory, Path.below] at hparts
  · have hparts := congrArg (List.length ∘ Path.parts) hflows
    simp [flowPath, flowsPath, Path.below] at hparts

theorem IsMade.ne_statePath (hmade : IsMade dir path) (tenant : String) :
    path ≠ statePath dir tenant := by
  rintro rfl
  obtain ⟨ending, hstate | ⟨tenant', hflows⟩⟩ := hmade
  · have hparts := congrArg (List.length ∘ Path.parts) hstate
    simp [statePath, stateDirectory, Path.below] at hparts
  · have hparts := congrArg Path.parts hflows
    simp only [statePath, stateDirectory, flowsPath, Path.below, List.append_assoc,
      List.append_cancel_left_eq, List.cons_append, List.nil_append, List.cons.injEq] at hparts
    exact fileName_ne (by decide) hparts.2.1

/-! ## What a run makes -/

/-- The state has grown from another one by directories that a store makes. -/
abbrev GrownFrom (dir : Path) (files before : Files) : Prop := Grows (IsMade dir) before files

theorem spares_of_grows {α : Type} {m : Run Files α}
    (hgrows : ∀ files, Grows (IsMade dir) files (m files).2) : Spares (GrownFrom dir) m :=
  fun files _ hgrown => hgrown.trans (hgrows files)

theorem grown_write (content : Content) :
    Spares (GrownFrom dir) (Files.apply fun files => files.write path content) := by
  refine spares_of_grows fun files => ?_
  unfold Files.apply
  split
  · rename_i hwritten
    exact grows_write hwritten
  · exact .refl _ files

theorem grown_prepare
    (habove : ∀ names, names <+: path.parent.parts → IsMade dir ⟨path.parent.root, names⟩) :
    Spares (GrownFrom dir) (prepare path) := by
  refine (spares_of_grows (grows_ensureDirectories habove)).bind fun _ => ?_
  split
  · exact (composes_spares _).fail _
  · exact (composes_spares _).pure _

theorem grown_writeJson (v : Value)
    (habove : ∀ names, names <+: path.parent.parts → IsMade dir ⟨path.parent.root, names⟩) :
    Spares (Silent (GrownFrom dir)) (writeJson path v) :=
  Spares.silently ((grown_prepare habove).bind fun _ => grown_write _)

theorem grown_createJson (v : Value)
    (habove : ∀ names, names <+: path.parent.parts → IsMade dir ⟨path.parent.root, names⟩) :
    Spares (Silent (GrownFrom dir)) (createJson path v) := by
  refine Spares.silently ((grown_prepare habove).bind fun _ => ?_)
  refine (spares_of_eq fun _ => rfl : Spares (GrownFrom dir) Run.get).bind fun files => ?_
  split
  · exact (grown_write _).bind fun _ => (composes_spares _).pure _
  · exact (composes_spares _).pure _

theorem parent_flowPath (dir : Path) (tenant name : Value) :
    (flowPath dir tenant name).parent = flowsPath dir tenant := by
  simp [flowPath]

theorem parent_statePath (dir : Path) (tenant : String) :
    (statePath dir tenant).parent = stateDirectory dir := by
  simp [statePath]

/-- An access makes directories only on the way to files of the store. -/
theorem grown_access (now : String) (dir : Path) (a : Access) :
    Spares (Silent (GrownFrom dir)) (access now dir a) := by
  have hflows (tenant name : Value) (names : List String)
      (habove : names <+: (flowPath dir tenant name).parent.parts) :
      IsMade dir ⟨(flowPath dir tenant name).parent.root, names⟩ := by
    rw [parent_flowPath] at habove ⊢
    exact isMade_of_prefix_flows habove
  have handles (tenant : String) :
      Handles (fun {_} m => Spares (Silent (GrownFrom dir)) m) now dir tenant :=
    { composes := composes_spares _
      note := spares_note
      readFlow := fun _ _ _ => spares_of_eq (snd_readJson _)
      createFlow := fun t name v _ => grown_createJson v (hflows t name)
      writeFlow := fun t name v _ => grown_writeJson v (hflows t name)
      listFlows := fun t _ => spares_of_eq fun s => by
        rw [Directory.access, Run.read_bind]
        cases s.state.names (flowsPath dir t) <;> rfl
      readState := spares_of_eq (snd_readJson _)
      writeState := fun v => grown_writeJson v fun names habove => by
        rw [parent_statePath] at habove ⊢
        exact isMade_of_prefix_state habove }
  obtain ⟨tenant, hof⟩ : ∃ tenant, a.IsOf tenant := by cases a <;> exact ⟨_, rfl⟩
  exact (handles tenant).access a hof

theorem grows_run {α : Type} (now : String) (dir : Path) (p : Program α) (t : Traced Files) :
    Grows (IsMade dir) t.state (p.run (access now dir) Traced.log t).2.state := by
  have hmakes : p.Makes fun _ => True := by
    induction p with
    | done a => exact .done a
    | fail f => exact .fail f
    | log e next ih => exact .log e ih
    | access a next ih => exact .access trivial ih
  have hlogs (e : Event) (t t' : Traced Files) (hgrown : Silent (GrownFrom dir) t t') :
      Silent (GrownFrom dir) (Traced.log e t) t' := hgrown
  have hspares : Spares (Silent (GrownFrom dir)) (p.run (access now dir) Traced.log) :=
    Program.spares_of_makes hlogs (fun a _ => grown_access now dir a) hmakes
  exact hspares t t (.refl _ t.state)

theorem grows_openFlows (dir : Path) (t : Traced Files) :
    Grows (IsMade dir) t.state (openFlows dir t).2.state := by
  have hmakes : Spares (GrownFrom dir) (ensureDirectories dir) :=
    spares_of_grows (grows_ensureDirectories fun names habove =>
      isMade_of_prefix_state (habove.trans (List.prefix_append dir.parts ["state"])))
  exact (hmakes.silently.bind fun _ => spares_note _) t t (.refl _ t.state)

theorem grows_openConversations (dir : Path) (t : Traced Files) :
    Grows (IsMade dir) t.state (openConversations dir t).2.state := by
  have hmakes : Spares (GrownFrom dir) (ensureDirectories (stateDirectory dir)) :=
    spares_of_grows (grows_ensureDirectories fun names habove => isMade_of_prefix_state habove)
  exact (hmakes.silently.bind fun _ => spares_note _) t t (.refl _ t.state)

/-! ## Paths of files -/

/-- Two flows have one path only if they have one key. -/
theorem flowPath_inj {tenant name tenant' name' : Value} :
    flowPath dir tenant name = flowPath dir tenant' name' ↔
      Identifier.safeName tenant = Identifier.safeName tenant' ∧
        Identifier.safeName name = Identifier.safeName name' := by
  simp [flowPath, flowsPath, Path.below]

theorem flowPath_ne_statePath (dir : Path) (tenant name : Value) (tenant' : String) :
    flowPath dir tenant name ≠ statePath dir tenant' := by
  intro hsame
  have hparts := congrArg (List.length ∘ Path.parts) hsame
  simp [flowPath, flowsPath, statePath, stateDirectory, Path.below] at hparts

theorem statePath_below (dir : Path) (tenant : String) :
    statePath dir tenant = dir.below (stateNames (Identifier.safeName (.str tenant))) := by
  simp only [statePath, stateDirectory, Path.below_below]
  rfl

theorem statePath_safeName (dir : Path) (tenant : Value) :
    statePath dir (Identifier.safeName tenant) =
      dir.below ["state", Identifier.safeName tenant ++ ".json"] :=
  statePath_eq dir (Identifier.isName_safeName tenant)

/-- Names of files stay below the directory of the store when two points in its path are resolved.
-/
theorem flat_of_way (dir : Path) (hway : FileWay names) :
    (dir.below names).flat = dir.flat.below names :=
  Path.flat_below dir fun part hon => (hway.ordinary part hon).notUp

theorem eq_of_place {files : Files} {place : Place} (hdown : ∀ part ∈ path.parts, part ≠ "..")
    (hleads : files.place path = .ok place) : place = origin path ++ path.parts := by
  rw [place_of_isLegible (isLegible_of_place hleads)] at hleads
  generalize origin path = start at hleads ⊢
  generalize path.parts = parts at hdown hleads ⊢
  induction parts generalizing start with
  | nil => simpa [follow] using hleads.symm
  | cons part rest ih =>
    obtain ⟨hfirst, hothers⟩ := List.forall_mem_cons.1 hdown
    simp only [follow] at hleads
    split at hleads
    · cases hleads
    · cases hleads
    · split at hleads
      · cases hleads
      · rw [step, if_neg hfirst] at hleads
        simpa using ih _ hothers hleads

theorem IsMade.root_eq (hmade : IsMade dir path) : path.root = dir.root := by
  obtain ⟨ending, hstate | ⟨tenant, hflows⟩⟩ := hmade
  · have hroot := congrArg Path.root hstate
    exact hroot
  · have hroot := congrArg Path.root hflows
    exact hroot

theorem IsMade.ne_below (hmade : IsMade dir path) (hway : FileWay names) :
    path ≠ dir.below names := by
  cases hway with
  | @flow key hproper =>
    have hsame : dir.below (flowNames key) = flowPath dir (.str key.1) (.str key.2) := by
      rw [flowPath_eq, flowKey, Identifier.safeName_of_isName hproper.tenant,
        Identifier.safeName_of_isName hproper.name]
    rw [hsame]
    exact hmade.ne_flowPath _ _
  | state hname =>
    rw [← statePath_eq dir hname]
    exact hmade.ne_statePath _

/-- No part of a path of a directory that is made leads up, unless one of the path of the store
does. -/
theorem IsMade.down (hmade : IsMade dir path) (hdown : ∀ part ∈ dir.parts, part ≠ "..") :
    ∀ part ∈ path.parts, part ≠ ".." := by
  intro part hon
  obtain ⟨ending, hstate | ⟨tenant, hflows⟩⟩ := hmade
  · have hon : part ∈ (stateDirectory dir).parts := hstate ▸ List.mem_append_left ending hon
    rcases List.mem_append.1 hon with habove | here
    · exact hdown part habove
    · exact List.mem_singleton.1 here ▸ isOrdinary_state.notUp
  · have hon : part ∈ (flowsPath dir tenant).parts := hflows ▸ List.mem_append_left ending hon
    rcases List.mem_append.1 hon with habove | here
    · exact hdown part habove
    · simp only [List.mem_cons, List.not_mem_nil, or_false] at here
      rcases here with rfl | rfl
      · exact (isOrdinary_of_isName (Identifier.isName_safeName tenant)).notUp
      · exact isOrdinary_flows.notUp

/-- In a directory whose path does not lead up, a directory that is made does not take the place of
a file. -/
theorem directory_before {files files' : Files} {place : Place}
    (hdown : ∀ part ∈ dir.parts, part ≠ "..") (hgrows : Grows (IsMade dir) files files')
    (hway : FileWay names) (hleads : files'.place (dir.below names) = .ok place)
    (hdirectory : files'.node? place = some .directory) :
    files.node? place = some .directory := by
  rcases hgrows.new place hdirectory with hbefore | ⟨path, hmade, hleads'⟩
  · exact hbefore
  · have hspelled := eq_of_place (hmade.down hdown) hleads'
    have hbelow : ∀ part ∈ (dir.below names).parts, part ≠ ".." := by
      intro part hon
      rcases List.mem_append.1 hon with habove | here
      · exact hdown part habove
      · exact (hway.ordinary part here).notUp
    have hspelled' := eq_of_place hbelow hleads
    have hstart : origin path = origin (dir.below names) := by
      rw [origin, origin, hmade.root_eq]
      rfl
    have hparts : path.parts = (dir.below names).parts := by
      rw [hspelled, hstart] at hspelled'
      exact List.append_cancel_left hspelled'
    have hsame : path = dir.below names := by
      cases path
      exact congrArg₂ Path.mk hmade.root_eq hparts
    exact absurd hsame (hmade.ne_below hway)

/-- A name that is made of few characters, is its own storage key and is a single part of a path,
also with the ending of a file. -/
structure IsCanonical (name : String) : Prop where
  nonempty : name ≠ ""
  characters : ∀ c ∈ name.toList,
    'a' ≤ c ∧ c ≤ 'z' ∨ '0' ≤ c ∧ c ≤ '9' ∨ c = '.' ∨ c = '_' ∨ c = '-'
  ends : ∀ c, name.toList.head? = some c ∨ name.toList.getLast? = some c → c ≠ '-' ∧ c ≠ '.'
  again : Identifier.safeName (.str name) = name
  notHere : name ≠ "."
  notUp : name ≠ ".."
  part : Path.ofText name = ⟨"", [name]⟩
  file : Path.ofText (name ++ ".json") = ⟨"", [name ++ ".json"]⟩

theorem isCanonical_safeName (v : Value) : IsCanonical (Identifier.safeName v) := by
  have hname := Identifier.isName_safeName v
  have hpoint : Identifier.isTrimmed '.' = true := rfl
  refine ⟨hname.ne_empty, fun c hon => ?_, fun c hat => ?_, Identifier.safeName_safeName v,
    hname.ne_of_head hpoint rfl, hname.ne_of_head hpoint rfl, Path.ofText_of_isName hname, ?_⟩
  · simpa [Identifier.isSafe, or_assoc] using hname.safe c hon
  · have hkept : Identifier.isTrimmed c = false := hat.elim (hname.first c) (hname.last c)
    simpa [Identifier.isTrimmed] using hkept
  · have hordinary := isOrdinary_fileName hname
    refine Path.ofText_of_noSlash ?_ ?_ (fileName_ne (by decide))
    · rw [String.toList_append, List.mem_append]
      rintro (hinName | hending)
      · exact hname.notMem rfl hinName
      · exact absurd hending (by decide)
    · exact fileName_ne (by decide)

/-- Where the files of a directory lie: a flow and the conversations of a tenant below the
directory, under storage keys.  Flows with different keys have different paths, none of them is a
path of conversations, and none is the path of a directory that a store makes. -/
structure LaysOut (dir : Path) : Prop where
  flow : ∀ tenant name : Value,
    let names := [Identifier.safeName tenant, "flows", Identifier.safeName name ++ ".json"]
    flowPath dir tenant name = dir.below names ∧
      (flowPath dir tenant name).flat = dir.flat.below names
  state : ∀ tenant : String,
    let names := ["state", Identifier.safeName (.str tenant) ++ ".json"]
    statePath dir tenant = dir.below names ∧ (statePath dir tenant).flat = dir.flat.below names
  stateOfKey : ∀ tenant : Value, statePath dir (Identifier.safeName tenant) =
    dir.below ["state", Identifier.safeName tenant ++ ".json"]
  flow_eq_iff : ∀ tenant name tenant' name' : Value,
    flowPath dir tenant name = flowPath dir tenant' name' ↔
      Identifier.safeName tenant = Identifier.safeName tenant' ∧
        Identifier.safeName name = Identifier.safeName name'
  flow_ne_state : ∀ (tenant name : Value) (tenant' : String),
    flowPath dir tenant name ≠ statePath dir tenant'
  ne_made : ∀ path, IsMade dir path → ∀ (tenant name : Value) (tenant' : String),
    path ≠ flowPath dir tenant name ∧ path ≠ statePath dir tenant'

theorem laysOut (dir : Path) : LaysOut dir where
  flow tenant name := by
    rw [flowPath_eq]
    exact ⟨rfl, flat_of_way dir (.flow (isOfFlow_flowKey tenant name))⟩
  state tenant := by
    rw [statePath_below]
    exact ⟨rfl, flat_of_way dir (.state (Identifier.isName_safeName _))⟩
  stateOfKey := statePath_safeName dir
  flow_eq_iff _ _ _ _ := flowPath_inj
  flow_ne_state := flowPath_ne_statePath dir
  ne_made path hmade tenant name tenant' :=
    ⟨hmade.ne_flowPath tenant name, hmade.ne_statePath tenant'⟩

/-- Opening the stores of a directory and running programs over them makes directories on the way to
the files only.  No file is replaced by one, in the tree of files too, unless the path of the
directory leads up. -/
structure MakesWays (dir : Path) (t : Traced Files) : Prop where
  openFlows : Grows (IsMade dir) t.state (openFlows dir t).2.state
  openConversations : Grows (IsMade dir) t.state (openConversations dir t).2.state
  run : ∀ {α : Type} (now : String) (p : Program α),
    Grows (IsMade dir) t.state (p.run (access now dir) Traced.log t).2.state
  noDirectory : (∀ part ∈ dir.parts, part ≠ "..") →
    ∀ {α : Type} (now : String) (p : Program α) (tenant name : Value) (tenant' : String) place,
      let files := (p.run (access now dir) Traced.log t).2.state
      files.place (flowPath dir tenant name) = .ok place ∨
          files.place (statePath dir tenant') = .ok place →
        files.node? place = some .directory → t.state.node? place = some .directory

theorem makesWays (dir : Path) (t : Traced Files) : MakesWays dir t where
  openFlows := grows_openFlows dir t
  openConversations := grows_openConversations dir t
  run now p := grows_run now dir p t
  noDirectory := by
    intro hdown _ now p tenant name tenant' place files hleads hdirectory
    rw [flowPath_eq, statePath_below] at hleads
    have hgrows := grows_run now dir p t
    rcases hleads with hleads | hleads
    · exact directory_before hdown hgrows (.flow (isOfFlow_flowKey tenant name)) hleads hdirectory
    · exact directory_before hdown hgrows (.state (Identifier.isName_safeName _)) hleads hdirectory

/-- Storage keys are canonical.  So all files lie below the directory of their store, flows with
different keys under different paths, none under a path of conversations, and none where the stores
make a directory. -/
theorem storage_paths_canonical : (∀ v : Value, IsCanonical (Identifier.safeName v)) ∧
    ∀ dir : Path, LaysOut dir ∧ ∀ t : Traced Files, MakesWays dir t :=
  ⟨isCanonical_safeName, fun dir => ⟨laysOut dir, makesWays dir⟩⟩

end Store.Directory

end Dialogue

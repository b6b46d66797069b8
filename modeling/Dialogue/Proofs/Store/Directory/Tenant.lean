import Dialogue.Proofs.Related
import Dialogue.Proofs.Store.Directory.Access
import Dialogue.Proofs.Store.Tenant

/-!
# The files of one tenant

A tenant sees four kinds of places below the directory of a store: its own directory, the directory
of its flows, the files of its flows and the file of its conversations (`Way`).  No two tenants see
the same place (`Way.beside`): the names of flow files and state files end as no name of a directory
of flows does, and only the directory of the conversations, which a tenant may be named like, is
there for all.

Files are *alike* for a tenant if they show it the same (`Alike`).  Every access of the tenant
agrees on files that are alike (`agrees_access`), and every access of another tenant spares what
the tenant sees (`spares_access`).
-/

namespace Dialogue.Store

open Keyed Files Run

namespace Directory

variable {dir path : Path} {base q : Place} {files files' : Files} {m : Memory}
  {tenant other name number : String} {names : List String}

theorem parent_flowNames (dir : Path) (key : Key) :
    (dir.below (flowNames key)).parent = dir.below [key.1, "flows"] := by
  simp [Path.below, Path.parent]

theorem parent_stateNames (dir : Path) (tenant : String) :
    (dir.below (stateNames tenant)).parent = stateDirectory dir := by
  simp [stateDirectory, Path.below, Path.parent]

/-! ## What is there for all tenants -/

/-- The directory of a store and the directory of its conversations are there. -/
structure Laid (dir : Path) (base : Place) (files : Files) : Prop where
  place : files.place dir = .ok base
  directory : files.node? base = some .directory
  statePlace : files.place (stateDirectory dir) = .ok (base ++ ["state"])
  stateMade : files.node? (base ++ ["state"]) = some .directory

theorem Shows.laid (hshows : Shows dir base files m) : Laid dir base files :=
  ⟨hshows.place, hshows.directory, hshows.statePlace, hshows.stateMade⟩

theorem Laid.set (hlaid : Laid dir base files) (hfree : files.node? q ≠ some .directory)
    (node : Node) : Laid dir base (files.set q node) :=
  have hgrows := extends_set hfree node
  ⟨hgrows.place hlaid.place, hgrows _ hlaid.directory, hgrows.place hlaid.statePlace,
    hgrows _ hlaid.stateMade⟩

/-! ## What a tenant sees -/

/-- The ways from the directory of a store to what a tenant sees. -/
inductive Way (tenant : String) : List String → Prop where
  | tenant : Way tenant [tenant]
  | flows : Way tenant [tenant, "flows"]
  | flow {name : String} (isName : Identifier.IsName name) : Way tenant (flowNames (tenant, name))
  | state : Way tenant (stateNames tenant)

theorem Way.ordinary (hway : Way tenant names) (hname : Identifier.IsName tenant) :
    ∀ part ∈ names, IsOrdinary part := by
  cases hway with
  | tenant => simp [isOrdinary_of_isName hname]
  | flows => simp [isOrdinary_of_isName hname, isOrdinary_flows]
  | flow hname' => exact isOrdinary_flowPath ⟨hname, hname'⟩
  | state => simp [isOrdinary_state, isOrdinary_fileName hname]

/-- Files show a tenant the same. -/
structure Alike (dir : Path) (base : Place) (tenant : String) (files files' : Files) : Prop where
  laid : Laid dir base files
  laid' : Laid dir base files'
  tenantNode : files.node? (base ++ [tenant]) = files'.node? (base ++ [tenant])
  flowsNode : files.node? (base ++ [tenant, "flows"]) = files'.node? (base ++ [tenant, "flows"])
  stateNode : files.node? (base ++ stateNames tenant) = files'.node? (base ++ stateNames tenant)
  flows : pick (flowFile base tenant) files = pick (flowFile base tenant) files'

/-- A tenant does not see a place. -/
structure Beside (base : Place) (tenant : String) (q : Place) : Prop where
  tenantNode : base ++ [tenant] ≠ q
  flowsNode : base ++ [tenant, "flows"] ≠ q
  stateNode : base ++ stateNames tenant ≠ q
  flows : flowFile base tenant q = none

theorem Way.beside (hway : Way other names) (hdifferent : other ≠ tenant) :
    Beside base tenant (base ++ names) := by
  have hflows : ∀ name, fileName name ≠ "flows" := fun name => fileName_ne (by decide)
  cases hway with
  | tenant => exact ⟨by simp [hdifferent.symm], by simp, by simp, flowFile_one _ _ _⟩
  | flows =>
    exact ⟨by simp, by simp [hdifferent.symm], by simp [hflows], flowFile_two _ _ _ _⟩
  | flow hname => exact ⟨by simp, by simp, by simp, flowFile_of_ne base hdifferent _⟩
  | state =>
    exact ⟨by simp, by simp [(hflows _).symm], by simp [fileName_inj, hdifferent.symm],
      flowFile_two _ _ _ _⟩

namespace Alike

variable (halike : Alike dir base tenant files files')

include halike

theorem set (hfree : files.node? q ≠ some .directory) (hfree' : files'.node? q ≠ some .directory)
    (node : Node) : Alike dir base tenant (files.set q node) (files'.set q node) := by
  have hsame : ∀ p, files.node? p = files'.node? p →
      Files.node? (Keyed.set files q node) p = Files.node? (Keyed.set files' q node) p := by
    intro p hsame
    by_cases hthere : p = q
    · subst hthere
      rw [node?_set_self hfree, node?_set_self hfree']
    · rw [node?_set_of_ne hthere, node?_set_of_ne hthere, hsame]
  refine ⟨halike.laid.set hfree node, halike.laid'.set hfree' node, hsame _ halike.tenantNode,
    hsame _ halike.flowsNode, hsame _ halike.stateNode, ?_⟩
  exact pick_set_congr (picks_flowFile base tenant) halike.flows q node

/-- A change that the tenant does not see leaves alike what was. -/
theorem set_beside (hfree : files.node? q ≠ some .directory) (hbeside : Beside base tenant q)
    (node : Node) : Alike dir base tenant (files.set q node) files' where
  laid := halike.laid.set hfree node
  laid' := halike.laid'
  tenantNode := (node?_set_of_ne hbeside.tenantNode node).trans halike.tenantNode
  flowsNode := (node?_set_of_ne hbeside.flowsNode node).trans halike.flowsNode
  stateNode := (node?_set_of_ne hbeside.stateNode node).trans halike.stateNode
  flows := (pick_set_of_none hbeside.flows files node).trans halike.flows

theorem node?_eq (hway : Way tenant names) :
    files.node? (base ++ names) = files'.node? (base ++ names) := by
  cases hway with
  | tenant => exact halike.tenantNode
  | flows => exact halike.flowsNode
  | state => exact halike.stateNode
  | @flow name hname =>
    have hsame := congrArg (fun entries => Keyed.get? entries (fileName name)) halike.flows
    have hknown := flowFile_self base tenant (fileName name)
    simp only [get?_pick (picks_flowFile base tenant) hknown] at hsame
    have hchild : ∀ files : Files,
        files.node? (base ++ flowNames (tenant, name)) = files.get? _ := fun files => by
      have hchild : files.node? (base ++ [tenant, "flows"] ++ [fileName name]) = _ :=
        node?_child (isOrdinary_fileName hname)
      simpa using hchild
    rw [hchild, hchild, hsame]

theorem place_eq (hway : Way tenant names) (hname : Identifier.IsName tenant) :
    files.place (dir.below names) = files'.place (dir.below names) := by
  have hnoNul := noNul_below (isLegible_of_place halike.laid.place).noNul (hway.ordinary hname)
  by_cases hlegible : IsLegible (dir.below names)
  · rw [place_below halike.laid.place hlegible, place_below halike.laid'.place hlegible]
    have hfirst := step_of_isOrdinary (p := base) (isOrdinary_of_isName hname)
    have hsecond := step_of_isOrdinary (p := base ++ [tenant]) isOrdinary_flows
    have hflowsNode := halike.flowsNode
    rw [show base ++ [tenant, "flows"] = base ++ [tenant] ++ ["flows"] by simp] at hflowsNode
    have hstate := step_of_isOrdinary (p := base) isOrdinary_state
    cases hway with
    | tenant => simp only [follow, halike.laid.directory, halike.laid'.directory]
    | flows =>
      simp only [follow, halike.laid.directory, halike.laid'.directory, hfirst, halike.tenantNode]
    | flow hname' =>
      simp only [follow, halike.laid.directory, halike.laid'.directory, hfirst, hsecond,
        halike.tenantNode, hflowsNode]
    | state =>
      simp only [follow, halike.laid.directory, halike.laid'.directory, hstate,
        halike.laid.stateMade, halike.laid'.stateMade]
  · rw [place_of_not_isLegible files hnoNul hlegible, place_of_not_isLegible files' hnoNul hlegible]

theorem eq_of_place (hway : Way tenant names) (hname : Identifier.IsName tenant)
    (hleads : files.place (dir.below names) = .ok q) : q = base ++ names := by
  rw [place_below halike.laid.place (isLegible_of_place hleads)] at hleads
  exact eq_of_follow (hway.ordinary hname) hleads

theorem find?_eq (hway : Way tenant names) (hname : Identifier.IsName tenant) :
    files.find? (dir.below names) = files'.find? (dir.below names) := by
  have hplace := halike.place_eq hway hname
  rw [find?, find?, ← hplace]
  cases hleads : files.place (dir.below names) with
  | error fault => cases fault <;> rfl
  | ok q =>
    show Except.ok (files.node? q) = .ok (files'.node? q)
    rw [halike.eq_of_place hway hname hleads, halike.node?_eq hway]

theorem content?_eq (hway : Way tenant names) (hname : Identifier.IsName tenant) :
    files.content? (dir.below names) = files'.content? (dir.below names) := by
  rw [content?, content?, halike.find?_eq hway hname]

theorem names_eq (hname : Identifier.IsName tenant) :
    files.names (dir.below [tenant, "flows"]) = files'.names (dir.below [tenant, "flows"]) := by
  have hplace := halike.place_eq .flows hname
  have hlisted := congrArg keys halike.flows
  rw [keys_pick, keys_pick, keys, keys, List.filterMap_map, List.filterMap_map] at hlisted
  rw [Files.names, Files.names, ← halike.find?_eq .flows hname, ← hplace]
  rcases files.find? (dir.below [tenant, "flows"]) with fault | _ | node
  · rfl
  · rfl
  · cases node with
    | file content => rfl
    | directory =>
      cases hleads : files.place (dir.below [tenant, "flows"]) with
      | error fault => rfl
      | ok q =>
        obtain rfl := halike.eq_of_place .flows hname hleads
        exact congrArg Except.ok hlisted

end Alike

/-! ## What accesses are made of -/

/-- A property of what the accesses of a tenant are made of: reading and writing the files that the
tenant sees, one by one, and listing its flows. -/
structure Handles (K : {α : Type} → Run (Traced Files) α → Prop) (now : String) (dir : Path)
    (tenant : String) : Prop where
  composes : Composes K
  note (e : Event) : K (Run.note e)
  readFlow (t name : Value) : Identifier.safeName t = tenant → K (readJson (flowPath dir t name))
  createFlow (t name v : Value) : Identifier.safeName t = tenant →
    K (createJson (flowPath dir t name) v)
  writeFlow (t name v : Value) : Identifier.safeName t = tenant →
    K (writeJson (flowPath dir t name) v)
  listFlows (t : Value) : Identifier.safeName t = tenant → K (access now dir (.listFlows t))
  readState : K (readJson (statePath dir tenant))
  writeState (v : Value) : K (writeJson (statePath dir tenant) v)

section

variable {K : {α : Type} → Run (Traced Files) α → Prop} {now : String}

theorem readState_of_composes (hcomposes : Composes K) (hnote : ∀ e, K (Run.note e))
    (hread : K (readJson (statePath dir tenant))) : K (Directory.readState dir tenant) := by
  refine hcomposes.bind hread fun found => ?_
  split
  · exact hcomposes.pure _
  · exact hcomposes.bind (hnote _) fun _ => hcomposes.pure _
  · exact hcomposes.pure _
  · exact hcomposes.pure _

/-- Loading a flow is reading its file, and logging that it cannot be. -/
theorem loadFlow_of_composes (hcomposes : Composes K) (hnote : ∀ e, K (Run.note e)) {t name : Value}
    (hread : K (readJson (flowPath dir t name))) :
    K (Directory.access now dir (.loadFlow t name)) := by
  obtain ⟨hpure, hfail, hbind⟩ := hcomposes
  refine hbind hread fun found => ?_
  have hunreadable (e : Event) : K (do Run.note e; return (none : Option Flow)) :=
    hbind (hnote e) fun _ => hpure none
  cases found with
  | absent => exact hpure none
  | unreadable => exact hunreadable _
  | value v =>
    cases hread : Flow.ofValue now v with
    | ok flow =>
      simp only [hread]
      exact hpure (some flow)
    | error mismatch =>
      simp only [hread]
      exact hunreadable _

variable (handles : Handles K now dir tenant)

include handles

theorem Handles.state : K (Directory.readState dir tenant) :=
  readState_of_composes handles.composes handles.note handles.readState

theorem Handles.access (a : Access) (hof : a.IsOf tenant) : K (Directory.access now dir a) := by
  obtain ⟨hpure, hfail, hbind⟩ := handles.composes
  cases a with
  | loadFlow t name =>
    exact loadFlow_of_composes handles.composes handles.note (handles.readFlow t name hof)
  | createFlow t flow => exact handles.createFlow t _ _ hof
  | writeFlow t flow => exact hbind (handles.writeFlow t _ _ hof) fun _ => hpure _
  | listFlows t => exact handles.listFlows t hof
  | locateFlow t name => exact hpure _
  | fetchConversation t number =>
    obtain rfl : t = tenant := hof
    refine hbind handles.state fun state => ?_
    split <;> exact hpure _
  | putConversation t number doc =>
    obtain rfl : t = tenant := hof
    exact hbind handles.state fun state => handles.writeState _
  | deleteConversation t number =>
    obtain rfl : t = tenant := hof
    refine hbind handles.state fun state => ?_
    split
    · exact hbind (handles.writeState _) fun _ => hpure true
    · exact hpure false
  | listConversations t =>
    obtain rfl : Identifier.safeName t = tenant := hof
    exact hbind handles.state fun state => hpure _

end

/-! ## What a tenant does -/

/-- A file is read alike where its content is the same. -/
theorem agrees_readJson_of_content {R : Files → Files → Prop}
    (hsame : ∀ files files', R files files' → files.content? path = files'.content? path) :
    Agrees (Silent R) (readJson path) := by
  rintro ⟨files, events⟩ ⟨files', events'⟩ hrelated
  rw [readJson_of_content (hsame _ _ hrelated), readJson_of_content rfl]
  refine ((composes_agrees _).ofExcept _ _).bind (fun found => ?_) _ _ hrelated
  split
  · exact agrees_pure _
  · split <;> exact agrees_pure _
  · exact agrees_pure _

theorem ensureDirectory_of_file {content : Content} (hleads : files.place path = .ok q)
    (hlies : files.node? q = some (.file content)) :
    ensureDirectory path files = (.error (.files .occupied), files) := by
  simp [ensureDirectory, makeDirectory, isDirectory, find?, hleads, hlies]

/-- The way to a file is made. -/
theorem agrees_prepare
    (hensures : Agrees (Alike dir base tenant) (ensureDirectories path.parent)) :
    Agrees (Alike dir base tenant) (prepare path) := by
  refine hensures.bind fun _ => ?_
  split
  · exact agrees_fail _
  · exact agrees_pure _

section

variable (hname : Identifier.IsName tenant)

include hname

theorem agrees_ensureDirectory (hway : Way tenant names) :
    Agrees (Alike dir base tenant) (Files.ensureDirectory (dir.below names)) := by
  intro files files' halike
  have hplace := halike.place_eq hway hname
  cases hleads : files.place (dir.below names) with
  | error fault =>
    rw [ensureDirectory_of_error hleads, ensureDirectory_of_error (hplace ▸ hleads)]
    exact ⟨rfl, halike⟩
  | ok q =>
    have hleads' : files'.place (dir.below names) = .ok q := hplace ▸ hleads
    have hsame := halike.node?_eq hway
    rw [← halike.eq_of_place hway hname hleads] at hsame
    cases hlies : files.node? q with
    | none =>
      have hlies' : files'.node? q = none := hsame.symm.trans hlies
      rw [ensureDirectory_of_nothing hleads hlies, ensureDirectory_of_nothing hleads' hlies']
      exact ⟨rfl, halike.set (by simp [hlies]) (by simp [hlies']) _⟩
    | some node =>
      have hlies' : files'.node? q = some node := hsame.symm.trans hlies
      cases node with
      | directory =>
        rw [ensureDirectory_of_directory hleads hlies, ensureDirectory_of_directory hleads' hlies']
        exact ⟨rfl, halike⟩
      | file content =>
        rw [ensureDirectory_of_file hleads hlies, ensureDirectory_of_file hleads' hlies']
        exact ⟨rfl, halike⟩

theorem ensureDirectories_tenant (hlaid : Laid dir base files) :
    ensureDirectories (dir.below [tenant]) files = ensureDirectory (dir.below [tenant]) files := by
  refine ensureDirectories_of_ne_absent (by simp [Path.below]) ?_
  rcases place_child hlaid.place hlaid.directory (isOrdinary_of_isName hname) with hleads |
    ⟨hlong, -⟩
  · simp [hleads]
  · simp [hlong]

theorem agrees_ensureFlows :
    Agrees (Alike dir base tenant) (ensureDirectories (dir.below [tenant, "flows"])) := by
  intro files files' halike
  have hplace := halike.place_eq .flows hname
  have hlower : Agrees (Alike dir base tenant) (ensureDirectory (dir.below [tenant, "flows"])) :=
    agrees_ensureDirectory hname .flows
  by_cases hmissing : files.place (dir.below [tenant, "flows"]) = .error .absent
  · have hmissing' : files'.place (dir.below [tenant, "flows"]) = .error .absent :=
      hplace ▸ hmissing
    have hupper : Agrees (Alike dir base tenant) (ensureDirectories (dir.below [tenant])) := by
      intro files files' halike
      rw [ensureDirectories_tenant hname halike.laid, ensureDirectories_tenant hname halike.laid']
      exact agrees_ensureDirectory hname .tenant files files' halike
    have hsplit : dir.below [tenant, "flows"] = (dir.below [tenant]).below ["flows"] := by simp
    rw [hsplit] at hmissing hmissing' hlower ⊢
    rw [ensureDirectories_of_absent hmissing, ensureDirectories_of_absent hmissing']
    exact hupper.bind (fun _ => hlower) files files' halike
  · have hthere : files'.place (dir.below [tenant, "flows"]) ≠ .error .absent := hplace ▸ hmissing
    rw [ensureDirectories_of_ne_absent (by simp [Path.below]) hmissing,
      ensureDirectories_of_ne_absent (by simp [Path.below]) hthere]
    exact hlower files files' halike

theorem agrees_write (hway : Way tenant names) (content : Content) :
    Agrees (Alike dir base tenant)
      (Files.apply fun files => files.write (dir.below names) content) := by
  intro files files' halike
  have hplace := halike.place_eq hway hname
  cases hleads : files.place (dir.below names) with
  | error fault =>
    have hleads' : files'.place (dir.below names) = .error fault := hplace ▸ hleads
    simp only [Files.apply, Files.write, hleads, hleads']
    exact ⟨trivial, halike⟩
  | ok q =>
    have hleads' : files'.place (dir.below names) = .ok q := hplace ▸ hleads
    have hsame := halike.node?_eq hway
    rw [← halike.eq_of_place hway hname hleads] at hsame
    by_cases hdirectory : files.node? q = some .directory
    · have hdirectory' : files'.node? q = some .directory := hsame ▸ hdirectory
      simp only [Files.apply, Files.write, hleads, hleads', hdirectory, hdirectory']
      exact ⟨trivial, halike⟩
    · have hfree' : files'.node? q ≠ some .directory := hsame ▸ hdirectory
      simp only [Files.apply, write_of_place hleads hdirectory, write_of_place hleads' hfree']
      exact ⟨trivial, halike.set hdirectory hfree' _⟩

theorem agrees_writeJson (hway : Way tenant names)
    (hensures : Agrees (Alike dir base tenant) (ensureDirectories (dir.below names).parent))
    (v : Value) : Agrees (Silent (Alike dir base tenant)) (writeJson (dir.below names) v) :=
  ((agrees_prepare hensures).bind fun _ => agrees_write hname hway _).silently

theorem agrees_createJson (hway : Way tenant names)
    (hensures : Agrees (Alike dir base tenant) (ensureDirectories (dir.below names).parent))
    (v : Value) : Agrees (Silent (Alike dir base tenant)) (createJson (dir.below names) v) := by
  refine ((agrees_prepare hensures).bind fun _ => ?_).silently
  intro files files' halike
  rw [Run.bind_ok (Run.get_apply files), Run.bind_ok (Run.get_apply files'),
    ← halike.find?_eq hway hname]
  have hwrites : Agrees (Alike dir base tenant) (do
      Files.apply fun files => files.write (dir.below names) (.text (Json.pretty v))
      return true) :=
    (agrees_write hname hway _).bind fun _ => agrees_pure true
  cases files.find? (dir.below names) with
  | error fault => exact ⟨rfl, halike⟩
  | ok found =>
    cases found with
    | none => exact hwrites files files' halike
    | some node => exact ⟨rfl, halike⟩

theorem agrees_readJson (hway : Way tenant names) :
    Agrees (Silent (Alike dir base tenant)) (readJson (dir.below names)) :=
  agrees_readJson_of_content fun _ _ halike => halike.content?_eq hway hname

theorem agrees_ensureParent (key : Key) (hown : key.1 = tenant) :
    Agrees (Alike dir base tenant) (ensureDirectories (dir.below (flowNames key)).parent) := by
  rw [parent_flowNames, hown]
  exact agrees_ensureFlows hname

theorem agrees_writeState (v : Value) :
    Agrees (Silent (Alike dir base tenant)) (writeJson (statePath dir tenant) v) := by
  rw [statePath_eq dir hname]
  refine agrees_writeJson hname .state (fun files files' halike => ?_) v
  rw [parent_stateNames, ensureDirectories_of_directory halike.laid.statePlace
    halike.laid.stateMade,
    ensureDirectories_of_directory halike.laid'.statePlace halike.laid'.stateMade]
  exact ⟨rfl, halike⟩

theorem agrees_access (now : String) (a : Access) (hof : a.IsOf tenant) :
    Agrees (Silent (Alike dir base tenant)) (access now dir a) := by
  have handles : Handles (fun {_} m => Agrees (Silent (Alike dir base tenant)) m) now dir tenant :=
    { composes := composes_agrees _
      note := agrees_note
      readFlow := by
        rintro t name rfl
        rw [flowPath_eq]
        exact agrees_readJson hname (.flow (Identifier.isName_safeName name))
      createFlow := by
        rintro t name v rfl
        rw [flowPath_eq]
        exact agrees_createJson hname (.flow (Identifier.isName_safeName name))
          (agrees_ensureParent hname _ rfl) v
      writeFlow := by
        rintro t name v rfl
        rw [flowPath_eq]
        exact agrees_writeJson hname (.flow (Identifier.isName_safeName name))
          (agrees_ensureParent hname _ rfl) v
      listFlows := by
        rintro t rfl ⟨files, events⟩ ⟨files', events'⟩ halike
        rw [access, Run.read_bind, Run.read_bind, flowsPath, halike.names_eq hname]
        exact ((composes_agrees _).ofExcept _ _).bind (fun _ => agrees_pure _) _ _ halike
      readState := by
        rw [statePath_eq dir hname]
        exact agrees_readJson hname .state
      writeState := agrees_writeState hname }
  exact handles.access a hof

end

/-! ## What other tenants do -/

theorem snd_readJson (path : Path) (t : Traced Files) : (readJson path t).2 = t := by
  obtain ⟨files, events⟩ := t
  rw [readJson_of_content rfl]
  rcases files.content? path with fault | found
  · rfl
  · rw [Run.bind_ok (Run.ofExcept_ok _ found _)]
    split
    · rfl
    · rename_i text
      cases Json.read text <;> rfl
    · rfl

/-- The way to a file of another tenant is made. -/
theorem spares_prepare
    (hensures : Spares (Alike dir base tenant) (ensureDirectories path.parent)) :
    Spares (Alike dir base tenant) (prepare path) := by
  refine hensures.bind fun _ => ?_
  split <;> exact spares_of_eq fun _ => rfl

section

variable (hname : Identifier.IsName other) (hdifferent : other ≠ tenant)

include hname hdifferent

/-- What lies where a way of another tenant leads is not seen. -/
theorem Alike.set_other (halike : Alike dir base tenant files files') (hway : Way other names)
    (hleads : files.place (dir.below names) = .ok q) (hfree : files.node? q ≠ some .directory)
    (node : Node) : Alike dir base tenant (files.set q node) files' := by
  rw [place_below halike.laid.place (isLegible_of_place hleads)] at hleads
  obtain rfl := eq_of_follow (hway.ordinary hname) hleads
  exact halike.set_beside hfree (hway.beside hdifferent) node

theorem spares_ensureDirectory (hway : Way other names) :
    Spares (Alike dir base tenant) (Files.ensureDirectory (dir.below names)) := by
  intro files files' halike
  cases hleads : files.place (dir.below names) with
  | error fault =>
    rw [ensureDirectory_of_error hleads]
    exact halike
  | ok q =>
    cases hlies : files.node? q with
    | none =>
      rw [ensureDirectory_of_nothing hleads hlies]
      exact halike.set_other hname hdifferent hway hleads (by simp [hlies]) _
    | some node =>
      cases node with
      | directory =>
        rw [ensureDirectory_of_directory hleads hlies]
        exact halike
      | file content =>
        rw [ensureDirectory_of_file hleads hlies]
        exact halike

theorem spares_ensureParent (key : Key) (hown : key.1 = other) :
    Spares (Alike dir base tenant) (ensureDirectories (dir.below (flowNames key)).parent) := by
  intro files files' halike
  rw [parent_flowNames, hown]
  have hlower : Spares (Alike dir base tenant) (ensureDirectory (dir.below [other, "flows"])) :=
    spares_ensureDirectory hname hdifferent .flows
  by_cases hmissing : files.place (dir.below [other, "flows"]) = .error .absent
  · have hupper : Spares (Alike dir base tenant) (ensureDirectories (dir.below [other])) := by
      intro files files' halike
      rw [ensureDirectories_tenant hname halike.laid]
      exact spares_ensureDirectory hname hdifferent .tenant files files' halike
    have hsplit : dir.below [other, "flows"] = (dir.below [other]).below ["flows"] := by simp
    rw [hsplit] at hmissing hlower ⊢
    rw [ensureDirectories_of_absent hmissing]
    exact hupper.bind (fun _ => hlower) files files' halike
  · rw [ensureDirectories_of_ne_absent (by simp [Path.below]) hmissing]
    exact hlower files files' halike

theorem spares_write (hway : Way other names) (content : Content) :
    Spares (Alike dir base tenant)
      (Files.apply fun files => files.write (dir.below names) content) := by
  intro files files' halike
  cases hwritten : files.write (dir.below names) content with
  | error fault =>
    simp only [Files.apply, hwritten]
    exact halike
  | ok changed =>
    simp only [Files.apply, hwritten]
    obtain ⟨q, hleads, hfree, rfl⟩ := exists_of_write hwritten
    exact halike.set_other hname hdifferent hway hleads hfree _

theorem spares_writeJson (hway : Way other names)
    (hensures : Spares (Alike dir base tenant) (ensureDirectories (dir.below names).parent))
    (v : Value) : Spares (Silent (Alike dir base tenant)) (writeJson (dir.below names) v) :=
  ((spares_prepare hensures).bind fun _ => spares_write hname hdifferent hway _).silently

theorem spares_createJson (hway : Way other names)
    (hensures : Spares (Alike dir base tenant) (ensureDirectories (dir.below names).parent))
    (v : Value) : Spares (Silent (Alike dir base tenant)) (createJson (dir.below names) v) := by
  refine ((spares_prepare hensures).bind fun _ => (spares_of_eq fun _ => rfl).bind fun found => ?_)
    |>.silently
  split
  · exact (spares_write hname hdifferent hway _).bind fun _ => spares_of_eq fun _ => rfl
  · exact spares_of_eq fun _ => rfl

theorem spares_writeState (v : Value) :
    Spares (Silent (Alike dir base tenant)) (writeJson (statePath dir other) v) := by
  rw [statePath_eq dir hname]
  refine spares_writeJson hname hdifferent .state (fun files files' halike => ?_) v
  rw [parent_stateNames,
    ensureDirectories_of_directory halike.laid.statePlace halike.laid.stateMade]
  exact halike

theorem spares_access (now : String) (a : Access) (hof : a.IsOf other) :
    Spares (Silent (Alike dir base tenant)) (access now dir a) := by
  have handles : Handles (fun {_} m => Spares (Silent (Alike dir base tenant)) m) now dir other :=
    { composes := composes_spares _
      note := spares_note
      readFlow := fun _ _ _ => spares_of_eq (snd_readJson _)
      createFlow := by
        rintro t name v rfl
        rw [flowPath_eq]
        exact spares_createJson hname hdifferent (.flow (Identifier.isName_safeName name))
          (spares_ensureParent hname hdifferent _ rfl) v
      writeFlow := by
        rintro t name v rfl
        rw [flowPath_eq]
        exact spares_writeJson hname hdifferent (.flow (Identifier.isName_safeName name))
          (spares_ensureParent hname hdifferent _ rfl) v
      listFlows := fun t _ => spares_of_eq fun s => by
        rw [access, Run.read_bind]
        cases s.state.names (flowsPath dir t) <;> rfl
      readState := spares_of_eq (snd_readJson _)
      writeState := spares_writeState hname hdifferent }
  exact handles.access a hof

end

end Directory

end Dialogue.Store

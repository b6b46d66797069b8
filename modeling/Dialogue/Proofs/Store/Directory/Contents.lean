import Dialogue.Proofs.Files.Making
import Dialogue.Proofs.Json.RoundTrip
import Dialogue.Proofs.Store.Mirror
import Dialogue.Store.Directory

/-!
# What the files of a store show

Below the directory of a store, every tenant has one file for each flow and one file for all its
conversations.  The files of the flows of a tenant are, in their order, the flows of the tenant in
the contents, and the file of the conversations holds the conversations of the tenant in the
contents (`Directory.Shows`).

A directory that is made on the way shows nothing (`Shows.make`); a file that is written shows the
flow or the conversations that it holds (`Shows.writeFlow`, `Shows.writeState`).
-/

namespace Dialogue.Store

open Keyed Files

namespace Directory

/-- The name of a file that holds a document. -/
def fileName (name : String) : String := name ++ ".json"

/-- A file below a directory can be written: neither its names nor its path are too long. -/
def Accepts (dir : Path) (names : List String) : Prop :=
  isTooLong (dir.below names) = false ∧ ∀ name ∈ names, name.utf8ByteSize ≤ maxName

/-- The names on the way to the file of a flow. -/
abbrev flowNames (key : Key) : List String := [key.1, "flows", fileName key.2]

/-- The names on the way to the file of the conversations of a tenant. -/
abbrev stateNames (tenant : String) : List String := ["state", fileName tenant]

theorem flowPath_eq (dir : Path) (tenant name : Value) :
    flowPath dir tenant name = dir.below (flowNames (flowKey tenant name)) := by
  simp [flowPath, flowsPath, flowNames, flowKey, fileName]

theorem statePath_eq (dir : Path) {tenant : String} (hname : Identifier.IsName tenant) :
    statePath dir tenant = dir.below (stateNames tenant) := by
  simp [statePath, stateDirectory, stateNames, fileName, Identifier.safeName_of_isName hname]

end Directory

/-- The file system accepts the names that an access leads to. -/
def Access.SuitsFiles (dir : Path) : Access → Prop
  | .loadFlow tenant name => Directory.Accepts dir (Directory.flowNames (flowKey tenant name))
  | .createFlow tenant flow | .writeFlow tenant flow =>
    Directory.Accepts dir (Directory.flowNames (flowKey tenant (.str flow.name)))
  | .listFlows tenant => Directory.Accepts dir [Identifier.safeName tenant, "flows"]
  | .locateFlow _ _ => True
  | .fetchConversation tenant _ | .putConversation tenant _ _ | .deleteConversation tenant _ =>
    Directory.Accepts dir (Directory.stateNames tenant)
  | .listConversations tenant =>
    Directory.Accepts dir (Directory.stateNames (Identifier.safeName tenant))

namespace Directory

/-! ## Names -/

theorem isOrdinary_of_isName {name : String} (hname : Identifier.IsName name) :
    IsOrdinary name where
  notUp := hname.ne_of_head (show Identifier.isTrimmed '.' = true from rfl) rfl
  notRoot := by
    rintro rfl
    exact hname.notMem (c := '/') rfl (by decide)
  legible := hname.notMem rfl

theorem isOrdinary_flows : IsOrdinary "flows" where
  notUp := by decide
  notRoot := by decide
  legible := by decide

theorem isOrdinary_state : IsOrdinary "state" where
  notUp := by decide
  notRoot := by decide
  legible := by decide

theorem getLast?_fileName (name : String) : (fileName name).toList.getLast? = some 'n' := by
  rw [fileName, String.toList_append, show (".json" : String).toList = ['.', 'j', 's', 'o', 'n']
    from rfl]
  simp

theorem fileName_ne {name other : String} (hlast : other.toList.getLast? ≠ some 'n') :
    fileName name ≠ other := by
  rintro rfl
  exact hlast (getLast?_fileName name)

theorem fileName_inj {name other : String} : fileName name = fileName other ↔ name = other := by
  rw [fileName, fileName]
  exact String.append_left_inj _

theorem isOrdinary_fileName {name : String} (hname : Identifier.IsName name) :
    IsOrdinary (fileName name) where
  notUp := fileName_ne (by decide)
  notRoot := fileName_ne (by decide)
  legible := by
    rw [fileName, String.toList_append, List.mem_append]
    rintro (hinName | hending)
    · exact hname.notMem rfl hinName
    · exact absurd hending (by decide)

/-! ## What the files show -/

/-- The file name of a flow of a tenant; none for the flows of others. -/
def flowOf (tenant : String) : Key → Option String := fun key =>
  if key.1 = tenant then some (fileName key.2) else none

/-- The number of a conversation of a tenant; none for the conversations of others. -/
def numberOf (tenant : String) : Key → Option String := fun key =>
  if key.1 = tenant then some key.2 else none

/-- The name of a file among the flows of a tenant; none for other files. -/
def flowFile (base : Place) (tenant : String) : Place → Option String := fun p =>
  if p.dropLast = base ++ [tenant, "flows"] then p.getLast? else none

/-- The file of a document. -/
def fileOf (v : Value) : Node := .file (.text (Json.pretty v))

/-- The document that the file of the conversations of a tenant holds. -/
def stateOf (m : Memory) (tenant : String) : Fields := pick (numberOf tenant) m.conversations

/-- The files below the place of a directory show contents. -/
structure Shows (dir : Path) (base : Place) (files : Files) (m : Memory) : Prop where
  place : files.place dir = .ok base
  directory : files.node? base = some .directory
  statePlace : files.place (stateDirectory dir) = .ok (base ++ ["state"])
  stateMade : files.node? (base ++ ["state"]) = some .directory
  tenants : ∀ {tenant}, Identifier.IsName tenant →
    files.node? (base ++ [tenant]) = none ∨ files.node? (base ++ [tenant]) = some .directory
  flowDirectories : ∀ {tenant}, Identifier.IsName tenant →
    files.node? (base ++ [tenant, "flows"]) = none ∨
      files.node? (base ++ [tenant, "flows"]) = some .directory
  flows : ∀ {tenant}, Identifier.IsName tenant →
    pick (flowFile base tenant) files = mapValues fileOf (pick (flowOf tenant) m.flows)
  flowPlaces : ∀ {tenant name}, (tenant, name) ∈ keys m.flows →
    files.place (dir.below (flowNames (tenant, name))) = .ok (base ++ flowNames (tenant, name))
  states : ∀ {tenant}, Identifier.IsName tenant →
    files.node? (base ++ stateNames tenant) = none ∧ stateOf m tenant = [] ∨
      files.node? (base ++ stateNames tenant) = some (fileOf (.dict (stateOf m tenant)))
  statePlaces : ∀ {tenant number}, (tenant, number) ∈ keys m.conversations →
    files.place (dir.below (stateNames tenant)) = .ok (base ++ stateNames tenant)

variable {dir : Path} {base : Place} {files : Files} {m : Memory} {tenant name : String}

theorem picks_flowOf (tenant : String) : Picks (flowOf tenant) := by
  rintro ⟨t, n⟩ ⟨t', n'⟩ c
  simp only [flowOf]
  split <;> split <;> simp_all
  rintro rfl hsame
  exact (fileName_inj.1 hsame).symm

theorem picks_numberOf (tenant : String) : Picks (numberOf tenant) := by
  rintro ⟨t, n⟩ ⟨t', n'⟩ c
  simp only [numberOf]
  split <;> split <;> simp_all

theorem eq_of_getLast? {p : Place} {part : String} (hlast : p.getLast? = some part) :
    p = p.dropLast ++ [part] := by
  have hnonempty : p ≠ [] := by
    rintro rfl
    simp at hlast
  rw [List.getLast?_eq_some_getLast hnonempty, Option.some.injEq] at hlast
  rw [← hlast, List.dropLast_concat_getLast]

theorem picks_flowFile (base : Place) (tenant : String) : Picks (flowFile base tenant) := by
  intro p q c
  simp only [flowFile]
  split
  · rename_i habove
    split
    · rename_i habove'
      intro hlast hlast'
      rw [eq_of_getLast? hlast, eq_of_getLast? hlast', habove, habove']
    · simp
  · simp

theorem flowOf_self (tenant name : String) :
    flowOf tenant (tenant, name) = some (fileName name) := if_pos rfl

theorem flowOf_of_ne {other : String} (hdifferent : other ≠ tenant) (name : String) :
    flowOf tenant (other, name) = none := if_neg hdifferent

theorem numberOf_self (tenant number : String) :
    numberOf tenant (tenant, number) = some number := if_pos rfl

theorem numberOf_of_ne {other : String} (hdifferent : other ≠ tenant) (number : String) :
    numberOf tenant (other, number) = none := if_neg hdifferent

theorem flowFile_self (base : Place) (tenant file : String) :
    flowFile base tenant (base ++ [tenant, "flows", file]) = some file := by
  simp [flowFile, List.dropLast_append_of_ne_nil]

theorem flowFile_of_ne (base : Place) {other : String} (hdifferent : other ≠ tenant)
    (file : String) : flowFile base tenant (base ++ [other, "flows", file]) = none := by
  simp [flowFile, List.dropLast_append_of_ne_nil, hdifferent]

theorem flowFile_one (base : Place) (tenant part : String) :
    flowFile base tenant (base ++ [part]) = none := by
  simp [flowFile]

theorem flowFile_two (base : Place) (tenant a b : String) :
    flowFile base tenant (base ++ [a, b]) = none := by
  simp [flowFile, List.dropLast_append_of_ne_nil]

/-- Below the directory lies nothing but the directory of the conversations. -/
def IsEmptyAt (dir : Path) (files : Files) : Prop :=
  ∀ base, files.place dir = .ok base →
    ∀ names, names ≠ [] → names ≠ ["state"] → files.get? (base ++ names) = none

/-- The files of a store that was just made show nothing. -/
theorem shows_of_isEmptyAt (hplace : files.place dir = .ok base)
    (hdirectory : files.node? base = some .directory)
    (hstatePlace : files.place (stateDirectory dir) = .ok (base ++ ["state"]))
    (hstateMade : files.node? (base ++ ["state"]) = some .directory)
    (hempty : IsEmptyAt dir files) : Shows dir base files {} where
  place := hplace
  directory := hdirectory
  statePlace := hstatePlace
  stateMade := hstateMade
  tenants := fun {tenant} hname => by
    by_cases hstate : tenant = "state"
    · exact .inr (hstate ▸ hstateMade)
    · rw [node?_child (isOrdinary_of_isName hname)]
      exact .inl (hempty base hplace _ (by simp) (by simpa using hstate))
  flowDirectories := fun {tenant} hname => by
    rw [node?_grandchild isOrdinary_flows]
    exact .inl (hempty base hplace _ (by simp) (by simp))
  flows := fun {tenant} _ => by
    show pick (flowFile base tenant) files = []
    refine List.filterMap_eq_nil_iff.2 fun e he => ?_
    have hlisted : files.get? e.1 ≠ none := fun hnone =>
      get?_eq_none_iff.1 hnone (mem_keys_of_mem he)
    rw [Option.map_eq_none_iff, flowFile]
    refine Option.eq_none_iff_forall_ne_some.2 fun part hlast => ?_
    split at hlast
    · rename_i habove
      refine hlisted ?_
      rw [eq_of_getLast? hlast, habove, List.append_assoc]
      exact hempty base hplace _ (by simp) (by simp)
    · cases hlast
  flowPlaces := by simp
  states := fun {tenant} hname => by
    rw [node?_grandchild (isOrdinary_fileName hname)]
    exact .inl ⟨hempty base hplace _ (by simp) (by simp), rfl⟩
  statePlaces := by simp

theorem Shows.node?_flow (hshows : Shows dir base files m) (key : Key) (hproper : key.IsOfFlow) :
    files.node? (base ++ flowNames key) = (m.flows.get? key).map fileOf := by
  have hsame := congrArg (fun entries => Keyed.get? entries (fileName key.2))
    (hshows.flows hproper.tenant)
  simp only [get?_mapValues] at hsame
  rw [get?_pick (picks_flowFile base key.1) (flowFile_self base key.1 _),
    get?_pick (picks_flowOf key.1) (flowOf_self key.1 key.2)] at hsame
  have hchild : files.node? (base ++ flowNames key) = files.get? (base ++ flowNames key) := by
    have hchild : files.node? (base ++ [key.1, "flows"] ++ [fileName key.2]) = _ :=
      node?_child (isOrdinary_fileName hproper.name)
    simpa using hchild
  rw [hchild, hsame]

/-- A directory on the way to the flows of a tenant shows nothing. -/
theorem Shows.make (hshows : Shows dir base files m) {q : Place}
    (hat : q = base ++ [tenant] ∨ q = base ++ [tenant, "flows"]) (hnothing : files.node? q = none) :
    Shows dir base (files.set q .directory) m := by
  have hfree : files.node? q ≠ some .directory := by simp [hnothing]
  have hgrows := extends_set hfree .directory
  have hset : ∀ p, files.node? p = none ∨ files.node? p = some .directory →
      Files.node? (files.set q .directory) p = none ∨
        Files.node? (files.set q .directory) p = some .directory := by
    intro p hlies
    by_cases hsame : p = q
    · subst hsame
      exact .inr (node?_set_self hfree _)
    · rwa [node?_set_of_ne hsame]
  have hnoFlow : ∀ other, flowFile base other q = none := by
    intro other
    rcases hat with rfl | rfl
    · exact flowFile_one base other tenant
    · exact flowFile_two base other tenant "flows"
  have hnoState : ∀ other, base ++ stateNames other ≠ q := by
    intro other
    rcases hat with rfl | rfl
    · simp
    · simp only [Ne, List.append_cancel_left_eq, List.cons.injEq, not_and]
      exact fun _ hsame => absurd hsame (fileName_ne (by decide))
  exact
    { place := hgrows.place hshows.place
      directory := hgrows _ hshows.directory
      statePlace := hgrows.place hshows.statePlace
      stateMade := hgrows _ hshows.stateMade
      tenants := fun hname => hset _ (hshows.tenants hname)
      flowDirectories := fun hname => hset _ (hshows.flowDirectories hname)
      flows := fun hname => by
        rw [pick_set_of_none (hnoFlow _)]
        exact hshows.flows hname
      flowPlaces := fun hlisted => hgrows.place (hshows.flowPlaces hlisted)
      states := fun hname => by
        rw [node?_set_of_ne (hnoState _)]
        exact hshows.states hname
      statePlaces := fun hlisted => hgrows.place (hshows.statePlaces hlisted) }

/-- Directories are made on the way to the flows of a tenant. -/
theorem keeps (dir : Path) (base : Place) (m : Memory) (hname : Identifier.IsName tenant) :
    Keeps (fun files => Shows dir base files m) dir base tenant "flows" where
  ordinary := by simp [isOrdinary_of_isName hname, isOrdinary_flows]
  short := by decide
  base hshows := ⟨hshows.place, hshows.directory⟩
  upper hshows := hshows.tenants hname
  lower hshows := hshows.flowDirectories hname
  kept hshows := hshows.make

/-- The file of a flow that is written shows the flow. -/
theorem Shows.writeFlow (hshows : Shows dir base files m) {key : Key} (hproper : key.IsOfFlow)
    (hleads : files.place (dir.below (flowNames key)) =
      .ok (base ++ flowNames key)) (doc : Value) :
    Shows dir base (files.set (base ++ flowNames key) (fileOf doc))
      { m with flows := m.flows.set key doc } := by
  have hfree : files.node? (base ++ flowNames key) ≠ some .directory := by
    rw [hshows.node?_flow key hproper]
    cases m.flows.get? key <;> simp [fileOf]
  have hgrows := extends_set hfree (fileOf doc)
  have hunmoved : ∀ p, p ≠ base ++ flowNames key →
      Files.node? (files.set (base ++ flowNames key) (fileOf doc)) p =
        files.node? p := fun p hdifferent => node?_set_of_ne hdifferent _
  exact
    { place := hgrows.place hshows.place
      directory := hgrows _ hshows.directory
      statePlace := hgrows.place hshows.statePlace
      stateMade := hgrows _ hshows.stateMade
      tenants := fun hname => by
        rw [hunmoved _ (by simp)]
        exact hshows.tenants hname
      flowDirectories := fun hname => by
        rw [hunmoved _ (by simp)]
        exact hshows.flowDirectories hname
      flows := fun {tenant} hname => by
        by_cases hsame : key.1 = tenant
        · subst hsame
          rw [pick_set (picks_flowFile base key.1) (flowFile_self base key.1 _),
            pick_set (picks_flowOf key.1) (flowOf_self key.1 key.2), mapValues_set,
            hshows.flows hname]
        · rw [pick_set_of_none (flowFile_of_ne base hsame _),
            pick_set_of_none (flowOf_of_ne hsame key.2), hshows.flows hname]
      flowPlaces := fun {tenant name} hlisted => by
        refine hgrows.place ?_
        obtain ⟨e, he, hsame⟩ := List.mem_map.1 hlisted
        rcases mem_set he with rfl | hold
        · obtain rfl : key = (tenant, name) := hsame
          exact hleads
        · exact hshows.flowPlaces (List.mem_map.2 ⟨e, hold, hsame⟩)
      states := fun hname => by
        rw [hunmoved _ (by simp)]
        exact hshows.states hname
      statePlaces := fun hlisted => hgrows.place (hshows.statePlaces hlisted) }

/-- The file of the conversations of a tenant that is written shows these conversations. -/
theorem Shows.writeState (hshows : Shows dir base files m) (hname : Identifier.IsName tenant)
    (hleads : files.place (dir.below (stateNames tenant)) =
      .ok (base ++ stateNames tenant)) (conversations : Keyed Key Value)
    (hothers : ∀ other, other ≠ tenant →
      pick (numberOf other) conversations = pick (numberOf other) m.conversations) :
    Shows dir base
      (files.set (base ++ stateNames tenant)
        (fileOf (.dict (pick (numberOf tenant) conversations))))
      { m with conversations := conversations } := by
  have hfree : files.node? (base ++ stateNames tenant) ≠ some .directory := by
    rcases hshows.states hname with ⟨hnothing, -⟩ | hfile
    · simp [hnothing]
    · simp [hfile, fileOf]
  have hgrows := extends_set hfree (fileOf (.dict (pick (numberOf tenant) conversations)))
  have hunmoved : ∀ p, p ≠ base ++ stateNames tenant →
      Files.node? (files.set (base ++ stateNames tenant)
        (fileOf (.dict (pick (numberOf tenant) conversations)))) p = files.node? p :=
    fun p hdifferent => node?_set_of_ne hdifferent _
  exact
    { place := hgrows.place hshows.place
      directory := hgrows _ hshows.directory
      statePlace := hgrows.place hshows.statePlace
      stateMade := hgrows _ hshows.stateMade
      tenants := fun hname => by
        rw [hunmoved _ (by simp)]
        exact hshows.tenants hname
      flowDirectories := fun hname => by
        rw [hunmoved _ ?_]
        · exact hshows.flowDirectories hname
        · simp only [Ne, List.append_cancel_left_eq, List.cons.injEq, not_and, and_true]
          exact fun _ hsame => absurd hsame.symm (fileName_ne (by decide))
      flows := fun hname => by
        rw [pick_set_of_none (flowFile_two base _ _ _)]
        exact hshows.flows hname
      flowPlaces := fun hlisted => hgrows.place (hshows.flowPlaces hlisted)
      states := fun {other} hname' => by
        by_cases hsame : other = tenant
        · subst hsame
          exact .inr (node?_set_self hfree _)
        · have hdifferent : base ++ stateNames other ≠ base ++ stateNames tenant := by
            simp [fileName_inj, hsame]
          rw [hunmoved _ hdifferent, stateOf, hothers other hsame]
          exact hshows.states hname'
      statePlaces := fun {other number} hlisted => by
        refine hgrows.place ?_
        by_cases hsame : other = tenant
        · subst hsame
          exact hleads
        · have hknown := numberOf_self other number
          have hold := (mem_keys_pick (picks_numberOf other) hknown conversations).2 hlisted
          rw [hothers other hsame] at hold
          exact hshows.statePlaces
            ((mem_keys_pick (picks_numberOf other) hknown m.conversations).1 hold) }

end Directory

end Dialogue.Store

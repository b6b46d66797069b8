import Dialogue.Proofs.Store.Directory.State
import Dialogue.Proofs.Store.Operations

/-!
# Files with any content

What lies below the directory of a store may have been put there by anyone.  The store goes on
working as long as directories and files lie where they belong (`Orderly`), whatever the files hold:
every access is answered, and what it leaves is orderly again (`Stands.exists_access`).

A flow that cannot be read counts as absent, but its file is still there.  So a step is appended to
any flow but one (`Stands.exists_run_appendStep`): where the file cannot be read (`IsSpoiled`), no
flow is loaded, none is created either, and the operation gives up with a failure that no caller can
mend.
-/

namespace Dialogue.Store

open Files

namespace Directory

variable {dir : Path} {base : Place} {files files' : Files} {names : List String} {now : String}
  {events : List Event} {tenant name : Value} {key : Key}

/-! ## Where files and directories belong -/

/-- The ways from the directory of a store to directories. -/
inductive DirectoryWay : List String → Prop where
  | store : DirectoryWay []
  | states : DirectoryWay ["state"]
  | tenant {tenant : String} (isName : Identifier.IsName tenant) : DirectoryWay [tenant]
  | flows {tenant : String} (isName : Identifier.IsName tenant) : DirectoryWay [tenant, "flows"]

/-- The ways from the directory of a store to files. -/
inductive FileWay : List String → Prop where
  | flow {key : Key} (proper : key.IsOfFlow) : FileWay (flowNames key)
  | state {tenant : String} (isName : Identifier.IsName tenant) : FileWay (stateNames tenant)

theorem FileWay.ordinary (hway : FileWay names) : ∀ part ∈ names, IsOrdinary part := by
  cases hway with
  | flow hproper => exact isOrdinary_flowPath hproper
  | state hname => simp [isOrdinary_state, isOrdinary_fileName hname]

theorem DirectoryWay.ne (hway : DirectoryWay names) {names' : List String}
    (hother : FileWay names') :
    names ≠ names' := by
  have hflows : ∀ name, "flows" ≠ fileName name := fun name => (fileName_ne (by decide)).symm
  cases hway <;> cases hother <;> simp [hflows]

/-- Directories and files lie where they belong, whatever the files hold. -/
structure Orderly (base : Place) (files : Files) : Prop where
  directories : ∀ {names}, DirectoryWay names →
    files.node? (base ++ names) = none ∨ files.node? (base ++ names) = some .directory
  files : ∀ {names}, FileWay names → files.node? (base ++ names) ≠ some .directory

/-- A directory that is made where it belongs. -/
theorem Orderly.make (horderly : Orderly base files) (hway : DirectoryWay names)
    (hnothing : files.node? (base ++ names) = none) :
    Orderly base (files.set (base ++ names) .directory) where
  directories {other} hway' := by
    by_cases hsame : other = names
    · subst hsame
      exact .inr (node?_set_self (by simp [hnothing]) _)
    · rw [node?_set_of_ne (by simpa using hsame)]
      exact horderly.directories hway'
  files hway' := by
    rw [node?_set_of_ne (by simpa using (hway.ne hway').symm)]
    exact horderly.files hway'

theorem Orderly.write (horderly : Orderly base files) (hway : FileWay names) (content : Content) :
    Orderly base (files.set (base ++ names) (.file content)) where
  directories hway' := by
    rw [node?_set_of_ne (by simpa using hway'.ne hway)]
    exact horderly.directories hway'
  files {other} hway' := by
    by_cases hsame : other = names
    · subst hsame
      simp [node?_set_self (horderly.files hway)]
    · rw [node?_set_of_ne (by simpa using hsame)]
      exact horderly.files hway'

/-- A store stands on files: its directories are there, and the files are orderly. -/
structure Stands (dir : Path) (base : Place) (files : Files) : Prop
    extends Laid dir base files where
  orderly : Orderly base files

theorem Stands.write (hstands : Stands dir base files) (hway : FileWay names) (content : Content) :
    Stands dir base (files.set (base ++ names) (.file content)) :=
  ⟨hstands.toLaid.set (hstands.orderly.files hway) _, hstands.orderly.write hway content⟩

/-- Directories are made on the way to the flows of a tenant, and no file is touched. -/
theorem keeps_stands (dir : Path) (base : Place) {tenant : String}
    (hname : Identifier.IsName tenant) (hway : FileWay names) (node : Option Node) :
    Keeps (fun files => Stands dir base files ∧ files.node? (base ++ names) = node)
      dir base tenant "flows" where
  ordinary := by simp [isOrdinary_of_isName hname, isOrdinary_flows]
  short := by decide
  base hinv := ⟨hinv.1.place, hinv.1.directory⟩
  upper hinv := hinv.1.orderly.directories (.tenant hname)
  lower hinv := hinv.1.orderly.directories (.flows hname)
  kept {files q} hinv hat hnothing := by
    have hmade (names' : List String) (hway' : DirectoryWay names')
        (hnothing : files.node? (base ++ names') = none) :
        Stands dir base (files.set (base ++ names') .directory) ∧
          node? (files.set (base ++ names') .directory) (base ++ names) = node := by
      refine ⟨⟨hinv.1.toLaid.set (by simp [hnothing]) _, hinv.1.orderly.make hway' hnothing⟩, ?_⟩
      rw [node?_set_of_ne (by simpa using (hway'.ne hway).symm)]
      exact hinv.2
    rcases hat with rfl | rfl
    · exact hmade _ (.tenant hname) hnothing
    · exact hmade _ (.flows hname) hnothing

/-! ## Reading -/

/-- What the file at a place holds. -/
def contentAt (files : Files) (place : Place) : Option Content :=
  match files.node? place with
  | some (.file content) => some content
  | _ => none

theorem place_of_accepts (hstands : Stands dir base files) (hordinary : ∀ n ∈ names, IsOrdinary n)
    (haccepts : Accepts dir names) :
    files.place (dir.below names) = .ok (base ++ names) ∨
      ∃ fault, files.place (dir.below names) = .error fault ∧ fault ≠ .nameTooLong := by
  have hfollowed := place_below hstands.place (isLegible_of_accepts hstands.place hordinary
    haccepts)
  rw [hfollowed]
  cases hleads : files.follow base names with
  | ok q => exact .inl (by rw [eq_of_follow hordinary hleads])
  | error fault =>
    refine .inr ⟨fault, rfl, ?_⟩
    rintro rfl
    obtain ⟨part, hon, hlong⟩ := exists_long_of_follow hleads
    exact absurd (haccepts.2 part hon) (Nat.not_le.2 hlong)

/-- A file is found where its path leads, and where it leads nowhere there is none. -/
theorem Stands.content? (hstands : Stands dir base files) (hway : FileWay names)
    (haccepts : Accepts dir names) :
    files.content? (dir.below names) = .ok (contentAt files (base ++ names)) ∨
      files.content? (dir.below names) = .ok none := by
  rcases place_of_accepts hstands hway.ordinary haccepts with hleads | ⟨fault, hnowhere, hshort⟩
  · refine .inl ?_
    have hfree := hstands.orderly.files hway
    cases hlies : files.node? (base ++ names) with
    | none => simp [Files.content?, find?, hleads, contentAt, hlies]
    | some node =>
      cases node with
      | file content => simp [Files.content?, find?, hleads, contentAt, hlies]
      | directory => exact absurd hlies hfree
  · refine .inr ?_
    rw [Files.content?, find?, hnowhere]
    cases fault <;> first | rfl | exact absurd rfl hshort

/-- A flow that is looked for is what can be read in its file. -/
theorem exists_loadFlow {content : Option Content}
    (hfound : files.content? (flowPath dir tenant name) = .ok content) (now : String)
    (events : List Event) :
    ∃ events', access now dir (.loadFlow tenant name) ⟨files, events⟩ =
      (.ok (content.bind fun c => (Stored.content c).load? now), ⟨files, events'⟩) := by
  have hread := readJson_eq (flowPath dir tenant name) ⟨files, events⟩
  rw [hfound] at hread
  cases content with
  | none => exact ⟨_, Run.bind_ok hread⟩
  | some c =>
    change _ = (Except.ok (Reading.ofContent c), _) at hread
    simp only [Option.bind_some, Stored.load?]
    cases hdocument : (Stored.content c).document? with
    | none =>
      rw [Reading.ofContent, hdocument] at hread
      exact ⟨_, Run.bind_ok hread⟩
    | some v =>
      rw [Reading.ofContent, hdocument] at hread
      cases hparsed : Flow.ofValue now v with
      | ok flow =>
        refine ⟨events, (Run.bind_ok hread).trans ?_⟩
        simp only [hparsed, Option.bind_some, Except.toOption]
        rfl
      | error mismatch =>
        refine ⟨.flowFileUnreadable (flowPath dir tenant name).text :: events,
          (Run.bind_ok hread).trans ?_⟩
        simp only [hparsed, Option.bind_some, Except.toOption]
        rfl

/-- The conversations of a tenant are read whatever their file holds. -/
theorem Stands.exists_stateIn (hstands : Stands dir base files) {tenant : String}
    (hname : Identifier.IsName tenant) (haccepts : Accepts dir (stateNames tenant)) :
    ∃ state, stateIn dir tenant files = .ok state := by
  rw [stateIn, statePath_eq dir hname]
  rcases hstands.content? (.state hname) haccepts with hfound | hfound <;> rw [hfound] <;>
    exact ⟨_, rfl⟩

/-! ## Writing -/

/-- The conversations of a tenant are written whatever their file held before. -/
theorem Stands.exists_writeState (hstands : Stands dir base files) {tenant : String}
    (hname : Identifier.IsName tenant) (haccepts : Accepts dir (stateNames tenant)) (v : Value)
    (events : List Event) :
    ∃ files', writeJson (statePath dir tenant) v ⟨files, events⟩ = (.ok (), ⟨files', events⟩) ∧
      Stands dir base files' := by
  obtain ⟨state, hfound⟩ := hstands.exists_stateIn hname haccepts
  rcases writeJson_state hstands.toLaid hname hfound v events with
    ⟨hlong, -⟩ | ⟨-, q, hleads, -, hwritten⟩
  · rw [statePath_eq dir hname, haccepts.1] at hlong
    cases hlong
  · refine ⟨_, hwritten, ?_⟩
    rw [statePath_eq dir hname] at hleads
    have hway : FileWay (stateNames tenant) := .state hname
    rw [place_below hstands.place (isLegible_of_place hleads)] at hleads
    rw [eq_of_follow hway.ordinary hleads]
    exact hstands.write hway _

/-- The way to the file of a flow is made, and the file is left as it is. -/
theorem Stands.exists_prepareFlow (hstands : Stands dir base files) {key : Key}
    (hproper : key.IsOfFlow) (haccepts : Accepts dir (flowNames key)) :
    ∃ files', prepare (dir.below (flowNames key)) files = (.ok (), files') ∧
      files'.place (dir.below (flowNames key)) = .ok (base ++ flowNames key) ∧
      Stands dir base files' ∧
      files'.node? (base ++ flowNames key) = files.node? (base ++ flowNames key) := by
  have hkeeps := keeps_stands dir base hproper.tenant (.flow hproper)
    (files.node? (base ++ flowNames key))
  obtain ⟨files', ⟨hstands', hsame⟩, ⟨hprepared, hleads⟩ | ⟨f, -, hrefused⟩⟩ :=
    prepareFlow_of_keeps hkeeps ⟨hstands, rfl⟩ hproper
  · exact ⟨files', hprepared, hleads, hstands', hsame⟩
  · exact absurd haccepts hrefused

theorem Stands.exists_writeFlow (hstands : Stands dir base files) {flow : Flow}
    (haccepts : Accepts dir (flowNames (flowKey tenant (.str flow.name)))) (now : String)
    (events : List Event) :
    ∃ location files', access now dir (.writeFlow tenant flow) ⟨files, events⟩ =
      (.ok location, ⟨files', events⟩) ∧ Stands dir base files' := by
  have hway : FileWay (flowNames (flowKey tenant (.str flow.name))) :=
    .flow (isOfFlow_flowKey tenant _)
  obtain ⟨files', hprepared, hleads, hstands', -⟩ :=
    hstands.exists_prepareFlow (isOfFlow_flowKey tenant (.str flow.name)) haccepts
  rw [← flowPath_eq] at hprepared hleads
  exact ⟨_, _, Run.bind_ok (writeJson_of_place hprepared hleads (hstands'.orderly.files hway) _),
    hstands'.write hway _⟩

/-- A flow is created unless there is a file already.  Then there is one, to which a path leads. -/
theorem Stands.exists_createFlow (hstands : Stands dir base files) (tenant : Value) (flow : Flow)
    (haccepts : Accepts dir (flowNames (flowKey tenant (.str flow.name)))) (now : String)
    (events : List Event) :
    ∃ created files', access now dir (.createFlow tenant flow) ⟨files, events⟩ =
        (.ok created, ⟨files', events⟩) ∧ Stands dir base files' ∧
      files'.content? (flowPath dir tenant (.str flow.name)) =
        .ok (some ((contentAt files (base ++ flowNames (flowKey tenant (.str flow.name)))).getD
          (.text (Json.pretty (.dict flow.document))))) := by
  have hway : FileWay (flowNames (flowKey tenant (.str flow.name))) :=
    .flow (isOfFlow_flowKey tenant _)
  obtain ⟨files', hprepared, hleads, hstands', hsame⟩ :=
    hstands.exists_prepareFlow (isOfFlow_flowKey tenant (.str flow.name)) haccepts
  rw [← flowPath_eq] at hprepared hleads
  have hfree := hstands'.orderly.files hway
  rw [contentAt, ← hsame]
  cases hlies : files'.node? (base ++ flowNames (flowKey tenant (.str flow.name))) with
  | none =>
    exact ⟨true, _, createJson_of_nothing hprepared hleads hlies _, hstands'.write hway _,
      content?_of_place ((extends_set hfree _).place hleads) (node?_set_self hfree _)⟩
  | some node =>
    cases node with
    | directory => exact absurd hlies hfree
    | file content =>
      exact ⟨false, files', createJson_of_occupied hprepared hleads hlies _, hstands',
        content?_of_place hleads hlies⟩

/-! ## Accesses -/

/-- The file system accepts the names that an access leads to, and a tenant whose conversations it
is about is given by its storage key. -/
def Admits (dir : Path) (a : Access) : Prop :=
  a.SuitsFiles dir ∧
    match a with
    | .fetchConversation tenant _ | .putConversation tenant _ _ | .deleteConversation tenant _ =>
      Identifier.IsName tenant
    | _ => True

/-- Every access is answered, whatever the files hold, and leaves the store standing. -/
theorem Stands.exists_access (hstands : Stands dir base files) (a : Access)
    (hadmitted : Admits dir a) (now : String) (events : List Event) :
    ∃ r files' events', access now dir a ⟨files, events⟩ = (.ok r, ⟨files', events'⟩) ∧
      Stands dir base files' := by
  obtain ⟨haccepts, hname⟩ := hadmitted
  cases a with
  | loadFlow tenant name =>
    have hproper := isOfFlow_flowKey tenant name
    obtain ⟨content, hfound⟩ :
        ∃ content, files.content? (flowPath dir tenant name) = .ok content := by
      rw [flowPath_eq]
      rcases hstands.content? (.flow hproper) haccepts with hfound | hfound <;> exact ⟨_, hfound⟩
    obtain ⟨events', hloaded⟩ := exists_loadFlow hfound now events
    exact ⟨_, files, events', hloaded, hstands⟩
  | createFlow tenant flow =>
    obtain ⟨created, files', hran, hstands', -⟩ :=
      hstands.exists_createFlow tenant flow haccepts now events
    exact ⟨created, files', events, hran, hstands'⟩
  | writeFlow tenant flow =>
    obtain ⟨location, files', hran, hstands'⟩ := hstands.exists_writeFlow haccepts now events
    exact ⟨location, files', events, hran, hstands'⟩
  | listFlows tenant =>
    have hname := Identifier.isName_safeName tenant
    have hordinary : ∀ part ∈ [Identifier.safeName tenant, "flows"], IsOrdinary part := by
      simp [isOrdinary_of_isName hname, isOrdinary_flows]
    obtain ⟨names, hlisted⟩ : ∃ names, files.names (flowsPath dir tenant) = .ok names := by
      rw [flowsPath, Files.names, find?]
      rcases place_of_accepts hstands hordinary haccepts with hleads | ⟨fault, hnowhere, hshort⟩
      · rw [hleads]
        rcases hstands.orderly.directories (.flows hname) with hlies | hlies <;>
          simp only [hlies] <;>
          exact ⟨_, rfl⟩
      · rw [hnowhere]
        cases fault <;> first | exact ⟨_, rfl⟩ | exact absurd rfl hshort
    refine ⟨sortTexts (names.filterMap flowOfFile?), files, events, ?_, hstands⟩
    rw [Directory.access, Run.read_bind, hlisted]
    rfl
  | locateFlow tenant name => exact ⟨_, files, events, rfl, hstands⟩
  | fetchConversation tenant number =>
    obtain ⟨state, hfound⟩ := hstands.exists_stateIn hname haccepts
    obtain ⟨events', hran⟩ := exists_fetchConversation now dir tenant number files events
    rw [hfound] at hran
    exact ⟨_, files, events', hran, hstands⟩
  | putConversation tenant number doc =>
    obtain ⟨state, hfound⟩ := hstands.exists_stateIn hname haccepts
    obtain ⟨events', hread⟩ := exists_readState dir tenant files events
    rw [hfound] at hread
    obtain ⟨files', hwritten, hstands'⟩ := hstands.exists_writeState hname haccepts
      (.dict (Fields.set state number doc)) events'
    exact ⟨(), files', events', (Run.bind_ok hread).trans hwritten, hstands'⟩
  | deleteConversation tenant number =>
    obtain ⟨state, hfound⟩ := hstands.exists_stateIn hname haccepts
    obtain ⟨events', hread⟩ := exists_readState dir tenant files events
    rw [hfound] at hread
    rw [Directory.access, Run.bind_ok hread]
    cases Fields.has state number with
    | false => exact ⟨false, files, events', rfl, hstands⟩
    | true =>
      obtain ⟨files', hwritten, hstands'⟩ := hstands.exists_writeState hname haccepts
        (.dict (state.erase number)) events'
      exact ⟨true, files', events', Run.bind_ok hwritten, hstands'⟩
  | listConversations tenant =>
    obtain ⟨state, hfound⟩ :=
      hstands.exists_stateIn (Identifier.isName_safeName tenant) haccepts
    obtain ⟨events', hread⟩ := exists_readState dir (Identifier.safeName tenant) files events
    rw [hfound] at hread
    exact ⟨_, files, events', Run.bind_ok hread, hstands⟩

/-! ## Appending a step -/

/-- The file of a flow is there, and no flow can be read in it. -/
def IsSpoiled (now : String) (base : Place) (key : Key) (files : Files) : Prop :=
  ∃ content, files.node? (base ++ flowNames key) = some (.file content) ∧
    (Stored.content content).load? now = none

theorem contentAt_eq_some_iff {place : Place} {content : Content} :
    contentAt files place = some content ↔ files.node? place = some (.file content) := by
  unfold contentAt
  split <;> simp_all

theorem not_isSpoiled {content : Content} {flow : Flow}
    (hlies : files.node? (base ++ flowNames key) = some (.file content))
    (hreads : (Stored.content content).load? now = some flow) : ¬ IsSpoiled now base key files := by
  rintro ⟨other, hlies', hunreadable⟩
  rw [hlies] at hlies'
  cases hlies'
  rw [hreads] at hunreadable
  cases hunreadable

/-- A flow that was written is read from the text of its document. -/
theorem load?_pretty {flow : Flow} (hplain : (Value.dict flow.document).IsPlain) (now : String) :
    (Stored.content (.text (Json.pretty (.dict flow.document)))).load? now =
      (Flow.ofValue now (.dict flow.document)).toOption := by
  rw [Stored.load?, Stored.document?, Json.read_pretty hplain]
  rfl

/-- The flow with the step is written. -/
theorem Stands.exists_run_writeStep (hstands : Stands dir base files) {flow : Flow}
    (haccepts : Accepts dir (flowNames (flowKey tenant (.str flow.name)))) (now : String)
    (name step : Value) (events : List Event) :
    ∃ t, (Program.access (.writeFlow tenant (withStep now step flow)) fun _ =>
        .log (.stepAppended tenant name ((withStep now step flow).size - 1)
          (withStep now step flow).version) (.done (withStep now step flow))).run
            (access now dir) Traced.log ⟨files, events⟩ = (.ok (withStep now step flow), t) ∧
      Stands dir base t.state := by
  have haccepts : Accepts dir (flowNames (flowKey tenant (.str (withStep now step flow).name))) :=
    haccepts
  obtain ⟨location, files', hwritten, hstands'⟩ := hstands.exists_writeFlow haccepts now events
  rw [Program.run, Run.bind, hwritten]
  exact ⟨_, rfl, hstands'⟩

/-- A step is appended, unless the file of the flow is spoiled.  Then the flow is not there for a
reader and there for a writer, and the operation gives up. -/
theorem Stands.exists_run_appendStep (hstands : Stands dir base files) {preset : Flow}
    (hmade : Flow.ofPresetNamed now .leadQualification name = .ok preset)
    (haccepts : Accepts dir (flowNames (flowKey tenant name)))
    (hinner : ∀ content flow,
      files.node? (base ++ flowNames (flowKey tenant name)) = some (.file content) →
      (Stored.content content).load? now = some flow →
        Accepts dir (flowNames (flowKey tenant (.str flow.name))))
    (step : Value) (events : List Event) :
    ∃ r t, (appendStep now tenant name step).run (access now dir) Traced.log ⟨files, events⟩ =
        (r, t) ∧ Stands dir base t.state ∧
      (IsSpoiled now base (flowKey tenant name) files ∧ r = .error (.flowUnavailable name) ∨
        ¬ IsSpoiled now base (flowKey tenant name) files ∧ ∃ flow, r = .ok flow) := by
  let key := flowKey tenant name
  have hway : FileWay (flowNames key) := .flow (isOfFlow_flowKey tenant name)
  obtain ⟨content, hfound, hwhat⟩ :
      ∃ content, files.content? (flowPath dir tenant name) = .ok content ∧
        (content = contentAt files (base ++ flowNames key) ∨ content = none) := by
    rw [flowPath_eq]
    rcases hstands.content? hway haccepts with hfound | hfound
    · exact ⟨_, hfound, .inl rfl⟩
    · exact ⟨_, hfound, .inr rfl⟩
  obtain ⟨events₁, hloaded⟩ := exists_loadFlow hfound now events
  rw [appendStep_eq, loadOrCreate_eq]
  simp only [Program.bind, Program.run, Run.bind, hloaded]
  cases hread : content.bind fun c => (Stored.content c).load? now with
  | some flow =>
    obtain ⟨c, rfl, hreads⟩ := Option.bind_eq_some_iff.1 hread
    have hlies : files.node? (base ++ flowNames key) = some (.file c) :=
      contentAt_eq_some_iff.1 (hwhat.resolve_right (Option.some_ne_none c)).symm
    obtain ⟨t, hran, hstands'⟩ :=
      hstands.exists_run_writeStep (hinner c flow hlies hreads) now name step events₁
    exact ⟨_, t, hran, hstands', .inr ⟨not_isSpoiled hlies hreads, _, rfl⟩⟩
  | none =>
    have hsameKey : flowKey tenant (.str preset.name) = key := flowKey_ofPresetNamed hmade
    obtain ⟨created, files₁, hcreates, hstands₁, hfound₁⟩ :=
      hstands.exists_createFlow tenant preset (hsameKey ▸ haccepts) now events₁
    rw [flowPath_eq, hsameKey, ← flowPath_eq] at hfound₁
    obtain ⟨events₂, hreloaded⟩ := exists_loadFlow hfound₁ now events₁
    simp only [hmade, Program.bind, Program.run, Run.bind, hcreates, hreloaded, Option.bind_some]
    cases hlies : contentAt files (base ++ flowNames key) with
    | some c =>
      rw [Option.getD_some]
      have hthere := contentAt_eq_some_iff.1 hlies
      cases hreads : (Stored.content c).load? now with
      | none => exact ⟨_, _, rfl, hstands₁, .inl ⟨⟨c, hthere, hreads⟩, rfl⟩⟩
      | some flow =>
        obtain ⟨t, hran, hstands'⟩ :=
          hstands₁.exists_run_writeStep (hinner c flow hthere hreads) now name step events₂
        exact ⟨_, t, hran, hstands', .inr ⟨not_isSpoiled hthere hreads, _, rfl⟩⟩
    | none =>
      -- what was created is read back
      obtain ⟨again, hread, hnamed⟩ := exists_ofValue_of_ofPresetNamed hmade now
      have haccepts' : Accepts dir (flowNames (flowKey tenant (.str again.name))) := by
        rw [hnamed, hsameKey]
        exact haccepts
      obtain ⟨t, hran, hstands'⟩ := hstands₁.exists_run_writeStep haccepts' now name step events₂
      have hplain := Flow.isPlain_document (wellFormed_ofPresetNamed hmade)
      rw [Option.getD_none, load?_pretty hplain, hread]
      refine ⟨_, t, hran, hstands', .inr ⟨?_, _, rfl⟩⟩
      rintro ⟨c, hthere, -⟩
      rw [contentAt_eq_some_iff.2 hthere] at hlies
      cases hlies

end Directory

end Dialogue.Store

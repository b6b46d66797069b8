import Dialogue.Proofs.Deployment.Storage
import Dialogue.Proofs.Surface.Mending

/-!
# Running what the surfaces ask over files

A deployment with the shipped settings keeps everything below the directory `data`.  What it runs
over its stores is run over its files (`Deployment.run_files`), so a program that mends comes to
what is mended whatever the files hold (`Deployment.Stands.run`).  A step that can be built is added
unless the file of its flow is spoiled (`Deployment.Stands.exists_run_addStep`).

Opening the stores makes the two directories that are needed (`Deployment.Ready.exists_openEngine`).
-/

namespace Dialogue

open Store Files

/-! ## The directory of the shipped settings -/

namespace Store.Directory

/-- The directory of the shipped settings. -/
def data : Path := ⟨"", ["data"]⟩

/-- Where the directory of the shipped settings lies. -/
def dataPlace : Place := ["data"]

variable {tenant name : String}

theorem utf8ByteSize_intercalate_le {bound : Nat} {names : List String}
    (hshort : ∀ name ∈ names, name.utf8ByteSize ≤ bound) :
    (String.intercalate "/" names).utf8ByteSize ≤ names.length * (bound + 1) := by
  induction names with
  | nil => simp
  | cons name rest ih =>
    obtain ⟨hfirst, hothers⟩ := List.forall_mem_cons.1 hshort
    have hafter := ih hothers
    have hslash : ("/" : String).utf8ByteSize = 1 := by decide
    rw [List.length_cons, Nat.succ_mul]
    cases rest with
    | nil => simp; omega
    | cons next rest =>
      rw [String.intercalate_cons_cons, String.utf8ByteSize_append, String.utf8ByteSize_append,
        hslash]
      omega

/-- A few names that leave room for a file in the making are accepted. -/
theorem accepts_data {names : List String} (hnonempty : names ≠ []) (hfew : names.length ≤ 3)
    (hshort : ∀ name ∈ names, name.utf8ByteSize + scratchLength ≤ maxName) :
    Accepts data names := by
  simp only [scratchLength, maxName] at hshort
  have hsize : (String.intercalate "/" ("data" :: names)).utf8ByteSize ≤
      ("data" :: names).length * (247 + 1) :=
    utf8ByteSize_intercalate_le (List.forall_mem_cons.2
      ⟨by decide, fun name hlisted => by have := hshort name hlisted; omega⟩)
  refine ⟨?_, fun name hlisted => ?_⟩
  · have hlast : (data.below names).name = names.getLast hnonempty := by
      simp [Path.name, Path.below, List.getLast?_append, List.getLast?_eq_some_getLast hnonempty]
    have htext : (data.below names).text = String.intercalate "/" ("data" :: names) := by
      simp [Path.text, Path.below, data]
    have hroom := hshort _ (List.getLast_mem hnonempty)
    simp only [isTooLong, hlast, htext, scratchLength, maxName, maxPath, Bool.or_eq_false_iff,
      decide_eq_false_iff_not]
    rw [List.length_cons] at hsize
    omega
  · have := hshort name hlisted
    rw [maxName]
    omega

theorem IsShort.le (hshort : IsShort name) : name.utf8ByteSize + scratchLength ≤ maxName := by
  rw [IsShort, fileName, String.utf8ByteSize_append] at hshort
  omega

theorem accepts_flow (hofTenant : IsShort tenant) (hofFlow : IsShort name) :
    Accepts data (flowNames (tenant, name)) :=
  accepts_data (by simp) (by simp) (by
    simp only [List.forall_mem_cons, List.not_mem_nil, false_imp_iff, implies_true, and_true]
    exact ⟨hofTenant.le, by decide, hofFlow⟩)

theorem accepts_state (hofTenant : IsShort tenant) : Accepts data (stateNames tenant) :=
  accepts_data (by simp) (by simp) (by
    simp only [List.forall_mem_cons, List.not_mem_nil, false_imp_iff, implies_true, and_true]
    exact ⟨by decide, hofTenant⟩)

theorem accepts_flows (hofTenant : IsShort tenant) : Accepts data [tenant, "flows"] :=
  accepts_data (by simp) (by simp) (by
    simp only [List.forall_mem_cons, List.not_mem_nil, false_imp_iff, implies_true, and_true]
    exact ⟨hofTenant.le, by decide⟩)

theorem admits_of_isShort {a : Access} (hshort : a.IsShort) : Admits data a := by
  cases a with
  | loadFlow tenant name => exact ⟨accepts_flow hshort.1 hshort.2, trivial⟩
  | createFlow tenant flow => exact ⟨accepts_flow hshort.1 hshort.2, trivial⟩
  | writeFlow tenant flow => exact ⟨accepts_flow hshort.1 hshort.2, trivial⟩
  | listFlows tenant => exact ⟨accepts_flows hshort, trivial⟩
  | locateFlow tenant name => exact ⟨trivial, trivial⟩
  | fetchConversation tenant number => exact ⟨accepts_state hshort.2, hshort.1⟩
  | putConversation tenant number doc => exact ⟨accepts_state hshort.2, hshort.1⟩
  | deleteConversation tenant number => exact ⟨accepts_state hshort.2, hshort.1⟩
  | listConversations tenant => exact ⟨accepts_state hshort, trivial⟩

end Store.Directory

namespace Deployment

variable {e : Engine} {dir : Path} {base : Place} {d : Deployment} {α : Type}

/-! ## Running over files -/

/-- A deployment works on the files of a directory, whatever they hold. -/
structure Stands (e : Engine) (dir : Path) (base : Place) (d : Deployment) : Prop where
  flows : d.store e.flows = .directory dir
  conversations : d.store e.conversations = .directory dir
  files : Directory.Stands dir base d.files

/-- What is run over the stores of a deployment on files is run over the files. -/
theorem run_files (hflows : d.store e.flows = .directory dir)
    (hconversations : d.store e.conversations = .directory dir) (p : Program α) :
    Deployment.run e p d = onFiles (p.run (Directory.access d.clock dir) Traced.log) d := by
  induction p generalizing d with
  | done a => rfl
  | fail f => rfl
  | log e' next ih => exact ih hflows hconversations
  | access a next ih =>
    have hthere :
        d.store (if a.isAboutFlows then e.flows else e.conversations) = .directory dir := by
      split
      · exact hflows
      · exact hconversations
    have hasked : Deployment.access e a d = onFiles (Directory.access d.clock dir a) d := by
      show accessStore _ a d = _
      rw [accessStore, hthere]
    show Run.bind (Deployment.access e a) _ d = _
    rw [Run.bind, hasked]
    simp only [onFiles, Run.zoom_apply, Program.run, Run.bind]
    rcases Directory.access d.clock dir a ⟨d.files, d.events⟩ with ⟨f | r, t⟩
    · rfl
    · exact ih r (d := { d with files := t.state, events := t.events }) hflows hconversations

/-- What is run over files that a store stands on leaves it standing. -/
theorem Stands.exists_run (hstands : Stands e dir base d) (p : Program α) {r : Except Failure α}
    {t : Traced Files}
    (hran : p.run (Directory.access d.clock dir) Traced.log ⟨d.files, d.events⟩ = (r, t))
    (hkept : Directory.Stands dir base t.state) :
    ∃ d', Deployment.run e p d = (r, d') ∧ Stands e dir base d' := by
  refine ⟨{ d with files := t.state, events := t.events }, ?_, hstands.flows, hstands.conversations,
    hkept⟩
  rw [run_files hstands.flows hstands.conversations, onFiles, Run.zoom_apply, hran]

/-- A program that mends comes to what is mended, whatever the files hold. -/
theorem Stands.run (hstands : Stands e Directory.data base d) {Fails : Failure → Prop}
    {Q : α → Prop} {p : Program α} (hmends : p.Mends Access.IsShort Fails Q) :
    ∃ r d', Deployment.run e p d = (r, d') ∧ IsMended Fails Q r ∧
      Stands e Directory.data base d' := by
  let Inv (t : Traced Files) : Prop := Directory.Stands Directory.data base t.state
  have hlogs (e : Event) (t : Traced Files) (hkept : Inv t) : Inv (Traced.log e t) := hkept
  have hanswers (a : Access) (t : Traced Files) (hshort : a.IsShort) (hkept : Inv t) :
      ∃ r u, Directory.access d.clock Directory.data a t = (.ok r, u) ∧ Inv u := by
    obtain ⟨r, files', events', hanswered, hkept⟩ :=
      hkept.exists_access a (Directory.admits_of_isShort hshort) d.clock t.events
    exact ⟨r, ⟨files', events'⟩, hanswered, hkept⟩
  obtain ⟨r, t, hran, hmended, hkept⟩ := hmends.run hlogs hanswers (s := ⟨d.files, d.events⟩)
    hstands.files
  obtain ⟨d', hran, hkept⟩ := hstands.exists_run p hran hkept
  exact ⟨r, d', hran, hmended, hkept⟩

/-! ## Adding a step -/

/-- Telling events comes to an end and leaves files as they are. -/
theorem exists_run_tellAll (dir : Path) (now : String) (events : List Event) (t : Traced Files) :
    ∃ t', (Program.tellAll events).run (Directory.access now dir) Traced.log t = (.ok (), t') ∧
      t'.state = t.state := by
  induction events generalizing t with
  | nil => exact ⟨t, rfl, rfl⟩
  | cons e rest ih => exact ih (t.log e)

/-- The flows that can be read go by short names. -/
def HasShortNames (d : Deployment) : Prop :=
  ∀ place content flow, d.files.node? place = some (.file content) →
    (Stored.content content).load? d.clock = some flow → (Value.str flow.name).IsShort

/-- A step that can be built is added, unless the file of its flow is spoiled. -/
theorem Stands.exists_run_addStep (hstands : Stands e Directory.data base d) {tenant name : Value}
    (hofTenant : tenant.IsShort) (hofFlow : name.IsShort) (hargument : name.IsArgument)
    (hinner : d.HasShortNames) {draft : Step.Draft} {fields : Fields}
    (hbuilt : draft.build = .ok fields) :
    ∃ r d', Deployment.run e (Authoring.addStep d.clock tenant name draft) d = (r, d') ∧
      Stands e Directory.data base d' ∧
      (Directory.IsSpoiled d.clock base (flowKey tenant name) d.files ∧
          r = .error (.flowUnavailable name) ∨
        ¬ Directory.IsSpoiled d.clock base (flowKey tenant name) d.files ∧
          ∃ flow, r = .ok (fields, flow)) := by
  obtain ⟨preset, hmade⟩ : ∃ preset,
      Flow.ofPresetNamed d.clock .leadQualification name = .ok preset := by
    unfold Flow.ofPresetNamed
    split
    · exact ⟨_, rfl⟩
    · rename_i hnoText
      rcases hargument with hempty | ⟨s, rfl⟩
      · exact ⟨_, if_pos hempty⟩
      · exact absurd rfl (hnoText s)
  have haccepts : Directory.Accepts Directory.data (Directory.flowNames (flowKey tenant name)) :=
    Directory.accepts_flow hofTenant hofFlow
  obtain ⟨r, t, hran, hkept, hwhat⟩ := hstands.files.exists_run_appendStep hmade haccepts
    (fun content flow hlies hreads =>
      Directory.accepts_flow hofTenant (hinner _ content flow hlies hreads))
    (.dict fields) d.events
  have hprogram : Authoring.addStep d.clock tenant name draft =
      (appendStep d.clock tenant name (.dict fields)).bind fun flow =>
        (Program.tellAll (flow.problems.map fun p => .flowProblem tenant name p.message)).bind
          fun _ => .done (fields, flow) := by
    unfold Authoring.addStep
    rw [hbuilt]
    rfl
  rcases hwhat with ⟨hspoiled, rfl⟩ | ⟨hsound, flow, rfl⟩
  · obtain ⟨d', hran, hstands'⟩ := hstands.exists_run (Authoring.addStep d.clock tenant name draft)
      (by rw [hprogram, Program.run_bind_apply, hran]) hkept
    exact ⟨_, d', hran, hstands', .inl ⟨hspoiled, rfl⟩⟩
  · obtain ⟨t', htold, hsame⟩ := exists_run_tellAll Directory.data d.clock
      (flow.problems.map fun p => .flowProblem tenant name p.message) t
    have hcomes : (Authoring.addStep d.clock tenant name draft).run
        (Directory.access d.clock Directory.data) Traced.log ⟨d.files, d.events⟩ =
          (.ok (fields, flow), t') := by
      rw [hprogram, Program.run_bind_apply, hran]
      simp only [Program.run_bind_apply, htold]
      rfl
    obtain ⟨d', hran, hstands'⟩ := hstands.exists_run (Authoring.addStep d.clock tenant name draft)
      hcomes (hsame.symm ▸ hkept)
    exact ⟨_, d', hran, hstands', .inr ⟨hsound, flow, rfl⟩⟩

/-- What a caller cannot mend about a step: it can be built, but the file of its flow is spoiled, or
one of its targets is cut off. -/
def Blocks (d : Deployment) (tenant name : Value) (draft : Step.Draft) : Prop :=
  (∃ fields, draft.build = .ok fields) ∧
      Directory.IsSpoiled d.clock Directory.dataPlace (flowKey tenant name) d.files ∨
    draft.build = .error .notTarget

/-- Adding a step and answering it comes to what is mended, unless the step is blocked. -/
theorem Stands.run_addStep (hstands : Stands e Directory.data Directory.dataPlace d)
    {tenant name : Value} (hofTenant : tenant.IsShort) (hofFlow : name.IsShort)
    (hargument : name.IsArgument) (hinner : d.HasShortNames) {draft : Step.Draft}
    (htyped : draft.IsTyped) {Fails : Failure → Prop}
    (hfails : ∀ fault, fault = .unknownKind draft.kind ∨ fault = .noField ∨ fault = .noText ∨
      fault = .noCondition → Fails (.draft fault))
    (answer : Fields × Flow → α) {Q : α → Prop} (holds : ∀ p, Q (answer p)) :
    ∃ r d', Deployment.run e ((Authoring.addStep d.clock tenant name draft).bind fun p =>
        .done (answer p)) d = (r, d') ∧
      (d.Blocks tenant name draft ∧ (∃ f, r = .error f ∧ f.kind = .other) ∨
        ¬ d.Blocks tenant name draft ∧ IsMended Fails Q r) := by
  cases hbuilt : draft.build with
  | ok fields =>
    obtain ⟨r, d', hran, -, hwhat⟩ := hstands.exists_run_addStep hofTenant hofFlow hargument hinner
      hbuilt
    refine ⟨_, d', run_bind_done hran answer, ?_⟩
    rcases hwhat with ⟨hspoiled, rfl⟩ | ⟨hsound, flow, rfl⟩
    · exact .inl ⟨.inl ⟨⟨fields, hbuilt⟩, hspoiled⟩, _, rfl, rfl⟩
    · exact .inr ⟨by simp [Blocks, hbuilt, hsound], holds _⟩
  | error fault =>
    have hran : Deployment.run e (Authoring.addStep d.clock tenant name draft) d =
        (.error (.draft fault), d) := by
      unfold Authoring.addStep
      rw [hbuilt]
      rfl
    refine ⟨_, _, run_bind_done hran answer, ?_⟩
    by_cases hwhole : fault = .notTarget
    · exact .inl ⟨.inr (hwhole ▸ hbuilt), _, rfl, hwhole ▸ rfl⟩
    · exact .inr ⟨by simp [Blocks, hbuilt, hwhole], hfails fault (htyped.eq_of_build hbuilt hwhole)⟩

/-! ## Opening the stores -/

/-- The same files lie in two trees, whatever directories there are. -/
def SameFiles (files files' : Files) : Prop := ∀ place content,
  files'.node? place = some (.file content) ↔ files.node? place = some (.file content)

theorem sameFiles_set {files : Files} {q : Place} (hnothing : files.node? q = none) :
    SameFiles files (files.set q .directory) := by
  intro place content
  by_cases hsame : place = q
  · subst hsame
    rw [node?_set_self (by simp [hnothing]), hnothing]
    simp
  · rw [node?_set_of_ne hsame]

theorem SameFiles.isSpoiled_iff {files files' : Files} (hsame : SameFiles files files')
    (now : String) (key : Key) :
    Directory.IsSpoiled now base key files' ↔ Directory.IsSpoiled now base key files :=
  exists_congr fun content => and_congr_left fun _ => hsame _ content

theorem SameFiles.hasShortNames {d' : Deployment} (hsame : SameFiles d.files d'.files)
    (hclock : d'.clock = d.clock) (hshort : d.HasShortNames) : d'.HasShortNames :=
  fun place content flow hlies hreads =>
    hshort place content flow ((hsame place content).1 hlies) (hclock ▸ hreads)

theorem SameFiles.blocks_iff {d' : Deployment} (hsame : SameFiles d.files d'.files)
    (hclock : d'.clock = d.clock) (tenant name : Value) (draft : Step.Draft) :
    d'.Blocks tenant name draft ↔ d.Blocks tenant name draft := by
  rw [Blocks, Blocks, hclock, hsame.isSpoiled_iff]

/-- A directory is made where it belongs. -/
theorem exists_ensureDirectories {files : Files} {path : Path} {names : List String}
    (horderly : Directory.Orderly base files) (hway : Directory.DirectoryWay names)
    (hleads : files.place path = .ok (base ++ names)) (hnonempty : path.parts ≠ []) :
    ∃ files', ensureDirectories path files = (.ok (), files') ∧
      files'.place path = .ok (base ++ names) ∧
      files'.node? (base ++ names) = some .directory ∧ Extends files files' ∧
      Directory.Orderly base files' ∧ SameFiles files files' := by
  rw [ensureDirectories_of_ne_absent hnonempty (by simp [hleads])]
  rcases horderly.directories hway with hnothing | hdirectory
  · have hfree : files.node? (base ++ names) ≠ some .directory := by simp [hnothing]
    exact ⟨_, ensureDirectory_of_nothing hleads hnothing, (extends_set hfree _).place hleads,
      node?_set_self hfree _, extends_set hfree _, horderly.make hway hnothing,
        sameFiles_set hnothing⟩
  · exact ⟨files, ensureDirectory_of_directory hleads hdirectory, hleads, hdirectory,
      Extends.refl _, horderly, fun _ _ => Iff.rfl⟩

theorem place_data (files : Files) : files.place Directory.data = .ok Directory.dataPlace := rfl

/-- The two directories of the shipped settings are made. -/
theorem exists_makeDirectories {files : Files}
    (horderly : Directory.Orderly Directory.dataPlace files) :
    ∃ files', makeDirectories Directory.data files = (.ok (), files') ∧
      Directory.Stands Directory.data Directory.dataPlace files' ∧ SameFiles files files' := by
  obtain ⟨files₁, hmade₁, hleads₁, hdirectory₁, -, horderly₁, hsame₁⟩ :=
    exists_ensureDirectories horderly .store (place_data files) (by simp [Directory.data])
  rw [List.append_nil] at hleads₁ hdirectory₁
  have hstates : files₁.place (Directory.stateDirectory Directory.data) =
      .ok (Directory.dataPlace ++ ["state"]) :=
    Directory.place_file hleads₁ hdirectory₁ Directory.isOrdinary_state (by decide)
  obtain ⟨files₂, hmade₂, hleads₂, hdirectory₂, hgrows, horderly₂, hsame₂⟩ :=
    exists_ensureDirectories horderly₁ .states hstates
      (by simp [Directory.stateDirectory, Path.below])
  refine ⟨files₂, ?_, ⟨⟨hgrows.place hleads₁, hgrows _ hdirectory₁, hleads₂, hdirectory₂⟩,
    horderly₂⟩, fun place content => (hsame₂ place content).trans (hsame₁ place content)⟩
  rw [makeDirectories, Run.bind, hmade₁]
  exact hmade₂

/-- A deployment with the shipped settings and orderly files.  It has opened no stores yet, or it
keeps those that it opened. -/
structure Ready (d : Deployment) : Prop where
  settings : d.settings = Settings.shipped
  orderly : Directory.Orderly Directory.dataPlace d.files
  kept : d.flows = none ∧ d.conversations = none ∨
    ∃ n, d.flows = some n ∧ d.conversations = some n ∧
      Stands ⟨n, n⟩ Directory.data Directory.dataPlace d

/-- The stores in a directory are made, and they are kept. -/
theorem exists_makeStores {r : Backend.Request} {text : String} {files : Files}
    (hasked : r.backend = .str "file") (hdir : r.dir = .str text)
    (hmade : makeDirectories (Path.ofText text) d.files = (.ok (), files)) :
    ∃ n d', makeStores r d = (.ok ⟨n, n⟩, d') ∧ d'.conversations = some n ∧
      d'.store n = .directory (Path.ofText text) ∧ d'.files = files ∧ d'.clock = d.clock ∧
      d'.settings = d.settings := by
  rw [makeDirectories, Run.bind] at hmade
  rcases hfirst : Files.ensureDirectories (Path.ofText text) d.files with ⟨f | _, files₁⟩
  · rw [hfirst] at hmade
    cases hmade
  · rw [hfirst] at hmade
    replace hmade : Files.ensureDirectories (Directory.stateDirectory (Path.ofText text)) files₁ =
        (.ok (), files) := hmade
    rw [makeStores, hasked]
    simp only [makeDirectory, hdir, bind, Run.bind, onFiles_openFlows, hfirst, addStore, keepFlows,
      Run.modify, onFiles_openConversations, hmade]
    exact ⟨_, _, rfl, rfl, by simp [store, log], rfl, rfl, rfl⟩

/-- Opening the stores makes what is missing, and the files stay as they are. -/
theorem Ready.exists_openEngine (hready : d.Ready) :
    ∃ e d', openEngine d = (.ok e, d') ∧ Stands e Directory.data Directory.dataPlace d' ∧
      d'.clock = d.clock ∧ d'.settings = d.settings ∧ SameFiles d.files d'.files := by
  rcases hready.kept with ⟨hnoFlows, hnoConversations⟩ | ⟨n, hflows, hconversations, hstands⟩
  · obtain ⟨files', hmade, hstands, hsame⟩ := exists_makeDirectories hready.orderly
    have hasked : d.configured.backend = .str "file" := by rw [configured, hready.settings]; rfl
    have hdir : d.configured.dir = .str "./data" := by rw [configured, hready.settings]; rfl
    obtain ⟨n, d', hopened, hconversations, hthere, rfl, hclock, hsettings⟩ :=
      exists_makeStores hasked hdir hmade
    refine ⟨⟨n, n⟩, d', ?_, ⟨hthere, hthere, hstands⟩, hclock, hsettings, hsame⟩
    simp only [openEngine, openFlows, openConversations, openStores, bind, Run.bind, hnoFlows,
      hopened, Run.pure, hconversations]
    rfl
  · refine ⟨⟨n, n⟩, d, ?_, hstands, rfl, rfl, fun _ _ => Iff.rfl⟩
    simp only [openEngine, openFlows, openConversations, bind, Run.bind, hflows, hconversations]
    rfl

end Deployment

end Dialogue

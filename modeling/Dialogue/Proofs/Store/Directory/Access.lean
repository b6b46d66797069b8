import Dialogue.Proofs.Json.RoundTrip
import Dialogue.Proofs.Store.Directory.Contents

/-!
# The store in files mirrors contents

Every access to the store in the files of a directory answers and changes what the contents say that
the files show (`Directory.mirrors`).  The store takes every access whose names its file system
accepts (`Access.SuitsFiles`).
-/

namespace Dialogue.Store

open Keyed Files

namespace Directory

variable {dir path : Path} {base q : Place} {files : Files} {m : Memory}
  {tenant name number : String} {names : List String} {events : List Event}

/-! ## Paths -/

theorem Accepts.text_lt (haccepts : Accepts dir names) :
    (dir.below names).text.utf8ByteSize < maxPath := by
  have hshort := haccepts.1
  simp only [isTooLong, Bool.or_eq_false_iff, decide_eq_false_iff_not] at hshort
  omega

/-- A name that leaves room for the file in the making leads to a child of a directory. -/
theorem place_file (hleads : files.place path = .ok q)
    (hdirectory : files.node? q = some .directory) (hordinary : IsOrdinary name)
    (hshort : isTooLong (path.below [name]) = false) :
    files.place (path.below [name]) = .ok (q ++ [name]) := by
  rcases place_child hleads hdirectory hordinary with hfound | ⟨-, hlong⟩
  · exact hfound
  · have hlast : (path.below [name]).name = name := by simp [Path.name, Path.below]
    simp only [isTooLong, hlast, Bool.or_eq_false_iff, decide_eq_false_iff_not] at hshort
    exact absurd (by omega) hlong

theorem isOrdinary_flowPath {key : Key} (hproper : key.IsOfFlow) :
    ∀ part ∈ flowNames key, IsOrdinary part := by
  simp [isOrdinary_of_isName hproper.tenant, isOrdinary_flows, isOrdinary_fileName hproper.name]

/-- Where the path of the conversations of a tenant leads. -/
theorem Shows.place_state (hshows : Shows dir base files m) (hname : Identifier.IsName tenant) :
    files.place (dir.below (stateNames tenant)) = .ok (base ++ stateNames tenant) ∨
      files.place (dir.below (stateNames tenant)) = .error .nameTooLong ∧
        ¬ Accepts dir (stateNames tenant) := by
  have hchild := place_child hshows.statePlace hshows.stateMade (isOrdinary_fileName hname)
  simp only [stateDirectory, Path.below_below, List.append_assoc, List.cons_append,
    List.nil_append] at hchild
  rcases hchild with hfound | ⟨hnowhere, hlong⟩
  · exact .inl hfound
  · refine .inr ⟨hnowhere, fun haccepts => hlong ?_⟩
    exact ⟨haccepts.text_lt, haccepts.2 _ (by simp)⟩

/-! ## Reading -/

theorem readJson_of_content {r : Except Fault (Option Content)}
    (hfound : files.content? path = r) :
    readJson path ⟨files, events⟩ = (Run.ofExcept .files r >>= fun
      | none => Run.pure .absent
      | some (.text s) =>
        match Json.read s with
        | .ok v => Run.pure (.value v)
        | .error _ => Run.pure .unreadable
      | some _ => Run.pure .unreadable) ⟨files, events⟩ := by
  subst hfound
  rfl

theorem readJson_of_nothing (hnothing : files.content? path = .ok none) :
    readJson path ⟨files, events⟩ = (.ok .absent, ⟨files, events⟩) := by
  rw [readJson_of_content hnothing]
  rfl

theorem readJson_of_error {fault : Fault} (hnowhere : files.content? path = .error fault) :
    readJson path ⟨files, events⟩ = (.error (.files fault), ⟨files, events⟩) := by
  rw [readJson_of_content hnowhere]
  rfl

theorem readJson_of_fileOf {v : Value} (hleads : files.place path = .ok q)
    (hlies : files.node? q = some (fileOf v)) (hplain : v.IsPlain) :
    readJson path ⟨files, events⟩ = (.ok (.value v), ⟨files, events⟩) := by
  rw [readJson_of_content (content?_of_place hleads hlies)]
  show (match Json.read (Json.pretty v) with
    | .ok v => Run.pure (.value v)
    | .error _ => Run.pure .unreadable : Run (Traced Files) Reading) ⟨files, events⟩ = _
  rw [Json.read_pretty hplain]
  rfl

theorem isPlain_stateOf (htidy : m.Tidy) (tenant : String) :
    (Value.dict (stateOf m tenant)).IsPlain := by
  refine Value.isPlain_dict_iff.2 ⟨nodup_pick (picks_numberOf tenant) htidy.conversationKeys, ?_⟩
  intro e he
  obtain ⟨f, hf, -, hsame⟩ := mem_pick he
  exact hsame ▸ (htidy.conversations f hf).2.isPlain

/-- The conversations of a tenant are read, unless their file has a name that is too long; then
there are none. -/
theorem Shows.readState (hshows : Shows dir base files m) (htidy : m.Tidy)
    (hname : Identifier.IsName tenant) (events : List Event) :
    readState dir tenant ⟨files, events⟩ = (.ok (stateOf m tenant), ⟨files, events⟩) ∨
      ∃ f, readState dir tenant ⟨files, events⟩ = (.error f, ⟨files, events⟩) ∧
        ¬ Accepts dir (stateNames tenant) ∧ ∀ number, (tenant, number) ∉ keys m.conversations := by
  rw [Directory.readState, statePath_eq dir hname]
  rcases hshows.place_state hname with hleads | ⟨hnowhere, hrefused⟩
  · refine .inl ?_
    rcases hshows.states hname with ⟨hnothing, hempty⟩ | hlies
    · have hfound : files.content? (dir.below (stateNames tenant)) = .ok none := by
        simp [content?, find?, hleads, hnothing]
      rw [Run.bind_ok (readJson_of_nothing hfound), hempty]
      rfl
    · rw [Run.bind_ok (readJson_of_fileOf hleads hlies (isPlain_stateOf htidy tenant))]
      rfl
  · have hmissing : files.content? (dir.below (stateNames tenant)) = .error .nameTooLong := by
      simp [content?, find?, hnowhere]
    refine .inr ⟨_, Run.bind_error (readJson_of_error hmissing), hrefused, fun number hlisted => ?_⟩
    have hleads := hshows.statePlaces hlisted
    rw [hnowhere] at hleads
    cases hleads

/-! ## Listing -/

theorem flowOfFile?_fileName (hnonempty : name.toList ≠ []) :
    flowOfFile? (fileName name) = some name := by
  have htext : (fileName name).toList = name.toList ++ ".json".toList := String.toList_append
  have hlength : (".json" : String).toList.length = 5 := rfl
  have hending : ".json".toList.isSuffixOf (name.toList ++ ".json".toList) = true :=
    List.isSuffixOf_iff_suffix.2 (List.suffix_append _ _)
  have hlonger : (name.toList ++ ".json".toList).length ≠ 5 := by
    have := List.length_pos_iff.2 hnonempty
    simp only [List.length_append, hlength]
    omega
  simp only [flowOfFile?, htext, if_pos hending, if_neg hlonger]
  simp only [List.length_append, hlength, Nat.add_sub_cancel, List.take_left, String.ofList_toList]

/-- The files of the flows of a tenant have the names of these flows. -/
theorem filterMap_flowOf (htidy : m.Tidy) (tenant : String) :
    ((keys m.flows).filterMap (flowOf tenant)).filterMap flowOfFile? =
      (keys m.flows).filterMap fun k => if k.1 = tenant then some k.2 else none := by
  have hnamed : ∀ e ∈ m.flows, e.1.2.toList ≠ [] := fun e he => (htidy.flows e he).1.name.nonempty
  generalize m.flows = flows at hnamed
  induction flows with
  | nil => rfl
  | cons e rest ih =>
    obtain ⟨hfirst, hothers⟩ := List.forall_mem_cons.1 hnamed
    by_cases hsame : e.1.1 = tenant <;> simp [flowOf, hsame, flowOfFile?_fileName hfirst,
      ih hothers]

theorem isLegible_of_accepts {p : Place} (hbase : files.place dir = .ok p)
    (hordinary : ∀ part ∈ names, IsOrdinary part) (haccepts : Accepts dir names) :
    IsLegible (dir.below names) :=
  ⟨noNul_below (isLegible_of_place hbase).noNul hordinary, haccepts.text_lt⟩

/-- The names of the files of the flows of a tenant, unless the path of their directory is too long.
-/
theorem Shows.names_flows (hshows : Shows dir base files m) (hname : Identifier.IsName tenant) :
    files.names (dir.below [tenant, "flows"]) = .ok ((keys m.flows).filterMap (flowOf tenant)) ∨
      files.names (dir.below [tenant, "flows"]) = .error .nameTooLong ∧
        ¬ Accepts dir [tenant, "flows"] := by
  have hordinary : ∀ part ∈ [tenant, "flows"], IsOrdinary part := by
    simp [isOrdinary_of_isName hname, isOrdinary_flows]
  have hnoNul := noNul_below (isLegible_of_place hshows.place).noNul hordinary
  -- A flow of the tenant lies in a directory, so without one there is none.
  have hnone (habsent : ∀ p, files.place (dir.below [tenant, "flows"]) = .ok p →
      files.node? p ≠ some .directory) : (keys m.flows).filterMap (flowOf tenant) = [] := by
    rw [List.filterMap_eq_nil_iff]
    rintro ⟨other, name⟩ hlisted
    refine if_neg ?_
    rintro rfl
    have hleads := hshows.flowPlaces hlisted
    rw [show flowNames (other, name) = [other, "flows"] ++ [fileName name] from rfl] at hleads
    have hlegible := isLegible_of_below (isLegible_of_place hleads) hnoNul (by simp)
    rw [← Path.below_below] at hleads
    obtain ⟨p, habove, hdirectory⟩ := place_parent hleads hlegible
    exact habsent p habove hdirectory
  cases hleads : files.place (dir.below [tenant, "flows"]) with
  | ok q =>
    refine .inl ?_
    have hlegible := isLegible_of_place hleads
    have hfollowed := place_below hshows.place hlegible
    obtain rfl := eq_of_follow hordinary (hfollowed.symm.trans hleads)
    have hlisted : (keys m.flows).filterMap (flowOf tenant) =
        (keys files).filterMap (flowFile base tenant) := by
      rw [← keys_pick, ← keys_pick, hshows.flows hname, keys_mapValues]
    rcases hshows.flowDirectories hname with hnothing | hdirectory
    · rw [hnone fun p hsame => by cases hleads.symm.trans hsame; simp [hnothing]]
      simp [Files.names, find?, hleads, hnothing]
    · rw [hlisted]
      simp only [Files.names, find?, hleads, hdirectory, keys, List.filterMap_map]
      rfl
  | error fault =>
    have hnowhere := hnone fun p hsame => by cases hleads.symm.trans hsame
    by_cases htooLong : fault = .nameTooLong
    · subst htooLong
      refine .inr ⟨by simp [Files.names, find?, hleads], fun haccepts => ?_⟩
      rw [place_below hshows.place (isLegible_of_accepts hshows.place hordinary haccepts)] at hleads
      obtain ⟨part, hon, hlong⟩ := exists_long_of_follow hleads
      exact absurd (haccepts.2 part hon) (Nat.not_le.2 hlong)
    · refine .inl ?_
      have hfound : files.find? (dir.below [tenant, "flows"]) = .ok none := by
        rw [find?, hleads]
        cases fault <;> first | rfl | exact absurd rfl htooLong
      rw [Files.names, hfound, hleads, hnowhere]

/-! ## Writing -/

theorem prepare_of_ok {files' : Files}
    (hmade : ensureDirectories path.parent files = (.ok (), files')) :
    prepare path files =
      if isTooLong path then (.error (.files .nameTooLong), files') else (.ok (), files') := by
  rw [prepare, Run.bind_ok hmade]
  cases isTooLong path <;> rfl

/-- The way to the file of a flow is made, unless its names are not accepted. -/
theorem prepareFlow_of_keeps {I : Files → Prop} {key : Key}
    (hkeeps : Keeps I dir base key.1 "flows") (hinv : I files) (hproper : key.IsOfFlow) :
    ∃ files', I files' ∧
      (prepare (dir.below (flowNames key)) files = (.ok (), files') ∧
        files'.place (dir.below (flowNames key)) =
          .ok (base ++ flowNames key) ∨
      ∃ f, prepare (dir.below (flowNames key)) files = (.error f, files') ∧
        ¬ Accepts dir (flowNames key)) := by
  have hsplit : dir.below (flowNames key) =
      (dir.below [key.1, "flows"]).below [fileName key.2] := by simp
  rcases hkeeps.ensureDirectories_lower hinv with
    ⟨files', hmade, hinv', hleads, hdirectory⟩ | ⟨f, hfailed, hlong⟩
  · have habove : (dir.below (flowNames key)).parent = dir.below [key.1, "flows"] := by
      rw [hsplit, Path.parent_below_singleton]
    have hprepared := prepare_of_ok (habove.symm ▸ hmade)
    refine ⟨files', hinv', ?_⟩
    cases hshort : isTooLong (dir.below (flowNames key)) with
    | false =>
      rw [hshort] at hprepared
      have hleads' := place_file hleads hdirectory (isOrdinary_fileName hproper.name)
        (hsplit ▸ hshort)
      exact .inl ⟨hprepared, by simpa using hleads'⟩
    | true =>
      rw [hshort] at hprepared
      exact .inr ⟨_, hprepared, fun haccepts => by simp [haccepts.1] at hshort⟩
  · refine ⟨files, hinv, .inr ⟨f, ?_, fun haccepts => hlong ⟨?_, haccepts.2 _ (by simp)⟩⟩⟩
    · rw [hsplit, prepare, Path.parent_below_singleton, Run.bind_error hfailed]
    · exact Nat.lt_of_le_of_lt (text_below_le dir [fileName key.2] (by simp)) haccepts.text_lt

/-- The way to the file of a flow is made; what is made on it shows nothing. -/
theorem Shows.prepareFlow (hshows : Shows dir base files m) {key : Key} (hproper : key.IsOfFlow) :
    ∃ files', Shows dir base files' m ∧
      (prepare (dir.below (flowNames key)) files = (.ok (), files') ∧
        files'.place (dir.below (flowNames key)) =
          .ok (base ++ flowNames key) ∨
      ∃ f, prepare (dir.below (flowNames key)) files = (.error f, files') ∧
        ¬ Accepts dir (flowNames key)) :=
  prepareFlow_of_keeps (keeps dir base m hproper.tenant) hshows hproper

/-- A file that can be written, once the way to it was made, has names that are accepted. -/
theorem accepts_of_prepare {files' : Files}
    (hprepared : prepare (dir.below names) files = (.ok (), files'))
    (hstart : files'.place dir = .ok base) (hleads : files'.place (dir.below names) = .ok q) :
    Accepts dir names := by
  obtain ⟨_, made, -, hfits⟩ := Run.exists_of_bind hprepared
  refine ⟨?_, short_of_follow ((place_below hstart (isLegible_of_place hleads)).symm.trans hleads)⟩
  cases hshort : isTooLong (dir.below names) with
  | false => rfl
  | true =>
    rw [hshort] at hfits
    cases hfits

/-- The way to the file of the conversations of a tenant is there. -/
theorem Shows.prepareState (hshows : Shows dir base files m) (hname : Identifier.IsName tenant) :
    prepare (dir.below (stateNames tenant)) files = (.ok (), files) ∧
        files.place (dir.below (stateNames tenant)) =
          .ok (base ++ stateNames tenant) ∨
      ∃ f, prepare (dir.below (stateNames tenant)) files = (.error f, files) ∧
        ¬ Accepts dir (stateNames tenant) := by
  have hsplit : dir.below (stateNames tenant) =
      (stateDirectory dir).below [fileName tenant] := by simp [stateDirectory]
  have habove : (dir.below (stateNames tenant)).parent = stateDirectory dir := by
    rw [hsplit, Path.parent_below_singleton]
  have hprepared := prepare_of_ok (habove.symm ▸
    ensureDirectories_of_directory hshows.statePlace hshows.stateMade)
  cases hshort : isTooLong (dir.below (stateNames tenant)) with
  | false =>
    rw [hshort] at hprepared
    have hleads := place_file hshows.statePlace hshows.stateMade (isOrdinary_fileName hname)
      (hsplit ▸ hshort)
    exact .inl ⟨hprepared, by simpa [hsplit] using hleads⟩
  | true =>
    rw [hshort] at hprepared
    exact .inr ⟨_, hprepared, fun haccepts => by simp [haccepts.1] at hshort⟩

/-! ## Accesses -/

/-- What an access to the files comes to. -/
abbrev Does (dir : Path) (base : Place) (now : String) (m : Memory) (a : Access) :=
  Follows now (Access.SuitsFiles dir) (fun (t : Traced Files) m => Shows dir base t.state m) m a

theorem apply_write_of_place (hleads : files.place path = .ok q)
    (hfree : files.node? q ≠ some .directory) (v : Value) :
    Files.apply (fun files => files.write path (.text (Json.pretty v))) files =
      (.ok (), files.set q (fileOf v)) := by
  simp only [Files.apply, write_of_place hleads hfree]
  rfl

theorem writeJson_of_place {files' : Files} (hprepared : prepare path files = (.ok (), files'))
    (hleads : files'.place path = .ok q) (hfree : files'.node? q ≠ some .directory) (v : Value) :
    writeJson path v ⟨files, events⟩ = (.ok (), ⟨files'.set q (fileOf v), events⟩) := by
  rw [writeJson, Run.silently_apply, Run.bind_ok hprepared, apply_write_of_place hleads hfree]

theorem writeJson_of_error {files' : Files} {f : Failure}
    (hfailed : prepare path files = (.error f, files')) (v : Value) :
    writeJson path v ⟨files, events⟩ = (.error f, ⟨files', events⟩) := by
  rw [writeJson, Run.silently_apply, Run.bind_error hfailed]

/-- A document is not written where something lies. -/
theorem createJson_of_occupied {files' : Files} {node : Node}
    (hprepared : prepare path files = (.ok (), files')) (hleads : files'.place path = .ok q)
    (hlies : files'.node? q = some node) (v : Value) :
    createJson path v ⟨files, events⟩ = (.ok false, ⟨files', events⟩) := by
  have hfound : files'.find? path = .ok (some node) := by simp [find?, hleads, hlies]
  rw [createJson, Run.silently_apply, Run.bind_ok hprepared, Run.bind_ok (Run.get_apply files'),
    hfound]
  rfl

theorem createJson_of_nothing {files' : Files} (hprepared : prepare path files = (.ok (), files'))
    (hleads : files'.place path = .ok q) (hnothing : files'.node? q = none) (v : Value) :
    createJson path v ⟨files, events⟩ = (.ok true, ⟨files'.set q (fileOf v), events⟩) := by
  have hfound : files'.find? path = .ok none := by simp [find?, hleads, hnothing]
  rw [createJson, Run.silently_apply, Run.bind_ok hprepared, Run.bind_ok (Run.get_apply files'),
    hfound]
  simp only
  rw [Run.bind_ok (apply_write_of_place hleads (by simp [hnothing]) v)]
  rfl

theorem createJson_of_error {files' : Files} {f : Failure}
    (hfailed : prepare path files = (.error f, files')) (v : Value) :
    createJson path v ⟨files, events⟩ = (.error f, ⟨files', events⟩) := by
  rw [createJson, Run.silently_apply, Run.bind_error hfailed]

theorem Shows.node?_state (hshows : Shows dir base files m) (hname : Identifier.IsName tenant) :
    files.node? (base ++ stateNames tenant) ≠ some .directory := by
  rcases hshows.states hname with ⟨hnothing, -⟩ | hfile
  · simp [hnothing]
  · simp [hfile, fileOf]

theorem Shows.node?_flow_ne (hshows : Shows dir base files m) {key : Key} (hproper : key.IsOfFlow) :
    files.node? (base ++ flowNames key) ≠ some .directory := by
  rw [hshows.node?_flow key hproper]
  cases m.flows.get? key <;> simp [fileOf]

section

variable (hshows : Shows dir base files m) (now : String) (events : List Event)

include hshows

theorem does_loadFlow (htidy : m.Tidy) (tenant name : Value) :
    Does dir base now m (.loadFlow tenant name)
      (access now dir (.loadFlow tenant name) ⟨files, events⟩) := by
  have hproper := isOfFlow_flowKey tenant name
  have hlies := hshows.node?_flow _ hproper
  have hdocument := Memory.document?_flows htidy (flowKey tenant name)
  cases hfound : m.flows.get? (flowKey tenant name) with
  | none =>
    rw [hfound] at hlies
    rcases content?_of_nothing hshows.place (isOrdinary_flowPath hproper) hlies with
      hnothing | ⟨hnowhere, hlong⟩
    · refine .of_ok (r := none) (t := ⟨files, events⟩) ?_ ?_ hshows
      · rw [access, flowPath_eq]
        exact Run.bind_ok (readJson_of_nothing hnothing)
      · simp [Access.Same, Memory.answer, Memory.flow?, hdocument, hfound]
    · refine .of_error (f := .files .nameTooLong) (t := ⟨files, events⟩) ?_ ?_ hshows
      · rw [access, flowPath_eq]
        exact Run.bind_error (readJson_of_error hnowhere)
      · rintro ⟨-, hlisted | haccepts⟩
        · exact Keyed.get?_eq_none_iff.1 hfound hlisted
        · exact hlong ⟨haccepts.text_lt, haccepts.2⟩
  | some doc =>
    rw [hfound] at hlies
    have hentry := mem_of_get?_eq_some hfound
    have hplain := (htidy.flows _ hentry).2.isPlain
    have hleads := hshows.flowPlaces (mem_keys_of_mem hentry)
    have hread : readJson _ ⟨files, events⟩ = _ := readJson_of_fileOf hleads hlies hplain
    cases hparsed : Flow.ofValue now doc with
    | ok flow =>
      refine .of_ok (r := some flow) (t := ⟨files, events⟩) ?_ ?_ hshows
      · rw [access, flowPath_eq]
        refine (Run.bind_ok hread).trans ?_
        simp [hparsed]
      · simp [Access.Same, Memory.answer, Memory.flow?, hdocument, hfound, hparsed, Except.toOption]
    | error mismatch =>
      refine .of_ok (r := none)
        (t := ⟨files, .flowFileUnreadable (flowPath dir tenant name).text :: events⟩) ?_ ?_ hshows
      · rw [access, flowPath_eq]
        refine (Run.bind_ok hread).trans ?_
        simp [hparsed, Traced.log]
      · simp [Access.Same, Memory.answer, Memory.flow?, hdocument, hfound, hparsed, Except.toOption]

theorem does_createFlow (tenant : Value) (flow : Flow) :
    Does dir base now m (.createFlow tenant flow)
      (access now dir (.createFlow tenant flow) ⟨files, events⟩) := by
  have hproper := isOfFlow_flowKey tenant (.str flow.name)
  rw [access, flowPath_eq]
  obtain ⟨files', hshows', ⟨hprepared, hleads⟩ | ⟨f, hfailed, hrefused⟩⟩ :=
    hshows.prepareFlow hproper
  · have hlies := hshows'.node?_flow _ hproper
    cases hfound : m.flows.get? (flowKey tenant (.str flow.name)) with
    | some doc =>
      rw [hfound] at hlies
      have htaken : m.flows.has (flowKey tenant (.str flow.name)) = true := by simp [has, hfound]
      refine .of_ok (createJson_of_occupied hprepared hleads hlies _) ?_ ?_
      · simp [Access.Same, Memory.answer, htaken]
      · simpa [Memory.after, htaken] using hshows'
    | none =>
      rw [hfound] at hlies
      have htaken : m.flows.has (flowKey tenant (.str flow.name)) = false := by simp [has, hfound]
      refine .of_ok (createJson_of_nothing hprepared hleads hlies _) ?_ ?_
      · simp [Access.Same, Memory.answer, htaken]
      · have hwritten := hshows'.writeFlow hproper hleads (.dict flow.document)
        simpa [Memory.after, htaken, Memory.withFlow] using hwritten
  · exact .of_error (createJson_of_error hfailed _) hrefused hshows'

theorem accepts_of_createFlow {tenant : Value} {flow : Flow} {created : Bool} {t : Traced Files}
    (hdone : access now dir (.createFlow tenant flow) ⟨files, events⟩ = (.ok created, t)) :
    Accepts dir (flowNames (flowKey tenant (.str flow.name))) := by
  rw [access, flowPath_eq] at hdone
  obtain ⟨files', hshows', ⟨hprepared, hleads⟩ | ⟨f, hfailed, -⟩⟩ :=
    hshows.prepareFlow (isOfFlow_flowKey tenant (.str flow.name))
  · exact accepts_of_prepare hprepared hshows'.place hleads
  · rw [createJson_of_error hfailed] at hdone
    cases hdone

theorem does_writeFlow (tenant : Value) (flow : Flow) :
    Does dir base now m (.writeFlow tenant flow)
      (access now dir (.writeFlow tenant flow) ⟨files, events⟩) := by
  have hproper := isOfFlow_flowKey tenant (.str flow.name)
  rw [access, flowPath_eq]
  obtain ⟨files', hshows', ⟨hprepared, hleads⟩ | ⟨f, hfailed, hrefused⟩⟩ :=
    hshows.prepareFlow hproper
  · have hwritten : writeJson _ _ ⟨files, events⟩ = _ := writeJson_of_place hprepared hleads
      (hshows'.node?_flow_ne hproper) (.dict flow.document)
    exact .of_ok (Run.bind_ok hwritten) trivial
      (hshows'.writeFlow hproper hleads (.dict flow.document))
  · exact .of_error (Run.bind_error (writeJson_of_error hfailed _)) hrefused hshows'

theorem does_listFlows (htidy : m.Tidy) (tenant : Value) :
    Does dir base now m (.listFlows tenant)
      (access now dir (.listFlows tenant) ⟨files, events⟩) := by
  rcases hshows.names_flows (Identifier.isName_safeName tenant) with hlisted | ⟨hnowhere, hrefused⟩
  · refine .of_ok (r := listUnder (Identifier.safeName tenant) m.flows) (t := ⟨files, events⟩)
      ?_ rfl hshows
    rw [access, Run.read_bind, flowsPath, hlisted]
    show (Except.ok (sortTexts _), _) = _
    rw [filterMap_flowOf htidy]
    rfl
  · refine .of_error (f := .files .nameTooLong) (t := ⟨files, events⟩) ?_ hrefused hshows
    rw [access, Run.read_bind, flowsPath, hnowhere]
    rfl

theorem does_fetchConversation (htidy : m.Tidy) (hproper : Key.IsOfConversation (tenant, number)) :
    Does dir base now m (.fetchConversation tenant number)
      (access now dir (.fetchConversation tenant number) ⟨files, events⟩) := by
  rcases hshows.readState htidy hproper.tenant events with hread | ⟨f, hfailed, hrefused, habsent⟩
  · have hsame : Fields.get? (stateOf m tenant) number = m.conversations.get? (tenant, number) :=
      get?_pick (picks_numberOf tenant) (numberOf_self tenant number) _
    refine .of_ok (r := m.conversations.get? (tenant, number)) (t := ⟨files, events⟩) ?_ ?_ hshows
    · rw [access, Run.bind_ok hread, hsame]
      cases hfound : m.conversations.get? (tenant, number) with
      | none => rfl
      | some doc =>
        obtain ⟨c, -, rfl⟩ := (htidy.conversations _ (mem_of_get?_eq_some hfound)).2
        rfl
    · simp [Access.Same, Memory.answer, Memory.document?_conversations htidy]
  · refine .of_error (Run.bind_error hfailed) ?_ hshows
    rintro (hlisted | haccepts)
    · exact habsent number hlisted
    · exact hrefused haccepts

theorem does_putConversation (htidy : m.Tidy) (hproper : Key.IsOfConversation (tenant, number))
    (doc : Value) :
    Does dir base now m (.putConversation tenant number doc)
      (access now dir (.putConversation tenant number doc) ⟨files, events⟩) := by
  rw [access, statePath_eq dir hproper.tenant]
  rcases hshows.readState htidy hproper.tenant events with hread | ⟨f, hfailed, hrefused, -⟩
  · rw [Run.bind_ok hread]
    rcases hshows.prepareState hproper.tenant with ⟨hprepared, hleads⟩ | ⟨f, hfailed, hrefused⟩
    · have hsame : Fields.set (stateOf m tenant) number doc =
          pick (numberOf tenant) (m.conversations.set (tenant, number) doc) :=
        (pick_set (picks_numberOf tenant) (numberOf_self tenant number) _ _).symm
      refine .of_ok (writeJson_of_place hprepared hleads (hshows.node?_state hproper.tenant) _) rfl
        ?_
      rw [hsame]
      exact hshows.writeState hproper.tenant hleads _ fun other hdifferent =>
        pick_set_of_none (numberOf_of_ne hdifferent.symm number) _ _
    · exact .of_error (writeJson_of_error hfailed _) hrefused hshows
  · exact .of_error (Run.bind_error hfailed) hrefused hshows

/-- Where a conversation was put, the name of the file is accepted. -/
theorem accepts_of_putConversation (htidy : m.Tidy)
    (hproper : Key.IsOfConversation (tenant, number)) {doc : Value} {t : Traced Files}
    (hdone : access now dir (.putConversation tenant number doc) ⟨files, events⟩ = (.ok (), t)) :
    Accepts dir (stateNames tenant) := by
  rw [access, statePath_eq dir hproper.tenant] at hdone
  rcases hshows.readState htidy hproper.tenant events with hread | ⟨f, hfailed, -, -⟩
  · rw [Run.bind_ok hread] at hdone
    rcases hshows.prepareState hproper.tenant with ⟨hprepared, hleads⟩ | ⟨f, hfailed, -⟩
    · exact accepts_of_prepare hprepared hshows.place hleads
    · rw [writeJson_of_error hfailed] at hdone
      cases hdone
  · rw [Run.bind_error hfailed] at hdone
    cases hdone

theorem does_deleteConversation (htidy : m.Tidy) (hproper : Key.IsOfConversation (tenant, number)) :
    Does dir base now m (.deleteConversation tenant number)
      (access now dir (.deleteConversation tenant number) ⟨files, events⟩) := by
  rw [access, statePath_eq dir hproper.tenant]
  rcases hshows.readState htidy hproper.tenant events with hread | ⟨f, hfailed, hrefused, -⟩
  · rw [Run.bind_ok hread]
    have hthere : Fields.has (stateOf m tenant) number = m.conversations.has (tenant, number) := by
      rw [Fields.has, has, has, stateOf,
        get?_pick (picks_numberOf tenant) (numberOf_self tenant number)]
    rw [hthere]
    cases hlisted : m.conversations.has (tenant, number) with
    | true =>
      rcases hshows.prepareState hproper.tenant with ⟨hprepared, hleads⟩ | ⟨f, hfailed, hrefused⟩
      · have hsame : (stateOf m tenant).erase number =
            pick (numberOf tenant) (m.conversations.erase (tenant, number)) :=
          (pick_erase (picks_numberOf tenant) (numberOf_self tenant number) _).symm
        have hwritten : writeJson _ _ ⟨files, events⟩ = _ := writeJson_of_place hprepared hleads
          (hshows.node?_state hproper.tenant) (.dict ((stateOf m tenant).erase number))
        refine .of_ok (Run.bind_ok hwritten) hlisted.symm ?_
        rw [hsame]
        exact hshows.writeState hproper.tenant hleads _ fun other hdifferent =>
          pick_erase_of_none (numberOf_of_ne hdifferent.symm number) _
      · exact .of_error (Run.bind_error (writeJson_of_error hfailed _)) hrefused hshows
    | false =>
      have habsent : (tenant, number) ∉ keys m.conversations := by
        rw [← has_eq_true_iff, hlisted]
        simp
      refine .of_ok (r := false) (t := ⟨files, events⟩) rfl hlisted.symm ?_
      rw [Memory.after, Memory.withoutConversation, erase_of_notMem habsent]
      exact hshows
  · exact .of_error (Run.bind_error hfailed) hrefused hshows

theorem does_listConversations (htidy : m.Tidy) (tenant : Value) :
    Does dir base now m (.listConversations tenant)
      (access now dir (.listConversations tenant) ⟨files, events⟩) := by
  rcases hshows.readState htidy (Identifier.isName_safeName tenant) events with
    hread | ⟨f, hfailed, hrefused, -⟩
  · refine .of_ok (r := listUnder (Identifier.safeName tenant) m.conversations)
      (t := ⟨files, events⟩) ?_ rfl hshows
    rw [access, Run.bind_ok hread, stateOf, keys_pick]
    rfl
  · exact .of_error (Run.bind_error hfailed) hrefused hshows

end

/-- The store in the files of a directory mirrors the contents that the files show. -/
theorem mirrors (dir : Path) (base : Place) (now : String) :
    Mirrors (access now dir) Traced.log now (Access.SuitsFiles dir)
      fun t m => Shows dir base t.state m where
  log _ hshows := hshows
  access := by
    rintro ⟨files, events⟩ m a hshows htidy hproper
    cases a with
    | loadFlow tenant name => exact does_loadFlow hshows now events htidy tenant name
    | createFlow tenant flow => exact does_createFlow hshows now events tenant flow
    | writeFlow tenant flow => exact does_writeFlow hshows now events tenant flow
    | listFlows tenant => exact does_listFlows hshows now events htidy tenant
    | locateFlow tenant name => exact .of_ok rfl trivial hshows
    | fetchConversation tenant number =>
      exact does_fetchConversation hshows now events htidy hproper
    | putConversation tenant number doc =>
      exact does_putConversation hshows now events htidy hproper.1 doc
    | deleteConversation tenant number =>
      exact does_deleteConversation hshows now events htidy hproper
    | listConversations tenant => exact does_listConversations hshows now events htidy tenant

end Directory

end Dialogue.Store

import Dialogue.Proofs.Engine.Conduct
import Dialogue.Proofs.Store.Directory.Tenant
import Dialogue.Proofs.Store.Stored

/-!
# The conversations of a tenant in one file

All conversations of a tenant lie in one document, whatever it was that wrote it.  What is read from
its file is a matter of the content of the file (`stateIn`).  Putting a conversation there reads the
document, changes one entry and writes it, and the file is read again as it was with that change
(`exists_putConversation`): the numbers that are not finite, too, are read as they were written.

Whoever follows one conversation does not see more of the files than the flows and the entry of this
conversation (`Sees`).  Putting the conversation agrees on files that are seen alike
(`agrees_of_converses`), and putting another one spares what is seen (`spares_of_converses`), even
if it is one of the same tenant.  The document of a tenant is changed inside of the lock of the
tenant only (`stateIn_of_other`).
-/

namespace Dialogue.Store

open Keyed Files Run

namespace Directory

variable {dir path : Path} {base q : Place} {files files' : Files} {tenant other number : String}
  {events : List Event} {key : Key}

/-! ## What is read -/

/-- What a look at a file finds in its content. -/
def readingOf (found : Except Fault (Option Content)) : Except Failure Reading :=
  (found.mapError .files).map fun content => content.elim .absent .ofContent

theorem readingOf_text (s : String) : readingOf (.ok (some (.text s))) =
    .ok (match Json.read s with
      | .ok v => .value v
      | .error _ => .unreadable) := by
  show Except.ok (Reading.ofContent (.text s)) = _
  simp only [Reading.ofContent, Stored.document?]
  cases Json.read s <;> rfl

/-- The conversations that were read; nothing where the file was absent, unreadable or no object. -/
def Reading.fields : Reading → Fields
  | .value (.dict fields) => fields
  | _ => []

/-- The conversations of a tenant in the files. -/
def stateIn (dir : Path) (tenant : String) (files : Files) : Except Failure Fields :=
  (readingOf (files.content? (statePath dir tenant))).map Reading.fields

/-- What is logged when the conversations of a tenant are read. -/
def stateReports (dir : Path) (tenant : String) (files : Files) : List Event :=
  match readingOf (files.content? (statePath dir tenant)) with
  | .ok .unreadable => [.stateFileUnreadable (statePath dir tenant).text]
  | _ => []

theorem readState_eq (dir : Path) (tenant : String) (files : Files) (events : List Event) :
    readState dir tenant ⟨files, events⟩ =
      (stateIn dir tenant files, ⟨files, stateReports dir tenant files ++ events⟩) := by
  have hread : readJson (statePath dir tenant) ⟨files, events⟩ =
      (readingOf (files.content? (statePath dir tenant)), ⟨files, events⟩) := readJson_eq _ _
  rw [stateIn, stateReports]
  rcases hfound : readingOf (files.content? (statePath dir tenant)) with f | reading <;>
    rw [hfound] at hread
  · exact Run.bind_error hread
  · rcases reading with _ | v | _
    · exact Run.bind_ok hread
    · cases v <;> exact Run.bind_ok hread
    · exact Run.bind_ok hread

theorem exists_readState (dir : Path) (tenant : String) (files : Files) (events : List Event) :
    ∃ events', readState dir tenant ⟨files, events⟩ =
      (stateIn dir tenant files, ⟨files, events'⟩) :=
  ⟨_, readState_eq dir tenant files events⟩

/-- The document of a conversation that an entry holds; other entries count as absent. -/
def conversationOf : Option Value → Option Value
  | some (.dict fields) => some (.dict fields)
  | _ => none

/-- A conversation is looked for among those of its tenant. -/
theorem fetchConversation_eq (now : String) (dir : Path) (tenant number : String)
    (files : Files) (events : List Event) :
    access now dir (.fetchConversation tenant number) ⟨files, events⟩ =
      ((stateIn dir tenant files).bind fun state =>
        .ok (conversationOf (Fields.get? state number)),
        ⟨files, stateReports dir tenant files ++ events⟩) := by
  have hread := readState_eq dir tenant files events
  rcases hfound : stateIn dir tenant files with f | state <;> rw [hfound] at hread
  · exact Run.bind_error hread
  · refine (Run.bind_ok hread).trans ?_
    show _ = (Except.ok (conversationOf (Fields.get? state number)), _)
    rcases Fields.get? state number with _ | v
    · rfl
    · cases v <;> rfl

theorem exists_fetchConversation (now : String) (dir : Path) (tenant number : String)
    (files : Files) (events : List Event) :
    ∃ events', access now dir (.fetchConversation tenant number) ⟨files, events⟩ =
      ((stateIn dir tenant files).bind fun state =>
        .ok (conversationOf (Fields.get? state number)), ⟨files, events'⟩) :=
  ⟨_, fetchConversation_eq now dir tenant number files events⟩

/-- The conversations in a file are a document. -/
theorem isJson_stateIn {state : Fields} (hfound : stateIn dir tenant files = .ok state) :
    (Value.dict state).IsJson := by
  have hempty : (Value.dict []).IsJson := Value.isJson_dict_iff.2 ⟨List.nodup_nil, by simp⟩
  rw [stateIn] at hfound
  rcases hcontent : files.content? (statePath dir tenant) with fault | _ | ⟨s⟩ | _ | _ <;>
    rw [hcontent] at hfound
  · cases hfound
  · cases hfound
    exact hempty
  · rw [readingOf_text] at hfound
    cases hparsed : Json.read s with
    | error fault =>
      rw [hparsed] at hfound
      cases hfound
      exact hempty
    | ok v =>
      rw [hparsed] at hfound
      cases hfound
      cases v <;> first | exact hempty | exact Json.isJson_of_read hparsed
  · cases hfound
    exact hempty
  · cases hfound
    exact hempty

theorem isDocument_of_conversationOf {state : Fields}
    (hfound : stateIn dir tenant files = .ok state)
    {doc : Value} (holds : conversationOf (Fields.get? state number) = some doc) :
    doc.IsDocument := by
  obtain ⟨-, hentries⟩ := Value.isJson_dict_iff.1 (isJson_stateIn hfound)
  cases hentry : Fields.get? state number with
  | none =>
    rw [hentry] at holds
    cases holds
  | some v =>
    have hjson : v.IsJson := hentries _ (Keyed.mem_of_get?_eq_some hentry)
    rw [hentry] at holds
    cases v with
    | dict fields =>
      cases holds
      exact hjson.isDocument
    | _ => cases holds

theorem isJson_set {state : Fields} (hjson : (Value.dict state).IsJson) (number : String)
    {doc : Value} (hwritten : doc.IsJson) : (Value.dict (Fields.set state number doc)).IsJson := by
  obtain ⟨hnodup, hentries⟩ := Value.isJson_dict_iff.1 hjson
  refine Value.isJson_dict_iff.2 ⟨Keyed.nodup_set hnodup _ _, fun e hlisted => ?_⟩
  rcases Keyed.mem_set hlisted with rfl | hlisted
  · exact hwritten
  · exact hentries e hlisted

theorem isJson_erase {state : Fields} (hjson : (Value.dict state).IsJson) (number : String) :
    (Value.dict (state.erase number)).IsJson := by
  obtain ⟨hnodup, hentries⟩ := Value.isJson_dict_iff.1 hjson
  exact Value.isJson_dict_iff.2 ⟨Keyed.nodup_erase hnodup _, fun e hlisted =>
    hentries e (Keyed.mem_of_mem_erase hlisted)⟩

/-! ## What is written -/

/-- Conversations that were written are read again, and nothing is logged. -/
theorem stateIn_of_written (hleads : files.place (statePath dir tenant) = .ok q)
    (hfree : files.node? q ≠ some .directory) {state : Fields} (hjson : (Value.dict state).IsJson) :
    stateIn dir tenant (files.set q (fileOf (.dict state))) = .ok state ∧
      stateReports dir tenant (files.set q (fileOf (.dict state))) = [] := by
  have hagain := content?_of_place ((extends_set hfree _).place hleads)
    (node?_set_self hfree (fileOf (.dict state)))
  rw [stateIn, stateReports, hagain, readingOf_text, Json.read_pretty_of_isJson hjson]
  exact ⟨rfl, rfl⟩

/-- The conversations are written to the file that is read, unless its name is too long. -/
theorem writeJson_state (hlaid : Laid dir base files) (hname : Identifier.IsName tenant)
    {state : Fields} (hfound : stateIn dir tenant files = .ok state) (v : Value)
    (events : List Event) :
    (isTooLong (statePath dir tenant) = true ∧
      writeJson (statePath dir tenant) v ⟨files, events⟩ =
        (.error (.files .nameTooLong), ⟨files, events⟩)) ∨
    (isTooLong (statePath dir tenant) = false ∧
      ∃ q, files.place (statePath dir tenant) = .ok q ∧ files.node? q ≠ some .directory ∧
        writeJson (statePath dir tenant) v ⟨files, events⟩ =
          (.ok (), ⟨files.set q (fileOf v), events⟩)) := by
  have hpath : statePath dir tenant = (stateDirectory dir).below [fileName tenant] := by
    simp [statePath_eq dir hname, stateDirectory]
  have habove : (statePath dir tenant).parent = stateDirectory dir := by
    rw [hpath, Path.parent_below_singleton]
  have hprepared := prepare_of_ok (habove.symm ▸
    ensureDirectories_of_directory hlaid.statePlace hlaid.stateMade)
  cases hlong : isTooLong (statePath dir tenant) with
  | true =>
    rw [hlong] at hprepared
    refine .inl ⟨rfl, ?_⟩
    rw [writeJson, Run.silently_apply, Run.bind_error hprepared]
  | false =>
    rw [hlong] at hprepared
    have hleads := place_file hlaid.statePlace hlaid.stateMade (isOrdinary_fileName hname)
      (hpath ▸ hlong)
    rw [← hpath] at hleads
    have hfree : files.node? (base ++ ["state"] ++ [fileName tenant]) ≠ some .directory := by
      intro hdirectory
      have hrefused : files.content? (statePath dir tenant) = .error .isDirectory := by
        rw [content?, find?, hleads]
        simp only [hdirectory]
      rw [stateIn, hrefused] at hfound
      cases hfound
    refine .inr ⟨rfl, _, hleads, hfree, ?_⟩
    rw [writeJson, Run.silently_apply, Run.bind_ok hprepared]
    simp only [Files.apply, write_of_place hleads hfree]
    rfl

/-- The file of the conversations of a tenant is no file of a flow, and no other tenant's. -/
theorem content?_set_state (hname : Identifier.IsName tenant)
    (hleads : files.place (statePath dir tenant) = .ok q) (hfree : files.node? q ≠ some .directory)
    (content : Content) :
    (∀ t name, content? (files.set q (.file content)) (flowPath dir t name) =
        files.content? (flowPath dir t name)) ∧
      ∀ other, Identifier.IsName other → other ≠ tenant →
        content? (files.set q (.file content)) (statePath dir other) =
          files.content? (statePath dir other) := by
  have hordinary {tenant : String} (hname : Identifier.IsName tenant) :
      ∀ part ∈ stateNames tenant, IsOrdinary part := Way.ordinary .state hname
  rw [statePath_eq dir hname] at hleads
  refine ⟨fun t name => content?_set_file hfree content fun hleads' => ?_,
    fun other hname' hdifferent => content?_set_file hfree content fun hleads' => ?_⟩
  · rw [flowPath_eq] at hleads'
    have hproper := isOfFlow_flowKey t name
    have hsame := names_eq_of_place (isOrdinary_flowPath hproper) (hordinary hname) hleads' hleads
    simp at hsame
  · rw [statePath_eq dir hname'] at hleads'
    have hsame := names_eq_of_place (hordinary hname') (hordinary hname) hleads' hleads
    simp [fileName_inj, hdifferent] at hsame

/-- A conversation that is put into the file of its tenant changes one entry of the document there,
unless the file has a name that is too long, and neither flows nor the conversations of others. -/
structure Puts (dir : Path) (base : Place) (tenant number : String) (doc : Value)
    (files files' : Files) (r : Except Failure Unit) : Prop where
  result : r = (stateIn dir tenant files).bind fun _ =>
    if isTooLong (statePath dir tenant) then .error (.files .nameTooLong) else .ok ()
  laid : Laid dir base files'
  flows : ∀ t name, files'.content? (flowPath dir t name) = files.content? (flowPath dir t name)
  others : ∀ other, Identifier.IsName other → other ≠ tenant →
    stateIn dir other files' = stateIn dir other files
  state : stateIn dir tenant files' = (stateIn dir tenant files).map fun state =>
    if isTooLong (statePath dir tenant) then state else Fields.set state number doc

theorem exists_putConversation (hlaid : Laid dir base files) (hname : Identifier.IsName tenant)
    (now number : String) {doc : Value} (hjson : doc.IsJson) (events : List Event) :
    ∃ r files' events', access now dir (.putConversation tenant number doc) ⟨files, events⟩ =
      (r, ⟨files', events'⟩) ∧ Puts dir base tenant number doc files files' r := by
  obtain ⟨events', hread⟩ := exists_readState dir tenant files events
  cases hfound : stateIn dir tenant files with
  | error f =>
    rw [hfound] at hread
    refine ⟨.error f, files, events', Run.bind_error hread, ?_⟩
    exact { result := by rw [hfound]; rfl, laid := hlaid, flows := fun _ _ => rfl,
            others := fun _ _ _ => rfl, state := by rw [hfound]; rfl }
  | ok state =>
    rw [hfound] at hread
    rcases writeJson_state hlaid hname hfound (.dict (Fields.set state number doc)) events' with
      ⟨hlong, hfailed⟩ | ⟨hshort, q, hleads, hfree, hwritten⟩
    · refine ⟨_, files, events', (Run.bind_ok hread).trans hfailed, ?_⟩
      exact { result := by rw [hfound, hlong]; rfl, laid := hlaid, flows := fun _ _ => rfl,
              others := fun _ _ _ => rfl, state := by rw [hfound, hlong]; rfl }
    · refine ⟨_, _, events', (Run.bind_ok hread).trans hwritten, ?_⟩
      obtain ⟨hflows, hothers⟩ := content?_set_state hname hleads hfree
        (.text (Json.pretty (.dict (Fields.set state number doc))))
      obtain ⟨hagain, -⟩ := stateIn_of_written hleads hfree
        (isJson_set (isJson_stateIn hfound) number hjson)
      exact
        { result := by rw [hfound, hshort]; rfl
          laid := hlaid.set hfree _
          flows := hflows
          others := fun other hname' hdifferent => by
            rw [stateIn, stateIn]
            exact congrArg (fun found => (readingOf found).map Reading.fields)
              (hothers other hname' hdifferent)
          state := by
            rw [hfound, hshort, hagain]
            rfl }

/-! ## What is seen of one conversation -/

/-- Files show the same flows, and the same conversation under a key. -/
structure Sees (dir : Path) (base : Place) (key : Key) (files files' : Files) : Prop where
  named : Identifier.IsName key.1
  laid : Laid dir base files
  laid' : Laid dir base files'
  flows : ∀ t name, files.content? (flowPath dir t name) = files'.content? (flowPath dir t name)
  entry : (stateIn dir key.1 files).map (fun state => Fields.get? state key.2) =
    (stateIn dir key.1 files').map fun state => Fields.get? state key.2

theorem Sees.symm (hsees : Sees dir base key files files') : Sees dir base key files' files :=
  ⟨hsees.named, hsees.laid', hsees.laid, fun t name => (hsees.flows t name).symm, hsees.entry.symm⟩

theorem Sees.trans {files'' : Files} (hsees : Sees dir base key files files')
    (hsees' : Sees dir base key files' files'') : Sees dir base key files files'' :=
  ⟨hsees.named, hsees.laid, hsees'.laid',
    fun t name => (hsees.flows t name).trans (hsees'.flows t name), hsees.entry.trans hsees'.entry⟩

/-- Where one entry is the same, another result is the same that depends on this entry. -/
theorem bind_eq_of_entry {α : Type} {found found' : Except Failure Fields}
    (hsame : found.map (fun state => Fields.get? state number) =
      found'.map fun state => Fields.get? state number)
    (k : Option Value → Except Failure α) :
    (found.bind fun state => k (Fields.get? state number)) =
      found'.bind fun state => k (Fields.get? state number) := by
  rcases found with f | state <;> rcases found' with f' | state' <;>
    simp only [Except.map, Except.error.injEq, Except.ok.injEq, reduceCtorEq] at hsame
  · rw [hsame]
  · simp only [Except.bind, hsame]

/-- The entry after a conversation was put, from the entry before. -/
theorem Puts.entry {doc : Value} {r : Except Failure Unit}
    (hputs : Puts dir base tenant number doc files files' r) :
    (stateIn dir tenant files').map (fun state => Fields.get? state number) =
      (stateIn dir tenant files).bind fun state =>
        .ok (if isTooLong (statePath dir tenant) then Fields.get? state number else some doc) := by
  rw [hputs.state]
  rcases stateIn dir tenant files with f | state
  · rfl
  · cases hlong : isTooLong (statePath dir tenant) <;> simp [Except.map, Except.bind, Fields.get?]

theorem agrees_of_converses (now : String) {a : Access} (hconverses : a.Converses True key) :
    Agrees (Silent (Sees dir base key)) (access now dir a) := by
  cases a with
  | loadFlow t name =>
    exact loadFlow_of_composes (composes_agrees _) agrees_note
      (agrees_readJson_of_content fun _ _ hsees => hsees.flows t name)
  | fetchConversation t number =>
    obtain rfl : (t, number) = key := hconverses
    rintro ⟨files, events⟩ ⟨files', events'⟩ hsees
    obtain ⟨_, hran⟩ := exists_fetchConversation now dir t number files events
    obtain ⟨_, hran'⟩ := exists_fetchConversation now dir t number files' events'
    rw [hran, hran']
    exact ⟨bind_eq_of_entry hsees.entry fun found => .ok (conversationOf found), hsees⟩
  | putConversation t number doc =>
    obtain ⟨rfl, hjson⟩ := hconverses
    rintro ⟨files, events⟩ ⟨files', events'⟩ hsees
    obtain ⟨r, after, _, hran, hputs⟩ :=
      exists_putConversation hsees.laid hsees.named now number (hjson trivial) events
    obtain ⟨r', after', _, hran', hputs'⟩ :=
      exists_putConversation hsees.laid' hsees.named now number (hjson trivial) events'
    rw [hran, hran']
    refine ⟨?_, hsees.named, hputs.laid, hputs'.laid, fun t name => ?_, ?_⟩
    · show r = r'
      rw [hputs.result, hputs'.result]
      exact bind_eq_of_entry hsees.entry fun _ =>
        if isTooLong (statePath dir t) then .error (.files .nameTooLong) else .ok ()
    · rw [hputs.flows, hputs'.flows, hsees.flows]
    · rw [hputs.entry, hputs'.entry]
      exact bind_eq_of_entry hsees.entry fun found =>
        .ok (if isTooLong (statePath dir t) then found else some doc)
  | createFlow | writeFlow | listFlows | locateFlow | deleteConversation | listConversations =>
    exact hconverses.elim

/-- An access of another conversation spares what is seen, even of the same tenant. -/
theorem spares_of_converses (now : String) {own : Key} (hnamed : Identifier.IsName own.1)
    (hdifferent : key ≠ own) {a : Access} (hconverses : a.Converses True own) :
    Spares (Silent (Sees dir base key)) (access now dir a) := by
  cases a with
  | loadFlow t name =>
    exact loadFlow_of_composes (composes_spares _) spares_note (spares_of_eq (snd_readJson _))
  | fetchConversation t number =>
    rintro ⟨files, events⟩ ⟨files', events'⟩ hsees
    obtain ⟨_, hran⟩ := exists_fetchConversation now dir t number files events
    rw [hran]
    exact hsees
  | putConversation t number doc =>
    obtain ⟨rfl, hjson⟩ := hconverses
    rintro ⟨files, events⟩ ⟨files', events'⟩ hsees
    obtain ⟨r, after, _, hran, hputs⟩ :=
      exists_putConversation hsees.laid hnamed now number (hjson trivial) events
    rw [hran]
    refine ⟨hsees.named, hputs.laid, hsees.laid', fun t name => ?_, Eq.trans ?_ hsees.entry⟩
    · rw [hputs.flows, hsees.flows]
    · by_cases hsame : key.1 = t
      · have hbeside : key.2 ≠ number := fun hequal => hdifferent (Prod.ext hsame hequal)
        rw [hsame, hputs.state]
        rcases stateIn dir t files with f | state
        · rfl
        · cases hlong : isTooLong (statePath dir t) <;>
            simp [Except.map, Fields.get?, Keyed.get?_set_of_ne _ _ hbeside]
      · rw [hputs.others key.1 hsees.named hsame]
  | createFlow | writeFlow | listFlows | locateFlow | deleteConversation | listConversations =>
    exact hconverses.elim

/-- What lies in the file of a tenant is changed by no access outside of the lock of the tenant. -/
theorem stateIn_of_other (now : String) {own : Key} (hnamed : Identifier.IsName own.1)
    (hname : Identifier.IsName tenant) {a : Access} (hconverses : a.Converses True own)
    (hfree : a.lock? ≠ some (.conversations tenant)) {t : Traced Files}
    (hlaid : Laid dir base t.state) :
    stateIn dir tenant (access now dir a t).2.state = stateIn dir tenant t.state := by
  obtain ⟨files, events⟩ := t
  cases a with
  | loadFlow other name =>
    have hspares : Spares (Silent (· = ·)) (access now dir (.loadFlow other name)) :=
      loadFlow_of_composes (composes_spares _) spares_note (spares_of_eq (snd_readJson _))
    exact congrArg (stateIn dir tenant) (hspares ⟨files, events⟩ ⟨files, events⟩ rfl)
  | fetchConversation other number =>
    obtain ⟨_, hran⟩ := exists_fetchConversation now dir other number files events
    rw [hran]
  | putConversation other number doc =>
    obtain ⟨rfl, hjson⟩ := hconverses
    obtain ⟨r, files', _, hran, hputs⟩ :=
      exists_putConversation hlaid hnamed now number (hjson trivial) events
    have hdifferent : tenant ≠ other := fun hsame => hfree (by rw [hsame]; rfl)
    rw [hran]
    exact hputs.others tenant hname hdifferent
  | createFlow | writeFlow | listFlows | locateFlow | deleteConversation | listConversations =>
    exact hconverses.elim

end Directory

end Dialogue.Store

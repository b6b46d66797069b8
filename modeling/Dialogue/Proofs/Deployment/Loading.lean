import Dialogue.Proofs.Deployment.Append
import Dialogue.Proofs.Deployment.Frame

/-!
# Loading what was put there

A deployment may be given any object for a flow, by hand or by other tools.  Where it lies in a file
or in a row, it is loaded as the flow that it fits, and an object that fits none counts as absent; a
message to it finds no flow and touches no conversation (`Deployment.ReadsWell`).

In memory an object that fits no flow makes loading fail, unless it is empty, and so does a message
to it (`Deployment.readsWell_iff`).  No conversation is touched then, either.
-/

namespace Dialogue

open Store

namespace Store

/-- What lies somewhere is a document. -/
def Stored.Holds (doc : Value) : Stored → Prop
  | .document v => v = doc
  | .content (.text s) => Json.read s = .ok doc
  | .content _ => False
  | .row r => r.document = doc

theorem Stored.Holds.load? {s : Stored} {doc : Value} (holds : s.Holds doc) (now : String) :
    s.load? now = (Flow.ofValue now doc).toOption := by
  cases s with
  | document v =>
    obtain rfl : v = doc := holds
    cases hread : Flow.ofValue now v with
    | ok flow => simp [Stored.load?, Stored.document?, isEmpty_of_ofValue hread, hread]
    | error mismatch =>
      cases hempty : v.isEmpty <;>
        simp [Stored.load?, Stored.document?, hempty, hread, Except.toOption]
  | content content =>
    cases content with
    | text text =>
      have hread : Json.read text = .ok doc := holds
      simp [Stored.load?, Stored.document?, hread, Except.toOption]
    | binary bytes => exact False.elim holds
    | database tables => exact False.elim holds
  | row r =>
    obtain rfl : r.document = doc := holds
    rfl

variable {now : String} {tenant name : Value} {s : Stored}

theorem Directory.loadFlow_of_stored {dir : Path} {t : Traced Files}
    (hlies : stored dir t.state tenant name = some s) :
    (access now dir (.loadFlow tenant name) t).1 = .ok (s.load? now) := by
  have hread := readJson_eq (flowPath dir tenant name) t
  unfold stored at hlies
  rw [access]
  cases hfound : t.state.content? (flowPath dir tenant name) with
  | error fault => simp [hfound] at hlies
  | ok r =>
    cases r with
    | none => simp [hfound] at hlies
    | some content =>
      obtain rfl : Stored.content content = s := by simpa [hfound] using hlies
      rw [hfound] at hread
      change _ = (Except.ok (Reading.ofContent content), t) at hread
      rw [Run.bind_ok hread, Reading.ofContent, Stored.load?]
      cases (Stored.content content).document? with
      | none => rfl
      | some v => cases hparsed : Flow.ofValue now v <;> simp [hparsed, Except.toOption]

theorem Table.loadFlow_of_stored {address configured : Value} {t : Traced State}
    (hlies : stored address configured t.state (flowKey tenant name) = some s) :
    (access now address configured (.loadFlow tenant name) t).1 = .ok (s.load? now) := by
  obtain ⟨tables, hthere, -⟩ := Option.bind_eq_some_iff.1 hlies
  obtain ⟨c, t₁, t₂, hprepared, hlooked⟩ := exists_look hthere
  obtain ⟨events, hread⟩ := readRow_spec now tenant name tables t₂
  rw [(stored_of_look hprepared hlooked (flowKey tenant name)).1] at hlies
  rw [loadFlow_eq, Run.bind_ok hprepared, Run.bind_ok hlooked, hread, hlies]
  rfl

theorem Directory.content?_of_writeJson {path : Path} {t t' : Traced Files} {doc : Value}
    (hdone : writeJson path doc t = (.ok (), t')) :
    t'.state.content? path = .ok (some (.text (Json.pretty doc))) := by
  obtain ⟨files, events⟩ := t
  rcases hran : (do
    prepare path
    Files.apply fun files => files.write path (.text (Json.pretty doc)) : Run Files Unit) files with
    ⟨r, files'⟩
  simp only [writeJson, Run.silently_apply, hran] at hdone
  obtain ⟨rfl, rfl⟩ := Prod.mk.inj hdone
  obtain ⟨_, made, -, hwrites⟩ := Run.exists_of_bind hran
  cases hwritten : made.write path (.text (Json.pretty doc)) with
  | error fault =>
    simp only [Files.apply, hwritten] at hwrites
    cases hwrites
  | ok written' =>
    simp only [Files.apply, hwritten] at hwrites
    cases hwrites
    exact Files.content?_of_write hwritten

theorem Table.stored_of_placeFlow {address configured doc : Value} {t t' : Traced State}
    (hdone : placeFlow address configured tenant name doc t = (.ok (), t')) :
    stored address configured t'.state (flowKey tenant name) = some (.row { document := doc }) := by
  obtain ⟨_, t₁, hprepared, hrest⟩ := Run.exists_of_bind hdone
  obtain ⟨⟨connection, tables⟩, t₂, hlooked, hstores⟩ := Run.exists_of_bind hrest
  obtain ⟨-, -, hready⟩ := of_look hprepared hlooked
  obtain ⟨s', hstored', hready'⟩ := onSite_store hready rfl
    { tables with flows := tables.flows.set (flowKey tenant name) { document := doc } } t₂.events
  obtain rfl : ⟨s', t₂.events⟩ = t' := (Prod.mk.inj (hstored'.symm.trans hstores)).2
  rw [stored, tables?_of_ready hready' address configured]
  simp

end Store

namespace Deployment

/-- The store for flows that is in use keeps them in memory. -/
def IsInMemory (d : Deployment) : Prop := ∃ documents, d.store d.engine.flows = .memory documents

variable {d : Deployment} {clock : String} {tenant name : Value} {s : Stored} {doc : Value}

theorem access_loadFlow_of_stored (hapart : ¬ d.IsInMemory)
    (hlies : d.stored tenant name = some s) :
    (access d.engine (.loadFlow tenant name) d).1 = .ok (s.load? d.clock) := by
  show (accessStore d.engine.flows (.loadFlow tenant name) d).1 = _
  rw [accessStore]
  unfold stored at hlies
  cases hthere : d.store d.engine.flows with
  | memory documents => exact absurd ⟨documents, hthere⟩ hapart
  | directory dir =>
    rw [hthere] at hlies
    exact Directory.loadFlow_of_stored (t := ⟨d.files, d.events⟩) hlies
  | table address flowsReady conversationsReady =>
    rw [hthere] at hlies
    exact Table.loadFlow_of_stored
      (t := ⟨⟨⟨d.files, d.connection⟩, flowsReady, conversationsReady⟩, d.events⟩) hlies

/-- In memory, a document that fits no flow makes loading fail, unless it is empty. -/
theorem access_loadFlow_of_memory (hinMemory : d.IsInMemory)
    (hlies : d.stored tenant name = some s) (holds : s.Holds doc) :
    (access d.engine (.loadFlow tenant name) d).1 =
      if doc.isEmpty then .ok none
      else (Flow.ofValue d.clock doc).mapError .invalid |>.map some := by
  obtain ⟨documents, hthere⟩ := hinMemory
  show (accessStore d.engine.flows (.loadFlow tenant name) d).1 = _
  rw [stored_of_memory hthere, Memory.stored] at hlies
  obtain ⟨v, hfound, rfl⟩ := Option.map_eq_some_iff.1 hlies
  obtain rfl : v = doc := holds
  rw [accessStore, hthere]
  simp only [onMemory, Run.zoom_apply, Memory.loadFlow_eq, Memory.document?, hfound, Option.filter]
  by_cases hempty : v.isEmpty = true
  · simp [hempty]
  · simp only [hempty, Bool.not_false, if_true, Bool.false_eq_true, if_false]
    cases Flow.ofValue d.clock v <;> rfl

/-- A document that is placed lies there; in files it has to be one that text can hold. -/
theorem exists_stored_of_placeFlow {d' : Deployment} (hmade : d.HasStore)
    (hplain : d.IsInFiles → doc.IsPlain)
    (hdone : placeFlow d.engine tenant name doc d = (.ok (), d')) :
    ∃ s, d'.stored tenant name = some s ∧ s.Holds doc := by
  rw [placeFlow] at hdone
  cases hlies : d.store d.engine.flows with
  | memory documents =>
    simp only [hlies, onMemory, Run.zoom_apply] at hdone
    have hafter := (Prod.mk.inj hdone).2
    have hlies' : d'.store d'.engine.flows = .memory { documents with
        flows := documents.flows.set (flowKey tenant name) doc } := by
      rw [← hafter]
      exact (store_setStore _ _ _).trans (if_pos hmade)
    refine ⟨.document doc, ?_, rfl⟩
    rw [stored_of_memory hlies', Memory.stored, Keyed.get?_set_self]
    rfl
  | directory dir =>
    simp only [hlies, onFiles, Run.zoom_apply] at hdone
    rcases hran : Directory.writeJson (Directory.flowPath dir tenant name) doc ⟨d.files, d.events⟩
      with ⟨r, t⟩
    simp only [hran] at hdone
    obtain ⟨rfl, hafter⟩ := Prod.mk.inj hdone
    have hlies' : d'.store d'.engine.flows = .directory dir := by
      rw [← hafter]
      exact hlies
    have hfiles : d'.files = t.state := by rw [← hafter]
    refine ⟨.content (.text (Json.pretty doc)), ?_, Json.read_pretty (hplain ⟨dir, hlies⟩)⟩
    rw [stored_of_directory hlies', hfiles, Directory.stored, Directory.content?_of_writeJson hran]
  | table address flowsReady conversationsReady =>
    simp only [hlies, onTable, Run.zoom_apply] at hdone
    rcases hran : Table.placeFlow (d.addressOr address) d.settings.database.url tenant name doc
      ⟨⟨⟨d.files, d.connection⟩, flowsReady, conversationsReady⟩, d.events⟩ with ⟨r, t⟩
    simp only [hran] at hdone
    obtain ⟨rfl, hafter⟩ := Prod.mk.inj hdone
    have hlies' : d'.store d'.engine.flows =
        .table address t.state.flowsReady t.state.conversationsReady := by
      rw [← hafter]
      exact (store_setStore _ _ _).trans (if_pos hmade)
    refine ⟨.row { document := doc }, ?_, rfl⟩
    rw [stored_of_table hlies', ← Table.stored_of_placeFlow hran, ← hafter]
    rfl

/-! ## Messages -/

/-- All conversations are found as they were. -/
def LeavesConversations (d d' : Deployment) : Prop :=
  ∀ clock tenant counterparty, (d'.call clock (.getConversation tenant counterparty)).1 =
    (d.call clock (.getConversation tenant counterparty)).1

/-- An object that lies under a name is loaded as the flow that it fits, and as none if it fits
none.  In that case a message finds no flow, and no conversation changes. -/
structure ReadsWell (d : Deployment) (clock : String) (tenant : Value) (name : String)
    (fields : Fields) : Prop where
  loads : (d.call clock (.loadFlow tenant (.str name))).1 =
    .ok (.found (Flow.ofValue clock (.dict fields)).toOption)
  misses : (Flow.ofValue clock (.dict fields)).toOption = none →
    ∀ counterparty text time hops,
      let op := .inbound tenant counterparty text name time hops
      (d.call clock op).1 = .ok (.outcome (.notFound name)) ∧
        d.LeavesConversations (d.call clock op).2

section

variable {counterparty : Value} {text time : Option String} {name : String} {hops : Int}
  {t : Deployment} {k : Storage} {n : Nat} {fields : Fields}

theorem call_inbound_of_error {f : Failure}
    (hloaded : access d.engine (.loadFlow tenant (.str name)) { d with clock } = (.error f, t)) :
    d.call clock (.inbound tenant counterparty text name time hops) = (.error f, t) := by
  rw [call_inbound_eq, Inbound.handle_eq]
  simp only [Program.run, Run.bind, hloaded]

/-- A message that finds no flow says so and does nothing else. -/
theorem call_inbound_of_none
    (hloaded : access d.engine (.loadFlow tenant (.str name)) { d with clock } = (.ok none, t)) :
    d.call clock (.inbound tenant counterparty text name time hops) =
      (.ok (.outcome (.notFound name)), t.log (.flowNotFound tenant (.str name))) := by
  rw [call_inbound_eq, Inbound.handle_eq]
  simp only [Program.run, Run.bind, hloaded]
  rfl

/-- Loading a flow leaves the conversations, and so does what is logged after it. -/
theorem leavesConversations_of_loadFlow (hkeeps : k.Keeps n d) {r : Except Failure (Option Flow)}
    (hloaded : access d.engine (.loadFlow tenant (.str name)) { d with clock } = (r, t))
    {t' : Deployment} (hsame : t.Same t') : d.LeavesConversations t' := by
  intro clock' tenant' counterparty'
  have hnamed := Identifier.isName_safeName tenant'
  have hone : access d.engine = accessStore n := by rw [engine_of_keeps hkeeps, access_one]
  have hsees : k.Sees (conversationKey tenant' counterparty') n
      (accessStore n (.loadFlow tenant (.str name)) { d with clock }).2 d :=
    Storage.spares_of_reads (.inl ⟨tenant, .str name, rfl⟩) _ _
      ((hkeeps (conversationKey tenant' counterparty') hnamed).of_same (same_setClock clock d)
        (equivalence_same.refl d))
  rw [← hone, hloaded] at hsees
  exact call_of_sees (hsees.of_same hsame (equivalence_same.refl d)) clock'

theorem call_loadFlow_eq (d : Deployment) (clock : String) (tenant name : Value) :
    (d.call clock (.loadFlow tenant name)).1 =
      (access d.engine (.loadFlow tenant name) { d with clock }).1.map .found := by
  rw [Storage.call_eq (.loadFlow tenant name) rfl]
  rcases access d.engine (.loadFlow tenant name) { d with clock } with ⟨f | found, t⟩ <;> rfl

/-- An object is loaded as the flow that it fits, or as none, unless it fits none in memory and is
not empty. -/
theorem access_loadFlow_of_holds (hlies : d.stored tenant (.str name) = some s)
    (holds : s.Holds (.dict fields))
    (hfine : d.IsInMemory → fields = [] ∨ ∃ flow, Flow.ofValue clock (.dict fields) = .ok flow) :
    (access d.engine (.loadFlow tenant (.str name)) { d with clock }).1 =
      .ok (Flow.ofValue clock (.dict fields)).toOption := by
  by_cases hinMemory : d.IsInMemory
  · rw [access_loadFlow_of_memory (d := { d with clock }) hinMemory hlies holds]
    rcases hfine hinMemory with rfl | ⟨flow, hread⟩
    · rfl
    · rw [if_neg (Bool.eq_false_iff.1 (isEmpty_of_ofValue hread)), hread]
      rfl
  · rw [access_loadFlow_of_stored (d := { d with clock }) hinMemory hlies, holds.load?]

/-- In memory, an object that fits no flow and is not empty makes loading fail. -/
theorem access_loadFlow_of_error (hinMemory : d.IsInMemory)
    (hlies : d.stored tenant (.str name) = some s) (holds : s.Holds (.dict fields))
    (hnonempty : fields ≠ []) {mismatch : Schema.Mismatch}
    (hunfit : Flow.ofValue clock (.dict fields) = .error mismatch) :
    (access d.engine (.loadFlow tenant (.str name)) { d with clock }).1 =
      .error (.invalid mismatch) := by
  rw [access_loadFlow_of_memory (d := { d with clock }) hinMemory hlies holds,
    if_neg (by simpa [Value.isEmpty] using hnonempty), hunfit]
  rfl

/-- An object that is loaded as it should be reads well. -/
theorem readsWell_of_loadFlow (hkeeps : k.Keeps n d)
    (hloaded : (access d.engine (.loadFlow tenant (.str name)) { d with clock }).1 =
      .ok (Flow.ofValue clock (.dict fields)).toOption) : d.ReadsWell clock tenant name fields where
  loads := by
    rw [call_loadFlow_eq, hloaded]
    rfl
  misses hmissing counterparty text time hops := by
    rcases hran : access d.engine (.loadFlow tenant (.str name)) { d with clock } with ⟨r, t⟩
    rw [hran, hmissing] at hloaded
    obtain rfl : r = .ok none := hloaded
    intro op
    rw [show d.call clock op = _ from call_inbound_of_none hran]
    exact ⟨rfl, leavesConversations_of_loadFlow hkeeps hran (same_log _ t)⟩

/-- A message fails where its flow fails to load, and leaves the conversations. -/
theorem call_inbound_of_loadFlow_error (hkeeps : k.Keeps n d) {f : Failure}
    (hloaded : (access d.engine (.loadFlow tenant (.str name)) { d with clock }).1 = .error f) :
    (d.call clock (.inbound tenant counterparty text name time hops)).1 = .error f ∧
      d.LeavesConversations
        (d.call clock (.inbound tenant counterparty text name time hops)).2 := by
  rcases hran : access d.engine (.loadFlow tenant (.str name)) { d with clock } with ⟨r, t⟩
  rw [hran] at hloaded
  obtain rfl : r = .error f := hloaded
  rw [call_inbound_of_error hran]
  exact ⟨rfl, leavesConversations_of_loadFlow hkeeps hran (equivalence_same.refl t)⟩

/-- An object that lies under a name is loaded as the flow that it fits, or as none, wherever flows
are kept, with one exception: in memory an object that fits no flow has to be empty.  One that is
not makes loading fail, and a message to it, but the conversations are left alone. -/
theorem readsWell_iff (hkeeps : k.Keeps n d) (hlies : d.stored tenant (.str name) = some s)
    (holds : s.Holds (.dict fields)) (clock : String) :
    (d.ReadsWell clock tenant name fields ↔
      (d.IsInMemory → fields = [] ∨ ∃ flow, Flow.ofValue clock (.dict fields) = .ok flow)) ∧
    ∀ mismatch, Flow.ofValue clock (.dict fields) = .error mismatch → d.IsInMemory → fields ≠ [] →
      (d.call clock (.loadFlow tenant (.str name))).1 = .error (.invalid mismatch) ∧
      ∀ counterparty text time hops,
        let op := .inbound tenant counterparty text name time hops
        (d.call clock op).1 = .error (.invalid mismatch) ∧
          d.LeavesConversations (d.call clock op).2 := by
  have hfails {mismatch : Schema.Mismatch} (hunfit : Flow.ofValue clock (.dict fields) =
      .error mismatch) (hinMemory : d.IsInMemory) (hnonempty : fields ≠ []) :
      (d.call clock (.loadFlow tenant (.str name))).1 = .error (.invalid mismatch) := by
    rw [call_loadFlow_eq, access_loadFlow_of_error hinMemory hlies holds hnonempty hunfit]
    rfl
  refine ⟨⟨fun hwell hinMemory => ?_, fun hfine =>
    readsWell_of_loadFlow hkeeps (access_loadFlow_of_holds hlies holds hfine)⟩, ?_⟩
  · by_cases hempty : fields = []
    · exact .inl hempty
    · cases hread : Flow.ofValue clock (.dict fields) with
      | ok flow => exact .inr ⟨flow, rfl⟩
      | error mismatch =>
        have himpossible := hwell.loads.symm.trans (hfails hread hinMemory hempty)
        cases himpossible
  · intro mismatch hunfit hinMemory hnonempty
    exact ⟨hfails hunfit hinMemory hnonempty, fun _ _ _ _ => call_inbound_of_loadFlow_error hkeeps
      (access_loadFlow_of_error hinMemory hlies holds hnonempty hunfit)⟩

end

/-! ### An object whose name is no text -/

/-- A number is put for the name of a flow, in memory. -/
def misnamed : Deployment :=
  (placeFlow (started {}).engine (.str "acme") (.str "f") (.dict [("name", .int 5)])
    (started {})).2

theorem exists_stored_misnamed : ∃ s, misnamed.stored (.str "acme") (.str "f") = some s ∧
    s.Holds (.dict [("name", .int 5)]) := by
  refine exists_stored_of_placeFlow (d := started {}) (show 0 < 1 by decide) ?_ rfl
  rintro ⟨dir, hfiles⟩
  cases hfiles

theorem keeps_misnamed : Storage.memory.Keeps 0 misnamed :=
  Storage.keeps_memory rfl rfl List.nodup_nil

/-- The object fits no flow, so it does not read well: loading it fails, and so does every message
to it. -/
theorem readsWell_iff_misnamed : ¬ misnamed.ReadsWell "t1" (.str "acme") "f" [("name", .int 5)] ∧
    ∃ mismatch,
      (misnamed.call "t1" (.loadFlow (.str "acme") (.str "f"))).1 = .error (.invalid mismatch) ∧
      ∀ counterparty text time hops,
        let op := .inbound (.str "acme") counterparty text "f" time hops
        (misnamed.call "t1" op).1 = .error (.invalid mismatch) ∧
          misnamed.LeavesConversations (misnamed.call "t1" op).2 := by
  obtain ⟨s, hlies, hholds⟩ := exists_stored_misnamed
  obtain ⟨hreads, hfails⟩ := readsWell_iff keeps_misnamed hlies hholds "t1"
  have hmemory : misnamed.IsInMemory := ⟨_, rfl⟩
  obtain ⟨mismatch, hunfit⟩ : ∃ mismatch,
      Flow.ofValue "t1" (.dict [("name", .int 5)]) = .error mismatch := ⟨_, rfl⟩
  refine ⟨fun hwell => ?_, mismatch, hfails mismatch hunfit hmemory (by simp)⟩
  rcases hreads.1 hwell hmemory with hempty | ⟨flow, hread⟩
  · cases hempty
  · rw [hunfit] at hread
    cases hread

/-- An object does not always count as absent where it fits no flow. -/
theorem not_readsWell :
    ¬ ∀ (k : Storage) (n : Nat) (d : Deployment) (clock : String) (tenant : Value) (name : String)
      (fields : Fields) (s : Stored), k.Keeps n d → d.stored tenant (.str name) = some s →
        s.Holds (.dict fields) → d.ReadsWell clock tenant name fields := by
  intro halways
  obtain ⟨s, hlies, hholds⟩ := exists_stored_misnamed
  have hwell := halways .memory 0 misnamed "t1" (.str "acme") "f" [("name", .int 5)] s
    keeps_misnamed hlies hholds
  have hfailed : ∃ f, (misnamed.call "t1" (.loadFlow (.str "acme") (.str "f"))).1 = .error f :=
    ⟨_, rfl⟩
  obtain ⟨f, hfailed⟩ := hfailed
  have himpossible := hwell.loads.symm.trans hfailed
  cases himpossible

end Deployment

end Dialogue

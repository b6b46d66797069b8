import Dialogue.Proofs.Deployment.Script
import Dialogue.Proofs.Deployment.Stored
import Dialogue.Proofs.Step.Lasting

/-!
# What is found lasts

The entries of every flow that a deployment keeps were read from documents before they were written
(`Store.Memory.Lasting`), so an entry that is found is found again as it is, however often its flow
is written anew (`Store.Memory.Lasting.alike`).  What is kept in files lies where files can be
written, so that it can be written anew (`Storage.Rewrites`).  Both hold after every history that
began with nothing stored (`Storage.Fresh.upholds`).

`Deployment.flow?` is the flow that a call finds under a name.
-/

namespace Dialogue

open Store

namespace Flow

/-- The entries were read from documents. -/
def IsParsed (flow : Flow) : Prop :=
  ∀ e ∈ flow.steps, ∃ item : Value, item.IsDocument ∧ e = Entry.ofValue item

theorem isParsed_of_ofValue {now : String} {v : Value} (hdocument : v.IsDocument) {flow : Flow}
    (hread : ofValue now v = .ok flow) : flow.IsParsed := by
  obtain ⟨fields, rfl, hparts⟩ := exists_of_ofValue hread
  have hnamed := isDocument_nameFromId hdocument
  intro e hlisted
  rcases Schema.exists_of_optional hparts.steps with hnothing | ⟨key, v, hwritten, hread⟩
  · simp [hnothing] at hlisted
  · exact exists_of_readSteps (Value.isDocumentFields_iff.1 hnamed.2 _ hwritten) hread e hlisted

theorem map_again_steps (preset : Preset) :
    (preset.steps.map fun e => Entry.ofValue e.storedDocument) = preset.steps := by
  cases preset
  rfl

theorem updatedAt_of_ofValue_document {flow again : Flow} {now t : String}
    (hchanged : flow.updatedAt = some t) (hread : ofValue now (.dict flow.document) = .ok again) :
    again.updatedAt = some t := by
  obtain ⟨fields, hsame, hparts⟩ := exists_of_ofValue hread
  cases hsame
  have hfound : Schema.Checked.ok (some t) = .ok again.updatedAt := by
    rw [← hparts.updatedAt, nameFromId_document]
    exact (optional_updatedSlot_of_updatedAt hchanged).symm
  exact (Schema.Checked.ok.inj hfound).symm

theorem ofValue_make (now clock name : String) {steps : List Entry}
    (hstay : (steps.map fun e => Entry.ofValue e.storedDocument) = steps) :
    ofValue now (.dict (make clock name steps).document) = .ok (make clock name steps) := by
  have hidentified : (make clock name steps).id ≠ "" := (Identifier.isName_safeName _).ne_empty
  have hsame : (make clock name steps).nameAgain = (make clock name steps).name := by
    rw [nameAgain, if_neg fun hunnamed => name_make_ne_empty clock name steps hunnamed.1]
  have hunchanged : Fields.get? (make clock name steps).document "updatedAt" = none ∧
      Fields.get? (make clock name steps).document "updated_at" = none := ⟨rfl, rfl⟩
  have hbare : Schema.extras slots (make clock name steps).document = [] := rfl
  have hread : ((make clock name steps).steps.map fun e => Entry.ofValue e.storedDocument) =
      (make clock name steps).steps := hstay
  simp only [ofValue, nameFromId_document, hsame]
  simp only [ofFields, Schema.optional, Schema.required, Schema.Slot.plain, createdSlot,
    updatedSlot, Schema.Slot.find?, hunchanged, hbare, get?_document_id, get?_document_name,
    get?_document_version, get?_document_createdAt, get?_document_steps, readSteps,
    Schema.readText, Schema.readInteger, Schema.Checked.ofExcept, Schema.Checked.under,
    List.map_map, Function.comp_def, hread]
  simp [Schema.Checked.pair, Schema.Checked.map, Schema.Checked.toExcept, hidentified]
  rfl

theorem ofValue_ofPresetNamed {now clock : String} {name : Value} {preset : Flow}
    (hmade : ofPresetNamed clock .leadQualification name = .ok preset) :
    ofValue now (.dict preset.document) = .ok preset := by
  obtain ⟨text, rfl, -⟩ := exists_of_ofPresetNamed hmade
  exact ofValue_make now clock text (map_again_steps _)

theorem isParsed_steps (preset : Preset) :
    ∀ e ∈ preset.steps, ∃ item : Value, item.IsDocument ∧ e = Entry.ofValue item := by
  intro e hlisted
  rw [← map_again_steps preset] at hlisted
  obtain ⟨own, hthere, rfl⟩ := List.mem_map.1 hlisted
  exact ⟨own.storedDocument, (Entry.isPlain_storedDocument (wellFormed_steps preset own hthere)).1,
    rfl⟩

theorem IsParsed.withStep {flow : Flow} (hparsed : flow.IsParsed) {step : Value}
    (hdocument : step.IsDocument) (clock : String) : (withStep clock step flow).IsParsed := by
  intro e hlisted
  rcases List.mem_append.1 hlisted with hearlier | hown
  · exact hparsed e hearlier
  · exact ⟨step, hdocument, List.mem_singleton.1 hown⟩

end Flow

namespace Store.Memory

variable {m : Memory} {now clock : String} {key : Key} {flow : Flow} {tenant : Value}

/-- Tidy contents of flows whose entries were read before they were written.  Those that can be read
lie under their own names. -/
structure Lasting (m : Memory) : Prop where
  tidy : m.Tidy
  named : m.Named
  parsed : ∀ e ∈ m.flows, ∃ flow : Flow, flow.IsParsed ∧ e.2 = .dict flow.document

theorem lasting_empty : Lasting {} := ⟨tidy_empty, named_empty, by simp⟩

theorem Lasting.withFlow (hlasting : m.Lasting) (tenant : Value) (hwellFormed : flow.WellFormed)
    (hown : flow.name ≠ "") (hparsed : flow.IsParsed) : (m.withFlow tenant flow).Lasting where
  tidy := tidy_withFlow hlasting.tidy tenant hwellFormed
  named := named_withFlow hlasting.named tenant hown
  parsed e hlisted := by
    rcases Keyed.mem_set hlisted with rfl | hlisted
    · exact ⟨flow, hparsed, rfl⟩
    · exact hlasting.parsed e hlisted

theorem isParsed_of_flow? (htidy : m.Tidy) (hfound : m.flow? now key = some flow) :
    flow.IsParsed := by
  obtain ⟨written, hwellFormed, -, hread⟩ := exists_of_flow? htidy hfound
  exact Flow.isParsed_of_ofValue (Flow.isPlain_document hwellFormed).1 hread

theorem Lasting.alike (hlasting : m.Lasting) (hfound : m.flow? now key = some flow) :
    ∀ e ∈ flow.steps, e.Alike (Entry.ofValue e.storedDocument) := by
  obtain ⟨_, -, hlisted, hread⟩ := exists_of_flow? hlasting.tidy hfound
  obtain ⟨written, hparsed, hsame⟩ := hlasting.parsed _ hlisted
  rw [show Value.dict _ = _ from hsame] at hread
  intro e hthere
  rw [Flow.steps_of_ofValue_document hread] at hthere
  obtain ⟨e', hlisted', rfl⟩ := List.mem_map.1 hthere
  obtain ⟨item, hdocument, rfl⟩ := hparsed e' hlisted'
  exact Entry.alike_again hdocument

/-- Lasting contents are closed under what operations write. -/
theorem closed_lasting (clock : String) :
    Closed clock (fun _ => True) (fun _ => True) Lasting where
  tidy _ hlasting := hlasting.tidy
  creates tenant name hlasting preset hmade _ := by
    obtain ⟨text, hsame, -⟩ := exists_of_ofPresetNamed hmade
    exact hlasting.withFlow tenant (wellFormed_ofPresetNamed hmade)
      (hsame ▸ Flow.name_make_ne_empty _ _ _) (hsame ▸ Flow.isParsed_steps .leadQualification)
  appends tenant name hlasting _ hdocument hfound :=
    hlasting.withFlow tenant
      (wellFormed_withStep hdocument (wellFormed_of_flow? hlasting.tidy hfound))
      (hlasting.named hfound).1 ((isParsed_of_flow? hlasting.tidy hfound).withStep hdocument clock)
  puts := by
    intro m tenant counterparty name text time limit key flow outcome saves _ _ hkey _ _ c _ _
      hplain
      m' _ hlasting'
    exact ⟨tidy_withConversation hlasting'.tidy (isOfConversation_of_counterpartyKey hkey tenant)
      ⟨c, hplain, rfl⟩, fun hthere => hlasting'.named hthere, hlasting'.parsed⟩
  removes key hlasting := ⟨tidy_withoutConversation hlasting.tidy key,
    fun hthere => hlasting.named hthere, hlasting.parsed⟩

end Store.Memory

/-- Two invariants that are kept by what operations write are kept together. -/
theorem Closed.and {clock : String} {Times : String → Prop} {Grows : Key → Prop}
    {P P' : Memory → Prop} (hclosed : Closed clock Times Grows P)
    (hclosed' : Closed clock Times Grows P') : Closed clock Times Grows fun m => P m ∧ P' m where
  tidy m hinv := hclosed.tidy m hinv.1
  creates tenant name hinv preset hmade habsent :=
    ⟨hclosed.creates tenant name hinv.1 preset hmade habsent,
      hclosed'.creates tenant name hinv.2 preset hmade habsent⟩
  appends tenant name hinv hgrows hdocument hfound :=
    ⟨hclosed.appends tenant name hinv.1 hgrows hdocument hfound,
      hclosed'.appends tenant name hinv.2 hgrows hdocument hfound⟩
  puts hinv htimed hkey hfound htold c hlisted hsameFlow hplain m' hsameFlows hinv' :=
    ⟨hclosed.puts hinv.1 htimed hkey hfound htold c hlisted hsameFlow hplain m' hsameFlows hinv'.1,
      hclosed'.puts hinv.2 htimed hkey hfound htold c hlisted hsameFlow hplain m' hsameFlows
        hinv'.2⟩
  removes key hinv := ⟨hclosed.removes key hinv.1, hclosed'.removes key hinv.2⟩

namespace Operation

variable {clock : String} {m : Memory} {op : Operation}

theorem isParsed_of_fromPreset {preset : Value} {name : String} {flow : Flow}
    (hmade : Authoring.fromPreset clock preset name = .ok flow) : flow.IsParsed := by
  obtain ⟨steps, rfl | ⟨p, rfl⟩, rfl⟩ := exists_steps_of_fromPreset hmade
  · exact List.forall_mem_nil _
  · exact Flow.isParsed_steps p

theorem isParsed_of_saves (hvalid : op.Valid) {tenant : Value} {flow : Flow}
    (hsaves : op.Saves clock tenant flow) : flow.IsParsed := by
  cases op with
  | saveFlow tenant' flow' =>
    obtain ⟨rfl, rfl⟩ := hsaves
    obtain ⟨now, v, hdocument, hread⟩ := hvalid
    exact Flow.isParsed_of_ofValue hdocument hread
  | createFlow tenant' name preset =>
    obtain ⟨-, name', -, hmade⟩ := hsaves
    exact isParsed_of_fromPreset hmade
  | _ => exact hsaves.elim

theorem kept_lasting (hlasting : m.Lasting) (hvalid : op.Valid) :
    op.Kept clock Memory.Lasting m := by
  intro tenant flow hsaves hown
  refine hlasting.withFlow tenant (wellFormed_revised (wellFormed_of_saves hvalid hsaves) _)
    (by rwa [name_revised]) ?_
  have hparsed := isParsed_of_saves hvalid hsaves
  cases m.flow? clock (flowKey tenant (.str flow.name)) <;> exact hparsed

theorem safe_lasting (hlasting : m.Lasting) (hvalid : op.Valid) :
    (op.program clock).Safe clock Memory.Lasting (fun _ _ => True) m :=
  op.safe (Memory.closed_lasting clock) hlasting hvalid (by cases op <;> trivial)
    (by cases op <;> trivial) (kept_lasting hlasting hvalid)

/-- An operation keeps contents sound and lasting, if what it saves can be read again. -/
theorem safe_sound_lasting (hinv : m.Sound ∧ m.Lasting) (hfine : op.Valid ∧ op.Revalidates) :
    (op.program clock).Safe clock (fun m => m.Sound ∧ m.Lasting) (fun _ _ => True) m :=
  op.safe ((Memory.closed_sound clock).and (Memory.closed_lasting clock)) hinv hfine.1
    (by cases op <;> trivial) (by cases op <;> trivial) fun tenant flow hsaves hown =>
      ⟨kept_sound hinv.1 hfine.1 hfine.2 tenant flow hsaves hown,
        kept_lasting hinv.2 hfine.1 tenant flow hsaves hown⟩

end Operation

/-! ## Deployments -/

namespace Store.Directory

/-- A flow that was written has names that are accepted. -/
theorem accepts_of_writeFlow {dir : Path} {base : Place} {files : Files} {m : Memory}
    {now location : String} {events : List Event} {tenant : Value} {flow : Flow} {t : Traced Files}
    (hshows : Shows dir base files m)
    (hdone : access now dir (.writeFlow tenant flow) ⟨files, events⟩ = (.ok location, t)) :
    Accepts dir (flowNames (flowKey tenant (.str flow.name))) := by
  rw [access, flowPath_eq] at hdone
  obtain ⟨files', hshows', ⟨hprepared, hleads⟩ | ⟨f, hfailed, -⟩⟩ :=
    hshows.prepareFlow (isOfFlow_flowKey tenant (.str flow.name))
  · exact accepts_of_prepare hprepared hshows'.place hleads
  · rw [Run.bind_error (writeJson_of_error hfailed _)] at hdone
    cases hdone

end Store.Directory

namespace Storage

variable {k : Storage} {r : Backend.Request} {now clock : String} {n : Nat} {d : Deployment}
  {m : Memory} {op : Operation} {tenant name : Value} {flow : Flow}

/-- The flows in files lie where files can be written. -/
def Rewrites : Storage → Memory → Prop
  | files dir, m => ∀ key ∈ Keyed.keys m.flows, Directory.Accepts dir (Directory.flowNames key)
  | _, _ => True

/-- A deployment keeps contents, and what lies there can be written anew. -/
structure Upholds (k : Storage) (r : Backend.Request) (now : String) (n : Nat) (d : Deployment)
    (m : Memory) : Prop where
  serves : k.Serves r now n d m
  rewrites : k.Rewrites m

theorem rewrites_empty (k : Storage) : k.Rewrites {} := by
  cases k <;> simp [Rewrites]

/-- A flow that is written lies where files can be written. -/
theorem rewrites_withFlow (hrewrites : k.Rewrites m)
    (hown : ∀ dir, k = files dir →
      Directory.Accepts dir (Directory.flowNames (flowKey tenant (.str flow.name)))) :
    k.Rewrites (m.withFlow tenant flow) := by
  cases k with
  | memory | table => trivial
  | files dir =>
    intro key hlisted
    obtain ⟨e, hthere, rfl⟩ := List.mem_map.1 hlisted
    rcases Keyed.mem_set hthere with rfl | hbefore
    · exact hown dir rfl
    · exact hrewrites _ (Keyed.mem_keys_of_mem hbefore)

/-- An access that is answered leaves flows where files can be written. -/
theorem Serves.rewrites_after (hserves : k.Serves r now n d m) (hrewrites : k.Rewrites m)
    {a : Access} {answer : a.Answer} {d' : Deployment}
    (hdone : Deployment.accessStore n a d = (.ok answer, d')) : k.Rewrites (m.after a) := by
  cases a with
  | createFlow tenant flow =>
    rw [Memory.after]
    split
    · exact hrewrites
    · refine rewrites_withFlow hrewrites ?_
      rintro dir rfl
      obtain ⟨base, t, hshows, hran⟩ := hserves.exists_directory_access hdone
      exact Directory.accepts_of_createFlow hshows _ _ hran
  | writeFlow tenant flow =>
    refine rewrites_withFlow hrewrites ?_
    rintro dir rfl
    obtain ⟨base, t, hshows, hran⟩ := hserves.exists_directory_access hdone
    exact Directory.accepts_of_writeFlow hshows hran
  | _ => cases k <;> exact hrewrites

/-- A deployment mirrors contents that can be written anew. -/
theorem mirrors_upholds (k : Storage) (r : Backend.Request) (now : String) (n : Nat) :
    Mirrors (Deployment.access ⟨n, n⟩) Deployment.log now k.Takes (k.Upholds r now n) where
  log e hupholds := ⟨hupholds.serves.log e, hupholds.rewrites⟩
  access {d} {m} a hupholds htidy hproper := by
    have hsame : Deployment.access ⟨n, n⟩ a d = Deployment.accessStore n a d := by
      simp [Deployment.access]
    rw [hsame]
    have hfollows := hupholds.serves.accessStore a htidy hproper
    rcases hran : Deployment.accessStore n a d with ⟨f | answer, d'⟩ <;> rw [hran] at hfollows
    · exact ⟨hfollows.1, hfollows.2, hupholds.rewrites⟩
    · exact ⟨hfollows.1, hfollows.2.imp
        (fun hserves' => ⟨hserves', hupholds.serves.rewrites_after hupholds.rewrites hran⟩)
        fun hidle => ⟨hidle.1, hidle.2, hupholds.rewrites⟩⟩

section

variable {P : Memory → Prop} {Fine : Operation → Prop} (htidy : ∀ m, P m → m.Tidy)
  (hsafe : ∀ {m clock op}, P m → Fine op → (op.program clock).Safe clock P (fun _ _ => True) m)

include htidy hsafe

theorem Upholds.call (hupholds : k.Upholds r now n d m) (hinv : P m) (hfine : Fine op) :
    ∃ m', k.Upholds r clock n (d.call clock op).2 m' ∧ P m' := by
  have hready : k.Upholds r clock n { d with clock } m :=
    ⟨hupholds.serves.setClock clock, hupholds.rewrites⟩
  have hkept := (mirrors_upholds k r clock n).shows_trail htidy _ hready hinv (hsafe hinv hfine)
  rw [← hupholds.serves.engine] at hkept
  exact hkept.2

/-- What a deployment keeps after a history is as it is to be. -/
theorem Upholds.after {history : List Act} (hupholds : k.Upholds r now n d m) (hinv : P m)
    (hempty : P {}) (hfine : ∀ clock op, .call clock op ∈ history → Fine op) :
    ∃ now' n' m', k.Upholds r now' n' (d.after r history) m' ∧ P m' := by
  induction history generalizing now n d m with
  | nil => exact ⟨now, n, m, hupholds, hinv⟩
  | cons act rest ih =>
    have hothers : ∀ clock op, .call clock op ∈ rest → Fine op := fun clock op hlisted =>
      hfine clock op (List.mem_cons_of_mem _ hlisted)
    cases act with
    | restart =>
      obtain ⟨n', m', hserves', rfl | rfl⟩ := hupholds.serves.again
      · exact ih ⟨hserves', hupholds.rewrites⟩ hinv hothers
      · exact ih ⟨hserves', rewrites_empty k⟩ hempty hothers
    | call clock op =>
      obtain ⟨m', hupholds', hinv'⟩ := hupholds.call htidy hsafe hinv
        (hfine clock op List.mem_cons_self)
      exact ih hupholds' hinv' hothers

/-- What a deployment keeps after a history that began with nothing stored is as it is to be. -/
theorem Fresh.upholds {history : List Act} (hfresh : k.Fresh r d) (hempty : P {})
    (hfine : ∀ clock op, .call clock op ∈ history → Fine op) :
    ∃ now n m, k.Upholds r now n (d.after r history) m ∧ P m := by
  obtain ⟨n, hserves⟩ := hfresh.serves
  exact Upholds.after htidy hsafe ⟨hserves, rewrites_empty k⟩ hempty hempty hfine

end

end Storage

namespace Deployment

/-- The flow that a call finds under a name. -/
def flow? (d : Deployment) (clock : String) (tenant name : Value) : Option Flow :=
  match (d.call clock (.loadFlow tenant name)).1 with
  | .ok (.found found) => found
  | _ => none

variable {k : Storage} {r : Backend.Request} {now clock : String} {n : Nat} {d : Deployment}
  {m : Memory} {tenant name : Value} {flow : Flow}

theorem flow?_eq_some_iff : d.flow? clock tenant name = some flow ↔
    (d.call clock (.loadFlow tenant name)).1 = .ok (.found (some flow)) := by
  unfold flow?
  split
  · simp_all
  · rename_i hother
    simp only [reduceCtorEq, false_iff]
    exact hother _

theorem flow?_congr {tenant' name' : Value}
    (hsame : flowKey tenant name = flowKey tenant' name') :
    d.flow? clock tenant name = d.flow? clock tenant' name' :=
  Option.ext fun flow => by
    rw [flow?_eq_some_iff, flow?_eq_some_iff, load_iff, load_iff, stored_congr hsame]

theorem flow?_eq (hserves : k.Serves r now n d m) (htidy : m.Tidy) :
    d.flow? clock tenant name = m.flow? clock (flowKey tenant name) := by
  refine Option.ext fun flow => flow?_eq_some_iff.trans ⟨fun hloaded => ?_, fun hthere => ?_⟩
  · exact hserves.flow?_of_load htidy hloaded
  · exact hserves.load_of_flow? htidy hthere

end Deployment

end Dialogue

import Dialogue.Proofs.Deployment.Lasting
import Dialogue.Proofs.Deployment.Ledger

/-!
# The versions of a flow

What calls do that write flows, on a deployment that began with nothing stored
(`Deployment.Records`).

* A flow that is saved or created over one that is found gets a version above both, and a step that
  is appended makes the next version; both carry the time of the call.  The flow is found as it was
  written from then on, and the flows under other keys are as they were.
* A step that is appended comes after those that were found, which are what they were.
* A preset is created only where no flow is found.

A call that fails leaves all flows as they were.  Over a flow that is found it fails only in a
database, for a version that takes too many bits (`Storage.Refuses`).

Therefore the versions that are written under a key rise all the time
(`Storage.Fresh.records_and_versions`).
-/

namespace Dialogue

open Store

/-- An operation that writes flows. -/
def Operation.WritesFlows : Operation → Prop
  | .saveFlow _ _ | .createFlow _ _ _ | .appendStep _ _ _ | .ensurePreset _ _ => True
  | _ => False

/-- The key under which an operation wrote a flow, as it answers. -/
def Operation.wroteUnder? : Operation → Except Failure Operation.Answer → Option Key
  | .saveFlow tenant _, .ok (.flow written) | .createFlow tenant _ _, .ok (.flow written)
  | .appendStep tenant _ _, .ok (.flow written) => some (flowKey tenant (.str written.name))
  | .ensurePreset tenant name, .ok (.created true) => some (flowKey tenant name)
  | _, _ => none

/-- A history of operations that write flows. -/
def IsWriting (history : List Act) : Prop :=
  ∀ act ∈ history, ∃ clock op, act = .call clock op ∧ op.WritesFlows ∧ op.Valid ∧ op.Revalidates

/-- A flow is found as it was written, its entries as they are read from what is stored for them. -/
structure Flow.IsKeptAs (written found : Flow) : Prop where
  name : found.name = written.name
  version : found.version = written.version
  updatedAt : ∀ t, written.updatedAt = some t → found.updatedAt = some t
  steps : found.steps = written.steps.map Entry.again

/-- A storage has no room for a flow, where one is found or not: a database has none for a version
that takes too many bits, and files have none for a new file with a name that no file can have. -/
def Storage.Refuses (k : Storage) (found : Option Flow) (tenant : Value) (flow : Flow) : Prop :=
  match k with
  | memory => False
  | files dir => found = none ∧
    ¬ Directory.Accepts dir (Directory.flowNames (flowKey tenant (.str flow.name)))
  | table _ => Table.fits flow.version = false

namespace Deployment

/-- All flows are as they were. -/
def Undisturbed (d d' : Deployment) : Prop :=
  ∀ clock tenant name, d'.flow? clock tenant name = d.flow? clock tenant name

/-- A flow is found under the key of its name, and the flows under other keys are as they were. -/
structure Puts (d d' : Deployment) (tenant : Value) (flow : Flow) : Prop where
  found : ∀ clock, ∃ found, d'.flow? clock tenant (.str flow.name) = some found ∧
    flow.IsKeptAs found
  others : ∀ clock tenant' name', flowKey tenant' name' ≠ flowKey tenant (.str flow.name) →
    d'.flow? clock tenant' name' = d.flow? clock tenant' name'

/-- A call answers, and a flow is put. -/
def Writes (d : Deployment) (clock : String) (op : Operation) (answer : Operation.Answer)
    (tenant : Value) (flow : Flow) : Prop :=
  ∃ d', d.call clock op = (.ok answer, d') ∧ d.Puts d' tenant flow

/-- A call fails for a reason, and all flows are as they were. -/
def Fails (d : Deployment) (clock : String) (op : Operation) (reason : Prop) : Prop :=
  ∃ f d', d.call clock op = (.error f, d') ∧ d.Undisturbed d' ∧ reason

/-- The flow that a step is appended to: the one that is found, or else the preset. -/
def base (d : Deployment) (clock : String) (tenant name : Value) : Except Schema.Mismatch Flow :=
  match d.flow? clock tenant name with
  | some flow => .ok flow
  | none => Flow.ofPresetNamed clock .leadQualification name

/-- No flow is found under a name, and yet none is created where one is ensured: what lies there is
no flow. -/
def IsBlocked (d : Deployment) (clock : String) (tenant name : Value) : Prop :=
  d.flow? clock tenant name = none ∧
    (d.call clock (.ensurePreset tenant name)).1 = .ok (.created false)

/-- A flow is put in its next version, with one entry more.  It is found under the name that it was
looked for, every entry where it was and the same, and the new one last. -/
structure Appends (d d' : Deployment) (clock : String) (tenant name step : Value) (base : Flow) :
    Prop where
  puts : d.Puts d' tenant (withStep clock step base)
  key : flowKey tenant (.str base.name) = flowKey tenant name
  finds : ∀ clock', ∃ found earlier, d'.flow? clock' tenant name = some found ∧
    found.version = base.version + 1 ∧ found.updatedAt = some clock ∧
    found.steps = earlier ++ [(Entry.ofValue step).again] ∧
    List.Forall₂ Entry.Alike base.steps earlier

/-- What calls do that write flows. -/
structure Records (k : Storage) (d : Deployment) : Prop where
  saves : ∀ {clock op tenant flow}, op.Valid → op.Revalidates → op.Saves clock tenant flow →
    let found := d.flow? clock tenant (.str flow.name)
    let written := revised clock flow found
    (∀ old, found = some old → written.version = max flow.version old.version + 1 ∧
      written.updatedAt = some clock) ∧
    (d.Writes clock op (.flow written) tenant written ∨
      d.Fails clock op (flow.name = "" ∨ k.Refuses found tenant written))
  creates : ∀ {clock tenant name preset},
    (∀ flow, ¬ (Operation.createFlow tenant name preset).Saves clock tenant flow) →
      d.Fails clock (.createFlow tenant name preset) True
  appends : ∀ {clock tenant name step base}, step.IsDocument → d.base clock tenant name = .ok base →
    (∃ d', d.call clock (.appendStep tenant name step) =
        (.ok (.flow (withStep clock step base)), d') ∧
      d.Appends d' clock tenant name step base) ∨
    d.Fails clock (.appendStep tenant name step)
      (k.Refuses (d.flow? clock tenant name) tenant (withStep clock step base))
  baseless : ∀ {clock tenant name step mismatch}, d.base clock tenant name = .error mismatch →
    d.Fails clock (.appendStep tenant name step) True
  ensures : ∀ {clock tenant name preset},
    Flow.ofPresetNamed clock .leadQualification name = .ok preset →
      (d.flow? clock tenant name = none →
        d.Writes clock (.ensurePreset tenant name) (.created true) tenant preset ∨
          d.Fails clock (.ensurePreset tenant name) (k.Refuses none tenant preset)) ∧
      (d.flow? clock tenant name ≠ none →
        (d.call clock (.ensurePreset tenant name)).1 = .ok (.created false) ∧
          d.Undisturbed (d.call clock (.ensurePreset tenant name)).2)
  unnamed : ∀ {clock tenant name mismatch},
    Flow.ofPresetNamed clock .leadQualification name = .error mismatch →
      d.Fails clock (.ensurePreset tenant name) True

/-- The versions that a history writes under the key of a name, as they are found after each call.
-/
def versions (r : Backend.Request) (tenant name : Value) : List Act → Deployment → List Int
  | [], _ => []
  | .restart :: rest, d => versions r tenant name rest (d.again r)
  | .call clock op :: rest, d =>
    let (answer, d') := d.call clock op
    let later := versions r tenant name rest d'
    if op.wroteUnder? answer = some (flowKey tenant name) then
      ((d'.flow? clock tenant name).map Flow.version).toList ++ later
    else later

end Deployment

/-! ## Calls on contents -/

namespace Storage

variable {k : Storage} {r : Backend.Request} {now now' clock : String} {n n' : Nat}
  {d d' : Deployment} {m m₁ m' : Memory} {α : Type} {op : Operation} {tenant name : Value}
  {flow : Flow}

theorem Upholds.setClock (hupholds : k.Upholds r now n d m) (clock : String) :
    k.Upholds r clock n { d with clock } m :=
  ⟨hupholds.serves.setClock clock, hupholds.rewrites⟩

theorem Upholds.log (hupholds : k.Upholds r now n d m) (e : Event) :
    k.Upholds r now n (d.log e) m :=
  ⟨hupholds.serves.log e, hupholds.rewrites⟩

/-- A call runs its program over the one store. -/
theorem Upholds.call_eq (hupholds : k.Upholds r now n d m) (clock : String) (op : Operation) :
    d.call clock op =
      (op.program clock).run (Deployment.accessStore n) Deployment.log { d with clock } := by
  rw [Deployment.call, Deployment.run, hupholds.serves.engine, Deployment.access_one]

/-- A program fails at its next access, which was not granted then, or it goes on with what the
contents answer, except that a flow may lie elsewhere. -/
theorem Upholds.run_access (hupholds : k.Upholds r now n d m) (htidy : m.Tidy) (a : Access)
    (hproper : a.Proper) (hdiscerns : m.Discerns a) {next : a.Answer → Program α} :
    (∃ f d', (Program.access a next).run (Deployment.accessStore n) Deployment.log d =
        (.error f, d') ∧ ¬ m.Grants now k.Takes a ∧ k.Upholds r now n d' m) ∨
      ∃ answer d', (Program.access a next).run (Deployment.accessStore n) Deployment.log d =
          (next answer).run (Deployment.accessStore n) Deployment.log d' ∧
        a.Same answer (m.answer now a) ∧ k.Upholds r now n d' (m.after a) := by
  have hmirrors := mirrors_upholds k r now n
  rw [Deployment.access_one] at hmirrors
  refine (hmirrors.run_access hupholds htidy a hproper hdiscerns).imp_right ?_
  rintro ⟨answer, d', -, hran⟩
  exact ⟨answer, d', hran⟩

theorem mem_keys_of_flow? {key : Key} (hthere : m.flow? now key = some flow) :
    key ∈ Keyed.keys m.flows := by
  obtain ⟨doc, hdocument, -⟩ := Option.bind_eq_some_iff.1 hthere
  exact Keyed.mem_keys_of_mem
    (Keyed.mem_of_get?_eq_some (Option.filter_eq_some_iff.1 hdocument).1)

theorem reads_of_flow? {key : Key} (hthere : m.flow? now key = some flow) : m.Reads now key := by
  intro doc hfound
  rw [Memory.flow?, hfound, Option.bind_some] at hthere
  cases hread : Flow.ofValue now doc with
  | ok again => exact ⟨again, rfl⟩
  | error mismatch =>
    rw [hread] at hthere
    cases hthere

theorem reads_of_absent {key : Key} (habsent : m.flows.has key = false) : m.Reads now key := by
  intro doc hfound
  have hnothing : m.flows.get? key = none := by simpa [Keyed.has] using habsent
  simp [Memory.document?, hnothing] at hfound

theorem refuses_of_not_takes (clock : String) (hrewrites : k.Rewrites m)
    (hrefused : ¬ k.Takes (.writeFlow tenant flow)) :
    k.Refuses (m.flow? clock (flowKey tenant (.str flow.name))) tenant flow := by
  cases k with
  | memory => exact hrefused trivial
  | table location => exact Bool.eq_false_iff.2 hrefused
  | files dir =>
    exact ⟨Option.eq_none_iff_forall_ne_some.2 fun found hthere =>
      hrefused (hrewrites _ (mem_keys_of_flow? hthere)), hrefused⟩

theorem takes_createFlow_iff :
    k.Takes (.createFlow tenant flow) ↔ k.Takes (.writeFlow tenant flow) := by
  cases k <;> exact Iff.rfl

/-- Where something lies, a flow of a small version can be written. -/
theorem takes_of_mem (hrewrites : k.Rewrites m)
    (held : flowKey tenant (.str flow.name) ∈ Keyed.keys m.flows)
    (hfits : Table.fits flow.version = true) : k.Takes (.writeFlow tenant flow) := by
  cases k with
  | memory => trivial
  | files dir => exact hrewrites _ held
  | table location => exact hfits

/-- Where a flow is not even looked for, none can be written. -/
theorem not_takes_of_not_grants (hreads : m.Reads clock (flowKey tenant name))
    (hrefused : ¬ m.Grants clock k.Takes (.loadFlow tenant name))
    (hkey : flowKey tenant (.str flow.name) = flowKey tenant name) :
    ¬ k.Takes (.writeFlow tenant flow) := by
  have hrefused : ¬ k.Takes (.loadFlow tenant name) := fun htakes => hrefused ⟨hreads, .inr htakes⟩
  cases k with
  | memory | table => exact absurd trivial hrefused
  | files dir =>
    show ¬ Directory.Accepts dir (Directory.flowNames (flowKey tenant (.str flow.name)))
    rw [hkey]
    exact hrefused

theorem Upholds.undisturbed (hupholds : k.Upholds r now n d m)
    (hupholds' : k.Upholds r now' n' d' m) (htidy : m.Tidy) : d.Undisturbed d' := by
  intro clock tenant name
  rw [Deployment.flow?_eq hupholds.serves htidy, Deployment.flow?_eq hupholds'.serves htidy]

/-- A flow is put if its document, which can be read, lies under the key of its name, and nothing
else was changed. -/
theorem Upholds.puts (hupholds : k.Upholds r now n d m) (htidy : m.Tidy)
    (hupholds' : k.Upholds r now' n' d' m') (htidy' : m'.Tidy) (hnamed : flow.name ≠ "")
    (hagain : ∀ now, ∃ again, Flow.ofValue now (.dict flow.document) = .ok again)
    (hown : m'.flows.get? (flowKey tenant (.str flow.name)) = some (.dict flow.document))
    (hothers : ∀ key, key ≠ flowKey tenant (.str flow.name) →
      m'.flows.get? key = m.flows.get? key) : d.Puts d' tenant flow where
  found clock := by
    obtain ⟨found, hread⟩ := hagain clock
    refine ⟨found, ?_, Flow.name_of_ofValue_document hnamed hread,
      Flow.version_of_ofValue_document hread, fun t hchanged =>
      Flow.updatedAt_of_ofValue_document hchanged hread, Flow.steps_of_ofValue_document hread⟩
    rw [Deployment.flow?_eq hupholds'.serves htidy', Memory.flow?, Memory.document?_flows htidy',
      hown, Option.bind_some, hread]
    rfl
  others clock tenant' name' hother := by
    rw [Deployment.flow?_eq hupholds.serves htidy, Deployment.flow?_eq hupholds'.serves htidy',
      Memory.flow?, Memory.flow?, Memory.document?_flows htidy', Memory.document?_flows htidy,
      hothers _ hother]

/-! ### Flows that are saved -/

theorem Upholds.call_of_saves (hupholds : k.Upholds r now n d m) (hsound : m.Sound)
    (hvalid : op.Valid) (hrevalidates : op.Revalidates) (hsaves : op.Saves clock tenant flow) :
    let found := m.flow? clock (flowKey tenant (.str flow.name))
    let written := revised clock flow found
    d.Writes clock op (.flow written) tenant written ∨
      d.Fails clock op (flow.name = "" ∨ k.Refuses found tenant written) := by
  intro found written
  have hready := hupholds.setClock clock
  have hcalled := hupholds.call_eq clock op
  rw [Operation.program_of_saves hsaves] at hcalled
  cases hnamed : flow.name.isEmpty with
  | true =>
    rw [saveFlow_eq_fail hnamed] at hcalled
    exact .inr ⟨_, _, hcalled, hupholds.undisturbed hready hsound.tidy,
      .inl (String.isEmpty_iff.1 hnamed)⟩
  | false =>
    rw [saveFlow_eq hnamed] at hcalled
    have hown : flow.name ≠ "" := by simpa [String.isEmpty_iff] using hnamed
    have hkey : flowKey tenant (.str written.name) = flowKey tenant (.str flow.name) := by
      rw [name_revised]
    have htold : m.Discerns (.writeFlow tenant written) := by
      show Discerned (m.flows.get? (flowKey tenant (.str written.name))) _
      rw [hkey]
      exact discerned_revised hsound.tidy (hsound.reads clock _)
    have hrefuses (hrefused : ¬ k.Takes (.writeFlow tenant written)) :
        k.Refuses found tenant written := by
      have hrefuses := refuses_of_not_takes clock hupholds.rewrites hrefused
      rwa [hkey] at hrefuses
    rcases hready.run_access hsound.tidy (.loadFlow tenant (.str flow.name)) trivial trivial with
      ⟨f, d₁, hfailed, hrefused, hupholds₁⟩ | ⟨_, d₁, hloaded, rfl, hupholds₁⟩
    · exact .inr ⟨f, d₁, hcalled.trans hfailed, hupholds.undisturbed hupholds₁ hsound.tidy,
        .inr (hrefuses (not_takes_of_not_grants (hsound.reads clock _) hrefused hkey))⟩
    · rcases hupholds₁.run_access hsound.tidy (.writeFlow tenant written)
          (wellFormed_revised (Operation.wellFormed_of_saves hvalid hsaves) _) htold with
        ⟨f, d₂, hfailed, hrefused, hupholds₂⟩ | ⟨_, d₂, hwrote, -, hupholds₂⟩
      · exact .inr ⟨f, d₂, hcalled.trans (hloaded.trans hfailed),
          hupholds.undisturbed hupholds₂ hsound.tidy, .inr (hrefuses hrefused)⟩
      · have hsound' := Operation.kept_sound hsound hvalid hrevalidates tenant flow hsaves hown
        refine .inl ⟨_, hcalled.trans (hloaded.trans hwrote),
          hupholds.puts hsound.tidy (hupholds₂.log _)
          hsound'.tidy (by rwa [name_revised])
          (hsound'.readable _ (Keyed.mem_of_get?_eq_some (Keyed.get?_set_self _ _ _)))
          (Keyed.get?_set_self _ _ _) fun other hdifferent => Keyed.get?_set_of_ne _ _ hdifferent⟩

theorem Upholds.call_createFlow (hupholds : k.Upholds r now n d m) (htidy : m.Tidy) {preset : Value}
    (hunmade : ∀ flow, ¬ (Operation.createFlow tenant name preset).Saves clock tenant flow) :
    d.Fails clock (.createFlow tenant name preset) True := by
  rcases Operation.program_createFlow_or with ⟨flow, hsaves⟩ | ⟨f, hrefused⟩
  · exact absurd hsaves (hunmade flow)
  · have hcalled := hupholds.call_eq clock (.createFlow tenant name preset)
    rw [hrefused] at hcalled
    exact ⟨f, _, hcalled, hupholds.undisturbed (hupholds.setClock clock) htidy, trivial⟩

/-! ### Presets -/

/-- A flow whose version is small is refused for its name only, and only where none is found. -/
theorem refuses_iff_of_fits {found : Option Flow} (hfits : Table.fits flow.version = true) :
    k.Refuses found tenant flow ↔ found = none ∧ ∃ dir, k = files dir ∧
      ¬ Directory.Accepts dir (Directory.flowNames (flowKey tenant (.str flow.name))) := by
  cases k <;> simp [Refuses, hfits]

theorem flow?_eq_none_iff {key : Key} (hsound : m.Sound) :
    m.flow? now key = none ↔ m.flows.has key = false := by
  refine ⟨fun hmissing => ?_, Memory.flow?_of_has now⟩
  simp [Keyed.has, get?_of_flow?_eq_none hsound hmissing]

/-- Where a flow lies is told in any case. -/
theorem Upholds.run_locateFlow (hupholds : k.Upholds r now n d m) (htidy : m.Tidy)
    (next : String → Program α) :
    ∃ location d', (Program.access (.locateFlow tenant name) next).run (Deployment.accessStore n)
        Deployment.log d = (next location).run (Deployment.accessStore n) Deployment.log d' ∧
      k.Upholds r now n d' m := by
  have hmirrors := mirrors_upholds k r now n
  rw [Deployment.access_one] at hmirrors
  exact hmirrors.run_locateFlow hupholds htidy (takes_locateFlow k tenant name) next

theorem fits_ofPresetNamed {preset : Flow}
    (hmade : Flow.ofPresetNamed clock .leadQualification name = .ok preset) :
    Table.fits preset.version = true := by
  obtain ⟨text, rfl, -⟩ := exists_of_ofPresetNamed hmade
  rfl

/-- A preset is created where nothing lies. -/
theorem Upholds.call_ensurePreset_of_absent (hupholds : k.Upholds r now n d m) (htidy : m.Tidy)
    (habsent : m.flows.has (flowKey tenant name) = false) {preset : Flow}
    (hmade : Flow.ofPresetNamed clock .leadQualification name = .ok preset) :
    d.Writes clock (.ensurePreset tenant name) (.created true) tenant preset ∨
      d.Fails clock (.ensurePreset tenant name) (k.Refuses none tenant preset) := by
  have hkey : flowKey tenant (.str preset.name) = flowKey tenant name := flowKey_ofPresetNamed hmade
  have hcalled := hupholds.call_eq clock (.ensurePreset tenant name)
  rw [Operation.program, ensurePreset_eq hmade] at hcalled
  have hwellFormed := wellFormed_ofPresetNamed hmade
  rw [← hkey] at habsent
  rcases (hupholds.setClock clock).run_access htidy (.createFlow tenant preset) hwellFormed trivial
    with ⟨f, d₁, hfailed, hrefused, hupholds₁⟩ | ⟨created, d₁, hran, hsame, hupholds₁⟩
  · have hrefuses := refuses_of_not_takes clock hupholds.rewrites
      (mt takes_createFlow_iff.2 hrefused)
    rw [Memory.flow?_of_has clock habsent] at hrefuses
    exact .inr ⟨f, d₁, hcalled.trans hfailed, hupholds.undisturbed hupholds₁ htidy, hrefuses⟩
  · obtain rfl : created = true := by
      have hanswered : created = !m.flows.has (flowKey tenant (.str preset.name)) := hsame
      rw [hanswered, habsent]
      rfl
    have hafter : m.after (.createFlow tenant preset) = m.withFlow tenant preset := by
      rw [Memory.after, habsent]
      rfl
    rw [hafter] at hupholds₁
    have htidy' := Memory.tidy_withFlow htidy tenant hwellFormed
    obtain ⟨location, d₂, htold, hupholds₂⟩ := (hupholds₁.log _).run_locateFlow htidy' _
    have hnamed : preset.name ≠ "" := by
      obtain ⟨text, rfl, -⟩ := exists_of_ofPresetNamed hmade
      exact Flow.name_make_ne_empty _ _ _
    exact .inl ⟨d₂, hcalled.trans (hran.trans htold),
      hupholds.puts htidy hupholds₂ htidy' hnamed
        (fun _ => ⟨preset, Flow.ofValue_ofPresetNamed hmade⟩)
        (Keyed.get?_set_self _ _ _) fun other hdifferent => Keyed.get?_set_of_ne _ _ hdifferent⟩

/-- Where something lies no preset is created, and nothing changes. -/
theorem Upholds.call_ensurePreset_of_held (hupholds : k.Upholds r now n d m) (htidy : m.Tidy)
    (held : m.flows.has (flowKey tenant name) = true) {preset : Flow}
    (hmade : Flow.ofPresetNamed clock .leadQualification name = .ok preset) :
    (d.call clock (.ensurePreset tenant name)).1 = .ok (.created false) ∧
      d.Undisturbed (d.call clock (.ensurePreset tenant name)).2 := by
  have hcalled := hupholds.call_eq clock (.ensurePreset tenant name)
  rw [Operation.program, ensurePreset_eq hmade] at hcalled
  rw [← flowKey_ofPresetNamed hmade] at held
  rcases (hupholds.setClock clock).run_access htidy (.createFlow tenant preset)
      (wellFormed_ofPresetNamed hmade) trivial with
    ⟨f, d₁, hfailed, hrefused, hupholds₁⟩ | ⟨created, d₁, hran, hsame, hupholds₁⟩
  · exact absurd (takes_createFlow_iff.2 (takes_of_mem hupholds.rewrites
      (Keyed.has_eq_true_iff.1 held) (fits_ofPresetNamed hmade))) hrefused
  · obtain rfl : created = false := by
      have hanswered : created = !m.flows.has (flowKey tenant (.str preset.name)) := hsame
      rw [hanswered, held]
      rfl
    have hkept : m.after (.createFlow tenant preset) = m := if_pos held
    rw [hkept] at hupholds₁
    obtain ⟨location, d₂, htold, hupholds₂⟩ := hupholds₁.run_locateFlow htidy _
    rw [hcalled.trans (hran.trans htold)]
    exact ⟨rfl, hupholds.undisturbed hupholds₂ htidy⟩

/-- No preset is ensured that cannot be made. -/
theorem Upholds.call_ensurePreset_of_error (hupholds : k.Upholds r now n d m) (htidy : m.Tidy)
    {mismatch : Schema.Mismatch}
    (hunmade : Flow.ofPresetNamed clock .leadQualification name = .error mismatch) :
    d.Fails clock (.ensurePreset tenant name) True := by
  have hcalled := hupholds.call_eq clock (.ensurePreset tenant name)
  rw [Operation.program, Store.ensurePreset, hunmade] at hcalled
  exact ⟨_, _, hcalled, hupholds.undisturbed (hupholds.setClock clock) htidy, trivial⟩

/-- Where all flows can be read, none is blocked. -/
theorem Upholds.not_isBlocked (hupholds : k.Upholds r now n d m) (hsound : m.Sound) :
    ¬ d.IsBlocked clock tenant name := by
  rintro ⟨hmissing, hanswered⟩
  rw [Deployment.flow?_eq hupholds.serves hsound.tidy, flow?_eq_none_iff hsound] at hmissing
  cases hmade : Flow.ofPresetNamed clock .leadQualification name with
  | error mismatch =>
    have hfails : d.Fails clock (.ensurePreset tenant name) True :=
      hupholds.call_ensurePreset_of_error hsound.tidy hmade
    obtain ⟨f, d', hcalled, -⟩ := hfails
    rw [hcalled] at hanswered
    cases hanswered
  | ok preset =>
    rcases hupholds.call_ensurePreset_of_absent hsound.tidy hmissing hmade with
      ⟨d', hcalled, -⟩ | ⟨f, d', hcalled, -⟩
    · rw [hcalled] at hanswered
      cases hanswered
    · rw [hcalled] at hanswered
      cases hanswered

/-! ### Steps that are appended -/

/-- A flow that was loaded is written with a step, unless the storage refuses it. -/
theorem Upholds.run_writeStep (hupholds : k.Upholds r clock n d m) (hlasting : m.Lasting)
    {base : Flow} (hthere : m.flow? clock (flowKey tenant name) = some base) {step : Value}
    (hdocument : step.IsDocument) (next : String → Program α) :
    (∃ location d', (Program.access (.writeFlow tenant (withStep clock step base)) next).run
        (Deployment.accessStore n) Deployment.log d =
          (next location).run (Deployment.accessStore n) Deployment.log d' ∧
        k.Upholds r clock n d' (m.withFlow tenant (withStep clock step base))) ∨
      ∃ f d', (Program.access (.writeFlow tenant (withStep clock step base)) next).run
        (Deployment.accessStore n) Deployment.log d = (.error f, d') ∧ k.Upholds r clock n d' m ∧
          k.Refuses (some base) tenant (withStep clock step base) := by
  obtain ⟨-, hown⟩ := hlasting.named hthere
  have hkey : flowKey tenant (.str (withStep clock step base).name) = flowKey tenant name :=
    congrArg (Prod.mk _) hown.symm
  rcases hupholds.run_access hlasting.tidy (.writeFlow tenant (withStep clock step base))
      (wellFormed_withStep hdocument (wellFormed_of_flow? hlasting.tidy hthere))
      (discerned_withStep hlasting.tidy hthere hown) with
    ⟨f, d', hfailed, hrefused, hupholds'⟩ | ⟨location, d', hwrote, -, hupholds'⟩
  · have hrefuses := refuses_of_not_takes clock hupholds.rewrites hrefused
    rw [hkey, hthere] at hrefuses
    exact .inr ⟨f, d', hfailed, hupholds', hrefuses⟩
  · exact .inl ⟨location, d', hwrote, hupholds'⟩

/-- A flow that was written with a step is put. -/
theorem Upholds.puts_withStep (hupholds : k.Upholds r now n d m) (htidy : m.Tidy) {base : Flow}
    {step : Value} (hdocument : step.IsDocument) (hlasting₁ : m₁.Lasting)
    (hthere : m₁.flow? clock (flowKey tenant name) = some base)
    (hupholds' : k.Upholds r now' n' d' (m₁.withFlow tenant (withStep clock step base)))
    (hothers : ∀ key, key ≠ flowKey tenant name → m₁.flows.get? key = m.flows.get? key) :
    d.Puts d' tenant (withStep clock step base) ∧
      flowKey tenant (.str base.name) = flowKey tenant name := by
  obtain ⟨hnamed, hown⟩ := hlasting₁.named hthere
  have hkey : flowKey tenant (.str base.name) = flowKey tenant name :=
    congrArg (Prod.mk _) hown.symm
  have htidy' := ((Memory.closed_lasting clock).appends tenant name hlasting₁ trivial hdocument
    hthere).tidy
  refine ⟨hupholds.puts htidy hupholds' htidy' hnamed
    (Flow.exists_ofValue_document_of_updatedAt (show _ = some clock from rfl))
    (Keyed.get?_set_self _ _ _) fun other hdifferent => ?_, hkey⟩
  rw [← hothers other (hkey ▸ hdifferent)]
  exact Keyed.get?_set_of_ne _ _ hdifferent

/-- A step is appended to a flow that is found. -/
theorem Upholds.call_appendStep_of_found (hupholds : k.Upholds r now n d m) (hlasting : m.Lasting)
    {base : Flow} (hthere : m.flow? clock (flowKey tenant name) = some base) {step : Value}
    (hdocument : step.IsDocument) :
    (∃ d', d.call clock (.appendStep tenant name step) =
        (.ok (.flow (withStep clock step base)), d') ∧
      d.Puts d' tenant (withStep clock step base) ∧
      flowKey tenant (.str base.name) = flowKey tenant name) ∨
    d.Fails clock (.appendStep tenant name step)
      (k.Refuses (some base) tenant (withStep clock step base)) := by
  have hcalled := hupholds.call_eq clock (.appendStep tenant name step)
  rw [Operation.program, appendStep_eq, loadOrCreate_eq] at hcalled
  rcases (hupholds.setClock clock).run_access hlasting.tidy (.loadFlow tenant name) trivial trivial
    with ⟨f, d₁, hfailed, hrefused, -⟩ | ⟨_, d₁, hloaded, rfl, hupholds₁⟩
  · exact absurd ⟨reads_of_flow? hthere, .inl (mem_keys_of_flow? hthere)⟩ hrefused
  · rw [show m.answer clock (.loadFlow tenant name) = some base from hthere] at hloaded
    rcases hupholds₁.run_writeStep hlasting hthere hdocument _ with
      ⟨_, d₂, hwrote, hupholds₂⟩ | ⟨f, d₂, hfailed, hupholds₂, hrefuses⟩
    · exact .inl ⟨_, hcalled.trans (hloaded.trans hwrote),
        hupholds.puts_withStep hlasting.tidy hdocument hlasting hthere (hupholds₂.log _) fun _ _ =>
          rfl⟩
    · exact .inr ⟨f, d₂, hcalled.trans (hloaded.trans hfailed),
        hupholds.undisturbed hupholds₂ hlasting.tidy, hrefuses⟩

/-- A step is appended to the preset where nothing lies. -/
theorem Upholds.call_appendStep_of_absent (hupholds : k.Upholds r now n d m) (hlasting : m.Lasting)
    (habsent : m.flows.has (flowKey tenant name) = false) {base : Flow}
    (hmade : Flow.ofPresetNamed clock .leadQualification name = .ok base) {step : Value}
    (hdocument : step.IsDocument) :
    (∃ d', d.call clock (.appendStep tenant name step) =
        (.ok (.flow (withStep clock step base)), d') ∧
      d.Puts d' tenant (withStep clock step base) ∧
      flowKey tenant (.str base.name) = flowKey tenant name) ∨
    d.Fails clock (.appendStep tenant name step)
      (k.Refuses none tenant (withStep clock step base)) := by
  have hkey : flowKey tenant (.str base.name) = flowKey tenant name := flowKey_ofPresetNamed hmade
  have htidy := hlasting.tidy
  -- the version of the preset is small, after the step as before it
  have hfits : Table.fits (withStep clock step base).version = true := by
    obtain ⟨text, rfl, -⟩ := exists_of_ofPresetNamed hmade
    rfl
  have hrefuses (hrefused : ¬ k.Takes (.writeFlow tenant base)) :
      k.Refuses none tenant (withStep clock step base) := by
    have hrefuses := refuses_of_not_takes clock hupholds.rewrites hrefused
    exact (refuses_iff_of_fits hfits).2
      ⟨rfl, ((refuses_iff_of_fits (fits_ofPresetNamed hmade)).1 hrefuses).2⟩
  have hcalled := hupholds.call_eq clock (.appendStep tenant name step)
  rw [Operation.program, appendStep_eq, loadOrCreate_eq, hmade] at hcalled
  rcases (hupholds.setClock clock).run_access htidy (.loadFlow tenant name) trivial trivial with
    ⟨f, d₁, hfailed, hrefused, hupholds₁⟩ | ⟨_, d₁, hloaded, rfl, hupholds₁⟩
  · exact .inr ⟨f, d₁, hcalled.trans hfailed, hupholds.undisturbed hupholds₁ htidy,
      hrefuses (not_takes_of_not_grants (reads_of_absent habsent) hrefused hkey)⟩
  rw [show m.answer clock (.loadFlow tenant name) = none from Memory.flow?_of_has clock habsent]
    at hloaded
  replace hupholds₁ : k.Upholds r clock n d₁ m := hupholds₁
  rcases hupholds₁.run_access htidy (.createFlow tenant base) (wellFormed_ofPresetNamed hmade)
      trivial with
    ⟨f, d₂, hfailed, hrefused, hupholds₂⟩ | ⟨_, d₂, hcreated, -, hupholds₂⟩
  · exact .inr ⟨f, d₂, hcalled.trans (hloaded.trans hfailed), hupholds.undisturbed hupholds₂ htidy,
      hrefuses (mt takes_createFlow_iff.2 hrefused)⟩
  -- the preset is there now, so from here on nothing fails
  have hfree : m.flows.has (flowKey tenant (.str base.name)) = false := by rwa [hkey]
  have hafter : m.after (.createFlow tenant base) = m.withFlow tenant base := by
    rw [Memory.after, hfree]
    rfl
  rw [hafter] at hupholds₂
  have hlasting₂ := (Memory.closed_lasting clock).creates tenant name hlasting base hmade hfree
  have hthere : (m.withFlow tenant base).flow? clock (flowKey tenant name) = some base := by
    rw [← hkey, Memory.flow?_withFlow_self, Flow.ofValue_ofPresetNamed hmade]
    rfl
  rcases hupholds₂.run_access hlasting₂.tidy (.loadFlow tenant name) trivial trivial with
    ⟨_, _, -, hrefused, -⟩ | ⟨_, d₃, hreloaded, rfl, hupholds₃⟩
  · exact absurd ⟨reads_of_flow? hthere, .inl (mem_keys_of_flow? hthere)⟩ hrefused
  rw [show (m.withFlow tenant base).answer clock (.loadFlow tenant name) = some base from hthere]
    at hreloaded
  rcases hupholds₃.run_writeStep hlasting₂ hthere hdocument _ with
    ⟨_, d₄, hwrote, hupholds₄⟩ | ⟨_, _, -, -, himpossible⟩
  · refine .inl ⟨_, hcalled.trans (hloaded.trans (hcreated.trans (hreloaded.trans hwrote))),
      hupholds.puts_withStep htidy hdocument hlasting₂ hthere (hupholds₄.log _)
        fun other hdifferent => ?_⟩
    exact Keyed.get?_set_of_ne _ _ (hkey ▸ hdifferent)
  · cases ((refuses_iff_of_fits hfits).1 himpossible).1

/-- No step is appended where no flow is found and no preset can be made. -/
theorem Upholds.call_appendStep_of_error (hupholds : k.Upholds r now n d m) (htidy : m.Tidy)
    (hmissing : m.flow? clock (flowKey tenant name) = none) {mismatch : Schema.Mismatch}
    (hunmade : Flow.ofPresetNamed clock .leadQualification name = .error mismatch) (step : Value) :
    d.Fails clock (.appendStep tenant name step) True := by
  have hcalled := hupholds.call_eq clock (.appendStep tenant name step)
  rw [Operation.program, appendStep_eq, loadOrCreate_eq, hunmade] at hcalled
  rcases (hupholds.setClock clock).run_access htidy (.loadFlow tenant name) trivial trivial with
    ⟨f, d₁, hfailed, -, hupholds₁⟩ | ⟨_, d₁, hloaded, rfl, hupholds₁⟩
  · exact ⟨f, d₁, hcalled.trans hfailed, hupholds.undisturbed hupholds₁ htidy, trivial⟩
  · rw [show m.answer clock (.loadFlow tenant name) = none from hmissing] at hloaded
    exact ⟨_, d₁, hcalled.trans hloaded, hupholds.undisturbed hupholds₁ htidy, trivial⟩

/-- No step is appended where something lies that is no flow. -/
theorem Upholds.call_appendStep_of_held (hupholds : k.Upholds r now n d m) (htidy : m.Tidy)
    (held : m.flows.has (flowKey tenant name) = true)
    (hmissing : m.flow? clock (flowKey tenant name) = none) {preset : Flow}
    (hmade : Flow.ofPresetNamed clock .leadQualification name = .ok preset) (step : Value) :
    d.Fails clock (.appendStep tenant name step) (d.IsBlocked clock tenant name) := by
  have hblocked : d.IsBlocked clock tenant name :=
    ⟨(Deployment.flow?_eq hupholds.serves htidy).trans hmissing,
      (hupholds.call_ensurePreset_of_held htidy held hmade).1⟩
  have hcalled := hupholds.call_eq clock (.appendStep tenant name step)
  rw [Operation.program, appendStep_eq, loadOrCreate_eq, hmade] at hcalled
  have hunfound : m.answer clock (.loadFlow tenant name) = none := hmissing
  rcases (hupholds.setClock clock).run_access htidy (.loadFlow tenant name) trivial trivial with
    ⟨f, d₁, hfailed, -, hupholds₁⟩ | ⟨_, d₁, hloaded, rfl, hupholds₁⟩
  · exact ⟨f, d₁, hcalled.trans hfailed, hupholds.undisturbed hupholds₁ htidy, hblocked⟩
  rw [hunfound] at hloaded
  replace hupholds₁ : k.Upholds r clock n d₁ m := hupholds₁
  rcases hupholds₁.run_access htidy (.createFlow tenant preset) (wellFormed_ofPresetNamed hmade)
      trivial with
    ⟨f, d₂, hfailed, -, hupholds₂⟩ | ⟨_, d₂, hcreated, -, hupholds₂⟩
  · exact ⟨f, d₂, hcalled.trans (hloaded.trans hfailed), hupholds.undisturbed hupholds₂ htidy,
      hblocked⟩
  have hkept : m.after (.createFlow tenant preset) = m :=
    if_pos (by rwa [flowKey_ofPresetNamed hmade])
  rw [hkept] at hupholds₂
  rcases hupholds₂.run_access htidy (.loadFlow tenant name) trivial trivial with
    ⟨f, d₃, hfailed, -, hupholds₃⟩ | ⟨_, d₃, hreloaded, rfl, hupholds₃⟩
  · exact ⟨f, d₃, hcalled.trans (hloaded.trans (hcreated.trans hfailed)),
      hupholds.undisturbed hupholds₃ htidy, hblocked⟩
  · rw [hunfound] at hreloaded
    exact ⟨_, d₃, hcalled.trans (hloaded.trans (hcreated.trans hreloaded)),
      hupholds.undisturbed hupholds₃ htidy, hblocked⟩

/-! ## Calls after a history -/

theorem alike_of_base (hserves : k.Serves r now n d m) (hlasting : m.Lasting) {base : Flow}
    (hfound : d.base clock tenant name = .ok base) : ∀ e ∈ base.steps, e.Alike e.again := by
  unfold Deployment.base at hfound
  split at hfound
  · rename_i hthere
    cases hfound
    rw [Deployment.flow?_eq hserves hlasting.tidy] at hthere
    exact hlasting.alike hthere
  · obtain ⟨text, rfl, -⟩ := exists_of_ofPresetNamed hfound
    intro e hlisted
    have hagain : e.again = e :=
      List.map_inj_left.1 ((Flow.map_again_steps .leadQualification).trans (List.map_id _).symm) e
        hlisted
    rw [hagain]
    exact .refl e

/-- A flow that is put with a step is found with it, after the entries that it had. -/
theorem appends_of_puts {step : Value} {base : Flow}
    (hputs : d.Puts d' tenant (withStep clock step base))
    (hkey : flowKey tenant (.str base.name) = flowKey tenant name)
    (halike : ∀ e ∈ base.steps, e.Alike e.again) : d.Appends d' clock tenant name step base where
  puts := hputs
  key := hkey
  finds clock' := by
    obtain ⟨found, hthere, hkept⟩ := hputs.found clock'
    refine ⟨found, base.steps.map Entry.again, ?_, hkept.version, hkept.updatedAt clock rfl, ?_, ?_⟩
    · rw [← Deployment.flow?_congr hkey]
      exact hthere
    · rw [hkept.steps]
      simp [withStep]
    · exact List.forall₂_map_right_iff.2 (List.forall₂_same.2 halike)

/-- A step is appended to the flow that is found, or else to the preset, unless the storage refuses
it or something lies there that is no flow. -/
theorem Upholds.call_appendStep (hupholds : k.Upholds r now n d m) (hlasting : m.Lasting)
    {step : Value} (hdocument : step.IsDocument) {base : Flow}
    (hthere : d.base clock tenant name = .ok base) :
    (∃ d', d.call clock (.appendStep tenant name step) =
        (.ok (.flow (withStep clock step base)), d') ∧
      d.Appends d' clock tenant name step base) ∨
    d.Fails clock (.appendStep tenant name step)
      (k.Refuses (d.flow? clock tenant name) tenant (withStep clock step base) ∨
        d.IsBlocked clock tenant name) := by
  have halike := alike_of_base hupholds.serves hlasting hthere
  have hfinds : d.flow? clock tenant name = m.flow? clock (flowKey tenant name) :=
    Deployment.flow?_eq hupholds.serves hlasting.tidy
  unfold Deployment.base at hthere
  split at hthere
  · rename_i hfound
    cases hthere
    rw [hfound]
    rcases hupholds.call_appendStep_of_found hlasting (hfinds.symm.trans hfound) hdocument with
      ⟨d', hcalled, hputs, hkey⟩ | ⟨f, d', hcalled, hstill, hrefuses⟩
    · exact .inl ⟨d', hcalled, appends_of_puts hputs hkey halike⟩
    · exact .inr ⟨f, d', hcalled, hstill, .inl hrefuses⟩
  · rename_i hmissing
    cases held : m.flows.has (flowKey tenant name) with
    | true =>
      obtain ⟨f, d', hcalled, hstill, hblocked⟩ :=
        hupholds.call_appendStep_of_held hlasting.tidy held
        (hfinds.symm.trans hmissing) hthere step
      exact .inr ⟨f, d', hcalled, hstill, .inr hblocked⟩
    | false =>
      rw [hmissing]
      rcases hupholds.call_appendStep_of_absent hlasting held hthere hdocument with
        ⟨d', hcalled, hputs, hkey⟩ | ⟨f, d', hcalled, hstill, hrefuses⟩
      · exact .inl ⟨d', hcalled, appends_of_puts hputs hkey halike⟩
      · exact .inr ⟨f, d', hcalled, hstill, .inl hrefuses⟩

theorem Upholds.records (hupholds : k.Upholds r now n d m) (hsound : m.Sound)
    (hlasting : m.Lasting) :
    d.Records k := by
  have hfinds (clock : String) (tenant name : Value) :
      d.flow? clock tenant name = m.flow? clock (flowKey tenant name) :=
    Deployment.flow?_eq hupholds.serves hsound.tidy
  refine ⟨?saves, ?creates, ?appends, ?baseless, ?ensures, ?unnamed⟩
  case saves =>
    intro clock op tenant flow hvalid hrevalidates hsaves
    rw [hfinds]
    refine ⟨?_, hupholds.call_of_saves hsound hvalid hrevalidates hsaves⟩
    rintro old hthere
    rw [hthere]
    exact ⟨rfl, rfl⟩
  case creates =>
    intro clock tenant name preset hunmade
    exact hupholds.call_createFlow hsound.tidy hunmade
  case appends =>
    intro clock tenant name step base hdocument hthere
    refine (hupholds.call_appendStep hlasting hdocument hthere).imp_right ?_
    rintro ⟨f, d', hcalled, hstill, hrefuses⟩
    exact ⟨f, d', hcalled, hstill, hrefuses.resolve_right (hupholds.not_isBlocked hsound)⟩
  case baseless =>
    intro clock tenant name step mismatch hthere
    unfold Deployment.base at hthere
    split at hthere
    · cases hthere
    · rename_i hmissing
      exact hupholds.call_appendStep_of_error hsound.tidy ((hfinds _ _ _).symm.trans hmissing)
        hthere
        step
  case ensures =>
    intro clock tenant name preset hmade
    rw [hfinds]
    cases held : m.flows.has (flowKey tenant name) with
    | true =>
      exact ⟨fun hmissing => absurd ((flow?_eq_none_iff hsound).1 hmissing) (by simp [held]),
        fun _ => hupholds.call_ensurePreset_of_held hsound.tidy held hmade⟩
    | false =>
      exact ⟨fun _ => hupholds.call_ensurePreset_of_absent hsound.tidy held hmade,
        fun hfound => absurd ((flow?_eq_none_iff hsound).2 held) hfound⟩
  case unnamed =>
    intro clock tenant name mismatch hunmade
    exact hupholds.call_ensurePreset_of_error hsound.tidy hunmade

/-! ## Versions rise -/

/-- Under a name, a flow is found whose version is above that of the one that was found. -/
def Advances (d d' : Deployment) (tenant name : Value) : Prop :=
  ∀ clock, ∃ found, d'.flow? clock tenant name = some found ∧
    ∀ clock' old, d.flow? clock' tenant name = some old → old.version < found.version

/-- A call advances under the key that it wrote under, and nowhere else. -/
def AdvancesWhereWritten (d : Deployment) (clock : String) (op : Operation) : Prop :=
  ∀ tenant name,
    (op.wroteUnder? (d.call clock op).1 = some (flowKey tenant name) →
      Advances d (d.call clock op).2 tenant name) ∧
    (op.wroteUnder? (d.call clock op).1 ≠ some (flowKey tenant name) →
      ∀ clock', (d.call clock op).2.flow? clock' tenant name = d.flow? clock' tenant name)

/-- A call that puts a flow above the one that was found advances there. -/
theorem Upholds.advances_of_writes (hupholds : k.Upholds r now n d m) (htidy : m.Tidy)
    {answer : Operation.Answer} (hwrites : d.Writes clock op answer tenant flow)
    (htold : op.wroteUnder? (.ok answer) = some (flowKey tenant (.str flow.name)))
    (habove : ∀ old, d.flow? clock tenant (.str flow.name) = some old →
      old.version < flow.version) : AdvancesWhereWritten d clock op := by
  obtain ⟨d', hcalled, hputs⟩ := hwrites
  intro tenant' name'
  rw [hcalled, htold]
  refine ⟨fun hsame now => ?_, fun hdifferent clock' =>
    hputs.others clock' _ _ fun hsame => hdifferent (congrArg some hsame.symm)⟩
  obtain ⟨found, hthere, hkept⟩ := hputs.found now
  have hkey := Option.some.inj hsame
  refine ⟨found, (Deployment.flow?_congr hkey).symm.trans hthere, fun clock' old hbefore => ?_⟩
  rw [hkept.version]
  refine habove old ?_
  -- what is kept is read alike at any time
  rw [Deployment.flow?_congr hkey, ← hbefore, Deployment.flow?_eq hupholds.serves htidy,
    Deployment.flow?_eq hupholds.serves htidy]
  exact Memory.flow?_now htidy _ _ _

/-- A call that fails, or changes nothing, advances nowhere. -/
theorem advances_of_undisturbed (htold : op.wroteUnder? (d.call clock op).1 = none)
    (hstill : d.Undisturbed (d.call clock op).2) : AdvancesWhereWritten d clock op := by
  intro tenant name
  rw [htold]
  exact ⟨nofun, fun _ clock' => hstill clock' tenant name⟩

theorem advances_of_fails {reason : Prop} (hfails : d.Fails clock op reason) :
    AdvancesWhereWritten d clock op := by
  obtain ⟨f, d', hcalled, hstill, -⟩ := hfails
  refine advances_of_undisturbed ?_ (by rwa [hcalled])
  rw [hcalled]
  cases op <;> rfl

/-- A step makes a version above that of the flow that was found. -/
theorem lt_version_withStep {base old : Flow} {step : Value}
    (hfound : d.base clock tenant name = .ok base)
    (hkey : flowKey tenant (.str base.name) = flowKey tenant name)
    (hthere : d.flow? clock tenant (.str (withStep clock step base).name) = some old) :
    old.version < (withStep clock step base).version := by
  have hthere : d.flow? clock tenant name = some old :=
    (Deployment.flow?_congr hkey).symm.trans hthere
  rw [Deployment.base, hthere] at hfound
  cases hfound
  exact Int.lt_succ _

/-- A call that writes flows advances under the key that it wrote under, and nowhere else. -/
theorem Upholds.advances (hupholds : k.Upholds r now n d m) (hsound : m.Sound)
    (hlasting : m.Lasting) (clock : String) (hwrites : op.WritesFlows) (hvalid : op.Valid)
    (hrevalidates : op.Revalidates) : AdvancesWhereWritten d clock op := by
  have hrecords := hupholds.records hsound hlasting
  have htidy := hsound.tidy
  have hof_saves {tenant : Value} {flow : Flow} (hsaves : op.Saves clock tenant flow)
      (htold : ∀ written, op.wroteUnder? (.ok (.flow written)) =
        some (flowKey tenant (.str written.name))) : AdvancesWhereWritten d clock op := by
    obtain ⟨habove, hwrote | hfails⟩ := hrecords.saves hvalid hrevalidates hsaves
    · refine hupholds.advances_of_writes htidy hwrote (htold _) fun old hthere => ?_
      rw [name_revised] at hthere
      rw [(habove old hthere).1]
      omega
    · exact advances_of_fails hfails
  cases op with
  | saveFlow tenant flow => exact hof_saves ⟨rfl, rfl⟩ fun _ => rfl
  | createFlow tenant name preset =>
    by_cases hmade : ∃ flow, (Operation.createFlow tenant name preset).Saves clock tenant flow
    · obtain ⟨flow, hsaves⟩ := hmade
      exact hof_saves hsaves fun _ => rfl
    · exact advances_of_fails (hrecords.creates fun flow hsaves => hmade ⟨flow, hsaves⟩)
  | appendStep tenant name step =>
    cases hfound : d.base clock tenant name with
    | error mismatch => exact advances_of_fails (hrecords.baseless hfound)
    | ok base =>
      rcases hrecords.appends hvalid hfound with ⟨d', hcalled, happends⟩ | hfails
      · exact hupholds.advances_of_writes htidy ⟨d', hcalled, happends.puts⟩ rfl fun old hthere =>
          lt_version_withStep hfound happends.key hthere
      · exact advances_of_fails hfails
  | ensurePreset tenant name =>
    cases hmade : Flow.ofPresetNamed clock .leadQualification name with
    | error mismatch => exact advances_of_fails (hrecords.unnamed hmade)
    | ok preset =>
      obtain ⟨hcreates, hstays⟩ : (d.flow? clock tenant name = none → _) ∧
        (d.flow? clock tenant name ≠ none → _) := hrecords.ensures hmade
      by_cases hmissing : d.flow? clock tenant name = none
      · have hkey : flowKey tenant (.str preset.name) = flowKey tenant name :=
          flowKey_ofPresetNamed hmade
        rcases hcreates hmissing with hwrote | hfails
        · refine hupholds.advances_of_writes htidy hwrote (congrArg some hkey.symm)
            fun old hthere => ?_
          rw [Deployment.flow?_congr hkey, hmissing] at hthere
          cases hthere
        · exact advances_of_fails hfails
      · obtain ⟨hanswered, hstill⟩ := hstays hmissing
        exact advances_of_undisturbed (by rw [hanswered]; rfl) hstill
  | _ => exact hwrites.elim

/-- The versions that are written under a key rise, and they are above the one that was found. -/
theorem Upholds.versions {history : List Act} (hupholds : k.Upholds r now n d m)
    (hsound : m.Sound) (hlasting : m.Lasting) (hwriting : IsWriting history) (tenant name : Value) :
    (d.versions r tenant name history).Pairwise (· < ·) ∧
      ∀ v ∈ d.versions r tenant name history, ∀ clock old,
        d.flow? clock tenant name = some old → old.version < v := by
  induction history generalizing now n d m with
  | nil => exact ⟨.nil, by simp [Deployment.versions]⟩
  | cons act rest ih =>
    obtain ⟨⟨clock, op, rfl, hwrites, hvalid, hrevalidates⟩, hothers⟩ :=
      List.forall_mem_cons.1 hwriting
    obtain ⟨m', hupholds', hsound', hlasting'⟩ := hupholds.call (fun _ hinv => hinv.1.tidy)
      Operation.safe_sound_lasting ⟨hsound, hlasting⟩ ⟨hvalid, hrevalidates⟩
    obtain ⟨hrises, habove⟩ := ih hupholds' hsound' hlasting' hothers
    obtain ⟨hadvances, hstays⟩ :=
      hupholds.advances hsound hlasting clock hwrites hvalid hrevalidates tenant name
    rw [Deployment.versions]
    by_cases hown : op.wroteUnder? (d.call clock op).1 = some (flowKey tenant name)
    · obtain ⟨found, hthere, higher⟩ := hadvances hown clock
      simp only [if_pos hown, hthere, Option.map_some, Option.toList_some, List.singleton_append]
      have hnext := fun v hlisted => habove v hlisted clock found hthere
      refine ⟨List.pairwise_cons.2 ⟨hnext, hrises⟩, List.forall_mem_cons.2 ⟨higher, ?_⟩⟩
      exact fun v hlisted clock' old hbefore => (higher clock' old hbefore).trans (hnext v hlisted)
    · simp only [if_neg hown]
      refine ⟨hrises, fun v hlisted clock' old hbefore => habove v hlisted clock' old ?_⟩
      rw [hstays hown, hbefore]

theorem isHistory_of_isWriting {history : List Act} (hwriting : IsWriting history) :
    IsHistory history := by
  intro clock op hlisted
  obtain ⟨_, _, hsame, -, hproper⟩ := hwriting _ hlisted
  cases hsame
  exact hproper

/-- On a deployment that began with nothing stored, calls that write flows do as they are meant to,
and the versions that they write under a key rise. -/
theorem Fresh.records_and_versions {history : List Act} (hfresh : k.Fresh r d)
    (hwriting : IsWriting history) :
    (d.after r history).Records k ∧
      ∀ tenant name, (d.versions r tenant name history).Pairwise (· < ·) := by
  obtain ⟨now, n, m, hupholds, hsound, hlasting⟩ := hfresh.upholds (fun _ hinv => hinv.1.tidy)
    Operation.safe_sound_lasting ⟨Memory.sound_empty, Memory.lasting_empty⟩
    (isHistory_of_isWriting hwriting)
  obtain ⟨n₀, hserves⟩ := hfresh.serves
  refine ⟨hupholds.records hsound hlasting, fun tenant name => ?_⟩
  exact (Upholds.versions ⟨hserves, rewrites_empty k⟩ Memory.sound_empty Memory.lasting_empty
    hwriting
    tenant name).1

end Storage

namespace Deployment

/-- A flow is saved, a step is appended to it, it is saved again, and a preset is ensured there. -/
def growing : List Act :=
  [.call "t1" (.saveFlow (.str "Acme") Inbound.cityFlow),
    .call "t2" (.appendStep (.str "acme ") (.str "INTAKE") (.dict greetingStep)),
    .call "t3" (.saveFlow (.str "Acme") Inbound.cityFlow),
    .call "t4" (.ensurePreset (.str "Acme") (.str "intake"))]

theorem isWriting_growing : IsWriting growing := by
  have hsaves : (Operation.saveFlow (.str "Acme") Inbound.cityFlow).Valid ∧
      (Operation.saveFlow (.str "Acme") Inbound.cityFlow).Revalidates :=
    ⟨valid_cityFlow _, "t1", Inbound.cityFlow, rfl⟩
  have hdocument : (Value.dict greetingStep).IsDocument :=
    Step.Draft.isDocument_build (Schema.isPlain_str "hi").1 Schema.isPlain_null.1
      (show greeting.build = .ok greetingStep from rfl)
  simp only [IsWriting, growing, List.forall_mem_cons]
  exact ⟨⟨_, _, rfl, trivial, hsaves⟩, ⟨_, _, rfl, trivial, hdocument, trivial⟩,
    ⟨_, _, rfl, trivial, hsaves⟩, ⟨_, _, rfl, trivial, trivial, trivial⟩, List.forall_mem_nil _⟩

/-- In memory, the versions of the flow rise. -/
theorem records_and_versions_growing :
    ((started {}).after {} growing).Records .memory ∧
      ∀ tenant name, ((started {}).versions {} tenant name growing).Pairwise (· < ·) :=
  Storage.Fresh.records_and_versions fresh_started isWriting_growing

/-- Three of the four calls write, each the next version. -/
example : (started {}).versions {} (.str "acme") (.str "intake") growing = [1, 2, 3] := by
  decide +kernel

end Deployment

end Dialogue

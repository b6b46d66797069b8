import Dialogue.Proofs.Deployment.History
import Dialogue.Proofs.Deployment.Isolation

/-!
# Demands that write flows

What a demand that writes a flow does to the contents that a deployment keeps, where all flows can
be read: it fails and changes nothing, or it writes what it answers.

* A flow that is saved is written over the one that is there (`Storage.Serves.meet_saveFlow`).
* A preset is written where no flow is (`Storage.Serves.meet_ensurePreset`).
* A step is written with the flow that is there, or with the preset
  (`Storage.Serves.meet_appendStep`).  If the preset can be created then the step can be written
  after it, so a demand that fails leaves no preset behind.
-/

namespace Dialogue

open Store

/-- The arguments of a demand are what they can be, and a flow that is saved can be read again. -/
def Demand.Proper : Demand → Prop
  | operate op => op.Valid ∧ op.Revalidates
  | check _ _ => True

namespace Storage

variable {k : Storage} {r : Backend.Request} {now clock : String} {n : Nat} {d : Deployment}
  {m : Memory} {α : Type} {tenant name : Value} {flow : Flow}

/-- A flow whose version fits is created only where it can be written. -/
theorem Serves.takes_of_createFlow (hserves : k.Serves r now n d m)
    (hfits : Table.fits flow.version = true) {created : Bool} {d' : Deployment}
    (hdone : Deployment.accessStore n (.createFlow tenant flow) d = (.ok created, d')) :
    k.Takes (.createFlow tenant flow) := by
  cases k with
  | memory => trivial
  | table location => exact hfits
  | files dir =>
    obtain ⟨base, t, hshows, hran⟩ := hserves.exists_directory_access hdone
    exact Directory.accepts_of_createFlow hshows _ _ hran

/-- What is known once an access was answered. -/
def Teaches (k : Storage) : Access → Prop
  | .createFlow tenant flow =>
    Table.fits flow.version = true → k.Takes (.createFlow tenant flow)
  | _ => True

/-- A program fails at its next access, which was not granted then, or it goes on with what the
contents answer, except that a flow may lie elsewhere. -/
theorem Serves.run_access (hserves : k.Serves r now n d m) (htidy : m.Tidy) (a : Access)
    (hproper : a.Proper) (hdiscerns : m.Discerns a) {next : a.Answer → Program α} :
    (∃ f d', (Program.access a next).run (Deployment.accessStore n) Deployment.log d =
        (.error f, d') ∧ ¬ m.Grants now k.Takes a ∧ k.Serves r now n d' m) ∨
      ∃ answer d', (Program.access a next).run (Deployment.accessStore n) Deployment.log d =
          (next answer).run (Deployment.accessStore n) Deployment.log d' ∧
        a.Same answer (m.answer now a) ∧ k.Serves r now n d' (m.after a) ∧ k.Teaches a := by
  have hmirrors := mirrors k r now n
  rw [Deployment.access_one] at hmirrors
  refine (hmirrors.run_access hserves htidy a hproper hdiscerns).imp_right ?_
  rintro ⟨answer, d', hanswered, hran, hsame, hserves'⟩
  refine ⟨answer, d', hran, hsame, hserves', ?_⟩
  cases a with
  | createFlow tenant flow => exact fun hfits => hserves.takes_of_createFlow hfits hanswered
  | _ => trivial

/-! ## Demands -/

theorem Serves.meet_eq (hserves : k.Serves r now n d m) (clock : String) (demand : Demand) :
    d.meet clock demand =
      (demand.program clock).run (Deployment.accessStore n) Deployment.log { d with clock } :=
  Deployment.meet_eq hserves.engine clock demand

/-- A flow without a name is not saved; another one is written over the one that is there, or the
demand fails. -/
theorem Serves.meet_saveFlow (hserves : k.Serves r now n d m) (hsound : m.Sound) (clock : String)
    (tenant : Value) (hwellFormed : flow.WellFormed) :
    (∃ f d', d.meet clock (.operate (.saveFlow tenant flow)) = (.error f, d') ∧
        k.Serves r clock n d' m) ∨
      ∃ location d', flow.name ≠ "" ∧
        d.meet clock (.operate (.saveFlow tenant flow)) =
          (.ok (.located (.flow (revised clock flow
            (m.flow? clock (flowKey tenant (.str flow.name))))) location), d') ∧
        k.Serves r clock n d' (m.withFlow tenant
          (revised clock flow (m.flow? clock (flowKey tenant (.str flow.name))))) := by
  have hready := hserves.setClock clock
  rw [hserves.meet_eq, Demand.program]
  cases hnamed : flow.name.isEmpty with
  | true =>
    rw [saveFlow_eq_fail hnamed]
    exact .inl ⟨_, _, rfl, hready⟩
  | false =>
    rw [saveFlow_eq hnamed]
    let saved := revised clock flow (m.flow? clock (flowKey tenant (.str flow.name)))
    have htold : m.Discerns (.writeFlow tenant saved) := by
      show Discerned (m.flows.get? (flowKey tenant (.str saved.name))) _
      rw [name_revised]
      exact discerned_revised hsound.tidy (hsound.reads clock _)
    rcases hready.run_access hsound.tidy (.loadFlow tenant (.str flow.name)) trivial trivial with
      ⟨f, d₁, hfailed, -, hkept⟩ | ⟨_, d₁, hloaded, rfl, hserves₁, -⟩
    · exact .inl ⟨f, d₁, hfailed, hkept⟩
    · rcases hserves₁.run_access hsound.tidy (.writeFlow tenant saved)
          (wellFormed_revised hwellFormed _) htold with
        ⟨f, d₂, hfailed, -, hkept⟩ | ⟨_, d₂, hwrote, -, hserves₂, -⟩
      · exact .inl ⟨f, d₂, hloaded.trans hfailed, hkept⟩
      · refine .inr ⟨_, _, ?_, hloaded.trans hwrote, hserves₂.log _⟩
        simpa [String.isEmpty_iff] using hnamed

theorem takes_locateFlow (k : Storage) (tenant name : Value) :
    k.Takes (.locateFlow tenant name) := by
  cases k <;> trivial

/-- Where a flow lies is told in any case. -/
theorem Serves.run_locateFlow (hserves : k.Serves r now n d m) (htidy : m.Tidy)
    (next : String → Program α) :
    ∃ location d', (Program.access (.locateFlow tenant name) next).run (Deployment.accessStore n)
        Deployment.log d = (next location).run (Deployment.accessStore n) Deployment.log d' ∧
      k.Serves r now n d' m := by
  have hmirrors := mirrors k r now n
  rw [Deployment.access_one] at hmirrors
  exact hmirrors.run_locateFlow hserves htidy (takes_locateFlow k tenant name) next

/-- A preset is made where no flow is, and whether it was is answered; or the demand fails. -/
theorem Serves.meet_ensurePreset (hserves : k.Serves r now n d m) (hsound : m.Sound)
    (clock : String) (tenant name : Value) :
    (∃ f d', d.meet clock (.operate (.ensurePreset tenant name)) = (.error f, d') ∧
        k.Serves r clock n d' m) ∨
      ∃ preset location d', Flow.ofPresetNamed clock .leadQualification name = .ok preset ∧
        d.meet clock (.operate (.ensurePreset tenant name)) =
          (.ok (.located (.created (!m.flows.has (flowKey tenant (.str preset.name)))) location),
            d') ∧
        k.Serves r clock n d' (m.after (.createFlow tenant preset)) := by
  have hready := hserves.setClock clock
  rw [hserves.meet_eq, Demand.program]
  cases hmade : Flow.ofPresetNamed clock .leadQualification name with
  | error mismatch =>
    unfold Store.ensurePreset
    rw [hmade]
    exact .inl ⟨_, _, rfl, hready⟩
  | ok preset =>
    have hwellFormed := wellFormed_ofPresetNamed hmade
    have htidy' : (m.after (.createFlow tenant preset)).Tidy :=
      Memory.tidy_after hsound.tidy hwellFormed
    rw [ensurePreset_eq hmade]
    rcases hready.run_access hsound.tidy (.createFlow tenant preset) hwellFormed trivial with
      ⟨f, d₁, hfailed, -, hkept⟩ | ⟨created, d₁, hran, hsame, hserves₁, -⟩
    · exact .inl ⟨f, d₁, hfailed, hkept⟩
    · obtain rfl : created = !m.flows.has (flowKey tenant (.str preset.name)) := hsame
      cases has : m.flows.has (flowKey tenant (.str preset.name)) with
      | true =>
        rw [has] at hran
        obtain ⟨location, d₂, htold, hserves₂⟩ := hserves₁.run_locateFlow htidy' _
        refine .inr ⟨preset, location, d₂, rfl, ?_, hserves₂⟩
        rw [has]
        exact hran.trans htold
      | false =>
        rw [has] at hran
        obtain ⟨location, d₂, htold, hserves₂⟩ := (hserves₁.log _).run_locateFlow htidy' _
        refine .inr ⟨preset, location, d₂, rfl, ?_, hserves₂⟩
        rw [has]
        exact hran.trans htold

theorem get?_of_flow?_eq_none {key : Key} (hsound : m.Sound) (hmissing : m.flow? now key = none) :
    m.flows.get? key = none := by
  cases hthere : m.flows.get? key with
  | none => rfl
  | some doc =>
    obtain ⟨flow, hread⟩ := hsound.readable _ (Keyed.mem_of_get?_eq_some hthere) now
    rw [Memory.flow?, Memory.document?_flows hsound.tidy, hthere, Option.bind_some,
      hread] at hmissing
    cases hmissing

/-- What lies under a key after a flow was written. -/
theorem get?_withFlow (m : Memory) (tenant : Value) (flow : Flow) (key : Key) :
    (m.withFlow tenant flow).flows.get? key =
      if flowKey tenant (.str flow.name) = key then some (.dict flow.document)
      else m.flows.get? key := by
  split
  · rename_i hsame
    subst hsame
    exact Keyed.get?_set_self _ _ _
  · rename_i hdifferent
    exact Keyed.get?_set_of_ne _ _ (Ne.symm hdifferent)

theorem flow?_withFlow (hsound : (m.withFlow tenant flow).Sound) (now : String) :
    ∃ again, Flow.ofValue now (.dict flow.document) = .ok again ∧
      (m.withFlow tenant flow).flow? now (flowKey tenant (.str flow.name)) = some again := by
  have hthere : (m.withFlow tenant flow).flows.get? (flowKey tenant (.str flow.name)) =
      some (.dict flow.document) := by rw [get?_withFlow, if_pos rfl]
  obtain ⟨again, hread⟩ := hsound.readable _ (Keyed.mem_of_get?_eq_some hthere) now
  refine ⟨again, hread, ?_⟩
  rw [Memory.flow?, Memory.document?_flows hsound.tidy, hthere, Option.bind_some, hread]
  rfl

/-- A preset that is created where no flow is can be read, and a step can be written after it. -/
theorem exists_base_of_preset {preset : Flow} (hsound : m.Sound)
    (hmade : Flow.ofPresetNamed clock .leadQualification name = .ok preset)
    (habsent : m.flows.get? (flowKey tenant name) = none) :
    m.after (.createFlow tenant preset) = m.withFlow tenant preset ∧
      (m.withFlow tenant preset).Sound ∧
      flowKey tenant name ∈ Keyed.keys (m.withFlow tenant preset).flows ∧
      ∃ base, Flow.ofValue clock (.dict preset.document) = .ok base ∧
        (m.withFlow tenant preset).flow? clock (flowKey tenant name) = some base ∧
        ∀ step, k.Teaches (.createFlow tenant preset) →
          k.Takes (.writeFlow tenant (withStep clock step base)) := by
  have hsameKey : flowKey tenant (.str preset.name) = flowKey tenant name :=
    flowKey_ofPresetNamed hmade
  have hfree : m.flows.has (flowKey tenant (.str preset.name)) = false := by
    simp [Keyed.has, hsameKey, habsent]
  have hafter : m.after (.createFlow tenant preset) = m.withFlow tenant preset := by
    rw [Memory.after, hfree]
    rfl
  have hsound' := (Memory.closed_sound clock).creates tenant name hsound preset hmade hfree
  have hthere : flowKey tenant name ∈ Keyed.keys (m.withFlow tenant preset).flows := by
    rw [← hsameKey]
    exact Keyed.mem_keys_of_mem (Keyed.mem_of_get?_eq_some (Keyed.get?_set_self _ _ _))
  obtain ⟨base, hread, hfound⟩ := flow?_withFlow hsound' clock
  rw [hsameKey] at hfound
  refine ⟨hafter, hsound', hthere, base, hread, hfound, fun step htaught => ?_⟩
  have hversion := Flow.version_of_ofValue_document hread
  obtain ⟨text, rfl, -⟩ := exists_of_ofPresetNamed hmade
  have hnamed := Flow.name_of_ofValue_document (Flow.name_make_ne_empty _ _ _) hread
  have hfits : Table.fits (base.version + 1) = true := by
    rw [hversion]
    rfl
  have hcreated := htaught rfl
  cases k with
  | memory => trivial
  | table location => exact hfits
  | files dir =>
    show Directory.Accepts dir (Directory.flowNames (flowKey tenant (.str base.name)))
    rw [hnamed]
    exact hcreated

/-- A step is written with the flow that is there; where no flow is, with the preset.  A demand that
fails changes nothing. -/
theorem Serves.meet_appendStep (hserves : k.Serves r now n d m) (hsound : m.Sound) (clock : String)
    (tenant name : Value) {step : Value} (hdocument : step.IsDocument) :
    (∃ f d', d.meet clock (.operate (.appendStep tenant name step)) = (.error f, d') ∧
        k.Serves r clock n d' m) ∨
      ∃ base m' d', d.meet clock (.operate (.appendStep tenant name step)) =
          (.ok (.plain (.flow (withStep clock step base))), d') ∧
        k.Serves r clock n d' (m'.withFlow tenant (withStep clock step base)) ∧ m'.Sound ∧
        m'.flow? clock (flowKey tenant name) = some base ∧
        (m' = m ∨ m.flows.get? (flowKey tenant name) = none ∧
          ∃ preset, Flow.ofPresetNamed clock .leadQualification name = .ok preset ∧
            Flow.ofValue clock (.dict preset.document) = .ok base ∧
            m' = m.withFlow tenant preset) := by
  have hready := hserves.setClock clock
  have hprogram : (Demand.operate (.appendStep tenant name step)).program clock =
      ((Store.appendStep clock tenant name step).bind fun flow =>
        .done (Operation.Answer.flow flow)).bind fun answer => .done (.plain answer) := rfl
  rw [hserves.meet_eq, hprogram, appendStep_eq, loadOrCreate_eq]
  rcases hready.run_access hsound.tidy (.loadFlow tenant name) trivial trivial with
    ⟨f, d₁, hfailed, -, hkept⟩ | ⟨found, d₁, hloaded, hsame, hserves₁, -⟩
  · exact .inl ⟨f, d₁, hfailed, hkept⟩
  · obtain rfl : found = m.flow? clock (flowKey tenant name) := hsame
    cases hthere : m.flow? clock (flowKey tenant name) with
    | some base =>
      rw [hthere] at hloaded
      rcases hserves₁.run_access hsound.tidy (.writeFlow tenant (withStep clock step base))
          (wellFormed_withStep hdocument (wellFormed_of_flow? hsound.tidy hthere))
          (discerned_withStep hsound.tidy hthere (hsound.named hthere).2) with
        ⟨f, d₂, hfailed, -, hkept⟩ | ⟨_, d₂, hwrote, -, hserves₂, -⟩
      · exact .inl ⟨f, d₂, hloaded.trans hfailed, hkept⟩
      · exact .inr ⟨base, m, _, hloaded.trans hwrote, hserves₂.log _, hsound, hthere, .inl rfl⟩
    | none =>
      rw [hthere] at hloaded
      have habsent := get?_of_flow?_eq_none hsound hthere
      cases hmade : Flow.ofPresetNamed clock .leadQualification name with
      | error mismatch =>
        rw [hmade] at hloaded
        exact .inl ⟨_, _, hloaded, hserves₁⟩
      | ok preset =>
        rw [hmade] at hloaded
        obtain ⟨hafter, hsound', hlisted, base, hread, hfound, htaught⟩ :=
          exists_base_of_preset (k := k) hsound hmade habsent
        rcases hserves₁.run_access hsound.tidy (.createFlow tenant preset)
            (wellFormed_ofPresetNamed hmade) trivial with
          ⟨f, d₂, hfailed, -, hkept⟩ | ⟨created, d₂, hran, -, hserves₂, hteaches⟩
        · exact .inl ⟨f, d₂, hloaded.trans hfailed, hkept⟩
        · -- the preset is there now, so from here on nothing fails
          replace hserves₂ : k.Serves r clock n d₂ (m.withFlow tenant preset) := hafter ▸ hserves₂
          rcases hserves₂.run_access hsound'.tidy (.loadFlow tenant name) trivial trivial with
            ⟨_, _, -, hrefused, -⟩ | ⟨again, d₃, hreloaded, hsame', hserves₃, -⟩
          · exact absurd ⟨hsound'.reads clock _, .inl hlisted⟩ hrefused
          · obtain rfl : again = (m.withFlow tenant preset).flow? clock (flowKey tenant name) :=
              hsame'
            rw [hfound] at hreloaded
            rcases hserves₃.run_access hsound'.tidy (.writeFlow tenant (withStep clock step base))
                (wellFormed_withStep hdocument (wellFormed_of_flow? hsound'.tidy hfound))
                (discerned_withStep hsound'.tidy hfound (hsound'.named hfound).2) with
              ⟨_, _, -, hrefused, -⟩ | ⟨_, d₄, hwrote, -, hserves₄, -⟩
            · exact absurd (htaught step hteaches) hrefused
            · exact .inr ⟨base, m.withFlow tenant preset, _,
                hloaded.trans (hran.trans (hreloaded.trans hwrote)), hserves₄.log _, hsound',
                  hfound,
                .inr ⟨habsent, preset, rfl, hread, rfl⟩⟩

end Storage

end Dialogue

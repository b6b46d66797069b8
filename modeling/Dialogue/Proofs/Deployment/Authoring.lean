import Dialogue.Proofs.Deployment.Versions
import Dialogue.Proofs.Step.Draft

/-!
# What an author is told is what is stored

A step that is drafted from texts and numbers is put at the end of its flow as it was told
(`Storage.Fresh.addsAsTold`): it is found there as a step of the kind that was asked for, and what
is stored for it is what was told.  The steps before it are found where they were and as they were;
where no flow was found they are those of the preset.

A step that cannot be drafted changes nothing, and so does one that cannot be added, because the
storage has no room for the flow or because what lies in its place is none
(`Deployment.IsBlocked`).
-/

namespace Dialogue

open Store

namespace Deployment

variable {d d' t : Deployment} {clock : String} {tenant name : Value} {flow : Flow}

theorem undisturbed_log (e : Event) (d : Deployment) : d.Undisturbed (d.log e) := by
  intro clock tenant name
  refine Option.ext fun flow => ?_
  rw [flow?_eq_some_iff, flow?_eq_some_iff, load_iff, load_iff]
  exact Iff.rfl

theorem Undisturbed.trans {d₁ : Deployment} (hfirst : d.Undisturbed d₁)
    (hsecond : d₁.Undisturbed d') : d.Undisturbed d' := fun clock tenant name =>
  (hsecond clock tenant name).trans (hfirst clock tenant name)

theorem exists_tellAll (e : Engine) (events : List Event) (d : Deployment) :
    ∃ d', run e (Program.tellAll events) d = (.ok (), d') ∧ d.Undisturbed d' := by
  induction events generalizing d with
  | nil => exact ⟨d, rfl, fun _ _ _ => rfl⟩
  | cons event rest ih =>
    obtain ⟨d', htold, hstill⟩ := ih (d.log event)
    exact ⟨d', htold, (undisturbed_log event d).trans hstill⟩

theorem Puts.of_undisturbed (hputs : d.Puts t tenant flow) (hstill : t.Undisturbed d') :
    d.Puts d' tenant flow where
  found clock := by
    rw [hstill]
    exact hputs.found clock
  others clock tenant' name' hother := (hstill ..).trans (hputs.others clock tenant' name' hother)

theorem Appends.of_undisturbed {step : Value} (happends : d.Appends t clock tenant name step flow)
    (hstill : t.Undisturbed d') : d.Appends d' clock tenant name step flow where
  puts := happends.puts.of_undisturbed hstill
  key := happends.key
  finds clock' := by
    rw [hstill]
    exact happends.finds clock'

/-! ## Drafted steps -/

section

variable {draft : Step.Draft} {step : Fields}

/-- A step that is drafted is appended, and the problems of its flow are told. -/
theorem program_addStep_of_built (hbuilt : draft.build = .ok step) (clock : String)
    (tenant name : Value) :
    (Operation.addStep tenant name draft).program clock =
      (Store.appendStep clock tenant name (.dict step)).bind fun flow =>
        (Program.tellAll (flow.problems.map fun p => .flowProblem tenant name p.message)).bind
          fun _ => .done (.step step flow) := by
  simp only [Operation.program, Authoring.addStep, hbuilt]
  show Program.bind (Program.bind (Store.appendStep _ _ _ _) _) _ = _
  rw [Program.bind_assoc]
  congr 1
  funext flow
  show Program.bind (Program.bind (Program.tellAll _) _) _ = _
  rw [Program.bind_assoc]
  rfl

/-- A drafted step is added as its document is appended. -/
theorem exists_call_addStep (hbuilt : draft.build = .ok step)
    (happended : d.call clock (.appendStep tenant name (.dict step)) = (.ok (.flow flow), t)) :
    ∃ d', d.call clock (.addStep tenant name draft) = (.ok (.step step flow), d') ∧
      t.Undisturbed d' := by
  rw [call, run, Operation.program, Program.run_bind] at happended
  obtain ⟨grown, t', hran, hrest⟩ := Run.exists_of_bind happended
  cases hrest
  obtain ⟨d', htold, hstill⟩ := exists_tellAll d.engine
    (flow.problems.map fun p => .flowProblem tenant name p.message) t
  refine ⟨d', ?_, hstill⟩
  rw [call, run, program_addStep_of_built hbuilt, Program.run_bind]
  refine (Run.bind_ok hran).trans ?_
  rw [Program.run_bind]
  exact Run.bind_ok htold

theorem call_addStep_of_error (hbuilt : draft.build = .ok step) {f : Failure}
    (hfailed : d.call clock (.appendStep tenant name (.dict step)) = (.error f, t)) :
    d.call clock (.addStep tenant name draft) = (.error f, t) := by
  rw [call, run, Operation.program, Program.run_bind_apply] at hfailed
  rw [call, run, program_addStep_of_built hbuilt, Program.run_bind_apply]
  rcases hran : (Store.appendStep clock tenant name (.dict step)).run (access d.engine) log
    { d with clock } with ⟨f' | grown, t'⟩ <;> rw [hran] at hfailed
  · cases hfailed
    rfl
  · cases hfailed

theorem call_addStep_of_unbuilt {fault : Step.Draft.Fault} (hunbuilt : draft.build = .error fault)
    (d : Deployment) (clock : String) (tenant name : Value) :
    d.call clock (.addStep tenant name draft) = (.error (.draft fault), { d with clock }) := by
  rw [call, run, Operation.program, Authoring.addStep, hunbuilt]
  rfl

end

end Deployment

/-! ## After a history -/

namespace Deployment

/-- What an author is told of a step that is drafted from texts and numbers. -/
structure AddsAsTold (k : Storage) (d : Deployment) (clock : String) (tenant : Value)
    (name : String) (a : Step.Arguments) : Prop where
  /-- It is a step of the kind that was asked for, and what is stored for it is what was told. -/
  reads : ∀ step, a.draft.build = .ok step →
    ∃ s written, Entry.ofValue (.dict step) = .step s ∧ s.kind.tag = a.kind ∧
      s.storedDocument = .dict written ∧ written.Perm step
  /-- It is added at the end of the flow that is found, or of the preset where none is, and the
  steps before it are found where they were and as they were; or nothing changes, because the
  storage refuses the flow or what lies there is none. -/
  adds : ∀ step s, a.draft.build = .ok step → Entry.ofValue (.dict step) = .step s →
    ∃ base, d.base clock tenant (.str name) = .ok base ∧
      let grown := withStep clock (.dict step) base
      ((∃ d', d.call clock (.addStep tenant (.str name) a.draft) = (.ok (.step step grown), d') ∧
          d.Puts d' tenant grown ∧
          ∀ clock', ∃ found earlier, d'.flow? clock' tenant (.str name) = some found ∧
            found.steps = earlier ++ [.step s] ∧ found.steps[found.size - 1]? = some (.step s) ∧
            List.Forall₂ Entry.Alike base.steps earlier) ∨
        d.Fails clock (.addStep tenant (.str name) a.draft)
          (k.Refuses (d.flow? clock tenant (.str name)) tenant grown ∨
            d.IsBlocked clock tenant (.str name)))
  /-- A step that cannot be drafted changes nothing. -/
  refuses : ∀ fault, a.draft.build = .error fault →
    d.call clock (.addStep tenant (.str name) a.draft) = (.error (.draft fault), { d with clock })

/-- A step that is drafted is found as the last one. -/
theorem Appends.last {d d' : Deployment} {clock : String} {tenant name : Value} {flow : Flow}
    {step : Fields} {s : Step} (happends : d.Appends d' clock tenant name (.dict step) flow)
    (a : Step.Arguments) (hbuilt : a.draft.build = .ok step)
    (hread : Entry.ofValue (.dict step) = .step s) (clock' : String) :
    ∃ found earlier, d'.flow? clock' tenant name = some found ∧
      found.steps = earlier ++ [.step s] ∧ found.steps[found.size - 1]? = some (.step s) ∧
      List.Forall₂ Entry.Alike flow.steps earlier := by
  obtain ⟨found, earlier, hthere, -, -, hsteps, halike⟩ := happends.finds clock'
  have hagain : (Entry.ofValue (.dict step)).again = .step s :=
    (Step.Draft.again_build a.isPlain_text a.isPlain_reason hbuilt).trans hread
  rw [hagain] at hsteps
  refine ⟨found, earlier, hthere, hsteps, ?_, halike⟩
  simp [Flow.size, hsteps]

theorem exists_base (d : Deployment) (clock : String) (tenant : Value) (name : String) :
    ∃ base, d.base clock tenant (.str name) = .ok base := by
  unfold base
  cases d.flow? clock tenant (.str name) with
  | none => exact ⟨_, rfl⟩
  | some flow => exact ⟨flow, rfl⟩

/-- The preset has nine steps. -/
example (clock name : String) : (Flow.ofPreset clock .leadQualification name).size = 9 := rfl

end Deployment

/-- A history of operations whose arguments are what they can be. -/
def Storage.IsAsked (history : List Act) : Prop :=
  ∀ clock op, .call clock op ∈ history → op.Valid

/-- On any deployment that began with nothing stored, what an author is told is what is stored. -/
theorem Storage.Fresh.addsAsTold {k : Storage} {r : Backend.Request} {d : Deployment}
    {history : List Act} (hfresh : k.Fresh r d) (hasked : IsAsked history) (clock : String)
    (tenant : Value) (name : String) (a : Step.Arguments) :
    (d.after r history).AddsAsTold k clock tenant name a where
  reads step hbuilt := by
    obtain ⟨s, hread, htag, written, hstored, hsame⟩ := a.reads_build hbuilt
    exact ⟨s, written, hread, htag, hstored, hsame⟩
  adds step s hbuilt hread := by
    obtain ⟨now, n, m, hupholds, hlasting⟩ := hfresh.upholds (fun _ hlasting => hlasting.tidy)
      Operation.safe_lasting Memory.lasting_empty hasked
    have hdocument : (Value.dict step).IsDocument :=
      Step.Draft.isDocument_build a.isPlain_text.1 a.isPlain_reason.1 hbuilt
    obtain ⟨base, hgrows⟩ := (d.after r history).exists_base clock tenant name
    refine ⟨base, hgrows, ?_⟩
    rcases hupholds.call_appendStep hlasting hdocument hgrows with
      ⟨t, hcalled, happends⟩ | ⟨f, t, hfailed, hstill, hrefuses⟩
    · obtain ⟨d', hadded, hunmoved⟩ := Deployment.exists_call_addStep hbuilt hcalled
      have happends := happends.of_undisturbed hunmoved
      exact .inl ⟨d', hadded, happends.puts, happends.last a hbuilt hread⟩
    · exact .inr ⟨f, t, Deployment.call_addStep_of_error hbuilt hfailed, hstill, hrefuses⟩
  refuses fault hunbuilt := Deployment.call_addStep_of_unbuilt hunbuilt _ clock tenant (.str name)

namespace Deployment

/-- A question, as an author gives it. -/
def whereTo : Step.Arguments := { kind := "question", field := some " city ", thenTarget := some 3 }

/-- In memory, what an author is told of the question is what is stored. -/
theorem addsAsTold_whereTo : ((started {}).after {}
    [.call "t1" (.saveFlow (.str "Acme") Inbound.cityFlow)]).AddsAsTold .memory "t2" (.str "acme")
      "Intake" whereTo := by
  refine Storage.Fresh.addsAsTold fresh_started ?_ "t2" (.str "acme") "Intake" whereTo
  intro clock op hlisted
  cases List.mem_singleton.1 hlisted
  exact valid_cityFlow _

end Deployment

end Dialogue

import Dialogue.Guarded
import Dialogue.Proofs.Related
import Dialogue.Proofs.Store.Operations

/-!
# Guarded programs without their locks

A program that holds locks is, without them, the operation that it is the guarded form of.  So a
call that runs alone, or whose turn is over before another one starts, does what the operation does.

`Guarded.TakesTurn` is the shape of the operations on flows: such a program fails at once, or it
takes one lock, works on flows inside of it, and does nothing to a store after it.

What a program does may depend on what it was answered: a conversation can be written if the one
that was read could.  A program *behaves* if all its accesses are allowed as long as the answers to
those before are as they may be (`Program.Behaves`), and so does a program that holds locks over
single accesses, those that need them (`Guarded.Behaves`).
-/

namespace Dialogue

open Store

namespace Program

variable {α β γ : Type}

theorem bind_assoc (p : Program α) (k : α → Program β) (k' : β → Program γ) :
    (p.bind k).bind k' = p.bind fun a => (k a).bind k' := by
  induction p with
  | done a => rfl
  | fail f => rfl
  | log e next ih => exact congrArg (Program.log e) ih
  | access a next ih => exact congrArg (Program.access a) (funext ih)

/-- Locks around changes of conversations leave the program as it is. -/
theorem unlocked_guarded (p : Program α) : p.guarded.unlocked = p := by
  induction p with
  | done a => rfl
  | fail f => rfl
  | log e next ih => exact congrArg (Program.log e) ih
  | access a next ih =>
    have hrest : (fun r => (next r).guarded.unlocked) = next := funext ih
    rw [guarded]
    split
    · exact congrArg (Program.access a) hrest
    · exact congrArg (Program.access a) hrest

end Program

namespace Guarded

variable {α β ε : Type}

theorem unlocked_bind (g : Guarded α) (k : α → Guarded β) :
    (g.bind k).unlocked = g.unlocked.bind fun a => (k a).unlocked := by
  induction g with
  | done a => rfl
  | fail f => rfl
  | log e next ih => exact congrArg (Program.log e) ih
  | access a next ih => exact congrArg (Program.access a) (funext ih)
  | hold l inside next ih =>
    rw [bind, unlocked, unlocked, Program.bind_assoc]
    exact congrArg inside.bind (funext ih)

theorem unlocked_ofExcept (toFailure : ε → Failure) (r : Except ε α) :
    (ofExcept toFailure r).unlocked = Program.ofExcept toFailure r := by
  cases r <;> rfl

theorem unlocked_ofProgram (p : Program α) : (ofProgram p).unlocked = p := by
  induction p with
  | done a => rfl
  | fail f => rfl
  | log e next ih => exact congrArg (Program.log e) ih
  | access a next ih => exact congrArg (Program.access a) (funext ih)

variable (now : String) (tenant name : Value)

theorem unlocked_saveFlow (flow : Flow) :
    (saveFlow now tenant flow).unlocked = Store.saveFlow now tenant flow := by
  cases hnamed : flow.name.isEmpty with
  | true =>
    rw [saveFlow_eq_fail hnamed, saveFlow, hnamed]
    rfl
  | false =>
    rw [saveFlow_eq hnamed, saveFlow, hnamed]
    show Program.access _ _ = _
    congr 1
    funext existing
    cases existing <;> rfl

theorem unlocked_ensurePreset :
    (ensurePreset now tenant name).unlocked = Store.ensurePreset now tenant name := by
  cases hmade : Flow.ofPresetNamed now .leadQualification name with
  | error mismatch =>
    simp only [ensurePreset, unlocked, createPreset, Store.ensurePreset, hmade]
    rfl
  | ok preset =>
    rw [ensurePreset_eq hmade]
    simp only [ensurePreset, unlocked, createPreset, hmade]
    show Program.access _ _ = _
    congr 1
    funext created
    cases created <;> rfl

theorem unlocked_appendStep (step : Value) :
    (appendStep now tenant name step).unlocked = Store.appendStep now tenant name step := by
  rw [appendStep_eq, appendStep, unlocked, extendFlow]
  exact Program.bind_assoc _ _ _

theorem unlocked_createFlow (preset : Value) :
    (createFlow now tenant name preset).unlocked =
      Authoring.createFlow now tenant name preset := by
  simp only [createFlow, unlocked_bind, unlocked_ofExcept, unlocked_saveFlow]
  rfl

theorem unlocked_addStep (draft : Step.Draft) :
    (addStep now tenant name draft).unlocked = Authoring.addStep now tenant name draft := by
  simp only [addStep, unlocked_bind, unlocked_ofExcept, unlocked_appendStep, unlocked_ofProgram]
  rfl

/-! ## Programs that take one turn -/

/-- After its turn, a program tells where a flow lies, and logs. -/
inductive IsIdle : Guarded α → Prop where
  | done (a : α) : IsIdle (.done a)
  | fail (f : Failure) : IsIdle (.fail f)
  | log (e : Event) {next : Guarded α} (rest : next.IsIdle) : IsIdle (.log e next)
  | locate (tenant name : Value) {next : String → Guarded α} (rest : ∀ r, (next r).IsIdle) :
      IsIdle (.access (.locateFlow tenant name) next)

/-- A program fails at once, or it takes a lock, works on flows inside of it, and is idle after it.
-/
inductive TakesTurn (l : Lock) : Guarded α → Prop where
  | fail (f : Failure) : TakesTurn l (.fail f)
  | hold {β : Type} {inside : Program β} {next : β → Guarded α}
      (flows : inside.Makes fun a => a.isAboutFlows = true) (rest : ∀ b, (next b).IsIdle) :
      TakesTurn l (.hold l inside next)

theorem IsIdle.bind {g : Guarded α} {k : α → Guarded β} (hidle : g.IsIdle)
    (hgoesOn : ∀ a, (k a).IsIdle) : (g.bind k).IsIdle := by
  induction hidle with
  | done a => exact hgoesOn a
  | fail f => exact .fail f
  | log e hrest ih => exact .log e ih
  | locate tenant name hrest ih => exact .locate tenant name ih

theorem IsIdle.makes_unlocked {g : Guarded α} (hidle : g.IsIdle) :
    g.unlocked.Makes fun a => a.isAboutFlows = true := by
  induction hidle with
  | done a => exact .done a
  | fail f => exact .fail f
  | log e hrest ih => exact .log e ih
  | locate tenant name hrest ih => exact .access rfl ih

theorem TakesTurn.makes_unlocked {l : Lock} {g : Guarded α} (htakes : g.TakesTurn l) :
    g.unlocked.Makes fun a => a.isAboutFlows = true := by
  cases htakes with
  | fail f => exact .fail f
  | hold hflows hrest => exact hflows.bind fun b => (hrest b).makes_unlocked

theorem TakesTurn.bind {l : Lock} {g : Guarded α} {k : α → Guarded β} (htakes : g.TakesTurn l)
    (hgoesOn : ∀ a, (k a).IsIdle) : (g.bind k).TakesTurn l := by
  cases htakes with
  | fail f => exact .fail f
  | hold hflows hrest => exact .hold hflows fun b => (hrest b).bind hgoesOn

theorem takesTurn_saveFlow (flow : Flow) :
    (saveFlow now tenant flow).TakesTurn (.ofFlows tenant) := by
  rw [saveFlow]
  split
  · exact .fail _
  · exact .hold (.access rfl fun _ => .access rfl fun _ => .done _) fun _ => .log _ (.done _)

theorem takesTurn_ensurePreset :
    (ensurePreset now tenant name).TakesTurn (.ofFlows tenant) := by
  refine .hold (.bind (Program.makes_ofExcept _ _) fun _ => .access rfl fun _ => .done _)
    fun b => ?_
  have hlocated (created : Bool) : IsIdle (α := Bool × String)
      (.access (.locateFlow tenant name) fun location => .done (created, location)) :=
    .locate _ _ fun _ => .done _
  cases b with
  | true => exact .log _ (hlocated true)
  | false => exact hlocated false

theorem takesTurn_appendStep (step : Value) :
    (appendStep now tenant name step).TakesTurn (.ofFlows tenant) := by
  have hfound : (loadOrCreate now tenant name).Makes fun a => a.isAboutFlows = true := by
    rw [loadOrCreate_eq]
    refine .access rfl fun found => ?_
    cases found with
    | some flow => exact .done flow
    | none =>
      cases Flow.ofPresetNamed now .leadQualification name with
      | error mismatch => exact .fail _
      | ok preset =>
        refine .access rfl fun _ => .access rfl fun found => ?_
        cases found with
        | some flow => exact .done flow
        | none => exact .fail _
  exact .hold (hfound.bind fun _ => .access rfl fun _ => .done _) fun _ => .log _ (.done _)

end Guarded

/-! ## Programs that behave -/

variable {α β σ : Type} {Allowed : Access → Prop} {Answers : (a : Access) → a.Answer → Prop}

namespace Program

/-- All accesses of a program are allowed, as long as it is answered as it may be. -/
inductive Behaves (Allowed : Access → Prop) (Answers : (a : Access) → a.Answer → Prop) :
    Program α → Prop where
  | done (a : α) : Behaves Allowed Answers (.done a)
  | fail (f : Failure) : Behaves Allowed Answers (.fail f)
  | log (e : Event) {next : Program α} (rest : Behaves Allowed Answers next) :
      Behaves Allowed Answers (.log e next)
  | access {a : Access} {next : a.Answer → Program α} (allowed : Allowed a)
      (rest : ∀ r, Answers a r → Behaves Allowed Answers (next r)) :
      Behaves Allowed Answers (.access a next)

theorem Behaves.bind {p : Program α} {k : α → Program β} (hbehaves : p.Behaves Allowed Answers)
    (hgoesOn : ∀ a, (k a).Behaves Allowed Answers) : (p.bind k).Behaves Allowed Answers := by
  induction hbehaves with
  | done a => exact hgoesOn a
  | fail f => exact .fail f
  | log e hrest ih => exact .log e ih
  | access hallowed hrest ih => exact .access hallowed ih

variable {R : σ → σ → Prop} {access : (a : Access) → Run σ a.Answer} {log : Event → σ → σ}
  (hanswers : ∀ {a s t r}, Allowed a → R s t → (access a s).1 = .ok r → Answers a r)

include hanswers

/-- A program that behaves agrees on related states if its accesses do. -/
theorem agrees_of_behaves (hlogs : ∀ e s t, R s t → R (log e s) (log e t))
    (hagrees : ∀ a, Allowed a → Run.Agrees R (access a)) {p : Program α}
    (hbehaves : p.Behaves Allowed Answers) : Run.Agrees R (p.run access log) := by
  induction hbehaves with
  | done a => exact Run.agrees_pure a
  | fail f => exact Run.agrees_fail f
  | log e hrest ih => exact fun s t hrelated => ih _ _ (hlogs e s t hrelated)
  | @access a next hallowed hrest ih =>
    intro s t hrelated
    obtain ⟨hsame, hafter⟩ := hagrees a hallowed s t hrelated
    have hwell : ∀ r, (access a s).1 = .ok r → Answers a r := fun r => hanswers hallowed hrelated
    simp only [run, Run.bind]
    rcases hran : access a s with ⟨r, s'⟩
    rcases hran' : access a t with ⟨r', t'⟩
    rw [hran, hran'] at hsame hafter
    rw [hran] at hwell
    obtain rfl : r = r' := hsame
    cases r with
    | error f => exact ⟨rfl, hafter⟩
    | ok r => exact ih r (hwell r rfl) s' t' hafter

/-- A program that behaves spares what its accesses spare. -/
theorem spares_of_behaves (hlogs : ∀ e s t, R s t → R (log e s) t)
    (hspares : ∀ a, Allowed a → Run.Spares R (access a)) {p : Program α}
    (hbehaves : p.Behaves Allowed Answers) : Run.Spares R (p.run access log) := by
  induction hbehaves with
  | done a => exact fun s t hrelated => hrelated
  | fail f => exact fun s t hrelated => hrelated
  | log e hrest ih => exact fun s t hrelated => ih _ _ (hlogs e s t hrelated)
  | @access a next hallowed hrest ih =>
    intro s t hrelated
    have hafter := hspares a hallowed s t hrelated
    have hwell : ∀ r, (access a s).1 = .ok r → Answers a r := fun r => hanswers hallowed hrelated
    simp only [run, Run.bind]
    rcases hran : access a s with ⟨f | r, s'⟩
    · rwa [hran] at hafter
    · rw [hran] at hafter hwell
      exact ih r (hwell r rfl) s' t hafter

end Program

namespace Guarded

/-- All accesses of a program are allowed, as long as it is answered as it may be, and it holds a
lock over each of those that need one, and over nothing else. -/
inductive Behaves (Allowed : Access → Prop) (Answers : (a : Access) → a.Answer → Prop) :
    Guarded α → Prop where
  | done (a : α) : Behaves Allowed Answers (.done a)
  | fail (f : Failure) : Behaves Allowed Answers (.fail f)
  | log (e : Event) {next : Guarded α} (rest : Behaves Allowed Answers next) :
      Behaves Allowed Answers (.log e next)
  | access {a : Access} {next : a.Answer → Guarded α} (free : a.lock? = none) (allowed : Allowed a)
      (rest : ∀ r, Answers a r → Behaves Allowed Answers (next r)) :
      Behaves Allowed Answers (.access a next)
  | hold {a : Access} {l : Lock} {next : a.Answer → Guarded α} (locked : a.lock? = some l)
      (allowed : Allowed a) (rest : ∀ r, Answers a r → Behaves Allowed Answers (next r)) :
      Behaves Allowed Answers (.hold l (Program.perform a) next)

theorem Behaves.bind {g : Guarded α} {k : α → Guarded β} (hbehaves : g.Behaves Allowed Answers)
    (hgoesOn : ∀ a, (k a).Behaves Allowed Answers) : (g.bind k).Behaves Allowed Answers := by
  induction hbehaves with
  | done a => exact hgoesOn a
  | fail f => exact .fail f
  | log e hrest ih => exact .log e ih
  | access hfree hallowed hrest ih => exact .access hfree hallowed ih
  | hold hlocked hallowed hrest ih => exact .hold hlocked hallowed ih

end Guarded

theorem Program.Behaves.guarded {p : Program α} (hbehaves : p.Behaves Allowed Answers) :
    p.guarded.Behaves Allowed Answers := by
  induction hbehaves with
  | done a => exact .done a
  | fail f => exact .fail f
  | log e hrest ih => exact .log e ih
  | @access a next hallowed hrest ih =>
    rw [Program.guarded]
    split
    · rename_i hfree
      exact .access hfree hallowed ih
    · rename_i l hlocked
      exact .hold hlocked hallowed ih

end Dialogue

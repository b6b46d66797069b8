import Dialogue.Command.Run
import Dialogue.Proofs.Surface.Running
import Dialogue.Proofs.Text.Half

/-!
# Commands over files with any content

A command line gives texts where texts are expected and integers where integers are
(`isTyped_of_parse`); a value may also be an empty list, which counts as absent.

A command prints what it comes to and ends with exit code 0 or 1 (`exists_run`).  What cannot be
printed is refused, and the refusal can be printed unless it repeats a name that the command line
gives and that holds half a surrogate pair (`Action.RepeatsHalf`).
-/

namespace Dialogue.Command

open Store

/-! ## What a command line gives -/

/-- The values that an option may have. -/
def Expects.Allows : Expects → Value → Prop
  | .nothing, v => v = .bool true
  | .text, v => v = .list [] ∨ ∃ s, v = .str s
  | .integer, v => v = .list [] ∨ ∃ n, v = .int n
  | .oneOf words, v => v = .list [] ∨ ∃ s ∈ words, v = .str s

/-- What was given is given to options that there are, and they may have these values. -/
def Given.IsTyped (options : List OptionSpec) (g : Given) : Prop :=
  ∀ e ∈ g.options, ∃ o ∈ options, o.name = e.1 ∧ o.expects.Allows e.2

/-- An option that a word names is one of those that there are. -/
def Word.IsAmong (options : List OptionSpec) : Word → Prop
  | .option o _ => o ∈ options
  | _ => True

variable {options : List OptionSpec} {o : OptionSpec} {e : Expects} {s : String} {v : Value}
  {g g' : Given} {w : Word}

theorem Expects.allows_of_read? (hread : e.read? s = some v) : e.Allows v := by
  cases e with
  | nothing => cases hread
  | text =>
    cases hread
    exact .inr ⟨s, rfl⟩
  | integer =>
    obtain ⟨n, -, rfl⟩ := Option.map_eq_some_iff.1 hread
    exact .inr ⟨n, rfl⟩
  | oneOf words =>
    simp only [Expects.read?] at hread
    split at hread <;> cases hread
    rename_i hlisted
    exact .inr ⟨s, by simpa using hlisted, rfl⟩

theorem Expects.allows_of_readAttached? (hexpects : e ≠ .nothing)
    (hread : e.readAttached? s = some v) : e.Allows v := by
  unfold Expects.readAttached? at hread
  split at hread
  · cases hread
    cases e with
    | nothing => exact absurd rfl hexpects
    | text => exact .inl rfl
    | integer => exact .inl rfl
    | oneOf words => exact .inl rfl
  · exact Expects.allows_of_read? hread

theorem Given.IsTyped.withFlag (htyped : g.IsTyped options) (hamong : o ∈ options)
    (hexpects : o.expects = .nothing) : (g.withFlag o).IsTyped options :=
  List.forall_mem_cons.2 ⟨⟨o, hamong, rfl, hexpects ▸ rfl⟩, htyped⟩

/-- An option that is noted is one that there is, with a value that it may have. -/
theorem Given.IsTyped.withOption {read : Option Value} (htyped : g.IsTyped options)
    (hamong : o ∈ options) (hallows : ∀ v, read = some v → o.expects.Allows v)
    (hnoted : g.withOption o read = .ok g') : g'.IsTyped options := by
  cases read with
  | none => cases hnoted
  | some v =>
    cases hnoted
    exact List.forall_mem_cons.2 ⟨⟨o, hamong, rfl, hallows v rfl⟩, htyped⟩

theorem isAmong_classifyLong (hclassified : classifyLong options s = some w) :
    w.IsAmong options := by
  unfold classifyLong at hclassified
  split at hclassified
  simp only at hclassified
  split at hclassified
  · cases hclassified
    trivial
  · split at hclassified
    · rename_i hfound
      cases hclassified
      exact List.mem_of_find?_eq_some hfound
    · split at hclassified <;> cases hclassified
      · trivial
      · rename_i o honly _
        have hamong : o ∈ options.filter fun o => _ := honly ▸ List.mem_singleton_self o
        exact (List.mem_filter.1 hamong).1
      · trivial

theorem isAmong_classify (options : List OptionSpec) (s : String) :
    (classify options s).IsAmong options := by
  unfold classify
  simp only
  split
  case h_2 =>
    cases hclassified : classifyLong options s with
    | some w => exact isAmong_classifyLong hclassified
    | none =>
      simp only
      split <;> trivial
  case h_7 => split <;> trivial
  all_goals trivial

theorem isAmong_classifyAll (words : List String) :
    ∀ w ∈ classifyAll options words, w.IsAmong options := by
  induction words with
  | nil => simp [classifyAll]
  | cons s rest ih =>
    rw [classifyAll]
    split
    · refine List.forall_mem_cons.2 ⟨trivial, fun w hlisted => ?_⟩
      obtain ⟨_, -, rfl⟩ := List.mem_map.1 hlisted
      trivial
    · exact List.forall_mem_cons.2 ⟨isAmong_classify options s, ih⟩

theorem isTyped_readWords {places : Nat} {words : List Word}
    (hamong : ∀ w ∈ words, w.IsAmong options) (htyped : g.IsTyped options)
    (hread : readWords places words g = .ok g') : g'.IsTyped options := by
  fun_induction readWords places words g with
  | case1 => exact Except.ok.inj hread ▸ htyped
  | case2 _ _ _ _ ih | case3 _ _ _ _ ih | case5 _ _ _ ih =>
    exact ih (List.forall_mem_cons.1 hamong).2 htyped hread
  | case4 _ g ih =>
    refine ih (List.forall_mem_cons.1 hamong).2 ?_ hread
    split <;> exact htyped
  | case6 | case7 | case8 | case12 => cases hread
  | case9 o rest g hexpects ih =>
    obtain ⟨hfirst, hothers⟩ := List.forall_mem_cons.1 hamong
    exact ih hothers (htyped.withFlag hfirst hexpects) hread
  | case10 o rest g v hexpects ih =>
    obtain ⟨hfirst, hothers⟩ := List.forall_mem_cons.1 hamong
    obtain ⟨noted, hdone, hread⟩ := exists_ok_of_bind hread
    exact ih noted hothers
      (htyped.withOption hfirst (fun _ => Expects.allows_of_readAttached? hexpects) hdone) hread
  | case11 o g v rest hexpects ih =>
    obtain ⟨hfirst, hothers⟩ := List.forall_mem_cons.1 hamong
    obtain ⟨noted, hdone, hread⟩ := exists_ok_of_bind hread
    exact ih noted (List.forall_mem_cons.1 hothers).2
      (htyped.withOption hfirst (fun _ => Expects.allows_of_read?) hdone) hread

theorem isTyped_readCommand {places : Nat} {words : List String}
    (hread : readCommand options places words = .ok g) : g.IsTyped options := by
  unfold readCommand at hread
  simp only at hread
  split at hread
  · cases hread
  · obtain ⟨given, hreads, hread⟩ := exists_ok_of_bind hread
    split at hread <;> cases hread
    exact isTyped_readWords (isAmong_classifyAll words) (by simp [Given.IsTyped]) hreads

/-! ## What a command asks for -/

/-- A value that a command line gives for a text. -/
def IsText (v : Value) : Prop := v = .list [] ∨ ∃ s, v = .str s

/-- The values that a command line gives in the places where a command could stumble over others. -/
def Action.IsTyped : Action → Prop
  | .create _ preset _ => IsText preset
  | .addStep flow kind text field condition thenTarget elseTarget reason =>
    IsText flow ∧
      Step.Draft.IsTyped { kind, text, field, condition, thenTarget, elseTarget, reason }
  | .trial flow sender text => IsText flow ∧ IsText sender ∧ IsText text
  | .reset sender => IsText sender
  | _ => True

variable {name : String} {action : Action} {misplaced : Bool} {words : List String}

theorem IsText.isArgument (htext : IsText v) : v.IsArgument := by
  rcases htext with rfl | htext
  · exact .inl rfl
  · exact .inr htext

theorem IsText.isWhole_literal (htext : IsText v) : Text.IsWhole v.literal := by
  rcases htext with rfl | ⟨s, rfl⟩
  · decide
  · exact Text.isWhole_quoted s

theorem Given.IsTyped.allows (htyped : g.IsTyped options)
    (honly : ∀ o ∈ options, o.name = name → o.expects = e) (hgiven : g.value? name = some v) :
    e.Allows v := by
  obtain ⟨before, after, hsame, -⟩ := List.lookup_eq_some_iff.1 hgiven
  obtain ⟨o, hamong, hsame, hallows⟩ := htyped (name, v) (hsame ▸ List.mem_append_cons_self)
  exact honly o hamong hsame ▸ hallows

theorem Given.IsTyped.isArgument_value (htyped : g.IsTyped options)
    (honly : ∀ o ∈ options, o.name = name → o.expects = .text) : (g.value name).IsArgument := by
  rw [Given.value]
  cases hgiven : g.value? name with
  | none => exact .inl rfl
  | some v => exact IsText.isArgument (htyped.allows honly hgiven)

theorem Given.IsTyped.isTarget_value (htyped : g.IsTyped options)
    (honly : ∀ o ∈ options, o.name = name → o.expects = .integer) : (g.value name).IsTarget := by
  rw [Given.value]
  cases hgiven : g.value? name with
  | none => exact .inl rfl
  | some v => exact .inr (htyped.allows honly hgiven)

theorem value?_of_need (hneeded : g.need name = .ok v) : g.value? name = some v := by
  unfold Given.need at hneeded
  split at hneeded <;> cases hneeded
  assumption

theorem Given.IsTyped.isText_need (htyped : g.IsTyped options)
    (honly : ∀ o ∈ options, o.name = name → o.expects = .text) (hneeded : g.need name = .ok v) :
    IsText v :=
  htyped.allows honly (value?_of_need hneeded)

/-- Whatever is read of a command line has texts where texts belong, and targets where targets
do. -/
theorem isTyped_readAction {command : String}
    (hread : readAction command words = .ok (action, misplaced)) : action.IsTyped := by
  unfold readAction at hread
  split at hread
  · obtain ⟨g, hreads, hread⟩ := exists_ok_of_bind hread
    cases hread
    trivial
  · obtain ⟨g, hreads, hread⟩ := exists_ok_of_bind hread
    cases hread
    have htyped := isTyped_readCommand hreads
    cases hgiven : g.value? "--preset" with
    | none => exact .inr ⟨_, rfl⟩
    | some v => exact htyped.allows (e := .text) (by simp [textOption]) hgiven
  · obtain ⟨g, hreads, hread⟩ := exists_ok_of_bind hread
    obtain ⟨flow, hnamed, hread⟩ := exists_ok_of_bind hread
    obtain ⟨kind, hchosen, hread⟩ := exists_ok_of_bind hread
    cases hread
    have htyped := isTyped_readCommand hreads
    exact ⟨htyped.isText_need (by simp [stepOptions, textOption]) hnamed,
      htyped.isArgument_value (by simp [stepOptions, textOption]),
      htyped.isArgument_value (by simp [stepOptions, textOption]),
      htyped.isTarget_value (by simp [stepOptions, textOption]),
      htyped.isTarget_value (by simp [stepOptions, textOption])⟩
  · obtain ⟨g, hreads, hread⟩ := exists_ok_of_bind hread
    obtain ⟨flow, hnamed, hread⟩ := exists_ok_of_bind hread
    cases hread
    trivial
  · obtain ⟨g, hreads, hread⟩ := exists_ok_of_bind hread
    obtain ⟨flow, hnamed, hread⟩ := exists_ok_of_bind hread
    cases hread
    trivial
  · obtain ⟨g, hreads, hread⟩ := exists_ok_of_bind hread
    obtain ⟨flow, hnamed, hread⟩ := exists_ok_of_bind hread
    obtain ⟨sender, hsent, hread⟩ := exists_ok_of_bind hread
    obtain ⟨text, htold, hread⟩ := exists_ok_of_bind hread
    cases hread
    have htyped := isTyped_readCommand hreads
    exact ⟨htyped.isText_need (by simp [textOption]) hnamed,
      htyped.isText_need (by simp [textOption]) hsent,
        htyped.isText_need (by simp [textOption]) htold⟩
  · obtain ⟨g, hreads, hread⟩ := exists_ok_of_bind hread
    obtain ⟨sender, hsent, hread⟩ := exists_ok_of_bind hread
    cases hread
    exact (isTyped_readCommand hreads).isText_need (by simp [textOption]) hsent
  · cases hread

theorem isTyped_readGeneral (hread : readGeneral words g = .ok (g', action, misplaced)) :
    action.IsTyped := by
  fun_induction readGeneral words g with
  | case1 | case3 | case5 | case6 | case7 | case10 | case12 => cases hread
  | case2 g s rest command =>
    obtain ⟨⟨action, misplaced⟩, hreads, hread⟩ := exists_ok_of_bind hread
    cases hread
    exact isTyped_readAction hreads
  | case4 | case8 => exact ‹_ → _› hread
  | case9 _ _ _ _ _ _ _ ih | case11 _ _ _ _ _ _ _ _ _ ih =>
    obtain ⟨g, -, hread⟩ := exists_ok_of_bind hread
    exact ih g hread

theorem isTyped_of_parse {inv : Invocation} (hparsed : Invocation.parse words = .ok inv) :
    inv.action.IsTyped := by
  obtain ⟨⟨g, action, misplaced⟩, hread, hparsed⟩ := exists_ok_of_bind hparsed
  simp only at hparsed
  split at hparsed <;> cases hparsed
  exact isTyped_readGeneral hread

/-! ## What a command comes to -/

/-- The flow that a command names. -/
def Action.flow? : Action → Option Value
  | .create name _ _ => some (.str name)
  | .addStep flow .. => some flow
  | .show flow => some flow
  | .check flow => some flow
  | .trial flow _ _ => some flow
  | .list => none
  | .reset _ => none

/-- The step that a command adds, with the flow that it adds the step to. -/
def Action.step? : Action → Option (Value × Step.Draft)
  | .addStep flow kind text field condition thenTarget elseTarget reason =>
    some (flow, { kind, text, field, condition, thenTarget, elseTarget, reason })
  | _ => none

/-- A command adds a step that is blocked. -/
def Action.IsBlocked (d : Deployment) (tenant : Value) (action : Action) : Prop :=
  ∃ step ∈ action.step?, d.Blocks tenant step.1 step.2

/-- What a refusal of the command repeats as it was given: a preset, a flow or a kind of steps that
there is not. -/
def Action.repeated : Action → Value
  | .create _ preset blank => if blank then .null else preset
  | .addStep _ kind .. => kind
  | .show flow | .check flow => flow
  | _ => .null

/-- A refusal of the command may repeat half a surrogate pair. -/
def Action.RepeatsHalf (action : Action) : Prop := ¬ Text.IsWhole action.repeated.display

/-- The caller can mend the failure, and its wording can be printed unless it repeats a value that
cannot. -/
structure IsTellable (repeated : Value) (f : Failure) : Prop where
  mendable : f.kind ≠ .other
  whole : Text.IsWhole repeated.display → Text.IsWhole f.message

variable {d : Deployment} {engine : Engine} {tenant : Value} {hops : Int} {clock : String}
  {repeated : Value}

theorem isTellable_noDigits (htext : IsText v) : IsTellable repeated (.noDigits v) where
  mendable := by simp [Failure.kind]
  whole _ := Text.isWhole_append.2 ⟨by decide, htext.isWhole_literal⟩

/-- A flow that is no text is an empty list, and the report repeats that. -/
theorem isTellable_invalid {mismatch : Schema.Mismatch} (htext : IsText v)
    (hmisfit : Inbound.Misfit v mismatch) : IsTellable repeated (.invalid mismatch) where
  mendable := by simp [Failure.kind]
  whole _ := by
    show Text.IsWhole mismatch.report
    rcases htext with rfl | ⟨s, rfl⟩
    · cases hmisfit <;> decide +kernel
    · cases hmisfit with
      | outcome hflow | start hflow => exact absurd rfl (hflow s)

theorem isTellable_flowNotFound : IsTellable v (.flowNotFound v) where
  mendable := by simp [Failure.kind]
  whole hwhole := Text.isWhole_append.2 ⟨by decide, hwhole⟩

theorem isTellable_draft {fault : Step.Draft.Fault}
    (hamong : fault = .unknownKind v ∨ fault = .noField ∨ fault = .noText ∨
      fault = .noCondition) : IsTellable v (.draft fault) := by
  rcases hamong with rfl | rfl | rfl | rfl
  · refine ⟨by simp [Failure.kind, Failure.draftKind], fun hwhole => ?_⟩
    refine Text.isWhole_append.2 ⟨?_, by decide⟩
    refine Text.isWhole_append.2 ⟨?_, by decide⟩
    exact Text.isWhole_append.2 ⟨Text.isWhole_append.2 ⟨by decide, hwhole⟩, by decide⟩
  all_goals exact ⟨by simp [Failure.kind, Failure.draftKind], fun _ => by decide⟩

/-- The exit code of an answer is 0 or 1. -/
def Answer.IsOrderly (a : Answer) : Prop := a.code ≤ 1

/-- All commands but the one that adds a step mend, and their exit codes are 0 or 1. -/
theorem mends_program (hshort : tenant.IsShort) (hflow : ∀ flow ∈ action.flow?, flow.IsShort)
    (htyped : action.IsTyped) (hnone : action.step? = none) :
    (program clock hops tenant action).Mends Access.IsShort (IsTellable action.repeated)
      Answer.IsOrderly := by
  cases action with
  | list => exact .access hshort fun _ => .done (Nat.zero_le _)
  | create name preset blank =>
    have hargument : (if blank then .null else preset : Value).IsArgument := by
      split
      · exact .inl rfl
      · exact htyped.isArgument
    refine (mends_createFlow hshort (hflow _ rfl) hargument ?_ ?_ ?_).bind fun _ _ =>
      .done (Nat.zero_le _)
    · exact ⟨by simp [Failure.kind], fun _ => by decide⟩
    · exact ⟨by simp [Failure.kind], fun hwhole => Text.isWhole_append.2 ⟨by decide, hwhole⟩⟩
    · exact ⟨by simp [Failure.kind], fun _ => by decide⟩
  | addStep => cases hnone
  | «show» flow =>
    exact (mends_showFlow hshort (hflow _ rfl) isTellable_flowNotFound).bind fun _ _ =>
      .done (Nat.zero_le _)
  | check flow =>
    refine (mends_checkFlow hshort (hflow _ rfl) isTellable_flowNotFound).bind fun problems _ =>
      .done ?_
    simp only [Answer.IsOrderly]
    split <;> decide
  | trial flow sender text =>
    obtain ⟨hname, hsender, htext⟩ := htyped
    refine (mends_handle hshort (m := ⟨tenant, sender, text, flow, .null⟩) rfl (hflow _ rfl)
      htext.isArgument rfl (isTellable_noDigits hsender)
      fun _ => isTellable_invalid hname).bind fun outcome _ => .done ?_
    simp only [Answer.IsOrderly]
    split <;> decide
  | reset sender =>
    exact (mends_clearConversation hshort (isTellable_noDigits htyped)).bind fun _ _ =>
      .done (Nat.zero_le _)

/-- A command comes to an answer or to what the caller can mend, unless it adds a step that is
blocked. -/
theorem exists_run_program (hops : Int)
    (hstands : Deployment.Stands engine Directory.data Directory.dataPlace d)
    (hshort : tenant.IsShort) (hflow : ∀ flow ∈ action.flow?, flow.IsShort)
    (hinner : d.HasShortNames) (htyped : action.IsTyped) :
    ∃ r d', Deployment.run engine (program d.clock hops tenant action) d = (r, d') ∧
      (action.IsBlocked d tenant ∧ (∃ f, r = .error f ∧ f.kind = .other) ∨
        ¬ action.IsBlocked d tenant ∧
          IsMended (IsTellable action.repeated) Answer.IsOrderly r) := by
  cases hstep : action.step? with
  | none =>
    obtain ⟨r, d', hran, hmended, -⟩ := hstands.run (mends_program hshort hflow htyped hstep)
    exact ⟨r, d', hran, .inr ⟨by simp [Action.IsBlocked, hstep], hmended⟩⟩
  | some step =>
    cases action with
    | addStep flow kind text field condition thenTarget elseTarget reason =>
      let answer (p : Fields × Flow) : Answer :=
        { object := success tenant [("step", .dict p.1), ("version", .int p.2.version)]
          text := "Added step to " ++ flow.display ++ ": " ++
            (Fields.getD p.1 "type").display ++ " (" ++ (Fields.getD p.1 "id").display ++
            ") at index " ++ toString ((p.2.size : Int) - 1) }
      obtain ⟨r, d', hran, hwhat⟩ := hstands.run_addStep hshort (hflow _ rfl) htyped.1.isArgument
        hinner htyped.2 (fun _ => isTellable_draft) answer (Q := Answer.IsOrderly)
        fun _ => Nat.zero_le _
      exact ⟨r, d', hran, by simpa [Action.IsBlocked, Action.step?, Action.repeated] using hwhat⟩
    | _ => cases hstep

/-! ## What is printed -/

/-- A command has printed what it came to, and its exit code is 0 or 1. -/
def Result.IsOrderly (result : Result) : Prop := result.code ≤ 1

/-- An answer is printed, unless it is a text that holds half a pair. -/
theorem print_or (json : Bool) (a : Answer) :
    (∃ output, a.print json = .ok ⟨a.code, output⟩) ∨
      json = false ∧ ¬ Text.IsWhole a.text ∧
        ∃ fault, a.print json = .error (.encoding fault) := by
  cases json with
  | true => exact .inl ⟨_, rfl⟩
  | false =>
    cases hfault : Text.encodingFault? a.text with
    | none => exact .inl ⟨a.text ++ "\n", by simp [Answer.print, hfault]⟩
    | some fault =>
      refine .inr ⟨rfl, fun hwhole => ?_, fault, by simp [Answer.print, hfault]⟩
      rw [Text.encodingFault?_eq_none_iff.2 hwhole] at hfault
      cases hfault

/-- A refusal that can be told is printed, unless it repeats half a pair. -/
theorem print_refusal {json : Bool} {f : Failure} (htellable : IsTellable repeated f) :
    (∃ result, (refusal f).print json = .ok result ∧ result.IsOrderly) ∨
      json = false ∧ ¬ Text.IsWhole repeated.display ∧
        ∃ fault, (refusal f).print json = .error (.encoding fault) := by
  rcases print_or json (refusal f) with ⟨output, hprint⟩ | ⟨hjson, hhalf, hprint⟩
  · exact .inl ⟨_, hprint, Nat.le_refl 1⟩
  · refine .inr ⟨hjson, fun hwhole => hhalf ?_, hprint⟩
    exact Text.isWhole_append.2 ⟨by decide, htellable.whole hwhole⟩

theorem conclude_of_print_error {json : Bool} {r : Except Failure Answer} {f : Failure}
    (hprint : (r.bind (·.print json)) = .error f) (hmendable : f.kind ≠ .other) :
    conclude json r = (refusal f).print json := by
  rw [conclude, hprint]
  exact if_neg hmendable

/-- What is mended is printed, if need be as a refusal; only a refusal that repeats half a pair is
not. -/
theorem conclude_of_isMended {json : Bool} {r : Except Failure Answer}
    (hmended : IsMended (IsTellable repeated) Answer.IsOrderly r) :
    (∃ result, conclude json r = .ok result ∧ result.IsOrderly) ∨
      json = false ∧ ¬ Text.IsWhole repeated.display ∧
        ∃ fault, conclude json r = .error (.encoding fault) := by
  cases r with
  | ok a =>
    rcases print_or json a with ⟨output, hprint⟩ | ⟨-, -, fault, hprint⟩
    · refine .inl ⟨⟨a.code, output⟩, ?_, hmended⟩
      rw [conclude, Except.bind, hprint]
    · -- The answer itself cannot be printed; that it cannot is told without repeating it.
      have htellable : IsTellable .null (.encoding fault) :=
        ⟨by simp [Failure.kind], fun _ => fault.isWhole_message⟩
      rw [conclude_of_print_error (r := .ok a) hprint htellable.mendable]
      rcases print_refusal htellable with hprinted | ⟨-, hhalf, -⟩
      · exact .inl hprinted
      · exact absurd (by decide) hhalf
  | error f =>
    rw [conclude_of_print_error rfl hmended.mendable]
    exact print_refusal hmended

theorem conclude_of_other {json : Bool} {f : Failure} (hother : f.kind = .other) :
    conclude json (.error f) = .error f := by
  show (if f.kind = .other then _ else _) = _
  exact if_pos hother

/-! ## From the command line to the exit code -/

/-- The tenant of a command line without settings of its own. -/
def Invocation.tenantOf (inv : Invocation) : Value :=
  inv.tenant.orElse Settings.shipped.activeTenant

/-- A command line names what is short enough for files. -/
structure Invocation.HasShortNames (inv : Invocation) : Prop where
  tenant : inv.tenantOf.IsShort
  flow : ∀ flow ∈ inv.action.flow?, flow.IsShort

variable {inv : Invocation}

theorem carryOut_of_run {settings : Settings} {r : Except Failure Answer} {d' : Deployment}
    (hran : Deployment.run d.engine (program d.clock settings.flows.maxConditionHops
      (inv.tenant.orElse settings.activeTenant) inv.action) d = (r, d')) :
    carryOut settings inv d = (conclude inv.json r, d') := by
  unfold carryOut
  simp only [hran]

/-- Without settings of its own a command line uses those that are shipped. -/
theorem prepare_of_unconfigured (env : Settings.Environment) {d' : Deployment}
    (hconfig : inv.config = .null)
    (hopened : Deployment.openEngine (fresh Settings.shipped d) = (.ok engine, d')) :
    prepare env inv d = (.ok Settings.shipped, { d' with engine }) := by
  have hnamed : settingsOf env inv d.files = .ok Settings.shipped := by
    unfold settingsOf
    rw [hconfig]
  have hstarted : Deployment.start Deployment.openEngine (fresh Settings.shipped d) =
      (.ok (), { d' with engine }) := Run.bind_ok hopened
  rw [prepare, Run.bind_ok (Run.get_apply d), hnamed]
  exact Run.bind_ok hstarted

/-- How a command line ends: without an answer if it adds a step that is blocked; otherwise with
exit code 0 or 1 after it has printed, unless a refusal repeats half a surrogate pair. -/
def Invocation.EndsIn (inv : Invocation) (d : Deployment) (r : Except Failure Result) : Prop :=
  inv.action.IsBlocked d inv.tenantOf ∧ (∃ f, r = .error f ∧ f.kind = .other) ∨
    ¬ inv.action.IsBlocked d inv.tenantOf ∧
      ((∃ result, r = .ok result ∧ result.IsOrderly) ∨
        inv.json = false ∧ inv.action.RepeatsHalf ∧ ∃ fault, r = .error (.encoding fault))

/-- A command line without settings of its own ends as said, whatever the files hold. -/
theorem exists_run (env : Settings.Environment) (hparsed : Invocation.parse words = .ok inv)
    (hconfig : inv.config = .null) (horderly : Directory.Orderly Directory.dataPlace d.files)
    (hshort : inv.HasShortNames) (hinner : d.HasShortNames) :
    ∃ r d', run env inv d = (r, d') ∧ inv.EndsIn d r := by
  have hready : (fresh Settings.shipped d).Ready := ⟨rfl, horderly, .inl ⟨rfl, rfl⟩⟩
  obtain ⟨e, d₁, hopened, hstands, hclock, -, hsame⟩ := hready.exists_openEngine
  have hblocks : inv.action.IsBlocked { d₁ with engine := e } inv.tenantOf ↔
      inv.action.IsBlocked d inv.tenantOf :=
    exists_congr fun step => and_congr_right fun _ =>
      Deployment.SameFiles.blocks_iff hsame hclock _ _ _
  obtain ⟨r, d₂, hran, hwhat⟩ := exists_run_program (d := { d₁ with engine := e })
    Settings.shipped.flows.maxConditionHops ⟨hstands.1, hstands.2, hstands.3⟩ hshort.tenant
    hshort.flow (hsame.hasShortNames hclock hinner) (isTyped_of_parse hparsed)
  refine ⟨conclude inv.json r, d₂, ?_, ?_⟩
  · exact (Run.bind_ok (prepare_of_unconfigured env hconfig hopened)).trans
      (carryOut_of_run (d := { d₁ with engine := e }) hran)
  · rcases hwhat with ⟨hblocked, f, rfl, hother⟩ | ⟨hfree, hmended⟩
    · exact .inl ⟨hblocks.1 hblocked, f, conclude_of_other hother, hother⟩
    · exact .inr ⟨fun hblocked => hfree (hblocks.2 hblocked), conclude_of_isMended hmended⟩

end Dialogue.Command

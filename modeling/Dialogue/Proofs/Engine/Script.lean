import Dialogue.Proofs.Engine.Waiting

/-!
# Flows without conditions are scripts

A flow without conditions is told from its first step on, a little in every call: its steps one by
one, where a question that follows a reply at once is told together with it, up to the first step
that ends the conversation (`Flow.script`).  Malformed steps are passed over.

What a run of calls comes to is told by how much of the script is left, which field was asked about
last, and what was collected (`Script.Telling`); after the last step the script starts again, and
where it ends without one nothing more is said (`Script.Telling.next`).

## Main definitions

* `Script.Emission`: what is told in one call.
* `Flow.script`: the emissions of a flow, in order.
* `Script.reports`: what a run of calls comes to, by the texts that come in.
* `Flow.IsToldBy`: emissions tell each step once and in order.
* `Script.Stands`: the conversation that is stored stands where the script is.

## Main statements

* `Flow.isToldBy_script`: the script of a flow tells it.
* `Script.Goes.told`: a turn comes to what the script has next.
-/

namespace Dialogue

open Turn

/-- No step of a flow is a condition. -/
def Flow.IsLinear (flow : Flow) : Prop := ∀ s, .step s ∈ flow.steps → s.kind ≠ .condition

/-- Nothing is told after a step: it hands the conversation over or ends it. -/
def Step.Action.isLast : Step.Action → Bool
  | .handoff _ _ | .finish _ => true
  | _ => false

namespace Script

/-- What is told in one call: a step alone, or a reply and the question that follows it at once. -/
inductive Emission where
  | alone (index : Nat) (action : Step.Action)
  | merged (index : Nat) (reply field question : String)

namespace Emission

/-- The numbers of the steps that are told. -/
def indices : Emission → List Nat
  | .alone index _ => [index]
  | .merged index _ _ _ => [index, index + 1]

/-- What the call does. -/
def action : Emission → TurnAction
  | .alone _ (.question _ _) => .ask
  | .alone _ (.reply _) => .reply
  | .alone _ (.handoff _ _) => .handoff
  | .alone _ (.finish _) => .finish
  | .alone _ (.condition _ _ _) => .noop
  | .merged _ _ _ _ => .ask

/-- The text that is sent, placeholders filled in from the collected data. -/
def message (data : Fields) : Emission → Option String
  | .alone _ (.question _ text) | .alone _ (.reply text) => some (Template.render text data)
  | .alone _ (.handoff _ text) | .alone _ (.finish text) =>
    (text.filter (· ≠ "")).map fun t => Template.render t data
  | .alone _ (.condition _ _ _) => none
  | .merged _ reply _ question =>
    some (Template.render reply data ++ "\n\n" ++ Template.render question data)

/-- The field that is asked about. -/
def field? : Emission → Option String
  | .alone _ (.question field _) => some field
  | .merged _ _ field _ => some field
  | _ => none

/-- Whether the script ends here. -/
def isLast : Emission → Bool
  | .alone _ action => action.isLast
  | .merged _ _ _ _ => false

/-- What is told stands in a flow.  A reply is told alone only if no question follows it at once. -/
def Fits (flow : Flow) : Emission → Prop
  | .alone index action =>
    (∃ s, flow.entry? index = some (.step s) ∧ s.action = action) ∧
      ∀ text field question, action = .reply text →
        ¬ IsQuestion flow ((index : Int) + 1) field question
  | .merged index reply field question =>
    (∃ s, flow.entry? index = some (.step s) ∧ s.action = .reply reply) ∧
      IsQuestion flow ((index : Int) + 1) field question

end Emission

/-- What is told of the entries of a flow from a step number on. -/
def emissions (index : Nat) : List Entry → List Emission
  | [] => []
  | .malformed _ _ :: rest => emissions (index + 1) rest
  | .step ⟨_, .reply text, _⟩ :: .step ⟨_, .question field question, _⟩ :: rest =>
    .merged index text field question :: emissions (index + 2) rest
  | .step s :: rest =>
    .alone index s.action :: if s.action.isLast then [] else emissions (index + 1) rest

/-- An entry has to be told: it is a step, and no step before it ends the conversation. -/
def IsTold (entries : List Entry) (index : Nat) : Prop :=
  (∃ s, entries[index]? = some (.step s)) ∧
    ∀ j < index, ∀ s, entries[j]? = some (.step s) → s.action.isLast = false

end Script

open Script

namespace Flow

/-- What is told of a flow from a step number on. -/
def scriptFrom (flow : Flow) (index : Nat) : List Emission :=
  emissions index (flow.steps.drop index)

/-- What is told of a flow. -/
def script (flow : Flow) : List Emission := flow.scriptFrom 0

/-- The steps of a flow up to the first one that ends the conversation are told once and in order.
-/
structure IsToldBy (flow : Flow) (script : List Emission) : Prop where
  ordered : (script.flatMap Emission.indices).Pairwise (· < ·)
  complete : ∀ index, index ∈ script.flatMap Emission.indices ↔ IsTold flow.steps index
  fits : ∀ e ∈ script, e.Fits flow

end Flow

namespace Script

/-! ## What a run comes to -/

/-- How far a script is told: what is left, the field that was asked about last, if it waits for an
answer, and what was collected. -/
structure Telling where
  todo : List Emission
  asked : Option String := none
  data : Fields := []

/-- What a call comes to: what is told, if anything, and what is collected after it. -/
structure Report where
  told : Option Emission
  data : Fields

namespace Report

/-- What the call does. -/
def action (r : Report) : TurnAction := (r.told.map Emission.action).getD .noop

/-- The text that is sent. -/
def message (r : Report) : Option String := r.told.bind (Emission.message r.data)

/-- An outcome is as it is reported. -/
def IsOf (r : Report) (o : Outcome) : Prop :=
  ∃ c, o = .acted r.action r.message c ∧ c.data = r.data

end Report

namespace Telling

/-- What is collected once a text came in: it answers the question that waits. -/
def collects (text : String) (t : Telling) : Fields :=
  match t.asked with
  | some field => Fields.set t.data field (.str text)
  | none => t.data

/-- What the call comes to in which a text comes in. -/
def report (text : String) (t : Telling) : Report := ⟨t.todo.head?, t.collects text⟩

/-- How far the script is told after the call. -/
def next (script : List Emission) (text : String) (t : Telling) : Telling :=
  match t.todo with
  | [] => { todo := [], data := t.collects text }
  | e :: rest =>
    if e.isLast then { todo := script }
    else { todo := rest, asked := e.field?, data := t.collects text }

end Telling

/-- What the calls of a run come to in which texts come in. -/
def reports (script : List Emission) : Telling → List String → List Report
  | _, [] => []
  | t, text :: rest => t.report text :: reports script (t.next script text) rest

end Script

/-! ## The script of a flow -/

namespace Flow

variable {flow : Flow} {i : Nat} {e : Entry} {rest : List Entry}

theorem entry?_of_drop (hbelong : flow.steps.drop i = e :: rest) :
    flow.entry? i = some e ∧ flow.steps.drop (i + 1) = rest := by
  constructor
  · rw [Flow.entry?, if_pos (Int.natCast_nonneg i), Int.toNat_natCast]
    have hfirst : (flow.steps.drop i)[0]? = flow.steps[i]? := List.getElem?_drop
    rw [← hfirst, hbelong, List.getElem?_cons_zero]
  · rw [← List.tail_drop, hbelong, List.tail_cons]

theorem drop_of_entry? (hentry : flow.entry? i = some e) :
    flow.steps.drop i = e :: flow.steps.drop (i + 1) := by
  rw [Flow.entry?, if_pos (Int.natCast_nonneg i), Int.toNat_natCast] at hentry
  obtain ⟨hwithin, rfl⟩ := List.getElem?_eq_some_iff.1 hentry
  exact List.drop_eq_getElem_cons hwithin

end Flow

namespace Script

theorem emissions_malformed (index : Nat) (raw : Value) (reason : String) (rest : List Entry) :
    emissions index (.malformed raw reason :: rest) = emissions (index + 1) rest := by
  rw [emissions]

theorem emissions_merged {s s' : Step} {text field question : String} (index : Nat)
    (rest : List Entry) (hreplies : s.action = .reply text)
    (hasks : s'.action = .question field question) :
    emissions index (.step s :: .step s' :: rest) =
      .merged index text field question :: emissions (index + 2) rest := by
  obtain ⟨id, _, extras⟩ := s
  obtain ⟨id', _, extras'⟩ := s'
  cases hreplies
  cases hasks
  rw [emissions]

theorem emissions_alone {s : Step} (index : Nat) {rest : List Entry}
    (halone : ∀ text, s.action = .reply text → ∀ s' rest', rest = .step s' :: rest' →
      ∀ field question, s'.action ≠ .question field question) :
    emissions index (.step s :: rest) =
      .alone index s.action :: if s.action.isLast then [] else emissions (index + 1) rest := by
  rw [emissions]
  rintro id text extras id' field question extras' rest' rfl rfl
  exact halone text rfl _ _ rfl field question rfl

theorem not_isTold_nil (index : Nat) : ¬ IsTold [] index := by
  rintro ⟨⟨s, hthere⟩, -⟩
  simp at hthere

theorem isTold_malformed_iff {raw : Value} {reason : String} {rest : List Entry} {index : Nat} :
    IsTold (.malformed raw reason :: rest) index ↔ ∃ j, index = j + 1 ∧ IsTold rest j := by
  cases index with
  | zero => simp [IsTold]
  | succ j =>
    simp only [IsTold, List.getElem?_cons_succ, Nat.add_right_cancel_iff, exists_eq_left',
      and_congr_right_iff]
    intro _
    constructor
    · intro hgoesOn i hearlier
      exact hgoesOn (i + 1) (by omega)
    · intro hgoesOn i hearlier s hthere
      cases i with
      | zero => simp at hthere
      | succ i => exact hgoesOn i (by omega) s hthere

theorem isTold_step_iff {s : Step} {rest : List Entry} {index : Nat} :
    IsTold (.step s :: rest) index ↔
      index = 0 ∨ s.action.isLast = false ∧ ∃ j, index = j + 1 ∧ IsTold rest j := by
  cases index with
  | zero => simp [IsTold]
  | succ j =>
    simp only [IsTold, List.getElem?_cons_succ, Nat.add_right_cancel_iff, exists_eq_left',
      Nat.add_one_ne_zero, false_or]
    constructor
    · rintro ⟨hthere, hgoesOn⟩
      exact ⟨hgoesOn 0 (by omega) s rfl, hthere, fun i hearlier => hgoesOn (i + 1) (by omega)⟩
    · rintro ⟨hfirst, hthere, hgoesOn⟩
      refine ⟨hthere, fun i hearlier t hthere => ?_⟩
      cases i with
      | zero =>
        obtain rfl : s = t := by simpa using hthere
        exact hfirst
      | succ i => exact hgoesOn i (by omega) t hthere

theorem mem_indices_emissions (index : Nat) (entries : List Entry) (i : Nat) :
    i ∈ (emissions index entries).flatMap Emission.indices ↔
      ∃ k, i = index + k ∧ IsTold entries k := by
  fun_induction emissions index entries with
  | case1 index => simp [not_isTold_nil]
  | case2 index raw reason rest ih =>
    simp only [ih, isTold_malformed_iff]
    constructor
    · rintro ⟨k, rfl, htold⟩
      exact ⟨k + 1, by omega, k, rfl, htold⟩
    · rintro ⟨_, rfl, k, rfl, htold⟩
      exact ⟨k, by omega, htold⟩
  | case3 index id text extras id' field question extras' rest ih =>
    have hfirst : (Step.Action.reply text).isLast = false := rfl
    have hsecond : (Step.Action.question field question).isLast = false := rfl
    simp only [List.flatMap_cons, Emission.indices, List.mem_append, List.mem_cons,
      List.not_mem_nil, or_false, ih, isTold_step_iff, hfirst, hsecond, true_and]
    constructor
    · rintro ((rfl | rfl) | ⟨k, rfl, htold⟩)
      · exact ⟨0, rfl, .inl rfl⟩
      · exact ⟨1, rfl, .inr ⟨0, rfl, .inl rfl⟩⟩
      · exact ⟨k + 2, by omega, .inr ⟨k + 1, rfl, .inr ⟨k, rfl, htold⟩⟩⟩
    · rintro ⟨_, rfl, rfl | ⟨_, rfl, rfl | ⟨k, rfl, htold⟩⟩⟩
      · exact .inl (.inl rfl)
      · exact .inl (.inr rfl)
      · exact .inr ⟨k, by omega, htold⟩
  | case4 index s rest _ ih =>
    simp only [List.flatMap_cons, Emission.indices, List.mem_append, List.mem_singleton,
      isTold_step_iff]
    cases hlast : s.action.isLast with
    | true =>
      simp only [if_true, List.flatMap_nil, List.not_mem_nil, or_false, Bool.true_eq_false,
        false_and, exists_eq_right, Nat.add_zero]
    | false =>
      simp only [Bool.false_eq_true, if_false, ih, true_and]
      constructor
      · rintro (rfl | ⟨k, rfl, htold⟩)
        · exact ⟨0, rfl, .inl rfl⟩
        · exact ⟨k + 1, by omega, .inr ⟨k, rfl, htold⟩⟩
      · rintro ⟨_, rfl, rfl | ⟨k, rfl, htold⟩⟩
        · exact .inl rfl
        · exact .inr ⟨k, by omega, htold⟩

theorem pairwise_indices_emissions (index : Nat) (entries : List Entry) :
    ((emissions index entries).flatMap Emission.indices).Pairwise (· < ·) := by
  have hlater : ∀ (index : Nat) (entries : List Entry),
      ∀ i ∈ (emissions index entries).flatMap Emission.indices, index ≤ i := by
    intro index entries i hlisted
    obtain ⟨k, rfl, -⟩ := (mem_indices_emissions index entries i).1 hlisted
    omega
  fun_induction emissions index entries with
  | case1 index => exact .nil
  | case2 index raw reason rest ih => exact ih
  | case3 index id text extras id' field question extras' rest ih =>
    have hrest := hlater (index + 2) rest
    refine .cons ?_ (.cons (fun i hlisted => ?_) ih)
    · intro i hlisted
      rcases List.mem_cons.1 hlisted with rfl | hlisted
      · omega
      · have := hrest i hlisted
        omega
    · have := hrest i hlisted
      omega
  | case4 index s rest _ ih =>
    refine .cons (fun i hlisted => ?_) ?_
    · split at hlisted
      · simp at hlisted
      · have := hlater (index + 1) rest i hlisted
        omega
    · split
      · exact .nil
      · exact ih

theorem fits_of_mem_emissions {flow : Flow} (index : Nat) (entries : List Entry)
    (hbelong : flow.steps.drop index = entries) :
    ∀ e ∈ emissions index entries, e.Fits flow := by
  fun_induction emissions index entries with
  | case1 index => simp
  | case2 index raw reason rest ih => exact ih (flow.entry?_of_drop hbelong).2
  | case3 index id text extras id' field question extras' rest ih =>
    obtain ⟨hreplies, hbelong⟩ := flow.entry?_of_drop hbelong
    obtain ⟨hasks, hbelong⟩ := flow.entry?_of_drop hbelong
    exact List.forall_mem_cons.2 ⟨⟨⟨_, hreplies, rfl⟩, _, hasks, rfl⟩, ih hbelong⟩
  | case4 index s rest hsingle ih =>
    obtain ⟨hentry, hlater⟩ := flow.entry?_of_drop hbelong
    refine List.forall_mem_cons.2 ⟨⟨⟨s, hentry, rfl⟩, ?_⟩, ?_⟩
    · rintro text field question hreplies ⟨s', hasks, haction⟩
      have hnext : flow.steps.drop (index + 1) = .step s' :: flow.steps.drop (index + 2) :=
        flow.drop_of_entry? (i := index + 1) hasks
      obtain ⟨id, _, extras⟩ := s
      obtain ⟨id', _, extras'⟩ := s'
      cases hreplies
      cases haction
      exact hsingle _ _ _ _ _ _ _ _ (hlater.symm.trans hnext) rfl
    · split
      · simp
      · exact ih hlater

end Script

namespace Flow

theorem isToldBy_script (flow : Flow) : flow.IsToldBy flow.script where
  ordered := pairwise_indices_emissions 0 _
  complete index := by
    rw [script, scriptFrom, mem_indices_emissions]
    simp
  fits := fits_of_mem_emissions 0 _ rfl

/-! ### Entry by entry -/

variable {flow : Flow} {i : Nat}

theorem scriptFrom_of_none (hnothing : flow.entry? i = none) : flow.scriptFrom i = [] := by
  have hbeyond : flow.steps.drop i = [] := by simpa [Flow.entry?] using hnothing
  rw [scriptFrom, hbeyond, emissions]

theorem scriptFrom_malformed {raw : Value} {reason : String}
    (hmalformed : flow.entry? i = some (.malformed raw reason)) :
    flow.scriptFrom i = flow.scriptFrom (i + 1) := by
  rw [scriptFrom, drop_of_entry? hmalformed, emissions_malformed]
  rfl

theorem scriptFrom_merged {s : Step} {text field question : String}
    (hentry : flow.entry? i = some (.step s)) (hreplies : s.action = .reply text)
    (hasks : IsQuestion flow ((i : Int) + 1) field question) :
    flow.scriptFrom i = .merged i text field question :: flow.scriptFrom (i + 2) := by
  obtain ⟨s', hnext, haction⟩ := hasks
  rw [scriptFrom, drop_of_entry? hentry, drop_of_entry? (i := i + 1) hnext,
    emissions_merged i _ hreplies haction]
  rfl

theorem scriptFrom_alone {s : Step} (hentry : flow.entry? i = some (.step s))
    (halone : ∀ text, s.action = .reply text →
      ∀ field question, ¬ IsQuestion flow ((i : Int) + 1) field question) :
    flow.scriptFrom i =
      .alone i s.action :: if s.action.isLast then [] else flow.scriptFrom (i + 1) := by
  rw [scriptFrom, drop_of_entry? hentry, emissions_alone i]
  · rfl
  · intro text hreplies s' rest' hfollows field question hasks
    obtain ⟨hnext, -⟩ := flow.entry?_of_drop (i := i + 1) hfollows
    exact halone text hreplies field question ⟨s', hnext, hasks⟩

end Flow

namespace Script

/-! ## Where the script is -/

variable {flow : Flow} {name text now : String} {t : Telling} {stored : Option Conversation}
  {c : Conversation}

/-- The conversation that is stored stands where the script is: there is none that goes on and the
script starts, or one that goes on has its place in the flow. -/
inductive Stands (flow : Flow) (name : String) : Telling → Option Conversation → Prop where
  | starts {stored : Option Conversation} (ended : ∀ c, stored = some c → ¬ GoesOn name c) :
      Stands flow name { todo := flow.script } stored
  | idles {c : Conversation} {index : Nat} (goesOn : GoesOn name c) (idle : c.waiting = none)
      (place : c.stepIndex = index) :
      Stands flow name { todo := flow.scriptFrom index, data := c.data } (some c)
  | waits {c : Conversation} {index : Nat} {field : String} (goesOn : GoesOn name c)
      (asked : c.waiting = some ⟨field, index⟩) (place : c.stepIndex = index) :
      Stands flow name
        { todo := flow.scriptFrom (index + 1), asked := some field, data := c.data } (some c)

/-- A conversation from which a turn goes on with the script once a text came in. -/
structure Goes (flow : Flow) (name text : String) (t : Telling) (c : Conversation) : Prop where
  goesOn : GoesOn name c
  idle : c.waiting = none
  data : c.data = t.collects text
  place : ∃ index : Nat, c.stepIndex = index ∧ t.todo = flow.scriptFrom index

theorem resumed_of_goesOn (hgoesOn : GoesOn name c) :
    resumed name now (some c) = { c with updatedAt := .str now, lastInboundAt := .str now } :=
  if_pos hgoesOn

theorem resumed_of_ended (hended : ∀ c, stored = some c → ¬ GoesOn name c) :
    resumed name now stored = { Conversation.start name now with lastInboundAt := .str now } := by
  cases stored with
  | none => rfl
  | some c => exact if_neg (hended c rfl)

theorem Stands.goes (hstands : Stands flow name t stored) (hgiven : text ≠ "") :
    Goes flow name text t (answered text (resumed name now stored)) := by
  cases hstands with
  | starts hended =>
    rw [resumed_of_ended hended]
    exact ⟨⟨rfl, rfl⟩, rfl, rfl, 0, rfl, rfl⟩
  | @idles c index hgoesOn hidle hplace =>
    rw [resumed_of_goesOn hgoesOn]
    simp only [answered, hidle]
    exact ⟨hgoesOn, rfl, rfl, index, hplace, rfl⟩
  | @waits c index field hgoesOn hasked hplace =>
    rw [resumed_of_goesOn hgoesOn]
    simp only [answered, hasked, if_neg hgiven]
    refine ⟨hgoesOn, rfl, rfl, index + 1, ?_, rfl⟩
    show max c.stepIndex _ = _
    rw [hplace]
    omega

/-! ## One turn -/

theorem not_isCondition (hlinear : flow.IsLinear) {index : Int} {expr : Option String}
    {thenTarget elseTarget : Option Int} : ¬ IsCondition flow index expr thenTarget elseTarget := by
  rintro ⟨s, hentry, haction⟩
  have hlisted : .step s ∈ flow.steps := by
    unfold Flow.entry? at hentry
    split at hentry
    · exact List.mem_of_getElem? hentry
    · cases hentry
  exact hlinear s hlisted (by rw [Step.kind, haction]; rfl)

/-- A silent path of a flow without conditions leaves the script as it is. -/
theorem scriptFrom_of_path (hlinear : flow.IsLinear) {data : Fields} {i j : Int} {ks : List Int}
    (hpath : SilentPath flow text data i ks j) {index : Nat} (hplace : i = index) :
    ks = [] ∧ ∃ index' : Nat, j = index' ∧ flow.scriptFrom index = flow.scriptFrom index' := by
  induction hpath generalizing index with
  | here i => exact ⟨rfl, index, hplace, rfl⟩
  | @skip i j ks raw reason hmalformed hrest ih =>
    subst hplace
    have hnext : ((index : Int) + 1) = (index + 1 : Nat) := rfl
    obtain ⟨hnothing, index', harrives, hsame⟩ := ih hnext
    exact ⟨hnothing, index', harrives, (Flow.scriptFrom_malformed hmalformed).trans hsame⟩
  | holds hcondition => exact absurd hcondition (not_isCondition hlinear)
  | fails hcondition => exact absurd hcondition (not_isCondition hlinear)

/-- The script starts again after its last step. -/
theorem Telling.next_of_last {script : List Emission} {e : Emission} {rest : List Emission}
    (htodo : t.todo = e :: rest) (hlast : e.isLast = true) :
    t.next script text = { todo := script } := by
  rw [next, htodo]
  exact if_pos hlast

theorem Telling.next_of_more {script : List Emission} {e : Emission} {rest : List Emission}
    (htodo : t.todo = e :: rest) (hmore : e.isLast = false) :
    t.next script text = { todo := rest, asked := e.field?, data := t.collects text } := by
  rw [next, htodo]
  exact if_neg (by simp [hmore])

/-- What the script has next is as it is reported if it says the same with the same data. -/
theorem Telling.isOf_report {e : Emission} {rest : List Emission} (htodo : t.todo = e :: rest)
    {action : TurnAction} {message : Option String} (hdoes : e.action = action)
    (hspeaks : e.message c.data = message) (hdata : c.data = t.collects text) :
    (t.report text).IsOf (.acted action message c) := by
  refine ⟨c, ?_, hdata⟩
  rw [← hdoes, ← hspeaks, hdata, report, htodo]
  rfl

theorem Stands.of_last {e : Emission} {rest : List Emission} (htodo : t.todo = e :: rest)
    (hlast : e.isLast = true) (hcompleted : c.isCompleted = true) :
    Stands flow name (t.next flow.script text) (some c) := by
  rw [Telling.next_of_last htodo hlast]
  refine .starts fun c' hsame hgoesOn => ?_
  cases hsame
  rw [hgoesOn.2] at hcompleted
  cases hcompleted

/-- What is spoken is what the script has next. -/
theorem Goes.spoken {action : TurnAction} {message : Option String} {final : Conversation}
    (hgoes : Goes flow name text t c) (htimed : now ≠ "")
    (hspoken : Spoken flow now c action message final) :
    (t.report text).IsOf (.acted action message final) ∧
      Stands flow name (t.next flow.script text) (some final) := by
  obtain ⟨hgoesOn, hidle, hdata, index, hplace, htodo⟩ := hgoes
  cases hspoken with
  | outside hnothing =>
    rw [hplace] at hnothing
    have hended := Flow.scriptFrom_of_none hnothing
    have hnext : t.next flow.script text = { todo := flow.scriptFrom index, data := c.data } := by
      rw [Telling.next, htodo, hended, hdata]
    rw [hnext]
    refine ⟨⟨c, ?_, hdata⟩, .idles hgoesOn hidle hplace⟩
    rw [Telling.report, htodo, hended]
    rfl
  | @question field question hasks =>
    obtain ⟨s, hentry, haction⟩ := hasks
    rw [hplace] at hentry
    have hfirst : t.todo =
        .alone index (.question field question) :: flow.scriptFrom (index + 1) := by
      rw [htodo, Flow.scriptFrom_alone hentry (by simp [haction]), haction]
      rfl
    refine ⟨Telling.isOf_report hfirst rfl rfl hdata, ?_⟩
    rw [Telling.next_of_more hfirst rfl, ← hdata]
    exact .waits (c := { c with waiting := some ⟨field, c.stepIndex⟩ }) hgoesOn (by rw [hplace])
      hplace
  | @replyAndQuestion s reply field question hentry hreplies hasks =>
    rw [hplace] at hentry hasks
    have hfirst := htodo.trans (Flow.scriptFrom_merged hentry hreplies hasks)
    refine ⟨Telling.isOf_report hfirst rfl rfl hdata, ?_⟩
    rw [Telling.next_of_more hfirst rfl, ← hdata, hplace]
    exact .waits (c := { c with
      stepIndex := (index + 1 : Nat), waiting := some ⟨field, (index + 1 : Nat)⟩ }) hgoesOn rfl rfl
  | @reply s reply hentry hreplies halone =>
    rw [hplace] at hentry halone
    have hfirst : t.todo = .alone index (.reply reply) :: flow.scriptFrom (index + 1) := by
      rw [htodo, Flow.scriptFrom_alone hentry fun _ _ => halone, hreplies]
      rfl
    refine ⟨Telling.isOf_report hfirst rfl rfl hdata, ?_⟩
    rw [Telling.next_of_more hfirst rfl, ← hdata, hplace]
    exact .idles (c := c.moved (index + 1 : Nat)) hgoesOn hidle rfl
  | @handoff s reason words hentry hands =>
    rw [hplace] at hentry
    have hfirst := htodo.trans (Flow.scriptFrom_alone hentry (by simp [hands]))
    rw [hands] at hfirst
    exact ⟨Telling.isOf_report hfirst rfl rfl hdata,
      .of_last hfirst rfl (isCompleted_of_completedAt rfl htimed)⟩
  | @finish s words hentry hends =>
    rw [hplace] at hentry
    have hfirst := htodo.trans (Flow.scriptFrom_alone hentry (by simp [hends]))
    rw [hends] at hfirst
    exact ⟨Telling.isOf_report hfirst rfl rfl hdata,
      .of_last hfirst rfl (isCompleted_of_completedAt rfl htimed)⟩

/-- A turn comes to what the script has next, and stores one conversation. -/
theorem Goes.told {limit : Nat} {outcome : Outcome} {saves : List Conversation}
    (hgoes : Goes flow name text t c) (hlinear : flow.IsLinear) (htimed : now ≠ "")
    (htold : Told flow text now limit c outcome saves) :
    (t.report text).IsOf outcome ∧
      ∃ final, saves = [final] ∧ Stands flow name (t.next flow.script text) (some final) := by
  cases htold with
  | limit hpath hspent hcondition => exact absurd hcondition (not_isCondition hlinear)
  | @ends ks j action message final hpath hwithin hspoken =>
    obtain ⟨index, hplace, htodo⟩ := hgoes.place
    obtain ⟨rfl, index', harrives, hsame⟩ := scriptFrom_of_path hlinear hpath hplace
    have harrived : Goes flow name text t (c.moved j) :=
      ⟨hgoes.goesOn, hgoes.idle, hgoes.data, index', harrives, htodo.trans hsame⟩
    obtain ⟨hreported, hstands⟩ := harrived.spoken htimed hspoken
    exact ⟨hreported, final, rfl, hstands⟩

end Script

end Dialogue

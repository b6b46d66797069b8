import Dialogue.Engine.Turn

/-!
# A turn told by its path

What a turn comes to can be told without any walking.  From the step where the conversation resumes
there is one silent path (`SilentPath`): malformed data leads to the next step and a condition to
the target of its branch, until something is said or the flow is left.  A turn ends where its path
ends (`Spoken`), unless the path meets a condition more than it may (`Told.limit`).

Nothing here is computed: `Told` is a relation between a conversation and what the turn says, stores
and leaves behind.  A path may be infinite, and then only `Told.limit` applies.

## Main definitions

* `resumed`, `answered`: where a turn starts, and what an answer does to it.
* `SilentPath flow text data i ks j`: a silent path from `i` to `j`; after its conditions it stands
  at the steps `ks`.
* `Spoken flow now c`: what is done at the end of a path.
* `Told flow text now limit c`: what the turn comes to, and the conversations it stores.
-/

namespace Dialogue

/-- The conversation at another step. -/
def Conversation.moved (c : Conversation) (index : Int) : Conversation :=
  { c with stepIndex := index }

@[simp] theorem Conversation.stepIndex_moved (c : Conversation) (i : Int) :
    (c.moved i).stepIndex = i := rfl

@[simp] theorem Conversation.moved_moved (c : Conversation) (i j : Int) :
    (c.moved i).moved j = c.moved j := rfl

@[simp] theorem Conversation.moved_stepIndex (c : Conversation) : c.moved c.stepIndex = c := rfl

namespace Turn

/-! ## Where a turn starts -/

/-- The stored conversation if it is of the flow and not completed, otherwise a fresh one; either
way the message has just come in. -/
def resumed (name now : String) : Option Conversation → Conversation
  | some c =>
    if c.flow = name ∧ c.isCompleted = false then
      { c with updatedAt := .str now, lastInboundAt := .str now }
    else { Conversation.start name now with lastInboundAt := .str now }
  | none => { Conversation.start name now with lastInboundAt := .str now }

/-- The conversation after a message: a question that waits takes a message that is not empty for
its answer. -/
def answered (text : String) (c : Conversation) : Conversation :=
  match c.waiting with
  | some w =>
    if text = "" then c
    else
      { c with
        data := Fields.set c.data w.field (.str text)
        stepIndex := max c.stepIndex (w.stepIndex + 1)
        waiting := none }
  | none => c

/-! ## Silent paths -/

/-- Where a branch leads from a step: to its target, or on to the next step where the target is
missing or negative. -/
def landing (index : Int) : Option Int → Int
  | some target => if target < 0 then index + 1 else target
  | none => index + 1

/-- An expression is readable and holds of the collected data with the message under `_last`. -/
def Favours (text : String) (data : Fields) (expr : Option String) : Prop :=
  ∃ e condition, expr = some e ∧ Condition.parse? e = some condition ∧
    condition.holds (Fields.set data "_last" (.str text)) = true

/-- What stands at a step number is a condition. -/
def IsCondition (flow : Flow) (index : Int) (expr : Option String)
    (thenTarget elseTarget : Option Int) : Prop :=
  ∃ s, flow.entry? index = some (.step s) ∧ s.action = .condition expr thenTarget elseTarget

/-- A path on which nothing is said, from one step number to another.  The list holds the step
numbers to which its conditions lead. -/
inductive SilentPath (flow : Flow) (text : String) (data : Fields) :
    Int → List Int → Int → Prop where
  | here (i : Int) : SilentPath flow text data i [] i
  | skip {i j : Int} {ks : List Int} {raw : Value} {reason : String}
      (malformed : flow.entry? i = some (.malformed raw reason))
      (rest : SilentPath flow text data (i + 1) ks j) : SilentPath flow text data i ks j
  | holds {i j : Int} {ks : List Int} {expr : Option String} {thenTarget elseTarget : Option Int}
      (condition : IsCondition flow i expr thenTarget elseTarget)
      (favours : Favours text data expr)
      (rest : SilentPath flow text data (landing i thenTarget) ks j) :
      SilentPath flow text data i (landing i thenTarget :: ks) j
  | fails {i j : Int} {ks : List Int} {expr : Option String} {thenTarget elseTarget : Option Int}
      (condition : IsCondition flow i expr thenTarget elseTarget)
      (disfavours : ¬ Favours text data expr)
      (rest : SilentPath flow text data (landing i elseTarget) ks j) :
      SilentPath flow text data i (landing i elseTarget :: ks) j

/-! ## Where a path ends -/

/-- What stands at a step number is a question. -/
def IsQuestion (flow : Flow) (index : Int) (field text : String) : Prop :=
  ∃ s, flow.entry? index = some (.step s) ∧ s.action = .question field text

/-- What is done at a step that is no silent one, or outside the flow: the action, the message, and
the conversation after it. -/
inductive Spoken (flow : Flow) (now : String) (c : Conversation) :
    TurnAction → Option String → Conversation → Prop where
  | outside (nothing : flow.entry? c.stepIndex = none) : Spoken flow now c .noop none c
  | question {field text : String} (asks : IsQuestion flow c.stepIndex field text) :
      Spoken flow now c .ask (some (Template.render text c.data))
        { c with waiting := some ⟨field, c.stepIndex⟩ }
  | replyAndQuestion {s : Step} {text field question : String}
      (entry : flow.entry? c.stepIndex = some (.step s)) (replies : s.action = .reply text)
      (asks : IsQuestion flow (c.stepIndex + 1) field question) :
      Spoken flow now c .ask
        (some (Template.render text c.data ++ "\n\n" ++ Template.render question c.data))
        { c with stepIndex := c.stepIndex + 1, waiting := some ⟨field, c.stepIndex + 1⟩ }
  | reply {s : Step} {text : String}
      (entry : flow.entry? c.stepIndex = some (.step s)) (replies : s.action = .reply text)
      (alone : ∀ field question, ¬ IsQuestion flow (c.stepIndex + 1) field question) :
      Spoken flow now c .reply (some (Template.render text c.data)) (c.moved (c.stepIndex + 1))
  | handoff {s : Step} {reason : String} {text : Option String}
      (entry : flow.entry? c.stepIndex = some (.step s)) (hands : s.action = .handoff reason text) :
      Spoken flow now c .handoff
        ((text.filter (· ≠ "")).map fun t => Template.render t c.data)
        { c with
          stepIndex := flow.size
          completedAt := .str now
          handoff := some ⟨if reason = "" then "handoff" else reason, now⟩ }
  | finish {s : Step} {text : Option String}
      (entry : flow.entry? c.stepIndex = some (.step s)) (ends : s.action = .finish text) :
      Spoken flow now c .finish
        ((text.filter (· ≠ "")).map fun t => Template.render t c.data)
        { c with stepIndex := flow.size, completedAt := .str now }

/-- What the turn of a conversation comes to, and the conversations that are stored on the way.  The
turn is stuck at the first condition beyond the limit, where nothing more is stored. -/
inductive Told (flow : Flow) (text now : String) (limit : Nat) (c : Conversation) :
    Outcome → List Conversation → Prop where
  | limit {ks : List Int} {j : Int} {expr : Option String} {thenTarget elseTarget : Option Int}
      (path : SilentPath flow text c.data c.stepIndex ks j) (spent : ks.length = limit)
      (condition : IsCondition flow j expr thenTarget elseTarget) :
      Told flow text now limit c (.stuck (c.moved j)) (ks.map c.moved)
  | ends {ks : List Int} {j : Int} {action : TurnAction} {message : Option String}
      {final : Conversation}
      (path : SilentPath flow text c.data c.stepIndex ks j) (within : ks.length ≤ limit)
      (spoken : Spoken flow now (c.moved j) action message final) :
      Told flow text now limit c (.acted action message final) (ks.map c.moved ++ [final])

/-- What a message comes to for a stored conversation. -/
def Reference (flow : Flow) (name text now : String) (limit : Nat)
    (stored : Option Conversation) : Outcome → List Conversation → Prop :=
  Told flow text now limit (answered text (resumed name now stored))

end Turn

end Dialogue

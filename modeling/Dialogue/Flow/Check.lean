import Dialogue.Condition.Parser
import Dialogue.Flow.Document

/-!
# Checking a flow

`Flow.problems` lists what an author should mend in a flow.  Nothing on the list keeps a flow from
running: malformed data is skipped, a condition that cannot be read takes its else branch, and a
chain of conditions that never ends is cut off.

Steps that say nothing form a graph (`Flow.silentSuccessors`): malformed data leads to the next
step, a condition to its two targets.  A cycle of this graph is a loop in which nothing is ever
said.  `Flow.cycles` finds the cycles by depth-first search from every step in turn; the search is
bounded by the number of steps, since its path never holds a step twice.
-/

namespace Dialogue.Flow

/-- Where a branch of a condition at a step number leads: to its target, or to the next step. -/
def branch (index : Nat) (target : Option Int) : Int :=
  (Step.target? target).getD (index + 1)

/-- The step numbers to which the flow may go from a step without saying anything. -/
def silentSuccessors (flow : Flow) (index : Nat) : List Int :=
  match flow.steps[index]? with
  | some (.malformed _ _) => [(index : Int) + 1]
  | some (.step s) =>
    match s.action with
    | .condition _ thenTarget elseTarget => [branch index thenTarget, branch index elseTarget]
    | _ => []
  | none => []

/-- The silent successors that are steps of the flow. -/
def silentEdges (flow : Flow) (index : Nat) : List Nat :=
  (flow.silentSuccessors index).filterMap fun j => if flow.inRange j then some j.toNat else none

/-- What the search knows: the steps that were entered, and the cycles found, latest first. -/
structure Search where
  entered : List Nat := []
  found : List (List Nat) := []

/-- The steps of a path from the given one on; the path lists the latest step first. -/
def pathFrom (path : List Nat) (j : Nat) : List Nat := (path.takeWhile (· != j) ++ [j]).reverse

mutual
/-- Enters a step below a path, latest step first, and follows its edges. -/
def visit (flow : Flow) : Nat → List Nat → Nat → Search → Search
  | 0, _, _, search => search
  | fuel + 1, path, i, search =>
    follow flow fuel (i :: path) (flow.silentEdges i) { search with entered := i :: search.entered }

/-- Follows edges from the latest step of a path: back to a step of the path closes a cycle, to a
step that was never entered goes deeper. -/
def follow (flow : Flow) : Nat → List Nat → List Nat → Search → Search
  | _, _, [], search => search
  | fuel, path, j :: rest, search =>
    let search :=
      if path.contains j then { search with found := pathFrom path j :: search.found }
      else if search.entered.contains j then search
      else visit flow fuel path j search
    follow flow fuel path rest search
end

/-- The cycles of silent steps, in the order in which the search closes them. -/
def cycles (flow : Flow) : List (List Nat) :=
  let search := (List.range flow.size).foldl
    (fun search i =>
      if search.entered.contains i then search else visit flow flow.size [] i search)
    {}
  search.found.reverse

/-- What is wrong with a flow. -/
inductive Problem where
  | noSteps
  | malformed (index : Nat) (reason : String)
  | noExpression (index : Nat)
  | unreadableExpression (index : Nat) (expr : String)
  | targetOutside (index : Nat) (label : String) (target : Int) (size : Nat)
  | silentLoop (cycle : List Nat)
  deriving DecidableEq, Repr

/-- The wording of a problem. -/
def Problem.message : Problem → String
  | .noSteps => "flow has no steps"
  | .malformed i reason => "step[" ++ toString i ++ "] is malformed and will be skipped: " ++
    (if reason.isEmpty then "unknown type" else reason)
  | .noExpression i =>
    "step[" ++ toString i ++ "] condition has no expression; else branch always taken"
  | .unreadableExpression i expr => "step[" ++ toString i ++ "] condition '" ++ expr ++
    "' cannot be parsed; else branch always taken"
  | .targetOutside i label target size => "step[" ++ toString i ++ "] " ++ label ++ "=" ++
    toString target ++ " is outside 0.." ++ toString ((size : Int) - 1)
  | .silentLoop cycle => "condition steps [" ++
    String.intercalate ", " (cycle.map fun (i : Nat) => toString i) ++
    "] form a loop with no message or terminal step"

/-- The problem of a condition's expression. -/
def expressionProblem (index : Nat) (expr : Option String) : List Problem :=
  match expr with
  | none => [.noExpression index]
  | some e =>
    if Text.isBlankText e then [.noExpression index]
    else if (Condition.parse? e).isNone then [.unreadableExpression index e]
    else []

/-- The problem of a branch target. -/
def targetProblem (flow : Flow) (index : Nat) (label : String) (target : Option Int) :
    List Problem :=
  match target with
  | none => []
  | some t => if flow.inRange t then [] else [.targetOutside index label t flow.size]

/-- The problems of what stands at one place. -/
def entryProblems (flow : Flow) (index : Nat) : Entry → List Problem
  | .malformed _ reason => [.malformed index reason]
  | .step s =>
    match s.action with
    | .condition expr thenTarget elseTarget =>
      expressionProblem index expr ++ targetProblem flow index "thenStepIndex" thenTarget ++
        targetProblem flow index "elseStepIndex" elseTarget
    | _ => []

/-- Everything that is wrong with a flow; nothing when the flow is clean. -/
def problems (flow : Flow) : List Problem :=
  (if flow.steps.isEmpty then [.noSteps] else []) ++
    (flow.steps.zipIdx.flatMap fun (e, i) => flow.entryProblems i e) ++
    flow.cycles.map .silentLoop

end Dialogue.Flow

import Dialogue.Proofs.Flow.Loops
import Dialogue.Proofs.Json.Number
import Mathlib.Data.List.Count
import Mathlib.Data.List.Nodup
import Mathlib.Data.List.Sigma

/-!
# How often a problem is reported

A loop is found along the edge that closes it, and its last step is entered once.  So a loop is
found once for every edge from its last step to its first (`Flow.count_cycles`).  There is one such
edge, unless the last step is a condition whose branches both lead to the first
(`Flow.ClosesTwice`): then there are two, and the loop is reported twice.

All other problems are reported once.  The text of a problem tells the step where it lies and what
is wrong there (`Flow.Problem.Tells`), and the text of a loop tells its steps
(`Flow.message_silentLoop_injective`), so two problems have one text only where the search lists one
loop twice (`Flow.nodup_message_problems_iff`).
-/

namespace Dialogue.Flow

/-- A step is a condition whose branches both land at another step. -/
def BranchesMeet (flow : Flow) (i j : Nat) : Prop :=
  ∃ s expr thenTarget elseTarget, flow.steps[i]? = some (.step s) ∧
    s.action = .condition expr thenTarget elseTarget ∧
    Turn.landing i thenTarget = j ∧ Turn.landing i elseTarget = j

/-- The last step of a cycle is a condition whose branches both lead to the first. -/
def ClosesTwice (flow : Flow) (cycle : List Nat) : Prop :=
  ∃ first last, cycle.head? = some first ∧ cycle.getLast? = some last ∧
    flow.BranchesMeet last first

variable {flow : Flow} {path edges : List Nat} {search after : Search} {i j : Nat}

/-! ## Edges to one step -/

theorem count_silentEdges (hinside : j < flow.size) :
    (flow.silentEdges i).count j = (flow.silentSuccessors i).count (j : Int) := by
  rw [silentEdges, List.count_filterMap, List.count_eq_countP]
  refine List.countP_congr fun k _ => ?_
  simp only [inRange, Bool.and_eq_true, decide_eq_true_eq, beq_iff_eq,
    Option.ite_none_right_eq_some, Option.some.injEq]
  omega

/-- A step that leads to another one has one edge to it, and two if its branches meet there. -/
theorem count_silentEdges_of_mem (hedge : j ∈ flow.silentEdges i) :
    flow.BranchesMeet i j ∧ (flow.silentEdges i).count j = 2 ∨
      ¬ flow.BranchesMeet i j ∧ (flow.silentEdges i).count j = 1 := by
  rw [count_silentEdges (After.lt_size hedge)]
  cases after_iff_leads.1 hedge with
  | malformed hentry hinside =>
    refine .inr ⟨?_, by simp [silentSuccessors, hentry]⟩
    rintro ⟨s, expr, thenTarget, elseTarget, hstep, -⟩
    rw [hentry] at hstep
    cases hstep
  | @branch _ s expr thenTarget elseTarget taken hentry hcondition hbranches hlands hinside =>
    have hsuccessors : flow.silentSuccessors i =
        [Turn.landing i thenTarget, Turn.landing i elseTarget] := by
      simp only [silentSuccessors, hentry, hcondition, branch_eq_landing]
    by_cases hboth : Turn.landing i thenTarget = j ∧ Turn.landing i elseTarget = j
    · exact .inl ⟨⟨s, expr, thenTarget, elseTarget, hentry, hcondition, hboth⟩,
        by simp [hsuccessors, hboth]⟩
    · refine .inr ⟨?_, ?_⟩
      · rintro ⟨s', expr', thenTarget', elseTarget', hentry', hcondition', hboth'⟩
        obtain rfl : s = s' := by simpa [hentry] using hentry'
        obtain ⟨-, rfl, rfl⟩ : expr = expr' ∧ thenTarget = thenTarget' ∧
          elseTarget = elseTarget' := by simpa [hcondition] using hcondition'
        exact hboth hboth'
      · rw [hsuccessors]
        rcases hbranches with htaken | htaken
        · rw [htaken] at hlands
          have hother : Turn.landing i elseTarget ≠ j := fun hsame => hboth ⟨hlands, hsame⟩
          simp [hlands, hother]
        · rw [htaken] at hlands
          have hother : Turn.landing i thenTarget ≠ j := fun hsame => hboth ⟨hsame, hlands⟩
          simp [hlands, hother]

/-! ## How often the search finds a loop -/

theorem Follows.entered_subset (hfollows : flow.Follows path edges search after) :
    search.entered ⊆ after.entered := by
  induction hfollows with
  | done => exact List.Subset.refl _
  | closes honPath hothers ih => exact ih
  | known hfresh hentered hothers ih => exact ih
  | enters hfresh hnew hbelow hothers hihBelow hihOthers =>
    exact fun k hentered => hihOthers (hihBelow (List.mem_cons_of_mem _ hentered))

theorem head?_pathFrom (path : List Nat) (j : Nat) : (pathFrom path j).head? = some j := by
  simp [pathFrom]

theorem getLast?_pathFrom (honPath : j ∈ path) : (pathFrom path j).getLast? = path.head? := by
  cases path with
  | nil => cases honPath
  | cons i rest =>
    rw [pathFrom, List.getLast?_reverse]
    by_cases hsame : i = j
    · simp [hsame]
    · simp [hsame]

section Count

variable {cycle : List Nat} {first last : Nat}

/-- Of the cycles that end at a step that was entered before, the edges from a path only find the
one that closes it at the end of the path, once for every edge. -/
theorem Follows.count_of_entered (hfollows : flow.Follows path edges search after)
    (head : cycle.head? = some first) (hentered : last ∈ search.entered)
    (hend : cycle.getLast? = some last) :
    after.found.count cycle = search.found.count cycle +
      if path.head? = some last ∧ first ∈ path ∧ cycle = pathFrom path first
      then edges.count first else 0 := by
  induction hfollows with
  | done path search => simp
  | @closes path rest j search after honPath hothers ih =>
    rw [ih hentered, List.count_cons, List.count_cons]
    by_cases this : pathFrom path j = cycle
    · obtain rfl : j = first := by simpa [← this, head?_pathFrom] using head
      have hlands : path.head? = some last := by rw [← getLast?_pathFrom honPath, this, hend]
      simp [this, hlands, honPath]
      omega
    · have hother : cycle = pathFrom path first → j ≠ first := by
        rintro hsame rfl
        exact this hsame.symm
      simp only [beq_iff_eq, this, if_false, Nat.add_zero, Nat.add_left_cancel_iff]
      split
      · rename_i hclosing
        simp [hother hclosing.2.2]
      · rfl
  | @known path rest j search after hfresh hknown hothers ih =>
    rw [ih hentered]
    split
    · rename_i hclosing
      have hother : j ≠ first := fun hsame => hfresh (hsame ▸ hclosing.2.1)
      simp [hother]
    · rfl
  | @enters path rest j search between after hfresh hnew hbelow hothers hihBelow hihOthers =>
    have here := hihBelow (List.mem_cons_of_mem j hentered)
    have haway : j ≠ last := fun hsame => hnew (hsame ▸ hentered)
    rw [if_neg (by simp [haway])] at here
    rw [hihOthers (hbelow.entered_subset (List.mem_cons_of_mem j hentered)), here, Nat.add_zero]
    split
    · rename_i hclosing
      have hother : j ≠ first := fun hsame => hfresh (hsame ▸ hclosing.2.1)
      simp [hother]
    · rfl

/-- A cycle that ends at a step that was not entered before is found while this step is searched,
once for every edge that closes it. -/
theorem Follows.count_of_not_entered (hfollows : flow.Follows path edges search after)
    (head : cycle.head? = some first) (hend : cycle.getLast? = some last)
    (honPath : path ⊆ search.entered) (hnew : last ∉ search.entered)
    (hunknown : search.found.count cycle = 0) :
    after.found.count cycle = 0 ∨
      last ∈ after.entered ∧ after.found.count cycle = (flow.silentEdges last).count first := by
  induction hfollows with
  | done => exact .inl hunknown
  | @closes path rest j search after hback hothers ih =>
    refine ih honPath hnew ?_
    have hother : pathFrom path j ≠ cycle := by
      intro hsame
      have hlands : path.head? = some last := by rw [← getLast?_pathFrom hback, hsame, hend]
      exact hnew (honPath (List.mem_of_head? hlands))
    simpa [List.count_cons, hother] using hunknown
  | known hfresh hentered hothers ih => exact ih honPath hnew hunknown
  | @enters path rest j search between after hfresh hfirst hbelow hothers hihBelow hihOthers =>
    have hbetween : between.found.count cycle = 0 ∨ last ∈ between.entered ∧
        between.found.count cycle = (flow.silentEdges last).count first := by
      by_cases here : j = last
      · subst here
        have hcounted := hbelow.count_of_entered head List.mem_cons_self hend
        rw [hunknown, Nat.zero_add] at hcounted
        split at hcounted
        · exact .inr ⟨hbelow.entered_subset List.mem_cons_self, hcounted⟩
        · exact .inl hcounted
      · refine hihBelow (fun k hlisted => ?_) (by simp [Ne.symm here, hnew]) hunknown
        rcases List.mem_cons.1 hlisted with rfl | hlisted
        · exact List.mem_cons_self
        · exact List.mem_cons_of_mem j (honPath hlisted)
    by_cases hentered : last ∈ between.entered
    · have haway : path.head? ≠ some last := fun here => hnew (honPath (List.mem_of_head? here))
      have hsame := hothers.count_of_entered head hentered hend
      rw [if_neg (fun hclosing => haway hclosing.1), Nat.add_zero] at hsame
      rw [hsame]
      exact hbetween.imp_right fun hfound => ⟨hothers.entered_subset hentered, hfound.2⟩
    · have hnone : between.found.count cycle = 0 := hbetween.resolve_right fun h => hentered h.1
      exact hihOthers
        (fun k hlisted => hbelow.entered_subset (List.mem_cons_of_mem j (honPath hlisted)))
        hentered hnone

/-- The cycles are what the search from everywhere finds. -/
theorem exists_follows (flow : Flow) :
    ∃ search, flow.Follows [] (List.range flow.size) {} search ∧
      flow.cycles = search.found.reverse := by
  have hpath : flow.IsPath flow.size [] := ⟨List.nodup_nil, by simp, by simp⟩
  have hfollows := follows_follow hpath (fun j hinside => List.mem_range.1 hinside) {}
  rw [follow_nil_path] at hfollows
  exact ⟨_, hfollows, rfl⟩

/-- A cycle is listed once for every edge from its last step to its first. -/
theorem count_cycles (hlisted : cycle ∈ flow.cycles) (head : cycle.head? = some first)
    (hend : cycle.getLast? = some last) :
    flow.cycles.count cycle = (flow.silentEdges last).count first := by
  obtain ⟨search, hfollows, hcycles⟩ := exists_follows flow
  rw [hcycles, List.mem_reverse, ← List.count_pos_iff] at hlisted
  rw [hcycles, List.count_reverse]
  rcases hfollows.count_of_not_entered head hend (by simp) (by simp) (by simp) with hnone | hfound
  · omega
  · exact hfound.2

/-- A cycle is listed once, and twice if it closes twice. -/
theorem count_cycles_of_mem (hlisted : cycle ∈ flow.cycles) :
    flow.ClosesTwice cycle ∧ flow.cycles.count cycle = 2 ∨
      ¬ flow.ClosesTwice cycle ∧ flow.cycles.count cycle = 1 := by
  obtain ⟨search, hfollows, hcycles⟩ := exists_follows flow
  obtain ⟨first, head, -⟩ := (hfollows.isLoop List.nodup_nil .nil (by simp) (by simp) cycle
    (by simpa [hcycles] using hlisted)).closed
  have hnonempty : cycle ≠ [] := by
    rintro rfl
    cases head
  have hend := List.getLast?_eq_some_getLast hnonempty
  have hcounted := count_cycles hlisted head hend
  have hedge : first ∈ flow.silentEdges (cycle.getLast hnonempty) :=
    List.count_pos_iff.1 (hcounted ▸ List.count_pos_iff.2 hlisted)
  have hcloses : flow.ClosesTwice cycle ↔ flow.BranchesMeet (cycle.getLast hnonempty) first := by
    constructor
    · rintro ⟨first', last', head', hend', hmeet⟩
      obtain rfl : first = first' := Option.some.inj (head.symm.trans head')
      obtain rfl : cycle.getLast hnonempty = last' := Option.some.inj (hend.symm.trans hend')
      exact hmeet
    · exact fun hmeet => ⟨first, _, head, hend, hmeet⟩
  rw [hcloses, hcounted]
  exact count_silentEdges_of_mem hedge

end Count

/-! ## The texts of loops -/

open Json (NoDigit digits_toDigits takeWhile_digits noDigit_cons ofNumerals_toDigits)

theorem toDigits_append_inj {m n : Nat} {rest rest' : List Char} (hnext : NoDigit rest)
    (hnext' : NoDigit rest') (hsame : Nat.toDigits 10 m ++ rest = Nat.toDigits 10 n ++ rest') :
    m = n ∧ rest = rest' := by
  have hleft := takeWhile_digits (digits_toDigits m) hnext
  have hright := takeWhile_digits (digits_toDigits n) hnext'
  have hdigits : Nat.toDigits 10 m = Nat.toDigits 10 n := by rw [← hleft.1, ← hright.1, hsame]
  refine ⟨?_, by rw [← hleft.2, ← hright.2, hsame]⟩
  rw [← ofNumerals_toDigits m, hdigits, ofNumerals_toDigits]

/-- The step numbers of a cycle, as the text of a loop has them. -/
def stepNumbers (cycle : List Nat) : String :=
  String.intercalate ", " (cycle.map fun (i : Nat) => toString i)

/-- Step numbers are the digits of the first, and behind a comma the others. -/
theorem toList_stepNumbers_cons (i : Nat) (others : List Nat) :
    ∃ rest, (stepNumbers (i :: others)).toList = Nat.toDigits 10 i ++ rest ∧ NoDigit rest ∧
      (others = [] ∧ rest = [] ∨
        others ≠ [] ∧ rest = ',' :: ' ' :: (stepNumbers others).toList) := by
  cases others with
  | nil =>
    refine ⟨[], by simp [stepNumbers], fun c hstarts => ?_, .inl ⟨rfl, rfl⟩⟩
    cases hstarts
  | cons j others =>
    refine ⟨',' :: ' ' :: (stepNumbers (j :: others)).toList, ?_, noDigit_cons rfl,
      .inr ⟨List.cons_ne_nil j others, rfl⟩⟩
    simp [stepNumbers, String.intercalate_cons_cons]

theorem stepNumbers_injective : Function.Injective stepNumbers := by
  intro cycle
  induction cycle with
  | nil =>
    intro cycle' hsame
    cases cycle' with
    | nil => rfl
    | cons j others =>
      obtain ⟨rest, htext, -⟩ := toList_stepNumbers_cons j others
      rw [← hsame] at htext
      exact absurd (List.append_eq_nil_iff.1 htext.symm).1 Nat.toDigits_ne_nil
  | cons i others ih =>
    intro cycle' hsame
    obtain ⟨rest, htext, hnext, hends⟩ := toList_stepNumbers_cons i others
    cases cycle' with
    | nil =>
      rw [hsame] at htext
      exact absurd (List.append_eq_nil_iff.1 htext.symm).1 Nat.toDigits_ne_nil
    | cons j others' =>
      obtain ⟨rest', htext', hnext', hends'⟩ := toList_stepNumbers_cons j others'
      rw [hsame, htext'] at htext
      obtain ⟨rfl, rfl⟩ := toDigits_append_inj hnext' hnext htext
      rcases hends with ⟨rfl, rfl⟩ | ⟨-, hmore⟩ <;> rcases hends' with ⟨rfl, hnone⟩ | ⟨-, hmore'⟩
      · rfl
      · cases hmore'
      · exact absurd (hmore.symm.trans hnone) (by simp)
      · have hnumbers : (stepNumbers others).toList = (stepNumbers others').toList := by
          simpa using hmore.symm.trans hmore'
        rw [ih (String.toList_inj.1 hnumbers)]

theorem message_silentLoop (cycle : List Nat) :
    (Problem.silentLoop cycle).message = "condition steps [" ++ stepNumbers cycle ++
      "] form a loop with no message or terminal step" := rfl

theorem message_silentLoop_injective :
    Function.Injective fun cycle => (Problem.silentLoop cycle).message := by
  intro cycle cycle' hsame
  simp only [message_silentLoop, String.append_left_inj, String.append_right_inj] at hsame
  exact stepNumbers_injective hsame

/-! ## The texts of other problems -/

/-- The text of a problem tells the step where it lies, and what it tells of it starts with a
letter. -/
def Problem.Tells (problem : Problem) (i : Nat) (letter : Char) : Prop :=
  ∃ rest, problem.message.toList =
    "step[".toList ++ (Nat.toDigits 10 i ++ ']' :: ' ' :: letter :: rest)

theorem Problem.Tells.inj {problem problem' : Problem} {letter letter' : Char}
    (htells : problem.Tells i letter) (htells' : problem'.Tells j letter')
    (hsame : problem.message = problem'.message) : i = j ∧ letter = letter' := by
  obtain ⟨rest, htext⟩ := htells
  obtain ⟨rest', htext'⟩ := htells'
  rw [hsame, htext', List.append_cancel_left_eq] at htext
  obtain ⟨rfl, hothers⟩ := toDigits_append_inj (noDigit_cons rfl) (noDigit_cons rfl) htext
  simp only [List.cons.injEq, true_and] at hothers
  exact ⟨rfl, hothers.1.symm⟩

theorem tells_malformed (i : Nat) (reason : String) :
    (Problem.malformed i reason).Tells i 'i' := by
  refine ⟨("s malformed and will be skipped: " ++
    (if reason.isEmpty then "unknown type" else reason)).toList, ?_⟩
  change ("step[" ++ toString i ++ "] is malformed and will be skipped: " ++
    (if reason.isEmpty then "unknown type" else reason)).toList = _
  simp

theorem tells_of_mem_expressionProblem {expr : Option String} {problem : Problem}
    (hlisted : problem ∈ expressionProblem i expr) : problem.Tells i 'c' := by
  have hnoExpression : (Problem.noExpression i).Tells i 'c' := by
    refine ⟨"ondition has no expression; else branch always taken".toList, ?_⟩
    change ("step[" ++ toString i ++
      "] condition has no expression; else branch always taken").toList = _
    simp
  unfold expressionProblem at hlisted
  cases expr with
  | none => exact List.mem_singleton.1 hlisted ▸ hnoExpression
  | some e =>
    dsimp only at hlisted
    split at hlisted
    · exact List.mem_singleton.1 hlisted ▸ hnoExpression
    · split at hlisted
      · rw [List.mem_singleton.1 hlisted]
        refine ⟨("ondition '" ++ e ++ "' cannot be parsed; else branch always taken").toList, ?_⟩
        change ("step[" ++ toString i ++ "] condition '" ++ e ++
          "' cannot be parsed; else branch always taken").toList = _
        simp
      · exact absurd hlisted List.not_mem_nil

theorem tells_of_mem_targetProblem {label : String} {target : Option Int} {problem : Problem}
    {letter : Char} (hstarts : label.toList.head? = some letter)
    (hlisted : problem ∈ flow.targetProblem i label target) : problem.Tells i letter := by
  obtain ⟨rest, htext⟩ := List.head?_eq_some_iff.1 hstarts
  unfold targetProblem at hlisted
  cases target with
  | none => exact absurd hlisted List.not_mem_nil
  | some t =>
    dsimp only at hlisted
    split at hlisted
    · exact absurd hlisted List.not_mem_nil
    · rw [List.mem_singleton.1 hlisted]
      refine ⟨rest ++ ("=" ++ toString t ++ " is outside 0.." ++
        toString ((flow.size : Int) - 1)).toList, ?_⟩
      change ("step[" ++ toString i ++ "] " ++ label ++ "=" ++ toString t ++ " is outside 0.." ++
        toString ((flow.size : Int) - 1)).toList = _
      simp [htext]

/-- What the problems of an entry can be. -/
theorem entryProblems_cases (flow : Flow) (i : Nat) (e : Entry) :
    (∃ reason, flow.entryProblems i e = [.malformed i reason]) ∨
      flow.entryProblems i e = [] ∨
      ∃ expr thenTarget elseTarget, flow.entryProblems i e =
        expressionProblem i expr ++ flow.targetProblem i "thenStepIndex" thenTarget ++
          flow.targetProblem i "elseStepIndex" elseTarget := by
  unfold entryProblems
  split
  · exact .inl ⟨_, rfl⟩
  · split
    · exact .inr (.inr ⟨_, _, _, rfl⟩)
    · exact .inr (.inl rfl)

theorem exists_tells {e : Entry} {problem : Problem} (hlisted : problem ∈ flow.entryProblems i e) :
    ∃ letter, problem.Tells i letter := by
  rcases flow.entryProblems_cases i e with
    ⟨reason, honly⟩ | hnone | ⟨expr, thenTarget, elseTarget, hparts⟩
  · rw [honly] at hlisted
    exact ⟨'i', List.mem_singleton.1 hlisted ▸ tells_malformed i reason⟩
  · rw [hnone] at hlisted
    exact absurd hlisted List.not_mem_nil
  · rw [hparts, List.mem_append, List.mem_append] at hlisted
    rcases hlisted with (hlisted | hlisted) | hlisted
    · exact ⟨'c', tells_of_mem_expressionProblem hlisted⟩
    · exact ⟨'t', tells_of_mem_targetProblem rfl hlisted⟩
    · exact ⟨'e', tells_of_mem_targetProblem rfl hlisted⟩

/-- Texts of problems are distinct in two lists if they are in each, and differ between the two. -/
theorem nodup_message_append {problems problems' : List Problem}
    (hnodup : (problems.map Problem.message).Nodup)
    (hnodup' : (problems'.map Problem.message).Nodup)
    (hdiffer : ∀ problem ∈ problems, ∀ problem' ∈ problems', problem.message ≠ problem'.message) :
    ((problems ++ problems').map Problem.message).Nodup := by
  rw [List.map_append, List.nodup_append]
  refine ⟨hnodup, hnodup', ?_⟩
  rintro _ hlisted _ hlisted'
  obtain ⟨problem, here, rfl⟩ := List.mem_map.1 hlisted
  obtain ⟨problem', hthere, rfl⟩ := List.mem_map.1 hlisted'
  exact hdiffer problem here problem' hthere

theorem nodup_message_entryProblems (flow : Flow) (i : Nat) (e : Entry) :
    ((flow.entryProblems i e).map Problem.message).Nodup := by
  rcases flow.entryProblems_cases i e with
    ⟨reason, honly⟩ | hnone | ⟨expr, thenTarget, elseTarget, hparts⟩
  · rw [honly]
    exact List.pairwise_singleton _ _
  · rw [hnone]
    exact List.nodup_nil
  · have hexpression : ((expressionProblem i expr).map Problem.message).Nodup := by
      unfold expressionProblem
      repeat' split
      all_goals simp only [List.map_cons, List.map_nil, List.nodup_cons, List.not_mem_nil,
        not_false_eq_true, List.nodup_nil, and_self]
    have htarget (label : String) (t : Option Int) :
        ((flow.targetProblem i label t).map Problem.message).Nodup := by
      unfold targetProblem
      repeat' split
      all_goals simp only [List.map_cons, List.map_nil, List.nodup_cons, List.not_mem_nil,
        not_false_eq_true, List.nodup_nil, and_self]
    have hthenLetter : "thenStepIndex".toList.head? = some 't' := rfl
    have helseLetter : "elseStepIndex".toList.head? = some 'e' := rfl
    rw [hparts]
    refine nodup_message_append (nodup_message_append hexpression (htarget _ _) ?_) (htarget _ _) ?_
    · intro problem here problem' hthere hsame
      have hletters := (tells_of_mem_expressionProblem here).inj
        (tells_of_mem_targetProblem hthenLetter hthere) hsame
      exact absurd hletters.2 (by decide)
    · intro problem here problem' hthere hsame
      have htells' := tells_of_mem_targetProblem helseLetter hthere
      rcases List.mem_append.1 here with here | here
      · exact absurd ((tells_of_mem_expressionProblem here).inj htells' hsame).2 (by decide)
      · have htells := tells_of_mem_targetProblem hthenLetter here
        exact absurd (htells.inj htells' hsame).2 (by decide)

/-! ## All problems -/

/-- The problems that are no loops. -/
def otherProblems (flow : Flow) : List Problem :=
  (if flow.steps.isEmpty then [.noSteps] else []) ++
    flow.steps.zipIdx.flatMap fun (e, i) => flow.entryProblems i e

theorem problems_eq (flow : Flow) :
    flow.problems = flow.otherProblems ++ flow.cycles.map .silentLoop := rfl

theorem eq_noSteps_or_tells {problem : Problem} (hlisted : problem ∈ flow.otherProblems) :
    problem = .noSteps ∨ ∃ i letter, problem.Tells i letter := by
  rcases List.mem_append.1 hlisted with hlisted | hlisted
  · split at hlisted
    · exact .inl (List.mem_singleton.1 hlisted)
    · exact absurd hlisted List.not_mem_nil
  · obtain ⟨⟨e, i⟩, -, hlisted⟩ := List.mem_flatMap.1 hlisted
    exact .inr ⟨i, exists_tells hlisted⟩

theorem message_ne_silentLoop {problem : Problem} (hlisted : problem ∈ flow.otherProblems)
    (cycle : List Nat) : problem.message ≠ (Problem.silentLoop cycle).message := by
  intro hsame
  have hstarts : problem.message.toList.head? = some 'c' := by
    rw [hsame, message_silentLoop]
    simp
  rcases eq_noSteps_or_tells hlisted with rfl | ⟨i, letter, rest, htext⟩
  · exact absurd hstarts (by decide)
  · rw [htext] at hstarts
    exact absurd hstarts (by simp)

theorem nodup_message_otherProblems (flow : Flow) :
    (flow.otherProblems.map Problem.message).Nodup := by
  cases hempty : flow.steps with
  | nil => simp [otherProblems, hempty]
  | cons e rest =>
    have hothers : flow.otherProblems =
        flow.steps.zipIdx.flatMap fun (e, i) => flow.entryProblems i e := by
      simp [otherProblems, hempty]
    rw [hothers, List.map_flatMap, List.nodup_flatMap]
    refine ⟨fun place _ => flow.nodup_message_entryProblems place.2 place.1, ?_⟩
    have hplaces : flow.steps.zipIdx.Pairwise fun here there => here.2 ≠ there.2 :=
      List.pairwise_map.1 (List.nodup_zipIdx_map_snd flow.steps)
    refine hplaces.imp fun {here there} hapart message hlisted hlisted' => ?_
    obtain ⟨problem, hproblem, rfl⟩ := List.mem_map.1 hlisted
    obtain ⟨problem', hproblem', hsame⟩ := List.mem_map.1 hlisted'
    obtain ⟨letter, htells⟩ := exists_tells hproblem
    obtain ⟨letter', htells'⟩ := exists_tells hproblem'
    exact hapart (htells.inj htells' hsame.symm).1

theorem count_message_silentLoop (flow : Flow) (cycle : List Nat) :
    (flow.problems.map Problem.message).count (Problem.silentLoop cycle).message =
      flow.cycles.count cycle := by
  rw [problems_eq, List.map_append, List.count_append, List.map_map]
  have hapart : (flow.otherProblems.map Problem.message).count (Problem.silentLoop cycle).message =
      0 := by
    refine List.count_eq_zero.2 fun hlisted => ?_
    obtain ⟨problem, hproblem, hsame⟩ := List.mem_map.1 hlisted
    exact message_ne_silentLoop hproblem cycle hsame
  rw [hapart, Nat.zero_add]
  exact List.count_map_of_injective _ _ message_silentLoop_injective cycle

/-- A problem that is no loop is reported once. -/
theorem count_message_of_mem_otherProblems {problem : Problem}
    (hlisted : problem ∈ flow.otherProblems) :
    (flow.problems.map Problem.message).count problem.message = 1 := by
  rw [problems_eq, List.map_append, List.count_append,
    List.count_eq_one_of_mem flow.nodup_message_otherProblems (List.mem_map_of_mem hlisted)]
  refine Nat.add_eq_left.2 (List.count_eq_zero.2 fun hloop => ?_)
  obtain ⟨_, hsilent, hsame⟩ := List.mem_map.1 hloop
  obtain ⟨cycle, -, rfl⟩ := List.mem_map.1 hsilent
  exact message_ne_silentLoop hlisted cycle hsame.symm

theorem nodup_message_problems_iff (flow : Flow) :
    (flow.problems.map Problem.message).Nodup ↔ flow.cycles.Nodup := by
  constructor
  · intro hnodup
    refine List.nodup_iff_count_le_one.2 fun cycle => ?_
    rw [← count_message_silentLoop]
    exact List.nodup_iff_count_le_one.1 hnodup _
  · intro hnodup
    rw [problems_eq]
    refine nodup_message_append flow.nodup_message_otherProblems ?_ ?_
    · rw [List.map_map]
      exact hnodup.map message_silentLoop_injective
    · intro problem hother loop hlisted
      obtain ⟨cycle, -, rfl⟩ := List.mem_map.1 hlisted
      exact message_ne_silentLoop hother cycle

/-- Every problem is reported once, but a loop that closes twice is listed and reported twice: no
text is repeated exactly if no loop closes twice. -/
theorem reports_once_or_closes_twice (flow : Flow) :
    ((flow.problems.map Problem.message).Nodup ↔
      ∀ cycle ∈ flow.cycles, ¬ flow.ClosesTwice cycle) ∧
    (flow.cycles.Nodup ↔ ∀ cycle ∈ flow.cycles, ¬ flow.ClosesTwice cycle) ∧
    (∀ problem ∈ flow.problems,
      (flow.problems.map Problem.message).count problem.message = 1 ∨
        ∃ cycle, problem = .silentLoop cycle ∧ flow.ClosesTwice cycle) ∧
    ∀ cycle ∈ flow.cycles, flow.ClosesTwice cycle →
      flow.cycles.count cycle = 2 ∧
        (flow.problems.map Problem.message).count (Problem.silentLoop cycle).message = 2 := by
  have htwice : ∀ cycle ∈ flow.cycles, flow.ClosesTwice cycle → flow.cycles.count cycle = 2 :=
    fun cycle hlisted hcloses =>
      (count_cycles_of_mem hlisted).elim And.right fun honce => absurd hcloses honce.1
  have honce : ∀ problem ∈ flow.problems,
      (flow.problems.map Problem.message).count problem.message = 1 ∨
        ∃ cycle, problem = .silentLoop cycle ∧ flow.ClosesTwice cycle := by
    intro problem hlisted
    rcases List.mem_append.1 hlisted with hother | hloop
    · exact .inl (count_message_of_mem_otherProblems hother)
    · obtain ⟨cycle, hcycle, rfl⟩ := List.mem_map.1 hloop
      rw [count_message_silentLoop]
      rcases count_cycles_of_mem hcycle with ⟨hcloses, -⟩ | ⟨-, hsingle⟩
      · exact .inr ⟨cycle, rfl, hcloses⟩
      · exact .inl hsingle
  have hcyclesNodup : flow.cycles.Nodup ↔ ∀ cycle ∈ flow.cycles, ¬ flow.ClosesTwice cycle := by
    rw [List.nodup_iff_count_eq_one]
    refine forall₂_congr fun cycle hlisted => ?_
    rcases count_cycles_of_mem hlisted with ⟨hcloses, hcount⟩ | ⟨hcloses, hcount⟩
    · simp [hcloses, hcount]
    · simp [hcloses, hcount]
  refine ⟨?_, hcyclesNodup, honce, fun cycle hlisted hcloses => ⟨htwice cycle hlisted hcloses, ?_⟩⟩
  · rw [← hcyclesNodup, nodup_message_problems_iff]
  · rw [count_message_silentLoop]
    exact htwice cycle hlisted hcloses

/-- A flow of one condition that leads back to itself, whichever branch it takes. -/
def knot : Flow where
  id := "f"
  name := "f"
  createdAt := ""
  steps := [.step { id := "s", action := .condition (some "a == 1") (some 0) (some 0) }]

/-- The one loop of a condition that always leads back to itself is listed and reported twice. -/
theorem knot_reported_twice :
    knot.cycles = [[0], [0]] ∧ ¬ (knot.problems.map Problem.message).Nodup := by
  have hedges : knot.silentEdges 0 = [0, 0] := by decide
  have hsize : knot.size = 1 := rfl
  have hcycles : knot.cycles = [[0], [0]] := by
    simp [Flow.cycles, hsize, visit, follow, hedges, pathFrom]
  refine ⟨hcycles, fun hnodup => ?_⟩
  rw [problems_eq, hcycles, List.map_append, List.nodup_append] at hnodup
  exact absurd hnodup.2.1 (by simp)

end Dialogue.Flow

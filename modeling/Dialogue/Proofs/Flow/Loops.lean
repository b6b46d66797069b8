import Dialogue.Proofs.Engine.Walk
import Dialogue.Proofs.Flow.Cycles
import Mathlib.Data.List.Chain

/-!
# What the search for cycles finds

The steps of a flow form a graph (`Flow.Leads`): malformed data leads to the next step, a condition
to the targets of its branches, and no other step leads anywhere.  `Flow.cycles` lists loops of this
graph, and it lists some if there are any (`Flow.finds_loops`).

The search is told here without its bound on the depth (`Flow.Follows`), by finite derivations.
Each search has exactly one, so the search ends by itself and the bound is never met
(`Flow.follows_follow`, `Flow.Follows.unique`).  What it finds is an end of its path, and the edge
that closes it leads back to where this end begins (`Flow.isLoop_pathFrom`).
-/

namespace Dialogue.Flow

/-! ## The graph of silent steps -/

/-- A step leads to another one without anything being said: malformed data to the next step, a
condition to where one of its branches lands.  What would lie outside of the flow is left out. -/
inductive Leads (flow : Flow) : Nat → Nat → Prop where
  | malformed {i : Nat} {raw : Value} {reason : String}
      (entry : flow.steps[i]? = some (.malformed raw reason)) (inside : i + 1 < flow.size) :
      Leads flow i (i + 1)
  | branch {i j : Nat} {s : Step} {expr : Option String} {thenTarget elseTarget taken : Option Int}
      (entry : flow.steps[i]? = some (.step s))
      (condition : s.action = .condition expr thenTarget elseTarget)
      (branches : taken = thenTarget ∨ taken = elseTarget) (lands : Turn.landing i taken = j)
      (inside : j < flow.size) : Leads flow i j

/-- What stands at a step number is malformed data or a condition. -/
def IsSilent (flow : Flow) (i : Nat) : Prop :=
  (∃ raw reason, flow.steps[i]? = some (.malformed raw reason)) ∨
    ∃ s expr thenTarget elseTarget, flow.steps[i]? = some (.step s) ∧
      s.action = .condition expr thenTarget elseTarget

/-- A loop: different silent steps, each of which leads to the next one, and the last to the
first. -/
structure IsLoop (flow : Flow) (cycle : List Nat) : Prop where
  distinct : cycle.Nodup
  silent : ∀ i ∈ cycle, i < flow.size ∧ flow.IsSilent i
  closed : ∃ first, cycle.head? = some first ∧ (cycle ++ [first]).IsChain flow.Leads

variable {flow : Flow} {i j : Nat}

theorem branch_eq_landing (index : Nat) (target : Option Int) :
    branch index target = Turn.landing index target :=
  Turn.nextIndex_eq_landing index target

theorem mem_silentEdges_iff :
    j ∈ flow.silentEdges i ↔ (j : Int) ∈ flow.silentSuccessors i ∧ j < flow.size := by
  simp only [silentEdges, List.mem_filterMap, Option.ite_none_right_eq_some, Option.some.injEq,
    inRange, Bool.and_eq_true, decide_eq_true_eq]
  constructor
  · rintro ⟨k, hlisted, hinside, rfl⟩
    rw [Int.toNat_of_nonneg hinside.1]
    exact ⟨hlisted, by omega⟩
  · rintro ⟨hlisted, hinside⟩
    exact ⟨j, hlisted, by omega, rfl⟩

theorem after_iff_leads : flow.After j i ↔ flow.Leads i j := by
  rw [After, mem_silentEdges_iff]
  constructor
  · rintro ⟨hlisted, hinside⟩
    unfold silentSuccessors at hlisted
    split at hlisted
    · rename_i raw reason hentry
      obtain rfl : j = i + 1 := by
        have := List.mem_singleton.1 hlisted
        omega
      exact .malformed hentry hinside
    · rename_i s hentry
      split at hlisted
      · rename_i expr thenTarget elseTarget hcondition
        simp only [branch_eq_landing, List.mem_cons, List.not_mem_nil, or_false] at hlisted
        rcases hlisted with hlands | hlands
        · exact .branch hentry hcondition (.inl rfl) hlands.symm hinside
        · exact .branch hentry hcondition (.inr rfl) hlands.symm hinside
      · cases hlisted
    · cases hlisted
  · intro hleads
    cases hleads with
    | malformed hentry hinside => exact ⟨by simp [silentSuccessors, hentry], hinside⟩
    | branch hentry hcondition hbranches hlands hinside =>
      refine ⟨?_, hinside⟩
      simp only [silentSuccessors, hentry, hcondition, branch_eq_landing, List.mem_cons,
        List.not_mem_nil, or_false, ← hlands]
      exact hbranches.imp (congrArg _) (congrArg _)

/-- Only silent steps lead anywhere. -/
theorem Leads.isSilent (hleads : flow.Leads i j) : i < flow.size ∧ flow.IsSilent i := by
  have hlisted {e : Entry} (hentry : flow.steps[i]? = some e) : i < flow.size :=
    (List.getElem?_eq_some_iff.1 hentry).1
  cases hleads with
  | malformed hentry hinside => exact ⟨hlisted hentry, .inl ⟨_, _, hentry⟩⟩
  | branch hentry hcondition hbranches hlands hinside =>
    exact ⟨hlisted hentry, .inr ⟨_, _, _, _, hentry, hcondition⟩⟩

theorem exists_leads_of_isChain {cycle : List Nat} {last : Nat}
    (hchain : (cycle ++ [last]).IsChain flow.Leads) (hlisted : i ∈ cycle) :
      ∃ j, flow.Leads i j := by
  obtain ⟨before, after, rfl⟩ := List.append_of_mem hlisted
  have hrest : (i :: (after ++ [last])).IsChain flow.Leads :=
    hchain.infix ⟨before, [], by simp⟩
  cases after with
  | nil => exact ⟨last, (List.isChain_cons.1 hrest).1 last rfl⟩
  | cons j after => exact ⟨j, (List.isChain_cons.1 hrest).1 j rfl⟩

theorem IsLoop.exists_comesBack {cycle : List Nat} (hloop : flow.IsLoop cycle) :
    ∃ i, Relation.TransGen flow.Leads i i := by
  obtain ⟨first, head, hchain⟩ := hloop.closed
  cases cycle with
  | nil => cases head
  | cons i rest =>
    obtain rfl : i = first := Option.some.inj head
    obtain ⟨hnext, hlast⟩ := List.isChain_cons.1 hchain
    cases rest with
    | nil => exact ⟨i, .single (hnext i rfl)⟩
    | cons j rest =>
      refine ⟨i, .head' (hnext j rfl) ?_⟩
      exact List.relationReflTransGen_of_exists_isChain_cons (rest ++ [i]) hlast (by simp)

/-! ## The search without a bound -/

/-- Follows edges from the latest step of a path, with what the search knows before and after it: an
edge back to a step of the path closes a cycle, one to a step that was entered is left, and any
other step is entered below the path. -/
inductive Follows (flow : Flow) : List Nat → List Nat → Search → Search → Prop where
  | done (path : List Nat) (search : Search) : Follows flow path [] search search
  | closes {path rest : List Nat} {j : Nat} {search after : Search} (onPath : j ∈ path)
      (others : Follows flow path rest { search with found := pathFrom path j :: search.found }
        after) : Follows flow path (j :: rest) search after
  | known {path rest : List Nat} {j : Nat} {search after : Search} (fresh : j ∉ path)
      (entered : j ∈ search.entered) (others : Follows flow path rest search after) :
      Follows flow path (j :: rest) search after
  | enters {path rest : List Nat} {j : Nat} {search between after : Search} (fresh : j ∉ path)
      (new : j ∉ search.entered)
      (below : Follows flow (j :: path) (flow.silentEdges j)
        { search with entered := j :: search.entered } between)
      (others : Follows flow path rest between after) : Follows flow path (j :: rest) search after

variable {fuel : Nat} {path edges : List Nat} {search after : Search}

theorem Follows.unique {after' : Search} (hfollows : flow.Follows path edges search after)
    (hfollows' : flow.Follows path edges search after') : after = after' := by
  induction hfollows generalizing after' with
  | done => cases hfollows'; rfl
  | closes honPath hothers ih =>
    cases hfollows' with
    | closes _ hothers' => exact ih hothers'
    | known hfresh => exact absurd honPath hfresh
    | enters hfresh => exact absurd honPath hfresh
  | known hfresh hentered hothers ih =>
    cases hfollows' with
    | closes honPath => exact absurd honPath hfresh
    | known _ _ hothers' => exact ih hothers'
    | enters _ hnew => exact absurd hentered hnew
  | enters hfresh hnew hbelow hothers hihBelow hihOthers =>
    cases hfollows' with
    | closes honPath => exact absurd honPath hfresh
    | known _ hentered => exact absurd hentered hnew
    | enters _ _ hbelow' hothers' =>
      obtain rfl := hihBelow hbelow'
      exact hihOthers hothers'

/-- Following edges is following them without a bound, if entering steps is. -/
theorem follows_of_visits
    (hvisits : ∀ j search, j ∉ path → j < flow.size →
      flow.Follows (j :: path) (flow.silentEdges j)
        { search with entered := j :: search.entered } (visit flow fuel path j search))
    (hinside : ∀ j ∈ edges, j < flow.size) (search : Search) :
    flow.Follows path edges search (follow flow fuel path edges search) := by
  induction edges generalizing search with
  | nil =>
    rw [follow]
    exact .done path search
  | cons j rest ih =>
    obtain ⟨hfirst, hothers⟩ := List.forall_mem_cons.1 hinside
    rw [follow_cons, probe]
    by_cases hcloses : path.contains j = true
    · rw [if_pos hcloses]
      exact .closes (by simpa using hcloses) (ih hothers _)
    · have hfresh : j ∉ path := by simpa using hcloses
      rw [if_neg hcloses]
      by_cases hknown : search.entered.contains j = true
      · rw [if_pos hknown]
        exact .known hfresh (by simpa using hknown) (ih hothers _)
      · rw [if_neg hknown]
        exact .enters hfresh (by simpa using hknown) (hvisits j search hfresh hfirst) (ih hothers _)

/-- The bound on the depth is never met. -/
theorem follows_follow (hpath : flow.IsPath fuel path) (hinside : ∀ j ∈ edges, j < flow.size)
    (search : Search) : flow.Follows path edges search (follow flow fuel path edges search) := by
  induction fuel generalizing path edges search with
  | zero =>
    refine follows_of_visits (fun j _ hfresh hj => ?_) hinside search
    exact absurd (hpath.mem_of_spent hj) hfresh
  | succ fuel ih =>
    refine follows_of_visits (fun j search hfresh hj => ?_) hinside search
    rw [visit]
    exact ih (hpath.cons hfresh hj) (fun k hafter => After.lt_size hafter) _

theorem follow_nil_path (edges : List Nat) (search : Search) :
    follow flow flow.size [] edges search = edges.foldl (enter flow) search := by
  induction edges generalizing search with
  | nil => rw [follow, List.foldl_nil]
  | cons j rest ih =>
    rw [follow_cons, ih, List.foldl_cons]
    rfl

/-! ## What is found -/

/-- The end of a path that an edge leads back to is a loop. -/
theorem isLoop_pathFrom (hnodup : path.Nodup) (hchain : path.IsChain flow.After)
    (honPath : j ∈ path)
    (hedge : ∀ i ∈ path.head?, flow.After j i) : flow.IsLoop (pathFrom path j) := by
  have hpiece : path.takeWhile (· != j) ++ [j] <+: path := by
    obtain ⟨before, rest, hsplit, haway⟩ := List.eq_append_cons_of_mem honPath
    have hkept : path.takeWhile (· != j) = before := by
      rw [hsplit, List.takeWhile_append_of_pos (by grind)]
      simp
    rw [hkept]
    exact ⟨rest, by rw [hsplit]; simp⟩
  have hwhole : (j :: path).IsChain flow.After := List.isChain_cons.2 ⟨hedge, hchain⟩
  have hloop : (pathFrom path j ++ [j]).IsChain flow.Leads := by
    rw [pathFrom, ← List.reverse_cons, List.isChain_reverse]
    refine List.IsChain.imp (fun a b hafter => after_iff_leads.1 hafter) ?_
    exact List.IsChain.prefix hwhole ((List.prefix_cons_inj j).2 hpiece)
  refine ⟨?_, fun i hlisted => ?_, j, by simp [pathFrom], hloop⟩
  · exact List.pairwise_reverse.2 ((hnodup.sublist hpiece.sublist).imp fun hother => hother.symm)
  · obtain ⟨k, hleads⟩ := exists_leads_of_isChain hloop hlisted
    exact hleads.isSilent

/-- Whatever is found while a path is searched is a loop, if all was that was found before. -/
theorem Follows.isLoop (hfollows : flow.Follows path edges search after) (hnodup : path.Nodup)
    (hchain : path.IsChain flow.After) (hends : ∀ j ∈ edges, ∀ i ∈ path.head?, flow.After j i)
    (hloops : ∀ cycle ∈ search.found, flow.IsLoop cycle) :
    ∀ cycle ∈ after.found, flow.IsLoop cycle := by
  induction hfollows with
  | done => exact hloops
  | closes honPath hothers ih =>
    obtain ⟨hfirst, hrest⟩ := List.forall_mem_cons.1 hends
    exact ih hnodup hchain hrest
      (List.forall_mem_cons.2 ⟨isLoop_pathFrom hnodup hchain honPath hfirst, hloops⟩)
  | known hfresh hentered hothers ih =>
    exact ih hnodup hchain (List.forall_mem_cons.1 hends).2 hloops
  | enters hfresh hnew hbelow hothers hihBelow hihOthers =>
    obtain ⟨hfirst, hrest⟩ := List.forall_mem_cons.1 hends
    have hbetween := hihBelow (List.nodup_cons.2 ⟨hfresh, hnodup⟩)
      (List.isChain_cons.2 ⟨hfirst, hchain⟩)
      (by rintro k hedge _ ⟨⟩; exact hedge) hloops
    exact hihOthers hnodup hchain hrest hbetween

/-- The search ends by itself, and `Flow.cycles` is what it has found then, in order.  It has found
nothing exactly if no step leads back to itself, and all that it has found are loops. -/
theorem finds_loops (flow : Flow) :
    (∃ search, flow.Follows [] (List.range flow.size) {} search ∧
      flow.cycles = search.found.reverse ∧
      ∀ search', flow.Follows [] (List.range flow.size) {} search' → search' = search) ∧
    (flow.cycles = [] ↔ ∀ i, ¬ Relation.TransGen flow.Leads i i) ∧
    ∀ cycle ∈ flow.cycles, flow.IsLoop cycle := by
  have hinside : ∀ j ∈ List.range flow.size, j < flow.size := fun j hlisted =>
    List.mem_range.1 hlisted
  have hpath : flow.IsPath flow.size [] := ⟨List.nodup_nil, by simp, by simp⟩
  have hfollows := follows_follow hpath hinside {}
  have hcycles :
      flow.cycles = (follow flow flow.size [] (List.range flow.size) {}).found.reverse := by
    rw [follow_nil_path]
    rfl
  have hloops : ∀ cycle ∈ flow.cycles, flow.IsLoop cycle := by
    intro cycle hlisted
    rw [hcycles, List.mem_reverse] at hlisted
    exact hfollows.isLoop List.nodup_nil .nil (by simp) (by simp) cycle hlisted
  refine ⟨⟨_, hfollows, hcycles, fun _ hfollows' => hfollows'.unique hfollows⟩, ⟨?_, ?_⟩, hloops⟩
  · intro hclean i hback
    have hafter : Relation.TransGen flow.After i i := by
      refine Relation.transGen_swap.1 ?_
      exact Relation.TransGen.mono (fun _ _ hleads => after_iff_leads.2 hleads) _ _ hback
    obtain ⟨k, hleads, -⟩ := Relation.TransGen.head'_iff.1 hback
    exact not_comesBack (quiet_of_cycles_eq_nil hclean hleads.isSilent.1) hafter
  · intro hacyclic
    refine List.eq_nil_iff_forall_not_mem.2 fun cycle hlisted => ?_
    obtain ⟨i, hback⟩ := (hloops cycle hlisted).exists_comesBack
    exact hacyclic i hback

end Dialogue.Flow

import Dialogue.Flow.Check

/-!
# The search for cycles is complete

`Flow.cycles` is a depth-first search.  Where it finds nothing, no step leads back to itself without
anything being said: every step is accessible under the relation of following silently.

The search carries the path to the step where it is.  All steps of the path are entered, and every
other step that is entered is accessible already (`Search.Sound`).  Since nothing is on a path
twice, the bound on the depth is never met (`IsPath.mem_of_spent`).

## Main statements

* `sound_visit`, `sound_follow`: what one step of the search preserves.
* `quiet_of_cycles_eq_nil`: a search without a finding proves every step accessible.
* `not_comesBack`: an accessible step does not lead back to itself.
-/

namespace Dialogue.Flow

/-- A step comes silently after another. -/
def After (flow : Flow) (j i : Nat) : Prop := j ∈ flow.silentEdges i

/-- No endless silent way starts at the step. -/
def Quiet (flow : Flow) (i : Nat) : Prop := Acc flow.After i

/-- A quiet step does not lead back to itself. -/
theorem not_comesBack {flow : Flow} {i : Nat} (hquiet : flow.Quiet i) :
    ¬ Relation.TransGen flow.After i i := by
  have hfar : Acc (Relation.TransGen flow.After) i := hquiet.transGen
  induction hfar with
  | intro x _ ih => exact fun hback => ih x hback (hquiet.inv_of_transGen hback) hback

theorem After.lt_size {flow : Flow} {i j : Nat} (hafter : flow.After j i) : j < flow.size := by
  simp only [After, silentEdges, List.mem_filterMap] at hafter
  obtain ⟨k, -, hk⟩ := hafter
  split at hk
  · rename_i hinside
    simp only [inRange, Bool.and_eq_true, decide_eq_true_eq] at hinside
    simp only [Option.some.injEq] at hk
    omega
  · exact absurd hk (by simp)

theorem mem_of_length_eq {path : List Nat} {n : Nat} (hnodup : path.Nodup)
    (hbelow : ∀ j ∈ path, j < n) (hfull : path.length = n) {i : Nat} (hi : i < n) : i ∈ path := by
  refine Decidable.by_contra fun hfresh => ?_
  have hlonger : (i :: path).Nodup := List.nodup_cons.2 ⟨hfresh, hnodup⟩
  have hinside : (i :: path) ⊆ List.range n := by
    intro j hj
    rcases List.mem_cons.1 hj with rfl | hj
    · exact List.mem_range.2 hi
    · exact List.mem_range.2 (hbelow j hj)
  have hbound := hlonger.length_le_of_subset hinside
  simp only [List.length_cons, List.length_range] at hbound
  omega

/-- The path of a search: steps of the flow without repetition, as many as the depth that is used
up. -/
structure IsPath (flow : Flow) (fuel : Nat) (path : List Nat) : Prop where
  nodup : path.Nodup
  below : ∀ j ∈ path, j < flow.size
  spent : fuel + path.length = flow.size

/-- What a search knows: the path is entered, and what is entered besides is quiet. -/
structure Search.Sound (flow : Flow) (path : List Nat) (search : Search) : Prop where
  onPath : ∀ j ∈ path, j ∈ search.entered
  quiet : ∀ j ∈ search.entered, j ∉ path → flow.Quiet j

namespace IsPath

variable {flow : Flow} {fuel : Nat} {path : List Nat}

theorem mem_of_spent (hpath : flow.IsPath 0 path) {i : Nat} (hi : i < flow.size) : i ∈ path :=
  mem_of_length_eq hpath.nodup hpath.below (by simpa using hpath.spent) hi

/-- A path goes on to a step that is not on it. -/
theorem cons (hpath : flow.IsPath (fuel + 1) path) {i : Nat} (hfresh : i ∉ path)
    (hi : i < flow.size) : flow.IsPath fuel (i :: path) where
  nodup := List.nodup_cons.2 ⟨hfresh, hpath.nodup⟩
  below := by
    intro j hj
    rcases List.mem_cons.1 hj with rfl | hj
    · exact hi
    · exact hpath.below j hj
  spent := by
    have := hpath.spent
    simp only [List.length_cons]
    omega

end IsPath

/-! ## One edge of the search -/

/-- Looks at one edge from the latest step of a path. -/
def probe (flow : Flow) (fuel : Nat) (path : List Nat) (j : Nat) (search : Search) : Search :=
  if path.contains j then { search with found := pathFrom path j :: search.found }
  else if search.entered.contains j then search
  else visit flow fuel path j search

theorem follow_cons (flow : Flow) (fuel : Nat) (path : List Nat) (j : Nat) (rest : List Nat)
    (search : Search) :
    follow flow fuel path (j :: rest) search =
      follow flow fuel path rest (probe flow fuel path j search) := by
  rw [follow]
  rfl

variable {flow : Flow} {fuel : Nat}

/-- What is found stays found along edges. -/
theorem found_follow
    (hvisits : ∀ path i search, search.found <:+ (visit flow fuel path i search).found)
    (path edges : List Nat) (search : Search) :
    search.found <:+ (follow flow fuel path edges search).found := by
  induction edges generalizing search with
  | nil =>
    rewrite [follow]
    exact List.suffix_rfl
  | cons j rest ih =>
    rw [follow_cons]
    refine .trans ?_ (ih _)
    unfold probe
    split
    · exact List.suffix_cons _ _
    · split
      · exact List.suffix_rfl
      · exact hvisits path j search

theorem found_visit (flow : Flow) (fuel : Nat) (path : List Nat) (i : Nat) (search : Search) :
    search.found <:+ (visit flow fuel path i search).found := by
  induction fuel generalizing path i search with
  | zero =>
    rewrite [visit]
    exact List.suffix_rfl
  | succ fuel ih =>
    rw [visit]
    exact found_follow ih (i :: path) _ { search with entered := i :: search.entered }

theorem found_eq_nil_of_follow {path edges : List Nat} {search : Search}
    (hclean : (follow flow fuel path edges search).found = []) : search.found = [] :=
  List.suffix_nil.1 (hclean ▸ found_follow (found_visit flow fuel) path edges search)

/-! ## A search without a finding -/

/-- Following edges keeps a search sound and proves their ends quiet, if entering steps does. -/
theorem sound_follow {path : List Nat}
    (hvisits : ∀ i search, i ∉ path → i < flow.size → search.Sound flow path →
      (visit flow fuel path i search).found = [] →
        (visit flow fuel path i search).Sound flow path ∧ flow.Quiet i)
    {edges : List Nat} {search : Search} (hinside : ∀ j ∈ edges, j < flow.size)
    (hsound : search.Sound flow path) (hclean : (follow flow fuel path edges search).found = []) :
    (follow flow fuel path edges search).Sound flow path ∧ ∀ j ∈ edges, flow.Quiet j := by
  induction edges generalizing search with
  | nil =>
    rw [follow]
    exact ⟨hsound, by simp⟩
  | cons j rest ih =>
    rw [follow_cons] at hclean ⊢
    have hfound := found_eq_nil_of_follow hclean
    obtain ⟨hprobed, hquiet⟩ :
        (probe flow fuel path j search).Sound flow path ∧ flow.Quiet j := by
      unfold probe at hfound ⊢
      by_cases hcloses : path.contains j = true
      · rw [if_pos hcloses] at hfound
        exact absurd hfound (List.cons_ne_nil _ _)
      · have hfresh : j ∉ path := by simpa using hcloses
        rw [if_neg hcloses] at hfound ⊢
        by_cases hknown : search.entered.contains j = true
        · rw [if_pos hknown]
          exact ⟨hsound, hsound.quiet j (by simpa using hknown) hfresh⟩
        · rw [if_neg hknown] at hfound ⊢
          exact hvisits j search hfresh (hinside j List.mem_cons_self) hsound hfound
    obtain ⟨hstill, hothers⟩ := ih (fun k hk => hinside k (List.mem_cons_of_mem j hk)) hprobed
      hclean
    refine ⟨hstill, fun k hk => ?_⟩
    rcases List.mem_cons.1 hk with rfl | hk
    · exact hquiet
    · exact hothers k hk

/-- Entering a step keeps a search sound and proves the step quiet. -/
theorem sound_visit {path : List Nat} (hpath : flow.IsPath fuel path) {i : Nat} (hfresh : i ∉ path)
    (hi : i < flow.size) {search : Search} (hsound : search.Sound flow path)
    (hclean : (visit flow fuel path i search).found = []) :
    (visit flow fuel path i search).Sound flow path ∧ flow.Quiet i := by
  induction fuel generalizing path i search with
  | zero => exact absurd (hpath.mem_of_spent hi) hfresh
  | succ fuel ih =>
    rw [visit] at hclean ⊢
    have hentered : Search.Sound flow (i :: path) { search with entered := i :: search.entered } :=
      { onPath := by
          intro j hj
          rcases List.mem_cons.1 hj with rfl | hj
          · exact List.mem_cons_self
          · exact List.mem_cons_of_mem i (hsound.onPath j hj)
        quiet := by
          intro j hj haway
          rcases List.mem_cons.1 hj with rfl | hj
          · exact absurd List.mem_cons_self haway
          · exact hsound.quiet j hj fun honPath => haway (List.mem_cons_of_mem i honPath) }
    obtain ⟨hbelow, hends⟩ := sound_follow
      (fun j search hj hlt => ih (hpath.cons hfresh hi) hj hlt)
      (fun j hj => After.lt_size hj) hentered hclean
    have hquiet : flow.Quiet i := .intro i hends
    refine ⟨⟨fun j hj => hbelow.onPath j (List.mem_cons_of_mem i hj), fun j hj haway => ?_⟩, hquiet⟩
    by_cases hsame : j = i
    · exact hsame ▸ hquiet
    · exact hbelow.quiet j hj fun honPath => by
        rcases List.mem_cons.1 honPath with h | h
        · exact hsame h
        · exact haway h

/-- Enters a step from outside, unless it is entered. -/
def enter (flow : Flow) (search : Search) (i : Nat) : Search :=
  if search.entered.contains i then search else visit flow flow.size [] i search

theorem found_enter (flow : Flow) (search : Search) (i : Nat) :
    search.found <:+ (enter flow search i).found := by
  unfold enter
  split
  · exact List.suffix_rfl
  · exact found_visit flow flow.size [] i search

/-- A sweep over steps that finds nothing proves them quiet. -/
theorem quiet_of_sweep {steps : List Nat} {search : Search} (hinside : ∀ i ∈ steps, i < flow.size)
    (hsound : search.Sound flow []) (hclean : (steps.foldl (enter flow) search).found = []) :
    ∀ i ∈ steps, flow.Quiet i := by
  induction steps generalizing search with
  | nil => simp
  | cons i rest ih =>
    have hfound : (enter flow search i).found = [] := by
      have hgrows : ∀ (steps : List Nat) (search : Search),
          search.found <:+ (steps.foldl (enter flow) search).found := by
        intro steps
        induction steps with
        | nil => exact fun _ => List.suffix_rfl
        | cons i rest ih => exact fun search => (found_enter flow search i).trans (ih _)
      exact List.suffix_nil.1 (hclean ▸ hgrows rest (enter flow search i))
    obtain ⟨hentered, hquiet⟩ : (enter flow search i).Sound flow [] ∧ flow.Quiet i := by
      unfold enter at hfound ⊢
      by_cases hknown : search.entered.contains i = true
      · rw [if_pos hknown]
        exact ⟨hsound, hsound.quiet i (by simpa using hknown) (by simp)⟩
      · rw [if_neg hknown] at hfound ⊢
        exact sound_visit ⟨List.nodup_nil, by simp, by simp⟩ (by simp)
          (hinside i List.mem_cons_self) hsound hfound
    intro k hk
    rcases List.mem_cons.1 hk with rfl | hk
    · exact hquiet
    · exact ih (fun k hk => hinside k (List.mem_cons_of_mem i hk)) hentered hclean k hk

/-- In a flow without cycles every step is quiet. -/
theorem quiet_of_cycles_eq_nil (hclean : flow.cycles = []) {i : Nat} (hi : i < flow.size) :
    flow.Quiet i := by
  have hfound : ((List.range flow.size).foldl (enter flow) {}).found = [] :=
    List.reverse_eq_nil_iff.1 hclean
  exact quiet_of_sweep (fun i hi => List.mem_range.1 hi) ⟨by simp, by simp⟩ hfound i
    (List.mem_range.2 hi)

end Dialogue.Flow

import Dialogue.Proofs.Engine.Reference

/-!
# The walk follows the silent path

`Turn.walk` goes step by step and `Turn.Told` speaks of whole paths.  They agree: along a silent
path the walk stores the conversation once for every condition (`walk_of_path`), what it comes to is
what is told of it (`told_walk`), and whatever is told of it is what it comes to (`walk_of_told`).
-/

namespace Dialogue.Turn

/-- The conversations that a turn stores, in order. -/
def saved (effects : List Effect) : List Conversation :=
  effects.filterMap fun
    | .save c => some c
    | .log _ => none

/-- The events that a turn logs, in order. -/
def logged (effects : List Effect) : List Event :=
  effects.filterMap fun
    | .save _ => none
    | .log e => some e

@[simp] theorem saved_nil : saved [] = [] := rfl

@[simp] theorem saved_save (c : Conversation) (effects : List Effect) :
    saved (.save c :: effects) = c :: saved effects := rfl

@[simp] theorem saved_log (e : Event) (effects : List Effect) :
    saved (.log e :: effects) = saved effects := rfl

@[simp] theorem saved_append (xs ys : List Effect) : saved (xs ++ ys) = saved xs ++ saved ys :=
  List.filterMap_append

@[simp] theorem saved_unreadableEvents (expr : Option String) :
    saved (unreadableEvents expr) = [] := by
  unfold unreadableEvents
  split <;> rfl

theorem holds_eq_true_iff (expr : Option String) (text : String) (c : Conversation) :
    holds expr (conditionData text c) = true ↔ Favours text c.data expr := by
  cases expr with
  | none => simp [holds, Favours]
  | some e =>
    cases h : Condition.parse? e <;>
      simp [holds, Favours, conditionData, lastField, h]

theorem nextIndex_eq_landing (index : Int) (target : Option Int) :
    nextIndex index target = landing index target := by
  cases target with
  | none => rfl
  | some t =>
    by_cases h : t < 0
    · have houtside : ¬ 0 ≤ t := by omega
      simp [nextIndex, Step.target?, Option.filter, landing, h, houtside]
    · have hinside : 0 ≤ t := by omega
      simp [nextIndex, Step.target?, Option.filter, landing, h, hinside]

theorem rendered_eq (text : Option String) (data : Fields) :
    rendered text data = (text.filter (· ≠ "")).map fun t => Template.render t data := by
  cases text with
  | none => rfl
  | some t => by_cases hempty : t = "" <;> simp [rendered, Option.filter, hempty]

/-! ## One step of the walk -/

variable {ctx : Context} {flow : Flow}

theorem walk_outside {budget : Nat} {c : Conversation} (hnothing : flow.entry? c.stepIndex = none) :
    walk ctx flow budget c = emit ctx c .noop none := by
  rw [walk.eq_def]
  split <;> simp_all

theorem walk_malformed {budget : Nat} {c : Conversation} {raw : Value} {reason : String}
    (hmalformed : flow.entry? c.stepIndex = some (.malformed raw reason)) :
    walk ctx flow budget c =
      (.log (.stepSkipped c.flow c.stepIndex) ::
          (walk ctx flow budget (c.moved (c.stepIndex + 1))).1,
        (walk ctx flow budget (c.moved (c.stepIndex + 1))).2) := by
  conv => lhs; rw [walk.eq_def]
  split
  · simp_all
  · rfl
  · simp_all

theorem walk_condition_zero {c : Conversation} {expr : Option String}
    {thenTarget elseTarget : Option Int}
    (hcondition : IsCondition flow c.stepIndex expr thenTarget elseTarget) :
    walk ctx flow 0 c =
      ([.log (.hopLimit ctx.tenant c.flow c.stepIndex ctx.hops ctx.counterparty)],
        .ok (.stuck c)) := by
  obtain ⟨s, hentry, haction⟩ := hcondition
  rw [walk.eq_def]
  split <;> simp_all

theorem walk_condition_succ {budget : Nat} {c : Conversation} {expr : Option String}
    {thenTarget elseTarget : Option Int}
    (hcondition : IsCondition flow c.stepIndex expr thenTarget elseTarget)
    (taken : Option Int)
    (hbranch : (if holds expr (conditionData ctx.text c) then thenTarget else elseTarget) = taken) :
    walk ctx flow (budget + 1) c =
      (unreadableEvents expr ++ .save (c.moved (landing c.stepIndex taken)) ::
          (walk ctx flow budget (c.moved (landing c.stepIndex taken))).1,
        (walk ctx flow budget (c.moved (landing c.stepIndex taken))).2) := by
  obtain ⟨s, hentry, haction⟩ := hcondition
  conv => lhs; rw [walk.eq_def]
  split
  · simp_all
  · simp_all
  · rename_i t hfound
    obtain rfl : s = t := by simpa [hentry] using hfound
    simp only [haction, hbranch, nextIndex_eq_landing]
    rfl

theorem walk_speaks {budget : Nat} {c : Conversation} {s : Step}
    (hentry : flow.entry? c.stepIndex = some (.step s))
    (hspeaks : ∀ expr thenTarget elseTarget, s.action ≠ .condition expr thenTarget elseTarget) :
    walk ctx flow budget c = speak ctx flow c s.action := by
  rw [walk.eq_def]
  split
  · simp_all
  · simp_all
  · rename_i t hfound
    obtain rfl : s = t := by simpa [hentry] using hfound
    split
    · rename_i expr thenTarget elseTarget haction
      exact absurd haction (hspeaks expr thenTarget elseTarget)
    · rfl

/-! ## What a step says -/

/-- Where something is said, the walk does it, stores the conversation once and ends. -/
theorem walk_of_spoken {now : String} (hnow : ctx.now = .str now) (budget : Nat)
    {c final : Conversation} {action : TurnAction} {message : Option String}
    (hspoken : Spoken flow now c action message final) :
    (walk ctx flow budget c).2 = .ok (.acted action message final) ∧
      saved (walk ctx flow budget c).1 = [final] := by
  cases hspoken with
  | outside hnothing =>
    rw [walk_outside hnothing]
    exact ⟨rfl, rfl⟩
  | question hasks =>
    obtain ⟨s, hentry, haction⟩ := hasks
    rw [walk_speaks hentry (by simp [haction]), haction]
    exact ⟨rfl, rfl⟩
  | replyAndQuestion hentry hreplies hasks =>
    obtain ⟨t, hnext, haction⟩ := hasks
    rw [walk_speaks hentry (by simp [hreplies]), hreplies]
    obtain ⟨id, _, extras⟩ := t
    cases haction
    simp only [speak, hnext]
    exact ⟨rfl, rfl⟩
  | reply hentry hreplies halone =>
    rw [walk_speaks hentry (by simp [hreplies]), hreplies]
    simp only [speak]
    split
    · rename_i id field question extras hnext
      exact absurd ⟨_, hnext, rfl⟩ (halone field question)
    · exact ⟨rfl, rfl⟩
  | @handoff s reason text hentry hands =>
    rw [walk_speaks hentry (by simp [hands]), hands]
    simp only [speak, handOver, hnow]
    by_cases hempty : reason = "" <;> simp [emit, rendered_eq, hempty, saved]
  | finish hentry hends =>
    rw [walk_speaks hentry (by simp [hends]), hends]
    simp [speak, emit, rendered_eq, hnow, saved]

/-- A step that is no condition has something to say. -/
theorem exists_spoken (flow : Flow) (now : String) {c : Conversation} {s : Step}
    (hentry : flow.entry? c.stepIndex = some (.step s))
    (hspeaks : ∀ expr thenTarget elseTarget, s.action ≠ .condition expr thenTarget elseTarget) :
    ∃ action message final, Spoken flow now c action message final := by
  cases haction : s.action with
  | reply text =>
    by_cases hmerged : ∃ field question, IsQuestion flow (c.stepIndex + 1) field question
    · obtain ⟨field, question, hasks⟩ := hmerged
      exact ⟨_, _, _, .replyAndQuestion hentry haction hasks⟩
    · refine ⟨_, _, _, .reply hentry haction ?_⟩
      intro field question hasks
      exact hmerged ⟨field, question, hasks⟩
  | question field text => exact ⟨_, _, _, .question ⟨s, hentry, haction⟩⟩
  | condition expr thenTarget elseTarget => exact absurd haction (hspeaks _ _ _)
  | handoff reason text => exact ⟨_, _, _, .handoff hentry haction⟩
  | finish text => exact ⟨_, _, _, .finish hentry haction⟩

/-! ## Whole walks -/

/-- Along a silent path the walk stores the conversation behind every condition and goes on at the
end of the path with what is left of its bound. -/
theorem walk_of_path {i j : Int} {ks : List Int} {data : Fields}
    (hpath : SilentPath flow ctx.text data i ks j) {budget : Nat} (hwithin : ks.length ≤ budget)
    {c : Conversation} (hi : c.stepIndex = i) (hdata : c.data = data) :
    (walk ctx flow budget c).2 = (walk ctx flow (budget - ks.length) (c.moved j)).2 ∧
      saved (walk ctx flow budget c).1 =
        ks.map c.moved ++ saved (walk ctx flow (budget - ks.length) (c.moved j)).1 := by
  induction hpath generalizing budget c with
  | here i =>
    subst hi
    simp
  | skip hmalformed hrest ih =>
    subst hi
    rw [walk_malformed hmalformed]
    exact ih hwithin rfl hdata
  | @holds i j ks expr thenTarget elseTarget hcondition hfavours hrest ih =>
    subst hi hdata
    obtain ⟨left, rfl⟩ : ∃ left, budget = left + 1 :=
      Nat.exists_eq_succ_of_ne_zero (Nat.ne_of_gt (Nat.lt_of_lt_of_le (Nat.succ_pos _) hwithin))
    have htaken := (holds_eq_true_iff _ ctx.text c).2 hfavours
    rw [walk_condition_succ hcondition _ (if_pos htaken)]
    obtain ⟨hresult, hstored⟩ := ih (c := c.moved (landing c.stepIndex thenTarget))
      (Nat.le_of_succ_le_succ hwithin) rfl rfl
    refine ⟨by simpa using hresult, ?_⟩
    simp only [saved_append, saved_unreadableEvents, saved_save, List.nil_append, List.map_cons,
      List.cons_append, List.length_cons, Nat.add_sub_add_right, hstored]
    rfl
  | @fails i j ks expr thenTarget elseTarget hcondition hdisfavours hrest ih =>
    subst hi hdata
    obtain ⟨left, rfl⟩ : ∃ left, budget = left + 1 :=
      Nat.exists_eq_succ_of_ne_zero (Nat.ne_of_gt (Nat.lt_of_lt_of_le (Nat.succ_pos _) hwithin))
    have htaken := mt (holds_eq_true_iff _ ctx.text c).1 hdisfavours
    rw [walk_condition_succ hcondition _ (if_neg htaken)]
    obtain ⟨hresult, hstored⟩ := ih (c := c.moved (landing c.stepIndex elseTarget))
      (Nat.le_of_succ_le_succ hwithin) rfl rfl
    refine ⟨by simpa using hresult, ?_⟩
    simp only [saved_append, saved_unreadableEvents, saved_save, List.nil_append, List.map_cons,
      List.cons_append, List.length_cons, Nat.add_sub_add_right, hstored]
    rfl

/-- Whatever is told of a conversation is what the walk comes to. -/
theorem walk_of_told {now : String} (hnow : ctx.now = .str now) {limit : Nat} {c : Conversation}
    {outcome : Outcome} {saves : List Conversation}
    (htold : Told flow ctx.text now limit c outcome saves) :
    (walk ctx flow limit c).2 = .ok outcome ∧ saved (walk ctx flow limit c).1 = saves := by
  cases htold with
  | limit hpath hspent hcondition =>
    obtain ⟨hresult, hstored⟩ := walk_of_path hpath (Nat.le_of_eq hspent) rfl rfl
    rw [hspent, Nat.sub_self, walk_condition_zero hcondition] at hresult hstored
    exact ⟨hresult, by simpa using hstored⟩
  | ends hpath hwithin hspoken =>
    obtain ⟨hresult, hstored⟩ := walk_of_path hpath hwithin rfl rfl
    obtain ⟨hsaid, hlast⟩ := walk_of_spoken hnow _ hspoken
    exact ⟨hresult.trans hsaid, by rw [hstored, hlast]⟩

/-- A silent step in front of what is told changes neither outcome nor what is stored. -/
theorem Told.skip {text now : String} {limit : Nat} {c : Conversation} {raw : Value}
    {reason : String} {outcome : Outcome} {saves : List Conversation}
    (hmalformed : flow.entry? c.stepIndex = some (.malformed raw reason))
    (htold : Told flow text now limit (c.moved (c.stepIndex + 1)) outcome saves) :
    Told flow text now limit c outcome saves := by
  cases htold with
  | limit hpath hspent hcondition => exact .limit (.skip hmalformed hpath) hspent hcondition
  | ends hpath hwithin hspoken => exact .ends (.skip hmalformed hpath) hwithin hspoken

/-- A condition in front of what is told is stored first. -/
theorem Told.cons {text now : String} {limit : Nat} {c : Conversation} {k : Int}
    {outcome : Outcome} {saves : List Conversation}
    (hstep : ∀ {ks j}, SilentPath flow text c.data k ks j →
      SilentPath flow text c.data c.stepIndex (k :: ks) j)
    (htold : Told flow text now limit (c.moved k) outcome saves) :
    Told flow text now (limit + 1) c outcome (c.moved k :: saves) := by
  cases htold with
  | limit hpath hspent hcondition =>
    exact .limit (hstep hpath) (by simp [hspent]) hcondition
  | ends hpath hwithin hspoken =>
    exact .ends (hstep hpath) (by simpa using hwithin) hspoken

/-- What the walk comes to is told of the conversation. -/
theorem told_walk {now : String} (hnow : ctx.now = .str now) (flow : Flow) (limit : Nat)
    (c : Conversation) :
    ∃ outcome, (walk ctx flow limit c).2 = .ok outcome ∧
      Told flow ctx.text now limit c outcome (saved (walk ctx flow limit c).1) := by
  induction limit, c using walk.induct ctx flow with
  | case1 budget c hnothing =>
    obtain ⟨hresult, hstored⟩ := walk_of_spoken hnow budget (.outside hnothing)
    refine ⟨_, hresult, ?_⟩
    rw [hstored]
    exact .ends (.here _) (Nat.zero_le _) (.outside hnothing)
  | case2 budget c raw reason hmalformed _ _ _ _ ih =>
    obtain ⟨outcome, hresult, htold⟩ := ih
    rw [walk_malformed hmalformed]
    exact ⟨outcome, hresult, htold.skip hmalformed⟩
  | case3 c s hentry expr thenTarget elseTarget haction =>
    have hcondition : IsCondition flow c.stepIndex expr thenTarget elseTarget :=
      ⟨s, hentry, haction⟩
    rw [walk_condition_zero hcondition]
    exact ⟨_, rfl, .limit (.here _) rfl hcondition⟩
  | case4 c s hentry expr thenTarget elseTarget haction budget taken c' _ _ _ ih =>
    have hcondition : IsCondition flow c.stepIndex expr thenTarget elseTarget :=
      ⟨s, hentry, haction⟩
    have hc' : c' = c.moved (landing c.stepIndex taken) := by
      rw [← nextIndex_eq_landing]
      rfl
    rw [hc'] at ih
    obtain ⟨outcome, hresult, htold⟩ := ih
    rw [walk_condition_succ hcondition taken (by simp [taken])]
    refine ⟨outcome, hresult, ?_⟩
    simp only [saved_append, saved_unreadableEvents, saved_save, List.nil_append]
    refine htold.cons fun hpath => ?_
    by_cases hfavours : holds expr (conditionData ctx.text c) = true
    · have ht : taken = thenTarget := by simp [taken, hfavours]
      rw [ht] at hpath ⊢
      exact .holds hcondition ((holds_eq_true_iff _ _ _).1 hfavours) hpath
    · have ht : taken = elseTarget := by simp [taken, hfavours]
      rw [ht] at hpath ⊢
      exact .fails hcondition (mt (holds_eq_true_iff _ _ _).2 hfavours) hpath
  | case5 budget c s hentry hspeaks =>
    obtain ⟨action, message, final, hspoken⟩ :=
      exists_spoken flow now hentry fun expr thenTarget elseTarget h => hspeaks _ _ _ h
    obtain ⟨hresult, hstored⟩ := walk_of_spoken hnow budget hspoken
    refine ⟨_, hresult, ?_⟩
    rw [hstored]
    exact .ends (.here _) (Nat.zero_le _) hspoken

end Dialogue.Turn

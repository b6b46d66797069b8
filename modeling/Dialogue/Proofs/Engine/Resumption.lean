import Dialogue.Proofs.Engine.Holding

/-!
# Paths that are cut

A silent path may be cut behind any of its conditions.  A turn that is stuck stored the conversation
behind the last condition that it passed; from there on to the step where it was stuck only
malformed data was passed over (`SilentPath.exists_last`).  What is told from there on completes
what would have been told of the whole path with both limits together (`Told.resumes`).

The text of a message matters for the path only through conditions on the field `_last`
(`Flow.IsBlind`).
-/

namespace Dialogue

/-- No condition of a flow tests the text of the message. -/
def Flow.IsBlind (flow : Flow) : Prop :=
  ∀ index expr thenTarget elseTarget condition,
    Turn.IsCondition flow index (some expr) thenTarget elseTarget →
    Condition.parse? expr = some condition → condition.field ≠ "_last"

namespace Turn

variable {flow : Flow} {text text' now name : String} {limit : Nat} {c : Conversation}
  {data : Fields} {i j k : Int} {ks ls : List Int}

/-! ## Texts that make no difference -/

/-- A condition on another field than `_last` does not depend on the message. -/
theorem favours_congr (hblind : flow.IsBlind) {expr : Option String}
    {thenTarget elseTarget : Option Int}
    (hcondition : IsCondition flow i expr thenTarget elseTarget) (text text' : String)
    (data : Fields) : Favours text data expr ↔ Favours text' data expr := by
  suffices hone : ∀ text text', Favours text data expr → Favours text' data expr from
    ⟨hone text text', hone text' text⟩
  rintro text text' ⟨e, tested, rfl, hparsed, holds⟩
  have hother : tested.field ≠ "_last" := hblind i e thenTarget elseTarget tested hcondition hparsed
  refine ⟨e, tested, rfl, hparsed, ?_⟩
  rw [Condition.holds, Fields.getD, Fields.get?, Fields.set, Keyed.get?_set_of_ne _ _ hother]
  rwa [Condition.holds, Fields.getD, Fields.get?, Fields.set, Keyed.get?_set_of_ne _ _ hother]
    at holds

/-- Where no condition tests the text, a path is one for every text. -/
theorem SilentPath.of_isBlind (hblind : flow.IsBlind) (hpath : SilentPath flow text data i ks j)
    (text' : String) : SilentPath flow text' data i ks j := by
  induction hpath with
  | here i => exact .here i
  | skip hmalformed hrest ih => exact .skip hmalformed ih
  | holds hcondition hfavours hrest ih =>
    exact .holds hcondition ((favours_congr hblind hcondition text text' data).1 hfavours) ih
  | fails hcondition hdisfavours hrest ih =>
    exact .fails hcondition (mt (favours_congr hblind hcondition text text' data).2 hdisfavours) ih

theorem Told.of_isBlind (hblind : flow.IsBlind) {outcome : Outcome} {saves : List Conversation}
    (htold : Told flow text now limit c outcome saves) (text' : String) :
    Told flow text' now limit c outcome saves := by
  cases htold with
  | limit hpath hspent hcondition => exact .limit (hpath.of_isBlind hblind text') hspent hcondition
  | ends hpath hwithin hspoken => exact .ends (hpath.of_isBlind hblind text') hwithin hspoken

/-! ## Paths one after another -/

theorem SilentPath.trans (hpath : SilentPath flow text data i ks k)
    (hrest : SilentPath flow text data k ls j) : SilentPath flow text data i (ks ++ ls) j := by
  induction hpath with
  | here i => exact hrest
  | skip hmalformed _ ih => exact .skip hmalformed (ih hrest)
  | holds hcondition hfavours _ ih => exact .holds hcondition hfavours (ih hrest)
  | fails hcondition hdisfavours _ ih => exact .fails hcondition hdisfavours (ih hrest)

/-- A path is cut behind its last condition. -/
theorem SilentPath.exists_last (hpath : SilentPath flow text data i ks j) (hpassed : ks ≠ []) :
    ∃ k, ks.getLast? = some k ∧ SilentPath flow text data i ks k ∧
      SilentPath flow text data k [] j := by
  induction hpath with
  | here i => exact absurd rfl hpassed
  | skip hmalformed hrest ih =>
    obtain ⟨k, hlast, hfirst, hsecond⟩ := ih hpassed
    exact ⟨k, hlast, .skip hmalformed hfirst, hsecond⟩
  | @holds i j ks expr thenTarget elseTarget hcondition hfavours hrest ih =>
    by_cases hmore : ks = []
    · subst hmore
      exact ⟨_, rfl, .holds hcondition hfavours (.here _), hrest⟩
    · obtain ⟨k, hlast, hfirst, hsecond⟩ := ih hmore
      exact ⟨k, by simp [List.getLast?_cons, hlast], .holds hcondition hfavours hfirst, hsecond⟩
  | @fails i j ks expr thenTarget elseTarget hcondition hdisfavours hrest ih =>
    by_cases hmore : ks = []
    · subst hmore
      exact ⟨_, rfl, .fails hcondition hdisfavours (.here _), hrest⟩
    · obtain ⟨k, hlast, hfirst, hsecond⟩ := ih hmore
      exact ⟨k, by simp [List.getLast?_cons, hlast], .fails hcondition hdisfavours hfirst, hsecond⟩

theorem SilentPath.inRange (hpath : SilentPath flow text data i ks j)
    (hends : flow.inRange j = true) : flow.inRange i = true ∧ ∀ k ∈ ks, flow.inRange k = true := by
  induction hpath with
  | here i => exact ⟨hends, by simp⟩
  | skip hmalformed hrest ih =>
    refine ⟨?_, (ih hends).2⟩
    rw [← Flow.isSome_entry?, hmalformed]
    rfl
  | holds hcondition hfavours hrest ih =>
    obtain ⟨s, hentry, -⟩ := hcondition
    refine ⟨?_, List.forall_mem_cons.2 (ih hends)⟩
    rw [← Flow.isSome_entry?, hentry]
    rfl
  | fails hcondition hdisfavours hrest ih =>
    obtain ⟨s, hentry, -⟩ := hcondition
    refine ⟨?_, List.forall_mem_cons.2 (ih hends)⟩
    rw [← Flow.isSome_entry?, hentry]
    rfl

/-- What is told from the end of a path on is told from its start, with a limit that allows for the
path, too. -/
theorem Told.resumes {outcome : Outcome} {saves : List Conversation}
    (hpath : SilentPath flow text c.data c.stepIndex ks k)
    (htold : Told flow text now limit (c.moved k) outcome saves) :
    Told flow text now (ks.length + limit) c outcome (ks.map c.moved ++ saves) := by
  cases htold with
  | @limit ls j expr thenTarget elseTarget hrest hspent hcondition =>
    have hwhole := hpath.trans hrest
    have hstored : ks.map c.moved ++ ls.map (c.moved k).moved = (ks ++ ls).map c.moved := by
      rw [List.map_append]
      rfl
    rw [hstored]
    exact .limit hwhole (by rw [List.length_append, hspent]) hcondition
  | @ends ls j action message final hrest hwithin hspoken =>
    have hwhole := hpath.trans hrest
    have hstored : ks.map c.moved ++ (ls.map (c.moved k).moved ++ [final]) =
        (ks ++ ls).map c.moved ++ [final] := by
      rw [List.map_append, List.append_assoc]
      rfl
    rw [hstored]
    exact .ends hwhole (by rw [List.length_append]; omega) hspoken

/-! ## A message after one that was stuck -/

/-- A conversation of a flow that goes on, and that a message came in for at a time. -/
structure IsHeard (name now : String) (c : Conversation) : Prop where
  flow : c.flow = name
  goesOn : c.isCompleted = false
  updated : c.updatedAt = .str now
  inbound : c.lastInboundAt = .str now

theorem isHeard_resumed (name now : String) (stored : Option Conversation) :
    IsHeard name now (resumed name now stored) := by
  have hfresh : IsHeard name now { Conversation.start name now with lastInboundAt := .str now } :=
    ⟨rfl, rfl, rfl, rfl⟩
  cases stored with
  | none => exact hfresh
  | some c =>
    simp only [resumed]
    split
    · rename_i hgoesOn
      exact ⟨hgoesOn.1, hgoesOn.2, rfl, rfl⟩
    · exact hfresh

theorem IsHeard.answered (heard : IsHeard name now c) (text : String) :
    IsHeard name now (answered text c) := by
  obtain ⟨hflow, hgoesOn, hupdated, hinbound⟩ := heard
  unfold Turn.answered
  split
  · split <;> exact ⟨hflow, hgoesOn, hupdated, hinbound⟩
  · exact ⟨hflow, hgoesOn, hupdated, hinbound⟩

theorem IsHeard.moved (heard : IsHeard name now c) (k : Int) : IsHeard name now (c.moved k) :=
  ⟨heard.flow, heard.goesOn, heard.updated, heard.inbound⟩

theorem IsHeard.answered_resumed (heard : IsHeard name now c) :
    Turn.answered "" (resumed name now (some c)) = c := by
  have hsame : resumed name now (some c) = c := by
    have hupdated := heard.updated
    have hinbound := heard.inbound
    rw [resumed, if_pos ⟨heard.flow, heard.goesOn⟩]
    cases c
    simp only at hupdated hinbound
    subst hupdated hinbound
    rfl
  rw [hsame, Turn.answered]
  cases c.waiting <;> simp

/-- What a turn that is stuck stored last: the conversation with its answer, behind as many
conditions as it may pass. -/
theorem Reference.exists_last (hpositive : 1 ≤ limit) {stored : Option Conversation}
    {stuck : Conversation} {saves : List Conversation}
    (htold : Reference flow name text now limit stored (.stuck stuck) saves) :
    ∃ ks k, ks.length = limit ∧
      SilentPath flow text (answered text (resumed name now stored)).data
        (answered text (resumed name now stored)).stepIndex ks k ∧
      saves = ks.map (answered text (resumed name now stored)).moved ∧
      saves.getLast? = some ((answered text (resumed name now stored)).moved k) := by
  cases htold with
  | @limit ks j expr thenTarget elseTarget hpath hspent hcondition =>
    have hpassed : ks ≠ [] := by
      rintro rfl
      simp only [List.length_nil] at hspent
      omega
    obtain ⟨k, hlast, hfirst, -⟩ := hpath.exists_last hpassed
    exact ⟨ks, k, hspent, hfirst, rfl, by rw [List.getLast?_map, hlast]; rfl⟩

/-- Whatever a turn that is stuck stored stands at a step of the flow. -/
theorem Reference.inRange_of_stuck {stored : Option Conversation} {stuck : Conversation}
    {saves : List Conversation}
    (htold : Reference flow name text now limit stored (.stuck stuck) saves) :
    ∀ c ∈ saves, flow.inRange c.stepIndex = true := by
  intro c hlisted
  cases htold with
  | @limit ks j expr thenTarget elseTarget hpath hspent hcondition =>
    obtain ⟨s, hentry, -⟩ := hcondition
    have hends : flow.inRange j = true := by
      rw [← Flow.isSome_entry?, hentry]
      rfl
    obtain ⟨k, hwithin, rfl⟩ := List.mem_map.1 hlisted
    exact (hpath.inRange hends).2 k hwithin

/-- A turn that is stuck can be gone on with: an empty message of the same time comes to what the
first message comes to with both limits together. -/
theorem Reference.resumes (hblind : flow.IsBlind) {limit' : Nat} (hpositive : 1 ≤ limit)
    {stored : Option Conversation} {stuck : Conversation} {saves saves' : List Conversation}
    {outcome : Outcome}
    (hfirst : Reference flow name text now limit stored (.stuck stuck) saves)
    (hsecond : Reference flow name "" now limit' saves.getLast? outcome saves') :
    Reference flow name text now (limit + limit') stored outcome (saves ++ saves') := by
  obtain ⟨ks, k, hspent, hpath, rfl, hlast⟩ := hfirst.exists_last hpositive
  have heard := ((isHeard_resumed name now stored).answered text).moved k
  rw [hlast, Reference, heard.answered_resumed] at hsecond
  rw [← hspent]
  exact Told.resumes hpath (hsecond.of_isBlind hblind text)

end Turn

end Dialogue

import Dialogue.Proofs.Conversation.Document
import Dialogue.Proofs.Engine.Reference

/-!
# What a turn stores

Every conversation that a turn stores belongs to the flow of the turn and agrees with the steps of
the flow (`isSteady_of_told`): it waits at the question that it asked last or not at all, and it was
handed over only if it is completed.  It carries what the turn found collected (`carries_of_told`),
and what a turn leaves alone it inherits from the conversation that was stored before
(`Inherited.reference`).

The clauses of `Conversation.IsSteady` support each other.  A message without text leaves a question
waiting, and nothing is stored before the question is asked again, because what stands at the step
of a conversation that waits is no silent step (`SilentPath.of_question`).
-/

namespace Dialogue

open Turn

/-- A conversation agrees with the flow that it is in. -/
structure Conversation.IsSteady (flow : Flow) (c : Conversation) : Prop where
  index : 0 ≤ c.stepIndex
  waits : ∀ w, c.waiting = some w →
    w.stepIndex = c.stepIndex ∧ c.stepIndex < flow.size ∧
      (∃ text, IsQuestion flow c.stepIndex w.field text) ∧ c.completedAt = .null
  completes : c.completedAt ≠ .null → c.waiting = none
  hands : ∀ h, c.handoff = some h → c.completedAt = .str h.takenAt
  timed : c.updatedAt = c.lastInboundAt

/-- A conversation carries what another one holds besides where it stands: its flow, its start, what
was collected in it and its extras. -/
structure Conversation.Carries (c b : Conversation) : Prop where
  flow : c.flow = b.flow
  startedAt : c.startedAt = b.startedAt
  data : c.data = b.data
  extras : c.extras = b.extras

/-- A time of completion, if there is one, is a text that is not empty. -/
def Conversation.IsDated (c : Conversation) : Prop :=
  c.completedAt = .null ∨ ∃ t, c.completedAt = .str t ∧ t ≠ ""

namespace Turn

variable {flow : Flow} {text now : String} {limit : Nat} {c : Conversation} {outcome : Outcome}
  {saves : List Conversation}

/-! ## Silent paths -/

theorem landing_nonneg {index : Int} (hnonneg : 0 ≤ index) (target : Option Int) :
    0 ≤ landing index target := by
  unfold landing
  cases target with
  | none =>
    show 0 ≤ index + 1
    omega
  | some t =>
    show 0 ≤ if t < 0 then index + 1 else t
    split <;> omega

/-- A silent path stays at step numbers that are not negative. -/
theorem SilentPath.nonneg {data : Fields} {i j : Int} {ks : List Int}
    (hpath : SilentPath flow text data i ks j) (hnonneg : 0 ≤ i) :
    (∀ k ∈ ks, 0 ≤ k) ∧ 0 ≤ j := by
  induction hpath with
  | here i => exact ⟨by simp, hnonneg⟩
  | skip hmalformed hrest ih => exact ih (by omega)
  | @holds i j ks expr thenTarget elseTarget hcondition hfavours hrest ih =>
    have hlanded := landing_nonneg hnonneg thenTarget
    obtain ⟨hstops, hfinal⟩ := ih hlanded
    exact ⟨List.forall_mem_cons.2 ⟨hlanded, hstops⟩, hfinal⟩
  | @fails i j ks expr thenTarget elseTarget hcondition hdisfavours hrest ih =>
    have hlanded := landing_nonneg hnonneg elseTarget
    obtain ⟨hstops, hfinal⟩ := ih hlanded
    exact ⟨List.forall_mem_cons.2 ⟨hlanded, hstops⟩, hfinal⟩

/-- No silent path leads away from a question. -/
theorem SilentPath.of_question {data : Fields} {i j : Int} {ks : List Int}
    (hpath : SilentPath flow text data i ks j) {field question : String}
    (hasks : IsQuestion flow i field question) : ks = [] ∧ j = i := by
  obtain ⟨s, hentry, haction⟩ := hasks
  cases hpath with
  | here => exact ⟨rfl, rfl⟩
  | skip hmalformed hrest => simp [hmalformed] at hentry
  | holds hcondition hfavours hrest =>
    obtain ⟨s', hentry', haction'⟩ := hcondition
    obtain rfl : s' = s := by simpa [hentry'] using hentry
    simp [haction'] at haction
  | fails hcondition hdisfavours hrest =>
    obtain ⟨s', hentry', haction'⟩ := hcondition
    obtain rfl : s' = s := by simpa [hentry'] using hentry
    simp [haction'] at haction

/-- A turn stores the conversation after each condition of its path, and at last the one that is
spoken at the end of the path. -/
theorem mem_saves_of_told (htold : Told flow text now limit c outcome saves) {c' : Conversation}
    (hstored : c' ∈ saves) :
    ∃ ks j, SilentPath flow text c.data c.stepIndex ks j ∧
      ((∃ k ∈ ks, c' = c.moved k) ∨
        ∃ action message, Spoken flow now (c.moved j) action message c') := by
  cases htold with
  | limit hpath hspent hcondition =>
    obtain ⟨k, hk, rfl⟩ := List.mem_map.1 hstored
    exact ⟨_, _, hpath, .inl ⟨k, hk, rfl⟩⟩
  | ends hpath hwithin hspoken =>
    rcases List.mem_append.1 hstored with hstored | hstored
    · obtain ⟨k, hk, rfl⟩ := List.mem_map.1 hstored
      exact ⟨_, _, hpath, .inl ⟨k, hk, rfl⟩⟩
    · obtain rfl := List.mem_singleton.1 hstored
      exact ⟨_, _, hpath, .inr ⟨_, _, hspoken⟩⟩

/-! ## What is stored inherits what was stored before -/

/-- A property of conversations that a turn leaves alone: a fresh conversation has it, and so has
one that takes a message, an answer or another step, or comes to its end. -/
structure Inherited (K : Conversation → Prop) : Prop where
  starts : ∀ flow now, K { Conversation.start flow now with lastInboundAt := .str now }
  resumes : ∀ {c} now, K c → K { c with updatedAt := .str now, lastInboundAt := .str now }
  answers : ∀ {c} field text index, K c →
    K { c with data := Fields.set c.data field (.str text), stepIndex := index, waiting := none }
  moves : ∀ {c} index waiting, K c → K { c with stepIndex := index, waiting := waiting }
  completes : ∀ {c} index now handoff, K c →
    K { c with stepIndex := index, completedAt := .str now, handoff := handoff }

theorem Spoken.carries {action : TurnAction} {message : Option String} {final : Conversation}
    (hspoken : Spoken flow now c action message final) : final.Carries c := by
  cases hspoken <;> exact ⟨rfl, rfl, rfl, rfl⟩

theorem carries_of_told (htold : Told flow text now limit c outcome saves) :
    ∀ c' ∈ saves, c'.Carries c := by
  intro c' hstored
  obtain ⟨ks, j, -, ⟨k, -, rfl⟩ | ⟨action, message, hspoken⟩⟩ := mem_saves_of_told htold hstored
  · exact ⟨rfl, rfl, rfl, rfl⟩
  · obtain ⟨hflow, hstarted, hdata, hextras⟩ := hspoken.carries
    exact ⟨hflow, hstarted, hdata, hextras⟩

section

variable {K : Conversation → Prop} (hinherited : Inherited K)

include hinherited

theorem Inherited.spoken {action : TurnAction} {message : Option String} {final : Conversation}
    (hspoken : Spoken flow now c action message final) (holds : K c) : K final := by
  cases hspoken with
  | outside => exact holds
  | question => exact hinherited.moves _ _ holds
  | replyAndQuestion => exact hinherited.moves _ _ holds
  | reply => exact hinherited.moves _ _ holds
  | handoff => exact hinherited.completes _ _ _ holds
  | finish => exact hinherited.completes _ _ _ holds

theorem Inherited.told (htold : Told flow text now limit c outcome saves) (holds : K c) :
    ∀ c' ∈ saves, K c' := by
  intro c' hstored
  obtain ⟨ks, j, -, ⟨k, -, rfl⟩ | ⟨action, message, hspoken⟩⟩ := mem_saves_of_told htold hstored
  · exact hinherited.moves k _ holds
  · exact hinherited.spoken hspoken (hinherited.moves j _ holds)

theorem Inherited.resumed {name : String} {stored : Option Conversation}
    (holds : ∀ c, stored = some c → K c) : K (resumed name now stored) := by
  cases stored with
  | none => exact hinherited.starts name now
  | some c =>
    simp only [Turn.resumed]
    split
    · exact hinherited.resumes now (holds c rfl)
    · exact hinherited.starts name now

theorem Inherited.answered (holds : K c) (text : String) : K (answered text c) := by
  unfold Turn.answered
  split
  · split
    · exact holds
    · exact hinherited.answers _ _ _ holds
  · exact holds

/-- What a message stores inherits what the stored conversation has. -/
theorem Inherited.reference {name : String} {stored : Option Conversation}
    (htold : Reference flow name text now limit stored outcome saves)
    (holds : ∀ c, stored = some c → K c) : ∀ c' ∈ saves, K c' :=
  hinherited.told htold (hinherited.answered (hinherited.resumed holds) text)

end

theorem inherited_isPlain : Inherited Conversation.IsPlain where
  starts flow now :=
    { bare := rfl
      data := Value.isPlain_dict_iff.2 ⟨List.nodup_nil, by simp [Conversation.start]⟩
      updated := ⟨now, rfl⟩
      inbound := ⟨some now, rfl⟩
      completed := ⟨none, rfl⟩ }
  resumes now hplain := ⟨hplain.bare, hplain.data, ⟨now, rfl⟩, ⟨some now, rfl⟩, hplain.completed⟩
  answers field text index hplain := by
    obtain ⟨hnodup, hentries⟩ := Value.isPlain_dict_iff.1 hplain.data
    refine ⟨hplain.bare, Value.isPlain_dict_iff.2 ⟨Keyed.nodup_set hnodup _ _, fun e he => ?_⟩,
      hplain.updated, hplain.inbound, hplain.completed⟩
    rcases Keyed.mem_set he with rfl | he
    · exact Schema.isPlain_str text
    · exact hentries e he
  moves index waiting hplain :=
    ⟨hplain.bare, hplain.data, hplain.updated, hplain.inbound, hplain.completed⟩
  completes index now handoff hplain :=
    ⟨hplain.bare, hplain.data, hplain.updated, hplain.inbound, ⟨some now, rfl⟩⟩

theorem inherited_isWritable : Inherited Conversation.IsWritable where
  starts flow now :=
    { rest := Schema.isRest_nil _
      data := ⟨List.nodup_nil, trivial⟩
      updated := trivial
      inbound := trivial
      completed := trivial }
  resumes now hwritable := ⟨hwritable.rest, hwritable.data, trivial, trivial, hwritable.completed⟩
  answers field text index hwritable := by
    obtain ⟨hnodup, hentries⟩ := hwritable.data
    rw [Value.isDocumentFields_iff] at hentries
    refine ⟨hwritable.rest, ⟨Keyed.nodup_set hnodup _ _, ?_⟩, hwritable.updated, hwritable.inbound,
      hwritable.completed⟩
    refine Value.isDocumentFields_iff.2 fun e he => ?_
    rcases Keyed.mem_set he with rfl | he
    · trivial
    · exact hentries e he
  moves index waiting hwritable :=
    ⟨hwritable.rest, hwritable.data, hwritable.updated, hwritable.inbound, hwritable.completed⟩
  completes index now handoff hwritable :=
    ⟨hwritable.rest, hwritable.data, hwritable.updated, hwritable.inbound, trivial⟩

theorem flow_answered_resumed (name now text : String) (stored : Option Conversation) :
    (answered text (resumed name now stored)).flow = name := by
  have hflow : (resumed name now stored).flow = name := by
    cases stored with
    | none => rfl
    | some c =>
      simp only [resumed]
      split
      · rename_i hgoesOn
        exact hgoesOn.1
      · rfl
  unfold answered
  split
  · split <;> exact hflow
  · exact hflow

/-! ## What is stored agrees with the flow -/

/-- A conversation with which a walk through a flow may start. -/
structure Ready (flow : Flow) (c : Conversation) : Prop where
  steady : c.IsSteady flow
  goesOn : c.completedAt = .null
  kept : c.handoff = none

/-- Where a turn starts is ready if what was stored agrees with the flow. -/
theorem ready_resumed {name : String} {stored : Option Conversation}
    (hsteady : ∀ c, stored = some c → c.flow = name → c.IsSteady flow ∧ c.IsDated) :
    Ready flow (resumed name now stored) := by
  have hfresh : Ready flow { Conversation.start name now with lastInboundAt := .str now } :=
    { steady :=
        { index := Int.le_refl 0
          waits := by simp [Conversation.start]
          completes := fun _ => rfl
          hands := by simp [Conversation.start]
          timed := rfl }
      goesOn := rfl
      kept := rfl }
  cases stored with
  | none => exact hfresh
  | some c =>
    simp only [resumed]
    split
    · rename_i hgoesOn
      obtain ⟨hsteady, hdated⟩ := hsteady c rfl hgoesOn.1
      have hopen : c.completedAt = .null := by
        rcases hdated with hnull | ⟨t, hcompleted, hnonempty⟩
        · exact hnull
        · have := hgoesOn.2
          simp [Conversation.isCompleted, hcompleted, Value.isEmpty, hnonempty] at this
      refine ⟨⟨hsteady.index, hsteady.waits, hsteady.completes, hsteady.hands, rfl⟩, hopen, ?_⟩
      cases handed : c.handoff with
      | none => rfl
      | some h =>
        have hcompleted := hsteady.hands h handed
        rw [hopen] at hcompleted
        cases hcompleted
    · exact hfresh

theorem Ready.answered (hready : Ready flow c) (text : String) :
    Ready flow (answered text c) := by
  unfold Turn.answered
  split
  · rename_i w hwaits
    split
    · exact hready
    · have hnonneg := hready.steady.index
      exact
        { steady :=
            { index := by
                show 0 ≤ max c.stepIndex (w.stepIndex + 1)
                omega
              waits := by simp
              completes := fun _ => rfl
              hands := hready.steady.hands
              timed := hready.steady.timed }
          goesOn := hready.goesOn
          kept := hready.kept }
  · exact hready

/-- A conversation that goes on without waiting is steady at every step number. -/
theorem Ready.moved (hready : Ready flow c) (hidle : c.waiting = none) {k : Int} (hnonneg : 0 ≤ k) :
    Ready flow (c.moved k) where
  steady :=
    { index := hnonneg
      waits := by simp [Conversation.moved, hidle]
      completes := fun _ => hidle
      hands := hready.steady.hands
      timed := hready.steady.timed }
  goesOn := hready.goesOn
  kept := hready.kept

/-- What is asked is waited for. -/
theorem Ready.asks (hready : Ready flow c) {index : Int} (hnonneg : 0 ≤ index)
    {field question : String} (hasks : IsQuestion flow index field question) :
    { c with stepIndex := index, waiting := some ⟨field, index⟩ }.IsSteady flow where
  index := hnonneg
  waits := by
    rintro _ ⟨⟩
    obtain ⟨s, hentry, haction⟩ := hasks
    have hwithin : flow.inRange index = true := by
      rw [← Flow.isSome_entry?, hentry]
      rfl
    simp only [Flow.inRange, Bool.and_eq_true, decide_eq_true_eq] at hwithin
    exact ⟨rfl, hwithin.2, ⟨question, s, hentry, haction⟩, hready.goesOn⟩
  completes := fun hcompleted => absurd hready.goesOn hcompleted
  hands := hready.steady.hands
  timed := hready.steady.timed

/-- What is spoken of a conversation that is ready leaves it steady.  A conversation that waits is
at its question, so it is asked again. -/
theorem Ready.spoken (hready : Ready flow c) (htimed : now ≠ "") {action : TurnAction}
    {message : Option String} {final : Conversation}
    (hspoken : Spoken flow now c action message final) : final.IsSteady flow ∧ final.IsDated := by
  have hidle : ∀ {s : Step}, flow.entry? c.stepIndex = some (.step s) →
      (∀ field question, s.action ≠ .question field question) → c.waiting = none := by
    intro s hentry hother
    cases hwaits : c.waiting with
    | none => rfl
    | some w =>
      obtain ⟨-, -, ⟨question, s', hentry', hasks⟩, -⟩ := hready.steady.waits w hwaits
      obtain rfl : s' = s := by simpa [hentry'] using hentry
      exact absurd hasks (hother _ _)
  have hnonneg := hready.steady.index
  cases hspoken with
  | outside hnothing => exact ⟨hready.steady, .inl hready.goesOn⟩
  | question hasks => exact ⟨hready.asks hnonneg hasks, .inl hready.goesOn⟩
  | replyAndQuestion hentry hreplies hasks =>
    exact ⟨hready.asks (by omega) hasks, .inl hready.goesOn⟩
  | reply hentry hreplies halone =>
    have hmoved := hready.moved (hidle hentry (by simp [hreplies])) (k := c.stepIndex + 1)
      (by omega)
    exact ⟨hmoved.steady, .inl hready.goesOn⟩
  | handoff hentry hands =>
    have hidle := hidle hentry (by simp [hands])
    exact
      ⟨{ index := Int.natCast_nonneg _
         waits := by simp [hidle]
         completes := fun _ => hidle
         hands := by
           rintro _ ⟨⟩
           rfl
         timed := hready.steady.timed }, .inr ⟨now, rfl, htimed⟩⟩
  | finish hentry hends =>
    have hidle := hidle hentry (by simp [hends])
    exact
      ⟨{ index := Int.natCast_nonneg _
         waits := by simp [hidle]
         completes := fun _ => hidle
         hands := by simp [hready.kept]
         timed := hready.steady.timed }, .inr ⟨now, rfl, htimed⟩⟩

theorem isSteady_of_told (htold : Told flow text now limit c outcome saves) (hready : Ready flow c)
    (htimed : now ≠ "") : ∀ c' ∈ saves, c'.IsSteady flow ∧ c'.IsDated := by
  intro c' hstored
  obtain ⟨ks, j, hpath, hending⟩ := mem_saves_of_told htold hstored
  cases hwaits : c.waiting with
  | none =>
    obtain ⟨hstops, hfinal⟩ := hpath.nonneg hready.steady.index
    rcases hending with ⟨k, hk, rfl⟩ | ⟨action, message, hspoken⟩
    · have hmoved := hready.moved hwaits (hstops k hk)
      exact ⟨hmoved.steady, .inl hmoved.goesOn⟩
    · exact (hready.moved hwaits hfinal).spoken htimed hspoken
  | some w =>
    obtain ⟨-, -, ⟨question, hasks⟩, -⟩ := hready.steady.waits w hwaits
    obtain ⟨rfl, rfl⟩ := hpath.of_question hasks
    rcases hending with ⟨k, hk, -⟩ | ⟨action, message, hspoken⟩
    · simp at hk
    · exact hready.spoken htimed hspoken

end Turn

end Dialogue

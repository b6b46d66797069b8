import Dialogue.Proofs.Engine.Message
import Dialogue.Proofs.Engine.Steady

/-!
# The rounds of a turn

A turn walks in rounds.  A round passes over malformed data, or it evaluates a condition and stores
the conversation behind it (`Turn.Goes`).  A run of rounds halts where something is said, where the
flow is left, and at a condition beyond the limit.

Branches may lead back, so a step may be passed many times.  What falls in every round is the room
that is left (`Turn.room`): a condition costs one of those that may still pass, which outweighs all
the steps of the flow, and malformed data costs one of the steps up to its end.

## Main statements

* `Goes.room_lt`: the room falls in every round.
* `walk_of_goes`: what the walk does in one round.
* `exists_tally`: the rounds of a walk, how many there are, and what they store.
* `handle_tallies`: what a message reads and stores, on every way out.
-/

namespace Dialogue

namespace Turn

/-- Where the walk stands: how many conditions may still pass, and the conversation. -/
structure Position where
  budget : Nat
  conversation : Conversation

/-- What happens in a round: malformed data is passed over, or the condition of a step is evaluated
and the conversation goes on from there. -/
inductive Round where
  | passed (index : Int)
  | evaluated (index : Int) (held : Bool) (after : Conversation)

/-- The conversations behind the conditions that are evaluated, in order. -/
def evaluated (rounds : List Round) : List Conversation :=
  rounds.filterMap fun
    | .passed _ => none
    | .evaluated _ _ after => some after

@[simp] theorem evaluated_nil : evaluated [] = [] := rfl

@[simp] theorem evaluated_passed (index : Int) (rounds : List Round) :
    evaluated (.passed index :: rounds) = evaluated rounds := rfl

@[simp] theorem evaluated_evaluated (index : Int) (held : Bool) (after : Conversation)
    (rounds : List Round) :
    evaluated (.evaluated index held after :: rounds) = after :: evaluated rounds := rfl

/-- One round of the walk. -/
inductive Goes (flow : Flow) (text : String) : Position → Round → Position → Prop where
  | passes {budget : Nat} {c : Conversation} {raw : Value} {reason : String}
      (malformed : flow.entry? c.stepIndex = some (.malformed raw reason)) :
      Goes flow text ⟨budget, c⟩ (.passed c.stepIndex) ⟨budget, c.moved (c.stepIndex + 1)⟩
  | evaluates {budget : Nat} {c : Conversation} {expr : Option String}
      {thenTarget elseTarget taken : Option Int} {held : Bool}
      (condition : IsCondition flow c.stepIndex expr thenTarget elseTarget)
      (verdict : holds expr (conditionData text c) = held)
      (branch : (if held then thenTarget else elseTarget) = taken) :
      Goes flow text ⟨budget + 1, c⟩
        (.evaluated c.stepIndex held (c.moved (landing c.stepIndex taken)))
        ⟨budget, c.moved (landing c.stepIndex taken)⟩

/-- Rounds one after another. -/
inductive Rounds (flow : Flow) (text : String) : Position → List Round → Position → Prop where
  | nil (p : Position) : Rounds flow text p [] p
  | cons {p q r : Position} {round : Round} {rounds : List Round}
      (first : Goes flow text p round q) (rest : Rounds flow text q rounds r) :
      Rounds flow text p (round :: rounds) r

/-- There is no further round. -/
def Halts (flow : Flow) (text : String) (p : Position) : Prop :=
  ∀ round q, ¬ Goes flow text p round q

/-- The room that is left for rounds. -/
def room (flow : Flow) (p : Position) : Nat :=
  p.budget * (flow.size + 1) + (flow.size - p.conversation.stepIndex).toNat

variable {flow : Flow} {text : String} {p q r : Position} {round : Round} {rounds : List Round}

/-! ## The rounds come to an end -/

theorem inRange_of_entry? {index : Int} {e : Entry} (hentry : flow.entry? index = some e) :
    0 ≤ index ∧ index < flow.size := by
  have hinside : flow.inRange index = true := by
    rw [← Flow.isSome_entry?, hentry]
    rfl
  simpa [Flow.inRange] using hinside

theorem Goes.inRange (hgoes : Goes flow text p round q) :
    0 ≤ p.conversation.stepIndex ∧ p.conversation.stepIndex < flow.size := by
  cases hgoes with
  | passes hmalformed => exact inRange_of_entry? hmalformed
  | evaluates hcondition hverdict hbranch =>
    obtain ⟨s, hentry, -⟩ := hcondition
    exact inRange_of_entry? hentry

theorem Goes.room_lt (hgoes : Goes flow text p round q) : room flow q < room flow p := by
  have hinside := hgoes.inRange
  cases hgoes with
  | @passes budget c raw reason hmalformed =>
    simp only [room, Conversation.stepIndex_moved] at hinside ⊢
    omega
  | @evaluates budget c expr thenTarget elseTarget taken held hcondition hverdict hbranch =>
    -- wherever the branch leads, at most the whole flow lies before it
    have hlanded : 0 ≤ landing c.stepIndex taken := landing_nonneg hinside.1 taken
    have hahead : (flow.size - landing c.stepIndex taken).toNat ≤ flow.size := by omega
    have hspent : (budget + 1) * (flow.size + 1) = budget * (flow.size + 1) + (flow.size + 1) :=
      Nat.succ_mul _ _
    simp only [room, Conversation.stepIndex_moved]
    omega

theorem Rounds.length_le (hrun : Rounds flow text p rounds q) :
    rounds.length + room flow q ≤ room flow p := by
  induction hrun with
  | nil p => simp
  | cons hfirst hrest ih =>
    have hfalls := hfirst.room_lt
    rw [List.length_cons]
    omega

theorem Rounds.length_le_limit (hrun : Rounds flow text p rounds q) :
    rounds.length ≤ p.budget * (flow.size + 1) + flow.size := by
  have hbound := hrun.length_le
  cases hrun with
  | nil => exact Nat.zero_le _
  | cons hfirst hrest =>
    have hinside := hfirst.inRange
    simp only [room] at hbound
    omega

/-- Every condition that is evaluated is paid for. -/
theorem Rounds.length_evaluated (hrun : Rounds flow text p rounds q) :
    (evaluated rounds).length + q.budget = p.budget := by
  induction hrun with
  | nil p => simp
  | cons hfirst hrest ih =>
    cases hfirst with
    | passes hmalformed => exact ih
    | evaluates hcondition hverdict hbranch =>
      simp only [evaluated_evaluated, List.length_cons] at ih ⊢
      omega

/-- The walk goes on in one way. -/
theorem Goes.unique {round' : Round} {q' : Position} (hgoes : Goes flow text p round q)
    (hgoes' : Goes flow text p round' q') : round' = round ∧ q' = q := by
  cases hgoes with
  | passes hmalformed =>
    cases hgoes' with
    | passes hmalformed' => exact ⟨rfl, rfl⟩
    | evaluates hcondition hverdict hbranch =>
      obtain ⟨s, hentry, -⟩ := hcondition
      simp [hmalformed] at hentry
  | evaluates hcondition hverdict hbranch =>
    obtain ⟨s, hentry, haction⟩ := hcondition
    cases hgoes' with
    | passes hmalformed => simp [hentry] at hmalformed
    | evaluates hcondition' hverdict' hbranch' =>
      obtain ⟨s', hentry', haction'⟩ := hcondition'
      obtain rfl : s = s' := by simpa [hentry] using hentry'
      rw [haction] at haction'
      cases haction'
      subst hverdict hbranch hverdict' hbranch'
      exact ⟨rfl, rfl⟩

/-- Whatever rounds there are, those up to the halt start with them. -/
theorem Rounds.prefix_of_halts {others : List Round} (hrun : Rounds flow text p rounds q)
    (halts : Halts flow text q) (hother : Rounds flow text p others r) : others <+: rounds := by
  induction hrun generalizing others with
  | nil p =>
    cases hother with
    | nil => exact List.prefix_rfl
    | cons hfirst hrest => exact absurd hfirst (halts _ _)
  | cons hfirst hrest ih =>
    cases hother with
    | nil => exact List.nil_prefix
    | cons hfirst' hrest' =>
      obtain ⟨rfl, rfl⟩ := hfirst.unique hfirst'
      exact (List.prefix_cons_inj _).2 (ih halts hrest')

theorem exists_halts (flow : Flow) (text : String) (p : Position) :
    ∃ rounds q, Rounds flow text p rounds q ∧ Halts flow text q := by
  induction hleft : room flow p using Nat.strongRecOn generalizing p with
  | ind n ih =>
    by_cases halts : Halts flow text p
    · exact ⟨[], p, .nil p, halts⟩
    · obtain ⟨round, q, hgoes⟩ : ∃ round q, Goes flow text p round q := by
        simpa [Halts] using halts
      obtain ⟨rounds, r, hrun, hstops⟩ := ih (room flow q) (hleft ▸ hgoes.room_lt) q rfl
      exact ⟨round :: rounds, r, .cons hgoes hrun, hstops⟩

/-! ## What the walk does in its rounds -/

variable {ctx : Context}

/-- In a round the walk stores the conversation behind a condition, if there is one. -/
theorem walk_of_goes (hgoes : Goes flow ctx.text p round q) :
    (walk ctx flow p.budget p.conversation).2 = (walk ctx flow q.budget q.conversation).2 ∧
      saved (walk ctx flow p.budget p.conversation).1 =
        evaluated [round] ++ saved (walk ctx flow q.budget q.conversation).1 := by
  cases hgoes with
  | passes hmalformed =>
    rw [walk_malformed hmalformed]
    exact ⟨rfl, rfl⟩
  | evaluates hcondition hverdict hbranch =>
    subst hverdict
    rw [walk_condition_succ hcondition _ hbranch]
    refine ⟨rfl, ?_⟩
    simp only [saved_append, saved_unreadableEvents, saved_save, List.nil_append]
    rfl

/-- In its rounds the walk stores the conversations behind the conditions. -/
theorem walk_of_rounds (hrun : Rounds flow ctx.text p rounds q) :
    (walk ctx flow p.budget p.conversation).2 = (walk ctx flow q.budget q.conversation).2 ∧
      saved (walk ctx flow p.budget p.conversation).1 =
        evaluated rounds ++ saved (walk ctx flow q.budget q.conversation).1 := by
  induction hrun with
  | nil p => exact ⟨rfl, rfl⟩
  | @cons p q r round rounds hfirst hrest ih =>
    obtain ⟨hresult, hstored⟩ := walk_of_goes hfirst
    have hsplit : evaluated (round :: rounds) = evaluated [round] ++ evaluated rounds := by
      cases round <;> rfl
    refine ⟨hresult.trans ih.1, ?_⟩
    rw [hstored, ih.2, hsplit, List.append_assoc]

/-- What is stored at the end of a turn: nothing if it is stuck, otherwise once where it ended. -/
inductive StoresLast : Outcome → List Conversation → Prop where
  | stuck (c : Conversation) : StoresLast (.stuck c) []
  | acted (action : TurnAction) (message : Option String) (c : Conversation) :
      StoresLast (.acted action message c) [c]

/-- The last store is missing exactly where the limit was met. -/
theorem StoresLast.eq_nil_iff {outcome : Outcome} {last : List Conversation}
    (hstores : StoresLast outcome last) :
    last = [] ↔ outcome.reason = some "condition_hop_limit" := by
  cases hstores with
  | stuck c => exact ⟨fun _ => rfl, fun _ => rfl⟩
  | acted action message c => simp [Outcome.reason]

theorem walk_of_halts {now : String} (hnow : ctx.now = .str now) (halts : Halts flow ctx.text p) :
    ∃ outcome, (walk ctx flow p.budget p.conversation).2 = .ok outcome ∧
      StoresLast outcome (saved (walk ctx flow p.budget p.conversation).1) := by
  obtain ⟨budget, c⟩ := p
  have hends {action : TurnAction} {message : Option String} {final : Conversation}
      (hspoken : Spoken flow now c action message final) :
      ∃ outcome, (walk ctx flow budget c).2 = .ok outcome ∧
        StoresLast outcome (saved (walk ctx flow budget c).1) := by
    obtain ⟨hresult, hstored⟩ := walk_of_spoken hnow budget hspoken
    refine ⟨_, hresult, ?_⟩
    rw [hstored]
    exact .acted action message final
  cases hentry : flow.entry? c.stepIndex with
  | none => exact hends (.outside hentry)
  | some e =>
    cases e with
    | malformed raw reason => exact absurd (.passes hentry) (halts _ _)
    | step s =>
      by_cases hsilent : ∃ expr thenTarget elseTarget,
          s.action = .condition expr thenTarget elseTarget
      · obtain ⟨expr, thenTarget, elseTarget, haction⟩ := hsilent
        have hcondition : IsCondition flow c.stepIndex expr thenTarget elseTarget :=
          ⟨s, hentry, haction⟩
        cases budget with
        | zero =>
          rw [walk_condition_zero hcondition]
          exact ⟨_, rfl, .stuck c⟩
        | succ budget => exact absurd (.evaluates hcondition rfl rfl) (halts _ _)
      · have hspeaks : ∀ expr thenTarget elseTarget,
            s.action ≠ .condition expr thenTarget elseTarget :=
          fun expr thenTarget elseTarget haction => hsilent ⟨expr, thenTarget, elseTarget, haction⟩
        obtain ⟨action, message, final, hspoken⟩ := exists_spoken flow now hentry hspeaks
        exact hends hspoken

/-- A turn told by its rounds: they come to a halt, which no run of rounds goes beyond; there are no
more of them than the limit and the flow allow for; and the turn stores the conversation behind
every condition, and once more at the end unless it is stuck. -/
structure Tally (flow : Flow) (text : String) (limit : Nat) (c : Conversation) (outcome : Outcome)
    (saves : List Conversation) (rounds : List Round) : Prop where
  halts : ∃ stop, Rounds flow text ⟨limit, c⟩ rounds stop ∧ Halts flow text stop
  only : ∀ others stop, Rounds flow text ⟨limit, c⟩ others stop → others <+: rounds
  length_le : rounds.length ≤ limit * (flow.size + 1) + flow.size
  evaluated_le : (evaluated rounds).length ≤ limit
  stores : ∃ last, saves = evaluated rounds ++ last ∧ StoresLast outcome last ∧
    (last = [] ↔ outcome.reason = some "condition_hop_limit")

/-- Every walk is told by its rounds. -/
theorem exists_tally {now : String} (hnow : ctx.now = .str now) (flow : Flow) (limit : Nat)
    (c : Conversation) :
    ∃ outcome rounds, (walk ctx flow limit c).2 = .ok outcome ∧
      Tally flow ctx.text limit c outcome (saved (walk ctx flow limit c).1) rounds := by
  obtain ⟨rounds, stop, hrun, halts⟩ := exists_halts flow ctx.text ⟨limit, c⟩
  obtain ⟨outcome, hsaid, hlast⟩ := walk_of_halts hnow halts
  obtain ⟨hresult, hstored⟩ := walk_of_rounds hrun
  refine ⟨outcome, rounds, hresult.trans hsaid, ?_⟩
  exact {
    halts := ⟨stop, hrun, halts⟩
    only := fun others other hmore => hrun.prefix_of_halts halts hmore
    length_le := hrun.length_le_limit
    evaluated_le := by
      have hpaid := hrun.length_evaluated
      exact Nat.le_of_add_right_le (Nat.le_of_eq hpaid)
    stores := ⟨_, hstored, hlast, hlast.eq_nil_iff⟩ }

end Turn

namespace Inbound

variable {σ : Type} {access : (a : Store.Access) → Run σ a.Answer} {log : Event → σ → σ}
  {tenant counterparty : Value} {name clock : String} {s s₁ : σ}

/-- Without a flow a message reads nothing more and stores nothing. -/
theorem handle_notFound (hops : Int) (text now : Option String)
    (hloaded : access (.loadFlow tenant (.str name)) s = (.ok none, s₁)) :
    let message := handle clock hops (ofTexts tenant counterparty text name now)
    (message.run access log s).1 = .ok (.notFound name) ∧
      message.accesses access log s = [.loadFlow tenant (.str name)] := by
  intro message
  simp only [message, handle_eq, Program.accesses, Program.run, Run.bind, Program.trail, hloaded]
  exact ⟨rfl, rfl⟩

/-- Without steps a message reads nothing more and stores nothing. -/
theorem handle_empty (hops : Int) (text now : Option String) {flow : Flow}
    (hloaded : access (.loadFlow tenant (.str name)) s = (.ok (some flow), s₁))
    (hsteps : flow.steps = []) :
    let message := handle clock hops (ofTexts tenant counterparty text name now)
    (message.run access log s).1 = .ok (.empty name) ∧
      message.accesses access log s = [.loadFlow tenant (.str name)] := by
  have hempty : flow.steps.isEmpty = true := by rw [hsteps, List.isEmpty_nil]
  intro message
  simp only [message, handle_eq, Program.accesses, Program.run, Run.bind, Program.trail, hloaded,
    if_pos hempty]
  exact ⟨rfl, rfl⟩

variable (log) in
/-- Without a flow, or with one that has no steps, a message reads nothing more and stores nothing.
Otherwise its turn is told by its rounds, and the message stores the conversations of the turn in
their order and nothing else. -/
theorem handle_tallies (hops : Int) (text now : Option String) {found : Option Flow}
    (hloaded : access (.loadFlow tenant (.str name)) s = (.ok found, s₁)) :
    let message := handle clock hops (ofTexts tenant counterparty text name now)
    (found = none →
      (message.run access log s).1 = .ok (.notFound name) ∧
        message.accesses access log s = [.loadFlow tenant (.str name)]) ∧
    (∀ flow, found = some flow → flow.steps = [] →
      (message.run access log s).1 = .ok (.empty name) ∧
        message.accesses access log s = [.loadFlow tenant (.str name)]) ∧
    ∀ {flow : Flow} {key : String} {stored : Option Conversation} {s₂ : σ} {Good : σ → Prop},
      found = some flow → flow.steps ≠ [] → Store.counterpartyKey counterparty = .ok key →
      (Store.getConversation clock tenant counterparty).run access log s₁ = (.ok stored, s₂) →
      Takes access log (Identifier.safeName tenant) key Good → Good s₂ →
      ∃ outcome saves rounds,
        Turn.Tally flow (stripped text) hops.toNat
          (Turn.answered (stripped text) (Turn.resumed name (timeOf clock now) stored)) outcome
          saves rounds ∧
        (message.run access log s).1 = .ok outcome ∧
        message.accesses access log s =
          .loadFlow tenant (.str name) :: .fetchConversation (Identifier.safeName tenant) key ::
            saves.map fun c =>
              .putConversation (Identifier.safeName tenant) key (.dict c.document) := by
  intro message
  refine ⟨?_, ?_, ?_⟩
  · rintro rfl
    exact handle_notFound hops text now hloaded
  · rintro flow rfl hsteps
    exact handle_empty hops text now hloaded hsteps
  · rintro flow key stored s₂ Good rfl hsteps hkey hfetched htakes hgood
    let ctx := context hops tenant counterparty text (timeOf clock now)
    let start := Turn.answered (stripped text) (Turn.resumed name (timeOf clock now) stored)
    have htaken : Turn.run ctx flow (Turn.resumed name (timeOf clock now) stored) =
        Turn.walk ctx flow hops.toNat start := by
      rw [Turn.run, record_eq]
      rfl
    obtain ⟨outcome, rounds, hfine, htally⟩ :=
      Turn.exists_tally (show ctx.now = _ from rfl) flow hops.toNat start
    obtain ⟨hran, hasked, -⟩ := handle_spec log hkey hsteps hloaded hfetched htakes hgood htaken
      hfine
    exact ⟨outcome, _, rounds, htally, hran, hasked⟩

/-- A flow that goes round: malformed data, and a condition that leads back to it. -/
def roundabout : Flow where
  id := "intake"
  name := "intake"
  createdAt := "t0"
  steps :=
    [.malformed (.str "?") "Input should be a valid dictionary or object to extract fields from",
     .step { id := Step.freshId, action := .condition (some "city == Pune") none (some 0) }]

/-- A store in memory with that flow and no conversation. -/
def roundaboutStore : Traced Store.Memory where
  state := { flows := [(("acme", "intake"), .dict roundabout.document)] }

/-- A message to `roundabout` is told by its rounds. -/
theorem handle_tallies_roundabout :
    ∃ outcome saves rounds,
      Turn.Tally roundabout "Hi" 2
        (Turn.answered "Hi" (Turn.resumed "intake" "t2" none)) outcome saves rounds ∧
      ((handle "t1" 2 (ofTexts (.str "Acme") (.str "+1 555") (some " Hi ") "intake"
        (some "t2"))).run (Store.Memory.access "t1") Traced.log roundaboutStore).1 =
          .ok outcome := by
  have hloaded : Store.Memory.access "t1" (.loadFlow (.str "Acme") (.str "intake"))
    roundaboutStore =
      (.ok (some roundabout), roundaboutStore) := rfl
  have hfetched : (Store.getConversation "t1" (.str "Acme") (.str "+1 555")).run
      (Store.Memory.access "t1") Traced.log roundaboutStore = (.ok none, roundaboutStore) := rfl
  have hkey : Store.counterpartyKey (.str "+1 555") = .ok "1555" := rfl
  obtain ⟨-, -, htallies⟩ := handle_tallies Traced.log 2 (some " Hi ") (some "t2") hloaded
  obtain ⟨outcome, saves, rounds, htally, hran, -⟩ :=
    htallies rfl (List.cons_ne_nil _ _) hkey hfetched
    (takes_memory "t1" "acme" "1555") trivial
  exact ⟨outcome, saves, rounds, htally, hran⟩

end Inbound

end Dialogue

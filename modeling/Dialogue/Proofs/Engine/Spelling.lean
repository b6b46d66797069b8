import Dialogue.Proofs.Engine.Holding

/-!
# Names that only differ in spelling

A turn does not look at the name of its flow: of a conversation under another name the same is told,
under this name (`Turn.Told.named`).  It is only when a message comes in that names are compared,
and the stored conversation goes on under exactly the name that it has; under every other name the
message starts a fresh one (`Turn.Reference.of_starts`), of which the same is told under every name
(`Turn.Reference.named`).

What a message answers that starts afresh is a matter of the flow, and of whether the store takes
the conversations of the tenant (`Inbound.Treats.answer`).
-/

namespace Dialogue

/-- The conversation under another name of its flow. -/
def Conversation.named (name : String) (c : Conversation) : Conversation := { c with flow := name }

/-- The outcome with another name of the flow. -/
def Outcome.named (name : String) : Outcome → Outcome
  | .notFound _ => .notFound name
  | .empty _ => .empty name
  | .stuck c => .stuck (c.named name)
  | .acted action message c => .acted action message (c.named name)

/-- The outcome without the name of the flow. -/
def Outcome.unnamed : Outcome → Outcome := named ""

theorem Outcome.unnamed_named (name : String) (o : Outcome) :
    (o.named name).unnamed = o.unnamed := by
  cases o <;> rfl

namespace Turn

variable {flow : Flow} {text now name name' : String} {limit : Nat} {c final : Conversation}
  {action : TurnAction} {message : Option String} {outcome outcome' : Outcome}
  {saves saves' : List Conversation} {stored : Option Conversation}

theorem Spoken.named (hspoken : Spoken flow now c action message final) (name : String) :
    Spoken flow now (c.named name) action message (final.named name) := by
  cases hspoken with
  | outside hnothing => exact .outside hnothing
  | question hasks => exact .question hasks
  | replyAndQuestion hentry hreplies hasks => exact .replyAndQuestion hentry hreplies hasks
  | reply hentry hreplies halone => exact .reply hentry hreplies halone
  | handoff hentry hands => exact .handoff hentry hands
  | finish hentry hends => exact .finish hentry hends

theorem Told.named (htold : Told flow text now limit c outcome saves) (name : String) :
    Told flow text now limit (c.named name) (outcome.named name)
      (saves.map (Conversation.named name)) := by
  have hmoves (ks : List Int) :
      (ks.map c.moved).map (Conversation.named name) = ks.map (c.named name).moved := by
    rw [List.map_map]
    rfl
  cases htold with
  | limit hpath hspent hcondition =>
    rw [hmoves]
    exact .limit hpath hspent hcondition
  | ends hpath hwithin hspoken =>
    rw [List.map_append, hmoves]
    exact .ends hpath hwithin (hspoken.named name)

theorem resumed_of_starts (hstarts : ∀ c, stored = some c → c.isCompleted = false → c.flow ≠ name)
    (now : String) : resumed name now stored = resumed name now none := by
  cases stored with
  | none => rfl
  | some c => exact if_neg fun ⟨hown, hgoesOn⟩ => hstarts c rfl hgoesOn hown

/-- What is told of a stored conversation that does not go on is told of a fresh one. -/
theorem Reference.of_starts
    (hstarts : ∀ c, stored = some c → c.isCompleted = false → c.flow ≠ name)
    (htold : Reference flow name text now limit stored outcome saves) :
    Reference flow name text now limit none outcome saves := by
  rwa [Reference, resumed_of_starts hstarts] at htold

theorem Reference.named (htold : Reference flow name text now limit none outcome saves)
    (htold' : Reference flow name' text now limit none outcome' saves') :
    outcome' = outcome.named name' ∧ saves' = saves.map (Conversation.named name') := by
  have hfresh : Reference flow name' text now limit none (outcome.named name')
      (saves.map (Conversation.named name')) := Told.named htold name'
  exact htold'.unique hfresh

end Turn

namespace Inbound

open Program

variable {σ : Type} {access : (a : Store.Access) → Run σ a.Answer} {log : Event → σ → σ}
  {tenant counterparty : Value} {key : String} {s : σ} {takes : Bool} {Good : σ → Prop}

/-- From a good state on, a store takes all the conversations of a tenant, or it takes none, and it
stays good. -/
structure Treats (access : (a : Store.Access) → Run σ a.Answer) (log : Event → σ → σ)
    (tenant : Value) (takes : Bool) (Good : σ → Prop) : Prop where
  put : ∀ {s} {c : Conversation} (key : String), c.IsSound → Good s → ∃ r t,
    access (.putConversation (Identifier.safeName tenant) key c.written) s = (r, t) ∧
      r.isOk = takes ∧ Good t
  log : ∀ {s} e, Good s → Good (log e s)

/-- Effects are carried out where the store takes what they store, and where they store nothing. -/
theorem Treats.carryOut (htreats : Treats access log tenant takes Good)
    (hkey : Store.counterpartyKey counterparty = .ok key) {effects : List Turn.Effect}
    (hsound : ∀ c ∈ Turn.saved effects, c.IsSound) (hgood : Good s) :
    ((carryOut tenant counterparty effects).run access log s).1.isOk =
      ((Turn.saved effects).isEmpty || takes) := by
  induction effects generalizing s with
  | nil => rfl
  | cons effect rest ih =>
    cases effect with
    | log e => exact ih hsound (htreats.log e hgood)
    | save c =>
      rw [Turn.saved_save] at hsound ⊢
      obtain ⟨hfirst, hothers⟩ := List.forall_mem_cons.1 hsound
      obtain ⟨r, t, hput, htaken, hgood⟩ := htreats.put key hfirst hgood
      have hput : access (.putConversation (Identifier.safeName tenant) key (.dict c.document)) s =
        (r, t) := hput
      simp only [Inbound.carryOut, Store.setConversation_eq hkey, Program.bind, Program.run,
        Run.bind, hput]
      cases r with
      | error f => exact htaken
      | ok _ =>
        obtain rfl : true = takes := htaken
        simpa using ih hothers hgood

/-- What a message answers that starts afresh. -/
theorem Treats.answer (htreats : Treats access log tenant takes Good)
    (hkey : Store.counterpartyKey counterparty = .ok key) {effects : List Turn.Effect}
    {outcome : Outcome} (hsound : ∀ c ∈ Turn.saved effects, c.IsSound) (hgood : Good s) :
    (((Inbound.carryOut tenant counterparty effects).bind fun _ => .done outcome).run access log
      s).1.toOption = if (Turn.saved effects).isEmpty || takes then some outcome else none := by
  have hcarried := htreats.carryOut hkey hsound hgood
  rw [run_bind_apply, ← hcarried]
  rcases (Inbound.carryOut tenant counterparty effects).run access log s with ⟨f | _, t⟩ <;> rfl

end Inbound

end Dialogue

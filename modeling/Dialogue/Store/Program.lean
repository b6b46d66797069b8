import Dialogue.Flow.Document
import Dialogue.Run

/-!
# Programs over a store

What the library does with a store is written once for all kinds of stores, as a `Program`: a
sequence of single accesses (`Store.Access`) in which later accesses depend on earlier answers, with
log events in between, ending in a result or a failure.  A kind of store is an interpretation of the
accesses; `Program.run` runs a program under an interpretation.

An access is the unit that no other access divides, so programs also say how calls that run side by
side may interleave.  `run_bind` says that running follows the sequence of a program.
-/

namespace Dialogue

/-- A single access to a store.  Flows lie under a tenant and a name, conversations under the
storage keys of a tenant and a counterparty. -/
inductive Store.Access where
  | loadFlow (tenant name : Value)
  | createFlow (tenant : Value) (flow : Flow)
  | writeFlow (tenant : Value) (flow : Flow)
  | listFlows (tenant : Value)
  | locateFlow (tenant name : Value)
  | fetchConversation (tenant key : String)
  | putConversation (tenant key : String) (document : Value)
  | deleteConversation (tenant key : String)
  | listConversations (tenant : Value)

/-- Whether an access is one to flows; the others are to conversations. -/
def Store.Access.isAboutFlows : Store.Access → Bool
  | .loadFlow _ _ | .createFlow _ _ | .writeFlow _ _ | .listFlows _ | .locateFlow _ _ => true
  | .fetchConversation _ _ | .putConversation _ _ _ | .deleteConversation _ _
  | .listConversations _ => false

/-- What an access answers. -/
abbrev Store.Access.Answer : Store.Access → Type
  | .loadFlow _ _ => Option Flow
  | .createFlow _ _ => Bool
  | .writeFlow _ _ => String
  | .listFlows _ => List String
  | .locateFlow _ _ => String
  | .fetchConversation _ _ => Option Value
  | .putConversation _ _ _ => Unit
  | .deleteConversation _ _ => Bool
  | .listConversations _ => List String

/-- A sequence of accesses and log events that ends in a result or a failure. -/
inductive Program (α : Type) where
  | done (a : α)
  | fail (f : Failure)
  | log (e : Event) (next : Program α)
  | access (a : Store.Access) (next : a.Answer → Program α)

namespace Program

variable {α β : Type}

/-- One program after another. -/
def bind : Program α → (α → Program β) → Program β
  | .done a, k => k a
  | .fail f, _ => .fail f
  | .log e next, k => .log e (next.bind k)
  | .access a next, k => .access a fun r => (next r).bind k

instance : Monad Program where
  pure := .done
  bind := bind

/-- A single access. -/
def perform (a : Store.Access) : Program a.Answer := .access a .done

/-- A single log event. -/
def tell (e : Event) : Program Unit := .log e (.done ())

/-- Goes on with a result or ends in the failure that stands for it. -/
def ofExcept {ε : Type} (toFailure : ε → Failure) : Except ε α → Program α
  | .ok a => .done a
  | .error e => .fail (toFailure e)

/-- Several log events. -/
def tellAll : List Event → Program Unit
  | [] => .done ()
  | e :: rest => .log e (tellAll rest)

end Program

namespace Program

variable {σ α β : Type}

/-- Runs a program under an interpretation of accesses and log events. -/
def run (access : (a : Store.Access) → Run σ a.Answer) (log : Event → σ → σ) :
    Program α → Run σ α
  | .done a => Run.pure a
  | .fail f => Run.fail f
  | .log e next => fun s => next.run access log (log e s)
  | .access a next => Run.bind (access a) fun r => (next r).run access log

/-- Running one program after another is one run after another. -/
theorem run_bind (access : (a : Store.Access) → Run σ a.Answer) (log : Event → σ → σ)
    (p : Program α) (k : α → Program β) :
    (p.bind k).run access log =
      Run.bind (p.run access log) fun a => (k a).run access log := by
  induction p with
  | done a => rfl
  | fail f => rfl
  | log e next ih => funext s; exact congrFun ih (log e s)
  | access a next ih =>
    funext s
    show Run.bind (access a) (fun r => ((next r).bind k).run access log) s = _
    simp only [ih, run, Run.bind]
    cases h : access a s with
    | mk r t => cases r <;> rfl

end Program

end Dialogue

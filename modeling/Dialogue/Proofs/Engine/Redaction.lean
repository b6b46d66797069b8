import Dialogue.Proofs.Engine.Conduct
import Dialogue.Proofs.Store.Twins

/-!
# What is done with two counterparties

Two programs go in parallel if they make the same accesses, one to the conversation under one key
and the other to that under another key, and log the same (`Program.Parallels`).  Where the two
conversations are twins, the programs are answered alike and go on in parallel to the end
(`Program.Parallels.coupled`).

Whatever is done with a counterparty names it in logs by its redacted number only.  So messages,
reads and removals go in parallel for counterparties whose redacted numbers are the same
(`Inbound.parallels_handle`, `Store.parallels_getConversation`,
`Store.parallels_clearConversation`).
-/

namespace Dialogue

open Store Run

namespace Program

variable {α β γ δ σ : Type} {asText : Prop} {key key' : Key} {Q : α → β → Prop}

/-- Two programs make the same accesses, each to the conversation under its own key, and log the
same.  Where conversations are written as text, what is put has to be one that can be read again. -/
inductive Parallels (asText : Prop) (key key' : Key) (Q : α → β → Prop) :
    Program α → Program β → Prop where
  | done {a b} (related : Q a b) : Parallels asText key key' Q (.done a) (.done b)
  | fail (f g : Failure) : Parallels asText key key' Q (.fail f) (.fail g)
  | log (e : Event) {next next'} (rest : Parallels asText key key' Q next next') :
      Parallels asText key key' Q (.log e next) (.log e next')
  | load (tenant name : Value) {next next'}
      (rest : ∀ r, Parallels asText key key' Q (next r) (next' r)) :
      Parallels asText key key' Q (.access (.loadFlow tenant name) next)
        (.access (.loadFlow tenant name) next')
  | fetch {next next'} (rest : ∀ r, (∀ doc, r = some doc → asText → doc.IsDocument) →
        Parallels asText key key' Q (next r) (next' r)) :
      Parallels asText key key' Q (.access (.fetchConversation key.1 key.2) next)
        (.access (.fetchConversation key'.1 key'.2) next')
  | put {doc : Value} {next next'} (json : asText → doc.IsJson)
      (rest : Parallels asText key key' Q (next ()) (next' ())) :
      Parallels asText key key' Q (.access (.putConversation key.1 key.2 doc) next)
        (.access (.putConversation key'.1 key'.2 doc) next')
  | delete {next next'} (rest : ∀ r, Parallels asText key key' Q (next r) (next' r)) :
      Parallels asText key key' Q (.access (.deleteConversation key.1 key.2) next)
        (.access (.deleteConversation key'.1 key'.2) next')

theorem Parallels.bind {Q' : γ → δ → Prop} {p : Program α} {p' : Program β}
    {k : α → Program γ} {k' : β → Program δ} (hfirst : p.Parallels asText key key' Q p')
    (hsecond : ∀ a b, Q a b → (k a).Parallels asText key key' Q' (k' b)) :
    (p.bind k).Parallels asText key key' Q' (p'.bind k') := by
  induction hfirst with
  | done hrelated => exact hsecond _ _ hrelated
  | fail f g => exact .fail f g
  | log e hrest ih => exact .log e ih
  | load tenant name hrest ih => exact .load tenant name ih
  | fetch hrest ih => exact .fetch ih
  | put hjson hrest ih => exact .put hjson ih
  | delete hrest ih => exact .delete ih

/-- Programs that go in parallel come to the same on twins. -/
theorem Parallels.coupled {access : (a : Access) → Run σ a.Answer} {log : Event → σ → σ}
    {E R : σ → σ → Prop} (htandem : Tandem asText key key' E R access)
    (hlogs : ∀ e s s', R s s' → R (log e s) (log e s')) {p : Program α} {p' : Program β}
    (hparallels : p.Parallels asText key key' Q p') {s s' : σ} (hrelated : R s s') :
    Coupled E (fun a b u u' => Q a b ∧ R u u') (p.run access log s) (p'.run access log s') := by
  induction hparallels generalizing s s' with
  | done hsame => exact .ok ⟨hsame, hrelated⟩
  | fail f g => exact .error (htandem.same hrelated)
  | log e hrest ih => exact ih (hlogs e s s' hrelated)
  | load tenant name hrest ih =>
    refine (htandem.load tenant name hrelated).bind ?_
    rintro r _ u u' ⟨rfl, hrelated⟩
    exact ih r hrelated
  | fetch hrest ih =>
    refine (htandem.fetch hrelated).bind ?_
    rintro r _ u u' ⟨rfl, hdocument, hrelated⟩
    exact ih r hdocument hrelated
  | put hjson hrest ih =>
    refine (htandem.put _ hrelated).bind ?_
    rintro _ _ u u' ⟨-, hgoesOn⟩
    exact ih (hgoesOn hjson)
  | delete hrest ih =>
    refine (htandem.delete hrelated).bind ?_
    rintro r _ u u' ⟨rfl, hrelated⟩
    exact ih r hrelated

end Program

variable {asText : Prop} {tenant id id' : Value} {clock number number' : String}

namespace Store

/-- Either both of two counterparties have a key, or none has, if their redacted numbers are the
same. -/
theorem counterpartyKey_of_redact_eq (hredacted : Identifier.redact id = Identifier.redact id') :
    (counterpartyKey id = .ok (Identifier.digits id) ∧
        counterpartyKey id' = .ok (Identifier.digits id')) ∨
      ∃ f f', counterpartyKey id = .error f ∧ counterpartyKey id' = .error f' := by
  have hcount := (Identifier.redact_inj_iff.1 hredacted).1
  have hempty_iff (s : String) : s = "" ↔ s.toList.length = 0 := by simp
  by_cases hempty : Identifier.digits id = ""
  · have hempty' : Identifier.digits id' = "" := by rwa [hempty_iff, ← hcount, ← hempty_iff]
    exact .inr ⟨.noDigits id, .noDigits id', by simp [counterpartyKey, hempty],
      by simp [counterpartyKey, hempty']⟩
  · have hdigit' : Identifier.digits id' ≠ "" := by rwa [Ne, hempty_iff, ← hcount, ← hempty_iff]
    exact .inl ⟨counterpartyKey_of_digits hempty, counterpartyKey_of_digits hdigit'⟩

variable (hredacted : Identifier.redact id = Identifier.redact id')

include hredacted

theorem parallels_getConversation (asText : Prop) (clock : String) (tenant : Value) :
    (getConversation clock tenant id).Parallels asText (conversationKey tenant id)
      (conversationKey tenant id')
      (fun r r' => r = r' ∧ ∀ c, r = some c → asText → c.IsWritable)
      (getConversation clock tenant id') := by
  rcases counterpartyKey_of_redact_eq hredacted with ⟨hkey, hkey'⟩ | ⟨f, f', hnone, hnone'⟩
  · rw [getConversation_eq hkey, getConversation_eq hkey']
    refine .fetch fun found hdocument => ?_
    cases found with
    | none => exact .done ⟨rfl, by simp⟩
    | some doc =>
      dsimp only
      split
      · exact .done ⟨rfl, by simp⟩
      · cases hread : Conversation.ofValue clock doc with
        | error mismatch =>
          rw [hredacted]
          exact .log _ (.done ⟨rfl, by simp⟩)
        | ok c =>
          refine .done ⟨rfl, ?_⟩
          rintro _ ⟨⟩ htext
          exact Conversation.isWritable_of_ofValue (hdocument doc rfl htext) hread
  · unfold getConversation
    rw [hnone, hnone']
    exact .fail _ _

theorem parallels_clearConversation (asText : Prop) (tenant : Value) :
    (clearConversation tenant id).Parallels asText (conversationKey tenant id)
      (conversationKey tenant id') (· = ·) (clearConversation tenant id') := by
  rcases counterpartyKey_of_redact_eq hredacted with ⟨hkey, hkey'⟩ | ⟨f, f', hnone, hnone'⟩
  · rw [clearConversation_eq hkey, clearConversation_eq hkey']
    refine .delete fun removed => ?_
    cases removed with
    | false => exact .done rfl
    | true =>
      rw [Identifier.redact_digits, Identifier.redact_digits, hredacted]
      exact .log _ (.done rfl)
  · unfold clearConversation
    rw [hnone, hnone']
    exact .fail _ _

end Store

namespace Inbound

/-- Effects are carried out in parallel. -/
theorem parallels_carryOut (hkey : counterpartyKey id = .ok (Identifier.digits id))
    (hkey' : counterpartyKey id' = .ok (Identifier.digits id')) (effects : List Turn.Effect)
    (hwritable : ∀ c ∈ Turn.saved effects, asText → c.IsWritable) :
    (carryOut tenant id effects).Parallels asText (conversationKey tenant id)
      (conversationKey tenant id') (fun _ _ => True) (carryOut tenant id' effects) := by
  induction effects with
  | nil => exact .done trivial
  | cons effect rest ih =>
    cases effect with
    | log e => exact .log e (ih hwritable)
    | save c =>
      rw [carryOut, carryOut, setConversation_eq hkey, setConversation_eq hkey']
      rw [Turn.saved_save] at hwritable
      obtain ⟨hfirst, hothers⟩ := List.forall_mem_cons.1 hwritable
      exact .put (fun htext => Value.IsPlain.isJson _ (hfirst htext).isPlain_document) (ih hothers)

/-- What a message does after its reads is a matter of the redacted number. -/
theorem exists_afterReading_pair (hredacted : Identifier.redact id = Identifier.redact id')
    (hops : Int) (tenant : Value) (text : Option String) (name time : String) (flow : Flow)
    {stored : Option Conversation} (hwritable : ∀ c, stored = some c → asText → c.IsWritable) :
    ∃ effects outcome,
      afterReading hops tenant id text name time flow stored =
        (carryOut tenant id effects).bind (fun _ => .done outcome) ∧
      afterReading hops tenant id' text name time flow stored =
        (carryOut tenant id' effects).bind (fun _ => .done outcome) ∧
      ∀ c ∈ Turn.saved effects, asText → c.IsWritable := by
  let ctx := context hops tenant id text time
  let start := Turn.answered (stripped text) (Turn.resumed name time stored)
  have htaken : Turn.run ctx flow (Turn.resumed name time stored) =
      Turn.walk ctx flow hops.toNat start := by
    rw [Turn.run, record_eq]
    rfl
  have hsame : context hops tenant id' text time = ctx := by
    rw [context, ← hredacted]
    rfl
  obtain ⟨outcome, hfine, htold⟩ := Turn.told_walk (show ctx.now = _ from rfl) flow hops.toNat start
  refine ⟨(Turn.walk ctx flow hops.toNat start).1, outcome, ?_, ?_, fun c hlisted hwritten => ?_⟩
  · rw [afterReading, htaken, hfine]
    rfl
  · rw [afterReading, hsame, htaken, hfine]
    rfl
  · exact Turn.inherited_isWritable.reference htold (fun c hread => hwritable c hread hwritten) c
      hlisted

theorem parallels_handle (hredacted : Identifier.redact id = Identifier.redact id') (asText : Prop)
    (clock : String) (hops : Int) (tenant : Value) (text : Option String) (name : String)
    (time : Option String) :
    (handle clock hops (ofTexts tenant id text name time)).Parallels asText
      (conversationKey tenant id) (conversationKey tenant id') (· = ·)
      (handle clock hops (ofTexts tenant id' text name time)) := by
  rw [handle_eq, handle_eq]
  refine .load tenant (.str name) fun found => ?_
  cases found with
  | none => exact .log _ (.done rfl)
  | some flow =>
    dsimp only
    split
    · exact .log _ (.done rfl)
    · rcases counterpartyKey_of_redact_eq hredacted with ⟨hkey, hkey'⟩ | ⟨f, f', hnone, hnone'⟩
      · refine (parallels_getConversation hredacted asText clock tenant).bind ?_
        rintro stored _ ⟨rfl, hwritable⟩
        obtain ⟨effects, outcome, hdoes, hdoes', hstores⟩ :=
          exists_afterReading_pair hredacted hops tenant text name (timeOf clock time)
            flow hwritable
        rw [hdoes, hdoes']
        exact (parallels_carryOut hkey hkey' effects hstores).bind fun _ _ _ => .done rfl
      · unfold getConversation
        rw [hnone, hnone']
        exact .fail f f'

end Inbound

end Dialogue

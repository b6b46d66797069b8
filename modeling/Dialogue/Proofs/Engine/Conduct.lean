import Dialogue.Proofs.Engine.Contents
import Dialogue.Proofs.Guarded
import Dialogue.Proofs.Store.Outcome

/-!
# What a message does to the store

A message loads flows, reads the conversation under the key of its counterparty and puts
conversations under this key, and nothing else (`Inbound.behaves_handle`).  In files, what it puts
can be read again if what it read was a document.
-/

namespace Dialogue

open Store

namespace Store

/-- The key under which the conversation with a counterparty lies. -/
def conversationKey (tenant counterparty : Value) : Key :=
  (Identifier.safeName tenant, Identifier.digits counterparty)

theorem counterpartyKey_eq_ok {counterparty : Value} {key : String}
    (hkey : counterpartyKey counterparty = .ok key) : key = Identifier.digits counterparty := by
  unfold counterpartyKey at hkey
  dsimp only at hkey
  split at hkey
  · cases hkey
  · exact (Except.ok.inj hkey).symm

theorem counterpartyKey_of_digits {counterparty : Value}
    (hdigit : Identifier.digits counterparty ≠ "") :
    counterpartyKey counterparty = .ok (Identifier.digits counterparty) := by
  simp [counterpartyKey, String.isEmpty_iff, hdigit]

/-- An access of the conversation under a key: it loads a flow, or it reads or writes what lies
under the key.  Where conversations are written as text, it writes what can be read again. -/
def Access.Converses (asText : Prop) (key : Key) : Access → Prop
  | .loadFlow _ _ => True
  | .fetchConversation tenant number => (tenant, number) = key
  | .putConversation tenant number doc => (tenant, number) = key ∧ (asText → doc.IsJson)
  | _ => False

/-- Where conversations are written as text, what is found is a document. -/
def Access.Finds (asText : Prop) : (a : Access) → a.Answer → Prop
  | .fetchConversation _ _, found => ∀ doc, found = some doc → asText → doc.IsDocument
  | _, _ => True

end Store

namespace Inbound

variable {asText : Prop} {tenant counterparty : Value} {key clock : String}

/-- What effects store goes under the key. -/
theorem behaves_carryOut (hkey : counterpartyKey counterparty = .ok key)
    (effects : List Turn.Effect) (hwritable : ∀ c ∈ Turn.saved effects, asText → c.IsWritable) :
    (carryOut tenant counterparty effects).Behaves
      (Access.Converses asText (conversationKey tenant counterparty)) (Access.Finds asText) := by
  induction effects with
  | nil => exact .done ()
  | cons effect rest ih =>
    cases effect with
    | log e => exact .log e (ih hwritable)
    | save c =>
      rw [carryOut, setConversation_eq hkey]
      rw [Turn.saved_save] at hwritable
      obtain ⟨hfirst, hothers⟩ := List.forall_mem_cons.1 hwritable
      refine .access ⟨?_, fun htext => ?_⟩ fun _ _ => ih hothers
      · rw [conversationKey, counterpartyKey_eq_ok hkey]
      · exact Value.IsPlain.isJson _ (hfirst htext).isPlain_document

/-- A conversation that is read can be written, and what is done with it behaves if it does so for
such a conversation. -/
theorem behaves_getConversation {α : Type} (hkey : counterpartyKey counterparty = .ok key)
    {k : Option Conversation → Program α}
    (hgoesOn : ∀ stored, (∀ c, stored = some c → asText → c.IsWritable) →
      (k stored).Behaves (Access.Converses asText (conversationKey tenant counterparty))
        (Access.Finds asText)) :
    ((getConversation clock tenant counterparty).bind k).Behaves
      (Access.Converses asText (conversationKey tenant counterparty)) (Access.Finds asText) := by
  have habsent := hgoesOn none (by simp)
  rw [getConversation_eq hkey]
  refine .access ?_ fun found hfinds => ?_
  · show (_, _) = conversationKey _ _
    rw [conversationKey, counterpartyKey_eq_ok hkey]
  · cases found with
    | none => exact habsent
    | some doc =>
      dsimp only
      split
      · exact habsent
      · cases hread : Conversation.ofValue clock doc with
        | error mismatch => exact .log _ habsent
        | ok c =>
          refine hgoesOn (some c) ?_
          rintro _ ⟨⟩ htext
          exact Conversation.isWritable_of_ofValue (hfinds doc rfl htext) hread

/-- A message accesses flows and the conversation under its key. -/
theorem behaves_handle (asText : Prop) (clock : String) (hops : Int) (tenant counterparty : Value)
    (text : Option String) (name : String) (time : Option String) :
    (handle clock hops (ofTexts tenant counterparty text name time)).Behaves
      (Access.Converses asText (conversationKey tenant counterparty)) (Access.Finds asText) := by
  rw [handle_eq]
  refine .access trivial fun found _ => ?_
  cases found with
  | none => exact .log _ (.done _)
  | some flow =>
    dsimp only
    split
    · exact .log _ (.done _)
    · cases hkey : counterpartyKey counterparty with
      | error f =>
        have hfails : getConversation clock tenant counterparty = .fail f := by
          unfold getConversation
          rw [hkey]
          rfl
        rw [hfails]
        exact .fail f
      | ok key =>
        refine behaves_getConversation hkey fun stored hwritable => ?_
        obtain ⟨effects, outcome, hdoes, htold, -⟩ :=
          exists_afterReading hops tenant counterparty text name (timeOf clock time) flow stored
        have hstores : ∀ c ∈ Turn.saved effects, asText → c.IsWritable := fun c hlisted hwritten =>
          Turn.inherited_isWritable.reference htold (fun c hread => hwritable c hread hwritten) c
            hlisted
        rw [hdoes]
        exact (behaves_carryOut hkey effects hstores).bind fun _ => .done outcome

end Inbound

end Dialogue

/-! ## What is seen of one conversation

Whoever follows one conversation sees of contents the flows and what lies under the key of the
conversation (`Memory.Sees`).  An access of the conversation agrees on contents that are seen alike
(`restsOn_agrees_of_converses`), and an access of another one spares what is seen
(`restsOn_spares_of_converses`).
-/

namespace Dialogue.Store

open Keyed Run

variable {key own : Key} {m m' : Memory} {asText : Prop} {a : Access}

/-- Contents show the same flows, and the same conversation under a key. -/
structure Memory.Sees (key : Key) (m m' : Memory) : Prop where
  flows : m.flows = m'.flows
  entry : m.conversations.get? key = m'.conversations.get? key
  distinct : (keys m.conversations).Nodup
  distinct' : (keys m'.conversations).Nodup

theorem Memory.Sees.refl (key : Key) (hdistinct : (keys m.conversations).Nodup) : m.Sees key m :=
  ⟨rfl, rfl, hdistinct, hdistinct⟩

theorem Memory.Sees.symm (hsees : m.Sees key m') : m'.Sees key m :=
  ⟨hsees.flows.symm, hsees.entry.symm, hsees.distinct', hsees.distinct⟩

theorem Memory.Sees.trans {m'' : Memory} (hsees : m.Sees key m') (hsees' : m'.Sees key m'') :
    m.Sees key m'' :=
  ⟨hsees.flows.trans hsees'.flows, hsees.entry.trans hsees'.entry, hsees.distinct, hsees'.distinct'⟩

theorem restsOn_agrees_of_converses (hconverses : a.Converses asText key) :
    a.RestsOn fun {_} m => Agrees (Silent (Memory.Sees key)) m := by
  have hconversation := agrees_reads (R := Memory.Sees key)
    (f := fun m => m.conversations.get? key) fun _ _ hsees => hsees.entry
  cases a with
  | loadFlow t name => exact agrees_reads fun m m' hsees => by rw [hsees.flows]
  | fetchConversation t number =>
    obtain rfl : (t, number) = key := hconverses
    exact hconversation
  | putConversation t number doc =>
    obtain ⟨rfl, -⟩ := hconverses
    refine ⟨hconversation, fun doc => agrees_write fun m m' hsees => ?_⟩
    exact
      { flows := hsees.flows
        entry := by simp [Memory.withConversation]
        distinct := nodup_set hsees.distinct _ _
        distinct' := nodup_set hsees.distinct' _ _ }
  | createFlow | writeFlow | listFlows | locateFlow | deleteConversation | listConversations =>
    exact hconverses.elim

theorem restsOn_spares_of_converses (hconverses : a.Converses asText own) (hdifferent : key ≠ own) :
    a.RestsOn fun {_} m => Spares (Silent (Memory.Sees key)) m := by
  cases a with
  | loadFlow t name => exact spares_reads _
  | fetchConversation t number => exact spares_reads _
  | putConversation t number doc =>
    obtain ⟨rfl, -⟩ := hconverses
    refine ⟨spares_reads _, fun doc => spares_write fun m m' hsees => ?_⟩
    exact
      { flows := hsees.flows
        entry := (get?_set_of_ne _ _ hdifferent).trans hsees.entry
        distinct := nodup_set hsees.distinct _ _
        distinct' := hsees.distinct' }
  | createFlow | writeFlow | listFlows | locateFlow | deleteConversation | listConversations =>
    exact hconverses.elim

end Dialogue.Store

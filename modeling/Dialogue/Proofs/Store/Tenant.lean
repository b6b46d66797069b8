import Dialogue.Authoring
import Dialogue.Proofs.Engine.Message
import Dialogue.Proofs.Related
import Dialogue.Proofs.Store.Directory.Contents
import Dialogue.Proofs.Store.Outcome

/-!
# The contents of one tenant

Every operation of the library is asked for by a tenant, and all its accesses are to the flows and
conversations under the storage key of that tenant, whatever they are answered.

Contents are *alike* for a tenant if the flows and the conversations under its storage key are the
same, in the same order (`Memory.Alike`).  An access of the tenant agrees on contents that are
alike (`restsOn_agrees`), and an access of another tenant spares what the tenant sees
(`restsOn_spares`).
-/

namespace Dialogue

open Program Store

/-- An access is to the flows or the conversations under the storage key of a tenant. -/
def Store.Access.IsOf (tenant : String) : Access → Prop
  | .loadFlow t _ | .createFlow t _ | .writeFlow t _ | .listFlows t | .locateFlow t _
  | .listConversations t => Identifier.safeName t = tenant
  | .fetchConversation t _ | .putConversation t _ _ | .deleteConversation t _ => t = tenant

/-- A program stays with the flows and conversations of a tenant. -/
abbrev Program.StaysWith {α : Type} (tenant : Value) (p : Program α) : Prop :=
  p.Makes (Access.IsOf (Identifier.safeName tenant))

namespace Store

variable (now : String) (tenant counterparty name : Value)

theorem staysWith_saveFlow (flow : Flow) : (saveFlow now tenant flow).StaysWith tenant := by
  cases hnamed : flow.name.isEmpty with
  | true =>
    rw [saveFlow_eq_fail hnamed]
    exact .fail _
  | false =>
    rw [saveFlow_eq hnamed]
    exact .access rfl fun _ => .access rfl fun _ => .log _ (.done _)

theorem staysWith_ensurePreset : (ensurePreset now tenant name).StaysWith tenant := by
  cases hmade : Flow.ofPresetNamed now .leadQualification name with
  | error mismatch =>
    unfold ensurePreset
    rw [hmade]
    exact .fail _
  | ok preset =>
    rw [ensurePreset_eq hmade]
    have hlocated : ∀ created : Bool, (Program.access (.locateFlow tenant name) fun location =>
        .done (created, location)).StaysWith tenant := fun created => .access rfl fun _ => .done _
    refine .access rfl fun created => ?_
    cases created with
    | true => exact .log _ (hlocated true)
    | false => exact hlocated false

theorem staysWith_loadOrCreate : (loadOrCreate now tenant name).StaysWith tenant := by
  rw [loadOrCreate_eq]
  refine .access rfl fun found => ?_
  cases found with
  | some flow => exact .done flow
  | none =>
    cases Flow.ofPresetNamed now .leadQualification name with
    | error mismatch => exact .fail _
    | ok preset =>
      refine .access rfl fun _ => .access rfl fun found => ?_
      cases found with
      | none => exact .fail _
      | some flow => exact .done flow

theorem staysWith_appendStep (step : Value) :
    (appendStep now tenant name step).StaysWith tenant := by
  rw [appendStep_eq]
  exact (staysWith_loadOrCreate now tenant name).bind fun _ => .access rfl fun _ => .log _ (.done _)

theorem staysWith_getConversation :
    (getConversation now tenant counterparty).StaysWith tenant := by
  cases hkey : counterpartyKey counterparty with
  | error f =>
    unfold getConversation
    rw [hkey]
    exact .fail f
  | ok key =>
    rw [getConversation_eq hkey]
    refine .access rfl fun found => ?_
    cases found with
    | none => exact .done none
    | some document =>
      dsimp only
      split
      · exact .done none
      · cases Conversation.ofValue now document with
        | ok c => exact .done (some c)
        | error mismatch => exact .log _ (.done none)

theorem staysWith_setConversation (c : Conversation) :
    (setConversation tenant counterparty c).StaysWith tenant :=
  (makes_ofExcept _ _).bind fun _ => .access rfl fun _ => .done ()

theorem staysWith_clearConversation :
    (clearConversation tenant counterparty).StaysWith tenant := by
  cases hkey : counterpartyKey counterparty with
  | error f =>
    unfold clearConversation
    rw [hkey]
    exact .fail f
  | ok key =>
    rw [clearConversation_eq hkey]
    refine .access rfl fun removed => ?_
    cases removed with
    | true => exact .log _ (.done true)
    | false => exact .done false

end Store

namespace Authoring

variable (now : String) (tenant name : Value)

theorem staysWith_createFlow (preset : Value) :
    (createFlow now tenant name preset).StaysWith tenant :=
  (makes_ofExcept _ _).bind fun _ =>
    (makes_ofExcept _ _).bind fun _ => staysWith_saveFlow now tenant _

theorem staysWith_checkFlow : (checkFlow tenant name).StaysWith tenant := by
  refine .bind (.access rfl fun found => ?_) fun flow => .done flow.problems
  cases found with
  | none => exact .fail _
  | some flow => exact .done flow

theorem staysWith_addStep (draft : Step.Draft) :
    (addStep now tenant name draft).StaysWith tenant :=
  (makes_ofExcept _ _).bind fun _ =>
    (staysWith_appendStep now tenant name _).bind fun _ =>
      (makes_tellAll _).bind fun _ => .done _

end Authoring

namespace Inbound

theorem staysWith_carryOut (tenant counterparty : Value) (effects : List Turn.Effect) :
    (carryOut tenant counterparty effects).StaysWith tenant := by
  induction effects with
  | nil => exact .done ()
  | cons effect rest ih =>
    cases effect with
    | log e => exact .log e ih
    | save c => exact (staysWith_setConversation tenant counterparty c).bind fun _ => ih

theorem staysWith_handle (clock : String) (hops : Int) (tenant counterparty : Value)
    (text : Option String) (name : String) (now : Option String) :
    (handle clock hops (ofTexts tenant counterparty text name now)).StaysWith tenant := by
  rw [handle_eq]
  refine .access rfl fun found => ?_
  cases found with
  | none => exact .log _ (.done _)
  | some flow =>
    dsimp only
    split
    · exact .log _ (.done _)
    · exact (staysWith_getConversation clock tenant counterparty).bind fun _ =>
        (staysWith_carryOut tenant counterparty _).bind fun _ => makes_ofExcept _ _

end Inbound

end Dialogue

/-! ## What a tenant sees -/

namespace Dialogue.Store

open Keyed Run Directory

variable {tenant other number : String} {m m' : Memory}

/-- Contents show a tenant the same. -/
structure Memory.Alike (tenant : String) (m m' : Memory) : Prop where
  flows : pick (numberOf tenant) m.flows = pick (numberOf tenant) m'.flows
  conversations :
    pick (numberOf tenant) m.conversations = pick (numberOf tenant) m'.conversations

theorem get?_eq_of_pick {ν : Type} {entries entries' : Keyed Key ν}
    (hsame : pick (numberOf tenant) entries = pick (numberOf tenant) entries') (name : String) :
    entries.get? (tenant, name) = entries'.get? (tenant, name) := by
  have hpicked := congrArg (fun part => Keyed.get? part name) hsame
  simpa only [get?_pick (picks_numberOf tenant) (numberOf_self tenant name)] using hpicked

theorem listUnder_eq_of_pick {ν : Type} {entries entries' : Keyed Key ν}
    (hsame : pick (numberOf tenant) entries = pick (numberOf tenant) entries') :
    listUnder tenant entries = listUnder tenant entries' := by
  have hlisted := congrArg keys hsame
  rw [keys_pick, keys_pick] at hlisted
  exact congrArg sortTexts hlisted

namespace Memory

theorem Alike.refl (tenant : String) (m : Memory) : m.Alike tenant m := ⟨rfl, rfl⟩

theorem Alike.withFlow (halike : m.Alike tenant m') (t : Value) (flow : Flow) :
    (m.withFlow t flow).Alike tenant (m'.withFlow t flow) :=
  ⟨pick_set_congr (picks_numberOf tenant) halike.flows _ _, halike.conversations⟩

theorem Alike.withConversation (halike : m.Alike tenant m') (key : Key) (doc : Value) :
    (m.withConversation key doc).Alike tenant (m'.withConversation key doc) :=
  ⟨halike.flows, pick_set_congr (picks_numberOf tenant) halike.conversations _ _⟩

theorem Alike.withoutConversation (halike : m.Alike tenant m') (key : Key) :
    (m.withoutConversation key).Alike tenant (m'.withoutConversation key) :=
  ⟨halike.flows, pick_erase_congr (picks_numberOf tenant) halike.conversations _⟩

/-- The flow of another tenant is not seen. -/
theorem Alike.withFlow_other (halike : m.Alike tenant m') {t : Value}
    (hdifferent : Identifier.safeName t ≠ tenant) (flow : Flow) :
    (m.withFlow t flow).Alike tenant m' :=
  ⟨(pick_set_of_none (numberOf_of_ne hdifferent _) _ _).trans halike.flows, halike.conversations⟩

theorem Alike.withConversation_other (halike : m.Alike tenant m') (hdifferent : other ≠ tenant)
    (number : String) (doc : Value) : (m.withConversation (other, number) doc).Alike tenant m' :=
  ⟨halike.flows,
    (pick_set_of_none (numberOf_of_ne hdifferent number) _ _).trans halike.conversations⟩

theorem Alike.withoutConversation_other (halike : m.Alike tenant m') (hdifferent : other ≠ tenant)
    (number : String) : (m.withoutConversation (other, number)).Alike tenant m' :=
  ⟨halike.flows,
    (pick_erase_of_none (numberOf_of_ne hdifferent number) _).trans halike.conversations⟩

end Memory

theorem restsOn_agrees {a : Access} (hof : a.IsOf tenant) :
    a.RestsOn fun {_} m => Agrees (Silent (Memory.Alike tenant)) m := by
  have hflow (name : String) := agrees_reads (R := Memory.Alike tenant)
    (f := fun m => m.flows.get? (tenant, name)) fun m m' halike => get?_eq_of_pick halike.flows name
  have hwithFlow (t : Value) (flow : Flow) := agrees_write (R := Memory.Alike tenant)
    (g := fun m => m.withFlow t flow) fun m m' halike => halike.withFlow t flow
  have hconversation (number : String) := agrees_reads (R := Memory.Alike tenant)
    (f := fun m => m.conversations.get? (tenant, number))
    fun m m' halike => get?_eq_of_pick halike.conversations number
  cases a with
  | loadFlow t name =>
    obtain rfl := hof
    exact hflow _
  | createFlow t created =>
    obtain rfl := hof
    exact ⟨hflow _, hwithFlow t created⟩
  | writeFlow t written =>
    obtain rfl := hof
    exact ⟨hflow _, hwithFlow t written⟩
  | listFlows t =>
    obtain rfl := hof
    exact agrees_reads fun m m' halike => listUnder_eq_of_pick halike.flows
  | locateFlow t name => trivial
  | fetchConversation t number =>
    obtain rfl := hof
    exact hconversation number
  | putConversation t number doc =>
    obtain rfl := hof
    exact ⟨hconversation number, fun doc =>
      agrees_write fun m m' halike => halike.withConversation (t, number) doc⟩
  | deleteConversation t number =>
    obtain rfl := hof
    exact ⟨hconversation number,
      agrees_write fun m m' halike => halike.withoutConversation (t, number)⟩
  | listConversations t =>
    obtain rfl := hof
    exact agrees_reads fun m m' halike => listUnder_eq_of_pick halike.conversations

theorem restsOn_spares {a : Access} (hof : a.IsOf other) (hdifferent : other ≠ tenant) :
    a.RestsOn fun {_} m => Spares (Silent (Memory.Alike tenant)) m := by
  cases a with
  | loadFlow t name => exact spares_reads _
  | createFlow t flow =>
    obtain rfl := hof
    exact ⟨spares_reads _, spares_write fun m m' halike => halike.withFlow_other hdifferent flow⟩
  | writeFlow t flow =>
    obtain rfl := hof
    exact ⟨spares_reads _, spares_write fun m m' halike => halike.withFlow_other hdifferent flow⟩
  | listFlows t => exact spares_reads _
  | locateFlow t name => trivial
  | fetchConversation t number => exact spares_reads _
  | putConversation t number doc =>
    obtain rfl := hof
    exact ⟨spares_reads _, fun doc =>
      spares_write fun m m' halike => halike.withConversation_other hdifferent number doc⟩
  | deleteConversation t number =>
    obtain rfl := hof
    exact ⟨spares_reads _,
      spares_write fun m m' halike => halike.withoutConversation_other hdifferent number⟩
  | listConversations t => exact spares_reads _

end Dialogue.Store

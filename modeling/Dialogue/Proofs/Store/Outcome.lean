import Dialogue.Proofs.Related
import Dialogue.Proofs.Store.Table

/-!
# Accesses as runs over contents

An access to the store in memory, or to the store in a database, reads and writes contents in a few
ways only (`Access.RestsOn`), so a property that sequences of runs inherit from their parts holds of
the access if it holds of these.

The store in memory works on contents themselves (`Memory.access_of_restsOn`).  The store in a
database comes to the same as a run over the contents of its tables, in answers, in failures and in
what it changes (`Table.access_comesTo`).
-/

namespace Dialogue.Store

open Keyed Run

variable {m : Memory}

/-! ## What accesses to contents are made of -/

/-- Reads something off contents. -/
def Memory.reads {α : Type} (f : Memory → α) : Run (Traced Memory) α :=
  fun t => (.ok (f t.state), t)

@[simp] theorem Memory.reads_bind {α β : Type} (f : Memory → α) (k : α → Run (Traced Memory) β)
    (t : Traced Memory) : (Memory.reads f >>= k) t = k (f t.state) t := rfl

section

variable {R : Memory → Memory → Prop}

theorem agrees_reads {α : Type} {f : Memory → α} (hsame : ∀ m m', R m m' → f m = f m') :
    Agrees (Silent R) (Memory.reads f) :=
  fun t t' hrelated => ⟨congrArg Except.ok (hsame t.state t'.state hrelated), hrelated⟩

theorem agrees_write {g : Memory → Memory} (hkept : ∀ m m', R m m' → R (g m) (g m')) :
    Agrees (Silent R) (Run.write g) := fun t t' hrelated => ⟨rfl, hkept t.state t'.state hrelated⟩

theorem spares_reads {α : Type} (f : Memory → α) : Spares (Silent R) (Memory.reads f) :=
  spares_of_eq fun _ => rfl

theorem spares_write {g : Memory → Memory} (hkept : ∀ m m', R m m' → R (g m) m') :
    Spares (Silent R) (Run.write g) := fun t t' hrelated => hkept t.state t'.state hrelated

end

/-- What an access reads and writes of contents has a property. -/
def Access.RestsOn (K : {α : Type} → Run (Traced Memory) α → Prop) : Access → Prop
  | .loadFlow t name => K (Memory.reads fun m => m.flows.get? (flowKey t name))
  | .createFlow t flow =>
    K (Memory.reads fun m => m.flows.get? (flowKey t (.str flow.name))) ∧
      K (Run.write fun m => m.withFlow t flow)
  | .writeFlow t flow =>
    K (Memory.reads fun m => m.flows.get? (flowKey t (.str flow.name))) ∧
      K (Run.write fun m => m.withFlow t flow)
  | .listFlows t => K (Memory.reads fun m => listUnder (Identifier.safeName t) m.flows)
  | .locateFlow _ _ => True
  | .fetchConversation t number => K (Memory.reads fun m => m.conversations.get? (t, number))
  | .putConversation t number _ =>
    K (Memory.reads fun m => m.conversations.get? (t, number)) ∧
      ∀ doc, K (Run.write fun m => m.withConversation (t, number) doc)
  | .deleteConversation t number =>
    K (Memory.reads fun m => m.conversations.get? (t, number)) ∧
      K (Run.write fun m => m.withoutConversation (t, number))
  | .listConversations t =>
    K (Memory.reads fun m => listUnder (Identifier.safeName t) m.conversations)

section

variable {K : {α : Type} → Run (Traced Memory) α → Prop} (hcomposes : Composes K) (now : String)

include hcomposes

theorem Memory.access_of_restsOn {a : Access} (hrests : a.RestsOn K) : K (Memory.access now a) := by
  have hofExcept {ε α : Type} (f : ε → Failure) (r : Except ε α) := hcomposes.ofExcept f r
  obtain ⟨hpure, hfail, hbind⟩ := hcomposes
  cases a with
  | loadFlow t name =>
    have hsame : Memory.access now (.loadFlow t name) =
        (Memory.reads fun m => m.flows.get? (flowKey t name)) >>= fun found =>
          (found.filter fun v => !v.isEmpty).elim (Pure.pure none) fun doc => do
            let flow ← Run.ofExcept .invalid (Flow.ofValue now doc)
            return some flow := by
      funext s
      rw [Memory.access, Run.read_bind, Memory.reads_bind, document?]
      cases (s.state.flows.get? (flowKey t name)).filter fun v => !v.isEmpty <;> rfl
    rw [hsame]
    refine hbind hrests fun found => ?_
    cases found.filter fun v => !v.isEmpty with
    | none => exact hpure none
    | some doc => exact hbind (hofExcept _ _) fun flow => hpure (some flow)
  | createFlow t flow =>
    refine hbind (k := fun found => if found.isSome then Pure.pure false else do
      Run.write fun m => m.withFlow t flow
      return true) hrests.1 fun found => ?_
    split
    · exact hpure false
    · exact hbind hrests.2 fun _ => hpure true
  | writeFlow t flow => exact hbind hrests.2 fun _ => hpure _
  | listFlows t => exact hrests
  | locateFlow t name => exact hpure _
  | fetchConversation t number =>
    exact hbind (k := fun found => Pure.pure (found.filter fun v => !v.isEmpty)) hrests fun _ =>
      hpure _
  | putConversation t number doc => exact hrests.2 doc
  | deleteConversation t number =>
    exact hbind (k := fun found => do
      Run.write fun m => m.withoutConversation (t, number)
      return (found.map fun v => !v.isNull).getD false) hrests.1 fun _ =>
        hbind hrests.2 fun _ => hpure _
  | listConversations t => exact hrests

end

/-! ## The tables of a database -/

namespace Table

/-- An access as a run over the contents of the tables. -/
def outcome (now : String) : (a : Access) → Run (Traced Memory) a.Answer
  | .loadFlow tenant name => do
    let found ← Memory.reads fun m => m.flows.get? (flowKey tenant name)
    return found.bind fun doc => (Flow.ofValue now doc).toOption
  | .createFlow tenant flow => do
    let found ← Memory.reads fun m => m.flows.get? (flowKey tenant (.str flow.name))
    if found.isSome then return false
    else
      let _ ← Run.ofExcept id (flowRow none flow)
      Run.write fun m => m.withFlow tenant flow
      return true
  | .writeFlow tenant flow => do
    let found ← Memory.reads fun m => m.flows.get? (flowKey tenant (.str flow.name))
    let _ ← Run.ofExcept id (flowRow none flow)
    if found.any (Value.dict flow.document).same then return location tenant (.str flow.name)
    else
      Run.write fun m => m.withFlow tenant flow
      return location tenant (.str flow.name)
  | .listFlows tenant => Memory.reads fun m => listUnder (Identifier.safeName tenant) m.flows
  | .locateFlow tenant name => Run.pure (location tenant name)
  | .fetchConversation tenant number => do
    let found ← Memory.reads fun m => m.conversations.get? (tenant, number)
    return found.filter fun v => !v.isEmpty
  | .putConversation tenant number doc => do
    let found ← Memory.reads fun m => m.conversations.get? (tenant, number)
    let old := found.map fun document => ⟨.null, .null, document⟩
    let row ← Run.ofExcept id (conversationRow old doc)
    Run.write fun m => m.withConversation (tenant, number) row.document
  | .deleteConversation tenant number => do
    let found ← Memory.reads fun m => m.conversations.get? (tenant, number)
    if found.isSome then
      Run.write fun m => m.withoutConversation (tenant, number)
      return true
    else return false
  | .listConversations tenant =>
    Memory.reads fun m => listUnder (Identifier.safeName tenant) m.conversations

theorem outcome_of_restsOn {K : {α : Type} → Run (Traced Memory) α → Prop}
    (hcomposes : Composes K) (now : String) {a : Access} (hrests : a.RestsOn K) :
    K (outcome now a) := by
  have hofExcept {ε α : Type} (f : ε → Failure) (r : Except ε α) := hcomposes.ofExcept f r
  obtain ⟨hpure, hfail, hbind⟩ := hcomposes
  cases a with
  | loadFlow t name => exact hbind hrests fun found => hpure _
  | createFlow t flow =>
    refine hbind hrests.1 fun found => ?_
    split
    · exact hpure false
    · exact hbind (hofExcept _ _) fun _ => hbind hrests.2 fun _ => hpure true
  | writeFlow t flow =>
    refine hbind hrests.1 fun found => hbind (hofExcept _ _) fun _ => ?_
    split
    · exact hpure _
    · exact hbind hrests.2 fun _ => hpure _
  | listFlows t => exact hrests
  | locateFlow t name => exact hpure _
  | fetchConversation t number => exact hbind hrests fun found => hpure _
  | putConversation t number doc =>
    exact hbind hrests.1 fun found => hbind (hofExcept _ _) fun row => hrests.2 row.document
  | deleteConversation t number =>
    refine hbind hrests.1 fun found => ?_
    split
    · exact hbind hrests.2 fun _ => hpure true
    · exact hpure false
  | listConversations t => exact hrests

section

open Database

variable {location : Location} {s : State} {address : Value}

/-- A run over tables comes to the same as one over the contents that they show. -/
structure ComesTo (Shown : State → Memory → Prop) {α : Type}
    (found : Except Failure α × Traced State) (told : Except Failure α × Traced Memory) :
    Prop where
  result : found.1 = told.1
  shows : Shown found.2.state told.2.state

theorem ComesTo.of_eq {Shown : State → Memory → Prop} {α : Type}
    {found : Except Failure α × Traced State} {told : Except Failure α × Traced Memory}
    {r : Except Failure α} {t : Traced State} {m₁ : Memory} (hran : found = (r, t))
    (hdoes : told = (r, ⟨m₁, []⟩)) (hshows : Shown t.state m₁) : ComesTo Shown found told := by
  subst hran hdoes
  exact ⟨rfl, hshows⟩

/-- An access looks at the tables; telling where a flow lies does not. -/
def Looks : Access → Prop
  | .locateFlow _ _ => False
  | _ => True

variable {configured : Value} (now : String) (events : List Event)

section

variable (hreaches : Reaches location address configured s.flowsReady s m)

include hreaches

theorem comesTo_loadFlow (tenant name : Value) :
    ComesTo (Holds location) (access now address configured (.loadFlow tenant name) ⟨s, events⟩)
      (outcome now (.loadFlow tenant name) ⟨m, []⟩) := by
  obtain ⟨c, tables, s₁, events₁, hpoints, hready, rfl, hran⟩ :=
    withFlows_spec hreaches events
  have hsame := get?_contents_flows tables (flowKey tenant name)
  cases hfound : tables.flows.get? (flowKey tenant name) with
  | none =>
    refine .of_eq (r := .ok none) (t := ⟨s₁, events₁⟩) ((hran _).trans ?_) ?_ hready.holds
    · simp [hfound]
    · simp [outcome, hsame, hfound]
  | some row =>
    cases hread : Flow.ofValue now row.document with
    | ok flow =>
      refine .of_eq (r := .ok (some flow)) (t := ⟨s₁, events₁⟩) ((hran _).trans ?_) ?_ hready.holds
      · simp [hfound, hread]
      · simp [outcome, hsame, hfound, hread, Except.toOption]
    | error mismatch =>
      refine .of_eq (r := .ok none) (t := ⟨s₁, .flowRowUnreadable tenant name :: events₁⟩)
        ((hran _).trans ?_) ?_ hready.holds
      · simp [hfound, hread, Traced.log]
      · simp [outcome, hsame, hfound, hread, Except.toOption]

theorem comesTo_createFlow (tenant : Value) (flow : Flow) :
    ComesTo (Holds location) (access now address configured (.createFlow tenant flow) ⟨s, events⟩)
      (outcome now (.createFlow tenant flow) ⟨m, []⟩) := by
  obtain ⟨c, tables, s₁, events₁, hpoints, hready, rfl, hran⟩ :=
    withFlows_spec hreaches events
  have hsame := get?_contents_flows tables (flowKey tenant (.str flow.name))
  cases hfound : tables.flows.get? (flowKey tenant (.str flow.name)) with
  | some row =>
    refine .of_eq (r := .ok false) (t := ⟨s₁, events₁⟩) ((hran _).trans ?_) ?_ hready.holds
    · simp [has, hfound]
    · simp [outcome, hsame, hfound]
  | none =>
    rcases flowRow_spec none flow with ⟨-, row, hmade, hdocument⟩ | ⟨-, hrefused⟩
    · obtain ⟨s₂, hstored, hready₂⟩ := onSite_store hready hpoints
        (withFlowRow tables (flowKey tenant (.str flow.name)) row) events₁
      have holds₂ := hready₂.holds
      rw [contents_withFlowRow tenant hdocument] at holds₂
      refine .of_eq (r := .ok true) (t := ⟨s₂, events₁⟩) ((hran _).trans ?_) ?_ holds₂
      · simp only [has, hfound, hmade]
        exact Run.bind_ok hstored
      · simp only [outcome, Memory.reads_bind, hsame, hfound, hmade]
        rfl
    · refine .of_eq (r := .error (.database .numberTooLarge)) (t := ⟨s₁, events₁⟩)
        ((hran _).trans ?_) ?_ hready.holds
      · simp only [has, hfound, hrefused]
        exact Run.bind_error (Run.ofExcept_error _ _ _)
      · simp only [outcome, Memory.reads_bind, hsame, hfound, hrefused]
        exact Run.bind_error (Run.ofExcept_error _ _ _)

theorem comesTo_writeFlow (tenant : Value) (flow : Flow) :
    ComesTo (Holds location) (access now address configured (.writeFlow tenant flow) ⟨s, events⟩)
      (outcome now (.writeFlow tenant flow) ⟨m, []⟩) := by
  obtain ⟨c, tables, s₁, events₁, hpoints, hready, rfl, hran⟩ :=
    withFlows_spec hreaches events
  have held := get?_contents_flows tables (flowKey tenant (.str flow.name))
  rcases flowRow_spec (tables.flows.get? (flowKey tenant (.str flow.name))) flow with
    ⟨hfit, row, hmade, hdocument⟩ | ⟨hunfit, hrefused⟩
  · obtain ⟨s₂, hstored, hready₂⟩ := onSite_store hready hpoints
      (withFlowRow tables (flowKey tenant (.str flow.name)) row) events₁
    have hfresh : ∃ row, flowRow none flow = .ok row := ⟨_, if_pos hfit⟩
    obtain ⟨_, hfresh⟩ := hfresh
    have holds₂ := hready₂.holds
    rw [← held] at hdocument
    have hwrote : access now address configured (.writeFlow tenant flow) ⟨s, events⟩ =
        (.ok (Table.location tenant (.str flow.name)), ⟨s₂, events₁⟩) := by
      refine (hran _).trans ?_
      simp only [hmade]
      exact Run.bind_ok hstored
    rcases kept_cases ((contents tables).flows.get? (flowKey tenant (.str flow.name)))
      (.dict flow.document) with ⟨hwritten, hdifferent⟩ | ⟨old, hthere, hsame, hleft⟩
    · rw [contents_withFlowRow tenant (hdocument.trans hwritten)] at holds₂
      refine .of_eq hwrote ?_ holds₂
      have htold : ((contents tables).flows.get? (flowKey tenant (.str flow.name))).any
          (Value.dict flow.document).same = false := by
        cases hthere : (contents tables).flows.get? (flowKey tenant (.str flow.name)) with
        | none => rfl
        | some old => exact hdifferent old hthere
      simp only [outcome, Memory.reads_bind, hfresh, htold]
      rfl
    · rw [hleft] at hdocument
      rw [contents_withFlowRow_self (hdocument ▸ hthere)] at holds₂
      refine .of_eq hwrote ?_ holds₂
      simp only [outcome, Memory.reads_bind, hfresh, hthere, Option.any_some, hsame]
      rfl
  · have hrefusedFresh : flowRow none flow = .error (.database .numberTooLarge) := if_neg hunfit
    refine .of_eq (r := .error (.database .numberTooLarge)) (t := ⟨s₁, events₁⟩)
      ((hran _).trans ?_) ?_ hready.holds
    · simp only [hrefused]
      exact Run.bind_error (Run.ofExcept_error _ _ _)
    · simp only [outcome, Memory.reads_bind, hrefusedFresh]
      exact Run.bind_error (Run.ofExcept_error _ _ _)

theorem comesTo_listFlows (tenant : Value) :
    ComesTo (Holds location) (access now address configured (.listFlows tenant) ⟨s, events⟩)
      (outcome now (.listFlows tenant) ⟨m, []⟩) := by
  obtain ⟨c, tables, s₁, events₁, hpoints, hready, rfl, hran⟩ := withFlows_spec hreaches events
  refine .of_eq ((hran _).trans rfl) ?_ hready.holds
  simp [outcome, Memory.reads, listUnder, contents]

end

section

variable (hreaches : Reaches location address configured s.conversationsReady s m)

include hreaches

theorem comesTo_fetchConversation (tenant number : String) :
    ComesTo (Holds location)
      (access now address configured (.fetchConversation tenant number) ⟨s, events⟩)
      (outcome now (.fetchConversation tenant number) ⟨m, []⟩) := by
  obtain ⟨c, tables, s₁, events₁, hpoints, hready, rfl, hran⟩ :=
    withConversations_spec hreaches events
  refine .of_eq ((hran _).trans rfl) ?_ hready.holds
  simp [outcome, get?_contents_conversations]

theorem comesTo_putConversation (tenant number : String) (doc : Value) :
    ComesTo (Holds location)
      (access now address configured (.putConversation tenant number doc) ⟨s, events⟩)
      (outcome now (.putConversation tenant number doc) ⟨m, []⟩) := by
  obtain ⟨c, tables, s₁, events₁, hpoints, hready, rfl, hran⟩ :=
    withConversations_spec hreaches events
  have hsame := get?_contents_conversations tables (tenant, number)
  have hrow_eq : conversationRow (((contents tables).conversations.get? (tenant, number)).map
      fun document => ⟨.null, .null, document⟩) doc =
        conversationRow (tables.conversations.get? (tenant, number)) doc :=
    conversationRow_congr (by simp [hsame, Function.comp_def]) doc
  cases hmade : conversationRow (tables.conversations.get? (tenant, number)) doc with
  | error f =>
    refine .of_eq (r := .error f) (t := ⟨s₁, events₁⟩) ((hran _).trans ?_) ?_ hready.holds
    · simp only [hmade]
      exact Run.bind_error (Run.ofExcept_error _ _ _)
    · simp only [outcome, Memory.reads_bind, hrow_eq, hmade]
      exact Run.bind_error (Run.ofExcept_error _ _ _)
  | ok row =>
    obtain ⟨s₂, hstored, hready₂⟩ := onSite_store hready hpoints
      (withConversationRow tables (tenant, number) row) events₁
    have holds₂ := hready₂.holds
    rw [contents_withConversationRow] at holds₂
    refine .of_eq (r := .ok ()) (t := ⟨s₂, events₁⟩) ((hran _).trans ?_) ?_ holds₂
    · simp only [hmade]
      exact hstored
    · simp only [outcome, Memory.reads_bind, hrow_eq, hmade]
      rfl

theorem comesTo_deleteConversation (tenant number : String) :
    ComesTo (Holds location)
      (access now address configured (.deleteConversation tenant number) ⟨s, events⟩)
      (outcome now (.deleteConversation tenant number) ⟨m, []⟩) := by
  obtain ⟨c, tables, s₁, events₁, hpoints, hready, rfl, hran⟩ :=
    withConversations_spec hreaches events
  have hsame := get?_contents_conversations tables (tenant, number)
  cases hfound : tables.conversations.get? (tenant, number) with
  | some row =>
    obtain ⟨s₂, hstored, hready₂⟩ := onSite_store hready hpoints
      (withoutConversationRow tables (tenant, number)) events₁
    have holds₂ := hready₂.holds
    rw [contents_withoutConversationRow] at holds₂
    refine .of_eq (r := .ok true) (t := ⟨s₂, events₁⟩) ((hran _).trans ?_) ?_ holds₂
    · simp only [has, hfound]
      exact Run.bind_ok hstored
    · simp only [outcome, Memory.reads_bind, hsame, hfound]
      rfl
  | none =>
    refine .of_eq (r := .ok false) (t := ⟨s₁, events₁⟩) ((hran _).trans ?_) ?_ hready.holds
    · simp [has, hfound]
    · simp [outcome, hsame, hfound]

theorem comesTo_listConversations (tenant : Value) :
    ComesTo (Holds location)
      (access now address configured (.listConversations tenant) ⟨s, events⟩)
      (outcome now (.listConversations tenant) ⟨m, []⟩) := by
  obtain ⟨c, tables, s₁, events₁, hpoints, hready, rfl, hran⟩ :=
    withConversations_spec hreaches events
  refine .of_eq ((hran _).trans rfl) ?_ hready.holds
  simp [outcome, Memory.reads, listUnder, contents]

end

/-- An access that reaches contents comes to what it comes to on them. -/
theorem comesTo_of_reaches {a : Access} (hlooks : Looks a)
    (hreaches : Reaches location address configured (s.isReady a) s m) :
    ComesTo (Holds location) (access now address configured a ⟨s, events⟩)
      (outcome now a ⟨m, []⟩) := by
  cases a with
  | loadFlow tenant name => exact comesTo_loadFlow now events hreaches tenant name
  | createFlow tenant flow => exact comesTo_createFlow now events hreaches tenant flow
  | writeFlow tenant flow => exact comesTo_writeFlow now events hreaches tenant flow
  | listFlows tenant => exact comesTo_listFlows now events hreaches tenant
  | locateFlow tenant name => exact hlooks.elim
  | fetchConversation tenant key => exact comesTo_fetchConversation now events hreaches tenant key
  | putConversation tenant key doc =>
    exact comesTo_putConversation now events hreaches tenant key doc
  | deleteConversation tenant key => exact comesTo_deleteConversation now events hreaches tenant key
  | listConversations tenant => exact comesTo_listConversations now events hreaches tenant

/-- An access comes to what it comes to on the contents that the tables show. -/
theorem access_comesTo (hknown : IsAddressOf address location) (hshows : Shows location s m)
    (now : String) (configured : Value) (events : List Event) (a : Access) :
    ComesTo (Shows location) (access now address configured a ⟨s, events⟩)
      (outcome now a ⟨m, []⟩) := by
  by_cases hlooks : Looks a
  · have hflag : s.isReady a = true → s.flowsReady = true ∨ s.conversationsReady = true := by
      unfold State.isReady
      split
      · exact .inl
      · exact .inr
    obtain ⟨hresult, holds⟩ :=
      comesTo_of_reaches now events hlooks (hshows.reaches hknown configured hflag)
    exact ⟨hresult, holds.shows⟩
  · cases a with
    | locateFlow tenant name => exact ⟨rfl, hshows⟩
    | _ => exact absurd trivial hlooks

end

end Table

end Dialogue.Store

import Dialogue.Proofs.Related
import Dialogue.Proofs.Store.Directory.State
import Dialogue.Proofs.Store.Stored

/-!
# Two conversations that are alike

Two conversations of one tenant are *twins* if the same lies under their keys.  Whoever takes one of
them for the other notices nothing: accesses of the one and accesses of the other go side by side,
with the same answers and the same log, and leave twins again (`Tandem`).  This is so in memory
(`Memory.tandem`), in files (`Directory.tandem`) and in a database (`Table.tandem`), although each
of them writes under a key of its own.
-/

namespace Dialogue

open Run

/-- States are related, and the same was logged. -/
def Traced.Related {σ : Type} (R : σ → σ → Prop) (t t' : Traced σ) : Prop :=
  R t.state t'.state ∧ t.events = t'.events

/-- The same was logged. -/
def Traced.SameLog {σ : Type} (t t' : Traced σ) : Prop := t.events = t'.events

namespace Store

/-- Accesses of two conversations go side by side.  Where conversations are written as text, what is
put has to be one that can be read again. -/
structure Tandem {σ : Type} (asText : Prop) (key key' : Key) (E R : σ → σ → Prop)
    (access : (a : Access) → Run σ a.Answer) : Prop where
  same {s s' : σ} : R s s' → E s s'
  load (t name : Value) {s s' : σ} : R s s' →
    Coupled E (fun r r' u u' => r = r' ∧ R u u') (access (.loadFlow t name) s)
      (access (.loadFlow t name) s')
  fetch {s s' : σ} : R s s' →
    Coupled E (fun r r' u u' => r = r' ∧ (∀ doc, r = some doc → asText → doc.IsDocument) ∧ R u u')
      (access (.fetchConversation key.1 key.2) s) (access (.fetchConversation key'.1 key'.2) s')
  put (doc : Value) {s s' : σ} : R s s' →
    Coupled E (fun _ _ u u' => E u u' ∧ ((asText → doc.IsJson) → R u u'))
      (access (.putConversation key.1 key.2 doc) s) (access (.putConversation key'.1 key'.2 doc) s')
  delete {s s' : σ} : R s s' →
    Coupled E (fun r r' u u' => r = r' ∧ R u u') (access (.deleteConversation key.1 key.2) s)
      (access (.deleteConversation key'.1 key'.2) s')

/-! ## In memory -/

namespace Memory

variable {key key' : Key} {m m' : Memory}

/-- The same flows are there, and the same under two keys. -/
structure Twins (key key' : Key) (m m' : Memory) : Prop where
  flows : m.flows = m'.flows
  entry : m.conversations.get? key = m'.conversations.get? key'

theorem Twins.withConversation (htwins : Twins key key' m m') (doc : Value) :
    Twins key key' (m.withConversation key doc) (m'.withConversation key' doc) :=
  ⟨htwins.flows, by simp [Memory.withConversation]⟩

theorem Twins.withoutConversation (htwins : Twins key key' m m') :
    Twins key key' (m.withoutConversation key) (m'.withoutConversation key') :=
  ⟨htwins.flows, by simp [Memory.withoutConversation]⟩

theorem tandem (key key' : Key) (now : String) :
    Tandem False key key' Traced.SameLog (Traced.Related (Twins key key')) (access now) where
  same hrelated := hrelated.2
  load t name := by
    rintro ⟨m, events⟩ ⟨m', _⟩ ⟨htwins, rfl⟩
    have hflows : m.flows = m'.flows := htwins.flows
    rw [loadFlow_eq, loadFlow_eq, hflows]
    cases document? m'.flows (flowKey t name) with
    | none => exact .ok ⟨rfl, htwins, rfl⟩
    | some doc =>
      cases hread : Flow.ofValue now doc with
      | ok flow => simpa only [hread] using .ok ⟨rfl, htwins, rfl⟩
      | error mismatch => simpa only [hread] using .error rfl
  fetch := by
    rintro ⟨m, events⟩ ⟨m', _⟩ ⟨htwins, rfl⟩
    refine .ok ⟨?_, fun _ _ htext => htext.elim, htwins, rfl⟩
    exact congrArg (Option.filter fun v => !v.isEmpty) htwins.entry
  put doc := by
    rintro ⟨m, events⟩ ⟨m', _⟩ ⟨htwins, rfl⟩
    exact .ok ⟨rfl, fun _ => ⟨htwins.withConversation doc, rfl⟩⟩
  delete := by
    rintro ⟨m, events⟩ ⟨m', _⟩ ⟨htwins, rfl⟩
    refine .ok ⟨?_, htwins.withoutConversation, rfl⟩
    exact congrArg (fun found => (Option.map (fun v : Value => !v.isNull) found).getD false)
      htwins.entry

end Memory

/-! ## In files -/

namespace Directory

open Files

variable {dir : Path} {base q : Place} {tenant number number' : String} {files files' : Files}
  {events : List Event}

/-- The same flows are there, and the same under two numbers, and reading it logs the same. -/
structure Twins (dir : Path) (base : Place) (tenant number number' : String)
    (files files' : Files) : Prop where
  named : Identifier.IsName tenant
  laid : Laid dir base files
  laid' : Laid dir base files'
  flows : ∀ t name, files.content? (flowPath dir t name) = files'.content? (flowPath dir t name)
  reports : stateReports dir tenant files = stateReports dir tenant files'
  entry : (stateIn dir tenant files).map (fun state => Fields.get? state number) =
    (stateIn dir tenant files').map fun state => Fields.get? state number'

/-- The conversations of twins are read side by side. -/
theorem Twins.readState (htwins : Twins dir base tenant number number' files files') :
    Coupled Traced.SameLog (fun state state' t t' =>
        stateIn dir tenant files = .ok state ∧ stateIn dir tenant files' = .ok state' ∧
          Fields.get? state number = Fields.get? state' number' ∧
          t = ⟨files, stateReports dir tenant files ++ events⟩ ∧
          t' = ⟨files', stateReports dir tenant files ++ events⟩)
      (readState dir tenant ⟨files, events⟩) (readState dir tenant ⟨files', events⟩) := by
  have hentry := htwins.entry
  rw [readState_eq, readState_eq, ← htwins.reports]
  rcases hfound : stateIn dir tenant files with f | state <;>
    rcases hfound' : stateIn dir tenant files' with f' | state' <;>
    simp only [hfound, hfound', Except.map, reduceCtorEq, Except.ok.injEq] at hentry
  · exact .error rfl
  · exact .ok ⟨rfl, rfl, hentry, rfl, rfl⟩

/-- Writing the conversations, each with a change to its own twin, leaves twins. -/
theorem Twins.writeState (htwins : Twins dir base tenant number number' files files')
    {state state' changed changed' : Fields} (hfound : stateIn dir tenant files = .ok state)
    (hfound' : stateIn dir tenant files' = .ok state') :
    Coupled Traced.SameLog (fun _ _ t t' => t.SameLog t' ∧
        ((Value.dict changed).IsJson → (Value.dict changed').IsJson →
          Fields.get? changed number = Fields.get? changed' number' →
          Traced.Related (Twins dir base tenant number number') t t'))
      (writeJson (statePath dir tenant) (.dict changed) ⟨files, events⟩)
      (writeJson (statePath dir tenant) (.dict changed') ⟨files', events⟩) := by
  rcases writeJson_state htwins.laid htwins.named hfound (.dict changed) events with
      ⟨hlong, hfailed⟩ | ⟨hshort, q, hleads, hfree, hwritten⟩ <;>
    rcases writeJson_state htwins.laid' htwins.named hfound' (.dict changed') events with
      ⟨hlong', hfailed'⟩ | ⟨hshort', q', hleads', hfree', hwritten'⟩
  · rw [hfailed, hfailed']
    exact .error rfl
  · rw [hlong] at hshort'
    cases hshort'
  · rw [hlong'] at hshort
    cases hshort
  · rw [hwritten, hwritten']
    refine .ok ⟨rfl, fun hjson hjson' hsame => ⟨?_, rfl⟩⟩
    obtain ⟨hflows, -⟩ := content?_set_state htwins.named hleads hfree
      (.text (Json.pretty (.dict changed)))
    obtain ⟨hflows', -⟩ := content?_set_state htwins.named hleads' hfree'
      (.text (Json.pretty (.dict changed')))
    obtain ⟨hstate, hreports⟩ := stateIn_of_written hleads hfree hjson
    obtain ⟨hstate', hreports'⟩ := stateIn_of_written hleads' hfree' hjson'
    exact
      { named := htwins.named
        laid := htwins.laid.set hfree _
        laid' := htwins.laid'.set hfree' _
        flows := fun t name =>
          (hflows t name).trans ((htwins.flows t name).trans (hflows' t name).symm)
        reports := hreports.trans hreports'.symm
        entry := by rw [hstate, hstate']; exact congrArg Except.ok hsame }

theorem tandem (dir : Path) (base : Place) (tenant number number' : String) (now : String) :
    Tandem True (tenant, number) (tenant, number') Traced.SameLog
      (Traced.Related (Twins dir base tenant number number')) (access now dir) where
  same hrelated := hrelated.2
  load t name := by
    rintro ⟨files, events⟩ ⟨files', _⟩ ⟨htwins, rfl⟩
    have hflows : files.content? (flowPath dir t name) = files'.content? (flowPath dir t name) :=
      htwins.flows t name
    have hread : Coupled Traced.SameLog
        (fun r r' u u' => r = r' ∧ u = ⟨files, events⟩ ∧ u' = ⟨files', events⟩)
        (readJson (flowPath dir t name) ⟨files, events⟩)
        (readJson (flowPath dir t name) ⟨files', events⟩) := by
      rw [readJson_eq, readJson_eq]
      show Coupled _ _ (readingOf (files.content? (flowPath dir t name)), _)
        (readingOf (files'.content? (flowPath dir t name)), _)
      rw [hflows]
      cases readingOf (files'.content? (flowPath dir t name)) with
      | error f => exact .error rfl
      | ok reading => exact .ok ⟨rfl, rfl, rfl⟩
    refine hread.bind ?_
    rintro reading _ _ _ ⟨rfl, rfl, rfl⟩
    cases reading with
    | absent => exact .ok ⟨rfl, htwins, rfl⟩
    | unreadable => exact .ok ⟨rfl, htwins, rfl⟩
    | value v =>
      dsimp only
      cases Flow.ofValue now v with
      | ok flow => exact .ok ⟨rfl, htwins, rfl⟩
      | error mismatch => exact .ok ⟨rfl, htwins, rfl⟩
  fetch := by
    rintro ⟨files, events⟩ ⟨files', _⟩ ⟨htwins, rfl⟩
    have hentry := htwins.entry
    rw [fetchConversation_eq, fetchConversation_eq, ← htwins.reports]
    rcases hfound : stateIn dir tenant files with f | state <;>
      rcases hfound' : stateIn dir tenant files' with f' | state' <;>
      simp only [hfound, hfound', Except.map, reduceCtorEq, Except.ok.injEq] at hentry
    · exact .error rfl
    · exact .ok ⟨congrArg conversationOf hentry,
        fun doc holds _ => isDocument_of_conversationOf hfound holds, htwins, rfl⟩
  put doc := by
    rintro ⟨files, events⟩ ⟨files', _⟩ ⟨htwins, rfl⟩
    refine htwins.readState.bind ?_
    rintro state state' _ _ ⟨hfound, hfound', hsame, rfl, rfl⟩
    refine (htwins.writeState hfound hfound').mono ?_
    rintro _ _ _ _ ⟨hlog, hrelated⟩
    refine ⟨hlog, fun hjson => ?_⟩
    exact hrelated (isJson_set (isJson_stateIn hfound) _ (hjson trivial))
      (isJson_set (isJson_stateIn hfound') _ (hjson trivial)) (by simp [Fields.get?, Fields.set])
  delete := by
    rintro ⟨files, events⟩ ⟨files', _⟩ ⟨htwins, rfl⟩
    refine htwins.readState.bind ?_
    rintro state state' _ _ ⟨hfound, hfound', hsame, rfl, rfl⟩
    have hlisted : Fields.has state number = Fields.has state' number' := by
      exact congrArg Option.isSome hsame
    simp only [hlisted]
    cases Fields.has state' number' with
    | false => exact .ok ⟨rfl, htwins, rfl⟩
    | true =>
      refine (htwins.writeState hfound hfound').bind ?_
      rintro _ _ _ _ ⟨-, hrelated⟩
      refine .ok ⟨rfl, ?_⟩
      exact hrelated (isJson_erase (isJson_stateIn hfound) _)
        (isJson_erase (isJson_stateIn hfound') _)
        (by simp [Fields.get?])

end Directory

/-! ## In a database -/

namespace Table

open Database Keyed

variable {location : Location} {address configured : Value} {s s' : State} {t t' : Traced State}
  {r : Connection × Tables} {key key' : Key} {events : List Event}

/-- What is logged before the tables are at hand. -/
def preparing (address configured : Value) (isReady isOpen : Bool) : List Event :=
  if isReady then opening configured isOpen
  else .schemaReady "sqlite" Tables.names :: opening address isOpen

theorem exists_of_current (hlooked : onSite (current configured) t = (.ok r, t')) :
    ∃ site, t'.state = { t.state with site } ∧
      t'.events = opening configured t.state.site.connection.isSome ++ t.events := by
  obtain ⟨site, hran, hsame⟩ := of_onSite hlooked
  exact ⟨site, hsame, events_of_current hran⟩

/-- Making the tables logs that they are there. -/
theorem exists_of_createTables (hmade : onSite (createTables address) t = (.ok (), t')) :
    ∃ site, t'.state = { t.state with site } ∧ site.connection.isSome = true ∧
      t'.events = .schemaReady "sqlite" Tables.names ::
        (opening address t.state.site.connection.isSome ++ t.events) := by
  obtain ⟨site, hran, hsame⟩ := of_onSite hmade
  obtain ⟨_, -, hconnected⟩ := Database.of_createTables hran
  exact ⟨site, hsame, hconnected, events_of_createTables hran⟩

theorem exists_of_withFlows
    (hran : (readyFlows address >>= fun _ => onSite (current configured)) t = (.ok r, t')) :
    ∃ site, t'.state = { t.state with site, flowsReady := true } ∧
      t'.events = preparing address configured t.state.flowsReady t.state.site.connection.isSome ++
        t.events := by
  obtain ⟨⟨site, flowsReady, conversationsReady⟩, events⟩ := t
  cases flowsReady with
  | true => exact exists_of_current hran
  | false =>
    obtain ⟨_, t₂, hreadied, hlooked⟩ := Run.exists_of_bind hran
    obtain ⟨_, t₁, hmade, hwrote⟩ :=
      Run.exists_of_bind (m := onSite (createTables address)) hreadied
    cases hwrote
    obtain ⟨site₁, hsame, hconnected, hlogged⟩ := exists_of_createTables hmade
    obtain ⟨site₂, hsame', hlogged'⟩ := exists_of_current hlooked
    refine ⟨site₂, hsame'.trans (by rw [hsame]), hlogged'.trans ?_⟩
    simp only [hsame, hconnected, hlogged, opening, preparing, ↓reduceIte, Bool.false_eq_true,
      List.nil_append, List.cons_append]

theorem exists_of_withConversations
    (hran : (readyConversations address >>= fun _ => onSite (current configured)) t = (.ok r, t')) :
    ∃ site, t'.state = { t.state with site, conversationsReady := true } ∧
      t'.events = preparing address configured t.state.conversationsReady
        t.state.site.connection.isSome ++ t.events := by
  obtain ⟨⟨site, flowsReady, conversationsReady⟩, events⟩ := t
  cases conversationsReady with
  | true => exact exists_of_current hran
  | false =>
    obtain ⟨_, t₂, hreadied, hlooked⟩ := Run.exists_of_bind hran
    obtain ⟨_, t₁, hmade, hwrote⟩ :=
      Run.exists_of_bind (m := onSite (createTables address)) hreadied
    cases hwrote
    obtain ⟨site₁, hsame, hconnected, hlogged⟩ := exists_of_createTables hmade
    obtain ⟨site₂, hsame', hlogged'⟩ := exists_of_current hlooked
    refine ⟨site₂, hsame'.trans (by rw [hsame]), hlogged'.trans ?_⟩
    simp only [hsame, hconnected, hlogged, opening, preparing, ↓reduceIte, Bool.false_eq_true,
      List.nil_append, List.cons_append]

/-- What a store in a database knows is the same, whatever lies in the database. -/
structure Alike (s s' : State) : Prop where
  flows : s.flowsReady = s'.flowsReady
  conversations : s.conversationsReady = s'.conversationsReady
  connected : s.site.connection.isSome = s'.site.connection.isSome

/-- Tables that are at hand hold twins. -/
structure Paired (location : Location) (key key' : Key) (p p' : Connection × Tables)
    (s s' : State) : Prop where
  alike : Alike s s'
  points : p.1.location = location
  points' : p'.1.location = location
  ready : Ready location s p.2
  ready' : Ready location s' p'.2
  twins : Memory.Twins key key' (contents p.2) (contents p'.2)

/-- The tables at a location are twins, and what is known of them is the same. -/
structure Twins (location : Location) (key key' : Key) (s s' : State) : Prop where
  alike : Alike s s'
  shows : ∃ m m', Shows location s m ∧ Shows location s' m' ∧ Memory.Twins key key' m m'

theorem Paired.leaves {p p' : Connection × Tables} (hpaired : Paired location key key' p p' s s') :
    Twins location key key' s s' :=
  ⟨hpaired.alike, _, _, hpaired.ready.shows, hpaired.ready'.shows, hpaired.twins⟩

theorem Twins.withFlows (htwins : Twins location key key' s s')
    (hknown : IsAddressOf address location)
    (configured : Value) {α : Type} {E : Traced State → Traced State → Prop}
    {Q : α → α → Traced State → Traced State → Prop}
    {k k' : Connection × Tables → Run (Traced State) α}
    (hafter : ∀ p p' u u' events, Paired location key key' p p' u u' →
      Coupled E Q (k p ⟨u, events⟩) (k' p' ⟨u', events⟩)) :
    Coupled E Q ((readyFlows address >>= fun _ => onSite (current configured) >>= k) ⟨s, events⟩)
      ((readyFlows address >>= fun _ => onSite (current configured) >>= k') ⟨s', events⟩) := by
  obtain ⟨halike, m, m', hshows, hshows', hsame⟩ := htwins
  obtain ⟨c, tables, u, logged, hpoints, hready, rfl, hran⟩ :=
    withFlows_spec (hshows.reaches hknown configured .inl) events
  obtain ⟨c', tables', u', logged', hpoints', hready', rfl, hran'⟩ :=
    withFlows_spec (hshows'.reaches hknown configured .inl) events
  have hfound := hran Pure.pure
  have hfound' := hran' Pure.pure
  rw [Run.bind_pure] at hfound hfound'
  obtain ⟨site, rfl, rfl⟩ := exists_of_withFlows hfound
  obtain ⟨site', rfl, rfl⟩ := exists_of_withFlows hfound'
  rw [hran, hran', ← halike.flows, ← halike.connected]
  exact hafter _ _ _ _ _
    { alike := ⟨rfl, halike.conversations, hready.connected.trans hready'.connected.symm⟩
      points := hpoints, points' := hpoints', ready := hready, ready' := hready', twins := hsame }

theorem Twins.withConversations (htwins : Twins location key key' s s')
    (hknown : IsAddressOf address location) (configured : Value) {α : Type}
    {E : Traced State → Traced State → Prop} {Q : α → α → Traced State → Traced State → Prop}
    {k k' : Connection × Tables → Run (Traced State) α}
    (hafter : ∀ p p' u u' events, Paired location key key' p p' u u' →
      Coupled E Q (k p ⟨u, events⟩) (k' p' ⟨u', events⟩)) :
    Coupled E Q
      ((readyConversations address >>= fun _ => onSite (current configured) >>= k) ⟨s, events⟩)
      ((readyConversations address >>= fun _ => onSite (current configured) >>= k')
        ⟨s', events⟩) := by
  obtain ⟨halike, m, m', hshows, hshows', hsame⟩ := htwins
  obtain ⟨c, tables, u, logged, hpoints, hready, rfl, hran⟩ :=
    withConversations_spec (hshows.reaches hknown configured .inr) events
  obtain ⟨c', tables', u', logged', hpoints', hready', rfl, hran'⟩ :=
    withConversations_spec (hshows'.reaches hknown configured .inr) events
  have hfound := hran Pure.pure
  have hfound' := hran' Pure.pure
  rw [Run.bind_pure] at hfound hfound'
  obtain ⟨site, rfl, rfl⟩ := exists_of_withConversations hfound
  obtain ⟨site', rfl, rfl⟩ := exists_of_withConversations hfound'
  rw [hran, hran', ← halike.conversations, ← halike.connected]
  exact hafter _ _ _ _ _
    { alike := ⟨halike.flows, rfl, hready.connected.trans hready'.connected.symm⟩
      points := hpoints, points' := hpoints', ready := hready, ready' := hready', twins := hsame }

/-- Storing twins in the tables leaves twins. -/
theorem Paired.store {p p' : Connection × Tables} (hpaired : Paired location key key' p p' s s')
    (tables tables' : Tables) (htwins : Memory.Twins key key' (contents tables) (contents tables'))
    (events : List Event) :
    Coupled Traced.SameLog (fun _ _ => Traced.Related (Twins location key key'))
      (onSite (store p.1 tables) ⟨s, events⟩) (onSite (store p'.1 tables') ⟨s', events⟩) := by
  obtain ⟨u, hstored, hready⟩ := onSite_store hpaired.ready hpaired.points tables events
  obtain ⟨u', hstored', hready'⟩ := onSite_store hpaired.ready' hpaired.points' tables' events
  obtain ⟨site, -, hleft⟩ := of_onSite hstored
  obtain ⟨site', -, hleft'⟩ := of_onSite hstored'
  obtain rfl : u = { s with site } := hleft
  obtain rfl : u' = { s' with site := site' } := hleft'
  rw [hstored, hstored']
  refine .ok ⟨⟨⟨hpaired.alike.flows, hpaired.alike.conversations, ?_⟩, _, _, hready.shows,
    hready'.shows, htwins⟩, rfl⟩
  exact hready.connected.trans hready'.connected.symm

theorem tandem (hknown : IsAddressOf address location) (configured : Value) (key key' : Key)
    (now : String) :
    Tandem False key key' Traced.SameLog (Traced.Related (Twins location key key'))
      (access now address configured) where
  same hrelated := hrelated.2
  load t name := by
    rintro ⟨s, events⟩ ⟨s', _⟩ ⟨htwins, rfl⟩
    refine htwins.withFlows hknown configured fun p p' u u' events hpaired => ?_
    have hsame := congrArg (Keyed.get? · (flowKey t name)) hpaired.twins.flows
    simp only [get?_contents_flows] at hsame
    cases hfound : p.2.flows.get? (flowKey t name) <;>
      cases hfound' : p'.2.flows.get? (flowKey t name) <;>
      simp only [hfound, hfound', Option.map_none, Option.map_some, Option.some.injEq,
        reduceCtorEq] at hsame ⊢
    · exact .ok ⟨rfl, hpaired.leaves, rfl⟩
    · rw [hsame]
      cases Flow.ofValue now _ with
      | ok flow => exact .ok ⟨rfl, hpaired.leaves, rfl⟩
      | error mismatch => exact .ok ⟨rfl, hpaired.leaves, rfl⟩
  fetch := by
    rintro ⟨s, events⟩ ⟨s', _⟩ ⟨htwins, rfl⟩
    refine htwins.withConversations hknown configured fun p p' u u' events hpaired => ?_
    have hsame := hpaired.twins.entry
    simp only [get?_contents_conversations] at hsame
    exact .ok ⟨congrArg (Option.filter fun v => !v.isEmpty) hsame, fun _ _ htext => htext.elim,
      hpaired.leaves, rfl⟩
  put doc := by
    rintro ⟨s, events⟩ ⟨s', _⟩ ⟨htwins, rfl⟩
    refine htwins.withConversations hknown configured fun p p' u u' events hpaired => ?_
    have hsame := hpaired.twins.entry
    simp only [get?_contents_conversations] at hsame
    dsimp only
    rw [conversationRow_congr hsame doc]
    cases conversationRow (p'.2.conversations.get? key') doc with
    | error f => exact .error rfl
    | ok row =>
      refine (hpaired.store (withConversationRow p.2 key row) (withConversationRow p'.2 key' row)
        ?_ events).mono
          fun _ _ _ _ hrelated => ⟨hrelated.2, fun _ => hrelated⟩
      rw [contents_withConversationRow, contents_withConversationRow]
      exact hpaired.twins.withConversation _
  delete := by
    rintro ⟨s, events⟩ ⟨s', _⟩ ⟨htwins, rfl⟩
    refine htwins.withConversations hknown configured fun p p' u u' events hpaired => ?_
    have hsame := hpaired.twins.entry
    simp only [get?_contents_conversations] at hsame
    have hlisted : p.2.conversations.has key = p'.2.conversations.has key' := by
      simpa [Keyed.has] using congrArg Option.isSome hsame
    show Coupled _ _ ((if p.2.conversations.has key then _ else _ : Run _ _) _)
      ((if p'.2.conversations.has key' then _ else _ : Run _ _) _)
    rw [hlisted]
    cases p'.2.conversations.has key' with
    | false => exact .ok ⟨rfl, hpaired.leaves, rfl⟩
    | true =>
      refine (hpaired.store (withoutConversationRow p.2 key) (withoutConversationRow p'.2 key')
        ?_ events).bind
          fun _ _ _ _ hrelated => .ok ⟨rfl, hrelated⟩
      rw [contents_withoutConversationRow, contents_withoutConversationRow]
      exact hpaired.twins.withoutConversation

end Table

end Store

end Dialogue
